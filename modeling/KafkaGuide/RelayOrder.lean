import KafkaGuide.RelayInv
/-!
# RelayOrder — the order of one aggregate's records

`ORDER BY id` orders the rows of one tick only.  A row with a smaller id may be missing from a snapshot because its
transaction has not committed, or be skipped because another tick holds its lock: the first records of an aggregate
follow the ids when every row is locked in its turn (`InTurn`), and need not otherwise.
-/
namespace KafkaGuide
namespace Outbox

variable {cfg : Config}

/-- Row `i` is to be published before row `j`: a smaller id, the same topic and aggregate, a transaction that did not
roll back. -/
def Sys.Ahead (s : Sys) (i j : Nat) : Prop :=
  i < j ∧ ∃ ri rj, s.outbox i = some ri ∧ s.outbox j = some rj ∧ s.txns ri.txn ≠ .rolledBack ∧
    ri.event.topic = rj.event.topic ∧ ri.event.aggregateId = rj.event.aggregateId

instance (s : Sys) (i j : Nat) : Decidable (s.Ahead i j) :=
  decidable_of_iff (i < j ∧ (s.outbox i).any (fun ri => (s.outbox j).any (fun rj =>
      decide (s.txns ri.txn ≠ .rolledBack ∧ ri.event.topic = rj.event.topic ∧
        ri.event.aggregateId = rj.event.aggregateId))) = true) (by
    simp only [Sys.Ahead, Option.any_eq_true, decide_eq_true_eq]
    refine and_congr_right fun _ => ⟨?_, ?_⟩
    · rintro ⟨ri, hi, rj, hj, h⟩
      exact ⟨ri, rj, hi, hj, h⟩
    · rintro ⟨ri, rj, hi, hj, h⟩
      exact ⟨ri, hi, rj, hj, h⟩)

/-- Whenever a tick locks a row, each row ahead of it is published or locked by the same tick. -/
def InTurn (s : Sys) : Action → Prop
  | .visit r => match s.relays r with
    | .selecting (j :: _) rows =>
      (s.outbox j).any (fun row => decide (row.lockedBy = none ∧ row.published = false)) = true →
        ∀ i < j, s.Ahead i j → s.Published i ∨ i ∈ rows
    | _ => True
  | _ => True

instance (s : Sys) (a : Action) : Decidable (InTurn s a) := by
  unfold InTurn
  split
  · split
    · infer_instance
    · infer_instance
  · infer_instance

/-- A record of `i` comes before every record of `j`. -/
def Precedes (i j : Nat) (log : List Record) : Prop :=
  ∃ pre post, log = pre ++ post ∧ i ∈ pre.map Record.row ∧ j ∉ pre.map Record.row

theorem Precedes.append {i j : Nat} {log : List Record} (h : Precedes i j log) (recs : List Record) :
    Precedes i j (log ++ recs) := by
  obtain ⟨pre, post, rfl, hi, hj⟩ := h
  exact ⟨pre, post ++ recs, List.append_assoc .., hi, hj⟩

/-- What precedes in the log precedes in each partition that holds the first record. -/
theorem Precedes.filter {i j : Nat} {log : List Record} (h : Precedes i j log) {p : Record → Bool}
    (hp : ∀ rec ∈ log, rec.row = i → p rec = true) : Precedes i j (log.filter p) := by
  obtain ⟨pre, post, rfl, hi, hj⟩ := h
  refine ⟨pre.filter p, post.filter p, List.filter_append .., ?_, fun hmem => hj ?_⟩
  · obtain ⟨rec, hrec, hrow⟩ := List.mem_map.1 hi
    exact List.mem_map.2 ⟨rec, List.mem_filter.2 ⟨hrec, hp rec (List.mem_append_left _ hrec) hrow⟩, hrow⟩
  · obtain ⟨rec, hrec, hrow⟩ := List.mem_map.1 hmem
    exact List.mem_map.2 ⟨rec, (List.mem_filter.1 hrec).1, hrow⟩

/-- The row's record is in the log, on the wire or in flight. -/
def Sys.Sent (s : Sys) (j : Nat) : Prop :=
  j ∈ (s.log ++ s.wire).map Record.row ∨ ∃ r, (s.relays r).inFlight = some j

/-- **Rows are sent in order**: what a tick has locked, it has locked in its turn; what has been sent, was sent after
the rows ahead of it had reached the log. -/
structure Ordered (s : Sys) : Prop where
  turn : ∀ r, ∀ j ∈ (s.relays r).rows, ∀ i, s.Ahead i j → s.Published i ∨ i ∈ (s.relays r).rows
  sent : ∀ j, s.Sent j → ∀ i, s.Ahead i j → s.onLog i
  precedes : ∀ i j, s.Ahead i j → s.onLog j → Precedes i j s.log

/-! ## What a step leaves ahead, published and on the log -/

theorem ahead_mapRows {s : Sys} {f : Nat → Row → Row} (htxn : ∀ n row, (f n row).txn = row.txn)
    (hevent : ∀ n row, (f n row).event = row.event) {i j : Nat} (h : (s.mapRows f).Ahead i j) : s.Ahead i j := by
  obtain ⟨hlt, ri, rj, hi, hj, hlive, htopic, hagg⟩ := h
  obtain ⟨ri', hi', rfl⟩ := Option.map_eq_some_iff.1 hi
  obtain ⟨rj', hj', rfl⟩ := Option.map_eq_some_iff.1 hj
  rw [hevent, hevent] at htopic hagg
  rw [htxn] at hlive
  exact ⟨hlt, ri', rj', hi', hj', hlive, htopic, hagg⟩

theorem ahead_unlock {s : Sys} {r i j : Nat} (h : (s.unlock r).Ahead i j) : s.Ahead i j :=
  ahead_mapRows (fun _ _ => by split <;> rfl) (fun _ _ => by split <;> rfl) h

theorem ahead_lock {s : Sys} {n r i j : Nat} (h : (s.lock n r).Ahead i j) : s.Ahead i j :=
  ahead_mapRows (fun _ _ => by split <;> rfl) (fun _ _ => by split <;> rfl) h

theorem ahead_publish {s : Sys} {ids : List Nat} {i j : Nat} (h : (s.publish ids).Ahead i j) : s.Ahead i j := by
  unfold Sys.publish at h
  exact ahead_mapRows (by intros; rfl) (by intros; rfl) h

theorem ahead_visit {s : Sys} {r n i j : Nat} {snapshot rows : List Nat}
    (h : (s.visit r n snapshot rows).Ahead i j) : s.Ahead i j := by
  unfold Sys.visit at h
  split at h
  · split at h
    · exact ahead_lock (n := n) (r := r) h
    · exact h
  · exact h

/-- **A step puts no row ahead of one that was there.** -/
theorem ahead_step {s s' : Sys} {a : Action} (hinv : Inv cfg s) (h : Step cfg s a s') {i j : Nat} {row : Row}
    (hj : s.outbox j = some row) (ha : s'.Ahead i j) : s.Ahead i j := by
  cases h with
  | enqueue htxn hid =>
    have hjlt : j < s.nextId := by
      by_contra hge
      rw [hinv.fresh j (Nat.le_of_not_lt hge)] at hj
      cases hj
    obtain ⟨hlt, ri, rj, hi, hj', hrest⟩ := ha
    dsimp only at hi hj'
    rw [if_neg (by omega)] at hi hj'
    exact ⟨hlt, ri, rj, hi, hj', hrest⟩
  | commit htxn =>
    obtain ⟨hlt, ri, rj, hi, hj', hlive, hrest⟩ := ha
    refine ⟨hlt, ri, rj, hi, hj', fun hroll => hlive ?_, hrest⟩
    dsimp only
    rw [if_neg, hroll]
    rintro heq
    rw [heq, htxn] at hroll
    cases hroll
  | rollback htxn =>
    obtain ⟨hlt, ri, rj, hi, hj', hlive, hrest⟩ := ha
    refine ⟨hlt, ri, rj, hi, hj', fun hroll => hlive ?_, hrest⟩
    dsimp only
    split
    · rfl
    · exact hroll
  | visit htick hlimit => exact ahead_visit ha
  | commitTick htick => exact ahead_publish (ahead_unlock ha)
  | abort htick => exact ahead_unlock (s := { s with wire := _, aborted := _ }) ha
  | _ => exact ha

theorem published_visit {s : Sys} {r n m : Nat} {snapshot rows : List Nat} (h : s.Published m) :
    (s.visit r n snapshot rows).Published m := by
  unfold Sys.visit
  split
  · split
    · exact lock_published.2 h
    · exact h
  · exact h

theorem published_step {s s' : Sys} {a : Action} (hinv : Inv cfg s) (h : Step cfg s a s') {n : Nat}
    (hn : s.Published n) : s'.Published n := by
  cases h with
  | enqueue htxn hid =>
    obtain ⟨row, hrow, hpub⟩ := hn
    refine ⟨row, ?_, hpub⟩
    dsimp only
    rw [if_neg, hrow]
    rintro rfl
    rw [hinv.fresh _ (Nat.le_refl _)] at hrow
    cases hrow
  | visit htick hlimit => exact published_visit hn
  | @commitTick r publishedIds htick =>
    have hknown : ∀ m ∈ publishedIds, s.Committed m := fun m hm => hinv.known r m (by rw [htick]; exact hm)
    exact unlock_published.2 ((publish_published hknown).2 (.inl hn))
  | abort htick => exact unlock_published (s := { s with wire := _, aborted := _ }).2 hn
  | _ => exact hn

/-- A step adds to the log only what had been sent. -/
theorem log_step {s s' : Sys} {a : Action} (h : Step cfg s a s') :
    ∃ recs, s'.log = s.log ++ recs ∧ ∀ rec ∈ recs, s.Sent rec.row := by
  cases h with
  | @land r n rows publishedIds htick =>
    refine ⟨_, rfl, fun rec hrec => .inr ⟨r, ?_⟩⟩
    obtain ⟨row, -, heq⟩ := Option.map_eq_some_iff.1 (Option.mem_toList.1 hrec)
    rw [htick, ← heq]
    rfl
  | @landLate i rec hget =>
    refine ⟨[rec], rfl, fun rec' hrec => .inl ?_⟩
    rw [List.mem_singleton] at hrec
    rw [hrec, List.map_append]
    exact List.mem_append_right _ (List.mem_map_of_mem (List.mem_of_getElem? hget))
  | @visit r n snapshot rows htick hlimit =>
    refine ⟨[], ?_, fun _ h => nomatch h⟩
    unfold Sys.visit
    split
    · split <;> exact (List.append_nil _).symm
    · exact (List.append_nil _).symm
  | _ => exact ⟨[], (List.append_nil _).symm, fun _ h => nomatch h⟩

theorem onLog_step {s s' : Sys} {a : Action} (h : Step cfg s a s') {n : Nat} (hn : s.onLog n) : s'.onLog n := by
  obtain ⟨recs, hlog, -⟩ := log_step h
  unfold Sys.onLog
  rw [hlog, List.map_append]
  exact List.mem_append_left _ hn

/-- A tick keeps its rows until it ends, or locks one more. -/
theorem rows_step {s s' : Sys} {a : Action} (h : Step cfg s a s') (r : Nat) :
    (s'.relays r).rows = (s.relays r).rows ∨ (s'.relays r).rows = [] ∨
      ∃ n snapshot rows, a = .visit r ∧ s.relays r = .selecting (n :: snapshot) rows ∧
        (∃ row, s.outbox n = some row ∧ row.lockedBy = none ∧ row.published = false) ∧
        (s'.relays r).rows = rows ++ [n] := by
  have hset : ∀ {s0 : Sys} {r0 : Nat} {tick : Tick}, s0.relays = s.relays →
      (r = r0 → tick.rows = (s.relays r).rows ∨ tick.rows = []) →
      ((s0.setRelay r0 tick).relays r).rows = (s.relays r).rows ∨ ((s0.setRelay r0 tick).relays r).rows = [] := by
    intro s0 r0 tick hrelays htick
    rw [setRelay_relays, hrelays]
    split
    · rename_i hr
      exact htick hr
    · exact .inl rfl
  cases h with
  | enqueue | commit | rollback | landLate => exact .inl rfl
  | select htick => exact (hset rfl (fun _ => .inr rfl)).imp_right .inl
  | @visit r0 n snapshot rows htick hlimit =>
    have hskip := @hset s r0 (.selecting snapshot rows) rfl
      (fun hr => by rw [hr, htick]; exact .inl rfl)
    unfold Sys.visit
    split
    · rename_i row hrow
      split
      · rename_i hfree
        rw [setRelay_relays]
        split
        · rename_i hr
          subst hr
          exact .inr (.inr ⟨n, snapshot, rows, rfl, htick, ⟨row, hrow, hfree⟩, rfl⟩)
        · exact .inl rfl
      · exact hskip.imp_right .inl
    · exact hskip.imp_right .inl
  | selected htick =>
    refine (hset rfl (fun hr => ?_)).imp_right .inl
    rw [hr, htick]
    split
    · exact .inr rfl
    · exact .inl (by simp [Tick.rows])
  | send htick => exact (hset rfl (fun hr => by rw [hr, htick]; exact .inl (by simp [Tick.rows]))).imp_right .inl
  | land htick => exact (hset rfl (fun hr => by rw [hr, htick]; exact .inl rfl)).imp_right .inl
  | ack htick => exact (hset rfl (fun hr => by rw [hr, htick]; exact .inl (by simp [Tick.rows]))).imp_right .inl
  | mark htick => exact (hset rfl (fun hr => by rw [hr, htick]; exact .inl (by simp [Tick.rows]))).imp_right .inl
  | commitTick htick => exact (hset rfl (fun _ => .inr rfl)).imp_right .inl
  | abort htick => exact (hset rfl (fun _ => .inr rfl)).imp_right .inl

theorem recordOf_row {s : Sys} {n : Nat} {rec : Record} (h : rec ∈ (s.recordOf cfg n).toList) : rec.row = n := by
  obtain ⟨row, -, rfl⟩ := Option.map_eq_some_iff.1 (Option.mem_toList.1 h)
  rfl

/-- A step sends the next row of a tick, or nothing. -/
theorem sent_step {s s' : Sys} {a : Action} (h : Step cfg s a s') {j : Nat} (hj : s'.Sent j) :
    s.Sent j ∨ ∃ r rows publishedIds, s.relays r = .publishing (j :: rows) publishedIds none := by
  have hset : ∀ {s0 : Sys} {r0 : Nat} {tick : Tick}, s0.relays = s.relays →
      (tick.inFlight = some j →
        s.Sent j ∨ ∃ r rows publishedIds, s.relays r = .publishing (j :: rows) publishedIds none) →
      (∃ r, ((s0.setRelay r0 tick).relays r).inFlight = some j) →
      s.Sent j ∨ ∃ r rows publishedIds, s.relays r = .publishing (j :: rows) publishedIds none := by
    rintro s0 r0 tick hrelays htick ⟨r, hr⟩
    rw [setRelay_relays, hrelays] at hr
    split at hr
    · exact htick hr
    · exact .inl (.inr ⟨r, hr⟩)
  have hquiet : ∀ {r0 : Nat} {tick : Tick}, tick.inFlight = none → (s.setRelay r0 tick).Sent j →
      s.Sent j ∨ ∃ r rows publishedIds, s.relays r = .publishing (j :: rows) publishedIds none := by
    rintro r0 tick htick (hmem | hflight)
    · exact .inl (.inl hmem)
    · exact hset rfl (fun h => by rw [htick] at h; cases h) hflight
  cases h with
  | enqueue | commit | rollback => exact .inl hj
  | select htick => exact hquiet rfl hj
  | @visit r0 n snapshot rows htick hlimit =>
    unfold Sys.visit at hj
    split at hj
    · split at hj
      · exact @hquiet r0 (.selecting snapshot (rows ++ [n])) rfl hj
      · exact hquiet rfl hj
    · exact hquiet rfl hj
  | selected htick => exact hquiet (by split <;> rfl) hj
  | @send r0 n rows publishedIds htick =>
    rcases hj with hmem | hflight
    · exact .inl (.inl hmem)
    · refine hset rfl (fun hn => .inr ⟨r0, rows, publishedIds, ?_⟩) hflight
      cases hn
      exact htick
  | @land r0 n rows publishedIds htick =>
    rcases hj with hmem | hflight
    · change j ∈ (s.log ++ (s.recordOf cfg n).toList ++ s.wire).map Record.row at hmem
      obtain ⟨rec, hrec, hrow⟩ := List.mem_map.1 hmem
      rw [List.mem_append, List.mem_append] at hrec
      rcases hrec with (hrec | hrec) | hrec
      · exact .inl (.inl (List.mem_map.2 ⟨rec, List.mem_append_left _ hrec, hrow⟩))
      · refine .inl (.inr ⟨r0, ?_⟩)
        rw [htick, ← hrow, recordOf_row hrec]
        rfl
      · exact .inl (.inl (List.mem_map.2 ⟨rec, List.mem_append_right _ hrec, hrow⟩))
    · exact hset rfl (fun h => by simp [Tick.inFlight] at h) hflight
  | ack htick => exact hquiet rfl hj
  | mark htick => exact hquiet rfl hj
  | commitTick htick => exact hquiet rfl hj
  | @abort r0 htick =>
    rcases hj with hmem | hflight
    · change j ∈ (s.log ++ (s.wire ++ ((s.relays r0).inFlight.bind (s.recordOf cfg)).toList)).map Record.row at hmem
      rw [← List.append_assoc, List.map_append, List.mem_append] at hmem
      rcases hmem with hmem | hmem
      · exact .inl (.inl hmem)
      · obtain ⟨rec, hrec, hrow⟩ := List.mem_map.1 hmem
        obtain ⟨n, hflight, hrec⟩ := Option.bind_eq_some_iff.1 (Option.mem_toList.1 hrec)
        refine .inl (.inr ⟨r0, ?_⟩)
        rw [hflight, ← hrow, recordOf_row (Option.mem_toList.2 hrec)]
    · exact hset rfl (fun h => by simp [Tick.inFlight] at h) hflight
  | @landLate i rec hget =>
    rcases hj with hmem | hflight
    · exact .inl (.inl (((landLate_perm hget).map Record.row).mem_iff.1 hmem))
    · exact .inl (.inr hflight)

/-! ## Order along a run -/

theorem ordered_init : Ordered {} where
  turn _ _ h := nomatch h
  sent j h := by
    rcases h with h | ⟨r, h⟩ <;> cases h
  precedes _ _ _ h := nomatch h

/-- A row of a tick, on its record's way to the log, is in the table. -/
theorem Inv.row_of_sent {s : Sys} (hinv : Inv cfg s) {j : Nat} (h : s.Sent j) : ∃ row, s.outbox j = some row := by
  rcases h with h | ⟨r, h⟩
  · obtain ⟨rec, hrec, rfl⟩ := List.mem_map.1 h
    obtain ⟨row, hrow, -⟩ := hinv.built rec hrec
    exact ⟨row, hrow⟩
  · have hrows := (s.relays r).sent_sublist_rows.subset (Tick.inFlight_mem_sent h)
    obtain ⟨row, hrow, -⟩ := hinv.held r j hrows
    exact ⟨row, hrow⟩

theorem sent_of_onLog {s : Sys} {j : Nat} (h : s.onLog j) : s.Sent j := by
  left
  rw [List.map_append]
  exact List.mem_append_left _ h

/-- What a tick sends next, or has sent before, is in the table, and the rows ahead of it are on the log. -/
theorem Ordered.sent_step {s s' : Sys} {a : Action} (hinv : Inv cfg s) (ho : Ordered s) (h : Step cfg s a s') {j : Nat}
    (hj : s'.Sent j) : (∃ row, s.outbox j = some row) ∧ ∀ i, s.Ahead i j → s.onLog i := by
  rcases Outbox.sent_step h hj with hj | ⟨r, rows, publishedIds, htick⟩
  · exact ⟨hinv.row_of_sent hj, ho.sent j hj⟩
  · have hrows : j ∈ (s.relays r).rows := by
      rw [htick]
      simp [Tick.rows]
    obtain ⟨row, hrow, -⟩ := hinv.held r j hrows
    refine ⟨⟨row, hrow⟩, fun i ha => ?_⟩
    rcases ho.turn r j hrows i ha with hpub | hi
    · exact hinv.logged i hpub
    · -- ids are sorted, so the tick has landed every row it holds before `j`
      have hsorted := hinv.sorted r
      rw [htick] at hi hsorted
      refine hinv.landed r i ?_
      rw [htick]
      simp only [Tick.rows, Option.map_none, Option.toList_none, List.append_nil, List.mem_append, List.mem_cons] at hi
      simp only [Tick.ids, Option.map_none, Option.toList_none, List.append_nil] at hsorted
      have hafter := (List.pairwise_cons.1 (List.pairwise_append.1 hsorted).2.1).1
      rcases hi with hi | rfl | hi
      · exact hi
      · exact absurd ha.1 (Nat.lt_irrefl i)
      · exact absurd (hafter i hi) (Nat.not_lt_of_gt ha.1)

/-- **A step whose locks are in turn keeps the order.** -/
theorem ordered_step {s s' : Sys} {a : Action} (hinv : Inv cfg s) (ho : Ordered s) (h : Step cfg s a s')
    (hturn : InTurn s a) : Ordered s' where
  turn r j hj i ha := by
    rcases rows_step h r with hrows | hrows | ⟨n, snapshot, rows, rfl, htick, hfree, hrows⟩
    · rw [hrows] at hj ⊢
      obtain ⟨row, hrow, -⟩ := hinv.held r j hj
      exact (ho.turn r j hj i (ahead_step hinv h hrow ha)).imp_left (published_step hinv h)
    · rw [hrows] at hj
      cases hj
    · rw [hrows] at hj ⊢
      have hold : ∀ i, s.Published i ∨ i ∈ rows → s'.Published i ∨ i ∈ rows ++ [n] := fun i hi =>
        hi.imp (published_step hinv h) (List.mem_append_left _)
      rcases List.mem_append.1 hj with hj | hj
      · have hj' : j ∈ (s.relays r).rows := by
          rw [htick]
          exact hj
        obtain ⟨row, hrow, -⟩ := hinv.held r j hj'
        have hheld := ho.turn r j hj' i (ahead_step hinv h hrow ha)
        rw [htick] at hheld
        exact hold i hheld
      · rw [List.mem_singleton] at hj
        subst hj
        obtain ⟨row, hrow, -⟩ := id hfree
        unfold InTurn at hturn
        simp only [htick] at hturn
        have hfree' : (s.outbox j).any (fun row => decide (row.lockedBy = none ∧ row.published = false)) = true := by
          simpa [Option.any_eq_true] using hfree
        exact hold i (hturn hfree' i ha.1 (ahead_step hinv h hrow ha))
  sent j hj i ha := by
    obtain ⟨⟨row, hrow⟩, hahead⟩ := ho.sent_step hinv h hj
    exact onLog_step h (hahead i (ahead_step hinv h hrow ha))
  precedes i j ha hj := by
    obtain ⟨⟨row, hrow⟩, hahead⟩ := ho.sent_step hinv h (sent_of_onLog hj)
    have ha' := ahead_step hinv h hrow ha
    obtain ⟨recs, hlog, -⟩ := log_step h
    rw [hlog]
    by_cases hold : s.onLog j
    · exact (ho.precedes i j ha' hold).append recs
    · exact ⟨s.log, recs, rfl, hahead i ha', hold⟩

/-- **Rows locked in turn are published in order**: in every run whose ticks lock each row in its turn, once a row has a
record, each row ahead of it has one before, in the partition their key goes to. -/
theorem records_in_order (cfg : Config) (acts : List Action) {s : Sys} (hrun : (lts cfg).run {} acts = some s)
    (hturn : (lts cfg).Along (fun s a _ => InTurn s a) {} acts) {i j : Nat} {ri rj : Row} (hlt : i < j)
    (hi : s.outbox i = some ri) (hj : s.outbox j = some rj) (hlive : s.txns ri.txn ≠ .rolledBack)
    (htopic : ri.event.topic = rj.event.topic) (hagg : ri.event.aggregateId = rj.event.aggregateId)
    (hrec : s.onLog j) (part : String → Nat) :
    Precedes i j (partitionLog part s.log rj.event.topic (part rj.event.aggregateId)) := by
  have hstep : ∀ s a s', Inv cfg s ∧ Ordered s → (lts cfg).step s a = some s' → InTurn s a → Inv cfg s' ∧ Ordered s' :=
    fun s a s' hboth h hin =>
      ⟨inv_step hboth.1 (step_sound h), ordered_step hboth.1 hboth.2 (step_sound h) hin⟩
  obtain ⟨hinv, ho⟩ := (lts cfg).run_inv_along hstep ⟨inv_init, ordered_init⟩ hturn hrun
  refine (ho.precedes i j ⟨hlt, ri, rj, hi, hj, hlive, htopic, hagg⟩ hrec).filter fun rec hmem hrow => ?_
  obtain ⟨row, hget, -, hbuilt⟩ := hinv.built rec (List.mem_append_left _ hmem)
  rw [hrow, hi] at hget
  cases hget
  rw [hbuilt]
  simp [record, htopic, hagg]

theorem Precedes.head {i j : Nat} {rec : Record} {log : List Record} (h : Precedes i j (rec :: log)) : rec.row ≠ j := by
  obtain ⟨pre, post, heq, hi, hj⟩ := h
  cases pre with
  | nil => cases hi
  | cons rec' pre =>
    cases heq
    exact fun hrow => hj (hrow ▸ List.mem_cons_self)

def firstEvent : OutboxEvent :=
  enqueueEvent "Order" "7c9e6679-7425-40de-944b-e07fc1f90ae7" "OrderCreated" "order.events" [] none none
    ⟨"b5c1f2d4-6a3e-4f0b-9d27-81e4a6c03f52", by decide⟩

def secondEvent : OutboxEvent :=
  enqueueEvent "Order" "7c9e6679-7425-40de-944b-e07fc1f90ae7" "OrderPaid" "order.events" [] none none
    ⟨"9a7b330a-a736-4a5c-8f0e-2d1c5b7e4f60", by decide⟩

/-- What relay `r` does to publish the one row of its snapshot. -/
def publishOne (r : Nat) : List Action :=
  [.select r, .visit r, .selected r, .send r, .land r, .ack r, .mark r, .commitTick r]

/-- Two events of one order, the second enqueued after the first is published. -/
def inTurnRun : List Action :=
  [.enqueue 0 firstEvent, .commit 0] ++ publishOne 0 ++ [.enqueue 1 secondEvent, .commit 1] ++ publishOne 1

theorem records_in_order_natural : ∃ s ri rj, (lts ⟨100, fun _ => ""⟩).run {} inTurnRun = some s ∧
    s.outbox 0 = some ri ∧ s.outbox 1 = some rj ∧
    Precedes 0 1 (partitionLog (fun _ => 0) s.log rj.event.topic 0) :=
  ⟨_, _, _, rfl, rfl, rfl, records_in_order (i := 0) (j := 1) ⟨100, fun _ => ""⟩ inTurnRun rfl (by decide +kernel)
    Nat.zero_lt_one rfl rfl (by decide +kernel) rfl rfl (by decide +kernel) (fun _ => 0)⟩

/-- The second event commits and is published while the transaction of the first is open. -/
def overtakingRun : List Action :=
  [.enqueue 0 firstEvent, .enqueue 1 secondEvent, .commit 1] ++ publishOne 0 ++ [.commit 0] ++ publishOne 0

theorem second_overtakes : ∃ s ri rj, (lts ⟨100, fun _ => ""⟩).run {} overtakingRun = some s ∧
    s.outbox 0 = some ri ∧ s.outbox 1 = some rj ∧ ri.event.topic = rj.event.topic ∧
    ri.event.aggregateId = rj.event.aggregateId ∧ s.onLog 0 ∧ s.onLog 1 ∧
    ¬ Precedes 0 1 (partitionLog (fun _ => 0) s.log rj.event.topic 0) := by
  refine ⟨_, _, _, rfl, rfl, rfl, rfl, rfl, ?_, ?_, fun h => ?_⟩
  · decide +kernel
  · decide +kernel
  · exact h.head rfl

end Outbox
end KafkaGuide
