import Mathlib.Data.List.Perm.Basic
import Mathlib.Data.List.Range
import KafkaGuide.Relay
/-!
# RelayInv — what every run of the relays keeps

A row is locked by at most one tick, and only while it is committed and unpublished; a tick keeps its rows in id order.
What ties the log to the table is counted for each row: its records, in the log or still on the wire, are no more than
the aborted ticks that sent it, and one more while a tick has landed it or once it is published (`once`, `unlanded`).
-/
namespace KafkaGuide
namespace Outbox

/-- All the ids a tick knows of, in id order. -/
def Tick.ids : Tick → List Nat
  | .idle => []
  | .selecting snapshot rows => rows ++ snapshot
  | .publishing rows publishedIds sending => publishedIds ++ (sending.map Prod.fst).toList ++ rows
  | .marked publishedIds => publishedIds

/-- The rows whose record a tick has got into the log. -/
def Tick.landed : Tick → List Nat
  | .publishing _ publishedIds (some (n, true)) => publishedIds ++ [n]
  | .publishing _ publishedIds _ => publishedIds
  | .marked publishedIds => publishedIds
  | _ => []

def Sys.onLog (s : Sys) (n : Nat) : Prop := n ∈ s.log.map Record.row

instance (s : Sys) (n : Nat) : Decidable (s.onLog n) := inferInstanceAs (Decidable (n ∈ _))

/-- The records of a row, in the log and on the wire. -/
def Sys.copies (s : Sys) (n : Nat) : Nat := (s.log ++ s.wire).countP (fun rec => rec.row = n)

/-- How many aborted ticks had sent the row. -/
def Sys.abortedSends (s : Sys) (n : Nat) : Nat := s.aborted.countP (fun ids => n ∈ ids)

def Sys.Committed (s : Sys) (n : Nat) : Prop := ∃ row, s.outbox n = some row ∧ s.txns row.txn = .committed

def Sys.Published (s : Sys) (n : Nat) : Prop := ∃ row, s.outbox n = some row ∧ row.published = true

instance (s : Sys) (n : Nat) : Decidable (s.Published n) :=
  decidable_of_iff ((s.outbox n).any Row.published = true) (by simp [Sys.Published, Option.any_eq_true])

structure Inv (cfg : Config) (s : Sys) : Prop where
  fresh : ∀ n, s.nextId ≤ n → s.outbox n = none
  known : ∀ r, ∀ n ∈ (s.relays r).ids, s.Committed n
  sorted : ∀ r, (s.relays r).ids.Pairwise (· < ·)
  held : ∀ r, ∀ n ∈ (s.relays r).rows, ∃ row, s.outbox n = some row ∧ row.lockedBy = some r ∧ row.published = false
  landed : ∀ r, ∀ n ∈ (s.relays r).landed, s.onLog n
  logged : ∀ n, s.Published n → s.onLog n
  once : ∀ n, s.copies n ≤ s.abortedSends n + 1
  unlanded : ∀ n, ¬ s.Published n → (∀ r, n ∉ (s.relays r).landed) → s.copies n ≤ s.abortedSends n
  built : ∀ rec ∈ s.log ++ s.wire, ∃ row, s.outbox rec.row = some row ∧ s.txns row.txn = .committed ∧
    rec = record cfg.str rec.row row.event

variable {cfg : Config}

/-! ## Steps -/

inductive Step (cfg : Config) (s : Sys) : Action → Sys → Prop
  | enqueue {txn : Nat} {event : OutboxEvent} (htxn : s.txns txn = .active)
    (hid : s.hasEventId event.eventId = false) :
    Step cfg s (.enqueue txn event)
      { s with
        outbox := fun n => if n = s.nextId then some { event, txn } else s.outbox n
        nextId := s.nextId + 1 }
  | commit {txn : Nat} (htxn : s.txns txn = .active) :
    Step cfg s (.commit txn) { s with txns := fun t => if t = txn then .committed else s.txns t }
  | rollback {txn : Nat} (htxn : s.txns txn = .active) :
    Step cfg s (.rollback txn) { s with txns := fun t => if t = txn then .rolledBack else s.txns t }
  | select {r : Nat} (htick : s.relays r = .idle) :
    Step cfg s (.select r) (s.setRelay r (.selecting ((List.range s.nextId).filter s.unpublished) []))
  | visit {r n : Nat} {snapshot rows : List Nat} (htick : s.relays r = .selecting (n :: snapshot) rows)
    (hlimit : rows.length < cfg.batchSize) : Step cfg s (.visit r) (s.visit r n snapshot rows)
  | selected {r : Nat} {snapshot rows : List Nat} (htick : s.relays r = .selecting snapshot rows) :
    Step cfg s (.selected r) (s.setRelay r (if rows = [] then .idle else .publishing rows [] none))
  | send {r n : Nat} {rows publishedIds : List Nat} (htick : s.relays r = .publishing (n :: rows) publishedIds none) :
    Step cfg s (.send r) (s.setRelay r (.publishing rows publishedIds (some (n, false))))
  | land {r n : Nat} {rows publishedIds : List Nat}
    (htick : s.relays r = .publishing rows publishedIds (some (n, false))) :
    Step cfg s (.land r) ({ s with log := s.log ++ (s.recordOf cfg n).toList }.setRelay r
      (.publishing rows publishedIds (some (n, true))))
  | ack {r n : Nat} {rows publishedIds : List Nat}
    (htick : s.relays r = .publishing rows publishedIds (some (n, true))) :
    Step cfg s (.ack r) (s.setRelay r (.publishing rows (publishedIds ++ [n]) none))
  | mark {r : Nat} {publishedIds : List Nat} (htick : s.relays r = .publishing [] publishedIds none) :
    Step cfg s (.mark r) (s.setRelay r (.marked publishedIds))
  | commitTick {r : Nat} {publishedIds : List Nat} (htick : s.relays r = .marked publishedIds) :
    Step cfg s (.commitTick r) (((s.publish publishedIds).unlock r).setRelay r .idle)
  | abort {r : Nat} (htick : s.relays r ≠ .idle) :
    Step cfg s (.abort r) ({ s with
      wire := s.wire ++ ((s.relays r).inFlight.bind (s.recordOf cfg)).toList
      aborted := s.aborted ++ [(s.relays r).sent] }.unlock r |>.setRelay r .idle)
  | landLate {i : Nat} {rec : Record} (hget : s.wire[i]? = some rec) :
    Step cfg s (.landLate i) { s with log := s.log ++ [rec], wire := s.wire.eraseIdx i }

theorem step_sound {s s' : Sys} {a : Action} (h : step cfg s a = some s') : Step cfg s a s' := by
  unfold step at h
  split at h
  · split at h
    · rename_i hok
      cases h
      exact .enqueue hok.1 hok.2
    · cases h
  · split at h
    · rename_i htxn
      cases h
      exact .commit htxn
    · cases h
  · split at h
    · rename_i htxn
      cases h
      exact .rollback htxn
    · cases h
  · split at h
    · rename_i htick
      cases h
      exact .select htick
    · cases h
  · split at h
    · rename_i htick
      split at h
      · rename_i hlimit
        cases h
        exact .visit htick hlimit
      · cases h
    · cases h
  · split at h
    · rename_i htick
      split at h
      · cases h
        exact .selected htick
      · cases h
    · cases h
  · split at h
    · rename_i htick
      cases h
      exact .send htick
    · cases h
  · split at h
    · rename_i htick
      cases h
      exact .land htick
    · cases h
  · split at h
    · rename_i htick
      cases h
      exact .ack htick
    · cases h
  · split at h
    · rename_i htick
      cases h
      exact .mark htick
    · cases h
  · split at h
    · rename_i htick
      cases h
      exact .commitTick htick
    · cases h
  · split at h
    · cases h
    · rename_i htick
      cases h
      exact .abort htick
  · split at h
    · rename_i hget
      cases h
      exact .landLate hget
    · cases h

/-! ## What the operations on rows change -/

theorem setRelay_relays (s : Sys) (r r' : Nat) (tick : Tick) :
    (s.setRelay r tick).relays r' = if r' = r then tick else s.relays r' := rfl

theorem mapRows_get (s : Sys) (f : Nat → Row → Row) {n : Nat} {row : Row} (h : s.outbox n = some row) :
    (s.mapRows f).outbox n = some (f n row) := by
  change (s.outbox n).map (f n) = _
  rw [h]
  rfl

theorem mapRows_fresh {s : Sys} {f : Nat → Row → Row} (h : ∀ n, s.nextId ≤ n → s.outbox n = none) :
    ∀ n, s.nextId ≤ n → (s.mapRows f).outbox n = none := by
  intro n hn
  change (s.outbox n).map (f n) = none
  rw [h n hn]
  rfl

theorem Sys.Committed.mapRows {s : Sys} {f : Nat → Row → Row} (hf : ∀ n row, (f n row).txn = row.txn) {n : Nat}
    (h : s.Committed n) : (s.mapRows f).Committed n := by
  obtain ⟨row, hrow, htxn⟩ := h
  exact ⟨f n row, mapRows_get s f hrow, by rw [hf]; exact htxn⟩

theorem published_mapRows {s : Sys} {f : Nat → Row → Row} {n : Nat} :
    (s.mapRows f).Published n ↔ ∃ row, s.outbox n = some row ∧ (f n row).published = true := by
  constructor
  · rintro ⟨row', hrow', hpub⟩
    obtain ⟨row, hrow, rfl⟩ := Option.map_eq_some_iff.1 hrow'
    exact ⟨row, hrow, hpub⟩
  · rintro ⟨row, hrow, hpub⟩
    exact ⟨f n row, mapRows_get s f hrow, hpub⟩

theorem lock_get {s : Sys} {m : Nat} {row : Row} (h : s.outbox m = some row) (n r : Nat) :
    (s.lock n r).outbox m = some (if m = n then { row with lockedBy := some r } else row) :=
  mapRows_get s _ h

theorem unlock_get {s : Sys} {m : Nat} {row : Row} (h : s.outbox m = some row) (r : Nat) :
    (s.unlock r).outbox m = some (if row.lockedBy = some r then { row with lockedBy := none } else row) :=
  mapRows_get s _ h

theorem lock_published {s : Sys} {n r m : Nat} : (s.lock n r).Published m ↔ s.Published m := by
  unfold Sys.lock
  rw [published_mapRows]
  refine exists_congr fun row => and_congr_right fun _ => ?_
  split <;> exact Iff.rfl

theorem unlock_published {s : Sys} {r m : Nat} : (s.unlock r).Published m ↔ s.Published m := by
  unfold Sys.unlock
  rw [published_mapRows]
  refine exists_congr fun row => and_congr_right fun _ => ?_
  split <;> exact Iff.rfl

theorem publish_published {s : Sys} {ids : List Nat} (hknown : ∀ m ∈ ids, s.Committed m) {m : Nat} :
    (s.publish ids).Published m ↔ s.Published m ∨ m ∈ ids := by
  unfold Sys.publish
  rw [published_mapRows]
  simp only [Bool.or_eq_true, decide_eq_true_eq]
  constructor
  · rintro ⟨row, hrow, hpub | hm⟩
    · exact .inl ⟨row, hrow, hpub⟩
    · exact .inr hm
  · rintro (⟨row, hrow, hpub⟩ | hm)
    · exact ⟨row, hrow, .inl hpub⟩
    · obtain ⟨row, hrow, -⟩ := hknown m hm
      exact ⟨row, hrow, .inr hm⟩

theorem lock_committed {s : Sys} {n r m : Nat} (h : s.Committed m) : (s.lock n r).Committed m :=
  h.mapRows (fun _ _ => by split <;> rfl)

theorem unlock_committed {s : Sys} {r m : Nat} (h : s.Committed m) : (s.unlock r).Committed m :=
  h.mapRows (fun _ _ => by split <;> rfl)

theorem Tick.rows_sublist_ids (tick : Tick) : tick.rows.Sublist tick.ids := by
  cases tick with
  | selecting snapshot rows => exact List.sublist_append_left rows snapshot
  | _ => exact List.Sublist.refl _

theorem Tick.sent_sublist_rows (tick : Tick) : tick.sent.Sublist tick.rows := by
  cases tick with
  | publishing rows publishedIds sending => exact List.sublist_append_left _ rows
  | idle | marked publishedIds => exact List.Sublist.refl _
  | selecting snapshot rows => exact List.nil_sublist _

theorem Tick.landed_sublist_sent (tick : Tick) : tick.landed.Sublist tick.sent := by
  cases tick with
  | publishing rows publishedIds sending =>
    match sending with
    | none => exact List.sublist_append_left publishedIds []
    | some (n, true) => exact List.Sublist.refl _
    | some (n, false) => exact List.sublist_append_left publishedIds [n]
  | _ => exact List.Sublist.refl _

theorem Tick.inFlight_mem_sent {tick : Tick} {n : Nat} (h : tick.inFlight = some n) : n ∈ tick.sent := by
  unfold Tick.inFlight at h
  split at h
  · cases h
    exact List.mem_append_right _ List.mem_cons_self
  · cases h

/-- What a tick has landed is not in flight. -/
theorem Tick.inFlight_not_landed {tick : Tick} {n : Nat} (hs : tick.ids.Pairwise (· < ·)) (h : tick.inFlight = some n) :
    n ∉ tick.landed := by
  unfold Tick.inFlight at h
  split at h
  · rename_i rows publishedIds m
    cases h
    intro hmem
    have hlt := (List.pairwise_append.1 (List.pairwise_append.1 hs).1).2.2 n hmem n List.mem_cons_self
    exact absurd hlt (Nat.lt_irrefl n)
  · cases h

/-- **A row is locked by at most one tick.** -/
theorem Inv.held_unique {s : Sys} (hi : Inv cfg s) {r r' n : Nat} (h : n ∈ (s.relays r).rows)
    (h' : n ∈ (s.relays r').rows) : r' = r := by
  obtain ⟨row, hrow, hlock, -⟩ := hi.held r n h
  obtain ⟨row', hrow', hlock', -⟩ := hi.held r' n h'
  rw [hrow] at hrow'
  cases hrow'
  rw [hlock] at hlock'
  exact (Option.some.inj hlock').symm

theorem Inv.landed_rows {s : Sys} {r n : Nat} (h : n ∈ (s.relays r).landed) : n ∈ (s.relays r).rows :=
  ((s.relays r).landed_sublist_sent.trans (s.relays r).sent_sublist_rows).subset h

/-- A row whose send is in flight has as many records as aborted sends, at most. -/
theorem Inv.inFlight_copies {s : Sys} (hi : Inv cfg s) {r n : Nat} (h : (s.relays r).inFlight = some n) :
    s.copies n ≤ s.abortedSends n := by
  have hrows : n ∈ (s.relays r).rows := (s.relays r).sent_sublist_rows.subset (Tick.inFlight_mem_sent h)
  refine hi.unlanded n ?_ fun r' hland => ?_
  · rintro ⟨row', hrow', hpub⟩
    obtain ⟨row, hrow, -, hun⟩ := hi.held r n hrows
    rw [hrow] at hrow'
    cases hrow'
    rw [hun] at hpub
    cases hpub
  · have hr : r' = r := hi.held_unique hrows (Inv.landed_rows hland)
    subst hr
    exact Tick.inFlight_not_landed (hi.sorted r') h hland

/-! ## Each step keeps the invariant -/

theorem inv_init : Inv cfg {} where
  fresh _ _ := rfl
  known _ _ h := nomatch h
  sorted _ := List.Pairwise.nil
  held _ _ h := nomatch h
  landed _ _ h := nomatch h
  logged _ h := nomatch h
  once _ := Nat.zero_le _
  unlanded _ _ _ := Nat.le_refl 0
  built _ h := nomatch h

/-- A tick that moves on without touching the table or the log. -/
theorem Inv.tick {s : Sys} (hi : Inv cfg s) {r : Nat} {tick : Tick} (hknown : ∀ n ∈ tick.ids, s.Committed n)
    (hsorted : tick.ids.Pairwise (· < ·)) (hrows : ∀ n ∈ tick.rows, n ∈ (s.relays r).rows)
    (hlanded : tick.landed = (s.relays r).landed) : Inv cfg (s.setRelay r tick) where
  fresh := hi.fresh
  known r' n h := by
    rw [setRelay_relays] at h
    split at h
    · exact hknown n h
    · exact hi.known r' n h
  sorted r' := by
    rw [setRelay_relays]
    split
    · exact hsorted
    · exact hi.sorted r'
  held r' n h := by
    rw [setRelay_relays] at h
    split at h
    · rename_i hr
      rw [hr]
      exact hi.held r n (hrows n h)
    · exact hi.held r' n h
  landed r' n h := by
    rw [setRelay_relays] at h
    split at h
    · rw [hlanded] at h
      exact hi.landed r n h
    · exact hi.landed r' n h
  logged := hi.logged
  once := hi.once
  unlanded n hpub h := by
    refine hi.unlanded n hpub fun r' hland => ?_
    have hr' := h r'
    rw [setRelay_relays] at hr'
    split at hr'
    · rename_i hr
      rw [hlanded, ← hr] at hr'
      exact hr' hland
    · exact hr' hland
  built := hi.built

/-- A tick that goes on with the same rows and the same ids. -/
theorem Inv.tick_same {s : Sys} (hi : Inv cfg s) {r : Nat} {tick : Tick} (hids : tick.ids = (s.relays r).ids)
    (hrows : ∀ n ∈ tick.rows, n ∈ (s.relays r).rows) (hlanded : tick.landed = (s.relays r).landed) :
    Inv cfg (s.setRelay r tick) := by
  refine hi.tick ?_ ?_ hrows hlanded
  · rw [hids]
    exact hi.known r
  · rw [hids]
    exact hi.sorted r

theorem Inv.lock {s : Sys} (hi : Inv cfg s) {r n : Nat} {snapshot rows : List Nat} {row : Row}
    (htick : s.relays r = .selecting (n :: snapshot) rows) (hrow : s.outbox n = some row)
    (hfree : row.lockedBy = none ∧ row.published = false) :
    Inv cfg ((s.lock n r).setRelay r (.selecting snapshot (rows ++ [n]))) where
  fresh := mapRows_fresh hi.fresh
  known r' m h := by
    have hm : s.Committed m := by
      rw [setRelay_relays] at h
      split at h
      · refine hi.known r m ?_
        rw [htick]
        simpa [Tick.ids, or_assoc] using h
      · exact hi.known r' m h
    exact lock_committed hm
  sorted r' := by
    rw [setRelay_relays]
    split
    · have hsorted := hi.sorted r
      rw [htick] at hsorted
      simpa [Tick.ids, List.append_assoc] using hsorted
    · exact hi.sorted r'
  held r' m h := by
    have hne : ∀ r0, m ∈ (s.relays r0).rows → m ≠ n := by
      rintro r0 hm rfl
      obtain ⟨row0, hrow0, hlock0, -⟩ := hi.held r0 m hm
      rw [hrow] at hrow0
      cases hrow0
      rw [hfree.1] at hlock0
      cases hlock0
    rw [setRelay_relays] at h
    split at h
    · rename_i hr
      subst hr
      rcases List.mem_append.1 h with hm | hm
      · have hm' : m ∈ (s.relays r').rows := by rw [htick]; exact hm
        obtain ⟨row0, hrow0, hlock0⟩ := hi.held r' m hm'
        exact ⟨_, lock_get hrow0 n r', by rw [if_neg (hne r' hm')]; exact hlock0⟩
      · rw [List.mem_singleton] at hm
        subst hm
        exact ⟨_, lock_get hrow m r', by rw [if_pos rfl]; exact ⟨rfl, hfree.2⟩⟩
    · obtain ⟨row0, hrow0, hlock0⟩ := hi.held r' m h
      exact ⟨_, lock_get hrow0 n r, by rw [if_neg (hne r' h)]; exact hlock0⟩
  landed r' m h := by
    rw [setRelay_relays] at h
    split at h
    · cases h
    · exact hi.landed r' m h
  logged m h := hi.logged m (lock_published.1 h)
  once := hi.once
  unlanded m hpub h := by
    refine hi.unlanded m (fun hpub0 => hpub (lock_published.2 hpub0)) fun r' hland => ?_
    have hr' := h r'
    rw [setRelay_relays] at hr'
    split at hr'
    · rename_i hr
      rw [hr, htick] at hland
      cases hland
    · exact hr' hland
  built rec hrec := by
    obtain ⟨row0, hrow0, htxn, heq⟩ := hi.built rec hrec
    refine ⟨_, lock_get hrow0 n r, ?_, ?_⟩
    · split <;> exact htxn
    · split <;> exact heq

/-- The row of an id a tick knows of has a record to send. -/
theorem Inv.recordOf {s : Sys} (hi : Inv cfg s) {r n : Nat} (h : n ∈ (s.relays r).ids) :
    ∃ row, s.outbox n = some row ∧ s.txns row.txn = .committed ∧
      s.recordOf cfg n = some (record cfg.str n row.event) := by
  obtain ⟨row, hrow, htxn⟩ := hi.known r n h
  exact ⟨row, hrow, htxn, by rw [Sys.recordOf, hrow]; rfl⟩

/-- A step that changes only one relay's tick, within what it knew, keeps the parts of the invariant about ticks. -/
theorem Inv.ticks {s : Sys} (hi : Inv cfg s) (r : Nat) (tick : Tick) (hids : tick.ids = (s.relays r).ids)
    (hrows : tick.rows = (s.relays r).rows) (r' : Nat) :
    (∀ n ∈ ((s.setRelay r tick).relays r').ids, s.Committed n) ∧
      ((s.setRelay r tick).relays r').ids.Pairwise (· < ·) ∧
      ∀ n ∈ ((s.setRelay r tick).relays r').rows, ∃ row, s.outbox n = some row ∧ row.lockedBy = some r' ∧
        row.published = false := by
  rw [setRelay_relays]
  split
  · rename_i hr
    subst hr
    rw [hids, hrows]
    exact ⟨hi.known r', hi.sorted r', hi.held r'⟩
  · exact ⟨hi.known r', hi.sorted r', hi.held r'⟩

theorem Inv.land {s : Sys} (hi : Inv cfg s) {r n : Nat} {rows publishedIds : List Nat}
    (htick : s.relays r = .publishing rows publishedIds (some (n, false))) :
    Inv cfg ({ s with log := s.log ++ (s.recordOf cfg n).toList }.setRelay r
      (.publishing rows publishedIds (some (n, true)))) := by
  have hflight : (s.relays r).inFlight = some n := by rw [htick]; rfl
  have hids : n ∈ (s.relays r).ids := by rw [htick]; simp [Tick.ids]
  obtain ⟨row, hrow, htxn, hrec⟩ := hi.recordOf hids
  rw [hrec, Option.toList_some]
  have hcopies : ∀ m, Sys.copies { s with log := s.log ++ [record cfg.str n row.event] } m =
      s.copies m + if n = m then 1 else 0 := fun m => by
    unfold Sys.copies
    rw [List.countP_append, List.countP_append, List.countP_append, List.countP_singleton]
    by_cases hm : n = m
    · simp [record, hm]
      omega
    · simp [record, hm]
  have hlog : ∀ m, s.onLog m → m ∈ (s.log ++ [record cfg.str n row.event]).map Record.row := fun m h => by
    rw [List.map_append]
    exact List.mem_append_left _ h
  have hticks := hi.ticks r (.publishing rows publishedIds (some (n, true)))
    (by rw [htick]; rfl) (by rw [htick]; rfl)
  have hzero := hi.inFlight_copies hflight
  constructor
  case fresh => exact hi.fresh
  case known => exact fun r' => (hticks r').1
  case sorted => exact fun r' => (hticks r').2.1
  case held => exact fun r' => (hticks r').2.2
  case landed =>
    intro r' m h
    rw [setRelay_relays] at h
    split at h
    · rcases List.mem_append.1 h with hm | hm
      · exact hlog m (hi.landed r m (by rw [htick]; exact hm))
      · rw [List.mem_singleton] at hm
        subst hm
        change m ∈ (s.log ++ [record cfg.str m row.event]).map Record.row
        simp [record]
    · exact hlog m (hi.landed r' m h)
  case logged => exact fun m h => hlog m (hi.logged m h)
  case once =>
    intro m
    have honce := hi.once m
    change Sys.copies { s with log := s.log ++ [record cfg.str n row.event] } m ≤ s.abortedSends m + 1
    rw [hcopies]
    split
    · rename_i hm
      rw [← hm]
      omega
    · exact honce
  case unlanded =>
    intro m hpub h
    have hm : n ≠ m := by
      rintro rfl
      refine h r ?_
      rw [setRelay_relays, if_pos rfl]
      exact List.mem_append_right _ List.mem_cons_self
    have hold := hi.unlanded m hpub fun r' hland => by
      have hr' := h r'
      rw [setRelay_relays] at hr'
      split at hr'
      · rename_i hr
        rw [hr, htick] at hland
        exact hr' (List.mem_append_left _ hland)
      · exact hr' hland
    change Sys.copies { s with log := s.log ++ [record cfg.str n row.event] } m ≤ s.abortedSends m
    rw [hcopies, if_neg hm]
    exact hold
  case built =>
    intro rec hmem
    change rec ∈ s.log ++ [record cfg.str n row.event] ++ s.wire at hmem
    rw [List.mem_append, List.mem_append, List.mem_singleton] at hmem
    rcases hmem with (hmem | rfl) | hmem
    · exact hi.built rec (List.mem_append_left _ hmem)
    · exact ⟨row, hrow, htxn, rfl⟩
    · exact hi.built rec (List.mem_append_right _ hmem)

/-- A late record moves from the wire to the log. -/
theorem landLate_perm {s : Sys} {i : Nat} {rec : Record} (hget : s.wire[i]? = some rec) :
    (s.log ++ [rec] ++ s.wire.eraseIdx i).Perm (s.log ++ s.wire) := by
  obtain ⟨hlt, hrec⟩ := List.getElem?_eq_some_iff.1 hget
  rw [List.append_assoc, List.singleton_append, ← hrec]
  exact (List.getElem_cons_eraseIdx_perm hlt).append_left s.log

theorem Inv.landLate {s : Sys} (hi : Inv cfg s) {i : Nat} {rec : Record} (hget : s.wire[i]? = some rec) :
    Inv cfg { s with log := s.log ++ [rec], wire := s.wire.eraseIdx i } := by
  have hperm := landLate_perm hget
  have hlog : ∀ m, s.onLog m → m ∈ (s.log ++ [rec]).map Record.row := fun m h => by
    rw [List.map_append]
    exact List.mem_append_left _ h
  have hcopies : ∀ m, (s.log ++ [rec] ++ s.wire.eraseIdx i).countP (fun rec => rec.row = m) = s.copies m := fun m =>
    hperm.countP_eq _
  constructor
  case fresh => exact hi.fresh
  case known => exact hi.known
  case sorted => exact hi.sorted
  case held => exact hi.held
  case landed => exact fun r m h => hlog m (hi.landed r m h)
  case logged => exact fun m h => hlog m (hi.logged m h)
  case once => exact fun m => (hcopies m).trans_le (hi.once m)
  case unlanded => exact fun m hpub h => (hcopies m).trans_le (hi.unlanded m hpub h)
  case built => exact fun rec' h => hi.built rec' (hperm.mem_iff.1 h)

theorem Inv.enqueue {s : Sys} (hi : Inv cfg s) (txn : Nat) (event : OutboxEvent) :
    Inv cfg { s with
      outbox := fun n => if n = s.nextId then some { event, txn } else s.outbox n
      nextId := s.nextId + 1 } := by
  have hold : ∀ {n row}, s.outbox n = some row →
      (if n = s.nextId then some { event, txn } else s.outbox n : Option Row) = some row := fun {n row} h => by
    rw [if_neg, h]
    rintro rfl
    rw [hi.fresh s.nextId (Nat.le_refl _)] at h
    cases h
  have hpub : ∀ m, Sys.Published { s with
      outbox := fun n => if n = s.nextId then some { event, txn } else s.outbox n
      nextId := s.nextId + 1 } m ↔ s.Published m := fun m => by
    constructor
    · rintro ⟨row, hrow, h⟩
      dsimp only at hrow
      split at hrow
      · cases hrow
        cases h
      · exact ⟨row, hrow, h⟩
    · rintro ⟨row, hrow, h⟩
      exact ⟨row, hold hrow, h⟩
  constructor
  case fresh =>
    intro n hn
    have hn' : s.nextId < n := hn
    dsimp only
    rw [if_neg (Nat.ne_of_gt hn'), hi.fresh n (Nat.le_of_lt hn')]
  case known =>
    intro r n h
    obtain ⟨row, hrow, htxn⟩ := hi.known r n h
    exact ⟨row, hold hrow, htxn⟩
  case sorted => exact hi.sorted
  case held =>
    intro r n h
    obtain ⟨row, hrow, hlock⟩ := hi.held r n h
    exact ⟨row, hold hrow, hlock⟩
  case landed => exact hi.landed
  case logged => exact fun n h => hi.logged n ((hpub n).1 h)
  case once => exact hi.once
  case unlanded => exact fun n h => hi.unlanded n (fun h0 => h ((hpub n).2 h0))
  case built =>
    intro rec hrec
    obtain ⟨row, hrow, hbuilt⟩ := hi.built rec hrec
    exact ⟨row, hold hrow, hbuilt⟩

/-- A transaction that ends changes no transaction that had committed. -/
theorem Inv.endTxn {s : Sys} (hi : Inv cfg s) {txn : Nat} (htxn : s.txns txn = .active) (st : TxnState) :
    Inv cfg { s with txns := fun t => if t = txn then st else s.txns t } := by
  have hold : ∀ {t}, s.txns t = .committed → (if t = txn then st else s.txns t) = .committed := fun {t} h => by
    rw [if_neg, h]
    rintro rfl
    rw [htxn] at h
    cases h
  constructor
  case fresh => exact hi.fresh
  case known =>
    intro r n h
    obtain ⟨row, hrow, hcom⟩ := hi.known r n h
    exact ⟨row, hrow, hold hcom⟩
  case sorted => exact hi.sorted
  case held => exact hi.held
  case landed => exact hi.landed
  case logged => exact hi.logged
  case once => exact hi.once
  case unlanded => exact hi.unlanded
  case built =>
    intro rec hrec
    obtain ⟨row, hrow, hcom, hbuilt⟩ := hi.built rec hrec
    exact ⟨row, hrow, hold hcom, hbuilt⟩

theorem publish_get {s : Sys} {m : Nat} {row : Row} (h : s.outbox m = some row) (ids : List Nat) :
    (s.publish ids).outbox m = some { row with published := row.published || decide (m ∈ ids) } :=
  mapRows_get s _ h

theorem publish_committed {s : Sys} {ids : List Nat} {m : Nat} (h : s.Committed m) : (s.publish ids).Committed m := by
  obtain ⟨row, hrow, htxn⟩ := h
  exact ⟨_, publish_get hrow ids, htxn⟩

theorem Inv.sorted_idle {s s' : Sys} (hi : Inv cfg s) (hrelays : s'.relays = s.relays) (r r' : Nat) :
    ((s'.setRelay r .idle).relays r').ids.Pairwise (· < ·) := by
  rw [setRelay_relays]
  split
  · exact List.Pairwise.nil
  · rw [hrelays]
    exact hi.sorted r'

theorem Inv.landed_idle {s s' : Sys} (hi : Inv cfg s) (hrelays : s'.relays = s.relays) (r r' m : Nat)
    (h : m ∈ ((s'.setRelay r .idle).relays r').landed) : s.onLog m := by
  rw [setRelay_relays] at h
  split at h
  · cases h
  · rw [hrelays] at h
    exact hi.landed r' m h

theorem Inv.commitTick {s : Sys} (hi : Inv cfg s) {r : Nat} {publishedIds : List Nat}
    (htick : s.relays r = .marked publishedIds) :
    Inv cfg (((s.publish publishedIds).unlock r).setRelay r .idle) := by
  have hknown : ∀ m ∈ publishedIds, s.Committed m := fun m hm => hi.known r m (by rw [htick]; exact hm)
  have hpub : ∀ m, ((s.publish publishedIds).unlock r).Published m ↔ s.Published m ∨ m ∈ publishedIds := fun m => by
    rw [unlock_published, publish_published hknown]
  constructor
  case fresh => exact mapRows_fresh (s := s.publish publishedIds) (mapRows_fresh hi.fresh)
  case known =>
    intro r' m h
    rw [setRelay_relays] at h
    split at h
    · cases h
    · exact unlock_committed (publish_committed (hi.known r' m h))
  case sorted => exact hi.sorted_idle rfl r
  case held =>
    intro r' m h
    rw [setRelay_relays] at h
    split at h
    · cases h
    · rename_i hr
      obtain ⟨row, hrow, hlock, hun⟩ := hi.held r' m h
      have hnot : m ∉ publishedIds := fun hm =>
        hr (hi.held_unique (r := r) (by rw [htick]; exact hm) h)
      refine ⟨_, unlock_get (publish_get hrow publishedIds) r, ?_⟩
      rw [if_neg (by rw [hlock]; simpa using hr)]
      exact ⟨hlock, by simp [hun, hnot]⟩
  case landed => exact hi.landed_idle rfl r
  case logged =>
    intro m h
    rcases (hpub m).1 h with h | hm
    · exact hi.logged m h
    · exact hi.landed r m (by rw [htick]; exact hm)
  case once => exact hi.once
  case unlanded =>
    intro m hnot h
    refine hi.unlanded m (fun h0 => hnot ((hpub m).2 (.inl h0))) fun r' hland => ?_
    have hr' := h r'
    rw [setRelay_relays] at hr'
    split at hr'
    · rename_i hr
      rw [hr, htick] at hland
      exact hnot ((hpub m).2 (.inr hland))
    · exact hr' hland
  case built =>
    intro rec hrec
    obtain ⟨row, hrow, hcom, hbuilt⟩ := hi.built rec hrec
    refine ⟨_, unlock_get (publish_get hrow publishedIds) r, ?_, ?_⟩
    · split <;> exact hcom
    · split <;> exact hbuilt

/-- An aborted tick leaves the record of its row in flight on the wire. -/
theorem Inv.abort_copies {s : Sys} (hi : Inv cfg s) (r m : Nat) :
    (s.log ++ (s.wire ++ ((s.relays r).inFlight.bind (s.recordOf cfg)).toList)).countP (fun rec => rec.row = m) =
      s.copies m + if (s.relays r).inFlight = some m then 1 else 0 := by
  rw [← List.append_assoc, List.countP_append]
  refine congrArg (s.copies m + ·) ?_
  cases hflight : (s.relays r).inFlight with
  | none => rfl
  | some n =>
    have hrows := (s.relays r).sent_sublist_rows.subset (Tick.inFlight_mem_sent hflight)
    obtain ⟨row, -, -, hrec⟩ := hi.recordOf ((s.relays r).rows_sublist_ids.subset hrows)
    rw [Option.bind_some, hrec, Option.toList_some, List.countP_singleton]
    by_cases hm : n = m <;> simp [record, hm]

theorem abort_abortedSends (s : Sys) (r m : Nat) : (s.aborted ++ [(s.relays r).sent]).countP (fun ids => m ∈ ids) =
    s.abortedSends m + if m ∈ (s.relays r).sent then 1 else 0 := by
  rw [List.countP_append, List.countP_singleton]
  simp [Sys.abortedSends]

theorem Inv.abort_built {s : Sys} (hi : Inv cfg s) (r : Nat) {rec : Record}
    (hmem : rec ∈ s.log ++ (s.wire ++ ((s.relays r).inFlight.bind (s.recordOf cfg)).toList)) :
    ∃ row, s.outbox rec.row = some row ∧ s.txns row.txn = .committed ∧ rec = record cfg.str rec.row row.event := by
  rw [← List.append_assoc, List.mem_append] at hmem
  rcases hmem with hmem | hmem
  · exact hi.built rec hmem
  · obtain ⟨n, hflight, hrec⟩ := Option.bind_eq_some_iff.1 (Option.mem_toList.1 hmem)
    have hrows := (s.relays r).sent_sublist_rows.subset (Tick.inFlight_mem_sent hflight)
    obtain ⟨row, hrow, hcom, hrec'⟩ := hi.recordOf ((s.relays r).rows_sublist_ids.subset hrows)
    rw [hrec] at hrec'
    cases hrec'
    exact ⟨row, hrow, hcom, rfl⟩

/-- **An aborted tick** that had sent a row accounts for one more record of it. -/
theorem Inv.abort {s : Sys} (hi : Inv cfg s) (r : Nat) :
    Inv cfg ({ s with
      wire := s.wire ++ ((s.relays r).inFlight.bind (s.recordOf cfg)).toList
      aborted := s.aborted ++ [(s.relays r).sent] }.unlock r |>.setRelay r .idle) := by
  have hcopies := hi.abort_copies r
  have haborted := abort_abortedSends s r
  -- a row in flight has been sent by this tick, and has no more records than aborted sends
  have hone : ∀ m, s.copies m + (if (s.relays r).inFlight = some m then 1 else 0) ≤
      s.abortedSends m + (if m ∈ (s.relays r).sent then 1 else 0) + 1 := fun m => by
    have honce := hi.once m
    by_cases hflight : (s.relays r).inFlight = some m
    · rw [if_pos hflight, if_pos (Tick.inFlight_mem_sent hflight)]
      omega
    · rw [if_neg hflight]
      omega
  constructor
  case fresh => exact mapRows_fresh (s := { s with wire := _, aborted := _ }) hi.fresh
  case known =>
    intro r' m h
    rw [setRelay_relays] at h
    split at h
    · cases h
    · exact unlock_committed (s := { s with wire := _, aborted := _ }) (hi.known r' m h)
  case sorted => exact hi.sorted_idle rfl r
  case held =>
    intro r' m h
    rw [setRelay_relays] at h
    split at h
    · cases h
    · rename_i hr
      obtain ⟨row, hrow, hlock, hun⟩ := hi.held r' m h
      refine ⟨_, unlock_get (s := { s with wire := _, aborted := _ }) hrow r, ?_⟩
      rw [if_neg (by rw [hlock]; simpa using hr)]
      exact ⟨hlock, hun⟩
  case landed => exact hi.landed_idle rfl r
  case logged =>
    intro m h
    exact hi.logged m (unlock_published (s := { s with wire := _, aborted := _ }).1 h)
  case once =>
    intro m
    exact (hcopies m).trans_le ((hone m).trans_eq (by rw [← haborted m]; rfl))
  case unlanded =>
    intro m hnot h
    refine (hcopies m).trans_le (le_of_le_of_eq ?_ (haborted m).symm)
    by_cases hflight : (s.relays r).inFlight = some m
    · have hle := hi.inFlight_copies hflight
      rw [if_pos hflight, if_pos (Tick.inFlight_mem_sent hflight)]
      omega
    · rw [if_neg hflight]
      by_cases hland : m ∈ (s.relays r).landed
      · have honce := hi.once m
        rw [if_pos ((s.relays r).landed_sublist_sent.subset hland)]
        omega
      · have hle := hi.unlanded m
          (fun h0 => hnot (unlock_published (s := { s with wire := _, aborted := _ }).2 h0)) fun r' hland' => by
            have hr' := h r'
            rw [setRelay_relays] at hr'
            split at hr'
            · rename_i hr
              rw [hr] at hland'
              exact hland hland'
            · exact hr' hland'
        omega
  case built =>
    intro rec hmem
    obtain ⟨row, hrow, hcom, hbuilt⟩ := hi.abort_built r hmem
    refine ⟨_, unlock_get (s := { s with wire := _, aborted := _ }) hrow r, ?_, ?_⟩
    · split <;> exact hcom
    · split <;> exact hbuilt

theorem inv_step {s s' : Sys} {a : Action} (hi : Inv cfg s) (h : Step cfg s a s') : Inv cfg s' := by
  cases h with
  | @enqueue txn event htxn hid => exact hi.enqueue txn event
  | commit htxn => exact hi.endTxn htxn .committed
  | rollback htxn => exact hi.endTxn htxn .rolledBack
  | @select r htick =>
    refine hi.tick (fun n hn => ?_) ?_ (fun n hn => nomatch hn) (by rw [htick]; rfl)
    · have hun := (List.mem_filter.1 hn).2
      unfold Sys.unpublished at hun
      split at hun
      · rename_i row hrow
        simp only [Bool.and_eq_true, decide_eq_true_eq] at hun
        exact ⟨row, hrow, hun.1⟩
      · cases hun
    · exact List.pairwise_lt_range.filter _
  | @visit r n snapshot rows htick hlimit =>
    have hknown := hi.known r
    have hsorted := hi.sorted r
    have hskip : Inv cfg (s.setRelay r (.selecting snapshot rows)) := by
      rw [htick] at hknown hsorted
      refine hi.tick (fun m hm => hknown m ?_) (hsorted.sublist ?_) (fun m hm => by rw [htick]; exact hm)
        (by rw [htick]; rfl)
      · exact (List.Sublist.append_left (List.sublist_cons_self n snapshot) rows).subset hm
      · exact List.Sublist.append_left (List.sublist_cons_self n snapshot) rows
    unfold Sys.visit
    split
    · rename_i row hrow
      split
      · rename_i hfree
        exact hi.lock htick hrow hfree
      · exact hskip
    · exact hskip
  | @selected r snapshot rows htick =>
    have hknown := hi.known r
    have hsorted := hi.sorted r
    rw [htick] at hknown hsorted
    split
    · exact hi.tick (fun _ h => nomatch h) List.Pairwise.nil (fun _ h => nomatch h) (by rw [htick]; rfl)
    · refine hi.tick (fun m hm => hknown m ?_) ?_ (fun m hm => by rw [htick]; exact hm) (by rw [htick]; rfl)
      · exact List.mem_append_left _ hm
      · exact (List.pairwise_append.1 hsorted).1
  | @send r n rows publishedIds htick =>
    refine hi.tick_same ?_ (fun m hm => ?_) (by rw [htick]; rfl)
    · rw [htick]
      simp [Tick.ids]
    · rw [htick]
      simpa [Tick.rows] using hm
  | land htick => exact hi.land htick
  | @ack r n rows publishedIds htick =>
    refine hi.tick_same ?_ (fun m hm => ?_) (by rw [htick]; rfl)
    · rw [htick]
      simp [Tick.ids]
    · rw [htick]
      simpa [Tick.rows] using hm
  | @mark r publishedIds htick =>
    refine hi.tick_same ?_ (fun m hm => ?_) (by rw [htick]; rfl)
    · rw [htick]
      simp [Tick.ids]
    · rw [htick]
      simpa [Tick.rows] using hm
  | commitTick htick => exact hi.commitTick htick
  | abort htick => exact hi.abort _
  | landLate hget => exact hi.landLate hget

theorem reachable_inv {s : Sys} (h : (lts cfg).Reachable s) : Inv cfg s :=
  (lts cfg).reachable_inv inv_init (fun _ _ _ hi h => inv_step hi (step_sound h)) h

end Outbox
end KafkaGuide
