import Mathlib.Data.Finset.Card
import KafkaGuide.RelayLoss
/-!
# RelayDrain — the relays can always empty the outbox

No row is stranded: a lock is held by a tick that has the row in hand (`locks_held`), a tick under way can go on to its
commit (`finishes`), and a tick that starts while a row is free publishes one.  So from any state, whatever was aborted
before, ordinary steps of the relays publish every committed row (`drains`).
-/
namespace KafkaGuide
namespace Outbox

variable {cfg : Config}

/-! ## Who holds a lock -/

/-- Every lock is held by a tick that has the row in hand. -/
def LocksHeld (s : Sys) : Prop :=
  ∀ n row r, s.outbox n = some row → row.lockedBy = some r → n ∈ (s.relays r).rows

theorem setRelay_self (s : Sys) (r : Nat) (tick : Tick) : (s.setRelay r tick).relays r = tick := if_pos rfl

theorem setRelay_rows {s : Sys} {q r n : Nat} {tick : Tick} (htick : ∀ m ∈ (s.relays q).rows, m ∈ tick.rows)
    (hn : n ∈ (s.relays r).rows) : n ∈ ((s.setRelay q tick).relays r).rows := by
  rw [setRelay_relays]
  split
  · rename_i heq
    subst heq
    exact htick n hn
  · exact hn

theorem visit_rows {s : Sys} {q r n m : Nat} {snapshot rows : List Nat}
    (htick : s.relays q = .selecting (m :: snapshot) rows) (hn : n ∈ (s.relays r).rows) :
    n ∈ ((s.visit q m snapshot rows).relays r).rows := by
  have hskip : n ∈ ((s.setRelay q (.selecting snapshot rows)).relays r).rows := by
    refine setRelay_rows (fun k hk => ?_) hn
    rw [htick] at hk
    exact hk
  unfold Sys.visit
  split
  · split
    · refine setRelay_rows (s := s.lock m q) (fun k hk => ?_) hn
      change k ∈ (s.relays q).rows at hk
      rw [htick] at hk
      exact List.mem_append_left _ hk
    · exact hskip
  · exact hskip

/-- **A tick lets go of its rows only at its end**. -/
theorem rows_kept {s s' : Sys} {a : Action} (h : Step cfg s a s') {r n : Nat} (hn : n ∈ (s.relays r).rows) :
    n ∈ (s'.relays r).rows ∨ a = .commitTick r ∨ a = .abort r := by
  cases h with
  | enqueue | commit | rollback | landLate => exact .inl hn
  | select htick =>
    refine .inl (setRelay_rows (fun m hm => ?_) hn)
    rw [htick] at hm
    cases hm
  | visit htick hlimit => exact .inl (visit_rows htick hn)
  | @selected q snapshot rows htick =>
    refine .inl (setRelay_rows (fun m hm => ?_) hn)
    rw [htick] at hm
    change m ∈ rows at hm
    rw [if_neg (List.ne_nil_of_mem hm)]
    exact hm
  | send htick | ack htick | mark htick =>
    refine .inl (setRelay_rows (fun m hm => ?_) hn)
    rw [htick] at hm
    simpa [Tick.rows] using hm
  | @land q k rows publishedIds htick =>
    refine .inl (setRelay_rows (s := { s with log := s.log ++ (s.recordOf cfg k).toList }) (fun m hm => ?_) hn)
    change m ∈ (s.relays q).rows at hm
    rw [htick] at hm
    exact hm
  | @commitTick q publishedIds htick =>
    by_cases hr : r = q
    · exact .inr (.inl (hr ▸ rfl))
    · refine .inl ?_
      rw [setRelay_relays, if_neg hr]
      exact hn
  | @abort q htick =>
    by_cases hr : r = q
    · exact .inr (.inr (hr ▸ rfl))
    · refine .inl ?_
      rw [setRelay_relays, if_neg hr]
      exact hn

/-- A tick that ends lets go of its locks. -/
theorem LocksHeld.unlock {s : Sys} (h : LocksHeld s) (r : Nat) : LocksHeld ((s.unlock r).setRelay r .idle) := by
  intro n row r' hrow hlock
  obtain ⟨row₀, hrow₀, rfl⟩ := Option.map_eq_some_iff.1 hrow
  rw [setRelay_relays]
  dsimp only at hlock
  split at hlock
  · cases hlock
  · rename_i hother
    have hne : r' ≠ r := by
      rintro rfl
      exact hother hlock
    rw [if_neg hne]
    exact h n row₀ r' hrow₀ hlock

/-- A row that is locked after a visit was locked before it, or is the row of the visit. -/
theorem visit_locked {s : Sys} {r n m q : Nat} {snapshot rows : List Nat} {row : Row}
    (hrow : (s.visit r n snapshot rows).outbox m = some row) (hlock : row.lockedBy = some q) :
    (∃ row₀, s.outbox m = some row₀ ∧ row₀.lockedBy = some q) ∨
      (m = n ∧ q = r ∧ (s.visit r n snapshot rows).relays r = .selecting snapshot (rows ++ [n])) := by
  unfold Sys.visit at hrow ⊢
  split at hrow
  · split at hrow
    · rename_i row₁ hrow₁ hfree
      obtain ⟨row₀, hrow₀, hrow'⟩ := Option.map_eq_some_iff.1 hrow
      dsimp only at hrow'
      split at hrow'
      · rename_i hmn
        subst hrow'
        cases hlock
        refine .inr ⟨hmn, rfl, ?_⟩
        rw [if_pos hfree, setRelay_self]
      · subst hrow'
        exact .inl ⟨row₀, hrow₀, hlock⟩
    · exact .inl ⟨row, hrow, hlock⟩
  · exact .inl ⟨row, hrow, hlock⟩

theorem locksHeld_step {s s' : Sys} {a : Action} (h : LocksHeld s) (hstep : Step cfg s a s') : LocksHeld s' := by
  have hkept : ∀ {r n}, n ∈ (s.relays r).rows → (∀ q, a ≠ .commitTick q) → (∀ q, a ≠ .abort q) →
      n ∈ (s'.relays r).rows := by
    intro r n hn hcommit habort
    rcases rows_kept hstep hn with hn | ha | ha
    · exact hn
    · exact absurd ha (hcommit r)
    · exact absurd ha (habort r)
  cases hstep with
  | enqueue htxn hid =>
    intro n row r hrow hlock
    dsimp only at hrow
    split at hrow
    · cases hrow
      cases hlock
    · exact h n row r hrow hlock
  | commit | rollback | landLate => exact h
  | select | selected | send | land | ack | mark =>
    intro n row r hrow hlock
    exact hkept (h n row r hrow hlock) nofun nofun
  | @visit q m snapshot rows htick hlimit =>
    intro n row r hrow hlock
    rcases visit_locked hrow hlock with ⟨row₀, hrow₀, hlock₀⟩ | ⟨rfl, rfl, hnow⟩
    · exact hkept (h n row₀ r hrow₀ hlock₀) nofun nofun
    · rw [hnow]
      exact List.mem_append_right _ (List.mem_singleton.2 rfl)
  | commitTick htick =>
    refine LocksHeld.unlock (fun n row r hrow hlock => ?_) _
    obtain ⟨row₀, hrow₀, rfl⟩ := Option.map_eq_some_iff.1 hrow
    exact h n row₀ r hrow₀ hlock
  | @abort q htick => exact LocksHeld.unlock (s := { s with wire := _, aborted := _ }) h q

/-- **No lock is left behind**, not by an aborted tick either. -/
theorem locks_held {s : Sys} (h : (lts cfg).Reachable s) : LocksHeld s :=
  (lts cfg).reachable_inv (fun _ _ _ hrow => nomatch hrow) (fun _ _ _ hi hs => locksHeld_step hi (step_sound hs)) h

/-! ## A tick goes on to its commit -/

/-- The steps of ticks that go well. -/
def Action.IsWork : Action → Prop
  | .select _ | .visit _ | .selected _ | .send _ | .land _ | .ack _ | .mark _ | .commitTick _ => True
  | .enqueue _ _ | .commit _ | .rollback _ | .abort _ | .landLate _ => False

/-- How many steps a tick has left, at most. -/
def Tick.left : Tick → Nat
  | .idle => 0
  | .selecting snapshot rows => 3 + 4 * snapshot.length + 3 * rows.length
  | .publishing rows _ none => 2 + 3 * rows.length
  | .publishing rows _ (some (_, true)) => 3 + 3 * rows.length
  | .publishing rows _ (some (_, false)) => 4 + 3 * rows.length
  | .marked _ => 1

theorem visit_left (s : Sys) (r n : Nat) (snapshot rows : List Nat) :
    ((s.visit r n snapshot rows).relays r).left < (Tick.selecting (n :: snapshot) rows).left := by
  unfold Sys.visit
  split
  · split
    · rw [setRelay_self]
      simp only [Tick.left, List.length_append, List.length_cons, List.length_nil]
      omega
    · rw [setRelay_self]
      simp only [Tick.left, List.length_cons]
      omega
  · rw [setRelay_self]
    simp only [Tick.left, List.length_cons]
    omega

/-- **A tick under way has a step to take.** -/
theorem works {s : Sys} {r : Nat} (h : s.relays r ≠ .idle) :
    ∃ a t, Action.IsWork a ∧ step cfg s a = some t ∧ (t.relays r).left < (s.relays r).left := by
  cases htick : s.relays r with
  | idle => exact absurd htick h
  | selecting snapshot rows =>
    by_cases hend : snapshot = [] ∨ cfg.batchSize ≤ rows.length
    · refine ⟨.selected r, s.setRelay r (if rows = [] then .idle else .publishing rows [] none), trivial,
        by simp only [step, htick, if_pos hend], ?_⟩
      rw [setRelay_self]
      split <;> simp only [Tick.left] <;> omega
    · obtain ⟨hsnapshot, hlimit⟩ := not_or.1 hend
      obtain ⟨n, snapshot, rfl⟩ := List.exists_cons_of_ne_nil hsnapshot
      refine ⟨.visit r, s.visit r n snapshot rows, trivial, ?_, visit_left s r n snapshot rows⟩
      simp only [step, htick, if_pos (Nat.lt_of_not_le hlimit)]
  | publishing rows publishedIds sending =>
    match sending, rows with
    | none, [] =>
      refine ⟨.mark r, s.setRelay r (.marked publishedIds), trivial, by simp only [step, htick], ?_⟩
      rw [setRelay_self]
      simp only [Tick.left, List.length_nil]
      omega
    | none, n :: rows =>
      refine ⟨.send r, s.setRelay r (.publishing rows publishedIds (some (n, false))), trivial,
        by simp only [step, htick], ?_⟩
      rw [setRelay_self]
      simp only [Tick.left, List.length_cons]
      omega
    | some (n, false), rows =>
      refine ⟨.land r, { s with log := s.log ++ (s.recordOf cfg n).toList }.setRelay r
        (.publishing rows publishedIds (some (n, true))), trivial,
        by simp only [step, htick], ?_⟩
      rw [setRelay_self]
      simp only [Tick.left]
      omega
    | some (n, true), rows =>
      refine ⟨.ack r, s.setRelay r (.publishing rows (publishedIds ++ [n]) none), trivial,
        by simp only [step, htick], ?_⟩
      rw [setRelay_self]
      simp only [Tick.left]
      omega
  | marked publishedIds =>
    refine ⟨.commitTick r, ((s.publish publishedIds).unlock r).setRelay r .idle, trivial,
      by simp only [step, htick], ?_⟩
    rw [setRelay_self]
    exact Nat.zero_lt_one

/-! ## What good ticks keep -/

/-- The same rows are committed, and what was published stays so. -/
structure Sys.Onward (s t : Sys) : Prop where
  nextId : t.nextId = s.nextId
  committed : ∀ n, t.Committed n ↔ s.Committed n
  published : ∀ n, s.Published n → t.Published n

theorem Sys.Onward.refl (s : Sys) : s.Onward s := ⟨rfl, fun _ => Iff.rfl, fun _ h => h⟩

theorem Sys.Onward.trans {s t u : Sys} (h : s.Onward t) (h' : t.Onward u) : s.Onward u where
  nextId := h'.nextId.trans h.nextId
  committed n := (h'.committed n).trans (h.committed n)
  published n hn := h'.published n (h.published n hn)

/-- Rows that keep their transaction, and their `published_at` once it is set. -/
theorem onward_mapRows {s t : Sys} {f : Nat → Row → Row} (htxn : ∀ n row, (f n row).txn = row.txn)
    (hpub : ∀ n row, row.published = true → (f n row).published = true) (hid : t.nextId = s.nextId)
    (htxns : t.txns = s.txns) (hrows : ∀ n, t.outbox n = (s.outbox n).map (f n)) : s.Onward t where
  nextId := hid
  committed n := by
    unfold Sys.Committed
    rw [htxns, hrows]
    constructor
    · rintro ⟨row', hrow', hcom⟩
      obtain ⟨row, hrow, rfl⟩ := Option.map_eq_some_iff.1 hrow'
      exact ⟨row, hrow, htxn n row ▸ hcom⟩
    · rintro ⟨row, hrow, hcom⟩
      exact ⟨f n row, by rw [hrow]; rfl, (htxn n row).symm ▸ hcom⟩
  published n := by
    rintro ⟨row, hrow, h⟩
    exact ⟨f n row, by rw [hrows, hrow]; rfl, hpub n row h⟩

/-- A step that leaves the table as it is. -/
theorem onward_same {s t : Sys} (hid : t.nextId = s.nextId) (htxns : t.txns = s.txns) (hrows : t.outbox = s.outbox) :
    s.Onward t where
  nextId := hid
  committed n := by
    unfold Sys.Committed
    rw [htxns, hrows]
  published n := by
    unfold Sys.Published
    rw [hrows]
    exact id

theorem onward_visit (s : Sys) (r n : Nat) (snapshot rows : List Nat) : s.Onward (s.visit r n snapshot rows) := by
  unfold Sys.visit
  split
  · split
    · refine onward_mapRows (f := fun n' row => if n' = n then { row with lockedBy := some r } else row) ?_ ?_ rfl rfl
        fun _ => rfl
      · intro m row
        split <;> rfl
      · intro m row h
        split <;> exact h
    · exact onward_same rfl rfl rfl
  · exact onward_same rfl rfl rfl

theorem onward_commitTick (s : Sys) (r : Nat) (publishedIds : List Nat) :
    s.Onward (((s.publish publishedIds).unlock r).setRelay r .idle) := by
  have hpublish : s.Onward (s.publish publishedIds) :=
    onward_mapRows (f := fun n row => { row with published := row.published || decide (n ∈ publishedIds) })
      (fun _ _ => rfl) (fun _ _ h => by simp [h]) rfl rfl fun _ => rfl
  refine hpublish.trans (onward_mapRows
    (f := fun _ row => if row.lockedBy = some r then { row with lockedBy := none } else row) ?_ ?_ rfl rfl fun _ => rfl)
  · intro m row
    split <;> rfl
  · intro m row h
    split <;> exact h

theorem onward_step {s s' : Sys} {a : Action} (ha : a.IsWork) (h : Step cfg s a s') : s.Onward s' := by
  cases h with
  | enqueue | commit | rollback | abort | landLate => exact absurd ha id
  | select | selected | send | land | ack | mark => exact onward_same rfl rfl rfl
  | @visit r n snapshot rows htick hlimit => exact onward_visit s r n snapshot rows
  | @commitTick r publishedIds htick => exact onward_commitTick s r publishedIds

/-- What every state on the way has. -/
structure Way (cfg : Config) (s t : Sys) : Prop where
  inv : Inv cfg t
  locks : LocksHeld t
  onward : s.Onward t

theorem way_step {s t u : Sys} {a : Action} (h : Way cfg s t) (ha : a.IsWork) (hstep : step cfg t a = some u) :
    Way cfg s u where
  inv := inv_step h.inv (step_sound hstep)
  locks := locksHeld_step h.locks (step_sound hstep)
  onward := h.onward.trans (onward_step ha (step_sound hstep))

/-- **A tick under way can go on until its relay is idle**. -/
theorem finishes {s t : Sys} (h : Way cfg s t) (r : Nat) :
    ∃ u, (lts cfg).Leads Action.IsWork t u ∧ Way cfg s u ∧ u.relays r = .idle := by
  refine Lts.leads_of_measure (fun u => (u.relays r).left) (fun u hu hbusy => ?_) h
  obtain ⟨a, v, ha, hstep, hlt⟩ := @works cfg _ _ hbusy
  exact ⟨v, .of_step ha hstep, way_step hu ha hstep, hlt⟩

/-! ## A row gets published -/

/-- A row that a good tick has stays with it until it is published. -/
theorem taken_step {s s' : Sys} {a : Action} (hi : Inv cfg s) (ha : a.IsWork) (h : Step cfg s a s') {r n : Nat}
    (ht : n ∈ (s.relays r).rows ∨ s.Published n) : n ∈ (s'.relays r).rows ∨ s'.Published n := by
  rcases ht with hrows | hpub
  · rcases rows_kept h hrows with hrows' | rfl | rfl
    · exact .inl hrows'
    · cases h with
      | commitTick htick =>
        rw [htick] at hrows
        have hknown := hi.known r
        rw [htick] at hknown
        exact .inr (unlock_published.2 ((publish_published hknown).2 (.inr hrows)))
    · exact absurd ha id
  · exact .inr ((onward_step ha h).published n hpub)

/-- **A row that a tick has gets published**. -/
theorem held_published {s t : Sys} (h : Way cfg s t) {r n : Nat} (hn : n ∈ (t.relays r).rows) :
    ∃ u, (lts cfg).Leads Action.IsWork t u ∧ Way cfg s u ∧ u.Published n := by
  obtain ⟨u, hlead, hu, hidle⟩ := finishes h r
  have htaken : Inv cfg u ∧ (n ∈ (u.relays r).rows ∨ u.Published n) := by
    refine hlead.inv (I := fun v => Inv cfg v ∧ (n ∈ (v.relays r).rows ∨ v.Published n)) ?_ ⟨h.inv, .inl hn⟩
    rintro v a v' ⟨hi, ht⟩ ha hstep
    exact ⟨inv_step hi (step_sound hstep), taken_step hi ha (step_sound hstep) ht⟩
  rcases htaken.2 with hrows | hpub
  · rw [hidle] at hrows
    cases hrows
  · exact ⟨u, hlead, hu, hpub⟩

/-- A row that no tick has locked and that is not published. -/
def Sys.Free (s : Sys) (n : Nat) : Prop := ∃ row, s.outbox n = some row ∧ row.lockedBy = none ∧ row.published = false

/-- **A SELECT that sees a free row locks one**, whatever the other rows of its snapshot are. -/
theorem free_held (hbatch : 0 < cfg.batchSize) {s : Sys} {r n : Nat} : ∀ {snapshot : List Nat} {t : Sys}, Way cfg s t →
    t.relays r = .selecting snapshot [] → n ∈ snapshot → t.Free n →
    ∃ u, (lts cfg).Leads Action.IsWork t u ∧ Way cfg s u ∧ (u.relays r).rows ≠ []
  | [], _, _, _, hn, _ => nomatch hn
  | m :: snapshot, t, h, htick, hn, hfree => by
    have hstep : step cfg t (.visit r) = some (t.visit r m snapshot []) := by
      simp only [step, htick, List.length_nil, if_pos hbatch]
    have hway := way_step (a := .visit r) h trivial hstep
    by_cases hm : t.Free m
    · obtain ⟨row, hrow, hfree⟩ := hm
      refine ⟨_, .of_step (e := .visit r) trivial hstep, hway, ?_⟩
      unfold Sys.visit
      simp only [hrow, if_pos hfree, setRelay_self]
      exact nofun
    · have hskip : t.visit r m snapshot [] = t.setRelay r (.selecting snapshot []) := by
        unfold Sys.visit
        split
        · rename_i row hrow
          exact if_neg fun hfree => hm ⟨row, hrow, hfree⟩
        · rfl
      rw [hskip] at hstep hway
      have hmem : n ∈ snapshot := by
        rcases List.mem_cons.1 hn with rfl | hmem
        · exact absurd hfree hm
        · exact hmem
      obtain ⟨u, hlead, hu, hrows⟩ := free_held hbatch hway (setRelay_self t r _) hmem hfree
      exact ⟨u, (Lts.Leads.of_step (e := .visit r) trivial hstep).trans hlead, hu, hrows⟩

/-! ## The outbox empties -/

theorem unpublished_iff {s : Sys} {n : Nat} : s.unpublished n = true ↔ s.Committed n ∧ ¬ s.Published n := by
  unfold Sys.unpublished Sys.Committed Sys.Published
  cases s.outbox n with
  | none => simp
  | some row => simp

theorem Inv.committed_lt {s : Sys} (hi : Inv cfg s) {n : Nat} (h : s.Committed n) : n < s.nextId := by
  obtain ⟨row, hrow, -⟩ := h
  refine Nat.lt_of_not_le fun hle => ?_
  rw [hi.fresh n hle] at hrow
  cases hrow

/-- The committed rows that are still to be published. -/
def Sys.pending (s : Sys) : Finset Nat := (Finset.range s.nextId).filter (fun n => s.unpublished n = true)

theorem Sys.Onward.pending_lt {s t : Sys} (h : s.Onward t) {n : Nat} (hn : n ∈ s.pending) (hpub : t.Published n) :
    t.pending.card < s.pending.card := by
  refine Finset.card_lt_card (Finset.ssubset_iff_of_subset (fun m hm => ?_) |>.2 ⟨n, hn, fun hn' => ?_⟩)
  · obtain ⟨hlt, hun⟩ := Finset.mem_filter.1 hm
    obtain ⟨hcom, hnot⟩ := unpublished_iff.1 hun
    refine Finset.mem_filter.2 ⟨h.nextId ▸ hlt, unpublished_iff.2 ⟨(h.committed m).1 hcom, fun hpub => ?_⟩⟩
    exact hnot (h.published m hpub)
  · exact (unpublished_iff.1 (Finset.mem_filter.1 hn').2).2 hpub

/-- Where some row is held, or is free and can be seen, the relays get one published. -/
theorem publishes_one (hbatch : 0 < cfg.batchSize) {s : Sys} (hi : Inv cfg s) (hl : LocksHeld s) {n : Nat}
    (hn : n ∈ s.pending) : ∃ t, (lts cfg).Leads Action.IsWork s t ∧ Way cfg s t ∧ t.pending.card < s.pending.card := by
  obtain ⟨hcom, hnot⟩ := unpublished_iff.1 (Finset.mem_filter.1 hn).2
  have hstart : Way cfg s s := ⟨hi, hl, .refl s⟩
  -- relay 0 ends its tick, if it has one under way
  obtain ⟨t, hst, ht, hidle⟩ := finishes hstart 0
  by_cases hpub : t.Published n
  · exact ⟨t, hst, ht, ht.onward.pending_lt hn hpub⟩
  · have hcom' := (ht.onward.committed n).2 hcom
    obtain ⟨row, hrow, htxn⟩ := hcom'
    have hrow' : row.published = false := by
      cases h : row.published with
      | false => rfl
      | true => exact absurd ⟨row, hrow, h⟩ hpub
    cases hlock : row.lockedBy with
    | some r =>
      obtain ⟨u, htu, hu, hpub'⟩ := held_published ht (ht.locks n row r hrow hlock)
      exact ⟨u, hst.trans htu, hu, hu.onward.pending_lt hn hpub'⟩
    | none =>
      have hstep : step cfg t (.select 0) =
          some (t.setRelay 0 (.selecting ((List.range t.nextId).filter t.unpublished) [])) := by
        simp only [step, hidle]
      have hsel := way_step (a := .select 0) ht trivial hstep
      have hseen : n ∈ (List.range t.nextId).filter t.unpublished :=
        List.mem_filter.2 ⟨List.mem_range.2 (ht.inv.committed_lt ⟨row, hrow, htxn⟩),
          unpublished_iff.2 ⟨⟨row, hrow, htxn⟩, hpub⟩⟩
      obtain ⟨u, htu, hu, hrows⟩ := free_held hbatch hsel (setRelay_self t 0 _) hseen ⟨row, hrow, hlock, hrow'⟩
      obtain ⟨m, hm⟩ := List.exists_mem_of_ne_nil _ hrows
      obtain ⟨v, huv, hv, hpubm⟩ := held_published hu hm
      -- the row the SELECT locked was pending from the start
      have hmem : m ∈ s.pending := by
        have hcomm := hu.inv.known 0 m ((Tick.rows_sublist_ids _).subset hm)
        have hcomm' := (hu.onward.committed m).1 hcomm
        refine Finset.mem_filter.2
          ⟨Finset.mem_range.2 (hi.committed_lt hcomm'), unpublished_iff.2 ⟨hcomm', fun h => ?_⟩⟩
        obtain ⟨row', hrow', hpub'⟩ := hu.onward.published m h
        obtain ⟨row₁, hrow₁, -, hun⟩ := hu.inv.held 0 m hm
        rw [hrow'] at hrow₁
        cases hrow₁
        rw [hpub'] at hun
        cases hun
      refine ⟨v, hst.trans ?_, hv, hv.onward.pending_lt hmem hpubm⟩
      exact (Lts.Leads.of_step (e := .select 0) trivial hstep).trans (htu.trans huv)

/-- The relays go on until nothing is pending. -/
theorem empties (hbatch : 0 < cfg.batchSize) {s : Sys} (h : (lts cfg).Reachable s) :
    ∃ t, (lts cfg).Leads Action.IsWork s t ∧ Way cfg s t ∧ t.pending = ∅ := by
  have hdrop : ∀ t, Way cfg s t → ¬ t.pending = ∅ →
      ∃ u, (lts cfg).Leads Action.IsWork t u ∧ Way cfg s u ∧ u.pending.card < t.pending.card := by
    intro t ht hbusy
    obtain ⟨n, hn⟩ := Finset.nonempty_iff_ne_empty.2 hbusy
    obtain ⟨u, htu, hu, hlt⟩ := publishes_one hbatch ht.inv ht.locks hn
    exact ⟨u, htu, ⟨hu.inv, hu.locks, ht.onward.trans hu.onward⟩, hlt⟩
  have hstart : Way cfg s s := ⟨reachable_inv h, locks_held h, .refl s⟩
  exact Lts.leads_of_measure (fun t : Sys => t.pending.card) hdrop hstart

theorem Way.published {s t : Sys} (h : Way cfg s t) (hdone : t.pending = ∅) {n : Nat} (hn : s.Committed n) :
    t.Published n ∧ t.onLog n := by
  have hcom := (h.onward.committed n).2 hn
  have hpub : t.Published n := by
    by_contra hnot
    have hmem : n ∈ t.pending :=
      Finset.mem_filter.2 ⟨Finset.mem_range.2 (h.inv.committed_lt hcom), unpublished_iff.2 ⟨hcom, hnot⟩⟩
    rw [hdone] at hmem
    cases hmem
  exact ⟨hpub, h.inv.logged n hpub⟩

/-- **No committed row is stranded**: from every state the relays reach, whatever they aborted, steps of good ticks
alone lead to a state in which every committed row is published and on the log. -/
theorem drains (hbatch : 0 < cfg.batchSize) {s : Sys} (h : (lts cfg).Reachable s) :
    ∃ t, (lts cfg).Leads Action.IsWork s t ∧ s.Onward t ∧ ∀ n, s.Committed n → t.Published n ∧ t.onLog n := by
  obtain ⟨t, hlead, hway, hdone⟩ := empties hbatch h
  exact ⟨t, hlead, hway.onward, fun n hn => hway.published hdone hn⟩

/-- A tick that aborted with its send in flight, and another that has the row locked. -/
def lockedAgain : List Action :=
  [.enqueue 0 anEvent, .commit 0, .select 0, .visit 0, .selected 0, .send 0, .abort 0, .select 1, .visit 1]

theorem drains_lockedAgain : ∃ s, (lts ⟨100, fun _ => ""⟩).run {} lockedAgain = some s ∧ s.Committed 0 ∧
    ¬ s.Published 0 ∧ ∃ t, (lts ⟨100, fun _ => ""⟩).Leads Action.IsWork s t ∧ s.Onward t ∧
      ∀ n, s.Committed n → t.Published n ∧ t.onLog n :=
  ⟨_, rfl, ⟨_, rfl, rfl⟩, by decide, drains (by decide) ⟨lockedAgain, rfl⟩⟩

end Outbox
end KafkaGuide
