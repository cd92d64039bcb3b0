import KafkaGuide.Lib.Count
import KafkaGuide.Lib.Lts
/-!
# KeyedLog — a log in partitions, its writers and a reader

A record with a key goes to the key's partition, one without to any, maybe more than once and at any time after it was
sent.  The sender is told where a copy is.  One process at a time reads each partition in its order, from where the last
one may have left off, and may be set back on its way.

Records of one key are in its partition (`Inv.copies`); what is there before another is sent is ahead of all copies of
that (`begun_later`), and of two records of a partition the process reads the earlier one first (`Inv.inOrder`).
-/

namespace KeyedLog

variable {κ ρ : Type}

structure Send (κ ρ : Type) where
  key : Option κ
  record : ρ

/-- A record in its partition, and the send that it is a copy of. -/
structure Entry (ρ : Type) where
  send : Nat
  record : ρ

/-- `read` lists what the process has read, by partition and offset, `start` says where it began. -/
structure State (κ ρ : Type) where
  sends : List (Send κ ρ) := []
  parts : Nat → List (Entry ρ) := fun _ => []
  answers : Nat → Option (Nat × Nat) := fun _ => none
  start : Nat → Nat := fun _ => 0
  position : Nat → Nat := fun _ => 0
  read : List (Nat × Nat) := []

inductive Event (κ ρ : Type) where
  | send (send : Send κ ρ)
  | land (i p : Nat)
  | answer (i p o : Nat)
  | read (p : Nat)
  | seek (p o : Nat)
  | restart (offsets : Nat → Nat)

/-- `part` is the partition of a key. -/
def step (part : κ → Nat) (s : State κ ρ) : Event κ ρ → Option (State κ ρ)
  | .send send => some { s with sends := s.sends ++ [send] }
  | .land i p =>
    match s.sends[i]? with
    | some send =>
      if send.key.all (fun k => part k = p) then
        some { s with parts := fun p' => if p' = p then s.parts p ++ [⟨i, send.record⟩] else s.parts p' }
      else none
    | none => none
  | .answer i p o =>
    match (s.parts p)[o]? with
    | some e => if e.send = i then some { s with answers := fun i' => if i' = i then some (p, o) else s.answers i' }
      else none
    | none => none
  | .read p =>
    if s.position p < (s.parts p).length then
      some { s with
        position := fun p' => if p' = p then s.position p + 1 else s.position p'
        read := s.read ++ [(p, s.position p)] }
    else none
  | .seek p o =>
    if s.start p ≤ o ∧ o ≤ s.position p then
      some { s with position := fun p' => if p' = p then o else s.position p' }
    else none
  | .restart offsets =>
    let begins := fun p => min (offsets p) (s.position p)
    some { s with start := begins, position := begins, read := [] }

def lts (part : κ → Nat) : Lts (State κ ρ) (Event κ ρ) where
  init := {}
  step := step part

/-! ## What a step can do -/

inductive Step (part : κ → Nat) (s : State κ ρ) : Event κ ρ → State κ ρ → Prop
  | send (send : Send κ ρ) : Step part s (.send send) { s with sends := s.sends ++ [send] }
  | land {i p : Nat} {send : Send κ ρ} (hsend : s.sends[i]? = some send) (hkey : ∀ k, send.key = some k → part k = p) :
    Step part s (.land i p)
      { s with parts := fun p' => if p' = p then s.parts p ++ [⟨i, send.record⟩] else s.parts p' }
  | answer {i p o : Nat} {e : Entry ρ} (hentry : (s.parts p)[o]? = some e) (hsend : e.send = i) :
    Step part s (.answer i p o) { s with answers := fun i' => if i' = i then some (p, o) else s.answers i' }
  | read {p : Nat} (hlt : s.position p < (s.parts p).length) : Step part s (.read p) { s with
      position := fun p' => if p' = p then s.position p + 1 else s.position p'
      read := s.read ++ [(p, s.position p)] }
  | seek {p o : Nat} (hstart : s.start p ≤ o) (hle : o ≤ s.position p) :
    Step part s (.seek p o) { s with position := fun p' => if p' = p then o else s.position p' }
  | restart (offsets : Nat → Nat) : Step part s (.restart offsets) { s with
      start := fun p => min (offsets p) (s.position p)
      position := fun p => min (offsets p) (s.position p)
      read := [] }

variable {part : κ → Nat} {s s' : State κ ρ} {e : Event κ ρ}

theorem step_sound (h : step part s e = some s') : Step part s e s' := by
  cases e with
  | send send =>
    cases h
    exact .send send
  | land i p =>
    simp only [step] at h
    split at h
    · rename_i hsend
      split at h
      · rename_i hkey
        cases h
        refine .land hsend fun k hk => ?_
        rw [hk, Option.all_some, decide_eq_true_eq] at hkey
        exact hkey
      · cases h
    · cases h
  | answer i p o =>
    simp only [step] at h
    split at h
    · rename_i hentry
      split at h
      · rename_i hsend
        cases h
        exact .answer hentry hsend
      · cases h
    · cases h
  | read p =>
    simp only [step] at h
    split at h
    · rename_i hlt
      cases h
      exact .read hlt
    · cases h
  | seek p o =>
    simp only [step] at h
    split at h
    · rename_i hrange
      cases h
      exact .seek hrange.1 hrange.2
    · cases h
  | restart offsets =>
    cases h
    exact .restart offsets

/-! ## What is in the log -/

/-- **The log only grows.** -/
theorem step_parts (h : step part s e = some s') (p : Nat) : s.parts p <+: s'.parts p := by
  cases step_sound h with
  | @land i q send hsend hkey =>
    change s.parts p <+: if p = q then s.parts q ++ [_] else s.parts p
    split
    · rename_i hp
      rw [hp]
      exact List.prefix_append _ _
    · exact List.prefix_rfl
  | _ => exact List.prefix_rfl

/-- **The invariant of the log**: each entry is a copy of its send, in its key's partition, and an answer tells where
one is. -/
structure Inv (part : κ → Nat) (s : State κ ρ) : Prop where
  copies : ∀ (p o : Nat) (e : Entry ρ), (s.parts p)[o]? = some e →
    ∃ send : Send κ ρ, s.sends[e.send]? = some send ∧ send.record = e.record ∧ ∀ k, send.key = some k → part k = p
  answered : ∀ (i p o : Nat), s.answers i = some (p, o) → ∃ e : Entry ρ, (s.parts p)[o]? = some e ∧ e.send = i
  started : ∀ p, s.start p ≤ s.position p
  caught : ∀ p o, s.start p ≤ o → o < s.position p → (p, o) ∈ s.read
  present : ∀ p o, (p, o) ∈ s.read → s.start p ≤ o ∧ o < (s.parts p).length
  inOrder : ∀ (n p o : Nat), s.read[n]? = some (p, o) → ∀ o', s.start p ≤ o' → o' < o →
    ∃ m < n, s.read[m]? = some (p, o')

theorem inv_init : Inv part ({} : State κ ρ) where
  copies _ _ _ h := by cases h
  answered _ _ _ h := by cases h
  started _ := le_refl _
  caught _ _ _ h := absurd h (Nat.not_lt_zero _)
  present _ _ h := by cases h
  inOrder _ _ _ h := by cases h

theorem Inv.send (hi : Inv part s) (send : Send κ ρ) : Inv part { s with sends := s.sends ++ [send] } where
  copies p o e he := by
    obtain ⟨send', hsend, hrecord, hkey⟩ := hi.copies p o e he
    exact ⟨send', Count.append_get hsend, hrecord, hkey⟩
  answered := hi.answered
  started := hi.started
  caught := hi.caught
  present := hi.present
  inOrder := hi.inOrder

theorem Inv.land (hi : Inv part s) {i p : Nat} {send : Send κ ρ} (hsend : s.sends[i]? = some send)
    (hkey : ∀ k, send.key = some k → part k = p) :
    Inv part { s with parts := fun p' => if p' = p then s.parts p ++ [⟨i, send.record⟩] else s.parts p' } := by
  have hkept : ∀ q, s.parts q <+: if q = p then s.parts p ++ [⟨i, send.record⟩] else s.parts q := fun q => by
    split
    · rename_i hq
      rw [hq]
      exact List.prefix_append _ _
    · exact List.prefix_rfl
  constructor
  case copies =>
    intro q o e he
    dsimp only at he
    split at he
    · rename_i hq
      rcases Count.get_append he with he | ⟨-, rfl⟩
      · rw [hq]
        exact hi.copies p o e he
      · exact ⟨send, hsend, rfl, fun k hk => (hkey k hk).trans hq.symm⟩
    · exact hi.copies q o e he
  case answered =>
    intro j q o hanswer
    obtain ⟨e, he, hj⟩ := hi.answered j q o hanswer
    exact ⟨e, Count.prefix_get (hkept q) he, hj⟩
  case started => exact hi.started
  case caught => exact hi.caught
  case present =>
    intro q o hread
    obtain ⟨hstart, hlt⟩ := hi.present q o hread
    exact ⟨hstart, hlt.trans_le (hkept q).length_le⟩
  case inOrder => exact hi.inOrder

theorem Inv.read (hi : Inv part s) {p : Nat} (hlt : s.position p < (s.parts p).length) : Inv part { s with
    position := fun p' => if p' = p then s.position p + 1 else s.position p'
    read := s.read ++ [(p, s.position p)] } where
  copies := hi.copies
  answered := hi.answered
  started q := by
    dsimp only
    split
    · rename_i hq
      rw [hq]
      exact (hi.started p).trans (Nat.le_succ _)
    · exact hi.started q
  caught q o hstart hq := by
    dsimp only at hq
    split at hq
    · rename_i hqp
      rcases Nat.lt_succ_iff_lt_or_eq.1 hq with ho | ho
      · rw [hqp] at hstart ⊢
        exact List.mem_append_left _ (hi.caught p o hstart ho)
      · rw [hqp, ho]
        exact List.mem_append_right _ (List.mem_singleton.2 rfl)
    · exact List.mem_append_left _ (hi.caught q o hstart hq)
  present q o hread := by
    rcases List.mem_append.1 hread with hread | hread
    · exact hi.present q o hread
    · cases List.mem_singleton.1 hread
      exact ⟨hi.started p, hlt⟩
  inOrder n q o hn o' hstart ho := by
    rcases Count.get_append hn with hn | ⟨rfl, heq⟩
    · obtain ⟨m, hm, hmem⟩ := hi.inOrder n q o hn o' hstart ho
      exact ⟨m, hm, Count.append_get hmem⟩
    · cases heq
      -- everything from the start to the position has been read
      obtain ⟨m, hm⟩ := List.mem_iff_getElem?.1 (hi.caught p o' hstart ho)
      exact ⟨m, (List.getElem?_eq_some_iff.1 hm).1, Count.append_get hm⟩

theorem inv_step (hi : Inv part s) (h : step part s e = some s') : Inv part s' := by
  cases step_sound h with
  | send send => exact hi.send send
  | land hsend hkey => exact hi.land hsend hkey
  | @answer i p o e hentry hsend =>
    refine ⟨hi.copies, fun j q o' hanswer => ?_, hi.started, hi.caught, hi.present, hi.inOrder⟩
    dsimp only at hanswer
    split at hanswer
    · rename_i hj
      cases hanswer
      exact ⟨e, hentry, hsend.trans hj.symm⟩
    · exact hi.answered j q o' hanswer
  | read hlt => exact hi.read hlt
  | @seek p o hstart hle =>
    refine ⟨hi.copies, hi.answered, fun q => ?_, fun q o' hq ho => ?_, hi.present, hi.inOrder⟩
    · dsimp only
      split
      · rename_i hq
        rw [hq]
        exact hstart
      · exact hi.started q
    · dsimp only at ho
      split at ho
      · rename_i hqp
        rw [hqp] at hq ⊢
        exact hi.caught p o' hq (ho.trans_le hle)
      · exact hi.caught q o' hq ho
  | restart offsets =>
    refine ⟨hi.copies, hi.answered, fun p => le_refl _, fun p o hstart ho => ?_, fun p o h => ?_, fun n p o h => ?_⟩
    · exact absurd ho (Nat.not_lt.2 hstart)
    · cases h
    · cases h

theorem run_inv {es : List (Event κ ρ)} (hrun : (lts part).run s es = some s') (hi : Inv part s) : Inv part s' :=
  (lts part).run_inv (fun _ _ _ hi h => inv_step hi h) hi hrun

/-! ## What is sent later -/

theorem run_parts {es : List (Event κ ρ)} (hrun : (lts part).run s es = some s') (p : Nat) :
    s.parts p <+: s'.parts p := by
  refine (lts part).run_inv (I := fun m => s.parts p <+: m.parts p) (fun m e m' hm h => ?_) List.prefix_rfl hrun
  exact hm.trans (step_parts h p)

/-- **What is not sent yet comes after all there is.** -/
theorem begun_later {es : List (Event κ ρ)} (hi : Inv part s) (hrun : (lts part).run s es = some s') {p o : Nat}
    {e : Entry ρ} (he : (s'.parts p)[o]? = some e) (hnew : s.sends.length ≤ e.send) : (s.parts p).length ≤ o := by
  by_contra hlt
  have hlt := Nat.not_le.1 hlt
  have hold := Count.prefix_get (run_parts hrun p) (List.getElem?_eq_getElem hlt)
  rw [he, Option.some.injEq] at hold
  obtain ⟨send, hsend, -, -⟩ := hi.copies p o _ (List.getElem?_eq_getElem hlt)
  rw [← hold] at hsend
  exact absurd (List.getElem?_eq_some_iff.1 hsend).1 (Nat.not_lt.2 hnew)

end KeyedLog
