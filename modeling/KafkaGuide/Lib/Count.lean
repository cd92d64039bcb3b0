import Mathlib.Algebra.BigOperators.Group.Finset.Basic
import Mathlib.Algebra.Ring.Nat
import Mathlib.Data.Finset.Card
import Mathlib.Data.List.Perm.Subperm
import Mathlib.Data.List.Range
/-!
# Count — counting in lists

How many elements of a list satisfy a test, when an element changes or is added, when each of them has a holder, when
each is in one of some classes, and when they are picked by their indices.
-/

namespace Count

theorem countP_set {α : Type} (f : α → Bool) : ∀ {xs : List α} {j : Nat} {x : α} (y : α), xs[j]? = some x →
    (xs.set j y).countP f + (if f x then 1 else 0) = xs.countP f + (if f y then 1 else 0)
  | [], _, _, _, h => by cases h
  | x :: xs, 0, _, y, h => by
    cases h
    rw [List.set_cons_zero, List.countP_cons, List.countP_cons]
    omega
  | x :: xs, j + 1, z, y, h => by
    have htail := @countP_set α f xs j z y h
    rw [List.set_cons_succ, List.countP_cons, List.countP_cons]
    omega

theorem sum_map_set {α : Type} (f : α → Nat) : ∀ {xs : List α} {j : Nat} {x : α} (y : α), xs[j]? = some x →
    ((xs.set j y).map f).sum + f x = (xs.map f).sum + f y
  | [], _, _, _, h => by cases h
  | x :: xs, 0, _, y, h => by
    cases h
    rw [List.set_cons_zero, List.map_cons, List.map_cons, List.sum_cons, List.sum_cons]
    omega
  | x :: xs, j + 1, z, y, h => by
    have htail := @sum_map_set α f xs j z y h
    rw [List.set_cons_succ, List.map_cons, List.map_cons, List.sum_cons, List.sum_cons]
    omega

theorem countP_le_add {α : Type} {f g h : α → Bool} :
    ∀ {xs : List α}, (∀ x ∈ xs, f x = true → g x = true ∨ h x = true) → xs.countP f ≤ xs.countP g + xs.countP h
  | [], _ => Nat.zero_le _
  | x :: xs, hf => by
    have htail := countP_le_add fun y hy => hf y (List.mem_cons_of_mem _ hy)
    rw [List.countP_cons, List.countP_cons, List.countP_cons]
    by_cases hx : f x = true
    · rcases hf x List.mem_cons_self hx with hg | hh
      · rw [if_pos hx, if_pos hg]
        omega
      · rw [if_pos hx, if_pos hh]
        omega
    · rw [if_neg hx]
      omega

/-- A sum over a finite set, when the function changes at one place. -/
theorem sum_change {ι : Type} [DecidableEq ι] {f g : ι → Nat} {is : Finset ι} {i : ι} (hi : i ∈ is)
    (h : ∀ j, j ≠ i → g j = f j) : ∑ j ∈ is, g j + f i = ∑ j ∈ is, f j + g i := by
  have hrest : ∑ j ∈ is.erase i, g j = ∑ j ∈ is.erase i, f j :=
    Finset.sum_congr rfl fun j hj => h j (Finset.ne_of_mem_erase hj)
  have hg := Finset.add_sum_erase is g hi
  have hf := Finset.add_sum_erase is f hi
  omega

theorem append_get {α : Type} {xs : List α} {x y : α} {i : Nat} (h : xs[i]? = some y) : (xs ++ [x])[i]? = some y := by
  rw [List.getElem?_append_left (List.getElem?_eq_some_iff.1 h).1, h]

theorem get_append {α : Type} {xs : List α} {x y : α} {i : Nat} (h : (xs ++ [x])[i]? = some y) :
    xs[i]? = some y ∨ (i = xs.length ∧ y = x) := by
  rw [List.getElem?_append] at h
  split at h
  · exact .inl h
  · rw [List.getElem?_singleton] at h
    split at h
    · cases h
      exact .inr ⟨by omega, rfl⟩
    · cases h

theorem prefix_get {α : Type} {xs ys : List α} (h : xs <+: ys) {i : Nat} {x : α} (hx : xs[i]? = some x) :
    ys[i]? = some x := by
  obtain ⟨hlt, rfl⟩ := List.getElem?_eq_some_iff.1 hx
  exact List.prefix_iff_getElem?.1 h i hlt

theorem set_get {α : Type} {xs : List α} {x y : α} {i j : Nat} (h : (xs.set j x)[i]? = some y) :
    (i = j ∧ y = x) ∨ (i ≠ j ∧ xs[i]? = some y) := by
  by_cases hij : i = j
  · subst hij
    rw [List.getElem?_set_self'] at h
    obtain ⟨-, -, rfl⟩ := Option.map_eq_some_iff.1 h
    exact .inl ⟨rfl, rfl⟩
  · rw [List.getElem?_set_ne fun h => hij h.symm] at h
    exact .inr ⟨hij, h⟩

/-- An element is replaced by one that `f` does not tell from it. -/
theorem map_set_same {α β : Type} {f : α → β} {xs : List α} {x y : α} {j : Nat} (h : xs[j]? = some x) (hf : f y = f x) :
    (xs.set j y).map f = xs.map f := by
  apply List.ext_getElem?
  intro i
  rw [List.getElem?_map, List.getElem?_map]
  by_cases hij : j = i
  · subst hij
    rw [List.getElem?_set_self (List.getElem?_eq_some_iff.1 h).1, h, Option.map_some, Option.map_some, hf]
  · rw [List.getElem?_set_ne hij]

/-- What holders hold are different things: no more of them than there are holders. -/
theorem countP_le_holders {α : Type} {f : α → Bool} (held : Nat → Option Nat) (xs : List α) :
    ∀ ps : Finset Nat, (∀ i x, xs[i]? = some x → f x = true → ∃ p ∈ ps, held p = some i) → xs.countP f ≤ ps.card := by
  induction xs using List.reverseRecOn with
  | nil => exact fun ps _ => Nat.zero_le _
  | append_singleton xs x ih =>
    intro ps hps
    rw [List.countP_append, List.countP_singleton]
    split
    · rename_i hx
      obtain ⟨p, hp, hheld⟩ := hps xs.length x (by simp) hx
      -- the one that holds the last thing holds none of the others
      have hrest := ih (ps.erase p) fun i y hy hf => by
        obtain ⟨q, hq, hqheld⟩ := hps i y (append_get hy) hf
        refine ⟨q, Finset.mem_erase.2 ⟨?_, hq⟩, hqheld⟩
        rintro rfl
        rw [hheld, Option.some.injEq] at hqheld
        have hlt := (List.getElem?_eq_some_iff.1 hy).1
        omega
      have hcard := Finset.card_erase_add_one hp
      omega
    · exact ih ps fun i y hy hf => hps i y (append_get hy) hf

/-- The elements at some indices, in the order of the indices. -/
def picked {α : Type} (xs : List α) (is : List Nat) : List α := is.filterMap (fun i => xs[i]?)

theorem picked_range {α : Type} : ∀ xs : List α, picked xs (List.range xs.length) = xs
  | [] => rfl
  | x :: xs => by
    unfold picked
    rw [List.length_cons, List.range_succ_eq_map, List.filterMap_cons, List.filterMap_map]
    exact congrArg (x :: ·) (picked_range xs)

theorem picked_snoc {α : Type} {xs : List α} {x : α} {i : Nat} (h : xs[i]? = some x) (is : List Nat) :
    picked xs (is ++ [i]) = picked xs is ++ [x] := by
  unfold picked
  rw [List.filterMap_append, List.filterMap_cons_some h, List.filterMap_nil]

/-- Indices of the list pick the same elements when it grows. -/
theorem picked_append {α : Type} {xs : List α} (ys : List α) {is : List Nat} (h : ∀ i ∈ is, i < xs.length) :
    picked (xs ++ ys) is = picked xs is :=
  List.filterMap_congr fun i hi => List.getElem?_append_left (h i hi)

/-- **Elements picked at most once** are elements of the list, with their multiplicity. -/
theorem picked_subperm {α : Type} {xs : List α} {is : List Nat} (hnodup : is.Nodup) (h : ∀ i ∈ is, i < xs.length) :
    (picked xs is).Subperm xs := by
  have hsub : is.Subperm (List.range xs.length) :=
    List.subperm_of_subset hnodup fun i hi => List.mem_range.2 (h i hi)
  obtain ⟨js, hperm, hjs⟩ := hsub
  have hle : (picked xs js).Subperm (picked xs (List.range xs.length)) := (hjs.filterMap _).subperm
  rw [picked_range] at hle
  exact (hperm.filterMap _).symm.subperm.trans hle

theorem picked_length {α : Type} {xs : List α} : ∀ {is : List Nat}, (∀ i ∈ is, i < xs.length) →
    (picked xs is).length = is.length
  | [], _ => rfl
  | i :: is, h => by
    unfold picked
    rw [List.filterMap_cons_some (List.getElem?_eq_getElem (h i List.mem_cons_self)), List.length_cons,
      List.length_cons]
    exact congrArg (· + 1) (picked_length fun j hj => h j (List.mem_cons_of_mem i hj))

end Count
