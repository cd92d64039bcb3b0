import Mathlib.Data.List.DropRight
/-!
# Window — the last elements of a list

`xs.rtake m` is the last `m` elements of `xs`, all of them if there are no more.  A buffer cut to its last `m` elements
after every append holds the last `m` of all that were appended (`window_foldl`), and a slice `xs[-k:]` is the last `k`
elements unless `k` is zero (`sliceFrom_neg`).
-/
namespace Window

variable {α : Type*}

theorem length_rtake (xs : List α) (m : Nat) : (xs.rtake m).length = min m xs.length := by
  rw [List.rtake, List.length_drop]
  omega

theorem rtake_rtake (xs : List α) (m k : Nat) : (xs.rtake m).rtake k = xs.rtake (min k m) := by
  unfold List.rtake
  rw [List.drop_drop, List.length_drop]
  congr 1
  omega

theorem rtake_of_length_le {xs : List α} {m : Nat} (h : xs.length ≤ m) : xs.rtake m = xs := by
  rw [List.rtake, Nat.sub_eq_zero_of_le h, List.drop_zero]

/-- More than all of them is all of them. -/
theorem rtake_min_length (xs : List α) (m : Nat) : xs.rtake (min m xs.length) = xs.rtake m := by
  rcases Nat.le_total m xs.length with h | h
  · rw [Nat.min_eq_left h]
  · rw [Nat.min_eq_right h, rtake_of_length_le le_rfl, rtake_of_length_le h]

theorem rtake_eq_nil_iff {xs : List α} {m : Nat} (hm : m ≠ 0) : xs.rtake m = [] ↔ xs = [] := by
  rw [← List.length_eq_zero_iff, length_rtake, ← List.length_eq_zero_iff]
  omega

/-- `buffer.append(x)`, and what is over `m` goes at the front. -/
def push (m : Nat) (buffer : List α) (x : α) : List α :=
  let buffer := buffer ++ [x]
  if buffer.length > m then buffer.drop (buffer.length - m) else buffer

theorem push_eq (m : Nat) (buffer : List α) (x : α) : push m buffer x = (buffer ++ [x]).rtake m := by
  unfold push
  dsimp only
  split
  · rfl
  · rename_i h
    exact (rtake_of_length_le (Nat.not_lt.1 h)).symm

theorem rtake_append_rtake (m : Nat) (xs ys : List α) : (xs.rtake m ++ ys).rtake m = (xs ++ ys).rtake m := by
  have hdrop : xs.rtake m ++ ys = (xs ++ ys).drop (xs.length - m) :=
    (List.drop_append_of_le_length (Nat.sub_le _ _)).symm
  rw [hdrop, List.rtake, List.drop_drop, List.length_drop, List.length_append, List.rtake, List.length_append]
  congr 1
  omega

/-- **The buffer holds the last of all that were appended.** -/
theorem window_foldl (m : Nat) : ∀ (ys xs : List α), ys.foldl (push m) (xs.rtake m) = (xs ++ ys).rtake m
  | [], xs => by rw [List.foldl_nil, List.append_nil]
  | y :: ys, xs => by
    rw [List.foldl_cons, push_eq, rtake_append_rtake, window_foldl m ys, List.append_assoc, List.singleton_append]

/-! ## Slices -/

/-- `xs[i:]`: a negative index counts from the end. -/
def sliceFrom (xs : List α) (i : Int) : List α :=
  if i < 0 then xs.drop (xs.length - i.natAbs) else xs.drop i.toNat

theorem sliceFrom_neg (xs : List α) {k : Nat} (hk : k ≠ 0) : sliceFrom xs (-k) = xs.rtake k := by
  rw [sliceFrom, if_pos (by omega), Int.natAbs_neg, Int.natAbs_natCast]
  rfl

/-- There is no negative zero. -/
theorem sliceFrom_neg_zero (xs : List α) : sliceFrom xs (-(0 : Nat)) = xs := rfl

/-- **A slice `xs[-k:]` is the last `k` elements**, unless `k` is zero and there are some. -/
theorem sliceFrom_neg_iff (xs : List α) (k : Nat) : sliceFrom xs (-k) = xs.rtake k ↔ k ≠ 0 ∨ xs = [] := by
  by_cases hk : k = 0
  · rw [hk, sliceFrom_neg_zero, List.rtake_zero]
    simp
  · simp [sliceFrom_neg xs hk, hk]

end Window
