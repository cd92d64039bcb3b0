import Mathlib.Data.List.Induction
import Mathlib.Data.List.Infix
/-!
# Fold — what a fold does to one part of its state

Where the elements that are not its own leave a part of the state as it was, the fold's effect on the part is a fold of
its own elements alone (`view_foldl`), and where some elements start it over, of those since the last of them
(`foldl_starts`).  A part that is not to change once it is terminal does not exactly when no single
element changes it then (`settles_iff_steps`).
-/

namespace Fold

variable {σ ε ν : Type*}

/-- **A part of the state follows its own elements only.** -/
theorem view_foldl (view : σ → ν) {step : σ → ε → σ} {own : ε → Bool} {act : ν → ε → ν}
    (hown : ∀ s e, own e = true → view (step s e) = act (view s) e)
    (hother : ∀ s e, own e = false → view (step s e) = view s) :
    ∀ (es : List ε) (s : σ), view (es.foldl step s) = (es.filter own).foldl act (view s)
  | [], _ => rfl
  | e :: es, s => by
    rw [List.foldl_cons, view_foldl view hown hother es]
    cases h : own e with
    | true => rw [List.filter_cons_of_pos h, List.foldl_cons, hown s e h]
    | false => rw [List.filter_cons_of_neg (by simp [h]), hother s e h]

/-- `ys` is what is left of `xs` from its last element with `p` on. -/
def SinceLast (p : ε → Bool) (xs ys : List ε) : Prop :=
  ∃ before y after, xs = before ++ y :: after ∧ ys = y :: after ∧ p y = true ∧ ∀ x ∈ after, p x = false

/-- **A fold that starts over** at the elements with `p` has its result from the last of them on. -/
theorem foldl_starts {p : ε → Bool} {start : ε → ν} {act : ν → ε → ν} (es : List ε) :
    ∀ {v : ν}, es.foldl (fun w e => if p e then some (start e) else w.map (fun v => act v e)) none = some v →
      ∃ before e after, es = before ++ e :: after ∧ p e = true ∧ (∀ x ∈ after, p x = false) ∧
        v = after.foldl act (start e) := by
  induction es using List.reverseRecOn with
  | nil => exact fun h => nomatch h
  | append_singleton es x ih =>
    intro v h
    rw [List.foldl_append, List.foldl_cons, List.foldl_nil] at h
    cases hx : p x with
    | true =>
      rw [hx, if_pos rfl] at h
      cases h
      exact ⟨es, x, [], rfl, hx, by simp, rfl⟩
    | false =>
      rw [hx, if_neg (by simp)] at h
      obtain ⟨w, hw, rfl⟩ := Option.map_eq_some_iff.1 h
      obtain ⟨before, e, after, rfl, he, hafter, rfl⟩ := ih hw
      refine ⟨before, e, after ++ [x], by simp, he, ?_, by rw [List.foldl_append]; rfl⟩
      intro y hy
      rcases List.mem_append.1 hy with hy | hy
      · exact hafter y hy
      · rwa [List.mem_singleton.1 hy]

/-- From the first time on at which it is terminal, the part shown after each prefix of the elements stays as it is. -/
def Settles (shown : List ε → Option ν) (Terminal : ν → Prop) (es : List ε) : Prop :=
  ∀ as bs cs, es = as ++ bs ++ cs → ∀ w, shown as = some w → Terminal w → shown (as ++ bs) = some w

theorem settles_iff_steps {shown : List ε → Option ν} {Terminal : ν → Prop} {es : List ε} :
    Settles shown Terminal es ↔ ∀ as e cs, es = as ++ e :: cs → ∀ w, shown as = some w → Terminal w →
      shown (as ++ [e]) = some w := by
  constructor
  · intro h as e cs hes
    apply h as [e] cs
    rw [hes, List.append_assoc, List.singleton_append]
  · intro h as bs
    induction bs generalizing as with
    | nil =>
      intro cs _ w hw _
      rwa [List.append_nil]
    | cons b bs ih =>
      intro cs hes w hw ht
      have hb : shown (as ++ [b]) = some w := by
        apply h as b (bs ++ cs) _ w hw ht
        rw [hes, List.append_assoc, List.cons_append]
      rw [List.append_cons]
      apply ih (as ++ [b]) cs _ w hb ht
      rw [hes, List.append_cons as b bs]

end Fold
