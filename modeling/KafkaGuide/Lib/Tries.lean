import Mathlib.Data.ENat.Lattice
/-!
# Tries — a loop that calls a function until an outcome ends it

What the loop makes of its calls is a stream of verdicts: after call number `k` it stops with a result, or waits and
calls again.  A loop that never goes on from a bound is total (`loop`).  Its run is calls with one wait between each two
(`Ends.events`), up to the first call it stops at (`Ends.stops`).
-/

namespace Tries

variable {ρ δ : Type*}

inductive Verdict (ρ δ : Type*) where
  | stop (r : ρ)
  | again (d : δ)

inductive Event (δ : Type*) where
  | call
  | wait (d : δ)
deriving DecidableEq

/-- What a loop has done, and the result it has ended with. -/
structure Run (ρ δ : Type*) where
  events : List (Event δ)
  result : ρ

def Event.wait? : Event δ → Option δ
  | .call => none
  | .wait d => some d

namespace Run

def calls (run : Run ρ δ) : Nat := run.events.countP (fun e => e.wait?.isNone)

def waits (run : Run ρ δ) : List δ := run.events.filterMap Event.wait?

/-- The run of a loop that stops at once. -/
def once (r : ρ) : Run ρ δ := ⟨[.call], r⟩

/-- One more call before a run, and the wait between. -/
def after (d : δ) (run : Run ρ δ) : Run ρ δ := ⟨.call :: .wait d :: run.events, run.result⟩

@[simp] theorem calls_after (d : δ) (run : Run ρ δ) : (run.after d).calls = run.calls + 1 := by
  simp [calls, after, Event.wait?]

@[simp] theorem waits_after (d : δ) (run : Run ρ δ) : (run.after d).waits = d :: run.waits := rfl

end Run

/-- **The loop from call `k` on ends with a run.** -/
inductive Ends (verdict : Nat → Verdict ρ δ) : Nat → Run ρ δ → Prop
  | stop {k : Nat} {r : ρ} (hk : verdict k = .stop r) : Ends verdict k (.once r)
  | again {k : Nat} {d : δ} {run : Run ρ δ} (hk : verdict k = .again d) (hrun : Ends verdict (k + 1) run) :
    Ends verdict k (run.after d)

namespace Ends

variable {verdict : Nat → Verdict ρ δ} {k : Nat} {run : Run ρ δ}

theorem calls (h : Ends verdict k run) : run.calls = run.waits.length + 1 := by
  induction h with
  | stop hk => rfl
  | again hk hrun ih => rw [Run.calls_after, Run.waits_after, ih, List.length_cons]

/-- **There is exactly one wait between two calls**, and none before the first or after the last. -/
theorem events (h : Ends verdict k run) : run.events = .call :: run.waits.flatMap (fun d => [.wait d, .call]) := by
  induction h with
  | stop hk => rfl
  | again hk hrun ih =>
    rw [Run.waits_after, List.flatMap_cons]
    change .call :: .wait _ :: Run.events _ = _
    rw [ih]
    rfl

/-- **It stops at its last call**, with that call's result. -/
theorem stops (h : Ends verdict k run) : verdict (k + run.waits.length) = .stop run.result := by
  induction h with
  | stop hk => exact hk
  | again hk hrun ih =>
    rw [Run.waits_after, List.length_cons, Nat.add_comm _ 1, ← Nat.add_assoc]
    exact ih

/-- **It goes on at every call before**, by the waits of the run. -/
theorem goes_on (h : Ends verdict k run) :
    ∀ {j : Nat} {d : δ}, run.waits[j]? = some d → verdict (k + j) = .again d := by
  induction h with
  | stop hk => exact fun hj => nomatch hj
  | again hk hrun ih =>
    intro j d hj
    rw [Run.waits_after] at hj
    cases j with
    | zero =>
      cases hj
      exact hk
    | succ j =>
      rw [Nat.add_comm j 1, ← Nat.add_assoc]
      exact ih hj

/-- A loop that stops at a call has not got past it. -/
theorem length_le (h : Ends verdict k run) {j : Nat} {r : ρ} (hj : verdict (k + j) = .stop r) :
    run.waits.length ≤ j := by
  by_contra hlt
  have hagain := h.goes_on (List.getElem?_eq_getElem (not_le.1 hlt))
  rw [hj] at hagain
  cases hagain

/-- **The call it stops at is the only one** after calls at which it goes on. -/
theorem length_eq (h : Ends verdict k run) {n : Nat} (hgo : ∀ j < n, ∃ d, verdict (k + j) = .again d) {r : ρ}
    (hn : verdict (k + n) = .stop r) : run.waits.length = n ∧ run.result = r := by
  have hlength : run.waits.length = n := by
    refine le_antisymm (h.length_le hn) (not_lt.1 fun hlt => ?_)
    obtain ⟨d, hd⟩ := hgo _ hlt
    rw [h.stops] at hd
    cases hd
  have hstop := h.stops
  rw [hlength, hn] at hstop
  exact ⟨hlength, (Verdict.stop.inj hstop).symm⟩

end Ends

/-! ## Total loops -/

/-- The loop goes on below `b` only. -/
def Bounded (verdict : Nat → Verdict ρ δ) (b : Nat) : Prop := ∀ k d, verdict k = .again d → k < b

/-- The loop from call `k` on, at most `n` calls below its bound. -/
def loop {verdict : Nat → Verdict ρ δ} {b : Nat} (hb : Bounded verdict b) : (n k : Nat) → b ≤ k + n → Run ρ δ
  | 0, k, hn => match hk : verdict k with
    | .stop r => .once r
    | .again d => absurd (hb k d hk) (by omega)
  | n + 1, k, hn => match verdict k with
    | .stop r => .once r
    | .again d => (loop hb n (k + 1) (by omega)).after d

theorem loop_ends {verdict : Nat → Verdict ρ δ} {b : Nat} (hb : Bounded verdict b) :
    ∀ (n k : Nat) (hn : b ≤ k + n), Ends verdict k (loop hb n k hn)
  | 0, k, hn => by
    unfold loop
    split
    · exact .stop ‹_›
    · rename_i d hk
      exact absurd (hb k d hk) (by omega)
  | n + 1, k, hn => by
    unfold loop
    split
    · exact .stop ‹_›
    · exact .again ‹_› (loop_ends hb n (k + 1) (by omega))

/-! ## The first call of a kind -/

/-- The number of the first call of a kind, counted from one; `⊤` when no call is of it. -/
noncomputable def first (p : Nat → Prop) : ℕ∞ := ⨅ (k : Nat) (_ : 1 ≤ k ∧ p k), (k : ℕ∞)

/-- **A loop that stops at the first call of a kind, or at the last one it may make**, makes the smaller number of
calls. -/
theorem min_first {p : Nat → Prop} {n b : Nat} (hpos : 1 ≤ n) (hn : n ≤ b) (hbefore : ∀ k, 1 ≤ k → k < n → ¬ p k)
    (hlast : n = b ∨ p n) : min (first p) b = n := by
  apply le_antisymm
  · rcases hlast with rfl | hp
    · exact min_le_right _ _
    · exact (min_le_left _ _).trans (iInf₂_le n ⟨hpos, hp⟩)
  · refine le_min (le_iInf₂ fun k hk => ?_) (Nat.cast_le.2 hn)
    refine Nat.cast_le.2 (not_lt.1 fun hlt => ?_)
    exact hbefore k hk.1 hlt hk.2

end Tries
