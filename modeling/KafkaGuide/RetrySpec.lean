import Mathlib.Order.Interval.Set.Defs
import Mathlib.Tactic.Linarith
import KafkaGuide.Lib.Tries
import KafkaGuide.Retry
/-!
# RetrySpec — the loop of `retry_with_backoff` (`13-resilience-patterns/app/retry.py`)

`while True` with an attempt counter, a return and two `except` clauses: `round` is what the loop makes of one outcome
of `func`, and it goes on below `max_attempts` only (`rounds_bounded`), so the loop is total.  It calls `func` up to the
first outcome that decides, or up to `max_attempts`, once at least (`retry_meets_spec`, in exact arithmetic).  No float
holds 2 ** 1024, so after a 1025th attempt the delay raises instead (`round_floatPow_overflow`); up to 1025 attempts
the loop is the exact one (`retry_floatPow`).
-/
namespace KafkaGuide
namespace Retry

open Tries (Run Verdict)

/-- How `retry_with_backoff` ends. -/
inductive Stop (χ α : Type) where
  | returned (a : α)
  | raised (exc : χ)
  | overflowError
deriving DecidableEq

variable {χ α : Type}

/-- The outcome of `func` as the end of the loop. -/
def Stop.ofOutcome : Except χ α → Stop χ α
  | .ok a => .returned a
  | .error exc => .raised exc

/-- `2 ** n` in exact arithmetic. -/
def exactPow (n : Nat) : Option ℚ := some (2 ^ n)

/-- `2 ** n` as a factor of a float: an integer of 2 ** 1024 or more is too large for one, and the product raises. -/
def floatPow (n : Nat) : Option ℚ := if n < 1024 then some (2 ^ n) else none

section Loop

variable (cfg : Config χ) (pow : Nat → Option ℚ)

/-- One round of the loop, `random` being the value of `random.random()`. -/
def round (attempt : Nat) (outcome : Except χ α) (random : ℚ) : Verdict (Stop χ α) ℚ :=
  match outcome with
  | .ok a => .stop (.returned a)
  | .error exc =>
    if cfg.doNotRetry exc then .stop (.raised exc)
    else if cfg.retriable exc then
      if cfg.maxAttempts ≤ attempt then .stop (.raised exc)
      else match pow (attempt - 1) with
        | none => .stop .overflowError
        | some p => .again (cfg.baseDelayMs / 1000 * p + random * (1 / 20))
    else .stop (.raised exc)

/-- The verdicts of the loop over a stream of outcomes, `outcomes k` being that of call number `k`. -/
def rounds (outcomes : Nat → Except χ α) (random : Nat → Set.Ico (0 : ℚ) 1) (attempt : Nat) : Verdict (Stop χ α) ℚ :=
  round cfg pow attempt (outcomes attempt) (random attempt)

variable {cfg pow}

/-- **The loop goes on** below `max_attempts` only, after a retriable exception that is not to be let through. -/
theorem round_eq_again {attempt : Nat} {outcome : Except χ α} {random d : ℚ} :
    round cfg pow attempt outcome random = .again d ↔ ∃ exc p, outcome = .error exc ∧ cfg.doNotRetry exc = false ∧
      cfg.retriable exc = true ∧ (attempt : Int) < cfg.maxAttempts ∧ pow (attempt - 1) = some p ∧
      d = cfg.baseDelayMs / 1000 * p + random * (1 / 20) := by
  unfold round
  constructor
  · intro h
    split at h
    · cases h
    · rename_i exc
      split at h
      · cases h
      · rename_i hdo
        split at h
        · rename_i hretriable
          split at h
          · cases h
          · rename_i hlt
            split at h
            · cases h
            · rename_i p hp
              cases h
              exact ⟨exc, p, rfl, Bool.eq_false_iff.2 hdo, hretriable, not_le.1 hlt, hp, rfl⟩
        · cases h
  · rintro ⟨exc, p, rfl, hdo, hretriable, hlt, hp, rfl⟩
    simp only [hdo, hretriable, not_le.2 hlt, hp, if_true, if_false, Bool.false_eq_true]

variable (cfg pow)

theorem rounds_bounded (outcomes : Nat → Except χ α) (random : Nat → Set.Ico (0 : ℚ) 1) :
    Tries.Bounded (rounds cfg pow outcomes random) cfg.maxAttempts.toNat := by
  intro k d h
  obtain ⟨exc, p, -, -, -, hlt, -⟩ := round_eq_again.1 h
  omega

def retryWithBackoff (outcomes : Nat → Except χ α) (random : Nat → Set.Ico (0 : ℚ) 1) : Run (Stop χ α) ℚ :=
  Tries.loop (rounds_bounded cfg pow outcomes random) cfg.maxAttempts.toNat 1 (Nat.le_add_left _ 1)

theorem retry_ends (outcomes : Nat → Except χ α) (random : Nat → Set.Ico (0 : ℚ) 1) :
    Tries.Ends (rounds cfg pow outcomes random) 1 (retryWithBackoff cfg pow outcomes random) :=
  Tries.loop_ends ..

/-- In exact arithmetic a round does what the `except` clauses of `handle` do. -/
theorem round_exact (attempt : Nat) (exc : χ) (random : ℚ) :
    round cfg exactPow attempt (.error exc : Except χ α) random =
      match handle cfg attempt exc random with
      | none => .stop (.raised exc)
      | some d => .again d := by
  unfold round handle delay exactPow
  dsimp only
  split
  · rfl
  · split
    · split <;> rfl
    · rfl

end Loop

/-! ## The specification -/

/-- An outcome that leaves nothing to retry: a result, or an exception that is not to be retried or not retriable. -/
def Decides (cfg : Config χ) : Except χ α → Prop
  | .ok _ => True
  | .error exc => cfg.doNotRetry exc = true ∨ cfg.retriable exc = false

/-- In exact arithmetic the loop stops with the outcome of a call. -/
theorem round_eq_stop {cfg : Config χ} {attempt : Nat} {outcome : Except χ α} {random : ℚ} {r : Stop χ α}
    (h : round cfg exactPow attempt outcome random = .stop r) :
    r = .ofOutcome outcome ∧ (Decides cfg outcome ∨ cfg.maxAttempts ≤ attempt) := by
  cases outcome with
  | ok a =>
    cases h
    exact ⟨rfl, .inl trivial⟩
  | error exc =>
    rw [round_exact] at h
    cases hhandle : handle cfg attempt exc random with
    | some d =>
      rw [hhandle] at h
      cases h
    | none =>
      rw [hhandle] at h
      cases h
      refine ⟨rfl, ?_⟩
      unfold handle at hhandle
      split at hhandle
      · exact .inl (.inl ‹_›)
      · split at hhandle
        · split at hhandle
          · exact .inr ‹_›
          · cases hhandle
        · exact .inl (.inr (Bool.eq_false_iff.2 ‹_›))

theorem not_decides_of_again {cfg : Config χ} {pow : Nat → Option ℚ} {attempt : Nat} {outcome : Except χ α}
    {random d : ℚ} (h : round cfg pow attempt outcome random = .again d) : ¬ Decides cfg outcome := by
  obtain ⟨exc, p, rfl, hdo, hretriable, -⟩ := round_eq_again.1 h
  rintro (hdecides | hdecides)
  · rw [hdo] at hdecides
    cases hdecides
  · rw [hretriable] at hdecides
    cases hdecides

/-- The `k`-th sleep, from the round before it. -/
theorem sleep_range {cfg : Config χ} {k : Nat} {outcome : Except χ α} {random : Set.Ico (0 : ℚ) 1} {d : ℚ}
    (h : round cfg exactPow (1 + k) outcome random = .again d) :
    cfg.baseDelayMs / 1000 * 2 ^ k ≤ d ∧ d < cfg.baseDelayMs / 1000 * 2 ^ k + 1 / 20 := by
  obtain ⟨exc, p, -, -, -, -, hp, rfl⟩ := round_eq_again.1 h
  have hpow : p = 2 ^ k := by
    rw [Nat.add_sub_cancel_left] at hp
    exact (Option.some.inj hp).symm
  obtain ⟨hnonneg, hlt⟩ := random.2
  rw [hpow]
  constructor
  · linarith
  · linarith

section Runs

variable {cfg : Config χ} {outcomes : Nat → Except χ α} {random : Nat → Set.Ico (0 : ℚ) 1} {run : Run (Stop χ α) ℚ}
  (h : Tries.Ends (rounds cfg exactPow outcomes random) 1 run)

include h

theorem calls_eq : run.calls = 1 + run.waits.length := by
  rw [h.calls, Nat.add_comm]

theorem last_call : run.result = .ofOutcome (outcomes run.calls) ∧
    (Decides cfg (outcomes run.calls) ∨ cfg.maxAttempts ≤ run.calls) := by
  have hstop := h.stops
  rw [← calls_eq h] at hstop
  exact round_eq_stop hstop

theorem earlier_call {k : Nat} (hone : 1 ≤ k) (hlt : k < run.calls) :
    ∃ d, round cfg exactPow k (outcomes k) (random k) = .again d := by
  have hcalls := calls_eq h
  obtain ⟨j, rfl⟩ := Nat.exists_eq_add_of_le hone
  exact ⟨_, h.goes_on (List.getElem?_eq_getElem (by omega))⟩

/-- The last call but one went on, so it was below the bound. -/
theorem calls_le : run.calls ≤ (max 1 cfg.maxAttempts).toNat := by
  by_cases hone : run.calls = 1
  · omega
  · have hcalls := calls_eq h
    obtain ⟨d, hd⟩ := earlier_call h (show 1 ≤ run.calls - 1 by omega) (by omega)
    obtain ⟨-, -, -, -, -, hlt, -⟩ := round_eq_again.1 hd
    omega

/-- `func` is called up to the first outcome that decides, or as often as it may be. -/
theorem calls_eq_min : (run.calls : ℕ∞) =
    min (Tries.first fun k => Decides cfg (outcomes k)) ((max 1 cfg.maxAttempts).toNat : ℕ∞) := by
  have hcalls := calls_eq h
  have hle := calls_le h
  refine (Tries.min_first (by omega) hle (fun k hone hlt => ?_) ?_).symm
  · obtain ⟨d, hd⟩ := earlier_call h hone hlt
    exact not_decides_of_again hd
  · rcases (last_call h).2 with hdecides | hmax
    · exact .inr hdecides
    · refine .inl ?_
      omega

end Runs

/-- **`retry_with_backoff` meets its specification**: `func` is called up to the first outcome that decides, once at
least and at most `max_attempts` times; the caller gets the outcome of the last call; and between two calls there is one
sleep, the `k`-th of `base * 2 ** (k - 1)` seconds and less than 0.05 more. -/
theorem retry_meets_spec (cfg : Config χ) (outcomes : Nat → Except χ α) (random : Nat → Set.Ico (0 : ℚ) 1) :
    let run := retryWithBackoff cfg exactPow outcomes random
    (run.calls : ℕ∞) =
        min (Tries.first fun k => Decides cfg (outcomes k)) ((max 1 cfg.maxAttempts).toNat : ℕ∞) ∧
      run.result = .ofOutcome (outcomes run.calls) ∧
      run.events = .call :: run.waits.flatMap (fun d => [.wait d, .call]) ∧
      ∀ (k : Nat) (d : ℚ), run.waits[k]? = some d →
        cfg.baseDelayMs / 1000 * 2 ^ k ≤ d ∧ d < cfg.baseDelayMs / 1000 * 2 ^ k + 1 / 20 := by
  intro run
  have hends : Tries.Ends (rounds cfg exactPow outcomes random) 1 run := retry_ends cfg exactPow outcomes random
  exact ⟨calls_eq_min hends, (last_call hends).1, hends.events, fun k d hd => sleep_range (hends.goes_on hd)⟩

/-! ## The delay as a float -/

/-- A failure after which the loop would sleep a 1025th time ends it. -/
theorem round_floatPow_overflow {cfg : Config χ} {attempt : Nat} {exc : χ} {random : ℚ} (hattempt : 1025 ≤ attempt)
    (hlt : (attempt : Int) < cfg.maxAttempts) (hundecided : ¬ Decides cfg (.error exc : Except χ α)) :
    round cfg floatPow attempt (.error exc : Except χ α) random = .stop .overflowError := by
  obtain ⟨hdo, hretriable⟩ := not_or.1 hundecided
  unfold round floatPow
  dsimp only
  rw [if_neg hdo, if_pos (Bool.not_eq_false _ ▸ hretriable), if_neg (not_le.2 hlt), if_neg (by omega)]

theorem rounds_floatPow {cfg : Config χ} (hmax : cfg.maxAttempts ≤ 1025) (outcomes : Nat → Except χ α)
    (random : Nat → Set.Ico (0 : ℚ) 1) : rounds cfg floatPow outcomes random = rounds cfg exactPow outcomes random := by
  funext k
  unfold rounds round
  split
  · rfl
  · by_cases hlast : cfg.maxAttempts ≤ k
    · simp only [if_pos hlast]
    · have hpow : floatPow (k - 1) = exactPow (k - 1) := if_pos (by omega)
      rw [hpow]

/-- **Up to 1025 attempts the delays are floats**: the loop is that of exact arithmetic. -/
theorem retry_floatPow {cfg : Config χ} (hmax : cfg.maxAttempts ≤ 1025) (outcomes : Nat → Except χ α)
    (random : Nat → Set.Ico (0 : ℚ) 1) :
    retryWithBackoff cfg floatPow outcomes random = retryWithBackoff cfg exactPow outcomes random := by
  unfold retryWithBackoff
  simp only [rounds_floatPow hmax]

end Retry
end KafkaGuide
