import Mathlib.Algebra.Order.Ring.Rat
/-!
# Retry — retry with exponential backoff (`13-resilience-patterns/app/retry.py`)

What `retry_with_backoff` does when an attempt raises.  Delays are exact numbers, in seconds; `RetrySpec` says from
which attempt on a float makes a difference.
-/
namespace KafkaGuide
namespace Retry

/-- The arguments of `retry_with_backoff`, over the exceptions `χ` that `func` may raise. -/
structure Config (χ : Type) where
  maxAttempts : Int := 3
  baseDelayMs : Int := 200
  retriable : χ → Bool := fun _ => true
  doNotRetry : χ → Bool := fun _ => false

variable {χ : Type} (cfg : Config χ)

/-- `delay`, `random` being the value of `random.random()`. -/
def delay (attempt : Nat) (random : ℚ) : ℚ := cfg.baseDelayMs / 1000 * 2 ^ (attempt - 1) + random * (1 / 20)

/-- The `except` clauses, after attempt number `attempt`: the delay before the next one, `none` when the exception is
raised. -/
def handle (attempt : Nat) (exc : χ) (random : ℚ) : Option ℚ :=
  if cfg.doNotRetry exc then none
  else if cfg.retriable exc then
    if cfg.maxAttempts ≤ attempt then none else some (delay cfg attempt random)
  else none

variable {cfg}

/-- **There is a next attempt only below `max_attempts`**, after a retriable exception. -/
theorem handle_eq_some {attempt : Nat} {exc : χ} {random d : ℚ} :
    handle cfg attempt exc random = some d ↔ cfg.doNotRetry exc = false ∧ cfg.retriable exc = true ∧
      (attempt : Int) < cfg.maxAttempts ∧ d = delay cfg attempt random := by
  unfold handle
  constructor
  · intro h
    split at h
    · cases h
    · rename_i hdo
      split at h
      · rename_i hretriable
        split at h
        · cases h
        · rename_i hlt
          cases h
          exact ⟨Bool.eq_false_iff.2 hdo, hretriable, not_le.1 hlt, rfl⟩
      · cases h
  · rintro ⟨hdo, hretriable, hlt, rfl⟩
    rw [if_neg (by rw [hdo]; exact Bool.false_ne_true), if_pos hretriable, if_neg (not_le.2 hlt)]

end Retry
end KafkaGuide
