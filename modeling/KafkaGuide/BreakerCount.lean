import Mathlib.Tactic.Linarith
import KafkaGuide.BreakerInv
import KafkaGuide.Lib.Count
/-!
# BreakerCount — the breaker's count of failures

Until the breaker first opens, when no call succeeds, `failure_count` is the number of calls that have ended; once it is
OPEN it rejects every call, and each failure that is still to come moves `opened_at` on.
-/
namespace KafkaGuide
namespace Breaker

open Count

/-! ## The calls of a breaker -/

def Call.passed : Call → Bool
  | .rejected => false
  | .admitted _ _ => true

def Call.isEnded : Call → Bool
  | .rejected => false
  | .admitted _ p => decide (p = .ended)

/-- The `func` of the call has not ended. -/
def Call.inFunc : Call → Bool
  | .rejected => false
  | .admitted _ p => decide (p = .func)

/-- The call is to run its `_on_success`. -/
def Call.succeeds : Call → Bool
  | .rejected => false
  | .admitted _ p => decide (p = .onSuccess)

theorem countP_passed : ∀ calls : List Call,
    calls.countP Call.passed = calls.countP Call.inFlight + calls.countP Call.isEnded
  | [] => rfl
  | c :: calls => by
    have htail := countP_passed calls
    rw [List.countP_cons, List.countP_cons, List.countP_cons, htail]
    cases c with
    | rejected => rfl
    | admitted a p =>
      cases p <;> simp [Call.passed, Call.inFlight, Call.isEnded] <;> omega

variable {χ : Type} {cfg : Config χ}

/-- Only a tick moves the clock. -/
theorem step_now {s s' : Sys} {e : Event χ} (h : Step cfg s e s') (hnot : ∀ d, e ≠ .tick d) : s'.now = s.now := by
  cases h with
  | tick hd => exact absurd rfl (hnot _)
  | _ => rfl

/-! ## Before and after the breaker opens -/

/-- The breaker has not opened yet: every call that has ended has been counted. -/
structure Counting (cfg : Config χ) (s : Sys) : Prop where
  closed : s.breaker.state = .closed
  opens : s.opens = 0
  count : s.breaker.failureCount = s.calls.countP Call.isEnded
  below : (s.breaker.failureCount : Int) < cfg.failureThreshold

/-- The breaker is OPEN, and is so until after `limit`. -/
structure Tripped (cfg : Config χ) (limit : ℚ) (s : Sys) : Prop where
  opened : s.breaker.state = .open_
  opens : 0 < s.opens
  until_ : ∃ t, s.breaker.openedAt = some t ∧ t ≤ s.now ∧ limit - t < cfg.recoveryTimeout

theorem Tripped.rejects {s : Sys} {limit : ℚ} (ht : Tripped cfg limit s) (hnow : s.now ≤ limit) :
    shouldAttemptRecovery cfg s.breaker s.now = false := by
  obtain ⟨t, hopened, -, hlimit⟩ := ht.until_
  rw [shouldAttemptRecovery, hopened]
  refine decide_eq_false fun hrecovered => ?_
  linarith

theorem Counting.pass {s : Sys} (hc : Counting cfg s) : Counting cfg (s.pass s.breaker) where
  closed := hc.closed
  opens := by
    rw [pass_opens, Sys.assign, if_neg fun h => h.1 h.2]
    exact hc.opens
  count := by
    change s.breaker.failureCount = (s.calls ++ [_]).countP Call.isEnded
    rw [List.countP_append, hc.count]
    rfl
  below := hc.below

theorem Counting.congr {s s' : Sys} (hc : Counting cfg s) (hbreaker : s'.breaker = s.breaker)
    (hopens : s'.opens = s.opens) (hended : s'.calls.countP Call.isEnded = s.calls.countP Call.isEnded) :
    Counting cfg s' := by
  constructor
  case closed =>
    rw [hbreaker]
    exact hc.closed
  case opens =>
    rw [hopens]
    exact hc.opens
  case count =>
    rw [hbreaker, hended]
    exact hc.count
  case below =>
    rw [hbreaker]
    exact hc.below

theorem Tripped.congr {s s' : Sys} {limit : ℚ} (ht : Tripped cfg limit s) (hbreaker : s'.breaker = s.breaker)
    (hopens : s'.opens = s.opens) (hnow : s.now ≤ s'.now) : Tripped cfg limit s' := by
  obtain ⟨t, hopened, ht', hlimit⟩ := ht.until_
  constructor
  · rw [hbreaker]
    exact ht.opened
  · rw [hopens]
    exact ht.opens
  · rw [hbreaker]
    exact ⟨t, hopened, ht'.trans hnow, hlimit⟩

theorem isEnded_set {s : Sys} {i : Nat} {a : Admission} {p q : Phase} (hi : s.calls[i]? = some (.admitted a p)) :
    (s.setCall i (.admitted a q)).calls.countP Call.isEnded + (if p = .ended then 1 else 0) =
      s.calls.countP Call.isEnded + (if q = .ended then 1 else 0) := by
  have hcount := countP_set Call.isEnded (.admitted a q) hi
  simp only [Call.isEnded, decide_eq_true_eq] at hcount
  exact hcount

/-- **A failure is counted**: below the threshold, or it opens the breaker. -/
theorem Counting.fail {s : Sys} {limit : ℚ} (hc : Counting cfg s) {i : Nat} {a : Admission}
    (hi : s.calls[i]? = some (.admitted a .onFailure))
    (hlimit : 0 < (s.assign (onFailure cfg s.breaker s.now)).opens → limit - s.now < cfg.recoveryTimeout) :
    Counting cfg ((s.assign (onFailure cfg s.breaker s.now)).setCall i (.admitted a .ended)) ∨
      Tripped cfg limit ((s.assign (onFailure cfg s.breaker s.now)).setCall i (.admitted a .ended)) := by
  have hclosed := hc.closed
  rcases onFailure_cases cfg s.breaker s.now with ⟨hhalf, -⟩ | ⟨-, hbelow, he⟩ | ⟨-, -, he⟩
  · rw [hclosed] at hhalf
    cases hhalf
  · rw [he]
    refine .inl ⟨hclosed, ?_, ?_, by exact_mod_cast hbelow⟩
    · change (if _ ∧ s.breaker.state = .open_ then s.opens + 1 else s.opens) = 0
      rw [if_neg fun h => h.1 h.2]
      exact hc.opens
    · have hcount := isEnded_set (q := .ended) (s := s) hi
      rw [if_neg (fun h => nomatch h), if_pos rfl] at hcount
      change s.breaker.failureCount + 1 = (s.setCall i (.admitted a .ended)).calls.countP Call.isEnded
      rw [hc.count]
      omega
  · rw [he] at hlimit ⊢
    have hopens : 0 <
        (s.assign (doOpen { s.breaker with failureCount := s.breaker.failureCount + 1 } s.now)).opens := by
      change 0 < (if s.breaker.state ≠ .open_ ∧ CircuitState.open_ = .open_ then s.opens + 1 else s.opens)
      rw [hclosed, if_pos ⟨(fun h => nomatch h), rfl⟩]
      exact Nat.succ_pos _
    exact .inr ⟨rfl, hopens, s.now, rfl, le_refl _, hlimit hopens⟩

theorem Tripped.fail {s : Sys} {limit : ℚ} (ht : Tripped cfg limit s) {i : Nat} {a : Admission} :
    Tripped cfg limit ((s.assign (onFailure cfg s.breaker s.now)).setCall i (.admitted a .ended)) := by
  obtain ⟨t, hopened, ht', hlimit⟩ := ht.until_
  have hopens : ∀ cb, 0 < (s.assign cb).opens := fun cb => by
    have hpos := ht.opens
    change 0 < (if s.breaker.state ≠ .open_ ∧ cb.state = .open_ then s.opens + 1 else s.opens)
    split
    · exact Nat.succ_pos _
    · exact hpos
  rcases onFailure_cases cfg s.breaker s.now with ⟨-, he⟩ | ⟨-, -, he⟩ | ⟨-, -, he⟩
  · rw [he]
    exact ⟨rfl, hopens _, s.now, rfl, le_refl _, by linarith⟩
  · rw [he]
    exact ⟨ht.opened, hopens _, t, hopened, ht', hlimit⟩
  · rw [he]
    exact ⟨rfl, hopens _, s.now, rfl, le_refl _, by linarith⟩

end Breaker
end KafkaGuide
