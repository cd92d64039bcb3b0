import Mathlib.Algebra.Order.Ring.Rat
import KafkaGuide.Lib.Lts
/-!
# Breaker — the circuit breaker and its concurrent calls (`13-resilience-patterns/app/circuit_breaker.py`)

The breaker's three fields under its four methods, and the system of any number of overlapping `call`s on one breaker.
A call takes its steps one at a time: `_before_call`, the end of `func`, then `_on_success` or `_on_failure`.  Nothing
is awaited while `self._lock` is held, so each of them is one step; the clock moves between them.  Clock readings and
`recovery_timeout` are exact numbers.
-/
namespace KafkaGuide
namespace Breaker

inductive CircuitState where
  | closed
  | open_
  | halfOpen
deriving DecidableEq, Repr

/-- What `CircuitBreaker.__init__` is given and never assigns again; `expectedException` is the test of the `except`
clause, over the exceptions `χ` that `func` may raise. -/
structure Config (χ : Type) where
  name : String
  failureThreshold : Int := 5
  recoveryTimeout : ℚ := 10
  expectedException : χ → Bool := fun _ => true

structure CircuitBreakerOpenError where
  name : String
deriving DecidableEq

def CircuitBreakerOpenError.message (e : CircuitBreakerOpenError) : String :=
  "circuit '" ++ e.name ++ "' is OPEN"

/-- The fields a `CircuitBreaker` assigns: `_state`, `_failure_count`, `_opened_at`, as `__init__` leaves them. -/
structure CircuitBreaker where
  state : CircuitState := .closed
  failureCount : Nat := 0
  openedAt : Option ℚ := none
deriving DecidableEq

variable {χ : Type} (cfg : Config χ)

/-- `_should_attempt_recovery`, the clock reading `now`. -/
def shouldAttemptRecovery (cb : CircuitBreaker) (now : ℚ) : Bool :=
  match cb.openedAt with
  | none => true
  | some t => decide (cfg.recoveryTimeout ≤ now - t)

/-- `_before_call`: a breaker that is HALF_OPEN lets the call through, like one that is CLOSED. -/
def beforeCall (cb : CircuitBreaker) (now : ℚ) : Except CircuitBreakerOpenError CircuitBreaker :=
  if cb.state = .open_ then
    if shouldAttemptRecovery cfg cb now then .ok { cb with state := .halfOpen }
    else .error ⟨cfg.name⟩
  else .ok cb

def doOpen (cb : CircuitBreaker) (now : ℚ) : CircuitBreaker :=
  { cb with state := .open_, openedAt := some now }

/-- `_on_success`: whatever the state was. -/
def onSuccess (_cb : CircuitBreaker) : CircuitBreaker :=
  { state := .closed, failureCount := 0, openedAt := none }

def onFailure (cb : CircuitBreaker) (now : ℚ) : CircuitBreaker :=
  if cb.state = .halfOpen then doOpen cb now
  else
    let cb' := { cb with failureCount := cb.failureCount + 1 }
    if cfg.failureThreshold ≤ (cb'.failureCount : Int) then doOpen cb' now else cb'

/-- How the awaited `func` of a call ends.  `asyncio.CancelledError` is no `Exception`, so no `expected_exception`
catches it. -/
inductive Ending (χ : Type) where
  | returned
  | raised (exc : χ)
  | cancelled

inductive Phase where
  | func
  | onSuccess
  | onFailure
  | ended
deriving DecidableEq

/-- The `try` of `call`: which handler the end of `func` leads to, none for an exception it does not catch. -/
def afterFunc : Ending χ → Phase
  | .returned => .onSuccess
  | .raised exc => if cfg.expectedException exc then .onFailure else .ended
  | .cancelled => .ended

/-- When a call was admitted: the breaker's state as its `_before_call` left it, and the two counts of `Sys`. -/
structure Admission where
  state : CircuitState
  opens : Nat
  episode : Nat
deriving DecidableEq

inductive Call where
  | rejected
  | admitted (adm : Admission) (phase : Phase)
deriving DecidableEq

/-- One breaker and the calls made on it so far, in the order of their `_before_call`.  `opens` counts the times the
breaker turned OPEN and `episodes` its transitions OPEN → HALF_OPEN: no method reads them, they date the calls. -/
structure Sys where
  breaker : CircuitBreaker := {}
  now : ℚ := 0
  calls : List Call := []
  opens : Nat := 0
  episodes : Nat := 0
deriving DecidableEq

def Sys.assign (s : Sys) (cb : CircuitBreaker) : Sys :=
  { s with
    breaker := cb
    opens := if s.breaker.state ≠ .open_ ∧ cb.state = .open_ then s.opens + 1 else s.opens
    episodes := if s.breaker.state = .open_ ∧ cb.state = .halfOpen then s.episodes + 1 else s.episodes }

def Sys.pass (s : Sys) (cb : CircuitBreaker) : Sys :=
  let s' := s.assign cb
  { s' with calls := s'.calls ++ [.admitted ⟨cb.state, s'.opens, s'.episodes⟩ .func] }

def Sys.setCall (s : Sys) (i : Nat) (c : Call) : Sys := { s with calls := s.calls.set i c }

inductive Event (χ : Type) where
  | tick (d : ℚ)
  | beforeCall
  | finish (i : Nat) (e : Ending χ)
  | settle (i : Nat)

/-- One atomic step: the clock advances, a new call runs its `_before_call`, the `func` of call `i` ends, call `i`
runs its `_on_success` or `_on_failure`. -/
def step (s : Sys) : Event χ → Option Sys
  | .tick d => if 0 ≤ d then some { s with now := s.now + d } else none
  | .beforeCall =>
    match beforeCall cfg s.breaker s.now with
    | .error _ => some { s with calls := s.calls ++ [.rejected] }
    | .ok cb => some (s.pass cb)
  | .finish i e =>
    match s.calls[i]? with
    | some (.admitted a .func) => some (s.setCall i (.admitted a (afterFunc cfg e)))
    | _ => none
  | .settle i =>
    match s.calls[i]? with
    | some (.admitted a .onSuccess) => some ((s.assign (onSuccess s.breaker)).setCall i (.admitted a .ended))
    | some (.admitted a .onFailure) => some ((s.assign (onFailure cfg s.breaker s.now)).setCall i (.admitted a .ended))
    | _ => none

/-- The calls on a new breaker, from the clock reading `t₀` on. -/
def lts (t₀ : ℚ) : Lts Sys (Event χ) where
  init := { now := t₀ }
  step := step cfg

/-! ## What a step can do -/

inductive Step (s : Sys) : Event χ → Sys → Prop where
  | tick {d : ℚ} (hd : 0 ≤ d) : Step s (.tick d) { s with now := s.now + d }
  | reject (ho : s.breaker.state = .open_) (hr : shouldAttemptRecovery cfg s.breaker s.now = false) :
      Step s .beforeCall { s with calls := s.calls ++ [.rejected] }
  | probe (ho : s.breaker.state = .open_) (hr : shouldAttemptRecovery cfg s.breaker s.now = true) :
      Step s .beforeCall (s.pass { s.breaker with state := .halfOpen })
  | pass (ho : s.breaker.state ≠ .open_) : Step s .beforeCall (s.pass s.breaker)
  | finish {i : Nat} {a : Admission} (e : Ending χ) (hi : s.calls[i]? = some (.admitted a .func)) :
      Step s (.finish i e) (s.setCall i (.admitted a (afterFunc cfg e)))
  | succeed {i : Nat} {a : Admission} (hi : s.calls[i]? = some (.admitted a .onSuccess)) :
      Step s (.settle i) ((s.assign (onSuccess s.breaker)).setCall i (.admitted a .ended))
  | fail {i : Nat} {a : Admission} (hi : s.calls[i]? = some (.admitted a .onFailure)) :
      Step s (.settle i) ((s.assign (onFailure cfg s.breaker s.now)).setCall i (.admitted a .ended))

variable {cfg}

theorem step_sound {s s' : Sys} {e : Event χ} (h : step cfg s e = some s') : Step cfg s e s' := by
  cases e with
  | tick d =>
    simp only [step] at h
    split at h
    · cases h
      exact .tick ‹_›
    · cases h
  | beforeCall =>
    simp only [step, beforeCall] at h
    by_cases ho : s.breaker.state = .open_
    · cases hr : shouldAttemptRecovery cfg s.breaker s.now with
      | true =>
        simp only [ho, hr, if_true] at h
        cases h
        exact .probe ho hr
      | false =>
        simp only [ho, hr, if_true, Bool.false_eq_true, if_false] at h
        cases h
        exact .reject ho hr
    · simp only [ho, if_false] at h
      cases h
      exact .pass ho
  | finish i e =>
    simp only [step] at h
    split at h
    · cases h
      exact .finish e ‹_›
    · cases h
  | settle i =>
    simp only [step] at h
    split at h
    · cases h
      exact .succeed ‹_›
    · cases h
      exact .fail ‹_›
    · cases h

/-- **What `_on_failure` can do**: open from HALF_OPEN, count below the threshold, or open at it. -/
theorem onFailure_cases (cfg : Config χ) (cb : CircuitBreaker) (now : ℚ) :
    (cb.state = .halfOpen ∧ onFailure cfg cb now = doOpen cb now) ∨
    (cb.state ≠ .halfOpen ∧ (cb.failureCount : Int) + 1 < cfg.failureThreshold ∧
      onFailure cfg cb now = { cb with failureCount := cb.failureCount + 1 }) ∨
    (cb.state ≠ .halfOpen ∧ cfg.failureThreshold ≤ (cb.failureCount : Int) + 1 ∧
      onFailure cfg cb now = doOpen { cb with failureCount := cb.failureCount + 1 } now) := by
  unfold onFailure
  by_cases hh : cb.state = .halfOpen
  · exact .inl ⟨hh, if_pos hh⟩
  · rw [if_neg hh]
    by_cases ht : cfg.failureThreshold ≤ (cb.failureCount : Int) + 1
    · exact .inr (.inr ⟨hh, ht, if_pos (by simpa using ht)⟩)
    · exact .inr (.inl ⟨hh, by omega, if_neg (by simpa using ht)⟩)

end Breaker
end KafkaGuide
