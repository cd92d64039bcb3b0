import Mathlib.Order.WithBot
import KafkaGuide.Gateway
import KafkaGuide.Lib.Text
import KafkaGuide.RetrySpec
/-!
# GatewayAnswers — what `charge` raises and `create_payment` answers (`13-resilience-patterns`)

One `charge` (`app/gateway_client.py`) and the `create_payment` around it (`app/client_main.py`).  Other payments move
the breaker between its attempts, so each attempt comes upon a breaker, a clock and an answer of its own.  The
exceptions that reach the endpoint without a handler are what `response.json()` raises, and the `OverflowError` of the
1025th delay (`documented_answers_iff`).
-/
namespace KafkaGuide
namespace Gateway

open Retry (Stop)
open Tries (Verdict)

/-- The body of `POST /payments`; `inf` is an amount too, which httpx sends as `Infinity`. -/
structure PaymentRequest where
  orderId : String
  amount : WithTop ℚ
  orderId_ne : orderId ≠ ""
  amount_pos : 0 < amount

/-- What a post comes to: an answer of any status with any body, or an `httpx.TransportError`. -/
inductive Reply where
  | response (status : Nat) (body : ByteArray)
  | transportError

/-- What an attempt comes upon: the breaker, the clock, and the reply to a post of an `order_id` and an `amount`. -/
structure Visit where
  breaker : Breaker.CircuitBreaker
  now : ℚ
  reply : String → WithTop ℚ → Reply

section Charge

variable {ν : Type} (env : Settings) (json : ByteArray → Option ν) (req : PaymentRequest)

/-- `_http_call`, from the reply on: `json` is `response.json()`, `none` where it raises a `ValueError`. -/
def receiveReply : Reply → Except Exc ν
  | .response status body =>
    if 200 ≤ status ∧ status < 300 then
      match json body with
      | some v => .ok v
      | none => .error .jsonDecodeError
    else .error (.httpStatusError status)
  | .transportError => .error .transportError

/-- `_call_once`: the breaker's `call` of `_http_call`. -/
def callOnce (v : Visit) : Except Exc ν :=
  match Breaker.beforeCall env.gatewayBreaker v.breaker v.now with
  | .error e => .error (.circuitBreakerOpenError e)
  | .ok _ => receiveReply json (v.reply req.orderId req.amount)

/-- `charge`, attempt number `k` being the visit `visits k`. -/
def charge (visits : Nat → Visit) (random : Nat → Set.Ico (0 : ℚ) 1) : Tries.Run (Stop Exc ν) ℚ :=
  Retry.retryWithBackoff env.retry Retry.floatPow (fun k => callOnce env json req (visits k)) random

/-- What `create_payment` ends with. -/
inductive Answer (ν : Type) where
  | ok (orderId : String) (result : ν)
  | httpException (status : Nat) (detail : String)
  | unhandled

/-- `create_payment`, by how its `charge` ends. -/
def createPayment : Stop Exc ν → Answer ν
  | .returned result => .ok req.orderId result
  | .raised exc =>
    if exc.isCircuitBreakerOpenError then .httpException 503 "payment gateway temporarily unavailable"
    else if exc.isHttpError then .httpException 502 "payment gateway error"
    else .unhandled
  | .overflowError => .unhandled

/-- The status of the response, `render` being the JSON text of what the endpoint returns: `none` where there is none,
for a result that holds `NaN` or a lone surrogate. -/
def Answer.status (render : String → ν → Option ByteArray) : Answer ν → Nat
  | .ok orderId result => if (render orderId result).isSome then 200 else 500
  | .httpException status _ => status
  | .unhandled => 500

/-- The ends that the module's docstring names. -/
def Documented : Stop Exc ν → Prop
  | .returned _ => True
  | .raised exc => exc.isHttpError = true ∨ exc.isCircuitBreakerOpenError = true
  | .overflowError => False

/-! ## The attempts -/

/-- The breaker lets the attempt through. -/
def Visit.Admitted (v : Visit) : Prop :=
  v.breaker.state = .open_ → Breaker.shouldAttemptRecovery env.gatewayBreaker v.breaker v.now = true

/-- There is no answer, or its status is no success. -/
def Reply.Fails : Reply → Prop
  | .response status _ => ¬ (200 ≤ status ∧ status < 300)
  | .transportError => True

/-- A success whose body is no JSON. -/
def Reply.Garbled : Reply → Prop
  | .response status body => (200 ≤ status ∧ status < 300) ∧ json body = none
  | .transportError => False

/-- A success with a body that decodes to `result`. -/
def Reply.Succeeds (result : ν) : Reply → Prop
  | .response status body => (200 ≤ status ∧ status < 300) ∧ json body = some result
  | .transportError => False

def Visit.replied (v : Visit) : Reply := v.reply req.orderId req.amount

/-- An attempt that reaches the gateway and fails. -/
def Visit.Failed (v : Visit) : Prop := v.Admitted env ∧ (v.replied req).Fails

variable {env json req}

theorem callOnce_admitted {v : Visit} (h : v.Admitted env) :
    callOnce env json req v = receiveReply json (v.replied req) := by
  unfold callOnce Breaker.beforeCall
  split
  · rename_i e he
    split at he
    · rename_i ho
      rw [if_pos (h ho)] at he
      cases he
    · cases he
  · rfl

theorem callOnce_rejected {v : Visit} (h : ¬ v.Admitted env) :
    callOnce env json req v = .error (.circuitBreakerOpenError ⟨env.gatewayBreaker.name⟩) := by
  obtain ⟨ho, hrecovery⟩ := not_forall.1 h
  unfold callOnce Breaker.beforeCall
  rw [if_pos ho, if_neg hrecovery]

theorem receiveReply_success {status : Nat} (h : 200 ≤ status ∧ status < 300) (body : ByteArray) :
    receiveReply json (.response status body) = match json body with
      | some v => .ok v
      | none => .error .jsonDecodeError := if_pos h

theorem receiveReply_garbled {r : Reply} (h : r.Garbled json) : receiveReply json r = .error .jsonDecodeError := by
  cases r with
  | response status body => rw [receiveReply_success h.1, h.2]
  | transportError => exact h.elim

theorem receiveReply_succeeds {r : Reply} {result : ν} (h : r.Succeeds json result) :
    receiveReply json r = .ok result := by
  cases r with
  | response status body => rw [receiveReply_success h.1, h.2]
  | transportError => exact h.elim

/-- **What an attempt ends with.** -/
theorem callOnce_cases (env : Settings) (json : ByteArray → Option ν) (req : PaymentRequest) (v : Visit) :
    (¬ v.Admitted env ∧ callOnce env json req v = .error (.circuitBreakerOpenError ⟨env.gatewayBreaker.name⟩)) ∨
    (v.Failed env req ∧ ∃ exc, exc.isHttpError = true ∧ exc.isCircuitBreakerOpenError = false ∧
      callOnce env json req v = .error exc) ∨
    (v.Admitted env ∧ (v.replied req).Garbled json ∧ callOnce env json req v = .error .jsonDecodeError) ∨
    ∃ result, v.Admitted env ∧ (v.replied req).Succeeds json result ∧ callOnce env json req v = .ok result := by
  by_cases hadmitted : v.Admitted env
  · rw [callOnce_admitted hadmitted]
    refine .inr ?_
    unfold Visit.Failed
    cases v.replied req with
    | transportError => exact .inl ⟨⟨hadmitted, trivial⟩, _, rfl, rfl, rfl⟩
    | response status body =>
      unfold receiveReply
      dsimp only
      by_cases hstatus : 200 ≤ status ∧ status < 300
      · rw [if_pos hstatus]
        cases hjson : json body with
        | none => exact .inr (.inl ⟨hadmitted, ⟨hstatus, hjson⟩, rfl⟩)
        | some result => exact .inr (.inr ⟨result, hadmitted, ⟨hstatus, hjson⟩, rfl⟩)
      · rw [if_neg hstatus]
        exact .inl ⟨⟨hadmitted, hstatus⟩, _, rfl, rfl, rfl⟩
  · exact .inl ⟨hadmitted, callOnce_rejected hadmitted⟩

theorem Reply.Garbled.not_fails {r : Reply} (h : r.Garbled json) : ¬ r.Fails := by
  cases r with
  | response status body => exact fun hf => hf h.1
  | transportError => exact h.elim

theorem Reply.Succeeds.not_fails {r : Reply} {result : ν} (h : r.Succeeds json result) : ¬ r.Fails := by
  cases r with
  | response status body => exact fun hf => hf h.1
  | transportError => exact h.elim

/-! ## The charge -/

variable (env json req) (visits : Nat → Visit) (random : Nat → Set.Ico (0 : ℚ) 1)

/-- The verdicts of `charge`'s loop. -/
def verdict (k : Nat) : Tries.Verdict (Stop Exc ν) ℚ :=
  Retry.round env.retry Retry.floatPow k (callOnce env json req (visits k)) (random k)

/-- `charge` gets to attempt number `k`: it may make as many, and those before it have failed. -/
def Reached (k : Nat) : Prop :=
  1 ≤ k ∧ (k : Int) ≤ max 1 env.retryMaxAttempts ∧ ∀ j, 1 ≤ j → j < k → (visits j).Failed env req

variable {env json req}

/-- **What the loop makes of attempt number `k`.** -/
theorem verdict_cases (json : ByteArray → Option ν) (k : Nat) :
    ((visits k).Failed env req ∧ (k : Int) < env.retryMaxAttempts ∧ k < 1025 ∧
      ∃ d, verdict env json req visits random k = .again d) ∨
    ((visits k).Failed env req ∧ (k : Int) < env.retryMaxAttempts ∧ 1025 ≤ k ∧
      verdict env json req visits random k = .stop .overflowError) ∨
    (env.retryMaxAttempts ≤ k ∧ ∃ exc, exc.isHttpError = true ∧
      verdict env json req visits random k = .stop (.raised exc)) ∨
    (¬ (visits k).Admitted env ∧ ∃ exc, exc.isCircuitBreakerOpenError = true ∧
      verdict env json req visits random k = .stop (.raised exc)) ∨
    ((visits k).Admitted env ∧ ((visits k).replied req).Garbled json ∧
      verdict env json req visits random k = .stop (.raised .jsonDecodeError)) ∨
    ∃ result, (visits k).Admitted env ∧ ((visits k).replied req).Succeeds json result ∧
      verdict env json req visits random k = .stop (.returned result) := by
  unfold verdict Retry.round
  rcases callOnce_cases env json req (visits k) with
    ⟨hrejected, hcall⟩ | ⟨hfailed, exc, hhttp, hopen, hcall⟩ | ⟨hadmitted, hgarbled, hcall⟩ |
    ⟨result, hadmitted, hsucceeds, hcall⟩
  · rw [hcall]
    exact .inr (.inr (.inr (.inl ⟨hrejected, _, rfl, rfl⟩)))
  · rw [hcall]
    have hdo : env.retry.doNotRetry exc = false := hopen
    have hretriable : env.retry.retriable exc = true := hhttp
    simp only [hdo, hretriable, if_true, if_false, Bool.false_eq_true]
    by_cases hmax : env.retry.maxAttempts ≤ (k : Int)
    · rw [if_pos hmax]
      exact .inr (.inr (.inl ⟨hmax, exc, hhttp, rfl⟩))
    · rw [if_neg hmax]
      unfold Retry.floatPow
      by_cases hlt : k < 1025
      · rw [if_pos (by omega)]
        exact .inl ⟨hfailed, not_le.1 hmax, hlt, _, rfl⟩
      · rw [if_neg (by omega)]
        exact .inr (.inl ⟨hfailed, not_le.1 hmax, not_lt.1 hlt, rfl⟩)
  · rw [hcall]
    exact .inr (.inr (.inr (.inr (.inl ⟨hadmitted, hgarbled, rfl⟩))))
  · rw [hcall]
    exact .inr (.inr (.inr (.inr (.inr ⟨result, hadmitted, hsucceeds, rfl⟩))))

theorem verdict_garbled {k : Nat} (hadmitted : (visits k).Admitted env)
    (hgarbled : ((visits k).replied req).Garbled json) :
    verdict env json req visits random k = .stop (.raised .jsonDecodeError) := by
  unfold verdict
  rw [callOnce_admitted hadmitted, receiveReply_garbled hgarbled]
  rfl

theorem verdict_succeeds {k : Nat} {result : ν} (hadmitted : (visits k).Admitted env)
    (hsucceeds : ((visits k).replied req).Succeeds json result) :
    verdict env json req visits random k = .stop (.returned result) := by
  unfold verdict
  rw [callOnce_admitted hadmitted, receiveReply_succeeds hsucceeds]
  rfl

/-- An attempt at which the loop goes on has failed, below `max_attempts` and before the 1025th delay. -/
theorem failed_of_again {k : Nat} {d : ℚ} (h : verdict env json req visits random k = .again d) :
    (visits k).Failed env req ∧ (k : Int) < env.retryMaxAttempts ∧ k < 1025 := by
  rcases verdict_cases visits random json k with ⟨hfailed, hlt, hk, -⟩ | ⟨-, -, -, hstop⟩ |
    ⟨-, _, -, hstop⟩ | ⟨-, _, -, hstop⟩ | ⟨-, -, hstop⟩ | ⟨_, -, -, hstop⟩
  · exact ⟨hfailed, hlt, hk⟩
  all_goals
    rw [h] at hstop
    cases hstop

/-- An attempt that has failed at which the loop stops was its last, or the delay after it is out of range. -/
theorem last_of_failed {k : Nat} {r : Stop Exc ν} (h : verdict env json req visits random k = .stop r)
    (hfailed : (visits k).Failed env req) :
    env.retryMaxAttempts ≤ k ∨ 1025 ≤ k ∧ (k : Int) < env.retryMaxAttempts ∧ r = .overflowError := by
  rcases verdict_cases visits random json k with ⟨-, -, -, d, hagain⟩ | ⟨-, hlt, hk, hstop⟩ |
    ⟨hmax, -⟩ | ⟨hrejected, -⟩ | ⟨-, hgarbled, -⟩ | ⟨_, -, hsucceeds, -⟩
  · rw [h] at hagain
    cases hagain
  · rw [h] at hstop
    exact .inr ⟨hk, hlt, Verdict.stop.inj hstop⟩
  · exact .inl hmax
  · exact absurd hfailed.1 hrejected
  · exact absurd hfailed.2 hgarbled.not_fails
  · exact absurd hfailed.2 hsucceeds.not_fails

/-- **How `charge` ends**: at an attempt it has reached, with what the loop makes of it. -/
theorem charge_ends (env : Settings) (json : ByteArray → Option ν) (req : PaymentRequest) (visits : Nat → Visit)
    (random : Nat → Set.Ico (0 : ℚ) 1) : ∃ n, Reached env req visits n ∧ (∀ k, 1 ≤ k → k < n → k < 1025) ∧
    (∀ k, 1 ≤ k → k < n → (visits k).Failed env req) ∧
    verdict env json req visits random n = .stop (charge env json req visits random).result := by
  have hends : Tries.Ends (verdict env json req visits random) 1 (charge env json req visits random) :=
    Retry.retry_ends env.retry Retry.floatPow (fun k => callOnce env json req (visits k)) random
  have hagain : ∀ k, 1 ≤ k → k < 1 + (charge env json req visits random).waits.length →
      (visits k).Failed env req ∧ (k : Int) < env.retryMaxAttempts ∧ k < 1025 := by
    intro k hone hlt
    obtain ⟨j, rfl⟩ := Nat.exists_eq_add_of_le hone
    exact failed_of_again visits random (hends.goes_on (List.getElem?_eq_getElem (by omega)))
  refine ⟨1 + (charge env json req visits random).waits.length, ⟨Nat.le_add_right 1 _, ?_, ?_⟩, ?_, ?_, hends.stops⟩
  · cases hlength : (charge env json req visits random).waits.length with
    | zero => omega
    | succ n =>
      obtain ⟨-, hlt, -⟩ := hagain (n + 1) (by omega) (by omega)
      omega
  · exact fun k hone hlt => (hagain k hone hlt).1
  · exact fun k hone hlt => (hagain k hone hlt).2.2
  · exact fun k hone hlt => (hagain k hone hlt).1

/-- **An attempt that is reached and has not failed is where `charge` ends**, unless a delay was out of range. -/
theorem ends_at {k : Nat} (hk : Reached env req visits k) (hnot : ¬ (visits k).Failed env req)
    (hrange : (charge env json req visits random).result ≠ .overflowError) :
    verdict env json req visits random k = .stop (charge env json req visits random).result := by
  obtain ⟨n, hn, -, hfailed, hstop⟩ := charge_ends env json req visits random
  rcases Nat.lt_trichotomy n k with hlt | rfl | hlt
  · rcases last_of_failed visits random hstop (hk.2.2 n hn.1 hlt) with hmax | ⟨-, -, hoverflow⟩
    · have hle := hk.2.1
      have hone := hn.1
      omega
    · exact absurd hoverflow hrange
  · exact hstop
  · exact absurd (hfailed k hk.1 hlt) hnot

/-- **What `charge` returns** is the body of an attempt that it reached. -/
theorem returned_from {result : ν} (h : (charge env json req visits random).result = .returned result) :
    ∃ n, Reached env req visits n ∧ (visits n).Admitted env ∧ ((visits n).replied req).Succeeds json result := by
  obtain ⟨n, hn, -, -, hstop⟩ := charge_ends env json req visits random
  rw [h] at hstop
  rcases verdict_cases visits random json n with ⟨-, -, -, _, hv⟩ | ⟨-, -, -, hv⟩ |
    ⟨-, _, -, hv⟩ | ⟨-, _, -, hv⟩ | ⟨-, -, hv⟩ | ⟨result', hadmitted, hsucceeds, hv⟩
  case inr.inr.inr.inr.inr =>
    rw [hv] at hstop
    cases hstop
    exact ⟨n, hn, hadmitted, hsucceeds⟩
  all_goals
    rw [hv] at hstop
    cases hstop

/-! ## What the endpoint answers -/

variable (env json req) in
/-- No attempt that `charge` reaches gets a success whose body is no JSON, and where `RETRY_MAX_ATTEMPTS` is more than
1025, one of the first 1025 has not failed. -/
structure Clean : Prop where
  decodes : ∀ k, Reached env req visits k → (visits k).Admitted env → ¬ ((visits k).replied req).Garbled json
  inRange : 1025 < env.retryMaxAttempts → ∃ k, 1 ≤ k ∧ k ≤ 1025 ∧ ¬ (visits k).Failed env req

theorem Documented.ne_overflowError {r : Stop Exc ν} (h : Documented r) : r ≠ .overflowError := by
  rintro rfl
  exact h

/-- **`charge` ends as its module says exactly on clean replies.** -/
theorem documented_iff : Documented (charge env json req visits random).result ↔ Clean env json req visits := by
  constructor
  · intro hdoc
    refine ⟨fun k hk hadmitted hgarbled => ?_, fun hmax => ?_⟩
    · have hnot : ¬ (visits k).Failed env req := fun h => hgarbled.not_fails h.2
      have hstop := ends_at visits random hk hnot hdoc.ne_overflowError
      rw [verdict_garbled visits random hadmitted hgarbled] at hstop
      rw [← Verdict.stop.inj hstop] at hdoc
      rcases hdoc with hdoc | hdoc <;> cases hdoc
    · by_contra hall
      have hfailed : ∀ k, 1 ≤ k → k ≤ 1025 → (visits k).Failed env req := by
        intro k hone hle
        by_contra hnot
        exact hall ⟨k, hone, hle, hnot⟩
      obtain ⟨n, hn, hbefore, -, hstop⟩ := charge_ends env json req visits random
      have hle : n ≤ 1025 := not_lt.1 fun hlt => absurd (hbefore 1025 (by omega) hlt) (by omega)
      rcases last_of_failed visits random hstop (hfailed n hn.1 hle) with hlast | ⟨-, -, hoverflow⟩
      · omega
      · exact hdoc.ne_overflowError hoverflow
  · rintro ⟨hdecodes, hrange⟩
    obtain ⟨n, hn, hbefore, hfailed, hstop⟩ := charge_ends env json req visits random
    rcases verdict_cases visits random json n with ⟨-, -, -, _, hv⟩ | ⟨hf, hlt, hge, hv⟩ |
      ⟨-, exc, hhttp, hv⟩ | ⟨-, exc, hopen, hv⟩ | ⟨hadmitted, hgarbled, hv⟩ | ⟨result, -, -, hv⟩
    · rw [hv] at hstop
      cases hstop
    · -- the first attempt whose delay is out of range is number 1025
      obtain ⟨k, hone, hle, hnot⟩ := hrange (by omega)
      rcases Nat.lt_or_ge k n with hkn | hkn
      · exact absurd (hfailed k hone hkn) hnot
      · have hkn' : k = n := by omega
        rw [hkn'] at hnot
        exact absurd hf hnot
    · rw [hv] at hstop
      rw [← Verdict.stop.inj hstop]
      exact .inl hhttp
    · rw [hv] at hstop
      rw [← Verdict.stop.inj hstop]
      exact .inr hopen
    · exact absurd hgarbled (hdecodes n hn hadmitted)
    · rw [hv] at hstop
      rw [← Verdict.stop.inj hstop]
      trivial

variable (env json req) in
/-- What `charge` may return has a JSON text. -/
def Rendered (render : String → ν → Option ByteArray) : Prop :=
  ∀ k result, Reached env req visits k → (visits k).Admitted env → ((visits k).replied req).Succeeds json result →
    (render req.orderId result).isSome = true

/-- The statuses that `create_payment` is written for. -/
def expectedStatuses : List Nat := [200, 502, 503]

theorem status_documented {render : String → ν → Option ByteArray} {r : Stop Exc ν}
    (h : (createPayment req r).status render ∈ expectedStatuses) : Documented r := by
  cases r with
  | returned result => trivial
  | raised exc =>
    cases exc with
    | jsonDecodeError =>
      change 500 ∈ expectedStatuses at h
      exact absurd h (by decide)
    | circuitBreakerOpenError e => exact .inr rfl
    | transportError => exact .inl rfl
    | httpStatusError status => exact .inl rfl
  | overflowError =>
    change 500 ∈ expectedStatuses at h
    exact absurd h (by decide)

theorem status_raised {render : String → ν → Option ByteArray} {exc : Exc} (h : Documented (.raised exc : Stop Exc ν)) :
    (createPayment req (.raised exc : Stop Exc ν)).status render ∈ expectedStatuses := by
  cases exc with
  | jsonDecodeError => rcases h with h | h <;> cases h
  | circuitBreakerOpenError e =>
    change 503 ∈ expectedStatuses
    decide
  | transportError =>
    change 502 ∈ expectedStatuses
    decide
  | httpStatusError status =>
    change 502 ∈ expectedStatuses
    decide

theorem status_returned {render : String → ν → Option ByteArray} {result : ν} :
    (createPayment req (.returned result)).status render ∈ expectedStatuses ↔
      (render req.orderId result).isSome = true := by
  change (if (render req.orderId result).isSome then 200 else 500) ∈ expectedStatuses ↔ _
  split
  · rename_i hrender
    exact iff_of_true (by decide) hrender
  · rename_i hrender
    exact iff_of_false (by decide) hrender

/-- **What `charge` raises and what `create_payment` answers**: `charge` returns a decoded value or raises one of the
two documented exceptions exactly on clean replies, and the endpoint answers 200, 502 or 503 exactly when moreover the
value has a JSON text. -/
theorem documented_answers_iff (env : Settings) (json : ByteArray → Option ν)
    (render : String → ν → Option ByteArray) (req : PaymentRequest) (visits : Nat → Visit)
    (random : Nat → Set.Ico (0 : ℚ) 1) :
    (Documented (charge env json req visits random).result ↔ Clean env json req visits) ∧
    ((createPayment req (charge env json req visits random).result).status render ∈ expectedStatuses ↔
      Clean env json req visits ∧ Rendered env json req visits render) := by
  refine ⟨documented_iff visits random, ?_⟩
  rw [← documented_iff visits random]
  constructor
  · intro hstatus
    have hdoc := status_documented hstatus
    refine ⟨hdoc, fun k result hk hadmitted hsucceeds => ?_⟩
    have hstop := ends_at visits random hk (fun h => hsucceeds.not_fails h.2) hdoc.ne_overflowError
    rw [verdict_succeeds visits random hadmitted hsucceeds] at hstop
    rw [← Verdict.stop.inj hstop] at hstatus
    exact status_returned.1 hstatus
  · rintro ⟨hdoc, hrendered⟩
    cases hresult : (charge env json req visits random).result with
    | returned result =>
      obtain ⟨n, hn, hadmitted, hsucceeds⟩ := returned_from visits random hresult
      exact status_returned.2 (hrendered n result hn hadmitted hsucceeds)
    | raised exc =>
      rw [hresult] at hdoc
      exact status_raised hdoc
    | overflowError => exact absurd hresult hdoc.ne_overflowError

end Charge

/-- A decoder that knows one JSON text. -/
def nullJson : ByteArray → Option Json := Json.ofBytes fun text => if text = "null" then some .null else none

def chairPayment : PaymentRequest where
  orderId := "order-001"
  amount := ((19 / 2 : ℚ) : WithTop ℚ)
  orderId_ne := by decide
  amount_pos := WithTop.coe_pos.2 (by norm_num)

/-- The breaker is as it starts, and what answers is a page of some proxy. -/
def proxyPages (_ : Nat) : Visit := ⟨{}, 0, fun _ _ => .response 200 "<html></html>".toUTF8⟩

theorem proxyPages_garbled : ((proxyPages 1).replied chairPayment).Garbled nullJson := by
  refine ⟨by decide, ?_⟩
  unfold nullJson Json.ofBytes
  rw [Text.fromUTF8?_toUTF8, Option.bind_some]
  decide

/-- A success that is no JSON leaves `charge` as a `ValueError`, and the endpoint answers 500. -/
theorem proxyPages_unhandled :
    ¬ Documented (charge {} nullJson chairPayment proxyPages fun _ => ⟨0, le_rfl, rfl⟩).result ∧
    (createPayment chairPayment (charge {} nullJson chairPayment proxyPages fun _ => ⟨0, le_rfl, rfl⟩).result).status
      (fun _ _ => some "".toUTF8) = 500 := by
  obtain ⟨n, hn, -, hfailed, hstop⟩ := charge_ends {} nullJson chairPayment proxyPages
    fun _ => ⟨0, le_rfl, rfl⟩
  have hone : n = 1 := by
    by_contra hne
    exact proxyPages_garbled.not_fails (hfailed 1 (Nat.le_refl 1) (by have := hn.1; omega)).2
  rw [hone, verdict_garbled proxyPages _ (fun h => nomatch h) proxyPages_garbled] at hstop
  rw [← Verdict.stop.inj hstop]
  refine ⟨?_, rfl⟩
  rintro (h | h) <;> cases h

end Gateway
end KafkaGuide
