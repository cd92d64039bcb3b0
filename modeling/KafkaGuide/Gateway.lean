import Mathlib.Algebra.Order.Monoid.Unbundled.WithTop
import KafkaGuide.Breaker
import KafkaGuide.Lib.Json
import KafkaGuide.Retry
/-!
# Gateway — payments, their attempts and the gateway's handler (`13-resilience-patterns`)

Any number of `POST /payments`, each in its `charge` (`app/gateway_client.py`): attempts through the breaker, an HTTP
post for each call it admits, the end of the call, the retry.  The gateway's handler of a post (`app/gateway_main.py`)
runs on its own: it may not have started, or still be asleep, when the client gives the post up.  httpx raises a
`TransportError` for a post with no answer, at any time: that is where the request timeout is.  An amount may be `inf`,
which httpx sends as `Infinity` and the gateway cannot render.
-/
namespace KafkaGuide
namespace Gateway

/-- What an attempt may raise. -/
inductive Exc where
  | transportError
  | httpStatusError (status : Nat)
  | jsonDecodeError
  | circuitBreakerOpenError (e : Breaker.CircuitBreakerOpenError)

/-- `isinstance(exc, httpx.HTTPError)`. -/
def Exc.isHttpError : Exc → Bool
  | .transportError => true
  | .httpStatusError _ => true
  | _ => false

def Exc.isCircuitBreakerOpenError : Exc → Bool
  | .circuitBreakerOpenError _ => true
  | _ => false

/-- The client's part of `app/config.py`. -/
structure Settings where
  retryMaxAttempts : Int := 3
  retryBaseDelayMs : Int := 200
  cbFailureThreshold : Int := 5
  cbRecoveryTimeoutSec : ℚ := 10

def Settings.gatewayBreaker (env : Settings) : Breaker.Config Exc where
  name := "payment-gateway"
  failureThreshold := env.cbFailureThreshold
  recoveryTimeout := env.cbRecoveryTimeoutSec
  expectedException := Exc.isHttpError

/-- The arguments `charge` gives to `retry_with_backoff`. -/
def Settings.retry (env : Settings) : Retry.Config Exc where
  maxAttempts := env.retryMaxAttempts
  baseDelayMs := env.retryBaseDelayMs
  retriable := Exc.isHttpError
  doNotRetry := Exc.isCircuitBreakerOpenError

/-- An answer: `body` is what its JSON decodes to, `none` when it is no JSON. -/
structure Response where
  status : Nat
  body : Option Json

/-- `_http_call`, once the post is answered. -/
def httpCall (r : Response) : Except Exc Json :=
  if 200 ≤ r.status ∧ r.status < 300 then
    match r.body with
    | some v => .ok v
    | none => .error .jsonDecodeError
  else .error (.httpStatusError r.status)

def ending : Except Exc Json → Breaker.Ending Exc
  | .ok _ => .returned
  | .error exc => .raised exc

/-! ## The gateway -/

/-- A `GATEWAY_MODE` with another text behaves as `healthy`. -/
inductive Mode where
  | healthy
  | slow
  | dead
  | flaky

/-- The gateway's `state`. -/
structure State where
  mode : Mode := .healthy
  latencyMs : Int := 50

/-- Where the handler of a post is. -/
inductive Handler where
  | wire
  | slow (due : ℚ)
  | latency (due : ℚ)
  | failed (detail : String)
  | approved (transactionId : String)

def Handler.isApproved : Handler → Bool
  | .approved _ => true
  | _ => false

/-- The gateway's `charge`, to its first `await` or its `raise`. -/
def chargeStart (g : State) (now random : ℚ) : Handler :=
  match g.mode with
  | .dead => .failed "gateway down"
  | .slow => .slow (now + 5)
  | .flaky => if random < 1 / 2 then .failed "flaky failure" else .latency (now + g.latencyMs / 1000)
  | .healthy => .latency (now + g.latencyMs / 1000)

/-- The gateway's `charge`, from an `asyncio.sleep` that is over to the next one or its `return`. -/
def chargeResume (g : State) (now : ℚ) (random : Nat) : Handler → Option Handler
  | .slow due => if due ≤ now then some (.latency (now + g.latencyMs / 1000)) else none
  | .latency due => if due ≤ now then some (.approved ("tx-" ++ toString random)) else none
  | _ => none

/-! ## The client -/

/-- What the client has of a post. -/
inductive View where
  | waiting
  | received
  | gaveUp
deriving DecidableEq

/-- An HTTP post of payment `payment`, in call `call` of the breaker. -/
structure Post where
  payment : Nat
  call : Nat
  orderId : String
  amount : WithTop ℚ
  handler : Handler := .wire
  view : View := .waiting

/-- What the gateway's `charge` returns. -/
def approval (orderId : String) (amount : ℚ) (transactionId : String) : Json :=
  .obj [("order_id", .str orderId), ("amount", .num amount), ("status", .str "APPROVED"),
    ("transaction_id", .str transactionId)]

/-- The response to what the gateway's `charge` returns: an amount of `inf` makes the `JSONResponse` raise. -/
def chargeResponse (orderId : String) (transactionId : String) : WithTop ℚ → Response
  | ⊤ => ⟨500, none⟩
  | (amount : ℚ) => ⟨200, some (approval orderId amount transactionId)⟩

/-- The answer of the handler, once it has returned or raised. -/
def Post.response (post : Post) : Option Response :=
  match post.handler with
  | .failed detail => some ⟨500, some (.obj [("detail", .str detail)])⟩
  | .approved transactionId => some (chargeResponse post.orderId transactionId post.amount)
  | _ => none

/-- Where a payment is in its `charge`. -/
inductive Progress where
  | attempting
  | posting (j : Nat)
  | settling (call : Nat) (outcome : Except Exc Json)
  | sleeping (due : ℚ)
  | ended (outcome : Except Exc Json)

structure Payment where
  orderId : String
  amount : WithTop ℚ
  attempt : Nat := 0
  progress : Progress := .attempting

structure Sys where
  breaker : Breaker.Sys := {}
  gateway : State := {}
  payments : Nat → Option Payment := fun _ => none
  posts : List Post := []

inductive Action where
  | tick (d : ℚ)
  | setMode (mode : Mode) (latencyMs : Option Int)
  | payment (p : Nat) (orderId : String) (amount : WithTop ℚ)
  | attempt (p : Nat)
  | arrive (j : Nat) (random : ℚ)
  | resume (j : Nat) (random : Nat)
  | answer (j : Nat)
  | transportError (j : Nat)
  | settle (p : Nat) (random : ℚ)
  | wakeUp (p : Nat)

def Sys.setPayment (s : Sys) (p : Nat) (pay : Payment) : Sys :=
  { s with payments := fun p' => if p' = p then some pay else s.payments p' }

def Sys.setPost (s : Sys) (j : Nat) (post : Post) : Sys := { s with posts := s.posts.set j post }

variable (env : Settings)

/-- A call of the breaker moves on, if it has a step to take: one that was rejected has none, nor has one whose
exception is not the expected one. -/
def Sys.stepCall (s : Sys) (e : Breaker.Event Exc) : Sys :=
  { s with breaker := (Breaker.step env.gatewayBreaker s.breaker e).getD s.breaker }

/-- The post of an attempt ends: so does the `func` of its call. -/
def Sys.conclude (s : Sys) (j : Nat) (post : Post) (pay : Payment) (view : View) (outcome : Except Exc Json) : Sys :=
  ((s.stepCall env (.finish post.call (ending outcome))).setPost j { post with view }).setPayment post.payment
    { pay with progress := .settling post.call outcome }

/-- What `retry_with_backoff` does with the outcome of an attempt. -/
def Payment.afterAttempt (pay : Payment) (now random : ℚ) (outcome : Except Exc Json) : Payment :=
  match outcome with
  | .ok _ => { pay with progress := .ended outcome }
  | .error exc =>
    match Retry.handle env.retry pay.attempt exc random with
    | none => { pay with progress := .ended outcome }
    | some delay => { pay with progress := .sleeping (now + delay) }

/-- One more attempt: a call of the breaker, and a post if it is admitted. -/
def Sys.attempt (s : Sys) (p : Nat) (pay : Payment) : Sys :=
  let call := s.breaker.calls.length
  let pay := { pay with attempt := pay.attempt + 1 }
  match Breaker.beforeCall env.gatewayBreaker s.breaker.breaker s.breaker.now with
  | .error e =>
    (s.stepCall env .beforeCall).setPayment p
      { pay with progress := .settling call (.error (.circuitBreakerOpenError e)) }
  | .ok _ =>
    { (s.stepCall env .beforeCall).setPayment p { pay with progress := .posting s.posts.length } with
      posts := s.posts ++ [{ payment := p, call, orderId := pay.orderId, amount := pay.amount }] }

def step (s : Sys) : Action → Option Sys
  | .tick d => if 0 ≤ d then some (s.stepCall env (.tick d)) else none
  | .setMode mode latencyMs => some { s with gateway := ⟨mode, latencyMs.getD s.gateway.latencyMs⟩ }
  | .payment p orderId amount =>
    match s.payments p with
    | none => if orderId ≠ "" ∧ 0 < amount then some (s.setPayment p { orderId, amount }) else none
    | some _ => none
  | .attempt p =>
    match s.payments p with
    | some pay => match pay.progress with
      | .attempting => some (s.attempt env p pay)
      | _ => none
    | none => none
  | .arrive j random =>
    match s.posts[j]? with
    | some post => match post.handler with
      | .wire => some (s.setPost j { post with handler := chargeStart s.gateway s.breaker.now random })
      | _ => none
    | none => none
  | .resume j random =>
    match s.posts[j]? with
    | some post => (chargeResume s.gateway s.breaker.now random post.handler).map
      (fun handler => s.setPost j { post with handler })
    | none => none
  | .answer j =>
    match s.posts[j]? with
    | some post => match post.view, post.response, s.payments post.payment with
      | .waiting, some r, some pay => some (s.conclude env j post pay .received (httpCall r))
      | _, _, _ => none
    | none => none
  | .transportError j =>
    match s.posts[j]? with
    | some post => match post.view, s.payments post.payment with
      | .waiting, some pay => some (s.conclude env j post pay .gaveUp (.error .transportError))
      | _, _ => none
    | none => none
  | .settle p random =>
    match s.payments p with
    | some pay => match pay.progress with
      | .settling call outcome =>
        some ((s.stepCall env (.settle call)).setPayment p (pay.afterAttempt env s.breaker.now random outcome))
      | _ => none
    | none => none
  | .wakeUp p =>
    match s.payments p with
    | some pay => match pay.progress with
      | .sleeping due =>
        if due ≤ s.breaker.now then some (s.setPayment p { pay with progress := .attempting }) else none
      | _ => none
    | none => none

/-- The gateway starts as its environment says. -/
def lts (gateway : State) : Lts Sys Action where
  init := { gateway }
  step := step env

end Gateway
end KafkaGuide
