import Mathlib.Algebra.Order.Ring.Rat
import KafkaGuide.Lib.ConsumerLoop
import KafkaGuide.Lib.Json
/-!
# Payments — the payments consumer, its retries and its dead letters (`07-error-handling-and-retry/app`)

`consume_payments` tries each payment `MAX_RETRIES` times, sends it to `payments-dlq` when all have failed, and commits
either way.  `retry_with_backoff` awaits between two attempts, `send_to_dlq` until its record has been sent or has not,
the loop until the broker has the offset; everything else is done at once.
-/
namespace KafkaGuide
namespace Payments

/-- The configured `MAX_RETRIES`, and what the interpreter brings: the decoder of JSON texts, and a value's text. -/
structure Env where
  maxRetries : Int := 3
  loads : String → Option Json
  format : Json → String

/-- What an attempt finds: the clock, and the exception that the payment raises besides those of its own fields. -/
structure Attempt where
  now : String
  fault : Option String := none

/-- `payment[k]`. -/
def item (payment : Json.Members) (k : String) : Except String Json :=
  match Dict.find k payment with
  | some v => .ok v
  | none => .error ("'" ++ k ++ "'")

/-- `process_payment`: its result, or the text of what it raises. -/
def processPayment (env : Env) (payment : Json.Members) (a : Attempt) : Except String Json.Members :=
  match a.fault with
  | some text => .error text
  | none =>
    if (Json.get payment "amount").isNum 10 then
      .error ("결제 처리 실패 (payment_id=" ++ env.format (Json.get payment "payment_id") ++ "): " ++
        "금액 검증 오류 - amount=10은 처리할 수 없습니다")
    else do
      let paymentId ← item payment "payment_id"
      let userId ← item payment "user_id"
      let amount ← item payment "amount"
      let currency ← item payment "currency"
      return [("payment_id", paymentId), ("user_id", userId), ("amount", amount), ("currency", currency),
        ("status", .str "completed"), ("processed_at", .str a.now)]

/-- The `dlq_message` of `send_to_dlq`. -/
def dlqMessage (payment : Json.Members) (error : String) (retryCount : Int) (now : String) : Json.Members :=
  [("payment_id", Json.get payment "payment_id" (.str "unknown")),
   ("user_id", Json.get payment "user_id" (.str "unknown")),
   ("amount", Json.get payment "amount" (.num 0)),
   ("currency", Json.get payment "currency" (.str "KRW")),
   ("error", .str error),
   ("retry_count", .num retryCount),
   ("failed_at", .str now)]

/-- The payments the loop has got, in their order, `processed_payments`, the records of `payments-dlq` with their keys,
and how many of the payments have a committed offset. -/
structure Store where
  received : List Json.Members := []
  processedPayments : List Json.Members := []
  dlq : List (Option String × Json.Members) := []
  committed : Nat := 0

/-- The awaits of the loop's body: the delay before an attempt, the DLQ record, which may be on the topic by now, and
the commit, which may have reached the broker. -/
inductive Await where
  | retry (payment : Json.Members) (attempt : Nat)
  | sendToDlq (payment message : Json.Members) (landed : Bool)
  | commit (stored : Bool)

/-- What happens at an await.  `sent` is the end of `send_message`, whether it returns or raises: `send_to_dlq` catches
what it raises. -/
inductive Return where
  | attempt (a : Attempt)
  | land
  | sent
  | store
  | committed
  | commitFailed

variable (env : Env)

/-- The `except` clause of the loop: the payment is sent to the DLQ. -/
def giveUp (st : Store) (payment : Json.Members) (error now : String) : Store × Stretch Await :=
  (st, .await (.sendToDlq payment (dlqMessage payment error env.maxRetries now) false))

/-- One round of `retry_with_backoff`.  Without a single round there is no `last_exception` to raise, and raising
`None` is a `TypeError`; a `2 ** attempt` that is too large for a float makes the delay an `OverflowError`. -/
def tryPayment (st : Store) (payment : Json.Members) (attempt : Nat) (a : Attempt) : Store × Stretch Await :=
  if attempt < env.maxRetries then
    match processPayment env payment a with
    | .ok result => ({ st with processedPayments := st.processedPayments ++ [result] }, .await (.commit false))
    | .error text =>
      if attempt < env.maxRetries - 1 then
        if attempt < 1024 then (st, .await (.retry payment (attempt + 1)))
        else giveUp env st payment "int too large to convert to float" a.now
      else giveUp env st payment text a.now
  else giveUp env st payment "exceptions must derive from BaseException" a.now

/-- The body of `consume_payments`, to its first await.  The `payment.get` of the first log line is outside the `try`:
a value that is no object ends the loop. -/
def receive (st : Store) (value : Json) (a : Attempt) : Store × Stretch Await :=
  match value with
  | .obj payment => tryPayment env { st with received := st.received ++ [payment] } payment 0 a
  | _ => (st, .raised)

/-- The body of `consume_payments`, from an await on.  A DLQ record whose key cannot be encoded is never sent, and what
`commit` raises leaves the loop. -/
def advance (st : Store) : Await → Return → Option (Store × Stretch Await)
  | .retry payment attempt, .attempt a => some (tryPayment env st payment attempt a)
  | .sendToDlq payment message _, .land =>
    (Json.get payment "payment_id").encodeKey.map fun key =>
      ({ st with dlq := st.dlq ++ [(key, message)] }, .await (.sendToDlq payment message true))
  | .sendToDlq _ _ _, .sent => some (st, .await (.commit false))
  | .commit _, .store => some ({ st with committed := st.received.length }, .await (.commit true))
  | .commit true, .committed => some (st, .done)
  | .commit _, .commitFailed => some (st, .raised)
  | _, _ => none

def loop : ConsumerLoop ByteArray Json Store Await Attempt Return where
  decode := Json.ofBytes env.loads
  init := {}
  receive := receive env
  advance := advance env

/-! ## What the functions can do -/

variable {env}

/-- **A round of `retry_with_backoff`** processes the payment, or leaves it to a further round or to the DLQ. -/
theorem tryPayment_cases (env : Env) (st : Store) (payment : Json.Members) (attempt : Nat) (a : Attempt) :
    (∃ result, processPayment env payment a = .ok result ∧ tryPayment env st payment attempt a =
      ({ st with processedPayments := st.processedPayments ++ [result] }, .await (.commit false))) ∨
    (attempt < env.maxRetries - 1 ∧
      tryPayment env st payment attempt a = (st, .await (.retry payment (attempt + 1)))) ∨
    ∃ text, tryPayment env st payment attempt a = giveUp env st payment text a.now := by
  unfold tryPayment
  split
  · cases hprocess : processPayment env payment a with
    | ok result => exact .inl ⟨result, rfl, rfl⟩
    | error text =>
      dsimp only
      split
      · rename_i hlt
        split
        · exact .inr (.inl ⟨hlt, rfl⟩)
        · exact .inr (.inr ⟨_, rfl⟩)
      · exact .inr (.inr ⟨text, rfl⟩)
  · exact .inr (.inr ⟨_, rfl⟩)

def paymentFields : List String := ["payment_id", "user_id", "amount", "currency"]

theorem item_eq_ok {payment : Json.Members} {k : String} {v : Json} :
    item payment k = .ok v ↔ Dict.find k payment = some v := by
  unfold item
  cases Dict.find k payment with
  | some v' => rw [Except.ok.injEq, Option.some.injEq]
  | none => exact iff_of_false (fun h => nomatch h) (fun h => nomatch h)

theorem bind_eq_ok {α γ : Type} {x : Except String α} {f : α → Except String γ} {c : γ} (h : x >>= f = .ok c) :
    ∃ a, x = .ok a ∧ f a = .ok c := by
  cases x with
  | error text => cases h
  | ok a => exact ⟨a, rfl, h⟩

/-- **A result has the payment's own fields.** -/
theorem processPayment_ok {payment result : Json.Members} {a : Attempt}
    (h : processPayment env payment a = .ok result) :
    ∀ k ∈ paymentFields, ∃ v, Dict.find k payment = some v ∧ Dict.find k result = some v := by
  unfold processPayment at h
  split at h
  · cases h
  · split at h
    · cases h
    · obtain ⟨paymentId, hpaymentId, h⟩ := bind_eq_ok h
      obtain ⟨userId, huserId, h⟩ := bind_eq_ok h
      obtain ⟨amount, hamount, h⟩ := bind_eq_ok h
      obtain ⟨currency, hcurrency, h⟩ := bind_eq_ok h
      cases h
      intro k hk
      simp only [paymentFields, List.mem_cons, List.not_mem_nil, or_false] at hk
      rcases hk with rfl | rfl | rfl | rfl
      · exact ⟨paymentId, item_eq_ok.1 hpaymentId, rfl⟩
      · exact ⟨userId, item_eq_ok.1 huserId, rfl⟩
      · exact ⟨amount, item_eq_ok.1 hamount, rfl⟩
      · exact ⟨currency, item_eq_ok.1 hcurrency, rfl⟩

/-- The DLQ message has the fields of a payment as they are. -/
theorem dlqMessage_find {payment : Json.Members} {k : String} {v : Json} (hk : k ∈ paymentFields)
    (h : Dict.find k payment = some v) (error : String) (retryCount : Int) (now : String) :
    Dict.find k (dlqMessage payment error retryCount now) = some v := by
  simp only [paymentFields, List.mem_cons, List.not_mem_nil, or_false] at hk
  rcases hk with rfl | rfl | rfl | rfl <;> simp [dlqMessage, Dict.find, Json.get, h]

end Payments
end KafkaGuide
