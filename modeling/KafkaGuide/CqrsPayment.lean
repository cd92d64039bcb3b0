import Mathlib.Algebra.Order.Ring.Rat
import KafkaGuide.Lib.ConsumerLoop
import KafkaGuide.Lib.Json
/-!
# CqrsPayment — the payment service (`11-multi-service-architecture/payment-service/app`)

The loop's body awaits the simulated payment and then the publication of its result; every exception of it is caught
and logged, so the loop goes on with the next order.
-/
namespace KafkaGuide
namespace Cqrs

/-- An entry of `payment_records`. -/
inductive PaymentRecord where
  | completed (amount : Json) (transactionId : String)
  | failed (reason : String)

/-- The records, and the topic `payment.result` with its keys. -/
structure PaymentStore where
  paymentRecords : Dict Json.Key PaymentRecord := .empty
  results : List (Option String × Json.Members) := []

def reasons : List String := ["잔액 부족", "카드 한도 초과", "결제 게이트웨이 오류", "카드 만료"]

/-- The awaits of the body: the delay of the payment, and the publication of its result, which may be on the topic. -/
inductive PaymentAwait where
  | process (orderId totalPrice : Json)
  | publish (resultEvent : Json.Members) (landed : Bool)

/-- What happens at an await: the delay is over, with the values of `random` and the clock and the text of a new
transaction id; the result lands on its topic; `publish_payment_result` returns, or raises. -/
inductive PaymentReturn where
  | process (random : ℚ) (transactionId : String) (choice : Fin reasons.length) (now : String)
  | land
  | published
  | publishFailed

/-- The result of a payment and its record. -/
def paymentResult (failureRate : ℚ) (orderId totalPrice : Json) (random : ℚ) (transactionId : String)
    (choice : Fin reasons.length) (now : String) : Json.Members × PaymentRecord :=
  if failureRate < random then
    ([("event_type", .str "PAYMENT_COMPLETED"), ("order_id", orderId), ("amount", totalPrice),
      ("payment_method", .str "credit_card"), ("transaction_id", .str transactionId), ("timestamp", .str now)],
      .completed totalPrice transactionId)
  else
    ([("event_type", .str "PAYMENT_FAILED"), ("order_id", orderId), ("amount", totalPrice),
      ("reason", .str (reasons.get choice)), ("timestamp", .str now)], .failed (reasons.get choice))

/-- The body of `start_consumer`, to its first await.  A value that is no object has no `get`: that is caught. -/
def receiveOrder (st : PaymentStore) (value : Json) : PaymentStore × Stretch PaymentAwait :=
  match value with
  | .obj event =>
    (st, .await (.process (Json.get event "order_id" (.str "")) (Json.get event "total_price" (.num 0))))
  | _ => (st, .done)

/-- The body of `start_consumer`, from an await on.  An unhashable `order_id` has no record, and one that is no string
but truthy is no key of a record: what they raise is caught, like what `publish_payment_result` raises. -/
def advancePayment (failureRate : ℚ) (st : PaymentStore) :
    PaymentAwait → PaymentReturn → Option (PaymentStore × Stretch PaymentAwait)
  | .process orderId totalPrice, .process random transactionId choice now =>
    let (resultEvent, record) := paymentResult failureRate orderId totalPrice random transactionId choice now
    match orderId.key? with
    | none => some (st, .done)
    | some k =>
      some ({ st with paymentRecords := st.paymentRecords.set k record }, .await (.publish resultEvent false))
  | .publish resultEvent false, .land =>
    (Json.get resultEvent "order_id" (.str "")).encodeKey.map fun key =>
      ({ st with results := st.results ++ [(key, resultEvent)] }, .await (.publish resultEvent true))
  | .publish _ true, .published => some (st, .done)
  | .publish _ _, .publishFailed => some (st, .done)
  | _, _ => none

/-- **What a publication can do**: its result lands, or it is over. -/
theorem advancePayment_publish {failureRate : ℚ} {st : PaymentStore} {resultEvent : Json.Members} {landed : Bool}
    {r : PaymentReturn} {p : PaymentStore × Stretch PaymentAwait}
    (h : advancePayment failureRate st (.publish resultEvent landed) r = some p) :
    (landed = false ∧ r = .land ∧ ∃ key,
      p = ({ st with results := st.results ++ [(key, resultEvent)] }, .await (.publish resultEvent true))) ∨
    p = (st, .done) ∧ (r = .publishFailed ∨ landed = true ∧ r = .published) := by
  cases r with
  | process random transactionId choice now => cases landed <;> cases h
  | land =>
    cases landed with
    | false =>
      obtain ⟨key, -, rfl⟩ := Option.map_eq_some_iff.1 h
      exact .inl ⟨rfl, rfl, key, rfl⟩
    | true => cases h
  | published =>
    cases landed with
    | false => cases h
    | true =>
      cases h
      exact .inr ⟨rfl, .inr ⟨rfl, rfl⟩⟩
  | publishFailed =>
    cases landed with
    | false =>
      cases h
      exact .inr ⟨rfl, .inl rfl⟩
    | true =>
      cases h
      exact .inr ⟨rfl, .inl rfl⟩

/-- `start_consumer` of the payment service, `PAYMENT_FAILURE_RATE` given. -/
def paymentLoop (loads : String → Option Json) (failureRate : ℚ) :
    ConsumerLoop ByteArray Json PaymentStore PaymentAwait Unit PaymentReturn where
  decode := Json.ofBytes loads
  init := {}
  receive st value _ := receiveOrder st value
  advance := advancePayment failureRate

end Cqrs
end KafkaGuide
