import KafkaGuide.CqrsOrder
import KafkaGuide.CqrsPayment
import KafkaGuide.CqrsQuery
import KafkaGuide.Payments
/-!
# ConsumerLoops — what ends a consumer loop

The loops of chapter 11 catch everything their body raises, so only a record that `value_deserializer` rejects ends them
with an exception.  `consume_payments` reads a field of the value before its `try`, and commits after it: there a value
that is no object and a failing commit end the loop as well.
-/
namespace KafkaGuide

open ConsumerLoop (State Event)

namespace Cqrs

/-- `start_consumer` of the order service: its body has no await, and catches what it raises. -/
def orderLoop (loads : String → Option Json) (db : OrdersDb) :
    ConsumerLoop ByteArray Json OrdersDb Empty String Empty where
  decode := Json.ofBytes loads
  init := db
  receive db value now := (consume db value now, .done)
  advance _ k _ := k.elim

/-- `start_consumer` of the query service, a record coming with its topic and the clock. -/
def queryLoop (loads : String → Option Json) (st : ReadStore) :
    ConsumerLoop ByteArray Json ReadStore Empty (String × String) Empty where
  decode := Json.ofBytes loads
  init := st
  receive st value p := (consumeEvent st value p.1 p.2, .done)
  advance _ k _ := k.elim

variable (loads : String → Option Json)

theorem orderLoop_guarded (db : OrdersDb) : (orderLoop loads db).Guarded where
  receive _ _ _ h := by cases h
  advance _ k := k.elim

theorem queryLoop_guarded (st : ReadStore) : (queryLoop loads st).Guarded where
  receive _ _ _ h := by cases h
  advance _ k := k.elim

theorem paymentLoop_guarded (failureRate : ℚ) : (paymentLoop loads failureRate).Guarded where
  receive st value _ := by
    change (receiveOrder st value).2 ≠ .raised
    unfold receiveOrder
    split
    · exact fun h => by cases h
    · exact fun h => by cases h
  advance st k i p h := by
    change advancePayment failureRate st k i = some p at h
    unfold advancePayment at h
    split at h
    · dsimp only at h
      split at h
      · cases h
        exact fun h => by cases h
      · cases h
        exact fun h => by cases h
    · obtain ⟨key, -, rfl⟩ := Option.map_eq_some_iff.1 h
      exact fun h => by cases h
    · cases h
      exact fun h => by cases h
    · cases h
      exact fun h => by cases h
    · cases h

/-- How many awaits of the body are left, at most. -/
def PaymentAwait.rank : PaymentAwait → Nat
  | .process _ _ => 1
  | .publish _ _ => 0

theorem paymentLoop_ranked (failureRate : ℚ) : (paymentLoop loads failureRate).Ranked PaymentAwait.rank := by
  intro st k
  cases k with
  | process orderId totalPrice =>
    refine ⟨.process 0 "" ⟨0, by decide⟩ "", ?_⟩
    have hadvance : (paymentLoop loads failureRate).advance = advancePayment failureRate := rfl
    rw [hadvance]
    unfold advancePayment
    dsimp only
    cases orderId.key? with
    | none => exact ⟨_, _, rfl, .inl rfl⟩
    | some k => exact ⟨_, _, rfl, .inr ⟨_, rfl, Nat.zero_lt_one⟩⟩
  | publish resultEvent landed => cases landed <;> exact ⟨.publishFailed, _, _, rfl, .inl rfl⟩

end Cqrs

namespace Payments

variable (env : Env)

/-- If the step fetches a record, its value is an object; if it ends a commit, this has not failed. -/
def Harmless : Event ByteArray Attempt Return → Prop
  | .receive bytes _ => ∃ payment, Json.ofBytes env.loads bytes = some (.obj payment)
  | .advance .commitFailed => False
  | _ => True

theorem tryPayment_not_raised (st : Store) (payment : Json.Members) (attempt : Nat) (a : Attempt) :
    (tryPayment env st payment attempt a).2 ≠ .raised := by
  rcases tryPayment_cases env st payment attempt a with ⟨result, -, he⟩ | ⟨-, he⟩ | ⟨text, he⟩ <;> rw [he] <;>
    exact fun h => by cases h

theorem advance_raised_iff {st : Store} {k : Await} {i : Return} {p : Store × Stretch Await}
    (h : advance env st k i = some p) : p.2 = .raised ↔ i = .commitFailed := by
  unfold advance at h
  split at h
  · cases h
    exact iff_of_false (fun h => tryPayment_not_raised env _ _ _ _ h) (fun h => by cases h)
  · obtain ⟨key, -, rfl⟩ := Option.map_eq_some_iff.1 h
    exact iff_of_false (fun h => by cases h) (fun h => by cases h)
  · cases h
    exact iff_of_false (fun h => by cases h) (fun h => by cases h)
  · cases h
    exact iff_of_false (fun h => by cases h) (fun h => by cases h)
  · cases h
    exact iff_of_false (fun h => by cases h) (fun h => by cases h)
  · cases h
    exact iff_of_true rfl rfl
  · cases h

/-- How many awaits of the body are left, at most. -/
def Await.rank : Await → Nat
  | .retry _ attempt => (env.maxRetries - attempt).toNat + 3
  | .sendToDlq _ _ _ => 2
  | .commit false => 1
  | .commit true => 0

theorem loop_ranked : (loop env).Ranked (Await.rank env) := by
  intro st k
  cases k with
  | retry payment attempt =>
    refine ⟨.attempt ⟨"", none⟩, ?_⟩
    change ∃ store' next, some (tryPayment env st payment attempt ⟨"", none⟩) = some (store', next) ∧ _
    rcases tryPayment_cases env st payment attempt ⟨"", none⟩ with ⟨result, -, he⟩ | ⟨hlt, he⟩ | ⟨text, he⟩
    · rw [he]
      exact ⟨_, _, rfl, .inr ⟨_, rfl, by simp [Await.rank]⟩⟩
    · rw [he]
      refine ⟨_, _, rfl, .inr ⟨_, rfl, ?_⟩⟩
      change (env.maxRetries - (attempt + 1 : Nat)).toNat + 3 < (env.maxRetries - attempt).toNat + 3
      omega
    · rw [he]
      exact ⟨_, _, rfl, .inr ⟨_, rfl, by simp [Await.rank]⟩⟩
  | sendToDlq payment message landed => exact ⟨.sent, _, _, rfl, .inr ⟨_, rfl, by simp [Await.rank]⟩⟩
  | commit stored =>
    cases stored with
    | false => exact ⟨.store, _, _, rfl, .inr ⟨_, rfl, by simp [Await.rank]⟩⟩
    | true => exact ⟨.committed, _, _, rfl, .inl rfl⟩

theorem harmless_iff {s s' : State Store Await} {e : Event ByteArray Attempt Return}
    (h : (loop env).step s e = some s') : Harmless env e ↔ ¬ (loop env).Raises s e := by
  cases ConsumerLoop.step_sound h with
  | @undecoded bytes a hposition hdecode =>
    refine iff_of_false ?_ (fun h => h fun v hv => ?_)
    · rintro ⟨payment, hpayment⟩
      change Json.ofBytes env.loads bytes = none at hdecode
      rw [hdecode] at hpayment
      cases hpayment
    · rw [hdecode] at hv
      cases hv
  | @receive bytes v a hposition hdecode =>
    constructor
    · rintro ⟨payment, hpayment⟩ hraises
      exact tryPayment_not_raised env _ payment 0 a (hraises _ hpayment)
    · intro hraises
      change Json.ofBytes env.loads bytes = some v at hdecode
      cases v with
      | obj payment => exact ⟨payment, hdecode⟩
      | _ =>
        refine absurd (fun v hv => ?_) hraises
        change Json.ofBytes env.loads bytes = some v at hv
        rw [hdecode] at hv
        cases hv
        rfl
  | @advance k i p hposition hadvance =>
    rw [ConsumerLoop.raises_advance_iff hposition hadvance, advance_raised_iff env hadvance]
    cases i with
    | commitFailed => exact iff_of_false (fun h => h) (fun h => h rfl)
    | _ => exact iff_of_true trivial (fun h => by cases h)
  | cancel => exact iff_of_true trivial (fun h => h)

end Payments

/-- **A consumer loop goes on through a run exactly when every record it fetches has a value**, in chapter 7 an object,
and there no commit fails. -/
theorem loops_go_on_iff (loads : String → Option Json) :
    (∀ (env : Payments.Env) (es : List (Event ByteArray Payments.Attempt Payments.Return)),
      (Payments.loop env).GoesOnAlong es ↔
        (Payments.loop env).lts.Along (fun _ e _ => Payments.Harmless env e) (Payments.loop env).lts.init es) ∧
    (∀ (db : Cqrs.OrdersDb) (es : List (Event ByteArray String Empty)),
      (Cqrs.orderLoop loads db).GoesOnAlong es ↔ (Cqrs.orderLoop loads db).lts.Along
        (fun _ e _ => (Cqrs.orderLoop loads db).Decodes e) (Cqrs.orderLoop loads db).lts.init es) ∧
    (∀ (failureRate : ℚ) (es : List (Event ByteArray Unit Cqrs.PaymentReturn)),
      (Cqrs.paymentLoop loads failureRate).GoesOnAlong es ↔ (Cqrs.paymentLoop loads failureRate).lts.Along
        (fun _ e _ => (Cqrs.paymentLoop loads failureRate).Decodes e)
          (Cqrs.paymentLoop loads failureRate).lts.init es) ∧
    ∀ (st : Cqrs.ReadStore) (es : List (Event ByteArray (String × String) Empty)),
      (Cqrs.queryLoop loads st).GoesOnAlong es ↔ (Cqrs.queryLoop loads st).lts.Along
        (fun _ e _ => (Cqrs.queryLoop loads st).Decodes e) (Cqrs.queryLoop loads st).lts.init es := by
  refine ⟨fun env es => ?_, fun db es => ?_, fun failureRate es => ?_, fun st es => ?_⟩
  · exact ConsumerLoop.goesOn_along_iff (Payments.loop_ranked env) (fun _ _ _ h => Payments.harmless_iff env h) es
  · exact ConsumerLoop.goesOn_guarded_iff (ConsumerLoop.ranked_of_isEmpty _ Empty.elim)
      (Cqrs.orderLoop_guarded loads db) es
  · exact ConsumerLoop.goesOn_guarded_iff (Cqrs.paymentLoop_ranked loads failureRate)
      (Cqrs.paymentLoop_guarded loads failureRate) es
  · exact ConsumerLoop.goesOn_guarded_iff (ConsumerLoop.ranked_of_isEmpty _ Empty.elim)
      (Cqrs.queryLoop_guarded loads st) es

/-- One byte that is no UTF-8 text ends each of the loops. -/
theorem notUtf8_ends_loops :
    ¬ (Payments.loop ⟨3, fun _ => none, fun _ => ""⟩).GoesOnAlong [.receive ⟨#[0xFF]⟩ ⟨"", none⟩] ∧
    ¬ (Cqrs.orderLoop (fun _ => none) .empty).GoesOnAlong [.receive ⟨#[0xFF]⟩ ""] ∧
    ¬ (Cqrs.paymentLoop (fun _ => none) 0).GoesOnAlong [.receive ⟨#[0xFF]⟩ ()] ∧
    ¬ (Cqrs.queryLoop (fun _ => none) {}).GoesOnAlong [.receive ⟨#[0xFF]⟩ ("payment.result", "")] := by
  have hdecode : String.fromUTF8? ⟨#[0xFF]⟩ = none := by decide
  have hbytes : Json.ofBytes (fun _ => none) ⟨#[0xFF]⟩ = none := by
    rw [Json.ofBytes, hdecode, Option.bind_none]
  exact ⟨ConsumerLoop.not_goesOn_undecoded hbytes _, ConsumerLoop.not_goesOn_undecoded hbytes _,
    ConsumerLoop.not_goesOn_undecoded hbytes _, ConsumerLoop.not_goesOn_undecoded hbytes _⟩

end KafkaGuide
