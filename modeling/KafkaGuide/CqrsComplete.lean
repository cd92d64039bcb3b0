import KafkaGuide.CqrsAgree
/-!
# CqrsComplete — when an order is COMPLETED and when it is CANCELLED

What `order-service` consumes after `create_order` is any sequence of values: results of the order, of other orders,
anything else.  Only the order's own results count (`consumedAfter_refines`), and its status is the one they call for
exactly when the last of them is the one to decide it (`completion_law_iff`).
-/
namespace KafkaGuide
namespace Cqrs

/-- The result type an `event_type` names. -/
def ResultType.ofJson (eventType : Json) : Option ResultType :=
  [.paymentCompleted, .paymentFailed, .inventoryReserved, .inventoryFailed].find? (fun r => eventType.isStr r.value)

/-- The result a consumed value reports about the order `u`, if it does. -/
def resultOf (u : Uuid) : Json → Option ResultType
  | .obj event =>
    if (Json.get event "order_id" (.str "")).isStr u.str then
      ResultType.ofJson (Json.get event "event_type" (.str ""))
    else none
  | _ => none

/-- The results of an order among the consumed values, each with the clock reading of its handling. -/
def resultsOf (u : Uuid) (vs : List (Json × String)) : List ResultType := vs.filterMap (fun v => resultOf u v.1)

/-- `start_consumer`'s loop over the values it is given. -/
def consumedAfter (db : OrdersDb) (vs : List (Json × String)) : OrdersDb :=
  vs.foldl (fun db v => consume db v.1 v.2) db

theorem ResultType.ofJson_eq_some {eventType : Json} {r : ResultType} (h : ResultType.ofJson eventType = some r) :
    eventType = .str r.value :=
  Json.isStr_iff.1 (List.find?_some (p := fun r : ResultType => eventType.isStr r.value) h)

/-- A value that names no result type passes no comparison with one. -/
theorem ResultType.isStr_of_ofJson_none {eventType : Json} (h : ResultType.ofJson eventType = none) (r : ResultType) :
    eventType.isStr r.value = false := by
  have hmem := List.find?_eq_none.1 h r (by cases r <;> simp)
  simpa using hmem

/-- An event of another type only stamps the order. -/
theorem applyEvent_other {order : Order} {eventType : Json} {p : OrderStatus × List ResultType}
    (h : ResultType.ofJson eventType = none) (ho : order.Holds p) (now : String) :
    (applyEvent order eventType now).Holds p := by
  have h1 := ResultType.isStr_of_ofJson_none h .paymentCompleted
  have h2 := ResultType.isStr_of_ofJson_none h .paymentFailed
  have h3 := ResultType.isStr_of_ofJson_none h .inventoryReserved
  have h4 := ResultType.isStr_of_ofJson_none h .inventoryFailed
  unfold applyEvent
  simp only [ResultType.value] at h1 h2 h3 h4
  rw [if_neg (by simp [h1]), if_neg (by simp [h2]), if_neg (by simp [h3]), if_neg (by simp [h4])]
  exact ho

variable {u : Uuid}

/-- **One consumed value**: the order moves by the result the value reports about it, and stays as it was without
one. -/
theorem consume_holds {db : OrdersDb} {order : Order} {p : OrderStatus × List ResultType}
    (hdb : db.get? u.str = some order) (ho : order.Holds p) (value : Json) (now : String) :
    ∃ order', (consume db value now).get? u.str = some order' ∧
      order'.Holds (((resultOf u value).toList).foldl writeStep p) := by
  cases value with
  | obj event =>
    by_cases hid : Json.get event "order_id" (.str "") = .str u.str
    · rw [consume_of_get hid hdb, Dict.get?_set_self]
      refine ⟨_, rfl, ?_⟩
      simp only [resultOf, hid, Json.isStr_str, decide_true, if_true]
      cases htype : ResultType.ofJson (Json.get event "event_type" (.str "")) with
      | none => exact applyEvent_other htype ho now
      | some r =>
        rw [ResultType.ofJson_eq_some htype]
        exact applyEvent_holds ho r now
    · have hnone : resultOf u (.obj event) = none := if_neg fun h => hid (Json.isStr_iff.1 h)
      rw [hnone]
      refine ⟨order, ?_, ho⟩
      unfold consume
      dsimp only
      split
      · rename_i o hkey
        split
        · rw [Dict.get?_set_ne, hdb]
          rintro rfl
          refine hid ?_
          cases hv : Json.get event "order_id" (.str "") <;> rw [hv] at hkey <;> simp_all [Json.key?]
        · exact hdb
      · exact hdb
  | _ => exact ⟨order, hdb, ho⟩

/-- **`order-service` refines `writeStep`** over whatever it consumes. -/
theorem consumedAfter_refines : ∀ (vs : List (Json × String)) {db : OrdersDb} {order : Order}
    {p : OrderStatus × List ResultType}, db.get? u.str = some order → order.Holds p →
    ∃ order', (consumedAfter db vs).get? u.str = some order' ∧ order'.Holds ((resultsOf u vs).foldl writeStep p)
  | [], _, order, _, hdb, ho => ⟨order, hdb, ho⟩
  | (value, now) :: vs, db, order, p, hdb, ho => by
    obtain ⟨order', hdb', ho'⟩ := consume_holds hdb ho value now
    obtain ⟨order'', hdb'', ho''⟩ := consumedAfter_refines vs hdb' ho'
    refine ⟨order'', hdb'', ?_⟩
    rw [← List.foldl_append] at ho''
    have hresults : resultsOf u ((value, now) :: vs) = (resultOf u value).toList ++ resultsOf u vs := by
      unfold resultsOf
      rw [List.filterMap_cons]
      cases resultOf u value <;> rfl
    rw [hresults]
    exact ho''

/-! ## The law -/

/-- A payment or an inventory result has failed. -/
def Failed (rs : List ResultType) : Prop := .paymentFailed ∈ rs ∨ .inventoryFailed ∈ rs

/-- **The status the results call for**: COMPLETED exactly when both have succeeded and none has failed, CANCELLED
exactly when one has failed. -/
def CompletionLaw (status : OrderStatus) (rs : List ResultType) : Prop :=
  (status = .completed ↔ .paymentCompleted ∈ rs ∧ .inventoryReserved ∈ rs ∧ ¬ Failed rs) ∧
  (status = .cancelled ↔ Failed rs)

/-- The last result is the one to decide: it is a failure if any result is, and a payment does not complete after the
inventory was reserved. -/
def LastDecides (rs : List ResultType) : Prop :=
  (Failed rs → rs.getLast? = some .paymentFailed ∨ rs.getLast? = some .inventoryFailed) ∧
  ¬ (rs.getLast? = some .paymentCompleted ∧ .inventoryReserved ∈ rs)

instance (rs : List ResultType) : Decidable (Failed rs) := inferInstanceAs (Decidable (_ ∨ _))

instance (status : OrderStatus) (rs : List ResultType) : Decidable (CompletionLaw status rs) :=
  inferInstanceAs (Decidable (_ ∧ _))

instance (rs : List ResultType) : Decidable (LastDecides rs) := inferInstanceAs (Decidable (_ ∧ _))

/-- **The fold ends in the status its results call for exactly when the last of them decides.** -/
theorem writeFold_law_iff (rs : List ResultType) : CompletionLaw (writeFold rs).1 rs ↔ LastDecides rs := by
  rcases List.eq_nil_or_concat rs with rfl | ⟨rs, r, rfl⟩
  · decide
  · rw [List.concat_eq_append, writeFold_concat]
    unfold CompletionLaw LastDecides
    rw [List.getLast?_concat]
    cases r with
    | paymentCompleted =>
      by_cases hf : Failed (rs ++ [.paymentCompleted])
      · simp [writeStep, hf]
      · have hmem : ResultType.inventoryReserved ∈ rs ++ [.paymentCompleted] ↔ .inventoryReserved ∈ rs := by simp
        simp [writeStep, hf, hmem]
    | paymentFailed =>
      have hf : Failed (rs ++ [.paymentFailed]) := .inl (by simp)
      simp [writeStep, hf]
    | inventoryReserved =>
      by_cases hf : Failed (rs ++ [.inventoryReserved])
      · simp only [writeStep, writeFold_seen, hf, not_true_eq_false, and_false, iff_false, iff_true]
        constructor
        · rintro ⟨-, hcancelled⟩
          split at hcancelled <;> cases hcancelled
        · rintro ⟨hlast, -⟩
          rcases hlast trivial with h | h <;> cases h
      · have hmem : ResultType.paymentCompleted ∈ rs ++ [.inventoryReserved] ↔ .paymentCompleted ∈ rs := by simp
        by_cases hm : .paymentCompleted ∈ rs <;> simp [writeStep, writeFold_seen, hf, hmem, hm]
    | inventoryFailed =>
      have hf : Failed (rs ++ [.inventoryFailed]) := .inr (by simp)
      simp [writeStep, hf]

section Completion

variable (db : OrdersDb) (request : CreateOrderRequest) (createdAt : String)

/-- `order-service` after `create_order` and what it consumes then. -/
def ordersConsumed (u : Uuid) (vs : List (Json × String)) : OrdersDb :=
  consumedAfter (createOrder db u request createdAt).1 vs

/-- The order is stored, with the status its consumed results call for. -/
def Lawful (u : Uuid) (vs : List (Json × String)) : Prop :=
  ∃ order, (ordersConsumed db request createdAt u vs).get? u.str = some order ∧
    CompletionLaw order.status (resultsOf u vs)

theorem ordersConsumed_holds (u : Uuid) (vs : List (Json × String)) :
    ∃ order, (ordersConsumed db request createdAt u vs).get? u.str = some order ∧
      order.Holds (writeFold (resultsOf u vs)) :=
  consumedAfter_refines vs (Dict.get?_set_self ..) ⟨rfl, rfl⟩

/-- **An order has the status its results call for exactly when the last of them decides**, whatever else is consumed
in between. -/
theorem completion_law_iff (u : Uuid) (vs : List (Json × String)) :
    Lawful db request createdAt u vs ↔ LastDecides (resultsOf u vs) := by
  obtain ⟨order, hget, hholds⟩ := ordersConsumed_holds db request createdAt u vs
  rw [← writeFold_law_iff, ← hholds.1]
  constructor
  · rintro ⟨order', hget', hlaw⟩
    rw [hget] at hget'
    cases hget'
    exact hlaw
  · exact fun hlaw => ⟨order, hget, hlaw⟩

end Completion

def reservedOrder : Uuid := ⟨"c2a6f1de-5b0f-4c53-9b8e-1d2f6a7b8c90", by decide⟩

/-- INVENTORY_RESERVED, then PAYMENT_COMPLETED. -/
def reservedFirst : List (Json × String) :=
  [(.obj [("event_type", .str "INVENTORY_RESERVED"), ("order_id", .str reservedOrder.str)], "2025-01-01T00:00:01"),
    (.obj [("event_type", .str "PAYMENT_COMPLETED"), ("order_id", .str reservedOrder.str)], "2025-01-01T00:00:02")]

/-- Both results of the order have succeeded, and it is not COMPLETED. -/
theorem reservedFirst_not_lawful :
    ¬ Lawful .empty { userId := "user-001", items := [] } "2025-01-01T00:00:00" reservedOrder reservedFirst := by
  have hresults : resultsOf reservedOrder reservedFirst = [.inventoryReserved, .paymentCompleted] := by decide
  obtain ⟨order, hget, hholds⟩ := ordersConsumed_holds .empty { userId := "user-001", items := [] }
    "2025-01-01T00:00:00" reservedOrder reservedFirst
  rw [hresults] at hholds
  rintro ⟨order', hget', hlaw⟩
  rw [hget] at hget'
  cases hget'
  rw [hresults, hholds.1] at hlaw
  exact absurd hlaw (by decide)

end Cqrs
end KafkaGuide
