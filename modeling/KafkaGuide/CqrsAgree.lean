import Mathlib.Data.List.Induction
import KafkaGuide.CqrsOrder
import KafkaGuide.CqrsQuery
/-!
# CqrsAgree — the write model's status against the read model's

Over the results of one order both services are folds of four event types: `order-service` decides COMPLETED from the
types it has seen, and at `INVENTORY_RESERVED` only; `query-service` from the latest payment and inventory results.
`writeStep` and `readStep` are the two folds, the services refine them (`ordersAfter_refines`, `viewsAfter_refines`),
and the statuses agree exactly on the sequences `Diverges` does not describe (`statuses_agree_iff`).
-/
namespace KafkaGuide
namespace Cqrs

inductive ResultType where
  | paymentCompleted
  | paymentFailed
  | inventoryReserved
  | inventoryFailed
deriving DecidableEq, Repr

namespace ResultType

def value : ResultType → String
  | .paymentCompleted => "PAYMENT_COMPLETED"
  | .paymentFailed => "PAYMENT_FAILED"
  | .inventoryReserved => "INVENTORY_RESERVED"
  | .inventoryFailed => "INVENTORY_FAILED"

def topic : ResultType → String
  | .paymentCompleted | .paymentFailed => "payment.result"
  | .inventoryReserved | .inventoryFailed => "inventory.result"

def isPayment : ResultType → Bool
  | .paymentCompleted | .paymentFailed => true
  | _ => false

theorem value_injective {a b : ResultType} (h : a.value = b.value) : a = b := by
  cases a <;> cases b <;> first | rfl | exact absurd h (by decide)

end ResultType

open ResultType

/-! ## The two folds -/

/-- The write model's fold: the status, and the types seen. -/
def writeStep (p : OrderStatus × List ResultType) (r : ResultType) : OrderStatus × List ResultType :=
  (match r with
    | .paymentCompleted => .paymentCompleted
    | .inventoryReserved => if .paymentCompleted ∈ p.2 then .completed else .inventoryReserved
    | .paymentFailed | .inventoryFailed => .cancelled,
   p.2 ++ [r])

structure Statuses where
  status : ViewStatus := .created
  payment : PaymentStatus := .pending
  inventory : InventoryStatus := .pending
deriving DecidableEq

def readStep (v : Statuses) : ResultType → Statuses
  | .paymentCompleted =>
    { v with payment := .completed, status := if v.inventory = .reserved then .completed else .paymentCompleted }
  | .paymentFailed => { v with payment := .failed, status := .cancelled }
  | .inventoryReserved =>
    { v with inventory := .reserved, status := if v.payment = .completed then .completed else .inventoryReserved }
  | .inventoryFailed => { v with inventory := .failed, status := .cancelled }

def writeFold (rs : List ResultType) : OrderStatus × List ResultType := rs.foldl writeStep (.created, [])

def readFold (rs : List ResultType) : Statuses := rs.foldl readStep {}

def lastPayment (rs : List ResultType) : Option ResultType := (rs.filter isPayment).getLast?

def lastInventory (rs : List ResultType) : Option ResultType := (rs.filter (fun r => !r.isPayment)).getLast?

theorem writeFold_concat (rs : List ResultType) (r : ResultType) :
    writeFold (rs ++ [r]) = writeStep (writeFold rs) r := List.foldl_concat ..

theorem readFold_concat (rs : List ResultType) (r : ResultType) :
    readFold (rs ++ [r]) = readStep (readFold rs) r := List.foldl_concat ..

theorem lastPayment_concat (rs : List ResultType) (r : ResultType) :
    lastPayment (rs ++ [r]) = if r.isPayment then some r else lastPayment rs := by
  unfold lastPayment
  rw [List.filter_append]
  cases h : r.isPayment <;> simp [h]

theorem lastInventory_concat (rs : List ResultType) (r : ResultType) :
    lastInventory (rs ++ [r]) = if r.isPayment then lastInventory rs else some r := by
  unfold lastInventory
  rw [List.filter_append]
  cases h : r.isPayment <;> simp [h]

theorem writeFold_seen (rs : List ResultType) : (writeFold rs).2 = rs := by
  induction rs using List.reverseRecOn with
  | nil => rfl
  | append_singleton rs r ih => rw [writeFold_concat, writeStep.eq_def, ih]

/-- **The read model's payment status is the latest payment result's.** -/
theorem readFold_payment (rs : List ResultType) :
    (readFold rs).payment = .completed ↔ lastPayment rs = some .paymentCompleted := by
  induction rs using List.reverseRecOn with
  | nil => simp [readFold, lastPayment]
  | append_singleton rs r ih =>
    rw [readFold_concat]
    cases r <;> simp [readStep, lastPayment_concat, isPayment, ih]

/-- **Its inventory status is the latest inventory result's.** -/
theorem readFold_inventory (rs : List ResultType) :
    (readFold rs).inventory = .reserved ↔ lastInventory rs = some .inventoryReserved := by
  induction rs using List.reverseRecOn with
  | nil => simp [readFold, lastInventory]
  | append_singleton rs r ih =>
    rw [readFold_concat]
    cases r <;> simp [readStep, lastInventory_concat, isPayment, ih]

/-- The sequences after which the statuses differ: the last event is `PAYMENT_COMPLETED` and the latest inventory result
`INVENTORY_RESERVED`; or the last is `INVENTORY_RESERVED`, a payment has completed, and the latest payment result is
`PAYMENT_FAILED`. -/
def Diverges (rs : List ResultType) : Prop :=
  (rs.getLast? = some .paymentCompleted ∧ lastInventory rs = some .inventoryReserved) ∨
  (rs.getLast? = some .inventoryReserved ∧ .paymentCompleted ∈ rs ∧ lastPayment rs = some .paymentFailed)

instance (rs : List ResultType) : Decidable (Diverges rs) := inferInstanceAs (Decidable (_ ∨ _))

theorem lastPayment_of_mem {rs : List ResultType} (h : .paymentCompleted ∈ rs) :
    lastPayment rs = some .paymentCompleted ∨ lastPayment rs = some .paymentFailed := by
  have hne : rs.filter isPayment ≠ [] := List.ne_nil_of_mem (List.mem_filter.2 ⟨h, rfl⟩)
  have hlast := List.getLast_mem hne
  rw [List.mem_filter] at hlast
  unfold lastPayment
  rw [List.getLast?_eq_some_getLast hne]
  generalize (rs.filter isPayment).getLast hne = r at hlast
  cases r with
  | paymentCompleted => exact .inl rfl
  | paymentFailed => exact .inr rfl
  | inventoryReserved => exact absurd hlast.2 (by decide)
  | inventoryFailed => exact absurd hlast.2 (by decide)

theorem mem_of_lastPayment {rs : List ResultType} {r : ResultType} (h : lastPayment rs = some r) : r ∈ rs :=
  (List.mem_filter.1 (List.mem_of_getLast? h)).1

/-- **The two folds end in one status exactly off `Diverges`.** -/
theorem folds_agree_iff (rs : List ResultType) :
    (writeFold rs).1.value = (readFold rs).status.value ↔ ¬ Diverges rs := by
  rcases List.eq_nil_or_concat rs with rfl | ⟨rs, r, rfl⟩
  · exact iff_of_true rfl (by decide)
  · rw [List.concat_eq_append, writeFold_concat, readFold_concat]
    cases r with
    | paymentCompleted =>
      have hinv : lastInventory (rs ++ [.paymentCompleted]) = lastInventory rs := lastInventory_concat ..
      simp only [writeStep, readStep, readFold_inventory, Diverges, hinv]
      by_cases h : lastInventory rs = some .inventoryReserved <;> simp [h, OrderStatus.value, ViewStatus.value]
    | paymentFailed => simp [writeStep, readStep, Diverges, OrderStatus.value, ViewStatus.value]
    | inventoryReserved =>
      have hpay : lastPayment (rs ++ [.inventoryReserved]) = lastPayment rs := lastPayment_concat ..
      simp only [writeStep, readStep, writeFold_seen, readFold_payment, Diverges, hpay]
      by_cases hm : .paymentCompleted ∈ rs
      · rcases lastPayment_of_mem hm with h | h <;> simp [hm, h, OrderStatus.value, ViewStatus.value]
      · have hn : lastPayment rs ≠ some .paymentCompleted := fun h => hm (mem_of_lastPayment h)
        simp [hm, hn, OrderStatus.value, ViewStatus.value]
    | inventoryFailed => simp [writeStep, readStep, Diverges, OrderStatus.value, ViewStatus.value]

/-! ## The services refine the folds -/

/-- A result event of the order `u`, with the readings of the two services' clocks when they consume it. -/
structure ResultMsg (u : Uuid) where
  kind : ResultType
  event : Json.Members
  orderClock : String
  queryClock : String
  type_eq : Json.get event "event_type" (.str "") = .str kind.value
  order_eq : Json.get event "order_id" (.str "") = .str u.str

variable {u : Uuid}

def ordersAfter (db : OrdersDb) (ms : List (ResultMsg u)) : OrdersDb :=
  ms.foldl (fun db m => consume db (.obj m.event) m.orderClock) db

def viewsAfter (st : ReadStore) (ms : List (ResultMsg u)) : ReadStore :=
  ms.foldl (fun st m => (processEvent st m.event m.kind.topic m.queryClock).1) st

def Order.Holds (order : Order) (p : OrderStatus × List ResultType) : Prop :=
  order.status = p.1 ∧ order.events = p.2.map ResultType.value

theorem applyEvent_holds {order : Order} {p : OrderStatus × List ResultType} (h : order.Holds p) (r : ResultType)
    (now : String) : (applyEvent order (.str r.value) now).Holds (writeStep p r) := by
  obtain ⟨h1, h2⟩ := h
  have hmem : "PAYMENT_COMPLETED" ∈ p.2.map ResultType.value ↔ ResultType.paymentCompleted ∈ p.2 := by
    rw [List.mem_map]
    constructor
    · rintro ⟨a, ha, he⟩
      rwa [← value_injective (b := .paymentCompleted) he]
    · intro ha
      exact ⟨_, ha, rfl⟩
  cases r with
  | paymentCompleted => simp [applyEvent, writeStep, Order.Holds, ResultType.value, h2]
  | paymentFailed => simp [applyEvent, writeStep, Order.Holds, ResultType.value, h2]
  | inventoryReserved => simp [applyEvent, writeStep, Order.Holds, ResultType.value, h2, ← hmem]
  | inventoryFailed => simp [applyEvent, writeStep, Order.Holds, ResultType.value, h2]

/-- **`order-service` refines `writeStep`**, from an order that holds a point of the fold. -/
theorem ordersAfter_refines : ∀ (ms : List (ResultMsg u)) {db : OrdersDb} {order : Order}
    {p : OrderStatus × List ResultType}, db.get? u.str = some order → order.Holds p →
    ∃ order', (ordersAfter db ms).get? u.str = some order' ∧
      order'.Holds ((ms.map ResultMsg.kind).foldl writeStep p)
  | [], _, order, _, hdb, ho => ⟨order, hdb, ho⟩
  | m :: ms, db, order, p, hdb, ho => by
    rw [ordersAfter, List.foldl_cons, consume_of_get m.order_eq hdb, m.type_eq]
    exact ordersAfter_refines ms (Dict.get?_set_self ..) (applyEvent_holds ho m.kind m.orderClock)

def View.statuses (view : View) : Statuses := ⟨view.status, view.paymentStatus, view.inventoryStatus⟩

theorem updateOf_result (event : Json.Members) (r : ResultType) : ∃ f, updateOf event (.str r.value) = some f ∧
    ∀ view eventType timestamp, ((f view).stamp eventType timestamp).statuses = readStep view.statuses r := by
  cases r with
  | paymentCompleted => exact ⟨onPaymentCompleted event, by simp [updateOf, ResultType.value], fun _ _ _ => rfl⟩
  | paymentFailed => exact ⟨onPaymentFailed event, by simp [updateOf, ResultType.value], fun _ _ _ => rfl⟩
  | inventoryReserved => exact ⟨onInventoryReserved event, by simp [updateOf, ResultType.value], fun _ _ _ => rfl⟩
  | inventoryFailed => exact ⟨onInventoryFailed event, by simp [updateOf, ResultType.value], fun _ _ _ => rfl⟩

theorem ResultType.value_ne_created (r : ResultType) : r.value ≠ "ORDER_CREATED" := by
  cases r <;> decide

/-- **`query-service` refines `readStep`**, from any view of the order. -/
theorem viewsAfter_refines : ∀ (ms : List (ResultMsg u)) {st : ReadStore} {view : View},
    st.ordersReadModel.get? (.str u.str) = some view →
    ∃ view', (viewsAfter st ms).ordersReadModel.get? (.str u.str) = some view' ∧
      view'.statuses = (ms.map ResultMsg.kind).foldl readStep view.statuses
  | [], _, view, hst => ⟨view, hst, rfl⟩
  | m :: ms, st, view, hst => by
    obtain ⟨f, hf, hstat⟩ := updateOf_result m.event m.kind
    have hstep := processEvent_update m.kind.topic m.queryClock u.str_ne_empty m.order_eq m.type_eq
      m.kind.value_ne_created hf hst
    rw [List.map_cons, List.foldl_cons, ← hstat view (.str m.kind.value)]
    exact viewsAfter_refines ms (by rw [hstep, Dict.get?_set_self])

/-! ## Agreement -/

section Agreement

variable (db : OrdersDb) (st : ReadStore) (request : CreateOrderRequest) (createdAt receivedAt : String)

/-- `order-service` after `create_order` and then the messages. -/
def orderSide (u : Uuid) (ms : List (ResultMsg u)) : OrdersDb :=
  ordersAfter (createOrder db u request createdAt).1 ms

/-- `query-service` after the `ORDER_CREATED` of that `create_order` and then the messages. -/
def querySide (u : Uuid) (ms : List (ResultMsg u)) : ReadStore :=
  viewsAfter (processEvent st (createOrder db u request createdAt).2 "order.created" receivedAt).1 ms

theorem createOrder_viewed (u : Uuid) :
    (processEvent st (createOrder db u request createdAt).2 "order.created" receivedAt).1.ordersReadModel.get?
      (.str u.str) = some (newView (createOrder db u request createdAt).2 (.str "ORDER_CREATED") (.str u.str)
        (Json.get (createOrder db u request createdAt).2 "timestamp" (.str receivedAt))) := by
  have hid : Json.get (createOrder db u request createdAt).2 "order_id" (.str "") = .str u.str := by
    simp [createOrder, Json.get, Dict.find]
  have htype : Json.get (createOrder db u request createdAt).2 "event_type" (.str "") = .str "ORDER_CREATED" := by
    simp [createOrder, Json.get, Dict.find]
  rw [processEvent_created u.str_ne_empty hid htype, Dict.get?_set_self]

theorem createOrder_holds (u : Uuid) (ms : List (ResultMsg u)) :
    ∃ order, (orderSide db request createdAt u ms).get? u.str = some order ∧
      order.Holds (writeFold (ms.map ResultMsg.kind)) :=
  ordersAfter_refines ms (Dict.get?_set_self ..) ⟨rfl, rfl⟩

/-- **Both services hold the order**, with the statuses the two folds give it. -/
theorem sides_hold (u : Uuid) (ms : List (ResultMsg u)) :
    ∃ order view, (orderSide db request createdAt u ms).get? u.str = some order ∧
      (querySide db st request createdAt receivedAt u ms).ordersReadModel.get? (.str u.str) = some view ∧
      order.status = (writeFold (ms.map ResultMsg.kind)).1 ∧
      view.status = (readFold (ms.map ResultMsg.kind)).status := by
  have hcreated := createOrder_viewed db st request createdAt receivedAt u
  obtain ⟨order, ho, hholds⟩ := createOrder_holds db request createdAt u ms
  obtain ⟨view, hv, hstat⟩ := viewsAfter_refines ms hcreated
  exact ⟨order, view, ho, hv, hholds.1, congrArg Statuses.status hstat⟩

/-- The two services give the order one status. -/
def StatusesAgree (u : Uuid) (ms : List (ResultMsg u)) : Prop :=
  ∃ order view, (orderSide db request createdAt u ms).get? u.str = some order ∧
    (querySide db st request createdAt receivedAt u ms).ordersReadModel.get? (.str u.str) = some view ∧
    order.status.value = view.status.value

theorem statusesAgree_folds (u : Uuid) (ms : List (ResultMsg u)) :
    StatusesAgree db st request createdAt receivedAt u ms ↔
      (writeFold (ms.map ResultMsg.kind)).1.value = (readFold (ms.map ResultMsg.kind)).status.value := by
  obtain ⟨order, view, ho, hv, hw, hr⟩ := sides_hold db st request createdAt receivedAt u ms
  rw [← hw, ← hr]
  constructor
  · rintro ⟨order', view', ho', hv', he⟩
    rw [ho] at ho'
    rw [hv] at hv'
    cases ho'
    cases hv'
    exact he
  · intro he
    exact ⟨order, view, ho, hv, he⟩

/-- **The services agree on an order exactly when the sequence of its results does not diverge.** -/
theorem statuses_agree_iff (u : Uuid) (ms : List (ResultMsg u)) :
    StatusesAgree db st request createdAt receivedAt u ms ↔ ¬ Diverges (ms.map ResultMsg.kind) := by
  rw [statusesAgree_folds, folds_agree_iff]

end Agreement

/-- An order id, and the two results of a happy order that arrive stock first. -/
def sampleId : Uuid := ⟨"6f1c2d3e-4a5b-4c6d-8e7f-0a1b2c3d4e5f", by decide⟩

def reservedMsg : ResultMsg sampleId where
  kind := .inventoryReserved
  event := [("event_type", .str "INVENTORY_RESERVED"), ("order_id", .str sampleId.str), ("items", .arr []),
    ("warehouse_id", .str "WH-001"), ("timestamp", .str "2024-01-01T00:00:01")]
  orderClock := "2024-01-01T00:00:02"
  queryClock := "2024-01-01T00:00:02"
  type_eq := by simp [Json.get, Dict.find, ResultType.value]
  order_eq := by simp [Json.get, Dict.find]

def paidMsg : ResultMsg sampleId where
  kind := .paymentCompleted
  event := [("event_type", .str "PAYMENT_COMPLETED"), ("order_id", .str sampleId.str), ("amount", .num 10),
    ("payment_method", .str "credit_card"), ("transaction_id", .str "0a1b2c3d"),
    ("timestamp", .str "2024-01-01T00:00:03")]
  orderClock := "2024-01-01T00:00:04"
  queryClock := "2024-01-01T00:00:04"
  type_eq := by simp [Json.get, Dict.find, ResultType.value]
  order_eq := by simp [Json.get, Dict.find]

/-- Stock reserved, then payment completed: `order-service` is left at PAYMENT_COMPLETED, the view is COMPLETED. -/
theorem reserved_then_paid_disagree : ¬ StatusesAgree .empty {}
    { userId := "user-001", items := [⟨"PROD-002", "키보드", 1, 10⟩] } "2024-01-01T00:00:00" "2024-01-01T00:00:00"
    sampleId [reservedMsg, paidMsg] := by
  rw [statusesAgree_folds]
  decide

end Cqrs
end KafkaGuide
