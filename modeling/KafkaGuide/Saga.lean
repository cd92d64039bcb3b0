import Mathlib.Algebra.Order.Ring.Rat
import KafkaGuide.Lib.Dict
import KafkaGuide.Lib.Json
/-!
# Saga — the handlers of the three saga services (`09-saga-pattern-order-system`)

What `order-service`, `payment-service` and `inventory-service` do with one request or one message: the record each
writes and the event it publishes.  An event is a dict whose optional keys are `Option` fields, so that the `.get`
defaults of the next service apply to what the previous one left out.  Prices are exact numbers, and their text in the
one reason that names an amount is a parameter; clock readings are left out, no handler reads one.
-/
namespace KafkaGuide
namespace Saga

inductive Topic where
  | orderCreated
  | paymentResult
  | inventoryResult
  | refundRequest
  | refundResult
deriving DecidableEq, Repr

def Topic.name : Topic → String
  | .orderCreated => "order.created"
  | .paymentResult => "payment.result"
  | .inventoryResult => "inventory.result"
  | .refundRequest => "payment.refund-request"
  | .refundResult => "payment.refund-result"

inductive EventType where
  | orderCreated
  | paymentCompleted
  | paymentFailed
  | inventoryReserved
  | inventoryFailed
  | refundRequested
  | refundCompleted
  | refundFailed
deriving DecidableEq, Repr

structure Item where
  productId : String
  productName : String
  quantity : Int
  price : ℚ
deriving DecidableEq

structure Event where
  eventType : EventType
  orderId : Uuid
  userId : Option String := none
  items : Option (List Item) := none
  totalPrice : Option ℚ := none
  amount : Option ℚ := none
  reason : Option String := none
deriving DecidableEq

/-! ## order-service (`models.py`, `main.py`, `consumer.py`) -/

inductive OrderStatus where
  | created
  | paymentProcessing
  | paymentFailed
  | inventoryProcessing
  | completed
  | failed
  | compensating
  | compensated
  | compensationFailed
deriving DecidableEq, Repr

structure HistoryEntry where
  status : OrderStatus
  reason : Option String := none
deriving DecidableEq

structure Order where
  orderId : Uuid
  userId : String
  items : List Item
  totalPrice : ℚ
  status : OrderStatus := .created
  statusHistory : List HistoryEntry := [{ status := .created }]
deriving DecidableEq

abbrev OrdersDb := Dict Uuid Order

def createOrder (db : OrdersDb) (orderId : Uuid) (userId : String) (items : List Item) (totalPrice : ℚ) : OrdersDb :=
  db.set orderId { orderId, userId, items, totalPrice }

/-- `update_order_status`: no guard on the status the order has. -/
def updateOrderStatus (db : OrdersDb) (orderId : Uuid) (status : OrderStatus) (reason : String := "") : OrdersDb :=
  match db.get? orderId with
  | none => db
  | some order => db.set orderId
      { order with
        status
        statusHistory := order.statusHistory ++ [{ status, reason := if reason = "" then none else some reason }] }

def totalPrice (items : List Item) : ℚ := (items.map (fun item => item.price * (item.quantity : ℚ))).sum

/-- `create_new_order` up to its `await publish_order_created`. -/
def createNewOrder (db : OrdersDb) (orderId : Uuid) (userId : String) (items : List Item) : OrdersDb × Event :=
  (createOrder db orderId userId items (totalPrice items),
    { eventType := .orderCreated, orderId, userId := some userId, items := some items,
      totalPrice := some (totalPrice items) })

/-- `process_message`: the orders after it, and the event it publishes last, if any.  `format` is the text an f-string
has of a price. -/
def processMessage (format : ℚ → String) (db : OrdersDb) (topic : Topic) (event : Event) : OrdersDb × Option Event :=
  match topic, event.eventType with
  | .paymentResult, .paymentCompleted => (updateOrderStatus db event.orderId .inventoryProcessing, none)
  | .paymentResult, .paymentFailed =>
    (updateOrderStatus db event.orderId .paymentFailed (event.reason.getD "결제 실패"), none)
  | .inventoryResult, .inventoryReserved => (updateOrderStatus db event.orderId .completed, none)
  | .inventoryResult, .inventoryFailed =>
    let reason := event.reason.getD "재고 부족"
    let db' := updateOrderStatus db event.orderId .compensating reason
    match db'.get? event.orderId with
    | some order => (db', some
        { eventType := .refundRequested, orderId := event.orderId, amount := some order.totalPrice,
          reason := some ("재고 부족으로 인한 환불: " ++ reason) })
    | none => (updateOrderStatus db' event.orderId .compensationFailed "주문 정보 조회 실패", none)
  | .refundResult, .refundCompleted =>
    (updateOrderStatus db event.orderId .compensated
      ("환불 완료 (금액: " ++ event.amount.elim "0" format ++ ")"), none)
  | .refundResult, .refundFailed =>
    (updateOrderStatus db event.orderId .compensationFailed (event.reason.getD "환불 처리 실패"), none)
  | _, _ => (db, none)

/-! ## payment-service (`consumer.py`) -/

inductive RecordStatus where
  | completed
  | failed
deriving DecidableEq, Repr

structure PaymentRecord where
  orderId : Uuid
  userId : String
  amount : ℚ
  status : RecordStatus
  reason : Option String := none
deriving DecidableEq

/-- `process_order_created` after its `asyncio.sleep(1)`: `isSuccess` is the draw against `PAYMENT_SUCCESS_RATE`. -/
def processOrderCreated (event : Event) (isSuccess : Bool) : PaymentRecord × Event :=
  let amount := event.totalPrice.getD 0
  let userId := event.userId.getD "unknown"
  if isSuccess then
    ({ orderId := event.orderId, userId, amount, status := .completed },
      { eventType := .paymentCompleted, orderId := event.orderId, amount := some amount })
  else
    let reason := "잔액 부족으로 결제가 거부되었습니다"
    ({ orderId := event.orderId, userId, amount, status := .failed, reason := some reason },
      { eventType := .paymentFailed, orderId := event.orderId, reason := some reason })

structure RefundRecord where
  orderId : Uuid
  amount : ℚ
  status : RecordStatus
  reason : String
deriving DecidableEq

/-- `process_refund_request` after its `asyncio.sleep(1)`. -/
def processRefundRequest (event : Event) (isSuccess : Bool) : RefundRecord × Event :=
  let amount := event.amount.getD 0
  if isSuccess then
    ({ orderId := event.orderId, amount, status := .completed, reason := event.reason.getD "" },
      { eventType := .refundCompleted, orderId := event.orderId, amount := some amount })
  else
    let failReason := "환불 처리 중 오류가 발생했습니다"
    ({ orderId := event.orderId, amount, status := .failed, reason := failReason },
      { eventType := .refundFailed, orderId := event.orderId, reason := some failReason })

/-! ## inventory-service (`consumer.py`) -/

inductive StockStatus where
  | reserved
  | failed
deriving DecidableEq, Repr

structure InventoryRecord where
  orderId : Uuid
  status : StockStatus
  reason : Option String := none
deriving DecidableEq

/-- `process_payment_result` after its `asyncio.sleep(1)`, which only a PAYMENT_COMPLETED reaches. -/
def processPaymentResult (event : Event) (isSuccess : Bool) : InventoryRecord × Event :=
  if isSuccess then
    ({ orderId := event.orderId, status := .reserved },
      { eventType := .inventoryReserved, orderId := event.orderId, items := some (event.items.getD []) })
  else
    let reason := "요청한 상품의 재고가 부족합니다"
    ({ orderId := event.orderId, status := .failed, reason := some reason },
      { eventType := .inventoryFailed, orderId := event.orderId, reason := some reason })

end Saga
end KafkaGuide
