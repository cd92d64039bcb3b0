import Mathlib.Algebra.Order.Ring.Rat
import KafkaGuide.Lib.Json
/-!
# CqrsOrder — the write model (`11-multi-service-architecture/order-service/app`)

`create_order` stores an order and publishes its `ORDER_CREATED`; the consumer's loop body moves the order's status at
each result event.  The loop catches every exception of a message's handling, so an event that raises leaves the store
as it was.
-/
namespace KafkaGuide
namespace Cqrs

inductive OrderStatus where
  | created
  | paymentCompleted
  | paymentFailed
  | inventoryReserved
  | inventoryFailed
  | completed
  | cancelled
deriving DecidableEq, Repr

def OrderStatus.value : OrderStatus → String
  | .created => "CREATED"
  | .paymentCompleted => "PAYMENT_COMPLETED"
  | .paymentFailed => "PAYMENT_FAILED"
  | .inventoryReserved => "INVENTORY_RESERVED"
  | .inventoryFailed => "INVENTORY_FAILED"
  | .completed => "COMPLETED"
  | .cancelled => "CANCELLED"

structure OrderItem where
  productId : String
  productName : String
  quantity : Int
  price : ℚ

def OrderItem.dump (i : OrderItem) : Json :=
  .obj [("product_id", .str i.productId), ("product_name", .str i.productName), ("quantity", .num i.quantity),
    ("price", .num i.price)]

structure CreateOrderRequest where
  userId : String
  items : List OrderItem
  shippingAddress : Option String := none

structure Order where
  orderId : String
  userId : String
  items : List OrderItem
  totalPrice : ℚ
  status : OrderStatus := .created
  shippingAddress : Option String := none
  createdAt : String
  updatedAt : String
  events : List String := []

abbrev OrdersDb := Dict String Order

/-- `sum(item.price * item.quantity for item in request.items)`. -/
def totalPrice (items : List OrderItem) : ℚ := (items.map (fun i => i.price * (i.quantity : ℚ))).sum

/-- `create_order`, `uuid.uuid4()` and the clock given: the store with the new order, and the event it publishes. -/
def createOrder (db : OrdersDb) (orderId : Uuid) (request : CreateOrderRequest) (now : String) :
    OrdersDb × Json.Members :=
  let order : Order :=
    { orderId := orderId.str
      userId := request.userId
      items := request.items
      totalPrice := totalPrice request.items
      shippingAddress := request.shippingAddress
      createdAt := now
      updatedAt := now }
  (db.set orderId.str order,
    [("event_type", .str "ORDER_CREATED"),
     ("order_id", .str orderId.str),
     ("user_id", .str request.userId),
     ("items", .arr (request.items.map OrderItem.dump)),
     ("total_price", .num (totalPrice request.items)),
     ("shipping_address", (request.shippingAddress.map Json.str).getD .null),
     ("timestamp", .str order.createdAt)])

/-- The `if` chain over `event_type`, and the stamp after it. -/
def applyEvent (order : Order) (eventType : Json) (now : String) : Order :=
  let order :=
    if eventType.isStr "PAYMENT_COMPLETED" then
      { order with status := .paymentCompleted, events := order.events ++ ["PAYMENT_COMPLETED"] }
    else if eventType.isStr "PAYMENT_FAILED" then
      { order with status := .cancelled, events := order.events ++ ["PAYMENT_FAILED"] }
    else if eventType.isStr "INVENTORY_RESERVED" then
      let events := order.events ++ ["INVENTORY_RESERVED"]
      { order with
        status := if "PAYMENT_COMPLETED" ∈ events then .completed else .inventoryReserved
        events := events }
    else if eventType.isStr "INVENTORY_FAILED" then
      { order with status := .cancelled, events := order.events ++ ["INVENTORY_FAILED"] }
    else order
  { order with updatedAt := now }

/-- The body of `start_consumer`'s loop for one message.  A value that is no object has no `get`, and an unhashable
`order_id` no `in`: both raise inside the `try`; the keys of `orders_db` are strings. -/
def consume (db : OrdersDb) (value : Json) (now : String) : OrdersDb :=
  match value with
  | .obj event =>
    match (Json.get event "order_id" (.str "")).key? with
    | some (.str orderId) =>
      match db.get? orderId with
      | some order => db.set orderId (applyEvent order (Json.get event "event_type" (.str "")) now)
      | none => db
    | _ => db
  | _ => db

theorem consume_of_get {db : OrdersDb} {event : Json.Members} {o : String} {order : Order} {now : String}
    (ho : Json.get event "order_id" (.str "") = .str o) (hdb : db.get? o = some order) :
    consume db (.obj event) now = db.set o (applyEvent order (Json.get event "event_type" (.str "")) now) := by
  simp [consume, ho, hdb]

end Cqrs
end KafkaGuide
