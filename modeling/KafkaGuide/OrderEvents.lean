import KafkaGuide.Consumer
import KafkaGuide.OrderMoney
import KafkaGuide.Relay
/-!
# OrderEvents — the whole of `12-outbox-pattern`

`create_order` transactions over `orders` and `outbox` (`app/main.py`), the relays over `outbox` and the log, and the
processes of the consumer group over the partitions of `order.events`.  The two INSERTs of a transaction are two steps:
it may be rolled back before, between and after them, and commits at the end of its block only.
-/
namespace KafkaGuide
namespace OrderEvents

/-- What `create_order` has before its transaction: the `order_id` it drew, and the values of the request as
`_to_jsonable` leaves them. -/
structure NewOrder where
  orderId : Uuid
  userId : String
  items : Json
  totalPrice : String

/-- A row of `orders` and its transaction. -/
structure OrderRow where
  order : NewOrder
  txn : Nat

/-- The event `create_order` enqueues, `uuid4` being the event id drawn for it. -/
def orderCreated (order : NewOrder) (uuid4 : Uuid) : Outbox.OutboxEvent :=
  Outbox.enqueueEvent "Order" order.orderId.str "OrderCreated" "order.events"
    [("order_id", .str order.orderId.str), ("user_id", .str order.userId), ("items", order.items),
      ("total_price", .str order.totalPrice)]
    (some [("schema_version", .str "1")]) none uuid4

def NewOrder.ofRequest (orderId : Uuid) (request : Outbox.CreateOrderRequest) (total : Decimal) : NewOrder :=
  { orderId, userId := request.userId, items := Outbox.itemsPayload request.items, totalPrice := total.toText }

/-- **A transaction of POST /orders enqueues this event**, of the order its request is for. -/
theorem createOrder_event {accepts : Outbox.OrderRow → Outbox.OutboxEvent → Bool} {orderId eventId : Uuid}
    {request : Outbox.CreateOrderRequest} {c : Outbox.Committed}
    (h : Outbox.createOrder accepts orderId eventId request = some c) :
    ∃ total, Outbox.totalPrice request.items = some total ∧
      c.order.orderId = orderId ∧ c.order.userId = request.userId ∧ c.order.items = Outbox.itemsPayload request.items ∧
      c.event = orderCreated (.ofRequest orderId request total) eventId := by
  obtain ⟨total, htotal, h⟩ := Option.bind_eq_some_iff.1 h
  obtain ⟨persisted, -, h⟩ := Option.bind_eq_some_iff.1 h
  dsimp only at h
  split at h
  · cases h
    exact ⟨total, htotal, rfl, rfl, rfl, rfl⟩
  · cases h

/-- How far a transaction of `create_order` has got. -/
inductive Creation where
  | begun
  | added (order : NewOrder)
  | enqueued

structure Config where
  relay : Outbox.Config
  part : String → Nat
  parse : String → Option Uuid

structure Sys where
  db : Outbox.Sys := {}
  orders : List OrderRow := []
  creations : Nat → Creation := fun _ => .begun
  group : Consumer.Group := {}
  consumers : Nat → Option Consumer.Process := fun _ => none

inductive Action where
  | addOrder (txn : Nat) (order : NewOrder)
  | enqueue (txn : Nat) (uuid4 : Uuid)
  | db (a : Outbox.Action)
  | consumer (c : Nat) (a : Consumer.Action)

def Sys.insertOrder (s : Sys) (row : OrderRow) : Sys := { s with orders := s.orders ++ [row] }

def Sys.setCreation (s : Sys) (txn : Nat) (creation : Creation) : Sys :=
  { s with creations := fun txn' => if txn' = txn then creation else s.creations txn' }

/-- `order_id` is the primary key: taken by every row but those of a transaction that rolled back. -/
def Sys.hasOrderId (s : Sys) (orderId : Uuid) : Bool :=
  s.orders.any (fun row => decide (row.order.orderId = orderId ∧ s.db.txns row.txn ≠ .rolledBack))

/-- Only `create_order` enqueues, and its block commits after both INSERTs. -/
def Sys.allows (s : Sys) : Outbox.Action → Bool
  | .enqueue _ _ => false
  | .commit txn => match s.creations txn with
    | .enqueued => true
    | _ => false
  | _ => true

variable (cfg : Config)

/-- The partitions of `order.events`. -/
def Sys.partitions (s : Sys) (p : Nat) : List Outbox.Record := Outbox.partitionLog cfg.part s.db.log "order.events" p

def step (s : Sys) : Action → Option Sys
  | .addOrder txn order =>
    match s.creations txn with
    | .begun =>
      if s.db.txns txn = .active ∧ s.hasOrderId order.orderId = false then
        some ((s.insertOrder ⟨order, txn⟩).setCreation txn (.added order))
      else none
    | _ => none
  | .enqueue txn uuid4 =>
    match s.creations txn with
    | .added order =>
      (Outbox.step cfg.relay s.db (.enqueue txn (orderCreated order uuid4))).map
        (fun db => { s with db }.setCreation txn .enqueued)
    | _ => none
  | .db a => if s.allows a then (Outbox.step cfg.relay s.db a).map (fun db => { s with db }) else none
  | .consumer c a =>
    (Consumer.step cfg.parse (s.partitions cfg) s.group (s.consumers c) a).map (fun r =>
      { s with group := r.1, consumers := fun c' => if c' = c then r.2 else s.consumers c' })

def lts : Lts Sys Action where
  init := {}
  step := step cfg

end OrderEvents
end KafkaGuide
