import KafkaGuide.Lib.Json
/-!
# CqrsQuery — the read model (`11-multi-service-architecture/query-service/app/consumer.py`)

`process_event` logs every event and folds it into the view of its order: `newView` is what `ORDER_CREATED` stores,
`updateOf` the chain over the other types.  An event whose `order_id` is a list or an object is logged and then raises,
which the loop around it catches.
-/
namespace KafkaGuide
namespace Cqrs

inductive ViewStatus where
  | created
  | paymentCompleted
  | inventoryReserved
  | completed
  | cancelled
deriving DecidableEq, Repr

def ViewStatus.value : ViewStatus → String
  | .created => "CREATED"
  | .paymentCompleted => "PAYMENT_COMPLETED"
  | .inventoryReserved => "INVENTORY_RESERVED"
  | .completed => "COMPLETED"
  | .cancelled => "CANCELLED"

inductive PaymentStatus where
  | pending
  | completed
  | failed
deriving DecidableEq, Repr

inductive InventoryStatus where
  | pending
  | reserved
  | failed
deriving DecidableEq, Repr

/-- An entry of `orders_read_model`; the optional members are those a later event adds. -/
structure View where
  orderId : Json
  userId : Json
  items : Json
  totalPrice : Json
  shippingAddress : Json
  status : ViewStatus
  paymentStatus : PaymentStatus
  inventoryStatus : InventoryStatus
  createdAt : Json
  updatedAt : Json
  events : List (Json × Json)
  paymentAmount : Option Json := none
  paymentMethod : Option Json := none
  transactionId : Option Json := none
  paymentFailureReason : Option Json := none
  warehouseId : Option Json := none
  inventoryFailureReason : Option Json := none

structure LogEntry where
  eventType : Json
  orderId : Json
  topic : String
  timestamp : Json
  data : Json.Members

structure ReadStore where
  ordersReadModel : Dict Json.Key View := .empty
  eventLog : List LogEntry := []

inductive PyError where
  | unhashable
deriving DecidableEq

def newView (event : Json.Members) (eventType orderId timestamp : Json) : View :=
  { orderId := orderId
    userId := Json.get event "user_id" (.str "")
    items := Json.get event "items" (.arr [])
    totalPrice := Json.get event "total_price" (.num 0)
    shippingAddress := Json.get event "shipping_address"
    status := .created
    paymentStatus := .pending
    inventoryStatus := .pending
    createdAt := timestamp
    updatedAt := timestamp
    events := [(eventType, timestamp)] }

/-- `view["updated_at"] = timestamp` and the entry of `view["events"]`, common to every later event. -/
def View.stamp (view : View) (eventType timestamp : Json) : View :=
  { view with updatedAt := timestamp, events := view.events ++ [(eventType, timestamp)] }

def onPaymentCompleted (event : Json.Members) (view : View) : View :=
  { view with
    paymentStatus := .completed
    paymentAmount := some (Json.get event "amount" (.num 0))
    paymentMethod := some (Json.get event "payment_method" (.str ""))
    transactionId := some (Json.get event "transaction_id" (.str ""))
    status := if view.inventoryStatus = .reserved then .completed else .paymentCompleted }

def onPaymentFailed (event : Json.Members) (view : View) : View :=
  { view with
    paymentStatus := .failed
    paymentFailureReason := some (Json.get event "reason" (.str ""))
    status := .cancelled }

def onInventoryReserved (event : Json.Members) (view : View) : View :=
  { view with
    inventoryStatus := .reserved
    warehouseId := some (Json.get event "warehouse_id" (.str ""))
    status := if view.paymentStatus = .completed then .completed else .inventoryReserved }

def onInventoryFailed (event : Json.Members) (view : View) : View :=
  { view with
    inventoryStatus := .failed
    inventoryFailureReason := some (Json.get event "reason" (.str ""))
    status := .cancelled }

/-- The `elif` chain over the event types that update a view, `none` for any other type. -/
def updateOf (event : Json.Members) (eventType : Json) : Option (View → View) :=
  if eventType.isStr "PAYMENT_COMPLETED" then some (onPaymentCompleted event)
  else if eventType.isStr "PAYMENT_FAILED" then some (onPaymentFailed event)
  else if eventType.isStr "INVENTORY_RESERVED" then some (onInventoryReserved event)
  else if eventType.isStr "INVENTORY_FAILED" then some (onInventoryFailed event)
  else if eventType.isStr "NOTIFICATION_SENT" then some id
  else none

/-- The branches of the chain. -/
inductive Update (event : Json.Members) (eventType : Json) : (View → View) → Prop
  | paymentCompleted (h : eventType.isStr "PAYMENT_COMPLETED" = true) :
    Update event eventType (onPaymentCompleted event)
  | paymentFailed (h : eventType.isStr "PAYMENT_FAILED" = true) : Update event eventType (onPaymentFailed event)
  | inventoryReserved (h : eventType.isStr "INVENTORY_RESERVED" = true) :
    Update event eventType (onInventoryReserved event)
  | inventoryFailed (h : eventType.isStr "INVENTORY_FAILED" = true) : Update event eventType (onInventoryFailed event)
  | notificationSent (h : eventType.isStr "NOTIFICATION_SENT" = true) : Update event eventType id

/-- **What an update can be.** -/
theorem updateOf_sound {event : Json.Members} {eventType : Json} {update : View → View}
    (h : updateOf event eventType = some update) : Update event eventType update := by
  unfold updateOf at h
  split at h
  · cases h
    exact .paymentCompleted ‹_›
  · split at h
    · cases h
      exact .paymentFailed ‹_›
    · split at h
      · cases h
        exact .inventoryReserved ‹_›
      · split at h
        · cases h
          exact .inventoryFailed ‹_›
        · split at h
          · cases h
            exact .notificationSent ‹_›
          · cases h

/-- `process_event`, and what it raises; `now` is what the clock would give as a default timestamp. -/
def processEvent (st : ReadStore) (event : Json.Members) (topic now : String) : ReadStore × Option PyError :=
  let eventType := Json.get event "event_type" (.str "")
  let orderId := Json.get event "order_id" (.str "")
  let timestamp := Json.get event "timestamp" (.str now)
  let st := { st with eventLog := st.eventLog ++ [⟨eventType, orderId, topic, timestamp, event⟩] }
  if orderId.truthy = false then (st, none)
  else if eventType.isStr "ORDER_CREATED" then
    match orderId.key? with
    | none => (st, some .unhashable)
    | some k =>
      ({ st with ordersReadModel := st.ordersReadModel.set k (newView event eventType orderId timestamp) }, none)
  else
    match updateOf event eventType with
    | none => (st, none)
    | some update =>
      match orderId.key? with
      | none => (st, some .unhashable)
      | some k =>
        match st.ordersReadModel.get? k with
        | none => (st, none)
        | some view =>
          ({ st with ordersReadModel := st.ordersReadModel.set k ((update view).stamp eventType timestamp) }, none)

/-- The body of `start_consumer`'s loop: a value that is no object raises before `process_event`, and what
`process_event` raises is logged. -/
def consumeEvent (st : ReadStore) (value : Json) (topic now : String) : ReadStore :=
  match value with
  | .obj event => (processEvent st event topic now).1
  | _ => st

/-- **What an event of an order can do to the read model**: start the order's view, update it, or nothing. -/
theorem processEvent_cases (st : ReadStore) {event : Json.Members} (topic now : String) {o : String} (ho : o ≠ "")
    (hid : Json.get event "order_id" (.str "") = .str o) :
    let eventType := Json.get event "event_type" (.str "")
    let timestamp := Json.get event "timestamp" (.str now)
    let st' := (processEvent st event topic now).1
    (eventType.isStr "ORDER_CREATED" = true ∧ st'.ordersReadModel =
        st.ordersReadModel.set (.str o) (newView event eventType (.str o) timestamp)) ∨
      (∃ update view, updateOf event eventType = some update ∧ st.ordersReadModel.get? (.str o) = some view ∧
        st'.ordersReadModel = st.ordersReadModel.set (.str o) ((update view).stamp eventType timestamp)) ∨
      st'.ordersReadModel = st.ordersReadModel := by
  have htruthy : ¬ (Json.truthy (.str o) = false) := by simp [ho]
  unfold processEvent
  simp only [hid, if_neg htruthy, Json.key?_str]
  split
  · exact .inl ⟨‹_›, rfl⟩
  · split
    · exact .inr (.inr rfl)
    · split
      · exact .inr (.inr rfl)
      · exact .inr (.inl ⟨_, _, ‹_›, ‹_›, rfl⟩)

theorem processEvent_created {st : ReadStore} {event : Json.Members} {topic now o : String} (ho : o ≠ "")
    (hid : Json.get event "order_id" (.str "") = .str o)
    (htype : Json.get event "event_type" (.str "") = .str "ORDER_CREATED") :
    (processEvent st event topic now).1.ordersReadModel = st.ordersReadModel.set (.str o)
      (newView event (.str "ORDER_CREATED") (.str o) (Json.get event "timestamp" (.str now))) := by
  simp [processEvent, hid, htype, ho]

/-- An event of a known type updates the view of its order, when there is one. -/
theorem processEvent_update {st : ReadStore} {event : Json.Members} (topic now : String) {o ty : String}
    {f : View → View} {view : View} (ho : o ≠ "") (hid : Json.get event "order_id" (.str "") = .str o)
    (htype : Json.get event "event_type" (.str "") = .str ty) (hty : ty ≠ "ORDER_CREATED")
    (hf : updateOf event (.str ty) = some f) (hview : st.ordersReadModel.get? (.str o) = some view) :
    (processEvent st event topic now).1.ordersReadModel = st.ordersReadModel.set (.str o)
      ((f view).stamp (.str ty) (Json.get event "timestamp" (.str now))) := by
  simp [processEvent, hid, htype, ho, hty, hf, hview]

end Cqrs
end KafkaGuide
