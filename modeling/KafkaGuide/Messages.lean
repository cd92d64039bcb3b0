import KafkaGuide.Lib.Dict
import KafkaGuide.Lib.IsoDate
import KafkaGuide.Lib.Text
/-!
# Messages — pydantic events over a topic and back (`06-message-serialization/app`, `shared/events.py`)

The endpoints build an event and hand it to the producer, whose serializers make the record; the consumer's
deserializers and the model that the `event_type` header names make an event of it again.  Floats are of any type `F`:
nothing is assumed of their arithmetic.
-/
namespace KafkaGuide
namespace Messages

/-- The objects that the serializers meet; a model by its fields. -/
inductive Value (F : Type) where
  | none
  | bool (b : Bool)
  | int (n : Int)
  | float (x : F)
  | str (t : Text)
  | datetime (d : DateTime)
  | list (xs : List (Value F))
  | dict (members : List (String × Value F))
  | model (fields : List (String × Value F))

/-- Float arithmetic: `quantity * price`, `none` where it overflows, `sum` of one float or more, and `x >= 0`. -/
structure Floats (F : Type) where
  times : Int → F → Option F
  sum : List F → F
  nonneg : F → Bool

/-- `json.dumps(v, ensure_ascii=False)` of what JSON has, and `json.loads`: `none` where they raise. -/
structure JsonText (F : Type) where
  dumps : Value F → Option Text
  loads : Text → Option (Value F)

/-- How pydantic takes a value for a field of each type: `none` where it is a validation error. -/
structure Pydantic (F : Type) where
  str : Value F → Option Text
  int : Value F → Option Int
  float : Value F → Option F
  datetime : Value F → Option DateTime

/-- What the default factories return. -/
structure Factories where
  uuid4 : Text
  utcnow : DateTime

variable {F : Type}

/-! ## `app/serializers.py` -/

namespace Value

mutual
/-- `model_dump()`, also of what the fields hold. -/
def modelDump : Value F → Value F
  | .model fields => .dict (dumpFields fields)
  | .dict members => .dict (dumpFields members)
  | .list xs => .list (dumpList xs)
  | v => v
def dumpList : List (Value F) → List (Value F)
  | [] => []
  | v :: xs => modelDump v :: dumpList xs
def dumpFields : List (String × Value F) → List (String × Value F)
  | [] => []
  | (k, v) :: fields => (k, modelDump v) :: dumpFields fields
end

mutual
/-- What `json.dumps` makes of an object with `_default_serializer`: a date-time becomes its text, a model the dict of
its fields. -/
def withDefault : Value F → Value F
  | .datetime d => .str (.ofString d.isoformat)
  | .model fields => .dict (fieldsWithDefault fields)
  | .dict members => .dict (fieldsWithDefault members)
  | .list xs => .list (listWithDefault xs)
  | v => v
def listWithDefault : List (Value F) → List (Value F)
  | [] => []
  | v :: xs => withDefault v :: listWithDefault xs
def fieldsWithDefault : List (String × Value F) → List (String × Value F)
  | [] => []
  | (k, v) :: fields => (k, withDefault v) :: fieldsWithDefault fields
end

end Value

def jsonSerializer (json : JsonText F) (value : Value F) : Option ByteArray :=
  let data := match value with
    | .model fields => (Value.model fields).modelDump
    | v => v
  (json.dumps data.withDefault).bind Text.encode

def jsonDeserializer (json : JsonText F) : Option ByteArray → Option (Value F)
  | none => some (.dict [])
  | some data => (Text.decode data).bind json.loads

/-- `str` is Python's own. -/
def keySerializer (str : Value F → Text) : Value F → Option (Option ByteArray)
  | .none => some none
  | .str key => (Text.encode key).map some
  | key => (Text.encode (str key)).map some

def keyDeserializer : Option ByteArray → Option (Option Text)
  | none => some none
  | some data => (Text.decode data).map some

/-! ## `shared/events.py` -/

structure UserCreatedEvent where
  eventId : Text
  userId : Text
  username : Text
  email : Text
  createdAt : DateTime

structure OrderItem (floats : Floats F) where
  productId : Text
  productName : Text
  quantity : Int
  price : F
  quantity_ge : 1 ≤ quantity
  price_ge : floats.nonneg price = true

structure OrderPlacedEvent (floats : Floats F) where
  eventId : Text
  orderId : Text
  userId : Text
  items : List (OrderItem floats)
  totalPrice : F
  createdAt : DateTime
  totalPrice_ge : floats.nonneg totalPrice = true

/-- The validation of the model's fields: a field without a value has its default, or is missing. -/
def UserCreatedEvent.validate (pydantic : Pydantic F) (factories : Factories)
    (eventId userId username email createdAt : Option (Value F)) : Option UserCreatedEvent := do
  let eventId ← eventId.elim (some factories.uuid4) pydantic.str
  let userId ← userId.bind pydantic.str
  let username ← username.bind pydantic.str
  let email ← email.bind pydantic.str
  let createdAt ← createdAt.elim (some factories.utcnow) pydantic.datetime
  some { eventId, userId, username, email, createdAt }

def OrderItem.validate (floats : Floats F) (pydantic : Pydantic F)
    (productId productName quantity price : Option (Value F)) : Option (OrderItem floats) := do
  let productId ← productId.bind pydantic.str
  let productName ← productName.bind pydantic.str
  let quantity ← quantity.bind pydantic.int
  let price ← price.bind pydantic.float
  if h : 1 ≤ quantity ∧ floats.nonneg price = true then
    some { productId, productName, quantity, price, quantity_ge := h.1, price_ge := h.2 }
  else none

/-- Items that are models already are taken as they are. -/
def OrderPlacedEvent.validate (floats : Floats F) (pydantic : Pydantic F) (factories : Factories)
    (eventId orderId userId : Option (Value F)) (items : Option (List (OrderItem floats)))
    (totalPrice createdAt : Option (Value F)) : Option (OrderPlacedEvent floats) := do
  let eventId ← eventId.elim (some factories.uuid4) pydantic.str
  let orderId ← orderId.bind pydantic.str
  let userId ← userId.bind pydantic.str
  let items ← items
  let totalPrice ← totalPrice.bind pydantic.float
  let createdAt ← createdAt.elim (some factories.utcnow) pydantic.datetime
  if h : floats.nonneg totalPrice = true then
    some { eventId, orderId, userId, items, totalPrice, createdAt, totalPrice_ge := h }
  else none

def UserCreatedEvent.modelValidate (pydantic : Pydantic F) (factories : Factories) : Value F → Option UserCreatedEvent
  | .dict d => validate pydantic factories (Dict.find "event_id" d) (Dict.find "user_id" d) (Dict.find "username" d)
    (Dict.find "email" d) (Dict.find "created_at" d)
  | _ => none

def OrderItem.modelValidate (floats : Floats F) (pydantic : Pydantic F) : Value F → Option (OrderItem floats)
  | .dict d => validate floats pydantic (Dict.find "product_id" d) (Dict.find "product_name" d)
    (Dict.find "quantity" d) (Dict.find "price" d)
  | _ => none

/-- `List[OrderItem]`. -/
def itemList (floats : Floats F) (pydantic : Pydantic F) : Value F → Option (List (OrderItem floats))
  | .list xs => xs.mapM (OrderItem.modelValidate floats pydantic)
  | _ => none

def OrderPlacedEvent.modelValidate (floats : Floats F) (pydantic : Pydantic F) (factories : Factories) :
    Value F → Option (OrderPlacedEvent floats)
  | .dict d => validate floats pydantic factories (Dict.find "event_id" d) (Dict.find "order_id" d)
    (Dict.find "user_id" d) ((Dict.find "items" d).bind (itemList floats pydantic)) (Dict.find "total_price" d)
    (Dict.find "created_at" d)
  | _ => none

def UserCreatedEvent.toValue (e : UserCreatedEvent) : Value F :=
  .model [("event_id", .str e.eventId), ("user_id", .str e.userId), ("username", .str e.username),
    ("email", .str e.email), ("created_at", .datetime e.createdAt)]

def OrderItem.toValue {floats : Floats F} (i : OrderItem floats) : Value F :=
  .model [("product_id", .str i.productId), ("product_name", .str i.productName), ("quantity", .int i.quantity),
    ("price", .float i.price)]

def OrderPlacedEvent.toValue {floats : Floats F} (e : OrderPlacedEvent floats) : Value F :=
  .model [("event_id", .str e.eventId), ("order_id", .str e.orderId), ("user_id", .str e.userId),
    ("items", .list (e.items.map OrderItem.toValue)), ("total_price", .float e.totalPrice),
    ("created_at", .datetime e.createdAt)]

inductive Event (floats : Floats F) where
  | userCreated (e : UserCreatedEvent)
  | orderPlaced (e : OrderPlacedEvent floats)

def Event.toValue {floats : Floats F} : Event floats → Value F
  | .userCreated e => e.toValue
  | .orderPlaced e => e.toValue

/-! ## `app/main.py` -/

structure CreateUserRequest where
  userId : Text
  username : Text
  email : Text

structure OrderItemRequest (floats : Floats F) where
  productId : Text
  productName : Text
  quantity : Int
  price : F
  quantity_ge : 1 ≤ quantity
  price_ge : floats.nonneg price = true

structure CreateOrderRequest (floats : Floats F) where
  orderId : Text
  userId : Text
  items : List (OrderItemRequest floats)

abbrev Headers := List (String × Option ByteArray)

/-- The arguments of `send_and_wait`. -/
structure Send (floats : Floats F) where
  topic : String
  key : Text
  value : Event floats
  headers : Headers

variable (floats : Floats F) (pydantic : Pydantic F)

/-- `none` where the endpoint raises before it sends. -/
def createUser (factories : Factories) (request : CreateUserRequest) : Option (Send floats) := do
  let event ← UserCreatedEvent.validate pydantic factories none (some (.str request.userId))
    (some (.str request.username)) (some (.str request.email)) none
  let headers := [("event_type", some "user_created".toUTF8), ("source", some "user-service".toUTF8),
    ("content_type", some "application/json".toUTF8)]
  some { topic := "user-events", key := event.userId, value := .userCreated event, headers }

/-- `sum(item.quantity * item.price for item in items)`: the integer 0 where there are no items. -/
def totalPrice {floats : Floats F} (items : List (OrderItem floats)) : Option (Value F) :=
  (items.mapM fun item => floats.times item.quantity item.price).map fun xs =>
    if xs.isEmpty then .int 0 else .float (floats.sum xs)

def createOrder (factories : Factories) (request : CreateOrderRequest floats) : Option (Send floats) := do
  let items ← request.items.mapM fun item => OrderItem.validate floats pydantic (some (.str item.productId))
    (some (.str item.productName)) (some (.int item.quantity)) (some (.float item.price))
  let total ← totalPrice items
  let event ← OrderPlacedEvent.validate floats pydantic factories none (some (.str request.orderId))
    (some (.str request.userId)) (some items) (some total) none
  let headers := [("event_type", some "order_placed".toUTF8), ("source", some "order-service".toUTF8),
    ("content_type", some "application/json".toUTF8)]
  some { topic := "order-events", key := event.orderId, value := .orderPlaced event, headers }

inductive Request where
  | user (request : CreateUserRequest)
  | order (request : CreateOrderRequest floats)

def endpoint (factories : Factories) : Request floats → Option (Send floats)
  | .user request => createUser floats pydantic factories request
  | .order request => createOrder floats pydantic factories request

/-! ## The record, and `app/consumer.py` -/

/-- A record as the broker keeps it. -/
structure Record where
  topic : String
  key : Option ByteArray
  value : Option ByteArray
  headers : Headers

/-- The producer, with its serializers: `none` where one of them raises. -/
def Send.serialize {floats : Floats F} (json : JsonText F) (str : Value F → Text) (send : Send floats) :
    Option Record := do
  let key ← keySerializer str (.str send.key)
  let value ← jsonSerializer json send.value.toValue
  some { topic := send.topic, key, value := some value, headers := send.headers }

/-- What the iteration over the consumer returns. -/
structure Message (F : Type) where
  topic : String
  partition : Nat
  offset : Nat
  key : Option Text
  value : Value F
  headers : Headers

/-- The consumer, with its deserializers. -/
def Record.deserialize (json : JsonText F) (partition offset : Nat) (rec : Record) : Option (Message F) := do
  let key ← keyDeserializer rec.key
  let value ← jsonDeserializer json rec.value
  some { topic := rec.topic, partition, offset, key, value, headers := rec.headers }

/-- `header_value.decode("utf-8") if header_value else None`. -/
def headerValue : Option ByteArray → Option (Option Text)
  | none => some none
  | some b => if b.size = 0 then some none else (Text.decode b).map some

def parseHeaders (headers : Headers) : Option (Dict String (Option Text)) :=
  headers.foldlM (fun d h => (headerValue h.2).map (d.set h.1)) Dict.empty

inductive ModelClass where
  | UserCreatedEvent
  | OrderPlacedEvent

def EVENT_MODEL_MAP : Dict Text ModelClass :=
  (Dict.empty.set (.ofString "user_created") .UserCreatedEvent).set (.ofString "order_placed") .OrderPlacedEvent

/-- `EVENT_MODEL_MAP.get(event_type) if event_type else None`, of `headers.get("event_type")`. -/
def modelClass (headers : Dict String (Option Text)) : Option ModelClass :=
  match (headers.get? "event_type").join with
  | some eventType => if eventType.points = [] then none else EVENT_MODEL_MAP.get? eventType
  | none => none

def ModelClass.modelValidate (factories : Factories) : ModelClass → Value F → Option (Event floats)
  | .UserCreatedEvent, v => (UserCreatedEvent.modelValidate pydantic factories v).map .userCreated
  | .OrderPlacedEvent, v => (OrderPlacedEvent.modelValidate floats pydantic factories v).map .orderPlaced

/-- An entry of `consumed_events`. -/
structure EventRecord (F : Type) where
  topic : String
  partition : Nat
  offset : Nat
  key : Option Text
  headers : Dict String (Option Text)
  value : Value F

def MAX_EVENTS : Nat := 1000

/-- The body of the loop: `consumed_events` after the message, and the event that it was validated as.  `none` where a
header does not decode, which ends the loop. -/
def consume (factories : Factories) (consumedEvents : List (EventRecord F)) (msg : Message F) :
    Option (List (EventRecord F) × Option (Event floats)) := do
  let headers ← parseHeaders msg.headers
  let events := consumedEvents ++
    [{ topic := msg.topic, partition := msg.partition, offset := msg.offset, key := msg.key, headers,
       value := msg.value }]
  some (if MAX_EVENTS < events.length then events.tail else events,
    (modelClass headers).bind fun model => model.modelValidate floats pydantic factories msg.value)

end Messages
end KafkaGuide
