import Mathlib.Algebra.Order.Ring.Rat
import KafkaGuide.Messages
/-!
# MessagesRoundTrip — what the consumer validates is what the endpoint sent

Serializer and deserializer meet in the JSON value `withDefault` of the event: models are dicts in it, and date-times
texts.  Validation takes each field of it back to the field of the event.
-/
namespace KafkaGuide
namespace Messages

variable {F : Type}

/-! ## Serializers -/

namespace Value

mutual
theorem withDefault_modelDump : ∀ v : Value F, v.modelDump.withDefault = v.withDefault
  | .none => rfl
  | .bool _ => rfl
  | .int _ => rfl
  | .float _ => rfl
  | .str _ => rfl
  | .datetime _ => rfl
  | .list xs => by rw [modelDump, withDefault, withDefault, list_dump xs]
  | .dict members => by rw [modelDump, withDefault, withDefault, fields_dump members]
  | .model fields => by rw [modelDump, withDefault, withDefault, fields_dump fields]
theorem list_dump : ∀ xs : List (Value F), listWithDefault (dumpList xs) = listWithDefault xs
  | [] => rfl
  | v :: xs => by rw [dumpList, listWithDefault, listWithDefault, withDefault_modelDump v, list_dump xs]
theorem fields_dump : ∀ fields : List (String × Value F),
    fieldsWithDefault (dumpFields fields) = fieldsWithDefault fields
  | [] => rfl
  | (k, v) :: fields => by
    rw [dumpFields, fieldsWithDefault, fieldsWithDefault, withDefault_modelDump v, fields_dump fields]
end

theorem listWithDefault_eq_map : ∀ xs : List (Value F), listWithDefault xs = xs.map withDefault
  | [] => rfl
  | v :: xs => by rw [listWithDefault, listWithDefault_eq_map xs, List.map_cons]

end Value

/-- `json.loads(json.dumps(v))` is `v`. -/
def JsonText.Undoes (json : JsonText F) (v : Value F) : Prop := ∀ t, json.dumps v = some t → json.loads t = some v

theorem jsonSerializer_eq (json : JsonText F) (v : Value F) :
    jsonSerializer json v = (json.dumps v.withDefault).bind Text.encode := by
  cases v with
  | model fields => exact congrArg (fun v => (json.dumps v).bind Text.encode) (Value.withDefault_modelDump _)
  | _ => rfl

/-- **Of a model, the deserializer returns what the hook makes of it.** -/
theorem jsonDeserializer_jsonSerializer {json : JsonText F} {v : Value F} {b : ByteArray}
    (h : jsonSerializer json v = some b) (hjson : json.Undoes v.withDefault) :
    jsonDeserializer json (some b) = some v.withDefault := by
  rw [jsonSerializer_eq] at h
  obtain ⟨t, ht, hb⟩ := Option.bind_eq_some_iff.1 h
  rw [jsonDeserializer, Text.decode_encode hb, Option.bind_some]
  exact hjson t ht

theorem keyDeserializer_keySerializer {str : Value F → Text} {key : Text} {b : Option ByteArray}
    (h : keySerializer str (.str key) = some b) : keyDeserializer b = some (some key) := by
  obtain ⟨data, hdata, rfl⟩ := Option.map_eq_some_iff.1 h
  rw [keyDeserializer, Text.decode_encode hdata, Option.map_some]

/-! ## Validation -/

/-- A value of a field's own type is taken as it is, and the text of a date-time as the date-time. -/
structure Pydantic.Lawful (pydantic : Pydantic F) : Prop where
  str : ∀ t, pydantic.str (.str t) = some t
  int : ∀ n, pydantic.int (.int n) = some n
  float : ∀ x, pydantic.float (.float x) = some x
  datetime : ∀ text d, DateTime.ofIso text = some d → pydantic.datetime (.str (.ofString text)) = some d

section Validation

variable {floats : Floats F} {pydantic : Pydantic F} (hp : pydantic.Lawful)
include hp

theorem Pydantic.Lawful.isoformat (d : DateTime) : pydantic.datetime (.str (.ofString d.isoformat)) = some d :=
  hp.datetime _ d (DateTime.ofIso_isoformat d)

theorem userCreated_back (factories : Factories) (e : UserCreatedEvent) :
    UserCreatedEvent.modelValidate pydantic factories e.toValue.withDefault = some e := by
  change UserCreatedEvent.validate pydantic factories (some (.str e.eventId)) (some (.str e.userId))
    (some (.str e.username)) (some (.str e.email)) (some (.str (.ofString e.createdAt.isoformat))) = some e
  simp only [UserCreatedEvent.validate, Option.elim_some, Option.bind_some, Option.bind_eq_bind, hp.str, hp.isoformat]

theorem orderItem_back (i : OrderItem floats) :
    OrderItem.modelValidate floats pydantic i.toValue.withDefault = some i := by
  change OrderItem.validate floats pydantic (some (.str i.productId)) (some (.str i.productName))
    (some (.int i.quantity)) (some (.float i.price)) = some i
  simp only [OrderItem.validate, Option.bind_some, Option.bind_eq_bind, hp.str, hp.int, hp.float]
  exact dif_pos ⟨i.quantity_ge, i.price_ge⟩

theorem items_back : ∀ items : List (OrderItem floats),
    ((items.map OrderItem.toValue).map Value.withDefault).mapM (OrderItem.modelValidate floats pydantic) = some items
  | [] => rfl
  | i :: items => by
    rw [List.map_cons, List.map_cons, List.mapM_cons, orderItem_back hp i, items_back items]
    rfl

theorem orderPlaced_back (factories : Factories) (e : OrderPlacedEvent floats) :
    OrderPlacedEvent.modelValidate floats pydantic factories e.toValue.withDefault = some e := by
  change OrderPlacedEvent.validate floats pydantic factories (some (.str e.eventId)) (some (.str e.orderId))
    (some (.str e.userId))
    ((some (.list (Value.listWithDefault (e.items.map OrderItem.toValue)))).bind (itemList floats pydantic))
    (some (.float e.totalPrice)) (some (.str (.ofString e.createdAt.isoformat))) = some e
  rw [Value.listWithDefault_eq_map, Option.bind_some, itemList, items_back hp]
  simp only [OrderPlacedEvent.validate, Option.elim_some, Option.bind_some, Option.bind_eq_bind, hp.str, hp.float,
    hp.isoformat]
  exact dif_pos e.totalPrice_ge

/-- The model of an event. -/
def Event.modelClass : Event floats → ModelClass
  | .userCreated _ => .UserCreatedEvent
  | .orderPlaced _ => .OrderPlacedEvent

/-- **An event is validated as itself**, by its own model. -/
theorem event_back (factories : Factories) (event : Event floats) :
    event.modelClass.modelValidate floats pydantic factories event.toValue.withDefault = some event := by
  cases event with
  | userCreated e => exact congrArg (Option.map Event.userCreated) (userCreated_back hp factories e)
  | orderPlaced e => exact congrArg (Option.map Event.orderPlaced) (orderPlaced_back hp factories e)

end Validation

/-! ## Headers -/

theorem headerValue_toUTF8 {s : String} (hs : s ≠ "") : headerValue (some s.toUTF8) = some (some (.ofString s)) := by
  have hsize : s.toUTF8.size ≠ 0 := fun h => hs (String.utf8ByteSize_eq_zero_iff.1 h)
  rw [headerValue, if_neg hsize, Text.decode_toUTF8, Option.map_some]

/-- Three headers of text, the first of them the event's type. -/
theorem parseHeaders_three (eventType source contentType : String) (he : eventType ≠ "") (hs : source ≠ "")
    (hc : contentType ≠ "") : ∃ headers, parseHeaders [("event_type", some eventType.toUTF8),
      ("source", some source.toUTF8), ("content_type", some contentType.toUTF8)] = some headers ∧
      headers.get? "event_type" = some (some (.ofString eventType)) := by
  refine ⟨((Dict.empty.set "event_type" (some (.ofString eventType))).set "source" (some (.ofString source))).set
    "content_type" (some (.ofString contentType)), ?_, ?_⟩
  · simp only [parseHeaders, List.foldlM_cons, List.foldlM_nil, headerValue_toUTF8 he, headerValue_toUTF8 hs,
      headerValue_toUTF8 hc, Option.map_some, Option.bind_eq_bind, Option.bind_some]
    rfl
  · rw [Dict.get?_set_ne _ (by decide), Dict.get?_set_ne _ (by decide), Dict.get?_set_self]

theorem modelClass_of_type {headers : Dict String (Option Text)} {eventType : Text} {model : ModelClass}
    (h : headers.get? "event_type" = some (some eventType)) (hne : eventType.points ≠ [])
    (hmodel : EVENT_MODEL_MAP.get? eventType = some model) : modelClass headers = some model := by
  unfold modelClass
  rw [h]
  exact (if_neg hne).trans hmodel

/-- **The endpoints' headers name the model of the event.** -/
theorem headers_name {floats : Floats F} {pydantic : Pydantic F} {factories : Factories} {request : Request floats}
    {send : Send floats} (h : endpoint floats pydantic factories request = some send) :
    ∃ headers, parseHeaders send.headers = some headers ∧ modelClass headers = some send.value.modelClass := by
  cases request with
  | user request =>
    obtain ⟨event, -, h⟩ := Option.bind_eq_some_iff.1 h
    cases h
    obtain ⟨headers, hheaders, htype⟩ := parseHeaders_three "user_created" "user-service" "application/json"
      (by decide) (by decide) (by decide)
    exact ⟨headers, hheaders, modelClass_of_type htype (by decide +kernel) rfl⟩
  | order request =>
    obtain ⟨items, -, h⟩ := Option.bind_eq_some_iff.1 h
    obtain ⟨total, -, h⟩ := Option.bind_eq_some_iff.1 h
    obtain ⟨event, -, h⟩ := Option.bind_eq_some_iff.1 h
    cases h
    obtain ⟨headers, hheaders, htype⟩ := parseHeaders_three "order_placed" "order-service" "application/json"
      (by decide) (by decide) (by decide)
    exact ⟨headers, hheaders, modelClass_of_type htype (by decide +kernel) rfl⟩

/-! ## The round trip -/

/-- **What an endpoint sends, the consumer validates as the event that was sent**, under the key it was sent with. -/
theorem round_trip (floats : Floats F) {pydantic : Pydantic F} (hp : pydantic.Lawful) (json : JsonText F)
    (str : Value F → Text) (factories later : Factories) {request : Request floats} {send : Send floats}
    (hsend : endpoint floats pydantic factories request = some send) {rec : Record}
    (hrec : send.serialize json str = some rec) (hjson : json.Undoes send.value.toValue.withDefault)
    (partition offset : Nat) (consumedEvents : List (EventRecord F)) :
    ∃ msg, rec.deserialize json partition offset = some msg ∧ msg.key = some send.key ∧
      ∃ events, consume floats pydantic later consumedEvents msg = some (events, some send.value) := by
  obtain ⟨key, hkey, h⟩ := Option.bind_eq_some_iff.1 hrec
  obtain ⟨value, hvalue, h⟩ := Option.bind_eq_some_iff.1 h
  cases h
  obtain ⟨headers, hheaders, hmodel⟩ := headers_name hsend
  refine ⟨⟨send.topic, partition, offset, some send.key, send.value.toValue.withDefault, send.headers⟩, ?_, rfl, ?_⟩
  · simp only [Record.deserialize, keyDeserializer_keySerializer hkey, jsonDeserializer_jsonSerializer hvalue hjson,
      Option.bind_eq_bind, Option.bind_some]
  · have hback : (modelClass headers).bind
        (fun model => model.modelValidate floats pydantic later send.value.toValue.withDefault) = some send.value := by
      rw [hmodel, Option.bind_some, event_back hp]
    simp only [consume, hheaders, hback, Option.bind_eq_bind, Option.bind_some]
    exact ⟨_, rfl⟩

/-! ## An order of one item -/

/-- Exact numbers. -/
def exact : Floats ℚ where
  times n x := some (n * x)
  sum := List.sum
  nonneg x := decide (0 ≤ x)

def strict : Pydantic ℚ where
  str | .str t => some t
      | _ => none
  int | .int n => some n
      | _ => none
  float | .float x => some x
        | .int n => some n
        | _ => none
  datetime | .str t => t.string?.bind DateTime.ofIso
           | _ => none

def created : Factories where
  uuid4 := .ofString "8a4c19e2-5b7d-4f30-96e1-0c2d7b8f3a64"
  utcnow := ⟨2026, 1, 5, 9, 0, 0, 250, by decide, by decide, by decide, by decide, by decide, by decide, by decide⟩

def keyboards : CreateOrderRequest exact where
  orderId := .ofString "order-001"
  userId := .ofString "user-001"
  items := [⟨.ofString "prod-001", .ofString "키보드", 2, 55000, by decide, by decide +kernel⟩]

def keyboardsPlaced : OrderPlacedEvent exact where
  eventId := created.uuid4
  orderId := .ofString "order-001"
  userId := .ofString "user-001"
  items := [⟨.ofString "prod-001", .ofString "키보드", 2, 55000, by decide, by decide +kernel⟩]
  totalPrice := 110000
  createdAt := created.utcnow
  totalPrice_ge := by decide +kernel

def keyboardsText : String :=
  "\x7b\"event_id\": \"8a4c19e2-5b7d-4f30-96e1-0c2d7b8f3a64\", \"order_id\": \"order-001\", " ++
    "\"user_id\": \"user-001\", \"items\": [\x7b\"product_id\": \"prod-001\", " ++
    "\"product_name\": \"키보드\", \"quantity\": 2, \"price\": 55000.0\x7d], \"total_price\": 110000.0, " ++
    "\"created_at\": \"2026-01-05T09:00:00.000250\"\x7d"

/-- JSON as far as one value goes. -/
def jsonOf (text : String) (v : Value ℚ) : JsonText ℚ where
  dumps _ := some (.ofString text)
  loads t := if t = .ofString text then some v else none

theorem jsonOf_undoes (text : String) (v : Value ℚ) : (jsonOf text v).Undoes v := by
  intro t ht
  rw [← Option.some.inj ht]
  exact if_pos rfl

theorem jsonSerializer_jsonOf (text : String) (v v' : Value ℚ) :
    jsonSerializer (jsonOf text v) v' = some text.toUTF8 := by
  rw [jsonSerializer_eq]
  exact Text.encode_ofString text

def keyboardsJson : JsonText ℚ := jsonOf keyboardsText keyboardsPlaced.toValue.withDefault

theorem round_trip_keyboards : ∃ send rec msg events,
    endpoint exact strict created (.order keyboards) = some send ∧
      send.serialize keyboardsJson (fun _ => .ofString "") = some rec ∧
      rec.deserialize keyboardsJson 0 0 = some msg ∧ msg.key = some send.key ∧
      consume exact strict created [] msg = some (events, some send.value) := by
  have hstrict : strict.Lawful := by
    refine ⟨fun t => rfl, fun n => rfl, fun x => rfl, fun text d h => ?_⟩
    change (Text.string? (.ofString text)).bind DateTime.ofIso = some d
    rw [Text.string?_ofString, Option.bind_some]
    exact h
  obtain ⟨headers, hsend⟩ : ∃ headers, endpoint exact strict created (.order keyboards) =
      some ⟨"order-events", .ofString "order-001", .orderPlaced keyboardsPlaced, headers⟩ :=
    ⟨_, by with_unfolding_all rfl⟩
  have hkey : keySerializer (F := ℚ) (fun _ => .ofString "") (.str (.ofString "order-001")) =
      some (some "order-001".toUTF8) := by
    rw [keySerializer, Text.encode_ofString, Option.map_some]
  have hvalue : jsonSerializer keyboardsJson keyboardsPlaced.toValue = some keyboardsText.toUTF8 :=
    jsonSerializer_jsonOf keyboardsText _ _
  obtain ⟨rec, hrec⟩ : ∃ rec, Send.serialize keyboardsJson (fun _ => .ofString "")
      ⟨"order-events", .ofString "order-001", .orderPlaced keyboardsPlaced, headers⟩ = some rec := by
    refine ⟨⟨"order-events", some "order-001".toUTF8, some keyboardsText.toUTF8, headers⟩, ?_⟩
    simp only [Send.serialize, Event.toValue, hkey, hvalue, Option.bind_some, Option.bind_eq_bind]
  have hjson : keyboardsJson.Undoes keyboardsPlaced.toValue.withDefault := jsonOf_undoes keyboardsText _
  obtain ⟨msg, hmsg, hkey, events, hconsume⟩ := round_trip exact hstrict keyboardsJson (fun _ => .ofString "") created
    created hsend hrec hjson 0 0 []
  exact ⟨_, rec, msg, events, hsend, hrec, hmsg, hkey, hconsume⟩

end Messages
end KafkaGuide
