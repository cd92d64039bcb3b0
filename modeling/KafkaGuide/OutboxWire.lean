import KafkaGuide.Consumer
import KafkaGuide.Lib.Text
/-!
# OutboxWire — an outbox row on the wire, and what `consume` reads of it (`12-outbox-pattern`)

`_publish` puts the row's own headers after `event_id` and `event_type` into one list of pairs, and the consumer makes a
dict of the list: a header of the row under one of the two names takes its place.
-/
namespace KafkaGuide
namespace Outbox

/-- `json.dumps` and `json.loads`. -/
structure JsonText where
  dumps : Json → String
  loads : String → Option Json

/-- What `send_and_wait` is given. -/
structure WireRecord where
  topic : String
  key : ByteArray
  value : ByteArray
  headers : List (String × ByteArray)

/-- `_publish`, `str` being the builtin of that name. -/
def publish (str : Json → String) (json : JsonText) (row : OutboxEvent) : WireRecord where
  topic := row.topic
  key := row.aggregateId.toUTF8
  value := (json.dumps (.obj row.payload)).toUTF8
  headers := [("event_id", row.eventId.str.toUTF8), ("event_type", row.eventType.toUTF8)] ++
    row.headers.map (fun p => (p.1, (str p.2).toUTF8))

/-- `{k: v.decode("utf-8") for k, v in headers}`, `none` where a `decode` raises. -/
def decodeHeaders (headers : List (String × ByteArray)) : Option (Dict String String) :=
  (headers.mapM (fun p => (String.fromUTF8? p.2).map (fun v => (p.1, v)))).map (Dict.update .empty)

/-- What `consume` has of a message. -/
structure Received where
  headers : Dict String String
  value : Json

def Received.eventId (msg : Received) : Option String := msg.headers.get? "event_id"

def Received.eventType (msg : Received) : String := (msg.headers.get? "event_type").getD "unknown"

/-- The `value_deserializer` and the headers of one message. -/
def receive (json : JsonText) (rec : WireRecord) : Option Received := do
  let value ← Json.ofBytes json.loads rec.value
  let headers ← decodeHeaders rec.headers
  return { headers, value }

/-- **The consumer has what the row had**: its ids, every header under its own key, and its payload. -/
def RoundTrips (str : Json → String) (json : JsonText) (row : OutboxEvent) : Prop :=
  ∃ msg, receive json (publish str json row) = some msg ∧ msg.eventId = some row.eventId.str ∧
    msg.eventType = row.eventType ∧ (∀ k v, (k, v) ∈ row.headers → msg.headers.get? k = some (str v)) ∧
    msg.value = .obj row.payload

/-! ## The bytes -/

theorem decode_encoded (ps : List (String × String)) :
    (ps.map (fun p => (p.1, p.2.toUTF8))).mapM (fun p => (String.fromUTF8? p.2).map (fun v => (p.1, v))) = some ps := by
  induction ps with
  | nil => rfl
  | cons p ps ih =>
    rw [List.map_cons, List.mapM_cons, Text.fromUTF8?_toUTF8, ih]
    rfl

theorem publish_headers (str : Json → String) (json : JsonText) (n : Nat) (row : OutboxEvent) :
    (publish str json row).headers = (record str n row).headers.map (fun p => (p.1, p.2.toUTF8)) := by
  simp only [publish, record, List.map_append, List.map_map]
  rfl

/-- **The decoded headers are those of the row's record**, a later pair in the place of an earlier one of its key. -/
theorem decodeHeaders_publish (str : Json → String) (json : JsonText) (n : Nat) (row : OutboxEvent) :
    ∃ headers, decodeHeaders (publish str json row).headers = some headers ∧
      ∀ k, headers.get? k = Consumer.header (record str n row) k := by
  refine ⟨_, by rw [decodeHeaders, publish_headers str json n, decode_encoded]; rfl, fun k => ?_⟩
  rw [Dict.get?_update]
  exact Option.or_none

/-- A header of the row comes after the reserved ones. -/
theorem header_record (str : Json → String) (n : Nat) {row : OutboxEvent} (hkeys : (row.headers.map Prod.fst).Nodup)
    (k : String) : Consumer.header (record str n row) k = ((Dict.find k row.headers).map str).or
      (Dict.find k [("event_type", row.eventType), ("event_id", row.eventId.str)]) := by
  have hmapped : ((row.headers.map (fun p => (p.1, str p.2))).map Prod.fst).Nodup := by
    rw [List.map_map]
    exact hkeys
  unfold Consumer.header record
  dsimp only
  rw [List.reverse_append, Dict.find_append, Dict.find_reverse hmapped, Dict.find_map]
  rfl

/-! ## What comes back -/

theorem receive_publish (str : Json → String) {json : JsonText} {row : OutboxEvent}
    (hjson : json.loads (json.dumps (.obj row.payload)) = some (.obj row.payload))
    (hkeys : (row.headers.map Prod.fst).Nodup) :
    ∃ msg, receive json (publish str json row) = some msg ∧ msg.value = .obj row.payload ∧
      ∀ k, msg.headers.get? k = ((Dict.find k row.headers).map str).or
        (Dict.find k [("event_type", row.eventType), ("event_id", row.eventId.str)]) := by
  obtain ⟨headers, hheaders, hget⟩ := decodeHeaders_publish str json 0 row
  have hvalue : Json.ofBytes json.loads (publish str json row).value = some (.obj row.payload) := by
    unfold Json.ofBytes publish
    rw [Text.fromUTF8?_toUTF8]
    exact hjson
  refine ⟨⟨headers, .obj row.payload⟩, ?_, rfl, fun k => ?_⟩
  · unfold receive
    rw [hvalue, hheaders]
    rfl
  · rw [← header_record str 0 hkeys]
    exact hget k

/-- A reserved header is the row's own value unless the row has a header of that name. -/
theorem reserved_iff {str : Json → String} {headers : Json.Members} {k own : String} :
    ((Dict.find k headers).map str).or (some own) = some own ↔ ∀ v, Dict.find k headers = some v → str v = own := by
  cases Dict.find k headers with
  | none => simp
  | some v => simp

theorem row_round_trips_iff {str : Json → String} {json : JsonText} {row : OutboxEvent}
    (hjson : json.loads (json.dumps (.obj row.payload)) = some (.obj row.payload))
    (hkeys : (row.headers.map Prod.fst).Nodup) :
    RoundTrips str json row ↔ (∀ v, Dict.find "event_id" row.headers = some v → str v = row.eventId.str) ∧
      ∀ v, Dict.find "event_type" row.headers = some v → str v = row.eventType := by
  obtain ⟨msg, hmsg, hvalue, hget⟩ := receive_publish str hjson hkeys
  have hid : msg.eventId = ((Dict.find "event_id" row.headers).map str).or (some row.eventId.str) :=
    hget "event_id"
  have htype : msg.eventType =
      (((Dict.find "event_type" row.headers).map str).or (some row.eventType)).getD "unknown" :=
    congrArg (Option.getD · "unknown") (hget "event_type")
  have htype_iff : msg.eventType = row.eventType ↔
      ((Dict.find "event_type" row.headers).map str).or (some row.eventType) = some row.eventType := by
    rw [htype]
    cases Dict.find "event_type" row.headers <;> simp
  rw [← reserved_iff, ← reserved_iff, ← hid, ← htype_iff]
  constructor
  · rintro ⟨msg', hmsg', hid', htype', -⟩
    rw [hmsg] at hmsg'
    cases hmsg'
    exact ⟨hid', htype'⟩
  · rintro ⟨hid', htype'⟩
    refine ⟨msg, hmsg, hid', htype', ?_, hvalue⟩
    intro k v hmem
    rw [hget, Dict.find_of_mem hkeys hmem]
    rfl

/-- **Headers and payload come back** of whatever `enqueue_event` puts into the table exactly when the row's headers do
not rename its event: a header `event_id` or `event_type`, if there is one, reads as the row's own. -/
theorem round_trip_iff (str : Json → String) (json : JsonText) (aggregateType aggregateId eventType topic : String)
    (payload : Json.Members) (headers : Option (Dict String Json)) (eventId : Option Uuid) (uuid4 : Uuid)
    (hjson : json.loads (json.dumps (.obj payload)) = some (.obj payload)) :
    let row := enqueueEvent aggregateType aggregateId eventType topic payload (headers.map Dict.entries) eventId uuid4
    RoundTrips str json row ↔ (∀ v, Dict.find "event_id" row.headers = some v → str v = row.eventId.str) ∧
      ∀ v, Dict.find "event_type" row.headers = some v → str v = row.eventType := by
  apply row_round_trips_iff hjson
  cases headers with
  | none => exact List.nodup_nil
  | some d => exact d.nodup

def shipped : Uuid := ⟨"c2a9e7f4-1b38-4d60-8e5c-94f07b6d213a", by decide⟩

def shippedPayload : Json.Members := [("order_id", .str "order-001")]

/-- JSON as far as one payload goes. -/
def shippedJson : JsonText where
  dumps _ := "\x7b\"order_id\": \"order-001\"\x7d"
  loads text := if text = "\x7b\"order_id\": \"order-001\"\x7d" then some (.obj shippedPayload) else none

theorem shippedJson_undoes :
    shippedJson.loads (shippedJson.dumps (.obj shippedPayload)) = some (.obj shippedPayload) := by
  simp [shippedJson]

/-- `str` of a string. -/
def strOf : Json → String
  | .str s => s
  | _ => ""

/-- The headers that `create_order` gives. -/
def schemaVersion : Dict String Json := Dict.empty.set "schema_version" (.str "1")

theorem round_trip_shipped : RoundTrips strOf shippedJson
    (enqueueEvent "Order" "order-001" "OrderCreated" "order.events" shippedPayload (some schemaVersion.entries) none
      shipped) := by
  apply (round_trip_iff strOf shippedJson "Order" "order-001" "OrderCreated" "order.events" shippedPayload
    (some schemaVersion) none shipped shippedJson_undoes).2
  constructor
  · intro v hv
    cases hv
  · intro v hv
    cases hv

/-- A header `event_id` of the caller's own, such as a trace would have. -/
def tracedHeaders : Dict String Json := Dict.empty.set "event_id" (.str "trace-7")

/-- The consumer takes it for the event's id. -/
theorem traced_lost : ¬ RoundTrips strOf shippedJson
    (enqueueEvent "Order" "order-001" "OrderCreated" "order.events" shippedPayload (some tracedHeaders.entries) none
      shipped) := by
  intro h
  have hid := ((row_round_trips_iff shippedJson_undoes tracedHeaders.nodup).1 h).1 (.str "trace-7") rfl
  exact absurd hid (by decide)

end Outbox
end KafkaGuide
