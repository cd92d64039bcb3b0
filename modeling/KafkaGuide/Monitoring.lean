import KafkaGuide.Lib.JsonCodec
/-!
# Monitoring — from `POST /messages` to the consumer's list (`10-monitoring-and-testing/app`)

The endpoint gives a request to the producer, which adds two fields to its value and sends it; the consumer's loop keeps
the last hundred messages of the subscribed topic.
-/
namespace KafkaGuide
namespace Monitoring

open JsonCodec (Numbers Obj Value)

variable {F : Type}

/-- `Settings`, with its defaults. -/
structure Settings where
  kafkaTopic : Text := .ofString "monitoring-topic"
  kafkaConsumerGroup : Text := .ofString "monitoring-group"
  appName : Text := .ofString "FastAPI Kafka Monitoring"

structure MessageRequest (F : Type) where
  key : Option Text := none
  value : Obj F
  topic : Option Text := none

structure MessageResponse where
  status : Text
  topic : Text
  partition : Nat
  offset : Nat
  timestamp : Text

/-- A record of a topic's log. -/
structure Record where
  topic : Text
  partition : Nat
  offset : Nat
  key : Option ByteArray
  value : Option ByteArray

/-! ## The producer -/

/-- What `send_message` raises. -/
inductive Fault where
  | notStarted
  | unicodeEncode (text : Text)
  | broker (error : Text)

/-- The text of the `UnicodeEncodeError` of a string: where its first run of surrogates is. -/
def unicodeEncodeError (t : Text) : Text :=
  let start := (t.points.takeWhile (·.char?.isSome)).length
  let run := (t.points.drop start).takeWhile (·.char?.isNone)
  let place := match run with
    | [p] => "character '\\u" ++ String.ofList (Nat.toDigits 16 p.val) ++ "' in position " ++ toString start
    | _ => "characters in position " ++ toString start ++ "-" ++ toString (start + run.length - 1)
  .ofString ("'utf-8' codec can't encode " ++ place ++ ": surrogates not allowed")

/-- `str(e)`. -/
def Fault.str : Fault → Text
  | .notStarted => .ofString "프로듀서가 시작되지 않았습니다"
  | .unicodeEncode text => unicodeEncodeError text
  | .broker error => error

/-- `t.encode("utf-8")`. -/
def encode (t : Text) : Except Fault ByteArray :=
  match t.encode with
  | some b => .ok b
  | none => .error (.unicodeEncode t)

/-- `lambda k: k.encode("utf-8") if k else None`. -/
def keySerializer : Option Text → Except Fault (Option ByteArray)
  | none => .ok none
  | some k => if k.points = [] then .ok none else (encode k).map some

/-- `lambda v: json.dumps(v, ensure_ascii=False).encode("utf-8")`. -/
def valueSerializer (num : Numbers F) (v : Value F) : Except Fault ByteArray :=
  encode (JsonCodec.dumps num v)

def timestampKey : Text := .ofString "timestamp"

def sourceKey : Text := .ofString "source"

/-- `{**message, "timestamp": now, "source": settings.app_name}`. -/
def enriched (settings : Settings) (now : Text) (message : Obj F) : Obj F :=
  (message.setStr timestampKey now).setStr sourceKey settings.appName

structure ProducerService where
  started : Bool := false
  sentCount : Nat := 0

/-- `KafkaProducerService.send_message`: the broker answers with an error or with the partition and the offset of the
record. -/
def ProducerService.sendMessage (p : ProducerService) (settings : Settings) (num : Numbers F)
    (broker : Except Text (Nat × Nat)) (now topic : Text) (message : Obj F) (key : Option Text) :
    Except Fault (Record × MessageResponse) × ProducerService :=
  if p.started then
    match keySerializer key, valueSerializer num (enriched settings now message).toValue, broker with
    | .error e, _, _ => (.error e, p)
    | _, .error e, _ => (.error e, p)
    | _, _, .error e => (.error (.broker e), p)
    | .ok key, .ok value, .ok (partition, offset) =>
      (.ok (⟨topic, partition, offset, key, some value⟩, ⟨.ofString "sent", topic, partition, offset, now⟩),
        { p with sentCount := p.sentCount + 1 })
  else (.error .notStarted, p)

/-- `request.topic or settings.kafka_topic`. -/
def MessageRequest.topicOr (request : MessageRequest F) (settings : Settings) : Text :=
  match request.topic with
  | some t => if t.points = [] then settings.kafkaTopic else t
  | none => settings.kafkaTopic

structure HttpException where
  statusCode : Nat
  detail : Text

/-- `POST /messages`. -/
def sendMessage (settings : Settings) (num : Numbers F) (broker : Except Text (Nat × Nat)) (now : Text)
    (request : MessageRequest F) (p : ProducerService) :
    Except HttpException (Record × MessageResponse) × ProducerService :=
  match p.sendMessage settings num broker now (request.topicOr settings) request.value request.key with
  | (.ok sent, p) => (.ok sent, p)
  | (.error e, p) => (.error ⟨500, ⟨(Text.ofString "메시지 전송 실패: ").points ++ e.str.points⟩⟩, p)

/-! ## The consumer -/

/-- What the loop stores of a message. -/
structure Consumed (F : Type) where
  topic : Text
  partition : Nat
  offset : Nat
  key : Option Text
  value : Value F

/-- `msg.key.decode("utf-8") if msg.key else None`; `none` where it raises. -/
def decodeKey : Option ByteArray → Option (Option Text)
  | none => some none
  | some k => if k.size = 0 then some none else (Text.decode k).map some

/-- `lambda v: json.loads(v.decode("utf-8"))`; a record without a value has no `decode`. -/
def valueDeserializer (num : Numbers F) (v : Option ByteArray) : Option (Value F) :=
  v.bind fun b => (Text.decode b).bind (JsonCodec.loads num)

def parse (num : Numbers F) (msg : Record) : Option (Consumed F) :=
  (valueDeserializer num msg.value).bind fun value =>
    (decodeKey msg.key).map fun key => ⟨msg.topic, msg.partition, msg.offset, key, value⟩

structure ConsumerService (F : Type) where
  messages : List (Consumed F) := []
  consumedCount : Nat := 0
  isRunning : Bool := false

/-- The last hundred messages with `consumed` after them. -/
def keepLast (messages : List (Consumed F)) (consumed : Consumed F) : List (Consumed F) :=
  let messages := messages ++ [consumed]
  if messages.length > 100 then messages.drop (messages.length - 100) else messages

/-- One round of `_consume_loop`, given the next record of the log: the iteration passes over other topics, and what is
raised ends the loop. -/
def ConsumerService.consume (settings : Settings) (num : Numbers F) (c : ConsumerService F) (msg : Record) :
    ConsumerService F :=
  if c.isRunning ∧ msg.topic = settings.kafkaTopic then
    match parse num msg with
    | some consumed => { c with messages := keepLast c.messages consumed, consumedCount := c.consumedCount + 1 }
    | none => { c with isRunning := false }
  else c

theorem getLast?_keepLast (messages : List (Consumed F)) (consumed : Consumed F) :
    (keepLast messages consumed).getLast? = some consumed := by
  unfold keepLast
  dsimp only
  split
  · rename_i h
    rw [List.getLast?_drop, if_neg (by omega), List.getLast?_concat]
  · exact List.getLast?_concat

theorem consume_parsed {settings : Settings} {num : Numbers F} {c : ConsumerService F} {msg : Record}
    {consumed : Consumed F} (hrun : c.isRunning = true) (htopic : msg.topic = settings.kafkaTopic)
    (hparse : parse num msg = some consumed) :
    c.consume settings num msg =
      { c with messages := keepLast c.messages consumed, consumedCount := c.consumedCount + 1 } := by
  rw [ConsumerService.consume, if_pos ⟨hrun, htopic⟩, hparse]

/-! ## A message on its way -/

variable {settings : Settings} {num : Numbers F} {broker : Except Text (Nat × Nat)} {now : Text}
  {request : MessageRequest F} {p : ProducerService} {record : Record} {response : MessageResponse}

/-- The key of a record as the loop has it: an empty one is none. -/
def keyRead (key : Option Text) : Option Text := if key = some ⟨[]⟩ then none else key

theorem encode_ok {t : Text} {b : ByteArray} (h : encode t = .ok b) : t.encode = some b := by
  unfold encode at h
  split at h
  · cases h
    assumption
  · cases h

/-- Only the empty string has no bytes. -/
theorem points_of_size {t : Text} {b : ByteArray} (h : t.encode = some b) (hsize : b.size = 0) : t.points = [] := by
  have hempty : b = ByteArray.empty := ByteArray.size_eq_zero_iff.1 hsize
  have hdecode := Text.decode_encode h
  rw [hempty] at hdecode
  cases hdecode
  rfl

theorem decodeKey_serialized {key : Option Text} {k : Option ByteArray} (h : keySerializer key = .ok k) :
    decodeKey k = some (keyRead key) := by
  cases key with
  | none =>
    cases h
    rfl
  | some t =>
    rw [keySerializer] at h
    split at h
    · rename_i hnil
      have ht : t = ⟨[]⟩ := Text.ext hnil
      cases h
      rw [ht]
      rfl
    · rename_i hne
      cases hb : encode t with
      | error e =>
        rw [hb] at h
        cases h
      | ok b =>
        rw [hb] at h
        cases h
        have hencode := encode_ok hb
        have hsize : ¬ b.size = 0 := fun hsize => hne (points_of_size hencode hsize)
        have hkey : some t ≠ some ⟨[]⟩ := fun heq => hne (congrArg Text.points (Option.some.inj heq))
        rw [decodeKey, if_neg hsize, Text.decode_encode hencode, keyRead, if_neg hkey]
        rfl

theorem valueDeserializer_serialized {o : Obj F} {b : ByteArray}
    (h : valueSerializer num o.toValue = .ok b) : valueDeserializer num (some b) = some o.toValue := by
  change (Text.decode b).bind (JsonCodec.loads num) = _
  rw [Text.decode_encode (encode_ok h), Option.bind_some, JsonCodec.loads_dumps num o.distinct_toValue]

theorem producer_sendMessage_ok {topic : Text} {message : Obj F} {key : Option Text}
    (h : (p.sendMessage settings num broker now topic message key).1 = .ok (record, response)) :
    ∃ k value, keySerializer key = .ok k ∧ valueSerializer num (enriched settings now message).toValue = .ok value ∧
      record = ⟨response.topic, response.partition, response.offset, k, some value⟩ := by
  unfold ProducerService.sendMessage at h
  split at h
  · split at h
    · cases h
    · cases h
    · cases h
    · rename_i hkey hvalue
      cases h
      exact ⟨_, _, hkey, hvalue, rfl⟩
  · cases h

/-- What the loop stores of a request that is sent. -/
def stored (settings : Settings) (now : Text) (request : MessageRequest F) (response : MessageResponse) :
    Consumed F :=
  ⟨response.topic, response.partition, response.offset, keyRead request.key,
    (enriched settings now request.value).toValue⟩

/-- **The loop reads the enriched value** of what is sent, and its key unless that is empty. -/
theorem parse_sent (h : (sendMessage settings num broker now request p).1 = .ok (record, response)) :
    record.topic = response.topic ∧ parse num record = some (stored settings now request response) := by
  have hsent : (p.sendMessage settings num broker now (request.topicOr settings) request.value request.key).1 =
      .ok (record, response) := by
    unfold sendMessage at h
    split at h
    · rename_i heq
      rw [heq]
      cases h
      rfl
    · cases h
  obtain ⟨k, value, hkey, hvalue, rfl⟩ := producer_sendMessage_ok hsent
  refine ⟨rfl, ?_⟩
  rw [parse, valueDeserializer_serialized hvalue, Option.bind_some, decodeKey_serialized hkey]
  rfl

/-! ## What arrives -/

/-- **The consumer has what the producer was given**: its key, each of its fields, and nothing else but metadata. -/
structure Arrived (request : MessageRequest F) (entry : Consumed F) : Prop where
  key : entry.key = request.key
  unchanged : ∀ k v, request.value.members.get? k = some v → entry.value.get? k = some v
  added : ∀ k, request.value.members.get? k = none → k ≠ timestampKey → k ≠ sourceKey → entry.value.get? k = none

theorem get?_enriched (settings : Settings) (now : Text) (message : Obj F) (k : Text) :
    (enriched settings now message).toValue.get? k = if k = sourceKey then some (.str settings.appName)
      else if k = timestampKey then some (.str now) else message.members.get? k := by
  change ((message.members.set timestampKey (.str now)).set sourceKey (.str settings.appName)).get? k = _
  rw [Dict.get?_set, Dict.get?_set]

theorem sourceKey_ne : sourceKey ≠ timestampKey := by decide

/-- The metadata do not change a field exactly when it has their value already. -/
theorem unchanged_iff (settings : Settings) (now : Text) (message : Obj F) :
    (∀ k v, message.members.get? k = some v → (enriched settings now message).toValue.get? k = some v) ↔
      (∀ v, message.members.get? timestampKey = some v → v = .str now) ∧
        ∀ v, message.members.get? sourceKey = some v → v = .str settings.appName := by
  constructor
  · intro h
    constructor
    · intro v hv
      have := h timestampKey v hv
      rw [get?_enriched, if_neg sourceKey_ne.symm, if_pos rfl, Option.some.injEq] at this
      exact this.symm
    · intro v hv
      have := h sourceKey v hv
      rw [get?_enriched, if_pos rfl, Option.some.injEq] at this
      exact this.symm
  · rintro ⟨htimestamp, hsource⟩ k v hv
    rw [get?_enriched]
    split
    · rename_i hk
      rw [hsource v (hk ▸ hv)]
    · split
      · rename_i hk
        rw [htimestamp v (hk ▸ hv)]
      · exact hv

theorem keyRead_iff (key : Option Text) : keyRead key = key ↔ key ≠ some ⟨[]⟩ := by
  unfold keyRead
  split
  · rename_i h
    simp [h]
  · rename_i h
    simp [h]

theorem arrived_stored_iff (settings : Settings) (now : Text) (request : MessageRequest F)
    (response : MessageResponse) : Arrived request (stored settings now request response) ↔
      request.key ≠ some ⟨[]⟩ ∧ (∀ v, request.value.members.get? timestampKey = some v → v = .str now) ∧
        ∀ v, request.value.members.get? sourceKey = some v → v = .str settings.appName := by
  rw [← unchanged_iff, ← keyRead_iff]
  constructor
  · exact fun h => ⟨h.key, h.unchanged⟩
  · rintro ⟨hkey, hunchanged⟩
    refine ⟨hkey, hunchanged, fun k hk htimestamp hsource => ?_⟩
    change (enriched settings now request.value).toValue.get? k = none
    rw [get?_enriched, if_neg hsource, if_neg htimestamp, hk]

theorem consume_sent {c : ConsumerService F}
    (hsent : (sendMessage settings num broker now request p).1 = .ok (record, response))
    (htopic : response.topic = settings.kafkaTopic) (hrun : c.isRunning = true) :
    c.consume settings num record = { c with
      messages := keepLast c.messages (stored settings now request response)
      consumedCount := c.consumedCount + 1 } := by
  obtain ⟨hrecord, hparse⟩ := parse_sent hsent
  exact consume_parsed hrun (hrecord.trans htopic) hparse

/-- **What arrives is what was given** exactly when the key is not empty and the value has no `timestamp` and no
`source` of its own, or has the producer's. -/
theorem arrived_iff (settings : Settings) (num : Numbers F) (broker : Except Text (Nat × Nat)) (now : Text)
    (request : MessageRequest F) (p : ProducerService) (record : Record) (response : MessageResponse)
    (c : ConsumerService F) (hsent : (sendMessage settings num broker now request p).1 = .ok (record, response))
    (htopic : response.topic = settings.kafkaTopic) (hrun : c.isRunning = true) :
    ∃ entry, (c.consume settings num record).messages.getLast? = some entry ∧
      (c.consume settings num record).consumedCount = c.consumedCount + 1 ∧ entry.topic = response.topic ∧
      entry.partition = response.partition ∧ entry.offset = response.offset ∧
      (Arrived request entry ↔ request.key ≠ some ⟨[]⟩ ∧
        (∀ v, request.value.members.get? timestampKey = some v → v = .str now) ∧
        ∀ v, request.value.members.get? sourceKey = some v → v = .str settings.appName) := by
  refine ⟨stored settings now request response, ?_, ?_, rfl, rfl, rfl, arrived_stored_iff settings now request response⟩
  · rw [consume_sent hsent htopic hrun]
    exact getLast?_keepLast _ _
  · rw [consume_sent hsent htopic hrun]

/-! ### Two requests -/

def started : ProducerService := { started := true }

def sensorKey : Text := .ofString "sensor-1"

def aug1 : Text := .ofString "2025-08-01T09:00:00+00:00"

/-- A request to the subscribed topic with one field in its value. -/
def fieldRequest (k : Text) : MessageRequest ℤ where
  key := some sensorKey
  value := Obj.empty.setStr k sensorKey

/-- The answer to the first message of a topic. -/
def firstResponse : MessageResponse := ⟨.ofString "sent", ({} : Settings).kafkaTopic, 0, 0, aug1⟩

theorem sent_first {k : Text} {text : String}
    (htext : JsonCodec.dumps JsonCodec.integers (enriched {} aug1 (fieldRequest k).value).toValue = .ofString text) :
    (sendMessage {} JsonCodec.integers (.ok (0, 0)) aug1 (fieldRequest k) started).1 =
      .ok (⟨({} : Settings).kafkaTopic, 0, 0, some "sensor-1".toUTF8, some text.toUTF8⟩, firstResponse) := by
  have hkey : encode sensorKey = .ok "sensor-1".toUTF8 := by
    rw [encode, sensorKey, Text.encode_ofString]
  have hvalue : valueSerializer JsonCodec.integers (enriched {} aug1 (fieldRequest k).value).toValue =
      .ok text.toUTF8 := by
    rw [valueSerializer, htext, encode, Text.encode_ofString]
  have hserialized : keySerializer (fieldRequest k).key = .ok (some "sensor-1".toUTF8) := by
    change (if sensorKey.points = [] then Except.ok none else (encode sensorKey).map some) = _
    rw [if_neg (by decide), hkey]
    rfl
  unfold sendMessage ProducerService.sendMessage
  rw [hserialized, hvalue]
  rfl

def contentText : String :=
  "\x7b\"content\": \"sensor-1\", \"timestamp\": \"2025-08-01T09:00:00+00:00\", " ++
    "\"source\": \"FastAPI Kafka Monitoring\"\x7d"

theorem arrived_content : ∃ record entry,
    (sendMessage {} JsonCodec.integers (.ok (0, 0)) aug1 (fieldRequest (.ofString "content")) started).1 =
      .ok (record, firstResponse) ∧
    ((⟨[], 0, true⟩ : ConsumerService ℤ).consume {} JsonCodec.integers record).messages.getLast? = some entry ∧
    Arrived (fieldRequest (.ofString "content")) entry := by
  have htext : JsonCodec.dumps JsonCodec.integers
      (enriched {} aug1 (fieldRequest (.ofString "content")).value).toValue = .ofString contentText := by
    decide +kernel
  have hsent := sent_first htext
  obtain ⟨entry, hentry, -, -, -, -, hiff⟩ := arrived_iff {} JsonCodec.integers (.ok (0, 0)) aug1
    (fieldRequest (.ofString "content")) started _ firstResponse ⟨[], 0, true⟩ hsent rfl rfl
  refine ⟨_, entry, hsent, hentry, hiff.2 ⟨by decide, ?_, ?_⟩⟩
  · intro v hv
    cases hv
  · intro v hv
    cases hv

/-- A value that says itself where it is from. -/
def sourcedText : String :=
  "\x7b\"source\": \"FastAPI Kafka Monitoring\", \"timestamp\": \"2025-08-01T09:00:00+00:00\"\x7d"

/-- Its `source` is replaced. -/
theorem source_replaced : ∃ record entry,
    (sendMessage {} JsonCodec.integers (.ok (0, 0)) aug1 (fieldRequest sourceKey) started).1 =
      .ok (record, firstResponse) ∧ firstResponse.topic = ({} : Settings).kafkaTopic ∧
    ((⟨[], 0, true⟩ : ConsumerService ℤ).consume {} JsonCodec.integers record).messages = [entry] ∧
    ¬ Arrived (fieldRequest sourceKey) entry := by
  have htext : JsonCodec.dumps JsonCodec.integers (enriched {} aug1 (fieldRequest sourceKey).value).toValue =
      .ofString sourcedText := by
    decide +kernel
  refine ⟨_, stored {} aug1 (fieldRequest sourceKey) firstResponse, sent_first htext, rfl, ?_, ?_⟩
  · rw [consume_sent (sent_first htext) rfl rfl]
    rfl
  · intro h
    have hsource := ((arrived_stored_iff _ _ _ _).1 h).2.2 (.str sensorKey) rfl
    exact absurd (JsonCodec.Value.str.inj hsource) (by decide)

end Monitoring
end KafkaGuide
