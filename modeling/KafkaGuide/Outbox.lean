import KafkaGuide.Lib.Json
/-!
# Outbox — the outbox table and the Kafka record of a row (`12-outbox-pattern`)

`enqueue_event` adds an event to the caller's transaction, and `_publish` makes the record the relay sends.  A row's id
is drawn from the sequence of the BIGSERIAL at its INSERT; its transaction may commit later or never.  Serialized
values are left as the JSON they decode to.
-/
namespace KafkaGuide
namespace Outbox

/-- What `enqueue_event` writes of an event. -/
structure OutboxEvent where
  eventId : Uuid
  aggregateType : String
  aggregateId : String
  eventType : String
  topic : String
  payload : Json.Members
  headers : Json.Members

/-- `enqueue_event`: `uuid4` is the id drawn when the caller gives none. -/
def enqueueEvent (aggregateType aggregateId eventType topic : String) (payload : Json.Members)
    (headers : Option Json.Members) (eventId : Option Uuid) (uuid4 : Uuid) : OutboxEvent where
  eventId := eventId.getD uuid4
  aggregateType
  aggregateId
  eventType
  topic
  payload
  headers := headers.getD []

inductive TxnState where
  | active
  | committed
  | rolledBack
deriving DecidableEq, Repr

/-- A row of the table: its transaction, whether `published_at` is set, and the tick that holds its row lock. -/
structure Row where
  event : OutboxEvent
  txn : Nat
  published : Bool := false
  lockedBy : Option Nat := none

/-- A Kafka record.  `row` is the id of the row it was built from: no consumer reads it. -/
structure Record where
  row : Nat
  topic : String
  key : String
  value : Json.Members
  headers : List (String × String)

/-- `_publish`: the record of a row, `str` being the builtin of that name. -/
def record (str : Json → String) (n : Nat) (row : OutboxEvent) : Record where
  row := n
  topic := row.topic
  key := row.aggregateId
  value := row.payload
  headers := [("event_id", row.eventId.str), ("event_type", row.eventType)] ++
    row.headers.map (fun p => (p.1, str p.2))

/-- One partition of a topic, `part` being the producer's partitioner: the records of one key are in one of them. -/
def partitionLog (part : String → Nat) (log : List Record) (topic : String) (p : Nat) : List Record :=
  log.filter (fun rec => rec.topic = topic ∧ part rec.key = p)

end Outbox
end KafkaGuide
