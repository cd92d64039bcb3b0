import KafkaGuide.CqrsHistory
import KafkaGuide.Lib.Window
import KafkaGuide.Monitoring
/-!
# RecentItems — the newest messages and events (`10-monitoring-and-testing/app/main.py`,
`11-multi-service-architecture/query-service/app/main.py`)

`GET /messages` and `GET /events` answer with the end of a list, the slice `xs[-limit:]`.  They honour every limit but
zero, for which the slice is the whole list (`recent_items_iff`).
-/
namespace KafkaGuide

/-! ## The messages of chapter 10 -/

namespace Monitoring

open JsonCodec (Numbers)

variable {F : Type}

/-- The answer of GET /messages. -/
structure RecentMessages (F : Type) where
  count : Nat
  totalConsumed : Nat
  messages : List (Consumed F)

/-- `get_messages`. -/
def getMessages (c : ConsumerService F) (limit : Int) : RecentMessages F :=
  let messages := Window.sliceFrom c.messages (-limit)
  { count := messages.length
    totalConsumed := c.consumedCount
    messages }

/-- The service after `start`, and its loop over the records of the log. -/
def consumeLoop (settings : Settings) (num : Numbers F) (records : List Record) : ConsumerService F :=
  records.foldl (ConsumerService.consume settings num) { isRunning := true }

/-- The messages consumed: those of the subscribed topic, up to the first that raises. -/
def received (settings : Settings) (num : Numbers F) : List Record → List (Consumed F)
  | [] => []
  | msg :: records =>
    if msg.topic = settings.kafkaTopic then
      match parse num msg with
      | some consumed => consumed :: received settings num records
      | none => []
    else received settings num records

variable (settings : Settings) (num : Numbers F)

/-- A loop that has ended stores nothing. -/
theorem consume_stopped {c : ConsumerService F} (h : c.isRunning = false) (records : List Record) :
    records.foldl (ConsumerService.consume settings num) c = c := by
  induction records with
  | nil => rfl
  | cons msg records ih =>
    have hsame : c.consume settings num msg = c := by
      rw [ConsumerService.consume, if_neg (by simp [h])]
    rw [List.foldl_cons, hsame, ih]

/-- **A run of the loop** stores and counts what is consumed, one message after the other. -/
theorem consume_run : ∀ (records : List Record) {c : ConsumerService F}, c.isRunning = true →
    (records.foldl (ConsumerService.consume settings num) c).messages =
        (received settings num records).foldl (Window.push 100) c.messages ∧
      (records.foldl (ConsumerService.consume settings num) c).consumedCount =
        c.consumedCount + (received settings num records).length
  | [], _, _ => ⟨rfl, rfl⟩
  | msg :: records, c, hrun => by
    rw [List.foldl_cons, received]
    split
    · rename_i htopic
      cases hparse : parse num msg with
      | none =>
        have hstop : c.consume settings num msg = { c with isRunning := false } := by
          rw [ConsumerService.consume, if_pos ⟨hrun, htopic⟩, hparse]
        rw [hstop, consume_stopped settings num rfl]
        exact ⟨rfl, rfl⟩
      | some consumed =>
        rw [consume_parsed hrun htopic hparse]
        obtain ⟨hmessages, hcount⟩ := consume_run records
          (c := { c with messages := keepLast c.messages consumed, consumedCount := c.consumedCount + 1 }) hrun
        refine ⟨hmessages, hcount.trans ?_⟩
        rw [List.length_cons]
        dsimp only
        omega
    · rename_i htopic
      have hsame : c.consume settings num msg = c := if_neg fun h => htopic h.2
      rw [hsame]
      exact consume_run records hrun

/-- **The store is a window on the messages**: the last hundred of them, and the count of all. -/
theorem consumeLoop_eq (records : List Record) :
    (consumeLoop settings num records).messages = (received settings num records).rtake 100 ∧
      (consumeLoop settings num records).consumedCount = (received settings num records).length := by
  obtain ⟨hmessages, hcount⟩ := consume_run settings num records (c := { isRunning := true }) rfl
  refine ⟨hmessages.trans ?_, hcount.trans (Nat.zero_add _)⟩
  exact Window.window_foldl 100 (received settings num records) []

/-- **The answer honours its limit**: it has the newest messages in the order of their arrival, as many as the limit
and the store allow, and counts all that were consumed. -/
structure RecentMessages.Honours (limit : Nat) (consumed : List (Consumed F)) (answer : RecentMessages F) : Prop where
  newest : answer.messages = consumed.rtake (min limit (min consumed.length 100))
  total : answer.totalConsumed = consumed.length
  within : answer.messages.length ≤ limit

theorem getMessages_honours_iff (records : List Record) (limit : Nat) :
    (getMessages (consumeLoop settings num records) limit).Honours limit (received settings num records) ↔
      limit ≠ 0 ∨ received settings num records = [] := by
  obtain ⟨hmessages, hcount⟩ := consumeLoop_eq settings num records
  have hslice := Window.sliceFrom_neg_iff ((received settings num records).rtake 100) limit
  rw [Window.rtake_rtake, Window.rtake_eq_nil_iff (by decide)] at hslice
  have hmin : (received settings num records).rtake (min limit (min (received settings num records).length 100)) =
      (received settings num records).rtake (min limit 100) := by
    rw [Nat.min_comm _ 100, ← Nat.min_assoc, Window.rtake_min_length]
  rw [← hslice]
  constructor
  · intro h
    have hnewest := h.newest
    rw [hmin] at hnewest
    rw [← hnewest, ← hmessages]
    rfl
  · intro h
    have hnewest : (getMessages (consumeLoop settings num records) limit).messages =
        (received settings num records).rtake (min limit 100) := by
      rw [← h, ← hmessages]
      rfl
    refine ⟨hnewest.trans hmin.symm, hcount, ?_⟩
    rw [hnewest, Window.length_rtake]
    omega

end Monitoring

/-! ## The events of chapter 11 -/

namespace Cqrs

/-- The answer of GET /events. -/
structure RecentEvents where
  totalEvents : Nat
  showing : Nat
  events : List LogEntry

/-- `list_events`. -/
def listEvents (st : ReadStore) (limit : Int) : RecentEvents :=
  let recentEvents := if limit < st.eventLog.length then Window.sliceFrom st.eventLog (-limit) else st.eventLog
  { totalEvents := st.eventLog.length
    showing := recentEvents.length
    events := recentEvents.reverse }

/-- A message as query-service gets it: its decoded value, its topic, and the clock. -/
structure Message where
  value : Json
  topic : String
  now : String

/-- `start_consumer`'s loop over a list of messages. -/
def consumeAll (st : ReadStore) (messages : List Message) : ReadStore :=
  messages.foldl (fun st m => consumeEvent st m.value m.topic m.now) st

/-- A message with an event; any other value has no `get`. -/
def Message.received? (m : Message) : Option Received :=
  match m.value with
  | .obj event => some ⟨event, m.topic, m.now⟩
  | _ => none

/-- The log after a list of messages: an entry for each event, in the order of their arrival. -/
theorem consumeAll_eventLog (st : ReadStore) (messages : List Message) : (consumeAll st messages).eventLog =
    st.eventLog ++ (messages.filterMap Message.received?).map Received.entry := by
  induction messages generalizing st with
  | nil => exact (List.append_nil _).symm
  | cons m messages ih =>
    change (consumeAll (consumeEvent st m.value m.topic m.now) messages).eventLog = _
    rw [ih]
    obtain ⟨value, topic, now⟩ := m
    cases value with
    | obj event =>
      change (processEvent st event topic now).1.eventLog ++ _ = _
      rw [processEvent_eventLog st ⟨event, topic, now⟩, List.append_assoc]
      rfl
    | null | bool | num | str | arr => rfl

/-- The events consumed of a list of messages, as they are logged. -/
def logged (messages : List Message) : List LogEntry := (messages.filterMap Message.received?).map Received.entry

/-- **The answer honours its limit**: it has the newest events, the last to arrive first, as many as the limit allows,
and counts all that were consumed. -/
structure RecentEvents.Honours (limit : Nat) (consumed : List LogEntry) (answer : RecentEvents) : Prop where
  newest : answer.events = (consumed.rtake (min limit consumed.length)).reverse
  total : answer.totalEvents = consumed.length
  within : answer.events.length ≤ limit

/-- The condition spares the slice only where it takes all. -/
theorem recent_iff (log : List LogEntry) (limit : Nat) :
    (if (limit : Int) < log.length then Window.sliceFrom log (-limit) else log) = log.rtake limit ↔
      limit ≠ 0 ∨ log = [] := by
  split
  · exact Window.sliceFrom_neg_iff log limit
  · rename_i h
    have hle : log.length ≤ limit := by omega
    refine iff_of_true (Window.rtake_of_length_le hle).symm ?_
    by_cases hlimit : limit = 0
    · exact .inr (List.length_eq_zero_iff.1 (by omega))
    · exact .inl hlimit

theorem listEvents_honours_iff (messages : List Message) (limit : Nat) :
    (listEvents (consumeAll {} messages) limit).Honours limit (logged messages) ↔
      limit ≠ 0 ∨ logged messages = [] := by
  have hlog : (consumeAll {} messages).eventLog = logged messages := consumeAll_eventLog {} messages
  have hevents : (listEvents (consumeAll {} messages) limit).events =
      (if (limit : Int) < (logged messages).length then Window.sliceFrom (logged messages) (-limit)
        else logged messages).reverse := by
    rw [← hlog]
    rfl
  rw [← recent_iff]
  constructor
  · intro h
    have hnewest := h.newest
    rw [hevents, Window.rtake_min_length] at hnewest
    exact List.reverse_injective hnewest
  · intro h
    rw [h] at hevents
    refine ⟨?_, congrArg List.length hlog, ?_⟩
    · rw [hevents, Window.rtake_min_length]
    · rw [hevents, List.length_reverse, Window.length_rtake]
      omega

end Cqrs

/-! ## Both -/

open Monitoring (consumeLoop getMessages received)
open Cqrs (consumeAll listEvents logged)

/-- **When the two endpoints honour their limit**: for every limit but zero, and for zero as long as nothing has been
consumed. -/
theorem recent_items_iff {F : Type} (settings : Monitoring.Settings) (num : JsonCodec.Numbers F)
    (records : List Monitoring.Record) (messages : List Cqrs.Message) (limit : Nat) :
    ((getMessages (consumeLoop settings num records) limit).Honours limit (received settings num records) ↔
      limit ≠ 0 ∨ received settings num records = []) ∧
    ((listEvents (consumeAll {} messages) limit).Honours limit (logged messages) ↔
      limit ≠ 0 ∨ logged messages = []) :=
  ⟨Monitoring.getMessages_honours_iff settings num records limit, Cqrs.listEvents_honours_iff messages limit⟩

/-- A record of the subscribed topic, with an empty object. -/
def emptyRecord : Monitoring.Record := ⟨({} : Monitoring.Settings).kafkaTopic, 0, 0, none, some "\x7b\x7d".toUTF8⟩

def emptyConsumed : Monitoring.Consumed ℤ :=
  ⟨({} : Monitoring.Settings).kafkaTopic, 0, 0, none, JsonCodec.Obj.empty.toValue⟩

theorem parse_emptyRecord : Monitoring.parse JsonCodec.integers emptyRecord = some emptyConsumed := by
  have hvalue : Monitoring.valueSerializer JsonCodec.integers JsonCodec.Obj.empty.toValue =
      .ok "\x7b\x7d".toUTF8 := by
    have htext : JsonCodec.dumps JsonCodec.integers JsonCodec.Obj.empty.toValue = .ofString "\x7b\x7d" := by
      decide +kernel
    rw [Monitoring.valueSerializer, htext, Monitoring.encode, Text.encode_ofString]
  rw [Monitoring.parse, emptyRecord, Monitoring.valueDeserializer_serialized hvalue]
  rfl

/-- `limit=0` gives the one message there is, and the one event. -/
theorem zero_limit_shows_all :
    (getMessages (consumeLoop {} JsonCodec.integers [emptyRecord]) 0).messages = [emptyConsumed] ∧
    ¬ (getMessages (consumeLoop {} JsonCodec.integers [emptyRecord]) 0).Honours 0
      (received {} JsonCodec.integers [emptyRecord]) ∧
    (listEvents (consumeAll {} [⟨.obj [], "order.created", ""⟩]) 0).showing = 1 ∧
    ¬ (listEvents (consumeAll {} [⟨.obj [], "order.created", ""⟩]) 0).Honours 0
      (logged [⟨.obj [], "order.created", ""⟩]) := by
  have hmessages : (getMessages (consumeLoop {} JsonCodec.integers [emptyRecord]) 0).messages = [emptyConsumed] := by
    rw [consumeLoop, List.foldl_cons, List.foldl_nil, Monitoring.consume_parsed rfl rfl parse_emptyRecord]
    rfl
  refine ⟨hmessages, fun h => ?_, rfl, fun h => ?_⟩
  · have hwithin := h.within
    rw [hmessages] at hwithin
    exact absurd hwithin (by decide)
  · exact absurd h.within (by decide)

end KafkaGuide
