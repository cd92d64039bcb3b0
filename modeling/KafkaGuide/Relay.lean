import KafkaGuide.Lib.Lts
import KafkaGuide.Outbox
/-!
# Relay — any number of outbox relays over one table and one log (`12-outbox-pattern/app/relay.py`)

`_tick` is one transaction at READ COMMITTED.  Its SELECT takes a snapshot of the unpublished rows, then goes through
them in id order (`visit`): a row locked by another tick is skipped, and the WHERE is rechecked on the latest committed
version of the row before it is locked.  The rows it returns are sent one by one, each `send_and_wait` acknowledged
before the next, then marked and the transaction commits.  An exception or a crash ends a tick at any step (`abort`):
the transaction is rolled back, while a record already handed to the producer may still reach the log.
-/
namespace KafkaGuide
namespace Outbox

structure Config where
  /-- `RELAY_BATCH_SIZE`. -/
  batchSize : Nat
  str : Json → String

/-- Where a relay is in its `_tick`. -/
inductive Tick where
  | idle
  | selecting (snapshot rows : List Nat)
  | publishing (rows publishedIds : List Nat) (sending : Option (Nat × Bool))
  | marked (publishedIds : List Nat)
deriving DecidableEq

/-- `wire` holds the records of aborted ticks that are not in the log yet, and `aborted` what each of those ticks had
sent: no relay reads either. -/
structure Sys where
  outbox : Nat → Option Row := fun _ => none
  nextId : Nat := 0
  txns : Nat → TxnState := fun _ => .active
  relays : Nat → Tick := fun _ => .idle
  log : List Record := []
  wire : List Record := []
  aborted : List (List Nat) := []

/-- The rows a tick has locked, in the order of its SELECT. -/
def Tick.rows : Tick → List Nat
  | .idle => []
  | .selecting _ rows => rows
  | .publishing rows publishedIds sending => publishedIds ++ (sending.map Prod.fst).toList ++ rows
  | .marked publishedIds => publishedIds

/-- The rows a tick has handed to the producer. -/
def Tick.sent : Tick → List Nat
  | .publishing _ publishedIds sending => publishedIds ++ (sending.map Prod.fst).toList
  | .marked publishedIds => publishedIds
  | _ => []

/-- The row whose record the producer has and the log does not. -/
def Tick.inFlight : Tick → Option Nat
  | .publishing _ _ (some (n, false)) => some n
  | _ => none

def Sys.setRelay (s : Sys) (r : Nat) (tick : Tick) : Sys :=
  { s with relays := fun r' => if r' = r then tick else s.relays r' }

def Sys.mapRows (s : Sys) (f : Nat → Row → Row) : Sys := { s with outbox := fun n => (s.outbox n).map (f n) }

def Sys.lock (s : Sys) (n r : Nat) : Sys :=
  s.mapRows (fun n' row => if n' = n then { row with lockedBy := some r } else row)

def Sys.unlock (s : Sys) (r : Nat) : Sys :=
  s.mapRows (fun _ row => if row.lockedBy = some r then { row with lockedBy := none } else row)

/-- `UPDATE outbox SET published_at = :now WHERE id = ANY(:ids)`, as its commit shows it. -/
def Sys.publish (s : Sys) (ids : List Nat) : Sys :=
  s.mapRows (fun n row => { row with published := row.published || decide (n ∈ ids) })

/-- The row is committed and has no `published_at`. -/
def Sys.unpublished (s : Sys) (n : Nat) : Bool :=
  match s.outbox n with
  | some row => decide (s.txns row.txn = .committed) && !row.published
  | none => false

/-- `event_id` is UNIQUE: taken by every row but those of a transaction that rolled back. -/
def Sys.hasEventId (s : Sys) (eventId : Uuid) : Bool :=
  (List.range s.nextId).any (fun n => match s.outbox n with
    | some row => decide (row.event.eventId = eventId ∧ s.txns row.txn ≠ .rolledBack)
    | none => false)

/-- A row of a snapshot: skipped when another tick holds its lock or its WHERE no longer holds, else locked. -/
def Sys.visit (s : Sys) (r n : Nat) (snapshot rows : List Nat) : Sys :=
  match s.outbox n with
  | some row =>
    if row.lockedBy = none ∧ row.published = false then
      (s.lock n r).setRelay r (.selecting snapshot (rows ++ [n]))
    else s.setRelay r (.selecting snapshot rows)
  | none => s.setRelay r (.selecting snapshot rows)

inductive Action where
  | enqueue (txn : Nat) (event : OutboxEvent)
  | commit (txn : Nat)
  | rollback (txn : Nat)
  | select (r : Nat)
  | visit (r : Nat)
  | selected (r : Nat)
  | send (r : Nat)
  | land (r : Nat)
  | ack (r : Nat)
  | mark (r : Nat)
  | commitTick (r : Nat)
  | abort (r : Nat)
  | landLate (i : Nat)

variable (cfg : Config)

def Sys.recordOf (s : Sys) (n : Nat) : Option Record := (s.outbox n).map (fun row => record cfg.str n row.event)

def step (s : Sys) : Action → Option Sys
  | .enqueue txn event =>
    if s.txns txn = .active ∧ s.hasEventId event.eventId = false then
      some { s with
        outbox := fun n => if n = s.nextId then some { event, txn } else s.outbox n
        nextId := s.nextId + 1 }
    else none
  | .commit txn =>
    if s.txns txn = .active then
      some { s with txns := fun t => if t = txn then .committed else s.txns t }
    else none
  | .rollback txn =>
    if s.txns txn = .active then
      some { s with txns := fun t => if t = txn then .rolledBack else s.txns t }
    else none
  | .select r =>
    match s.relays r with
    | .idle => some (s.setRelay r (.selecting ((List.range s.nextId).filter s.unpublished) []))
    | _ => none
  | .visit r =>
    match s.relays r with
    | .selecting (n :: snapshot) rows => if rows.length < cfg.batchSize then some (s.visit r n snapshot rows) else none
    | _ => none
  | .selected r =>
    match s.relays r with
    | .selecting snapshot rows =>
      if snapshot = [] ∨ cfg.batchSize ≤ rows.length then
        some (s.setRelay r (if rows = [] then .idle else .publishing rows [] none))
      else none
    | _ => none
  | .send r =>
    match s.relays r with
    | .publishing (n :: rows) publishedIds none => some (s.setRelay r (.publishing rows publishedIds (some (n, false))))
    | _ => none
  | .land r =>
    match s.relays r with
    | .publishing rows publishedIds (some (n, false)) =>
      some ({ s with log := s.log ++ (s.recordOf cfg n).toList }.setRelay r
        (.publishing rows publishedIds (some (n, true))))
    | _ => none
  | .ack r =>
    match s.relays r with
    | .publishing rows publishedIds (some (n, true)) =>
      some (s.setRelay r (.publishing rows (publishedIds ++ [n]) none))
    | _ => none
  | .mark r =>
    match s.relays r with
    | .publishing [] publishedIds none => some (s.setRelay r (.marked publishedIds))
    | _ => none
  | .commitTick r =>
    match s.relays r with
    | .marked publishedIds => some (((s.publish publishedIds).unlock r).setRelay r .idle)
    | _ => none
  | .abort r =>
    match s.relays r with
    | .idle => none
    | tick =>
      some ({ s with
        wire := s.wire ++ (tick.inFlight.bind (s.recordOf cfg)).toList
        aborted := s.aborted ++ [tick.sent] }.unlock r |>.setRelay r .idle)
  | .landLate i =>
    match s.wire[i]? with
    | some rec => some { s with log := s.log ++ [rec], wire := s.wire.eraseIdx i }
    | none => none

def lts : Lts Sys Action where
  init := {}
  step := step cfg

end Outbox
end KafkaGuide
