import Mathlib.Algebra.GroupWithZero.Nat
import KafkaGuide.Lib.Lts
import KafkaGuide.Outbox
/-!
# Consumer — the idempotent consumer (`12-outbox-pattern/app/consumer.py`)

One `consume()` process: `getmany` takes records of some partitions from the fetch positions, the nested loops then go
through the messages of each partition and commit its offset after the last.  `_mark_processed` inserts the event id in
a transaction of its own, so the row is there before the business step runs, and stays when the process dies in
between.  What the group shares outlives the process: `processed_events` and the committed offsets.
-/
namespace KafkaGuide
namespace Consumer

open Outbox (Record)

/-- `{k: v for k, v in msg.headers}.get(k)`: a later header replaces an earlier one. -/
def header (rec : Record) (k : String) : Option String := Dict.find k rec.headers.reverse

/-- What is left of the loops over a batch: a message, or the `commit` after the messages of a partition. -/
inductive Item where
  | msg (tp offset : Nat)
  | commit (tp next : Nat)
deriving DecidableEq

/-- A running process; `marked` is the event whose `_mark_processed` has returned True and whose business step is
next. -/
structure Process where
  position : Nat → Nat
  todo : List Item := []
  marked : Option (Uuid × Record) := none

/-- The offsets and the table the consumers of the group share, and the business steps that have run. -/
structure Group where
  committed : Nat → Nat := fun _ => 0
  processed : List Uuid := []
  executed : List (Uuid × Record) := []

/-- The loop over one partition's `n` messages from offset `p`; `if messages` guards the commit. -/
def messages (tp p n : Nat) : List Item :=
  (List.range' p n).map (.msg tp) ++ if n = 0 then [] else [.commit tp (p + n)]

inductive Action where
  | start
  | seek (tp : Nat)
  | getmany (batch : List (Nat × Nat))
  | mark
  | business
  | commit
  | crash
deriving DecidableEq

variable (parse : String → Option Uuid) (log : Nat → List Record)

/-- The message at the head of the loop: without an event id, or with one already processed, it is skipped; a text that
is no UUID makes the INSERT raise, which ends the process. -/
def markNext (g : Group) (c : Process) (todo : List Item) (rec : Record) : Group × Option Process :=
  match header rec "event_id" with
  | none => (g, some { c with todo })
  | some text =>
    match parse text with
    | none => (g, none)
    | some eventId =>
      if eventId ∈ g.processed then (g, some { c with todo })
      else ({ g with processed := g.processed ++ [eventId] }, some { c with todo, marked := some (eventId, rec) })

/-- One step of one process, over the partitions' logs: `start` reads the committed offsets, `seek` is a rebalance that
hands a partition back at its committed offset, `getmany` says how many records of which partitions it returned. -/
def step (g : Group) : Option Process → Action → Option (Group × Option Process)
  | none, .start => some (g, some { position := g.committed })
  | some c, .seek tp =>
    some (g, some { c with position := fun tp' => if tp' = tp then g.committed tp else c.position tp' })
  | some c, .getmany batch =>
    if c.todo = [] ∧ c.marked.isNone ∧ (batch.map Prod.fst).Nodup ∧ (batch.map Prod.snd).sum ≤ 50 ∧
        ∀ b ∈ batch, c.position b.1 + b.2 ≤ (log b.1).length then
      some (g, some { c with
        position := fun tp => c.position tp + (Dict.find tp batch).getD 0
        todo := batch.flatMap (fun b => messages b.1 (c.position b.1) b.2) })
    else none
  | some c, .mark =>
    match c.marked, c.todo with
    | none, .msg tp offset :: todo => (log tp)[offset]?.map (markNext parse g c todo)
    | _, _ => none
  | some c, .business =>
    match c.marked with
    | some p => some ({ g with executed := g.executed ++ [p] }, some { c with marked := none })
    | none => none
  | some c, .commit =>
    match c.marked, c.todo with
    | none, .commit tp next :: todo =>
      some ({ g with committed := fun tp' => if tp' = tp then next else g.committed tp' }, some { c with todo })
    | _, _ => none
  | some _, .crash => some (g, none)
  | _, _ => none

/-- A message is skipped, ends the process, or is marked: its event is the first of its id. -/
theorem markNext_cases (g : Group) (c : Process) (todo : List Item) (rec : Record) :
    (markNext parse g c todo rec = (g, some { c with todo }) ∧ ∀ text, header rec "event_id" = some text →
      ∃ eventId, parse text = some eventId ∧ eventId ∈ g.processed) ∨
    markNext parse g c todo rec = (g, none) ∨
    ∃ text eventId, header rec "event_id" = some text ∧ parse text = some eventId ∧ eventId ∉ g.processed ∧
      markNext parse g c todo rec =
        ({ g with processed := g.processed ++ [eventId] }, some { c with todo, marked := some (eventId, rec) }) := by
  unfold markNext
  cases hheader : header rec "event_id" with
  | none => exact .inl ⟨rfl, fun _ h => nomatch h⟩
  | some text =>
    dsimp only
    cases hparse : parse text with
    | none => exact .inr (.inl rfl)
    | some eventId =>
      dsimp only
      by_cases hmem : eventId ∈ g.processed
      · rw [if_pos hmem]
        refine .inl ⟨rfl, fun text' ht => ?_⟩
        cases ht
        exact ⟨eventId, hparse, hmem⟩
      · rw [if_neg hmem]
        exact .inr (.inr ⟨text, eventId, rfl, hparse, hmem, rfl⟩)

inductive Step (g : Group) : Option Process → Action → Group × Option Process → Prop
  | start : Step g none .start (g, some { position := g.committed })
  | seek (c : Process) (tp : Nat) : Step g (some c) (.seek tp)
    (g, some { c with position := fun tp' => if tp' = tp then g.committed tp else c.position tp' })
  | getmany {c : Process} {batch : List (Nat × Nat)} (htodo : c.todo = []) (hmarked : c.marked = none)
    (hlen : ∀ b ∈ batch, c.position b.1 + b.2 ≤ (log b.1).length) : Step g (some c) (.getmany batch)
    (g, some { c with
      position := fun tp => c.position tp + (Dict.find tp batch).getD 0
      todo := batch.flatMap (fun b => messages b.1 (c.position b.1) b.2) })
  | mark {c : Process} {tp offset : Nat} {todo : List Item} {rec : Record} (hmarked : c.marked = none)
    (htodo : c.todo = .msg tp offset :: todo) (hget : (log tp)[offset]? = some rec) :
    Step g (some c) .mark (markNext parse g c todo rec)
  | business {c : Process} {p : Uuid × Record} (hmarked : c.marked = some p) :
    Step g (some c) .business ({ g with executed := g.executed ++ [p] }, some { c with marked := none })
  | commit {c : Process} {tp next : Nat} {todo : List Item} (hmarked : c.marked = none)
    (htodo : c.todo = .commit tp next :: todo) : Step g (some c) .commit
    ({ g with committed := fun tp' => if tp' = tp then next else g.committed tp' }, some { c with todo })
  | crash (c : Process) : Step g (some c) .crash (g, none)

theorem step_sound {g : Group} {p : Option Process} {a : Action} {r : Group × Option Process}
    (h : step parse log g p a = some r) : Step parse log g p a r := by
  unfold step at h
  split at h
  · cases h
    exact .start
  · cases h
    exact .seek ..
  · split at h
    · rename_i hok
      cases h
      exact .getmany hok.1 (Option.isNone_iff_eq_none.1 hok.2.1) hok.2.2.2.2
    · cases h
  · split at h
    · rename_i hmarked htodo
      obtain ⟨rec, hget, rfl⟩ := Option.map_eq_some_iff.1 h
      exact .mark hmarked htodo hget
    · cases h
  · split at h
    · rename_i hmarked
      cases h
      exact .business hmarked
    · cases h
  · split at h
    · rename_i hmarked htodo
      cases h
      exact .commit hmarked htodo
    · cases h
  · cases h
    exact .crash _
  · cases h

/-! ## One consumer over its partitions -/

structure Sys where
  log : Nat → List Record := fun _ => []
  group : Group := {}
  process : Option Process := none

inductive Event where
  | append (tp : Nat) (rec : Record)
  | consumer (a : Action)

def lts : Lts Sys Event where
  init := {}
  step s
    | .append tp rec => some { s with log := fun tp' => if tp' = tp then s.log tp' ++ [rec] else s.log tp' }
    | .consumer a => (step parse s.log s.group s.process a).map (fun r => { s with group := r.1, process := r.2 })

end Consumer
end KafkaGuide
