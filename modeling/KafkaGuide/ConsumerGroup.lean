import KafkaGuide.Lib.Json
import KafkaGuide.Lib.Lts
/-!
# ConsumerGroup — a group of consumers with manual commits (`05-consumer-groups/consumer/app/consumer.py`)

Any number of processes run `consume_loop` over the partitions of one topic.  The iteration returns a record of an
assigned partition and moves its position on; the loop appends the record to `received_messages` and calls `commit()`,
with nothing awaited in between, and that is one step.  `commit()` takes the positions of all the partitions assigned at
the call; the broker stores them at some later time, maybe after the member is gone.
-/
namespace KafkaGuide
namespace ConsumerGroup

structure Record where
  key : Option ByteArray
  value : Option ByteArray
  timestamp : Int

/-- `message_info`. -/
structure MessageInfo where
  consumerId : String
  partition : Nat
  offset : Nat
  key : Option String
  value : Json
  timestamp : Int
  receivedAt : String

/-- `lambda k: k.decode("utf-8") if k else None`; `none` where it raises. -/
def keyDeserializer (k : Option ByteArray) : Option (Option String) :=
  match k with
  | none => some none
  | some b => if b.size = 0 then some none else (String.fromUTF8? b).map some

/-- `lambda v: json.loads(v.decode("utf-8"))`; a record without a value has no `decode`. -/
def valueDeserializer (loads : String → Option Json) (v : Option ByteArray) : Option Json :=
  v.bind (Json.ofBytes loads)

/-- Positions of some partitions. -/
abbrev Offsets := Nat → Option Nat

/-- Where a member's loop is: at the iteration, in `await consumer.commit()`, whose offsets are stored or not, or
ended. -/
inductive Phase where
  | iterating
  | committing (offsets : Offsets) (stored : Bool)
  | stopped

/-- A partition assigned to a member: the next offset to read, and which assignment this is. -/
structure Assigned where
  position : Nat
  assignment : Nat

/-- A running process. -/
structure Member where
  phase : Phase := .iterating
  assigned : Nat → Option Assigned := fun _ => none
  receivedMessages : List MessageInfo := []

/-- An append to the `received_messages` of a member. -/
structure Append where
  member : Nat
  info : MessageInfo

/-- The partitions' logs, the offsets the group has committed, its members, and the commits on their way whose caller
has gone on or is gone.  `appends` lists the appends of all members so far and `assignments` counts the assignments: no
process reads them. -/
structure Sys where
  log : Nat → List Record := fun _ => []
  committed : Nat → Nat := fun _ => 0
  members : Nat → Option Member := fun _ => none
  late : List Offsets := []
  appends : List Append := []
  assignments : Nat := 0

def Member.positions (c : Member) : Offsets := fun p => (c.assigned p).map Assigned.position

def Member.assign (c : Member) (p : Nat) (a : Option Assigned) : Member :=
  { c with assigned := fun p' => if p' = p then a else c.assigned p' }

def Sys.setMember (s : Sys) (m : Nat) (c : Option Member) : Sys :=
  { s with members := fun m' => if m' = m then c else s.members m' }

/-- The broker stores the offsets of a commit. -/
def Sys.store (s : Sys) (offsets : Offsets) : Sys :=
  { s with committed := fun p => (offsets p).getD (s.committed p) }

/-- What is left of a member's commit once its caller no longer waits for it. -/
def Phase.leaves : Phase → List Offsets
  | .committing offsets false => [offsets]
  | _ => []

/-- The loop has got a record: it appends its `message_info`, and calls `commit()` with the position moved on. -/
def Sys.receive (s : Sys) (m : Nat) (c : Member) (p : Nat) (a : Assigned) (info : MessageInfo) : Sys :=
  let c' := c.assign p (some { a with position := a.position + 1 })
  { s.setMember m (some { c' with
      phase := .committing c'.positions false, receivedMessages := c'.receivedMessages ++ [info] }) with
    appends := s.appends ++ [⟨m, info⟩] }

inductive Event where
  | produce (p : Nat) (rec : Record)
  | start (m : Nat)
  | assign (m p : Nat)
  | revoke (m p : Nat)
  | receive (m p : Nat) (now : String)
  | store (m : Nat)
  | storeLate (i : Nat)
  | committed (m : Nat)
  | commitFailed (m : Nat)
  | cancel (m : Nat)
  | crash (m : Nat)

/-- The `message_info` of a record, `none` where a deserializer raises. -/
def messageInfo (loads : String → Option Json) (consumerId : String) (p offset : Nat) (rec : Record) (now : String) :
    Option MessageInfo :=
  match keyDeserializer rec.key, valueDeserializer loads rec.value with
  | some key, some value => some
    { consumerId, partition := p, offset, key, value, timestamp := rec.timestamp, receivedAt := now }
  | _, _ => none

variable (loads : String → Option Json) (consumerId : Nat → String)

/-- One step.  A rebalance assigns partitions, at their committed offsets, and revokes them, in any way; a record that a
deserializer rejects, a commit that raises and a cancellation end the loop, and the process stays in the group. -/
def step (s : Sys) : Event → Option Sys
  | .produce p rec => some { s with log := fun p' => if p' = p then s.log p' ++ [rec] else s.log p' }
  | .start m =>
    match s.members m with
    | none => some (s.setMember m (some {}))
    | some _ => none
  | .assign m p =>
    (s.members m).map fun c =>
      { s.setMember m (some (c.assign p (some ⟨s.committed p, s.assignments⟩))) with
        assignments := s.assignments + 1 }
  | .revoke m p => (s.members m).map fun c => s.setMember m (some (c.assign p none))
  | .receive m p now =>
    match s.members m with
    | some c =>
      match c.phase, c.assigned p with
      | .iterating, some a =>
        match (s.log p)[a.position]? with
        | some rec =>
          match messageInfo loads (consumerId m) p a.position rec now with
          | some info => some (s.receive m c p a info)
          | none => some (s.setMember m (some { c with phase := .stopped }))
        | none => none
      | _, _ => none
    | none => none
  | .store m =>
    match s.members m with
    | some c =>
      match c.phase with
      | .committing offsets false =>
        some ((s.store offsets).setMember m (some { c with phase := .committing offsets true }))
      | _ => none
    | none => none
  | .storeLate i =>
    match s.late[i]? with
    | some offsets => some { s.store offsets with late := s.late.eraseIdx i }
    | none => none
  | .committed m =>
    match s.members m with
    | some c =>
      match c.phase with
      | .committing _ true => some (s.setMember m (some { c with phase := .iterating }))
      | _ => none
    | none => none
  | .commitFailed m =>
    match s.members m with
    | some c =>
      match c.phase with
      | .committing _ _ =>
        some { s.setMember m (some { c with phase := .stopped }) with late := s.late ++ c.phase.leaves }
      | _ => none
    | none => none
  | .cancel m =>
    match s.members m with
    | some c =>
      match c.phase with
      | .stopped => none
      | _ => some { s.setMember m (some { c with phase := .stopped }) with late := s.late ++ c.phase.leaves }
    | none => none
  | .crash m =>
    (s.members m).map fun c => { s.setMember m none with late := s.late ++ c.phase.leaves }

/-- The group over the partitions' logs, before any process runs. -/
def lts : Lts Sys Event where
  init := {}
  step := step loads consumerId

/-! ## What a step can do -/

inductive Step (s : Sys) : Event → Sys → Prop
  | produce (p : Nat) (rec : Record) :
    Step s (.produce p rec) { s with log := fun p' => if p' = p then s.log p' ++ [rec] else s.log p' }
  | start {m : Nat} (hm : s.members m = none) : Step s (.start m) (s.setMember m (some {}))
  | assign {m : Nat} {c : Member} (p : Nat) (hm : s.members m = some c) : Step s (.assign m p)
    { s.setMember m (some (c.assign p (some ⟨s.committed p, s.assignments⟩))) with assignments := s.assignments + 1 }
  | revoke {m : Nat} {c : Member} (p : Nat) (hm : s.members m = some c) :
    Step s (.revoke m p) (s.setMember m (some (c.assign p none)))
  | receive {m p : Nat} {c : Member} {a : Assigned} {rec : Record} {info : MessageInfo} {now : String}
    (hm : s.members m = some c) (ha : c.assigned p = some a) (hrec : (s.log p)[a.position]? = some rec)
    (hinfo : messageInfo loads (consumerId m) p a.position rec now = some info) :
    Step s (.receive m p now) (s.receive m c p a info)
  | store {m : Nat} {c : Member} {offsets : Offsets} (hm : s.members m = some c)
    (hphase : c.phase = .committing offsets false) :
    Step s (.store m) ((s.store offsets).setMember m (some { c with phase := .committing offsets true }))
  | storeLate {i : Nat} {offsets : Offsets} (hi : s.late[i]? = some offsets) :
    Step s (.storeLate i) { s.store offsets with late := s.late.eraseIdx i }
  | goOn {e : Event} {m : Nat} {c : Member} (hm : s.members m = some c) :
    Step s e (s.setMember m (some { c with phase := .iterating }))
  | stop {e : Event} {m : Nat} {c : Member} (hm : s.members m = some c) :
    Step s e { s.setMember m (some { c with phase := .stopped }) with late := s.late ++ c.phase.leaves }
  | crash {m : Nat} {c : Member} (hm : s.members m = some c) :
    Step s (.crash m) { s.setMember m none with late := s.late ++ c.phase.leaves }

variable {loads consumerId}

theorem step_sound {s s' : Sys} {e : Event} (h : step loads consumerId s e = some s') :
    Step loads consumerId s e s' := by
  cases e with
  | produce p rec =>
    cases h
    exact .produce p rec
  | start m =>
    simp only [step] at h
    split at h
    · cases h
      exact .start ‹_›
    · cases h
  | assign m p =>
    obtain ⟨c, hm, rfl⟩ := Option.map_eq_some_iff.1 h
    exact .assign p hm
  | revoke m p =>
    obtain ⟨c, hm, rfl⟩ := Option.map_eq_some_iff.1 h
    exact .revoke p hm
  | receive m p now =>
    simp only [step] at h
    split at h
    · rename_i c hm
      split at h
      · rename_i a hphase ha
        split at h
        · rename_i rec hrec
          split at h
          · rename_i info hinfo
            cases h
            exact .receive hm ha hrec hinfo
          · cases h
            have hstop : Step loads consumerId s (.receive m p now)
              { s.setMember m (some { c with phase := .stopped }) with late := s.late ++ c.phase.leaves } := .stop hm
            rw [hphase] at hstop
            simp only [Phase.leaves, List.append_nil] at hstop
            exact hstop
        · cases h
      · cases h
    · cases h
  | store m =>
    simp only [step] at h
    split at h
    · rename_i c hm
      split at h
      · rename_i offsets hphase
        cases h
        exact .store hm hphase
      · cases h
    · cases h
  | storeLate i =>
    simp only [step] at h
    split at h
    · cases h
      exact .storeLate ‹_›
    · cases h
  | committed m =>
    simp only [step] at h
    split at h
    · rename_i c hm
      split at h
      · cases h
        exact .goOn hm
      · cases h
    · cases h
  | commitFailed m =>
    simp only [step] at h
    split at h
    · rename_i c hm
      split at h
      · cases h
        exact .stop hm
      · cases h
    · cases h
  | cancel m =>
    simp only [step] at h
    split at h
    · rename_i c hm
      split at h
      · cases h
      · cases h
        exact .stop hm
    · cases h
  | crash m =>
    obtain ⟨c, hm, rfl⟩ := Option.map_eq_some_iff.1 h
    exact .crash hm

end ConsumerGroup
end KafkaGuide
