import Mathlib.Algebra.BigOperators.Group.List.Basic
import Mathlib.Algebra.Ring.Int.Defs
import KafkaGuide.Lib.Dict
import KafkaGuide.Lib.Lts
/-!
# Points — idempotent point consumers (`08-exactly-once-and-idempotency/app`)

Any number of consumers of one group, each in its `_process_message` of one message at a time, on one Redis.  Partitions
move and records are read again at will: a message that was sent may be delivered to any consumer at any time.  A call
of Redis or of the broker is served at one moment and returns at another, and its loop may end before either.  No key
expires.
-/
namespace KafkaGuide
namespace Points

/-- The payload of `send_point_event`. -/
structure PointEvent where
  userId : String
  points : Int
  idempotencyKey : String
deriving DecidableEq

def keyPrefix : String := "idempotency:"

/-- Redis answers the EXISTS of `is_processed`. -/
def isProcessed (redis : Dict String String) (idempotencyKey : String) : Bool :=
  (redis.get? (keyPrefix ++ idempotencyKey)).isSome

/-- Redis does the SET of `mark_processed`. -/
def markProcessed (redis : Dict String String) (idempotencyKey : String) : Dict String String :=
  redis.set (keyPrefix ++ idempotencyKey) "1"

/-- `balances[user_id] = balances.get(user_id, 0) + points`. -/
def addPoints (balances : Dict String Int) (m : PointEvent) : Dict String Int :=
  balances.set m.userId ((balances.get? m.userId).getD 0 + m.points)

/-- Where `_process_message` is: at one of its three calls, or at the return of one. -/
inductive Stage where
  | isProcessed
  | answered (found : Bool)
  | markProcessed
  | marked
  | commit
  | committed
deriving DecidableEq

/-- One process: its `balances`, the message its loop has last got that it is not done with, and whether the loop
runs. -/
structure Consumer where
  balances : Dict String Int := Dict.empty
  message : Option (PointEvent × Stage) := none
  running : Bool := true

/-- The topic, Redis, the consumers and the messages with a committed offset.  `credits` are the messages whose points
were added, by which consumer: no process reads it. -/
structure Sys where
  topic : List PointEvent := []
  redis : Dict String String := Dict.empty
  consumers : Nat → Consumer := fun _ => {}
  committed : List PointEvent := []
  credits : List (Nat × PointEvent) := []

/-- A message is sent, or delivered to consumer `i`; the call that `i` is at is served; it returns, and `i` goes on to
the next one; the loop of `i` ends, because a call raises, it is cancelled or the process dies. -/
inductive Action where
  | send (m : PointEvent)
  | deliver (i : Nat) (m : PointEvent)
  | serve (i : Nat)
  | resume (i : Nat)
  | stop (i : Nat)
deriving DecidableEq

def Sys.setConsumer (s : Sys) (i : Nat) (c : Consumer) : Sys :=
  { s with consumers := fun j => if j = i then c else s.consumers j }

def Sys.setStage (s : Sys) (i : Nat) (m : PointEvent) (stage : Stage) : Sys :=
  s.setConsumer i { s.consumers i with message := some (m, stage) }

/-- A call that is under way is served whether or not the loop has ended. -/
def Sys.serve (s : Sys) (i : Nat) (m : PointEvent) : Stage → Option Sys
  | .isProcessed => some (s.setStage i m (.answered (isProcessed s.redis m.idempotencyKey)))
  | .markProcessed => some { s.setStage i m .marked with redis := markProcessed s.redis m.idempotencyKey }
  | .commit => some { s.setStage i m .committed with committed := s.committed ++ [m] }
  | _ => none

/-- `_process_message`, from the return of a call to the next one: a key that was found is only committed. -/
def Sys.resume (s : Sys) (i : Nat) (m : PointEvent) : Stage → Option Sys
  | .answered true => some (s.setStage i m .commit)
  | .answered false => some { s.setConsumer i { s.consumers i with
      balances := addPoints (s.consumers i).balances m, message := some (m, .markProcessed) } with
      credits := s.credits ++ [(i, m)] }
  | .marked => some (s.setStage i m .commit)
  | .committed => some (s.setConsumer i { s.consumers i with message := none })
  | _ => none

def step (s : Sys) : Action → Option Sys
  | .send m => some { s with topic := s.topic ++ [m] }
  | .deliver i m =>
    if (s.consumers i).running ∧ (s.consumers i).message = none ∧ m ∈ s.topic then
      some (s.setStage i m .isProcessed)
    else none
  | .serve i =>
    match (s.consumers i).message with
    | some (m, stage) => s.serve i m stage
    | none => none
  | .resume i =>
    match (s.consumers i).message with
    | some (m, stage) => if (s.consumers i).running then s.resume i m stage else none
    | none => none
  | .stop i =>
    if (s.consumers i).running then some (s.setConsumer i { s.consumers i with running := false }) else none

/-- Redis starts with the keys of an earlier time. -/
def lts (redis : Dict String String) : Lts Sys Action where
  init := { redis }
  step := step

/-! ## What a step can do -/

theorem isProcessed_markProcessed (redis : Dict String String) (k k' : String) :
    isProcessed (markProcessed redis k) k' = (decide (k' = k) || isProcessed redis k') := by
  unfold isProcessed markProcessed
  rw [Dict.get?_set]
  by_cases hk : k' = k
  · rw [hk, if_pos rfl, decide_eq_true rfl]
    rfl
  · rw [if_neg fun h => hk ((String.append_right_inj keyPrefix).1 h), decide_eq_false hk, Bool.false_or]

theorem addPoints_get (balances : Dict String Int) (m : PointEvent) (u : String) :
    ((addPoints balances m).get? u).getD 0 = (balances.get? u).getD 0 + if m.userId = u then m.points else 0 := by
  unfold addPoints
  rw [Dict.get?_set]
  by_cases hu : u = m.userId
  · rw [if_pos hu, if_pos hu.symm, hu]
    rfl
  · rw [if_neg hu, if_neg (Ne.symm hu), Int.add_zero]

theorem setConsumer_consumers (s : Sys) (i j : Nat) (c : Consumer) :
    (s.setConsumer i c).consumers j = if j = i then c else s.consumers j := rfl

@[simp] theorem setConsumer_self (s : Sys) (i : Nat) (c : Consumer) : (s.setConsumer i c).consumers i = c := if_pos rfl

inductive Step (s : Sys) : Action → Sys → Prop
  | send (m : PointEvent) : Step s (.send m) { s with topic := s.topic ++ [m] }
  | deliver {i : Nat} {m : PointEvent} (hrunning : (s.consumers i).running = true)
    (hmessage : (s.consumers i).message = none) : Step s (.deliver i m) (s.setStage i m .isProcessed)
  | answer {i : Nat} {m : PointEvent} (hmessage : (s.consumers i).message = some (m, .isProcessed)) :
    Step s (.serve i) (s.setStage i m (.answered (isProcessed s.redis m.idempotencyKey)))
  | mark {i : Nat} {m : PointEvent} (hmessage : (s.consumers i).message = some (m, .markProcessed)) :
    Step s (.serve i) { s.setStage i m .marked with redis := markProcessed s.redis m.idempotencyKey }
  | commit {i : Nat} {m : PointEvent} (hmessage : (s.consumers i).message = some (m, .commit)) :
    Step s (.serve i) { s.setStage i m .committed with committed := s.committed ++ [m] }
  | skip {i : Nat} {m : PointEvent} (hmessage : (s.consumers i).message = some (m, .answered true)) :
    Step s (.resume i) (s.setStage i m .commit)
  | credit {i : Nat} {m : PointEvent} (hrunning : (s.consumers i).running = true)
    (hmessage : (s.consumers i).message = some (m, .answered false)) :
    Step s (.resume i) { s.setConsumer i { s.consumers i with
      balances := addPoints (s.consumers i).balances m, message := some (m, .markProcessed) } with
      credits := s.credits ++ [(i, m)] }
  | marked {i : Nat} {m : PointEvent} (hmessage : (s.consumers i).message = some (m, .marked)) :
    Step s (.resume i) (s.setStage i m .commit)
  | next {i : Nat} {m : PointEvent} (hmessage : (s.consumers i).message = some (m, .committed)) :
    Step s (.resume i) (s.setConsumer i { s.consumers i with message := none })
  | stop {i : Nat} : Step s (.stop i) (s.setConsumer i { s.consumers i with running := false })

theorem step_sound {s s' : Sys} {a : Action} (h : step s a = some s') : Step s a s' := by
  cases a with
  | send m =>
    cases h
    exact .send m
  | deliver i m =>
    simp only [step] at h
    split at h
    · rename_i hfree
      cases h
      exact .deliver hfree.1 hfree.2.1
    · cases h
  | serve i =>
    simp only [step] at h
    split at h
    · rename_i m stage hmessage
      cases stage with
      | isProcessed =>
        cases h
        exact .answer hmessage
      | markProcessed =>
        cases h
        exact .mark hmessage
      | commit =>
        cases h
        exact .commit hmessage
      | _ => cases h
    · cases h
  | resume i =>
    simp only [step] at h
    split at h
    · rename_i m stage hmessage
      split at h
      · rename_i hrunning
        cases stage with
        | answered found =>
          cases found with
          | true =>
            cases h
            exact .skip hmessage
          | false =>
            cases h
            exact .credit hrunning hmessage
        | marked =>
          cases h
          exact .marked hmessage
        | committed =>
          cases h
          exact .next hmessage
        | _ => cases h
      · cases h
    · cases h
  | stop i =>
    simp only [step] at h
    split at h
    · cases h
      exact .stop
    · cases h

/-! ## Balances -/

/-- The points that consumer `i` added for a user. -/
def Sys.credited (s : Sys) (i : Nat) (u : String) : Int :=
  ((s.credits.filter (fun p => p.1 = i ∧ p.2.userId = u)).map (fun p => p.2.points)).sum

theorem setConsumer_balances (s : Sys) (i j : Nat) {c : Consumer} (hc : c.balances = (s.consumers i).balances) :
    ((s.setConsumer i c).consumers j).balances = (s.consumers j).balances := by
  rw [setConsumer_consumers]
  split
  · rename_i hj
    rw [hj, hc]
  · rfl

theorem credited_append (credits : List (Nat × PointEvent)) (i j : Nat) (m : PointEvent) (u : String) :
    (((credits ++ [(i, m)]).filter (fun p => p.1 = j ∧ p.2.userId = u)).map (fun p => p.2.points)).sum =
      ((credits.filter (fun p => p.1 = j ∧ p.2.userId = u)).map (fun p => p.2.points)).sum +
        if i = j ∧ m.userId = u then m.points else 0 := by
  rw [List.filter_append, List.map_append, List.sum_append]
  by_cases hm : i = j ∧ m.userId = u
  · simp [hm]
  · simp [hm]

/-- **Balances are what was added.** -/
theorem balances_eq (redis : Dict String String) {s : Sys} (h : (lts redis).Reachable s) (j : Nat) (u : String) :
    ((s.consumers j).balances.get? u).getD 0 = s.credited j u := by
  refine (lts redis).reachable_inv
    (I := fun s => ((s.consumers j).balances.get? u).getD 0 = s.credited j u) rfl (fun s a s' hs hstep => ?_) h
  have hsame : ∀ s' : Sys, (s'.consumers j).balances = (s.consumers j).balances → s'.credits = s.credits →
      ((s'.consumers j).balances.get? u).getD 0 = s'.credited j u := fun s' hbalances hcredits => by
    unfold Sys.credited
    rw [hbalances, hcredits]
    exact hs
  cases step_sound hstep with
  | send m => exact hs
  | @credit i m hrunning hmessage =>
    change (((s.setConsumer i _).consumers j).balances.get? u).getD 0 = _
    unfold Sys.credited
    rw [credited_append, setConsumer_consumers]
    unfold Sys.credited at hs
    split
    · rename_i hj
      subst hj
      rw [← hs, addPoints_get]
      simp only [true_and]
    · rename_i hj
      rw [← hs, if_neg fun h => hj h.1.symm, Int.add_zero]
  | deliver hrunning hmessage => exact hsame _ (setConsumer_balances s _ j rfl) rfl
  | answer hmessage => exact hsame _ (setConsumer_balances s _ j rfl) rfl
  | mark hmessage => exact hsame _ (setConsumer_balances s _ j rfl) rfl
  | commit hmessage => exact hsame _ (setConsumer_balances s _ j rfl) rfl
  | skip hmessage => exact hsame _ (setConsumer_balances s _ j rfl) rfl
  | marked hmessage => exact hsame _ (setConsumer_balances s _ j rfl) rfl
  | next hmessage => exact hsame _ (setConsumer_balances s _ j rfl) rfl
  | stop => exact hsame _ (setConsumer_balances s _ j rfl) rfl

end Points
end KafkaGuide
