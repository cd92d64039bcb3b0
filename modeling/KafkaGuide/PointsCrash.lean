import KafkaGuide.Points
/-!
# PointsCrash — the point consumer over crashes and restarts (`08-exactly-once-and-idempotency/app/consumer.py`)

One process at a time, with its `balances`, over what outlives it: the partitions' logs, the committed offsets and
Redis, whose keys may expire.  `commit()` takes the positions of all the partitions assigned at the call.  A call that
is under way when the process dies may be served later, when the next process already runs.
-/
namespace KafkaGuide
namespace PointsCrash

open Points (PointEvent keyPrefix isProcessed markProcessed addPoints isProcessed_markProcessed addPoints_get)

/-- Positions of some partitions. -/
abbrev Offsets := Nat → Option Nat

/-- Where `_process_message` is: at one of its calls, or at the return of one. -/
inductive Stage where
  | isProcessed
  | answered (found : Bool)
  | markProcessed
  | marked
  | commit (offsets : Offsets)
  | committed

/-- The process: its `balances`, the next offset of each assigned partition, the message its loop has last got that it
is not done with, and whether the loop runs. -/
structure Consumer where
  balances : Dict String Int := Dict.empty
  position : Offsets := fun _ => none
  message : Option (PointEvent × Stage) := none
  running : Bool := true

/-- A call of a process that is gone. -/
inductive Call where
  | set (idempotencyKey : String)
  | commit (offsets : Offsets)

/-- `credits` are the messages whose points the present process has added: no process reads it. -/
structure Sys where
  log : Nat → List PointEvent := fun _ => []
  redis : Dict String String := Dict.empty
  committed : Nat → Nat := fun _ => 0
  consumer : Consumer := {}
  late : List Call := []
  credits : List PointEvent := []

def Sys.setStage (s : Sys) (m : PointEvent) (stage : Stage) : Sys :=
  { s with consumer := { s.consumer with message := some (m, stage) } }

def Sys.assign (s : Sys) (p : Nat) (position : Option Nat) : Sys :=
  { s with consumer := { s.consumer with position := fun p' => if p' = p then position else s.consumer.position p' } }

/-- The broker stores the offsets of a commit. -/
def Sys.store (s : Sys) (offsets : Offsets) : Sys :=
  { s with committed := fun p => (offsets p).getD (s.committed p) }

/-- A call that is under way is served whether or not the loop has ended. -/
def Sys.serve (s : Sys) (m : PointEvent) : Stage → Option Sys
  | .isProcessed => some (s.setStage m (.answered (isProcessed s.redis m.idempotencyKey)))
  | .markProcessed => some { s.setStage m .marked with redis := markProcessed s.redis m.idempotencyKey }
  | .commit offsets => some ((s.store offsets).setStage m .committed)
  | _ => none

/-- `_process_message`, from the return of a call to the next one. -/
def Sys.resume (s : Sys) (m : PointEvent) : Stage → Option Sys
  | .answered true => some (s.setStage m (.commit s.consumer.position))
  | .answered false => some { s with
      consumer := { s.consumer with
        balances := addPoints s.consumer.balances m, message := some (m, .markProcessed) }
      credits := s.credits ++ [m] }
  | .marked => some (s.setStage m (.commit s.consumer.position))
  | .committed => some { s with consumer := { s.consumer with message := none } }
  | _ => none

/-- What a dying process leaves under way. -/
def Consumer.leaves (c : Consumer) : List Call :=
  match c.message with
  | some (m, .markProcessed) => [.set m.idempotencyKey]
  | some (_, .commit offsets) => [.commit offsets]
  | _ => []

def Sys.serveLate (s : Sys) : Call → Sys
  | .set idempotencyKey => { s with redis := markProcessed s.redis idempotencyKey }
  | .commit offsets => s.store offsets

/-- A message is sent; a partition is assigned, at its committed offset, or revoked; the loop gets the next record of a
partition; the call that the loop is at is served; it returns, and the loop goes on to the next one; the loop ends,
because a call raises or it is cancelled; the process dies and another one starts; a call of an earlier process is
served; a key expires. -/
inductive Action where
  | send (p : Nat) (m : PointEvent)
  | assign (p : Nat)
  | revoke (p : Nat)
  | fetch (p : Nat)
  | serve
  | resume
  | stop
  | restart
  | serveLate (i : Nat)
  | expire (idempotencyKey : String)

def step (s : Sys) : Action → Option Sys
  | .send p m => some { s with log := fun p' => if p' = p then s.log p' ++ [m] else s.log p' }
  | .assign p => some (s.assign p (some (s.committed p)))
  | .revoke p => some (s.assign p none)
  | .fetch p =>
    match s.consumer.running, s.consumer.message, s.consumer.position p with
    | true, none, some o =>
      match (s.log p)[o]? with
      | some m => some ((s.assign p (some (o + 1))).setStage m .isProcessed)
      | none => none
    | _, _, _ => none
  | .serve =>
    match s.consumer.message with
    | some (m, stage) => s.serve m stage
    | none => none
  | .resume =>
    match s.consumer.message with
    | some (m, stage) => if s.consumer.running then s.resume m stage else none
    | none => none
  | .stop => if s.consumer.running then some { s with consumer := { s.consumer with running := false } } else none
  | .restart => some { s with consumer := {}, late := s.late ++ s.consumer.leaves, credits := [] }
  | .serveLate i =>
    match s.late[i]? with
    | some call => some { s.serveLate call with late := s.late.eraseIdx i }
    | none => none
  | .expire k => some { s with redis := s.redis.erase (keyPrefix ++ k) }

/-- From the first start of the service. -/
def lts : Lts Sys Action where
  init := {}
  step := step

/-! ## What a step can do -/

inductive Step (s : Sys) : Action → Sys → Prop
  | send (p : Nat) (m : PointEvent) :
    Step s (.send p m) { s with log := fun p' => if p' = p then s.log p' ++ [m] else s.log p' }
  | assign (p : Nat) : Step s (.assign p) (s.assign p (some (s.committed p)))
  | revoke (p : Nat) : Step s (.revoke p) (s.assign p none)
  | fetch {p o : Nat} {m : PointEvent} (hmessage : s.consumer.message = none)
    (hposition : s.consumer.position p = some o) (hm : (s.log p)[o]? = some m) :
    Step s (.fetch p) ((s.assign p (some (o + 1))).setStage m .isProcessed)
  | answer {m : PointEvent} (hmessage : s.consumer.message = some (m, .isProcessed)) :
    Step s .serve (s.setStage m (.answered (isProcessed s.redis m.idempotencyKey)))
  | mark {m : PointEvent} (hmessage : s.consumer.message = some (m, .markProcessed)) :
    Step s .serve { s.setStage m .marked with redis := markProcessed s.redis m.idempotencyKey }
  | store {m : PointEvent} {offsets : Offsets} (hmessage : s.consumer.message = some (m, .commit offsets)) :
    Step s .serve ((s.store offsets).setStage m .committed)
  | credit {m : PointEvent} (hmessage : s.consumer.message = some (m, .answered false)) :
    Step s .resume { s with
      consumer := { s.consumer with balances := addPoints s.consumer.balances m, message := some (m, .markProcessed) }
      credits := s.credits ++ [m] }
  | commit {m : PointEvent} {stage : Stage} (hmessage : s.consumer.message = some (m, stage))
    (hstage : stage = .answered true ∨ stage = .marked) :
    Step s .resume (s.setStage m (.commit s.consumer.position))
  | next {m : PointEvent} (hmessage : s.consumer.message = some (m, .committed)) :
    Step s .resume { s with consumer := { s.consumer with message := none } }
  | stop : Step s .stop { s with consumer := { s.consumer with running := false } }
  | restart : Step s .restart { s with consumer := {}, late := s.late ++ s.consumer.leaves, credits := [] }
  | serveLate {i : Nat} {call : Call} (hi : s.late[i]? = some call) :
    Step s (.serveLate i) { s.serveLate call with late := s.late.eraseIdx i }
  | expire (k : String) : Step s (.expire k) { s with redis := s.redis.erase (keyPrefix ++ k) }

theorem step_sound {s s' : Sys} {a : Action} (h : step s a = some s') : Step s a s' := by
  cases a with
  | send p m =>
    cases h
    exact .send p m
  | assign p =>
    cases h
    exact .assign p
  | revoke p =>
    cases h
    exact .revoke p
  | fetch p =>
    simp only [step] at h
    split at h
    · rename_i o hrunning hmessage hposition
      split at h
      · cases h
        exact .fetch hmessage hposition ‹_›
      · cases h
    · cases h
  | serve =>
    simp only [step] at h
    split at h
    · rename_i m stage hmessage
      cases stage with
      | isProcessed =>
        cases h
        exact .answer hmessage
      | markProcessed =>
        cases h
        exact .mark hmessage
      | commit offsets =>
        cases h
        exact .store hmessage
      | _ => cases h
    · cases h
  | resume =>
    simp only [step] at h
    split at h
    · rename_i m stage hmessage
      split at h
      · cases stage with
        | answered found =>
          cases found with
          | true =>
            cases h
            exact .commit hmessage (.inl rfl)
          | false =>
            cases h
            exact .credit hmessage
        | marked =>
          cases h
          exact .commit hmessage (.inr rfl)
        | committed =>
          cases h
          exact .next hmessage
        | _ => cases h
      · cases h
    · cases h
  | stop =>
    simp only [step] at h
    split at h
    · cases h
      exact .stop
    · cases h
  | restart =>
    cases h
    exact .restart
  | serveLate i =>
    simp only [step] at h
    split at h
    · cases h
      exact .serveLate ‹_›
    · cases h
  | expire k =>
    cases h
    exact .expire k

/-! ## Balances -/

/-- **Balances are what the process has added.** -/
theorem balances_eq {s : Sys} (h : lts.Reachable s) (u : String) : (s.consumer.balances.get? u).getD 0 =
    ((s.credits.filter (fun m => m.userId = u)).map PointEvent.points).sum := by
  refine lts.reachable_inv (I := fun s => (s.consumer.balances.get? u).getD 0 =
    ((s.credits.filter (fun m => m.userId = u)).map PointEvent.points).sum) rfl (fun s a s' hs hstep => ?_) h
  cases step_sound hstep with
  | @credit m hmessage =>
    change ((addPoints s.consumer.balances m).get? u).getD 0 = _
    rw [addPoints_get, hs, List.filter_append, List.map_append, List.sum_append]
    by_cases hu : m.userId = u
    · simp [hu]
    · simp [hu]
  | restart => rfl
  | @serveLate i call hi =>
    cases call with
    | set k => exact hs
    | commit offsets => exact hs
  | send p m => exact hs
  | assign p => exact hs
  | revoke p => exact hs
  | fetch hmessage hposition hm => exact hs
  | answer hmessage => exact hs
  | mark hmessage => exact hs
  | store hmessage => exact hs
  | commit hmessage hstage => exact hs
  | next hmessage => exact hs
  | stop => exact hs
  | expire k => exact hs

/-! ## What is marked or committed was added once -/

/-- The keys whose points the process has added. -/
def Sys.keys (s : Sys) : List String := s.credits.map PointEvent.idempotencyKey

/-- All messages of a partition below `n` have one of these keys. -/
def Covered (log : Nat → List PointEvent) (keys : List String) (p n : Nat) : Prop :=
  ∀ i, i < n → ∃ m, (log p)[i]? = some m ∧ m.idempotencyKey ∈ keys

def Covers (log : Nat → List PointEvent) (keys : List String) (offsets : Offsets) : Prop :=
  ∀ p n, offsets p = some n → Covered log keys p n

/-- **Every key that is marked, and every message whose offset is committed, is in the balances exactly once.** -/
structure Survives (s : Sys) : Prop where
  balances : ∀ u, (s.consumer.balances.get? u).getD 0 =
    ((s.credits.filter (fun m => m.userId = u)).map PointEvent.points).sum
  sent : ∀ m ∈ s.credits, ∃ p, m ∈ s.log p
  marked : ∀ k, isProcessed s.redis k = true → s.keys.count k = 1
  committed : ∀ p i m, i < s.committed p → (s.log p)[i]? = some m → s.keys.count m.idempotencyKey = 1

/-- A call that says of some keys that they are done says it of keys that this process has added. -/
def Sys.Knows (s : Sys) : Call → Prop
  | .set k => k ∈ s.keys
  | .commit offsets => Covers s.log s.keys offsets

/-- A process starts with nothing marked and nothing committed, it is told nothing by an earlier one that it has not
done itself, and no key it has added expires. -/
def Lasting (s : Sys) : Action → Prop
  | .restart => (∀ k, isProcessed s.redis k = false) ∧ ∀ p, s.committed p = 0
  | .serveLate i => match s.late[i]? with
    | some call => s.Knows call
    | none => True
  | .expire k => k ∉ s.keys
  | _ => True

/-- The points of the message have been added, by this handling of it or an earlier one. -/
def Stage.Past : Stage → Prop
  | .isProcessed => False
  | .answered found => found = true
  | _ => True

/-- The keys of the messages that the loop has got. -/
def Consumer.got (c : Consumer) (keys : List String) : List String :=
  (c.message.map (fun p => p.1.idempotencyKey)).toList ++ keys

/-- **The process knows what it has done**: below its positions it has added everything but the message in hand. -/
structure Handles (log : Nat → List PointEvent) (keys : List String) (c : Consumer) : Prop where
  sent : ∀ m stage, c.message = some (m, stage) → ∃ p, m ∈ log p
  position : Covers log (c.got keys) c.position
  past : ∀ m stage, c.message = some (m, stage) → stage.Past → m.idempotencyKey ∈ keys
  pending : ∀ m offsets, c.message = some (m, .commit offsets) → Covers log keys offsets

/-- **EXISTS tells what the process has added**: a key of it is marked, or its SET is under way, and a key that was not
found has not been added since. -/
structure Asks (redis : Dict String String) (keys : List String) (message : Option (PointEvent × Stage)) : Prop where
  added : ∀ k ∈ keys, isProcessed redis k = true ∨ ∃ m, message = some (m, .markProcessed) ∧ m.idempotencyKey = k
  absent : ∀ m, message = some (m, .answered false) → m.idempotencyKey ∉ keys

structure Inv (s : Sys) : Prop where
  once : s.keys.Nodup
  sent : ∀ m ∈ s.credits, ∃ p, m ∈ s.log p
  marked : ∀ k, isProcessed s.redis k = true → k ∈ s.keys
  committed : ∀ p, Covered s.log s.keys p (s.committed p)
  handles : Handles s.log s.keys s.consumer
  asks : Asks s.redis s.keys s.consumer.message

theorem Covered.mono {log log' : Nat → List PointEvent} {keys keys' : List String}
    (hlog : ∀ (p i : Nat) (m : PointEvent), (log p)[i]? = some m → (log' p)[i]? = some m) (hkeys : keys ⊆ keys')
    {p n : Nat} (h : Covered log keys p n) : Covered log' keys' p n := by
  intro i hi
  obtain ⟨m, hm, hk⟩ := h i hi
  exact ⟨m, hlog p i m hm, hkeys hk⟩

theorem Covers.mono {log log' : Nat → List PointEvent} {keys keys' : List String}
    (hlog : ∀ (p i : Nat) (m : PointEvent), (log p)[i]? = some m → (log' p)[i]? = some m) (hkeys : keys ⊆ keys')
    {offsets : Offsets} (h : Covers log keys offsets) : Covers log' keys' offsets :=
  fun p n hn => (h p n hn).mono hlog hkeys

theorem Handles.mono {log log' : Nat → List PointEvent} {keys keys' : List String}
    (hlog : ∀ (p i : Nat) (m : PointEvent), (log p)[i]? = some m → (log' p)[i]? = some m) (hkeys : keys ⊆ keys')
    {c : Consumer} (h : Handles log keys c) : Handles log' keys' c where
  sent m stage hm := by
    obtain ⟨p, hp⟩ := h.sent m stage hm
    obtain ⟨i, hi⟩ := List.getElem?_of_mem hp
    exact ⟨p, List.mem_of_getElem? (hlog p i m hi)⟩
  position := h.position.mono hlog fun k hk => (List.mem_append.1 hk).elim
    (fun hk => List.mem_append_left _ hk) (fun hk => List.mem_append_right _ (hkeys hk))
  past m stage hm hp := hkeys (h.past m stage hm hp)
  pending m offsets hm := (h.pending m offsets hm).mono hlog hkeys

/-- **The message in hand moves on** to another stage. -/
theorem Handles.stage {log : Nat → List PointEvent} {keys : List String} {c c' : Consumer} {m : PointEvent}
    {stage stage' : Stage} (h : Handles log keys c) (hm : c.message = some (m, stage))
    (hm' : c'.message = some (m, stage')) (hposition : c'.position = c.position)
    (hpast : stage'.Past → m.idempotencyKey ∈ keys)
    (hpending : ∀ offsets, stage' = .commit offsets → Covers log keys offsets) : Handles log keys c' := by
  have hgot : c'.got keys = c.got keys := by
    unfold Consumer.got
    rw [hm, hm']
    rfl
  constructor
  case sent =>
    intro m' stage'' hm''
    rw [hm', Option.some.injEq, Prod.mk.injEq] at hm''
    rw [← hm''.1]
    exact h.sent m stage hm
  case position =>
    rw [hposition, hgot]
    exact h.position
  case past =>
    intro m' stage'' hm'' hp
    rw [hm', Option.some.injEq, Prod.mk.injEq] at hm''
    rw [← hm''.1]
    rw [← hm''.2] at hp
    exact hpast hp
  case pending =>
    intro m' offsets hm''
    rw [hm', Option.some.injEq, Prod.mk.injEq] at hm''
    exact hpending offsets hm''.2

/-- **A message that is done with leaves the positions covered.** -/
theorem Handles.position_of_past {log : Nat → List PointEvent} {keys : List String} {c : Consumer} {m : PointEvent}
    {stage : Stage} (h : Handles log keys c) (hm : c.message = some (m, stage)) (hpast : stage.Past) :
    Covers log keys c.position := by
  refine h.position.mono (fun _ _ _ hi => hi) fun k hk => ?_
  unfold Consumer.got at hk
  rw [hm] at hk
  rcases List.mem_append.1 hk with hk | hk
  · rw [List.mem_singleton.1 hk]
    exact h.past m stage hm hpast
  · exact hk

theorem Handles.assign {log : Nat → List PointEvent} {keys : List String} {c : Consumer} (h : Handles log keys c)
    (p : Nat) {position : Option Nat} (hp : ∀ n, position = some n → Covered log keys p n) :
    Handles log keys { c with position := fun p' => if p' = p then position else c.position p' } := by
  refine ⟨h.sent, fun p' n hn => ?_, h.past, h.pending⟩
  dsimp only at hn
  split at hn
  · rename_i heq
    rw [heq]
    exact (hp n hn).mono (fun _ _ _ hi => hi) (List.subset_append_right _ _)
  · exact h.position p' n hn

/-- **A message is got**: the position passes it, and it is in hand. -/
theorem Handles.fetch {log : Nat → List PointEvent} {keys : List String} {c : Consumer} {m : PointEvent} {p o : Nat}
    (h : Handles log keys c) (hmessage : c.message = none) (hposition : c.position p = some o)
    (hm : (log p)[o]? = some m) : Handles log keys { c with
      position := fun p' => if p' = p then some (o + 1) else c.position p', message := some (m, .isProcessed) } := by
  have hgot : c.got keys ⊆ m.idempotencyKey :: keys := by
    unfold Consumer.got
    rw [hmessage]
    exact List.subset_cons_self _ _
  constructor
  case sent =>
    intro m' stage hm'
    cases hm'
    exact ⟨p, List.mem_of_getElem? hm⟩
  case position =>
    intro p' n hn
    dsimp only at hn
    split at hn
    · rename_i heq
      cases hn
      rw [heq]
      intro i hi
      rcases Nat.lt_succ_iff_lt_or_eq.1 hi with hi | rfl
      · exact (h.position p o hposition).mono (fun _ _ _ hi => hi) hgot i hi
      · exact ⟨m, hm, List.mem_cons_self⟩
    · exact (h.position p' n hn).mono (fun _ _ _ hi => hi) hgot
  case past =>
    intro m' stage hm' hpast
    cases hm'
    cases hpast
  case pending =>
    intro m' offsets hm'
    cases hm'

section Asks

variable {redis : Dict String String} {keys : List String} {message message' : Option (PointEvent × Stage)}
  {m : PointEvent}

/-- Calls that neither end in a mark nor in an answer. -/
theorem Asks.moved (h : Asks redis keys message) (hleft : ∀ m, message ≠ some (m, .markProcessed))
    (hnew : ∀ m, message' ≠ some (m, .answered false)) : Asks redis keys message' := by
  refine ⟨fun k hk => ?_, fun m hm => absurd hm (hnew m)⟩
  rcases h.added k hk with hmarked | ⟨m, hm, -⟩
  · exact .inl hmarked
  · exact absurd hm (hleft m)

/-- **A key that EXISTS does not find was not added.** -/
theorem Asks.answer (h : Asks redis keys (some (m, .isProcessed))) :
    Asks redis keys (some (m, .answered (isProcessed redis m.idempotencyKey))) := by
  have hmarked : ∀ k ∈ keys, isProcessed redis k = true := by
    intro k hk
    rcases h.added k hk with hmarked | ⟨m', hm', -⟩
    · exact hmarked
    · cases hm'
  refine ⟨fun k hk => .inl (hmarked k hk), fun m' hm' hmem => ?_⟩
  rw [Option.some.injEq, Prod.mk.injEq, Stage.answered.injEq] at hm'
  obtain ⟨rfl, hfound⟩ := hm'
  rw [hmarked _ hmem] at hfound
  cases hfound

/-- The points of a key are added, and its SET is to come. -/
theorem Asks.credit (h : Asks redis keys (some (m, .answered false))) :
    Asks redis (keys ++ [m.idempotencyKey]) (some (m, .markProcessed)) := by
  refine ⟨fun k hk => ?_, fun m' hm' => (by cases hm')⟩
  rcases List.mem_append.1 hk with hk | hk
  · rcases h.added k hk with hmarked | ⟨m', hm', -⟩
    · exact .inl hmarked
    · cases hm'
  · exact .inr ⟨m, rfl, (List.mem_singleton.1 hk).symm⟩

theorem Asks.set (h : Asks redis keys message) (k : String) : Asks (markProcessed redis k) keys message := by
  refine ⟨fun k' hk' => (h.added k' hk').imp_left fun hmarked => ?_, h.absent⟩
  rw [isProcessed_markProcessed, hmarked, Bool.or_true]

/-- **The SET is served**: every key that was added is marked. -/
theorem Asks.mark (h : Asks redis keys (some (m, .markProcessed))) :
    Asks (markProcessed redis m.idempotencyKey) keys (some (m, .marked)) := by
  refine ⟨fun k hk => .inl ?_, fun m' hm' => (by cases hm')⟩
  rw [isProcessed_markProcessed]
  rcases h.added k hk with hmarked | ⟨m', hm', rfl⟩
  · rw [hmarked, Bool.or_true]
  · cases hm'
    rw [decide_eq_true rfl, Bool.true_or]

/-- A key that was not added may go. -/
theorem Asks.expire (h : Asks redis keys message) {k : String} (hk : k ∉ keys) :
    Asks (redis.erase (keyPrefix ++ k)) keys message := by
  refine ⟨fun k' hk' => (h.added k' hk').imp_left fun hmarked => ?_, h.absent⟩
  have hne : k' ≠ k := fun heq => hk (heq ▸ hk')
  unfold isProcessed at hmarked ⊢
  rwa [Dict.get?_erase, if_neg fun heq => hne ((String.append_right_inj keyPrefix).1 heq)]

end Asks

theorem inv_init : Inv {} where
  once := List.nodup_nil
  sent m hm := by cases hm
  marked k hk := by cases hk
  committed p i hi := absurd hi (Nat.not_lt_zero i)
  handles := ⟨fun m stage hm => (by cases hm), fun p n hn => (by cases hn), fun m stage hm => (by cases hm),
    fun m offsets hm => (by cases hm)⟩
  asks := ⟨fun k hk => (by cases hk), fun m hm => (by cases hm)⟩

theorem Inv.mark {s : Sys} (hi : Inv s) {k : String} (hk : k ∈ s.keys) :
    Inv { s with redis := markProcessed s.redis k } := by
  refine ⟨hi.once, hi.sent, fun k' hk' => ?_, hi.committed, hi.handles, hi.asks.set k⟩
  dsimp only at hk'
  rw [isProcessed_markProcessed, Bool.or_eq_true, decide_eq_true_eq] at hk'
  rcases hk' with rfl | hk'
  · exact hk
  · exact hi.marked k' hk'

theorem Inv.store {s : Sys} (hi : Inv s) {offsets : Offsets} (ho : Covers s.log s.keys offsets) :
    Inv (s.store offsets) := by
  refine ⟨hi.once, hi.sent, hi.marked, fun p => ?_, hi.handles, hi.asks⟩
  change Covered s.log s.keys p ((offsets p).getD (s.committed p))
  cases hp : offsets p with
  | none => exact hi.committed p
  | some n => exact ho p n hp

theorem Inv.setStage {s : Sys} (hi : Inv s) {m : PointEvent} {stage stage' : Stage}
    (hm : s.consumer.message = some (m, stage)) (hpast : stage'.Past → m.idempotencyKey ∈ s.keys)
    (hpending : ∀ offsets, stage' = .commit offsets → Covers s.log s.keys offsets)
    (hasks : Asks s.redis s.keys (some (m, stage'))) : Inv (s.setStage m stage') :=
  ⟨hi.once, hi.sent, hi.marked, hi.committed, hi.handles.stage hm rfl rfl hpast hpending, hasks⟩

/-- The log only grows. -/
theorem Inv.send {s : Sys} (hi : Inv s) (p : Nat) (m : PointEvent) :
    Inv { s with log := fun p' => if p' = p then s.log p' ++ [m] else s.log p' } := by
  have hlog : ∀ (p' i : Nat) (m' : PointEvent), (s.log p')[i]? = some m' →
      (if p' = p then s.log p' ++ [m] else s.log p')[i]? = some m' := by
    intro p' i m' hm'
    split
    · rw [List.getElem?_append_left (List.getElem?_eq_some_iff.1 hm').1]
      exact hm'
    · exact hm'
  refine ⟨hi.once, fun m' hm' => ?_, hi.marked, fun p' => (hi.committed p').mono hlog (List.Subset.refl _),
    hi.handles.mono hlog (List.Subset.refl _), hi.asks⟩
  obtain ⟨p', hp'⟩ := hi.sent m' hm'
  obtain ⟨i, hi'⟩ := List.getElem?_of_mem hp'
  exact ⟨p', List.mem_of_getElem? (hlog p' i m' hi')⟩

/-- **Points of a key that was not found**: no key has them twice. -/
theorem Inv.credit {s : Sys} (hi : Inv s) {m : PointEvent}
    (hmessage : s.consumer.message = some (m, .answered false)) : Inv { s with
      consumer := { s.consumer with balances := addPoints s.consumer.balances m, message := some (m, .markProcessed) }
      credits := s.credits ++ [m] } := by
  have hkeys : (s.credits ++ [m]).map PointEvent.idempotencyKey = s.keys ++ [m.idempotencyKey] := List.map_append
  have hsub : s.keys ⊆ (s.credits ++ [m]).map PointEvent.idempotencyKey := by
    rw [hkeys]
    exact List.subset_append_left _ _
  have hasks := hi.asks
  rw [hmessage] at hasks
  have hnew : m.idempotencyKey ∉ s.keys := hasks.absent m rfl
  constructor
  case once =>
    change ((s.credits ++ [m]).map PointEvent.idempotencyKey).Nodup
    rw [hkeys]
    exact hi.once.append (List.nodup_singleton _) (by simpa [List.disjoint_singleton] using hnew)
  case sent =>
    intro m' hm'
    rcases List.mem_append.1 hm' with hm' | hm'
    · exact hi.sent m' hm'
    · rw [List.mem_singleton.1 hm']
      exact hi.handles.sent m _ hmessage
  case marked => exact fun k hk => hsub (hi.marked k hk)
  case committed => exact fun p => (hi.committed p).mono (fun _ _ _ h => h) hsub
  case handles =>
    apply (hi.handles.mono (fun _ _ _ h => h) hsub).stage hmessage
    · rfl
    · rfl
    · intro _
      rw [hkeys]
      exact List.mem_append_right _ (List.mem_singleton.2 rfl)
    · intro offsets hstage
      cases hstage
  case asks =>
    change Asks s.redis ((s.credits ++ [m]).map PointEvent.idempotencyKey) _
    rw [hkeys]
    exact hasks.credit

/-- A process that finds nothing done starts from nothing. -/
theorem Inv.restart {s : Sys} (hmarked : ∀ k, isProcessed s.redis k = false) (hcommitted : ∀ p, s.committed p = 0) :
    Inv { s with consumer := {}, late := s.late ++ s.consumer.leaves, credits := [] } := by
  refine ⟨List.nodup_nil, fun m hm => ?_, fun k hk => ?_, fun p i hp => ?_, inv_init.handles.mono ?_ ?_,
    fun k hk => (by cases hk), fun m hm => (by cases hm)⟩
  · cases hm
  · rw [hmarked k] at hk
    cases hk
  · rw [hcommitted p] at hp
    exact absurd hp (Nat.not_lt_zero i)
  · intro p i m hm
    cases hm
  · exact List.Subset.refl _

theorem Inv.serveLate {s : Sys} (hi : Inv s) {call : Call} (hknows : s.Knows call) (i : Nat) :
    Inv { s.serveLate call with late := s.late.eraseIdx i } := by
  have hserved : Inv (s.serveLate call) := by
    cases call with
    | set k => exact hi.mark hknows
    | commit offsets => exact hi.store hknows
  exact ⟨hserved.once, hserved.sent, hserved.marked, hserved.committed, hserved.handles, hserved.asks⟩

theorem Inv.expire {s : Sys} (hi : Inv s) {k : String} (hk : k ∉ s.keys) :
    Inv { s with redis := s.redis.erase (keyPrefix ++ k) } := by
  refine ⟨hi.once, hi.sent, fun k' hk' => hi.marked k' ?_, hi.committed, hi.handles, hi.asks.expire hk⟩
  unfold isProcessed at hk' ⊢
  dsimp only at hk'
  rw [Dict.get?_erase] at hk'
  split at hk'
  · cases hk'
  · exact hk'

/-- **A step that meets the condition keeps the invariant.** -/
theorem inv_step (s : Sys) (a : Action) (s' : Sys) (hi : Inv s) (h : step s a = some s') (hc : Lasting s a) :
    Inv s' := by
  cases step_sound h with
  | send p m => exact hi.send p m
  | assign p =>
    have hp : ∀ n, some (s.committed p) = some n → Covered s.log s.keys p n := by
      intro n hn
      cases hn
      exact hi.committed p
    exact ⟨hi.once, hi.sent, hi.marked, hi.committed, hi.handles.assign p hp, hi.asks⟩
  | revoke p =>
    have hp : ∀ n, none = some n → Covered s.log s.keys p n := by
      intro n hn
      cases hn
    exact ⟨hi.once, hi.sent, hi.marked, hi.committed, hi.handles.assign p hp, hi.asks⟩
  | fetch hmessage hposition hm =>
    refine ⟨hi.once, hi.sent, hi.marked, hi.committed, hi.handles.fetch hmessage hposition hm, hi.asks.moved ?_ ?_⟩
    · intro m hm
      rw [hmessage] at hm
      cases hm
    · intro m hm
      cases hm
  | answer hmessage =>
    have hasks := hi.asks
    rw [hmessage] at hasks
    apply hi.setStage hmessage
    · exact fun hfound => hi.marked _ hfound
    · intro offsets hstage
      cases hstage
    · exact hasks.answer
  | @mark m hmessage =>
    have hk := hi.handles.past _ _ hmessage trivial
    have hasks := hi.asks
    rw [hmessage] at hasks
    change Inv (Sys.setStage { s with redis := markProcessed s.redis m.idempotencyKey } m .marked)
    apply (hi.mark hk).setStage hmessage
    · exact fun _ => hk
    · intro offsets hstage
      cases hstage
    · exact hasks.mark
  | store hmessage =>
    apply (hi.store (hi.handles.pending _ _ hmessage)).setStage hmessage
    · exact fun _ => hi.handles.past _ _ hmessage trivial
    · intro offsets hstage
      cases hstage
    · apply hi.asks.moved
      · intro m hm
        rw [hmessage] at hm
        cases hm
      · intro m hm
        cases hm
  | credit hmessage => exact hi.credit hmessage
  | @commit m stage hmessage hstage =>
    have hpast : stage.Past := by
      rcases hstage with rfl | rfl
      · exact rfl
      · trivial
    apply hi.setStage hmessage
    · exact fun _ => hi.handles.past m stage hmessage hpast
    · intro offsets hoffsets
      cases hoffsets
      exact hi.handles.position_of_past hmessage hpast
    · apply hi.asks.moved
      · intro m' hm'
        rw [hmessage] at hm'
        cases hm'
        rcases hstage with h | h <;> cases h
      · intro m' hm'
        cases hm'
  | next hmessage =>
    refine ⟨hi.once, hi.sent, hi.marked, hi.committed, ⟨?_, ?_, ?_, ?_⟩, hi.asks.moved ?_ ?_⟩
    · intro m stage hm
      cases hm
    · exact hi.handles.position_of_past hmessage trivial
    · intro m stage hm
      cases hm
    · intro m offsets hm
      cases hm
    · intro m hm
      rw [hmessage] at hm
      cases hm
    · intro m hm
      cases hm
  | stop =>
    have hh := hi.handles
    exact ⟨hi.once, hi.sent, hi.marked, hi.committed, ⟨hh.sent, hh.position, hh.past, hh.pending⟩, hi.asks⟩
  | restart => exact .restart hc.1 hc.2
  | @serveLate i call hcall =>
    simp only [Lasting, hcall] at hc
    exact hi.serveLate hc i
  | expire k => exact hi.expire hc

/-- **Credit and mark survive a crash together** in every run whose processes find nothing done that they have not done
themselves, as long as no key expires that the process has added. -/
theorem survives {actions : List Action} {s : Sys} (hrun : lts.run lts.init actions = some s)
    (hlasting : lts.Along (fun s a _ => Lasting s a) lts.init actions) : Survives s := by
  have hi := lts.run_inv_along (fun s a s' hi h hc => inv_step s a s' hi h hc) inv_init hlasting hrun
  refine ⟨fun u => balances_eq ⟨actions, hrun⟩ u, hi.sent, fun k hk => ?_, fun p i m hp hm => ?_⟩
  · exact List.count_eq_one_of_mem hi.once (hi.marked k hk)
  · obtain ⟨m', hm', hk⟩ := hi.committed p i hp
    rw [hm, Option.some.injEq] at hm'
    rw [hm']
    exact List.count_eq_one_of_mem hi.once hk

/-! ## One message -/

def bonus : PointEvent := ⟨"user-001", 100, "tx-abc-123"⟩

/-- The process dies between the credit and the mark; the next one is delivered the message again. -/
def diedUnmarked : List Action :=
  [.send 0 bonus, .assign 0, .fetch 0, .serve, .resume, .restart, .assign 0, .fetch 0, .serve, .resume, .serve, .resume,
    .serve, .resume]

theorem survives_diedUnmarked : ∃ s, lts.run lts.init diedUnmarked = some s ∧ s.committed 0 = 1 ∧
    s.consumer.balances.get? "user-001" = some 100 ∧ Survives s := by
  obtain ⟨s, hrun, hcommitted, hbalance⟩ : ∃ s, lts.run lts.init diedUnmarked = some s ∧ s.committed 0 = 1 ∧
      s.consumer.balances.get? "user-001" = some 100 := ⟨_, rfl, rfl, rfl⟩
  have hlasting : lts.Along (fun s a _ => Lasting s a) lts.init diedUnmarked :=
    ⟨trivial, trivial, trivial, trivial, trivial, ⟨fun k => rfl, fun p => rfl⟩, trivial, trivial, trivial, trivial,
      trivial, trivial, trivial, trivial, trivial⟩
  exact ⟨s, hrun, hcommitted, hbalance, survives hrun hlasting⟩

/-- The process dies once the message is marked and committed. -/
def diedCommitted : List Action :=
  [.send 0 bonus, .assign 0, .fetch 0, .serve, .resume, .serve, .resume, .serve, .resume, .restart]

/-- Its points are gone, and no process will add them again. -/
theorem diedCommitted_lost : ∃ s, lts.run lts.init diedCommitted = some s ∧ ¬ Survives s := by
  obtain ⟨s, hrun, hmarked, hcredits⟩ : ∃ s, lts.run lts.init diedCommitted = some s ∧
      isProcessed s.redis "tx-abc-123" = true ∧ s.keys = [] := ⟨_, rfl, by decide +kernel, rfl⟩
  refine ⟨s, hrun, fun h => ?_⟩
  have hcount := h.marked "tx-abc-123" hmarked
  rw [hcredits, List.count_nil] at hcount
  cases hcount

end PointsCrash
end KafkaGuide
