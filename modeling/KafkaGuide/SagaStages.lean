import KafkaGuide.SagaSys
/-!
# SagaStages — the stages of the saga, and what every run of it keeps

Each event type has one topic, and each topic but `order.created` is written by one stage: a service that handles one
type of message and publishes one answer, which its handler owes from the moment it reads the message (`Phase.debt`).
`Step` is the step function by its cases, and `Wf` holds in every run, whatever the brokers do.
-/
namespace KafkaGuide
namespace Saga

variable {format : ℚ → String}

/-! ## Stages -/

def EventType.topic : EventType → Topic
  | .orderCreated => .orderCreated
  | .paymentCompleted | .paymentFailed => .paymentResult
  | .inventoryReserved | .inventoryFailed => .inventoryResult
  | .refundRequested => .refundRequest
  | .refundCompleted | .refundFailed => .refundResult

theorem EventType.eq_orderCreated {ty : EventType} (h : ty.topic = .orderCreated) : ty = .orderCreated := by
  cases ty <;> first | rfl | cases h

theorem EventType.eq_refundRequested {ty : EventType} (h : ty.topic = .refundRequest) : ty = .refundRequested := by
  cases ty <;> first | rfl | cases h

inductive Stage where
  | pay
  | reserve
  | compensate
  | refund
deriving DecidableEq, Repr

namespace Stage

def service : Stage → Service
  | .pay | .refund => .payment
  | .reserve => .inventory
  | .compensate => .order

def trigger : Stage → EventType
  | .pay => .orderCreated
  | .reserve => .paymentCompleted
  | .compensate => .inventoryFailed
  | .refund => .refundRequested

def output : Stage → Topic
  | .pay => .paymentResult
  | .reserve => .inventoryResult
  | .compensate => .refundRequest
  | .refund => .refundResult

theorem output_injective {st st' : Stage} (h : st.output = st'.output) : st = st' := by
  cases st <;> cases st' <;> first | rfl | exact absurd h (by decide)

/-- A service tells its stages apart by the topic they read. -/
theorem eq_of_reads {st st' : Stage} (hs : st.service = st'.service) (ht : st.trigger.topic = st'.trigger.topic) :
    st = st' := by
  cases st <;> cases st' <;> first | rfl | exact absurd hs (by decide) | exact absurd ht (by decide)

theorem trigger_injective {st st' : Stage} (h : st.trigger = st'.trigger) : st = st' := by
  cases st <;> cases st' <;> first | rfl | exact absurd h (by decide)

theorem output_ne_orderCreated (st : Stage) : st.output ≠ .orderCreated := by
  cases st <;> decide

end Stage

/-- The stage a message sets off. -/
def EventType.triggers : EventType → Option Stage
  | .orderCreated => some .pay
  | .paymentCompleted => some .reserve
  | .inventoryFailed => some .compensate
  | .refundRequested => some .refund
  | _ => none

/-- The stage that writes a topic. -/
def Topic.writer : Topic → Option Stage
  | .orderCreated => none
  | .paymentResult => some .pay
  | .inventoryResult => some .reserve
  | .refundRequest => some .compensate
  | .refundResult => some .refund

theorem triggers_iff {ty : EventType} {st : Stage} : ty.triggers = some st ↔ ty = st.trigger := by
  cases ty <;> cases st <;> decide

theorem writer_iff {t : Topic} {st : Stage} : t.writer = some st ↔ t = st.output := by
  cases t <;> cases st <;> decide

/-- The publication a handler still owes: of which stage, for which order. -/
def Phase.debt : Phase → Option (Stage × Uuid)
  | .sleeping _ event => event.eventType.triggers.map (fun st => (st, event.orderId))
  | .publishing topic event false => topic.writer.map (fun st => (st, event.orderId))
  | _ => none

def Sys.debt (s : Sys) (svc : Service) : Option (Stage × Uuid) := (s.running (.consumer svc)).bind Phase.debt

def Sys.owed (s : Sys) (st : Stage) (o : Uuid) : Nat := if s.debt st.service = some (st, o) then 1 else 0

/-- What the party's own handlers can be doing. -/
def Phase.Ok : Party → Phase → Prop
  | .post o, .publishing topic event _ =>
    topic = .orderCreated ∧ event.eventType = .orderCreated ∧ event.orderId = o
  | .post _, _ => False
  | .consumer svc, .sleeping topic event =>
    ∃ st : Stage, st.service = svc ∧ st.trigger.topic = topic ∧ event.eventType = st.trigger
  | .consumer svc, .publishing topic event _ => ∃ st : Stage, st.service = svc ∧ st.output = topic ∧
    event.eventType.topic = topic
  | .consumer _, .stopped => True

/-- **Well-formed**: handlers do what they can, messages are on the topic of their type under their order's id, and no
consumer is ahead of a log. -/
structure Wf (s : Sys) : Prop where
  running : ∀ p phase, s.running p = some phase → phase.Ok p
  keyed : ∀ topic o, ∀ event ∈ s.log topic o, event.eventType.topic = topic ∧ event.orderId = o
  cursor : ∀ svc topic o, s.next svc topic o ≤ (s.log topic o).length

/-! ## Steps -/

inductive Step (net : Net) (s : Sys) : Action → Sys → Prop
  | createNewOrder {o : Uuid} (userId : String) (items : List Item) (h : s.ordersDb.get? o = none) :
    Step net s (.createNewOrder o userId items)
      ({ s with ordersDb := (createNewOrder s.ordersDb o userId items).1 }.setRunning (.post o)
        (some (.publishing .orderCreated (createNewOrder s.ordersDb o userId items).2 false)))
  | deliver {svc : Service} {topic : Topic} {o : Uuid} {i : Nat} {event : Event}
    (hrun : s.running (.consumer svc) = none) (hget : (s.log topic o)[i]? = some event)
    (hsub : svc.subscribes topic) (hi : i = s.next svc topic o ∨ net.redelivers ∧ i < s.next svc topic o) :
    Step net s (.deliver svc topic o i) ((s.advance svc topic o i).receive net.format svc topic event)
  | draw {svc : Service} {topic : Topic} {event : Event} {isSuccess : Bool} {s' : Sys}
    (hrun : s.running (.consumer svc) = some (.sleeping topic event))
    (h : s.drawn svc topic event isSuccess = some s') : Step net s (.draw svc isSuccess) s'
  | land {p : Party} {topic : Topic} {event : Event} (hrun : s.running p = some (.publishing topic event false)) :
    Step net s (.land p) ((s.append topic event).setRunning p (some (.publishing topic event true)))
  | resume {p : Party} {topic : Topic} {event : Event} (hrun : s.running p = some (.publishing topic event true)) :
    Step net s (.resume p) (s.published p)
  | raise {p : Party} {topic : Topic} {event : Event} {landed : Bool}
    (hrun : s.running p = some (.publishing topic event landed)) (hnet : net.publishRaises) :
    Step net s (.raise p) (s.raised p)

theorem step_sound {net : Net} {s s' : Sys} {a : Action} (h : step net s a = some s') : Step net s a s' := by
  unfold step at h
  split at h
  · split at h
    · cases h
    · rename_i o userId items hnew
      cases h
      exact .createNewOrder userId items (by simpa using hnew)
  · split at h
    · split at h
      · rename_i hrun hget hok
        cases h
        exact .deliver hrun hget hok.1 hok.2
      · cases h
    · cases h
  · split at h
    · rename_i hrun
      exact .draw hrun h
    · cases h
  · split at h
    · rename_i hrun
      cases h
      exact .land hrun
    · cases h
  · split at h
    · rename_i hrun
      cases h
      exact .resume hrun
    · cases h
  · split at h
    · rename_i hrun
      split at h
      · rename_i hnet
        cases h
        exact .raise hrun hnet
      · cases h
    · cases h

/-! ## What a handler does, by stage -/

theorem setRunning_running (s : Sys) (p p' : Party) (phase : Option Phase) :
    (s.setRunning p phase).running p' = if p' = p then phase else s.running p' := rfl

theorem setRunning_debt (s : Sys) (svc svc' : Service) (phase : Option Phase) :
    (s.setRunning (.consumer svc) phase).debt svc' = if svc' = svc then phase.bind Phase.debt else s.debt svc' := by
  unfold Sys.debt
  rw [setRunning_running]
  by_cases h : svc' = svc
  · rw [if_pos h, if_pos (by rw [h])]
  · rw [if_neg h, if_neg (by simpa using h)]

theorem setRunning_post_debt (s : Sys) (o : Uuid) (svc : Service) (phase : Option Phase) :
    (s.setRunning (.post o) phase).debt svc = s.debt svc := by
  unfold Sys.debt
  rw [setRunning_running, if_neg (by simp)]

theorem get?_updateOrderStatus (db : OrdersDb) (o o' : Uuid) (status : OrderStatus) (reason : String) :
    ((updateOrderStatus db o status reason).get? o').map Order.status =
      if o' = o then (db.get? o).map (fun _ => status) else (db.get? o').map Order.status := by
  unfold updateOrderStatus
  by_cases h : o' = o
  · subst h
    rw [if_pos rfl]
    cases hdb : db.get? o' with
    | none => simp [hdb]
    | some order => simp
  · rw [if_neg h]
    cases hdb : db.get? o with
    | none => rfl
    | some order => simp [h]

theorem isSome_updateOrderStatus (db : OrdersDb) (o o' : Uuid) (status : OrderStatus) (reason : String) :
    ((updateOrderStatus db o status reason).get? o').isSome = (db.get? o').isSome := by
  have h := get?_updateOrderStatus db o o' status reason
  rw [← Option.isSome_map (f := Order.status), h]
  split
  · rename_i heq
    rw [heq, Option.isSome_map]
  · rw [Option.isSome_map]

/-- **A handler that draws** answers on its stage's topic, about the order it was asked about, and keeps a record of
the answer. -/
theorem drawn_stage {s s' : Sys} {svc : Service} {topic : Topic} {event : Event} {isSuccess : Bool}
    (h : s.drawn svc topic event isSuccess = some s') :
    ∃ (st : Stage) (answer : Event), st.service = svc ∧ st.trigger.topic = topic ∧
      answer.eventType.topic = st.output ∧ answer.orderId = event.orderId ∧ s'.log = s.log ∧ s'.next = s.next ∧
      s'.ordersDb = s.ordersDb ∧
      s'.running = (s.setRunning (.consumer svc) (some (.publishing st.output answer false))).running ∧
      ∀ o ty, s'.recorded o ty = s.recorded o ty + if answer.eventType = ty ∧ answer.orderId = o then 1 else 0 := by
  unfold Sys.drawn at h
  split at h
  · cases h
    refine ⟨.pay, (processOrderCreated event isSuccess).2, rfl, rfl, ?_, ?_, rfl, rfl, rfl, rfl, fun o ty => ?_⟩
    · cases isSuccess <;> rfl
    · cases isSuccess <;> rfl
    · cases isSuccess <;> cases ty <;>
        simp [Sys.recorded, Sys.setRunning, processOrderCreated, List.countP_append, List.countP_cons]
  · cases h
    refine ⟨.refund, (processRefundRequest event isSuccess).2, rfl, rfl, ?_, ?_, rfl, rfl, rfl, rfl, fun o ty => ?_⟩
    · cases isSuccess <;> rfl
    · cases isSuccess <;> rfl
    · cases isSuccess <;> cases ty <;>
        simp [Sys.recorded, Sys.setRunning, processRefundRequest, List.countP_append, List.countP_cons]
  · cases h
    refine ⟨.reserve, (processPaymentResult event isSuccess).2, rfl, rfl, ?_, ?_, rfl, rfl, rfl, rfl, fun o ty => ?_⟩
    · cases isSuccess <;> rfl
    · cases isSuccess <;> rfl
    · cases isSuccess <;> cases ty <;>
        simp [Sys.recorded, Sys.setRunning, processPaymentResult, List.countP_append, List.countP_cons]
  · cases h

theorem receive_log (s : Sys) (format : ℚ → String) (svc : Service) (topic : Topic) (event : Event) :
    (s.receive format svc topic event).log = s.log ∧ (s.receive format svc topic event).next = s.next := by
  unfold Sys.receive
  split
  · exact ⟨rfl, rfl⟩
  · exact ⟨rfl, rfl⟩
  · split <;> exact ⟨rfl, rfl⟩

/-- `process_message` publishes for INVENTORY_FAILED only, when it knows the order. -/
theorem processMessage_publishes (format : ℚ → String) {db : OrdersDb} {event : Event}
    (hdb : (db.get? event.orderId).isSome) :
    (processMessage format db event.eventType.topic event).2.map Event.orderId =
      if event.eventType = .inventoryFailed then some event.orderId else none := by
  unfold processMessage
  cases hty : event.eventType with
  | inventoryFailed =>
    have hdb' : ((updateOrderStatus db event.orderId .compensating (event.reason.getD "재고 부족")).get?
        event.orderId).isSome := by rwa [isSome_updateOrderStatus]
    obtain ⟨order, ho⟩ := Option.isSome_iff_exists.1 hdb'
    simp [EventType.topic, ho]
  | _ => simp [EventType.topic]

theorem setRunning_owed (s : Sys) (svc : Service) (phase : Option Phase) (st : Stage) (o : Uuid) :
    (s.setRunning (.consumer svc) phase).owed st o =
      if st.service = svc then (if phase.bind Phase.debt = some (st, o) then 1 else 0) else s.owed st o := by
  unfold Sys.owed
  rw [setRunning_debt]
  by_cases h : st.service = svc <;> simp only [h, if_true, if_false]

theorem owed_of_none {s : Sys} {st : Stage} (h : s.running (.consumer st.service) = none) (o : Uuid) :
    s.owed st o = 0 := by
  unfold Sys.owed Sys.debt
  rw [h]
  rfl

theorem debt_sleeping {topic : Topic} {event : Event} {st : Stage} {o : Uuid} :
    (Phase.sleeping topic event).debt = some (st, o) ↔ event.eventType = st.trigger ∧ event.orderId = o := by
  unfold Phase.debt
  rw [Option.map_eq_some_iff]
  constructor
  · rintro ⟨st', h, he⟩
    cases he
    exact ⟨triggers_iff.1 h, rfl⟩
  · rintro ⟨h, rfl⟩
    exact ⟨st, triggers_iff.2 h, rfl⟩

theorem debt_publishing {topic : Topic} {event : Event} {st : Stage} {o : Uuid} :
    (Phase.publishing topic event false).debt = some (st, o) ↔ topic = st.output ∧ event.orderId = o := by
  unfold Phase.debt
  rw [Option.map_eq_some_iff]
  constructor
  · rintro ⟨st', h, he⟩
    cases he
    exact ⟨writer_iff.1 h, rfl⟩
  · rintro ⟨h, rfl⟩
    exact ⟨st, writer_iff.2 h, rfl⟩

/-- **A consumer that reads a message** owes an answer for the stage the message sets off there. -/
theorem receive_owed {s : Sys} (format : ℚ → String) {svc : Service} {event : Event}
    (hsub : svc.subscribes event.eventType.topic) (hrun : s.running (.consumer svc) = none)
    (hdb : (s.ordersDb.get? event.orderId).isSome) (st : Stage) (o : Uuid) :
    (s.receive format svc event.eventType.topic event).owed st o =
      s.owed st o + if st.service = svc ∧ event.eventType = st.trigger ∧ event.orderId = o then 1 else 0 := by
  by_cases hst : st.service = svc
  · subst hst
    rw [owed_of_none hrun, zero_add]
    unfold Sys.receive
    split
    · rename_i hsvc
      have hcomp : st = .compensate := by cases st <;> first | rfl | exact absurd hsvc (by decide)
      subst hcomp
      have hpub := processMessage_publishes format hdb
      rw [setRunning_owed, if_pos hsvc]
      cases hr : (processMessage format s.ordersDb event.eventType.topic event).2 with
      | none =>
        rw [hr] at hpub
        have : event.eventType ≠ .inventoryFailed := fun h => by simp [h] at hpub
        simp [Stage.trigger, this]
      | some answer =>
        rw [hr] at hpub
        by_cases hty : event.eventType = .inventoryFailed
        · simp only [hty, if_true, Option.map_some, Option.some.injEq] at hpub
          simp [debt_publishing, Stage.output, Stage.trigger, Stage.service, hty, hpub]
        · simp [hty] at hpub
    · rename_i hsvc
      rw [setRunning_owed, if_pos hsvc, Option.bind_some]
      simp [debt_sleeping]
    · rename_i hsvc
      split
      · rw [setRunning_owed, if_pos hsvc, Option.bind_some]
        simp [debt_sleeping]
      · rename_i hty
        have hres : st = .reserve := by cases st <;> first | rfl | exact absurd hsvc (by decide)
        subst hres
        rw [owed_of_none (by simpa [Stage.service] using hrun)]
        simp [Stage.trigger, hty]
  · have hne : ∀ phase, (s.setRunning (.consumer svc) phase).owed st o = s.owed st o := fun phase => by
      rw [setRunning_owed, if_neg hst]
    rw [if_neg (fun h => hst h.1), add_zero]
    unfold Sys.receive
    split
    · exact hne _
    · exact hne _
    · split
      · exact hne _
      · rfl

/-! ## Well-formedness -/

theorem receive_ok {s : Sys} {svc : Service} {event : Event} (hsub : svc.subscribes event.eventType.topic)
    (hwf : ∀ p phase, s.running p = some phase → phase.Ok p) {p : Party} {phase : Phase}
    (h : (s.receive format svc event.eventType.topic event).running p = some phase) : phase.Ok p := by
  unfold Sys.receive at h
  split at h
  · rw [setRunning_running] at h
    split at h
    · rename_i hp
      subst hp
      obtain ⟨answer, hr, rfl⟩ := Option.map_eq_some_iff.1 h
      refine ⟨.compensate, rfl, rfl, ?_⟩
      unfold processMessage at hr
      split at hr <;> try cases hr
      dsimp only at hr
      split at hr
      · cases hr
        rfl
      · cases hr
    · exact hwf p phase h
  · rw [setRunning_running] at h
    split at h
    · rename_i hp
      subst hp
      cases h
      cases hty : event.eventType <;> rw [hty] at hsub <;> try exact absurd hsub (by decide)
      · exact ⟨.pay, rfl, rfl, hty⟩
      · exact ⟨.refund, rfl, rfl, hty⟩
    · exact hwf p phase h
  · split at h
    · rename_i hty
      rw [setRunning_running] at h
      split at h
      · rename_i hp
        subst hp
        cases h
        exact ⟨.reserve, rfl, by rw [hty]; rfl, hty⟩
      · exact hwf p phase h
    · exact hwf p phase h

theorem wf_init : Wf {} where
  running _ _ h := nomatch h
  keyed _ _ _ h := nomatch h
  cursor _ _ _ := Nat.le_refl 0

/-- **A party that takes up another phase**, over the same logs and cursors. -/
theorem Wf.phase {s s' : Sys} (hw : Wf s) {p : Party} {phase : Option Phase} (hlog : s'.log = s.log)
    (hnext : s'.next = s.next) (hrunning : s'.running = (s.setRunning p phase).running)
    (hok : ∀ phase', phase = some phase' → phase'.Ok p) : Wf s' := by
  constructor
  · intro p' phase' h
    rw [hrunning, setRunning_running] at h
    split at h
    · rename_i hp
      rw [hp]
      exact hok phase' h
    · exact hw.running p' phase' h
  · rw [hlog]
    exact hw.keyed
  · rw [hlog, hnext]
    exact hw.cursor

/-- A message lands on the topic of its type. -/
theorem Wf.append {s : Sys} (hw : Wf s) {topic : Topic} {event : Event} (htopic : event.eventType.topic = topic) :
    Wf (s.append topic event) := by
  constructor
  · exact hw.running
  · intro t o e he
    change e ∈ (if _ then _ else _) at he
    split at he
    · rename_i hcond
      rw [List.mem_append, List.mem_singleton] at he
      rcases he with he | rfl
      · exact hw.keyed t o e he
      · exact ⟨htopic.trans hcond.1.symm, hcond.2.symm⟩
    · exact hw.keyed t o e he
  · intro svc t o
    have hc := hw.cursor svc t o
    change s.next svc t o ≤ (if _ then _ else _ : List Event).length
    split
    · rw [List.length_append]
      omega
    · exact hc

/-- What a party publishes is on the topic of its type. -/
theorem Phase.Ok.topic {p : Party} {topic : Topic} {event : Event} {landed : Bool}
    (hok : (Phase.publishing topic event landed).Ok p) : event.eventType.topic = topic := by
  cases p with
  | post o =>
    rw [hok.1, hok.2.1]
    rfl
  | consumer svc =>
    obtain ⟨st, -, -, h⟩ := hok
    exact h

theorem Phase.Ok.landed {p : Party} {topic : Topic} {event : Event} {landed landed' : Bool}
    (hok : (Phase.publishing topic event landed).Ok p) : (Phase.publishing topic event landed').Ok p := by
  cases p with
  | post o => exact hok
  | consumer svc => exact hok

theorem Wf.deliver {s : Sys} (hw : Wf s) {svc : Service} {topic : Topic} {o : Uuid} {i : Nat} {event : Event}
    (hget : (s.log topic o)[i]? = some event) (hsub : svc.subscribes topic) :
    Wf ((s.advance svc topic o i).receive format svc topic event) := by
  obtain ⟨rfl, rfl⟩ := hw.keyed topic o event (List.mem_of_getElem? hget)
  obtain ⟨hlog, hnext⟩ := receive_log (s.advance svc event.eventType.topic event.orderId i) format svc
    event.eventType.topic event
  constructor
  · exact fun p phase hp => receive_ok (s := s.advance ..) hsub hw.running hp
  · rw [hlog]
    exact hw.keyed
  · intro svc' t o'
    rw [hlog, hnext]
    have hc := hw.cursor svc' t o'
    have hlen := (List.getElem?_eq_some_iff.1 hget).1
    change (if _ then _ else _) ≤ (s.log t o').length
    split
    · rename_i hcond
      obtain ⟨rfl, rfl, rfl⟩ := hcond
      exact max_le hc hlen
    · exact hc

theorem wf_step {net : Net} {s s' : Sys} {a : Action} (hw : Wf s) (h : Step net s a s') : Wf s' := by
  cases h with
  | createNewOrder userId items hnew =>
    refine hw.phase rfl rfl rfl fun phase hp => ?_
    cases hp
    exact ⟨rfl, rfl, rfl⟩
  | deliver hrun hget hsub hi => exact hw.deliver hget hsub
  | draw hrun hd =>
    obtain ⟨st, answer, hst, -, htopic, -, hlog, hnext, -, hrunning, -⟩ := drawn_stage hd
    refine hw.phase hlog hnext hrunning fun phase hp => ?_
    cases hp
    exact ⟨st, hst, rfl, htopic⟩
  | @land p topic event hrun =>
    have hok := hw.running p _ hrun
    refine (hw.append hok.topic).phase rfl rfl rfl fun phase hp => ?_
    cases hp
    exact hok.landed
  | @resume p topic event hrun =>
    cases p with
    | post o => exact hw.phase rfl rfl rfl (fun _ hp => nomatch hp)
    | consumer svc => exact hw.phase rfl rfl rfl (fun _ hp => nomatch hp)
  | @raise p topic event landed hrun hnet =>
    cases p with
    | post o => exact hw.phase rfl rfl rfl (fun _ hp => nomatch hp)
    | consumer svc =>
      refine hw.phase rfl rfl rfl fun phase hp => ?_
      cases hp
      trivial

end Saga
end KafkaGuide
