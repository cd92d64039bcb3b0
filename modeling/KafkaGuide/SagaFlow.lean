import KafkaGuide.SagaStages
/-!
# SagaFlow — how the messages of one order flow through the saga

With every message delivered once and no publish raising, an order has one ORDER_CREATED, and each stage has answered,
or still owes an answer to, each message it has seen (`Flow`).  The counts then chain from stage to stage, so that an
order gets at most one of the four events that end it (`finals_le_one`).
-/
namespace KafkaGuide
namespace Saga

variable {format : ℚ → String}

/-! ## Counting one order's messages -/

/-- How many messages of a type the order's log holds. -/
def Sys.landed (s : Sys) (o : Uuid) (ty : EventType) : Nat :=
  (s.log ty.topic o).countP (fun event => event.eventType = ty)

/-- How many of them a service has been delivered. -/
def Sys.seen (s : Sys) (svc : Service) (o : Uuid) (ty : EventType) : Nat :=
  ((s.log ty.topic o).take (s.next svc ty.topic o)).countP (fun event => event.eventType = ty)

theorem seen_le_landed (s : Sys) (svc : Service) (o : Uuid) (ty : EventType) : s.seen svc o ty ≤ s.landed o ty :=
  (List.take_sublist _ _).countP_le

theorem landed_congr {s s' : Sys} (hlog : s'.log = s.log) (o : Uuid) (ty : EventType) :
    s'.landed o ty = s.landed o ty := by
  unfold Sys.landed
  rw [hlog]

theorem seen_congr {s s' : Sys} (hlog : s'.log = s.log) (hnext : s'.next = s.next) (svc : Service) (o : Uuid)
    (ty : EventType) : s'.seen svc o ty = s.seen svc o ty := by
  unfold Sys.seen
  rw [hlog, hnext]

theorem receive_seen (s : Sys) (format : ℚ → String) (svc : Service) (topic : Topic) (event : Event) (svc' : Service)
    (o : Uuid) (ty : EventType) : (s.receive format svc topic event).seen svc' o ty = s.seen svc' o ty :=
  seen_congr (receive_log ..).1 (receive_log ..).2 svc' o ty

theorem status_congr {s s' : Sys} {o : Uuid} (hdb : s'.ordersDb.get? o = s.ordersDb.get? o) :
    s'.status o = s.status o := by
  unfold Sys.status
  rw [hdb]

theorem append_length (s : Sys) (topic t : Topic) (event : Event) (o : Uuid) :
    ((s.append topic event).log t o).length =
      (s.log t o).length + if t = topic ∧ o = event.orderId then 1 else 0 := by
  change (if _ then _ else _ : List Event).length = _
  split <;> simp

/-- **Landing a message changes what no service has seen.** -/
theorem append_seen {s : Sys} (hw : Wf s) (topic : Topic) (event : Event) (svc : Service) (o : Uuid) (ty : EventType) :
    (s.append topic event).seen svc o ty = s.seen svc o ty := by
  unfold Sys.seen
  change ((if _ then _ else _ : List Event).take (s.next svc ty.topic o)).countP _ = _
  split
  · rw [List.take_append_of_le_length (hw.cursor svc ty.topic o)]
  · rfl

/-- **Delivering the next message counts it as seen.** -/
theorem advance_seen {s : Sys} {svc : Service} {event : Event}
    (hget : (s.log event.eventType.topic event.orderId)[s.next svc event.eventType.topic event.orderId]? = some event)
    (svc' : Service) (o : Uuid) (ty : EventType) :
    (s.advance svc event.eventType.topic event.orderId
      (s.next svc event.eventType.topic event.orderId)).seen svc' o ty =
      s.seen svc' o ty + if svc' = svc ∧ o = event.orderId ∧ event.eventType = ty then 1 else 0 := by
  unfold Sys.seen Sys.advance
  dsimp only
  by_cases hcond : svc' = svc ∧ ty.topic = event.eventType.topic ∧ o = event.orderId
  · obtain ⟨rfl, ht, rfl⟩ := hcond
    rw [if_pos ⟨rfl, ht, rfl⟩, ht, max_eq_right (Nat.le_succ _), List.take_add_one, hget, List.countP_append]
    by_cases hty : event.eventType = ty <;> simp [hty]
  · rw [if_neg hcond, if_neg]
    · rfl
    · rintro ⟨rfl, rfl, rfl⟩
      exact hcond ⟨rfl, rfl, rfl⟩

/-! ## The flow of an order -/

/-- `create_new_order` has stored the order and its ORDER_CREATED is not in the log yet. -/
def Sys.creating (s : Sys) (o : Uuid) : Nat :=
  match s.running (.post o) with
  | some (.publishing _ _ false) => 1
  | _ => 0

structure Flow (s : Sys) (o : Uuid) : Prop where
  created : (s.log .orderCreated o).length + s.creating o = if (s.ordersDb.get? o).isSome then 1 else 0
  stage : ∀ st : Stage, (s.log st.output o).length + s.owed st o = s.seen st.service o st.trigger

theorem landed_le_length (s : Sys) (o : Uuid) (ty : EventType) : s.landed o ty ≤ (s.log ty.topic o).length :=
  List.countP_le_length

/-- **A stage has no more answers than there are messages on the topic it reads.** -/
theorem Flow.stage_le {s : Sys} {o : Uuid} (hf : Flow s o) (st : Stage) :
    (s.log st.output o).length ≤ (s.log st.trigger.topic o).length := by
  have h := hf.stage st
  have h1 := seen_le_landed s st.service o st.trigger
  have h2 := landed_le_length s o st.trigger
  omega

theorem Flow.length_le {s : Sys} {o : Uuid} (hf : Flow s o) (topic : Topic) :
    (s.log topic o).length ≤ (s.log .orderCreated o).length := by
  have h1 : (s.log .paymentResult o).length ≤ (s.log .orderCreated o).length := hf.stage_le .pay
  have h2 : (s.log .inventoryResult o).length ≤ (s.log .paymentResult o).length := hf.stage_le .reserve
  have h3 : (s.log .refundRequest o).length ≤ (s.log .inventoryResult o).length := hf.stage_le .compensate
  have h4 : (s.log .refundResult o).length ≤ (s.log .refundRequest o).length := hf.stage_le .refund
  cases topic <;> omega

/-- **Every message is about an order of `orders_db`.** -/
theorem Flow.known {s : Sys} {o : Uuid} (hf : Flow s o) {topic : Topic} {event : Event} (h : event ∈ s.log topic o) :
    (s.ordersDb.get? o).isSome := by
  have hpos := List.length_pos_of_mem h
  have hle := hf.length_le topic
  have hcr := hf.created
  by_contra hnone
  rw [if_neg hnone] at hcr
  omega

theorem isSome_processMessage (format : ℚ → String) (db : OrdersDb) (topic : Topic) (event : Event) (o : Uuid) :
    ((processMessage format db topic event).1.get? o).isSome = (db.get? o).isSome := by
  unfold processMessage
  split <;> try simp only [isSome_updateOrderStatus]
  split <;> simp only [isSome_updateOrderStatus]

theorem isSome_receive (s : Sys) (format : ℚ → String) (svc : Service) (topic : Topic) (event : Event) (o : Uuid) :
    ((s.receive format svc topic event).ordersDb.get? o).isSome = (s.ordersDb.get? o).isSome := by
  unfold Sys.receive
  split
  · exact isSome_processMessage ..
  · rfl
  · split <;> rfl

theorem receive_post (s : Sys) (format : ℚ → String) (svc : Service) (topic : Topic) (event : Event) (o : Uuid) :
    (s.receive format svc topic event).running (.post o) = s.running (.post o) := by
  unfold Sys.receive
  split
  · rfl
  · rfl
  · split <;> rfl

theorem creating_congr {s s' : Sys} {o : Uuid} (h : s'.running (.post o) = s.running (.post o)) :
    s'.creating o = s.creating o := by
  unfold Sys.creating
  rw [h]

theorem flow_init (o : Uuid) : Flow {} o where
  created := rfl
  stage st := by cases st <;> rfl

/-- **A draw leaves what the handler owes as it was.** -/
theorem draw_owed {s s' : Sys} {svc : Service} {topic : Topic} {event : Event} {isSuccess : Bool} (hw : Wf s)
    (hrun : s.running (.consumer svc) = some (.sleeping topic event))
    (h : s.drawn svc topic event isSuccess = some s') (st : Stage) (o : Uuid) : s'.owed st o = s.owed st o := by
  obtain ⟨st0, answer, hsvc, htopic, -, horder, -, -, -, hrunning, -⟩ := drawn_stage h
  obtain ⟨st1, hsvc1, htopic1, htype⟩ := hw.running _ _ hrun
  have : st1 = st0 := Stage.eq_of_reads (hsvc1.trans hsvc.symm) (htopic1.trans htopic.symm)
  subst this
  have howed : s'.owed st o =
      (s.setRunning (.consumer svc) (some (.publishing st1.output answer false))).owed st o := by
    unfold Sys.owed Sys.debt
    rw [hrunning]
  rw [howed, setRunning_owed]
  split
  · rename_i hst
    unfold Sys.owed Sys.debt
    rw [hst, hrun]
    simp only [Option.bind_some, debt_publishing, debt_sleeping, htype, horder]
    have hiff : st1.output = st.output ↔ st1.trigger = st.trigger :=
      ⟨fun h => by rw [Stage.output_injective h], fun h => by rw [Stage.trigger_injective h]⟩
    simp only [hiff]
  · rfl

/-- **Landing an answer pays what was owed.** -/
theorem land_owed {s : Sys} {p : Party} {topic : Topic} {event : Event} (hw : Wf s)
    (hrun : s.running p = some (.publishing topic event false)) (st : Stage) (o : Uuid) :
    ((s.append topic event).setRunning p (some (.publishing topic event true))).owed st o +
      (if st.output = topic ∧ o = event.orderId then 1 else 0) = s.owed st o := by
  have hok := hw.running p _ hrun
  cases p with
  | post o' =>
    rw [if_neg (fun h => st.output_ne_orderCreated (h.1.trans hok.1))]
    unfold Sys.owed
    rw [setRunning_post_debt]
    rfl
  | consumer svc =>
    obtain ⟨st0, hsvc, rfl, -⟩ := hok
    rw [setRunning_owed]
    by_cases hst : st.service = svc
    · rw [if_pos hst]
      unfold Sys.owed Sys.debt
      rw [hst, hrun]
      simp only [Option.bind_some, debt_publishing, @eq_comm _ st0.output, @eq_comm _ event.orderId]
      simp [Phase.debt]
    · rw [if_neg hst, if_neg]
      · rfl
      · rintro ⟨h, -⟩
        exact hst (by rw [Stage.output_injective h, hsvc])

theorem land_creating {s : Sys} {p : Party} {topic : Topic} {event : Event} (hw : Wf s)
    (hrun : s.running p = some (.publishing topic event false)) (o : Uuid) :
    ((s.append topic event).setRunning p (some (.publishing topic event true))).creating o +
      (if .orderCreated = topic ∧ o = event.orderId then 1 else 0) = s.creating o := by
  have hok := hw.running p _ hrun
  unfold Sys.creating
  rw [setRunning_running]
  cases p with
  | post o' =>
    obtain ⟨rfl, -, rfl⟩ := hok
    by_cases ho : o = event.orderId
    · subst ho
      simp [hrun]
    · simp [ho, Sys.append]
  | consumer svc =>
    obtain ⟨st, -, rfl, -⟩ := hok
    rw [if_neg (by simp), if_neg (fun h => st.output_ne_orderCreated h.1.symm)]
    rfl

/-- What follows a publication leaves every log, and what every handler owes, as they were. -/
theorem published_flow {s : Sys} {p : Party} {topic : Topic} {event : Event}
    (hrun : s.running p = some (.publishing topic event true)) (o : Uuid) :
    (s.published p).log = s.log ∧ (s.published p).next = s.next ∧ (∀ st, (s.published p).owed st o = s.owed st o) ∧
      (s.published p).creating o = s.creating o ∧
      ((s.published p).ordersDb.get? o).isSome = (s.ordersDb.get? o).isSome := by
  cases p with
  | post o' =>
    refine ⟨rfl, rfl, fun st => ?_, ?_, isSome_updateOrderStatus ..⟩
    · unfold Sys.owed Sys.published
      rw [setRunning_post_debt]
      rfl
    · unfold Sys.creating Sys.published
      rw [setRunning_running]
      by_cases ho : o = o'
      · subst ho
        simp [hrun]
      · simp [ho]
  | consumer svc =>
    refine ⟨rfl, rfl, fun st => ?_, creating_congr rfl, rfl⟩
    rw [Sys.published, setRunning_owed]
    split
    · rename_i hst
      unfold Sys.owed Sys.debt
      rw [hst, hrun]
      rfl
    · rfl

/-- A new order has no message yet, and its ORDER_CREATED is to come. -/
theorem Flow.create {s : Sys} {o : Uuid} (hf : Flow s o) {o' : Uuid} (hnew : s.ordersDb.get? o' = none)
    (userId : String) (items : List Item) (event : Event) :
    Flow ({ s with ordersDb := (createNewOrder s.ordersDb o' userId items).1 }.setRunning (.post o')
      (some (.publishing .orderCreated event false))) o := by
  have hcr := hf.created
  have hdb : ((createNewOrder s.ordersDb o' userId items).1.get? o).isSome =
      (decide (o = o') || (s.ordersDb.get? o).isSome) := by
    by_cases ho : o = o' <;> simp [createNewOrder, createOrder, ho]
  constructor
  · change (s.log .orderCreated o).length + _ =
      if ((createNewOrder s.ordersDb o' userId items).1.get? o).isSome then 1 else 0
    rw [hdb]
    unfold Sys.creating at hcr ⊢
    rw [setRunning_running]
    by_cases ho : o = o'
    · subst ho
      rw [hnew] at hcr
      simp only [Option.isSome_none, Bool.false_eq_true, if_false, Nat.add_eq_zero_iff] at hcr
      simp [hcr.1]
    · rw [if_neg (by simpa using ho), decide_eq_false ho, Bool.false_or]
      exact hcr
  · intro st
    have hst := hf.stage st
    unfold Sys.owed at hst ⊢
    rw [setRunning_post_debt]
    exact hst

/-- **The next message of a topic**: the service has seen one more, and owes one more answer if it sets off its
stage. -/
theorem Flow.deliver {s : Sys} {o : Uuid} (hf : Flow s o) {svc : Service} {event : Event}
    (hrun : s.running (.consumer svc) = none)
    (hget : (s.log event.eventType.topic event.orderId)[s.next svc event.eventType.topic event.orderId]? = some event)
    (hsub : svc.subscribes event.eventType.topic) (hknown : (s.ordersDb.get? event.orderId).isSome) :
    Flow ((s.advance svc event.eventType.topic event.orderId
      (s.next svc event.eventType.topic event.orderId)).receive format svc event.eventType.topic event) o := by
  have hseen := advance_seen hget
  obtain ⟨s1, hs1⟩ : ∃ s1, s1 = s.advance svc event.eventType.topic event.orderId
      (s.next svc event.eventType.topic event.orderId) := ⟨_, rfl⟩
  rw [← hs1] at hseen ⊢
  have hrun1 : s1.running (.consumer svc) = none := by rw [hs1]; exact hrun
  have hknown1 : (s1.ordersDb.get? event.orderId).isSome := by rw [hs1]; exact hknown
  have hlog1 : s1.log = s.log := by rw [hs1]; rfl
  have hlog := (receive_log s1 format svc event.eventType.topic event).1
  constructor
  · rw [hlog, isSome_receive, creating_congr (receive_post ..), hs1]
    exact hf.created
  · intro st
    have hst := hf.stage st
    have howed := receive_owed format hsub hrun1 hknown1 st o
    have howed1 : s1.owed st o = s.owed st o := by rw [hs1]; rfl
    rw [howed, hlog, receive_seen, hseen, howed1, hlog1, ← hst, Nat.add_assoc]
    simp only [eq_comm, and_comm]

/-- With every message delivered once and no publish raising, **a step keeps the flow of every order**. -/
theorem flow_step {s s' : Sys} {a : Action} (hw : Wf s) (hf : ∀ o, Flow s o) (h : Step { format } s a s') (o : Uuid) :
    Flow s' o := by
  have hcr := (hf o).created
  cases h with
  | createNewOrder userId items hnew => exact (hf o).create hnew userId items _
  | @deliver svc topic o' i event hrun hget hsub hi =>
    have hmem := List.mem_of_getElem? hget
    have hknown := (hf o').known hmem
    obtain ⟨rfl, rfl⟩ := hw.keyed topic o' event hmem
    have hnext : i = s.next svc event.eventType.topic event.orderId := by simpa using hi
    subst hnext
    exact (hf o).deliver hrun hget hsub hknown
  | @draw svc topic event isSuccess _ hrun hd =>
    have howed := fun st => draw_owed hw hrun hd st o
    obtain ⟨st0, answer, -, -, -, -, hlog, hnext, hdb, hrunning, -⟩ := drawn_stage hd
    refine ⟨?_, fun st => ?_⟩
    · rw [hlog, hdb, creating_congr]
      · exact hcr
      · rw [hrunning, setRunning_running, if_neg (by simp)]
    · have hst := (hf o).stage st
      rw [hlog, seen_congr hlog hnext, howed]
      exact hst
  | @land p topic event hrun =>
    refine ⟨?_, fun st => ?_⟩
    · have hlen := append_length s topic .orderCreated event o
      have hpaid := land_creating hw hrun o
      change ((s.append topic event).log .orderCreated o).length + _ = if (s.ordersDb.get? o).isSome then 1 else 0
      omega
    · have hst := (hf o).stage st
      have hlen := append_length s topic st.output event o
      have howed := land_owed hw hrun st o
      have hseen := append_seen hw topic event st.service o st.trigger
      change ((s.append topic event).log st.output o).length + _ = (s.append topic event).seen st.service o st.trigger
      omega
  | @resume p topic event hrun =>
    obtain ⟨hlog, hnext, howed, hcreating, hdb⟩ := published_flow hrun o
    refine ⟨by rw [hlog, hcreating, hdb]; exact hcr, fun st => ?_⟩
    have hst := (hf o).stage st
    rw [hlog, seen_congr hlog hnext, howed]
    exact hst
  | raise _ hnet => exact absurd hnet Bool.false_ne_true

/-! ## Records -/

/-- The answer a handler has recorded and not landed. -/
def Phase.unlanded : Phase → Option (EventType × Uuid)
  | .publishing _ event false => some (event.eventType, event.orderId)
  | _ => none

def Sys.unlanded (s : Sys) (svc : Service) (o : Uuid) (ty : EventType) : Nat :=
  if (s.running (.consumer svc)).bind Phase.unlanded = some (ty, o) then 1 else 0

theorem unlanded_of_running {s : Sys} {svc : Service} {phase : Phase} (hrun : s.running (.consumer svc) = some phase)
    (h : phase.unlanded = none) (o : Uuid) (ty : EventType) : s.unlanded svc o ty = 0 := by
  rw [Sys.unlanded, hrun, Option.bind_some, h]
  rfl

/-- **Every record has its event**, in the log or about to be. -/
def Recorded (s : Sys) (o : Uuid) : Prop :=
  ∀ (st : Stage) (ty : EventType), ty.topic = st.output → st ≠ .compensate →
    s.recorded o ty = s.landed o ty + s.unlanded st.service o ty

theorem setRunning_unlanded (s : Sys) (svc svc' : Service) (phase : Option Phase) (o : Uuid) (ty : EventType) :
    (s.setRunning (.consumer svc) phase).unlanded svc' o ty =
      if svc' = svc then (if phase.bind Phase.unlanded = some (ty, o) then 1 else 0) else s.unlanded svc' o ty := by
  unfold Sys.unlanded
  rw [setRunning_running]
  by_cases h : svc' = svc <;> simp [h]

theorem setRunning_post_unlanded (s : Sys) (o' : Uuid) (phase : Option Phase) (svc : Service) (o : Uuid)
    (ty : EventType) : (s.setRunning (.post o') phase).unlanded svc o ty = s.unlanded svc o ty := by
  have hrun : (s.setRunning (.post o') phase).running (.consumer svc) = s.running (.consumer svc) := by
    rw [setRunning_running, if_neg (by simp)]
  unfold Sys.unlanded
  rw [hrun]

theorem receive_unlanded (s : Sys) (format : ℚ → String) {svc svc' : Service} (topic : Topic) (event : Event)
    (hrun : s.running (.consumer svc) = none) (hsvc : svc' ≠ .order) (o : Uuid) (ty : EventType) :
    (s.receive format svc topic event).unlanded svc' o ty = s.unlanded svc' o ty := by
  have hsleep : (s.setRunning (.consumer svc) (some (.sleeping topic event))).unlanded svc' o ty =
      s.unlanded svc' o ty := by
    rw [setRunning_unlanded]
    split
    · rename_i h
      unfold Sys.unlanded
      rw [h, hrun]
      rfl
    · rfl
  unfold Sys.receive
  split
  · rw [setRunning_unlanded, if_neg hsvc]
    rfl
  · exact hsleep
  · split
    · exact hsleep
    · rfl

theorem recorded_receive (s : Sys) (format : ℚ → String) (svc : Service) (topic : Topic) (event : Event) (o : Uuid)
    (ty : EventType) : (s.receive format svc topic event).recorded o ty = s.recorded o ty := by
  unfold Sys.receive
  split
  · rfl
  · rfl
  · split <;> rfl

theorem append_landed {s : Sys} {topic : Topic} {event : Event} (htopic : event.eventType.topic = topic) (o : Uuid)
    (ty : EventType) : (s.append topic event).landed o ty =
      s.landed o ty + if event.eventType = ty ∧ event.orderId = o then 1 else 0 := by
  unfold Sys.landed
  change (if _ then _ else _ : List Event).countP _ = _
  by_cases hcond : ty.topic = topic ∧ o = event.orderId
  · rw [if_pos hcond, List.countP_append, List.countP_singleton]
    by_cases hty : event.eventType = ty <;> simp [hty, hcond.2]
  · rw [if_neg hcond, if_neg]
    · rfl
    · rintro ⟨rfl, rfl⟩
      exact hcond ⟨htopic, rfl⟩

theorem Stage.service_ne_order {st : Stage} (h : st ≠ .compensate) : st.service ≠ .order := by
  cases st <;> first | decide | exact absurd rfl h

theorem recorded_init (o : Uuid) : Recorded {} o := by
  intro st ty htopic hst
  cases ty <;> cases st <;> rfl

/-- The answers a step leaves recorded and never to land: those of a handler whose publish raises before its event is
in the log. -/
def Sys.lost (s : Sys) (svc : Service) (o : Uuid) (ty : EventType) : Action → Nat
  | .raise (.consumer svc') => if svc' = svc then s.unlanded svc o ty else 0
  | _ => 0

/-- The events of another service's stage are of another type. -/
theorem not_output_of_service_ne {st st' : Stage} {ty : EventType} {event : Event} (hs : st.service ≠ st'.service)
    (htopic : ty.topic = st.output) (hevent : event.eventType.topic = st'.output) (o : Uuid) :
    ¬ (event.eventType = ty ∧ event.orderId = o) := by
  rintro ⟨rfl, -⟩
  exact hs (by rw [Stage.output_injective (htopic.symm.trans hevent)])

/-- **What a step adds to the records it adds to the events**, in the log or about to be, up to what it loses. -/
theorem recorded_balance {net : Net} {s s' : Sys} {a : Action} (hw : Wf s) (h : Step net s a s') (o : Uuid) {st : Stage}
    {ty : EventType} (htopic : ty.topic = st.output) (hst : st ≠ .compensate) :
    s'.recorded o ty + (s.landed o ty + s.unlanded st.service o ty) =
      s.recorded o ty + (s'.landed o ty + s'.unlanded st.service o ty) + s.lost st.service o ty a := by
  cases h with
  | createNewOrder =>
    rw [setRunning_post_unlanded]
    rfl
  | @deliver svc topic o' i event hrun hget hsub hi =>
    rw [recorded_receive,
      receive_unlanded (s.advance svc topic o' i) net.format topic event hrun (Stage.service_ne_order hst)]
    rw [landed_congr (receive_log ..).1]
    rfl
  | @draw svc topic event isSuccess _ hrun hd =>
    obtain ⟨st0, answer, hsvc, -, htopic0, -, hlog, -, -, hrunning, hrecorded⟩ := drawn_stage hd
    have hun : s'.unlanded st.service o ty =
        (s.setRunning (.consumer svc) (some (.publishing st0.output answer false))).unlanded st.service o ty := by
      unfold Sys.unlanded
      rw [hrunning]
    rw [hrecorded, hun, setRunning_unlanded, landed_congr hlog]
    change _ = _ + 0
    by_cases hs : st.service = svc
    · rw [hs, unlanded_of_running hrun rfl, if_pos rfl]
      simp only [Option.bind_some, Phase.unlanded, Option.some.injEq, Prod.mk.injEq]
      omega
    · have hne := not_output_of_service_ne (hsvc ▸ hs : st.service ≠ st0.service) htopic htopic0 o
      rw [if_neg hs, if_neg hne]
      rfl
  | @land p topic event hrun =>
    have hok := hw.running p _ hrun
    cases p with
    | post o' =>
      rw [setRunning_post_unlanded]
      change s.recorded o ty + _ = s.recorded o ty + ((s.append topic event).landed o ty + s.unlanded st.service o ty)
      have hne : ¬ (event.eventType = ty ∧ event.orderId = o) := by
        rintro ⟨rfl, -⟩
        rw [hok.2.1] at htopic
        exact st.output_ne_orderCreated htopic.symm
      rw [append_landed (by rw [hok.1, hok.2.1]; rfl), if_neg hne, Nat.add_zero]
    | consumer svc =>
      obtain ⟨st0, hsvc, rfl, htopic0⟩ := hok
      rw [setRunning_unlanded]
      change s.recorded o ty + _ = s.recorded o ty + ((s.append st0.output event).landed o ty + _) + 0
      rw [append_landed htopic0]
      by_cases hs : st.service = svc
      · rw [if_pos hs]
        unfold Sys.unlanded
        rw [hs, hrun]
        simp [Phase.unlanded]
      · have hne := not_output_of_service_ne (hsvc ▸ hs : st.service ≠ st0.service) htopic htopic0 o
        rw [if_neg hs, if_neg hne, Nat.add_zero]
        rfl
  | @resume p topic event hrun =>
    cases p with
    | post o' =>
      rw [Sys.published, setRunning_post_unlanded]
      rfl
    | consumer svc =>
      rw [Sys.published, setRunning_unlanded]
      split
      · rename_i hs
        rw [hs, unlanded_of_running hrun rfl]
        rfl
      · rfl
  | @raise p topic event landed hrun hnet =>
    cases p with
    | post o' =>
      rw [Sys.raised, setRunning_post_unlanded]
      rfl
    | consumer svc =>
      rw [Sys.raised, setRunning_unlanded]
      change s.recorded o ty + _ = s.recorded o ty + (s.landed o ty + _) + (if svc = st.service then _ else 0)
      by_cases hs : st.service = svc
      · rw [if_pos hs, if_pos hs.symm]
        simp [Phase.unlanded, Nat.add_assoc]
      · rw [if_neg hs, if_neg (Ne.symm hs), Nat.add_zero]

/-- **Without raising publishes, a step keeps records and events together**, redeliveries or not. -/
theorem recorded_step {net : Net} {s s' : Sys} {a : Action} {o : Uuid} (hnet : ¬ net.publishRaises) (hw : Wf s)
    (hr : Recorded s o) (h : Step net s a s') : Recorded s' o := by
  intro st ty htopic hst
  have hrec := hr st ty htopic hst
  have hbalance := recorded_balance hw h o htopic hst
  have hlost : s.lost st.service o ty a = 0 := by
    cases h with
    | raise _ hraise => exact absurd hraise hnet
    | _ => rfl
  omega

/-! ## How an order can end -/

/-- The events after which nothing more is published about an order. -/
def EventType.final : EventType → Bool
  | .paymentFailed | .inventoryReserved | .refundCompleted | .refundFailed => true
  | _ => false

theorem length_eq_countP_add {a b : EventType} (hne : a ≠ b) : ∀ {l : List Event},
    (∀ event ∈ l, event.eventType = a ∨ event.eventType = b) →
    l.length = l.countP (fun event => event.eventType = a) + l.countP (fun event => event.eventType = b)
  | [], _ => rfl
  | event :: l, h => by
    have ih := length_eq_countP_add hne (fun e he => h e (List.mem_cons_of_mem _ he))
    rw [List.length_cons, ih, List.countP_cons, List.countP_cons]
    rcases h event List.mem_cons_self with heq | heq
    · simp [heq, hne]
      omega
    · simp [heq, hne.symm]
      omega

theorem Wf.length_log {s : Sys} (hw : Wf s) {a b : EventType} (hne : a ≠ b) {topic : Topic} (o : Uuid)
    (ha : a.topic = topic) (hb : b.topic = topic) (hab : ∀ ty : EventType, ty.topic = topic → ty = a ∨ ty = b) :
    (s.log topic o).length = s.landed o a + s.landed o b := by
  unfold Sys.landed
  rw [ha, hb]
  exact length_eq_countP_add hne (fun event he => hab _ (hw.keyed topic o event he).1)

theorem Wf.length_log_single {s : Sys} (hw : Wf s) {a : EventType} (o : Uuid)
    (ha : ∀ ty : EventType, ty.topic = a.topic → ty = a) : (s.log a.topic o).length = s.landed o a :=
  (List.countP_eq_length.2 fun event he => decide_eq_true (ha _ (hw.keyed a.topic o event he).1)).symm

/-- **The counts of one order, chained**: every message is of one of its topic's types, and a stage has answered, or
owes, what it has seen. -/
structure Counts (s : Sys) (o : Uuid) : Prop where
  created : s.landed o .orderCreated + s.creating o = if (s.ordersDb.get? o).isSome then 1 else 0
  pay : s.landed o .paymentCompleted + s.landed o .paymentFailed + s.owed .pay o = s.seen .payment o .orderCreated
  reserve : s.landed o .inventoryReserved + s.landed o .inventoryFailed + s.owed .reserve o =
    s.seen .inventory o .paymentCompleted
  compensate : s.landed o .refundRequested + s.owed .compensate o = s.seen .order o .inventoryFailed
  refund : s.landed o .refundCompleted + s.landed o .refundFailed + s.owed .refund o =
    s.seen .payment o .refundRequested

theorem Flow.counts {s : Sys} {o : Uuid} (hw : Wf s) (hf : Flow s o) : Counts s o where
  created := by
    have hlen := hw.length_log_single (a := .orderCreated) o
      (fun ty h => by cases ty <;> first | rfl | exact absurd h (by decide))
    rw [← hlen]
    exact hf.created
  pay := by
    have hlen := hw.length_log (a := .paymentCompleted) (b := .paymentFailed) (by decide) o rfl rfl
      (fun ty h => by cases ty <;> simp_all [EventType.topic])
    rw [← hlen]
    exact hf.stage .pay
  reserve := by
    have hlen := hw.length_log (a := .inventoryReserved) (b := .inventoryFailed) (by decide) o rfl rfl
      (fun ty h => by cases ty <;> simp_all [EventType.topic])
    rw [← hlen]
    exact hf.stage .reserve
  compensate := by
    have hlen := hw.length_log_single (a := .refundRequested) o
      (fun ty h => by cases ty <;> first | rfl | exact absurd h (by decide))
    rw [← hlen]
    exact hf.stage .compensate
  refund := by
    have hlen := hw.length_log (a := .refundCompleted) (b := .refundFailed) (by decide) o rfl rfl
      (fun ty h => by cases ty <;> simp_all [EventType.topic])
    rw [← hlen]
    exact hf.stage .refund

/-- **An order gets at most one final event.** -/
theorem Counts.finals_le_one {s : Sys} {o : Uuid} (hc : Counts s o) :
    s.landed o .paymentFailed + s.landed o .inventoryReserved + s.landed o .refundCompleted +
      s.landed o .refundFailed ≤ 1 := by
  obtain ⟨h0, h1, h2, h3, h4⟩ := hc
  have h0' : s.landed o .orderCreated ≤ 1 := by split at h0 <;> omega
  have h5 := seen_le_landed s .payment o .orderCreated
  have h6 := seen_le_landed s .inventory o .paymentCompleted
  have h7 := seen_le_landed s .order o .inventoryFailed
  have h8 := seen_le_landed s .payment o .refundRequested
  omega

/-- **No final event precedes the delivery of an INVENTORY_FAILED.** -/
theorem Counts.finals_eq_zero {s : Sys} {o : Uuid} (hc : Counts s o)
    (h : s.seen .order o .inventoryFailed < s.landed o .inventoryFailed) :
    s.landed o .paymentFailed + s.landed o .inventoryReserved + s.landed o .refundCompleted +
      s.landed o .refundFailed = 0 := by
  obtain ⟨h0, h1, h2, h3, h4⟩ := hc
  have h0' : s.landed o .orderCreated ≤ 1 := by split at h0 <;> omega
  have h5 := seen_le_landed s .payment o .orderCreated
  have h6 := seen_le_landed s .inventory o .paymentCompleted
  have h8 := seen_le_landed s .payment o .refundRequested
  omega

end Saga
end KafkaGuide
