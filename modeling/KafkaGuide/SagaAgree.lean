import KafkaGuide.SagaFlow
/-!
# SagaAgree — the status of an order at quiescence

`process_message` overwrites the status whatever it was, and so does the end of `create_new_order`.  So the last writer
wins, and the status is the one the services' records fix exactly when no step of the run overwrote a final one
(`quiescent_status_iff`).
-/
namespace KafkaGuide
namespace Saga

variable {format : ℚ → String}

/-- The statuses no step should leave: each is the outcome of a final event. -/
def OrderStatus.final : OrderStatus → Bool
  | .paymentFailed | .completed | .compensated | .compensationFailed => true
  | _ => false

/-- The status `process_message` gives an order for an event. -/
def EventType.orderStatus : EventType → Option OrderStatus
  | .paymentCompleted => some .inventoryProcessing
  | .paymentFailed => some .paymentFailed
  | .inventoryReserved => some .completed
  | .inventoryFailed => some .compensating
  | .refundCompleted => some .compensated
  | .refundFailed => some .compensationFailed
  | _ => none

/-- The order's status is a final one. -/
def Sys.Ended (s : Sys) (o : Uuid) : Prop := ∃ status, s.status o = some status ∧ status.final

/-- The step overwrites the final status of an order: `create_new_order` ends, or order-service is delivered the
PAYMENT_COMPLETED, after the order has ended. -/
def Overwrites (s : Sys) (o : Uuid) : Action → Prop
  | .resume (.post o') => o' = o ∧ s.Ended o
  | .deliver .order .paymentResult o' i =>
    o' = o ∧ s.Ended o ∧ ((s.log .paymentResult o)[i]?.map Event.eventType) = some .paymentCompleted
  | _ => False

theorem Overwrites.deliver {s : Sys} {o o' : Uuid} {svc : Service} {topic : Topic} {i : Nat}
    (h : Overwrites s o (.deliver svc topic o' i)) :
    svc = .order ∧ o' = o ∧ s.Ended o ∧ ((s.log topic o)[i]?.map Event.eventType) = some .paymentCompleted := by
  cases svc <;> cases topic <;> first | exact h.elim | exact ⟨rfl, h⟩

theorem Overwrites.ended {s : Sys} {o : Uuid} {a : Action} (h : Overwrites s o a) : s.Ended o := by
  cases a with
  | resume p => cases p <;> first | exact h.2 | exact h.elim
  | deliver svc topic o' i => exact h.deliver.2.2.1
  | _ => exact h.elim

/-- Every final event order-service has been delivered shows in the status. -/
def Good (s : Sys) (o : Uuid) : Prop :=
  ∀ ty : EventType, ty.final → 0 < s.seen .order o ty → s.status o = ty.orderStatus

/-- An order has ended only by a final event. -/
def Caused (s : Sys) (o : Uuid) : Prop := s.Ended o → ∃ ty : EventType, ty.final ∧ 0 < s.seen .order o ty

structure Inv (s : Sys) : Prop where
  wf : Wf s
  flow : ∀ o, Flow s o
  recorded : ∀ o, Recorded s o
  caused : ∀ o, Caused s o

/-! ## What each step does to the status -/

theorem processMessage_status (format : ℚ → String) (db : OrdersDb) {event : Event} {st : OrderStatus}
    (hdb : (db.get? event.orderId).isSome) (hst : event.eventType.orderStatus = some st) (o : Uuid) :
    ((processMessage format db event.eventType.topic event).1.get? o).map Order.status =
      if o = event.orderId then some st else (db.get? o).map Order.status := by
  obtain ⟨order, ho⟩ := Option.isSome_iff_exists.1 hdb
  have hupd : ∀ reason, ((updateOrderStatus db event.orderId st reason).get? o).map Order.status =
      if o = event.orderId then some st else (db.get? o).map Order.status := fun reason => by
    rw [get?_updateOrderStatus, ho]
    rfl
  unfold processMessage
  cases hty : event.eventType <;> rw [hty] at hst <;> cases hst <;> simp only [EventType.topic]
  · exact hupd _
  · exact hupd _
  · exact hupd _
  · have hsome : ((updateOrderStatus db event.orderId .compensating (event.reason.getD "재고 부족")).get?
        event.orderId).isSome := by rwa [isSome_updateOrderStatus]
    obtain ⟨order', ho'⟩ := Option.isSome_iff_exists.1 hsome
    rw [ho']
    exact hupd _
  · exact hupd _
  · exact hupd _

theorem orderStatus_of_subscribes {ty : EventType} (h : Service.order.subscribes ty.topic) :
    ∃ st, ty.orderStatus = some st := by
  cases ty <;> first | exact ⟨_, rfl⟩ | exact absurd h (by decide)

/-- What a step can do to the status of `o` and to what order-service has seen of it: start the order, let it move on to
payment, handle an event about it, or neither. -/
inductive Effect (s : Sys) (o : Uuid) (a : Action) (s' : Sys) : Prop
  | created (hnew : s.status o = none) (hst : s'.status o = some .created)
    (hseen : ∀ ty, s'.seen .order o ty = s.seen .order o ty)
  | resumed (ha : a = .resume (.post o)) (hst : s'.status o = (s.status o).map (fun _ => .paymentProcessing))
    (hseen : ∀ ty, s'.seen .order o ty = s.seen .order o ty)
  | handled (i : Nat) (event : Event) (ha : a = .deliver .order event.eventType.topic o i)
    (hget : (s.log event.eventType.topic o)[i]? = some event) (hsub : Service.order.subscribes event.eventType.topic)
    (hst : s'.status o = event.eventType.orderStatus)
    (hseen : ∀ ty, s'.seen .order o ty = s.seen .order o ty + if event.eventType = ty then 1 else 0)
    (hle : s.seen .order o event.eventType < s.landed o event.eventType)
  | other (ha : ¬ Overwrites s o a) (hst : s'.status o = s.status o)
    (hseen : ∀ ty, s'.seen .order o ty = s.seen .order o ty)

theorem published_status (s : Sys) (o o' : Uuid) : (s.published (.post o')).status o =
    if o = o' then (s.status o).map (fun _ => .paymentProcessing) else s.status o := by
  unfold Sys.status
  change ((updateOrderStatus s.ordersDb o' .paymentProcessing).get? o).map Order.status = _
  rw [get?_updateOrderStatus]
  split
  · rename_i ho
    subst ho
    rw [Option.map_map]
    rfl
  · rfl

/-- What a delivery does to the status: order-service handles an event about its order, the other services none. -/
theorem receive_status {s : Sys} (format : ℚ → String) {svc : Service} {event : Event}
    (hsub : svc.subscribes event.eventType.topic) (hknown : (s.ordersDb.get? event.orderId).isSome) (o : Uuid) :
    (s.receive format svc event.eventType.topic event).status o =
      if svc = .order ∧ o = event.orderId then event.eventType.orderStatus else s.status o := by
  unfold Sys.status Sys.receive
  cases svc with
  | order =>
    obtain ⟨st, hst⟩ := orderStatus_of_subscribes hsub
    have hstatus := processMessage_status format s.ordersDb hknown hst o
    rw [hst]
    simp only [true_and]
    exact hstatus
  | payment => rfl
  | inventory =>
    dsimp only
    split <;> rfl

theorem deliver_effect {s : Sys} {svc : Service} {event : Event}
    (hget : (s.log event.eventType.topic event.orderId)[s.next svc event.eventType.topic event.orderId]? = some event)
    (hsub : svc.subscribes event.eventType.topic) (hknown : (s.ordersDb.get? event.orderId).isSome) (o : Uuid) :
    Effect s o (.deliver svc event.eventType.topic event.orderId (s.next svc event.eventType.topic event.orderId))
      ((s.advance svc event.eventType.topic event.orderId
        (s.next svc event.eventType.topic event.orderId)).receive format svc event.eventType.topic event) := by
  have hseen := advance_seen hget .order o
  obtain ⟨s1, hs1⟩ : ∃ s1, s1 = s.advance svc event.eventType.topic event.orderId
      (s.next svc event.eventType.topic event.orderId) := ⟨_, rfl⟩
  have hdb : s1.ordersDb = s.ordersDb := by rw [hs1]; rfl
  have hlog1 : s1.log = s.log := by rw [hs1]; rfl
  have hstatus1 : s1.status o = s.status o := status_congr (by rw [hdb])
  rw [← hs1] at hseen ⊢
  have hstatus := receive_status format hsub (by rw [hdb]; exact hknown) o (s := s1)
  by_cases hcond : svc = .order ∧ o = event.orderId
  · rw [if_pos hcond] at hstatus
    obtain ⟨rfl, rfl⟩ := hcond
    have hcount : ∀ ty, (s1.receive format .order event.eventType.topic event).seen .order event.orderId ty =
        s.seen .order event.orderId ty + if event.eventType = ty then 1 else 0 := fun ty => by
      rw [receive_seen, hseen]
      simp
    refine .handled _ event rfl hget hsub hstatus hcount ?_
    have hle := seen_le_landed (s1.receive format .order event.eventType.topic event) .order event.orderId
      event.eventType
    rw [hcount, if_pos rfl] at hle
    rw [landed_congr ((receive_log ..).1.trans hlog1)] at hle
    exact hle
  · rw [if_neg hcond, hstatus1] at hstatus
    refine .other (fun hover => ?_) hstatus (fun ty => ?_)
    · obtain ⟨hsvc, ho, -⟩ := hover.deliver
      exact hcond ⟨hsvc, ho.symm⟩
    · rw [receive_seen, hseen, if_neg (fun h => hcond ⟨h.1.symm, h.2.1⟩), Nat.add_zero]

theorem step_effect {s s' : Sys} {a : Action} (hw : Wf s) (hf : ∀ o, Flow s o) (h : Step { format } s a s') (o : Uuid) :
    Effect s o a s' := by
  cases h with
  | @createNewOrder o' userId items hnew =>
    by_cases ho : o = o'
    · subst ho
      refine .created ?_ ?_ (fun _ => rfl)
      · unfold Sys.status
        rw [hnew]
        rfl
      · change ((createNewOrder s.ordersDb o userId items).1.get? o).map Order.status = _
        simp [createNewOrder, createOrder]
    · refine .other (fun h => h) ?_ (fun _ => rfl)
      change ((createNewOrder s.ordersDb o' userId items).1.get? o).map Order.status = _
      simp [createNewOrder, createOrder, ho, Sys.status]
  | @deliver svc topic o' i event hrun hget hsub hi =>
    have hknown := (hf o').known (List.mem_of_getElem? hget)
    obtain ⟨rfl, rfl⟩ := hw.keyed topic o' event (List.mem_of_getElem? hget)
    have hnext : i = s.next svc event.eventType.topic event.orderId := by simpa using hi
    subst hnext
    exact deliver_effect hget hsub hknown o
  | @draw svc topic event isSuccess _ hrun hd =>
    obtain ⟨st0, answer, -, -, -, -, hlog, hnext, hdb, -, -⟩ := drawn_stage hd
    exact .other (fun h => h) (status_congr (by rw [hdb])) (seen_congr hlog hnext .order o)
  | @land p topic event hrun => exact .other (fun h => h) rfl (append_seen hw topic event .order o)
  | @resume p topic event hrun =>
    cases p with
    | post o' =>
      have hstatus := published_status s o o'
      by_cases ho : o = o'
      · subst ho
        rw [if_pos rfl] at hstatus
        exact .resumed rfl hstatus (fun _ => rfl)
      · rw [if_neg ho] at hstatus
        exact .other (fun h => ho h.1.symm) hstatus (fun _ => rfl)
    | consumer svc => exact .other (fun h => h) rfl (fun _ => rfl)
  | raise _ hnet => exact absurd hnet Bool.false_ne_true

/-! ## The invariant, and what keeps the status good -/

theorem caused_step {s s' : Sys} {a : Action} {o : Uuid} (hc : Caused s o) (h : Effect s o a s') : Caused s' o := by
  rintro ⟨status, hstatus, hfinal⟩
  cases h with
  | created hnew hst hseen =>
    rw [hst] at hstatus
    cases hstatus
    exact absurd hfinal (by decide)
  | resumed ha hst hseen =>
    rw [hst] at hstatus
    obtain ⟨_, -, rfl⟩ := Option.map_eq_some_iff.1 hstatus
    exact absurd hfinal (by decide)
  | handled i event ha hget hsub hst hseen hle =>
    refine ⟨event.eventType, ?_, by rw [hseen, if_pos rfl]; omega⟩
    rw [hst] at hstatus
    cases hty : event.eventType <;> rw [hty] at hstatus <;> cases hstatus <;>
      first | rfl | exact absurd hfinal (by decide)
  | other ha hst hseen =>
    rw [hst] at hstatus
    obtain ⟨ty, hty, hpos⟩ := hc ⟨status, hstatus, hfinal⟩
    exact ⟨ty, hty, by rw [hseen]; exact hpos⟩

theorem inv_init : Inv {} where
  wf := wf_init
  flow := flow_init
  recorded := recorded_init
  caused _ := fun ⟨_, h, _⟩ => nomatch h

theorem inv_step {s s' : Sys} {a : Action} (hi : Inv s) (h : Step { format } s a s') : Inv s' where
  wf := wf_step hi.wf h
  flow := flow_step hi.wf hi.flow h
  recorded o := recorded_step Bool.false_ne_true hi.wf (hi.recorded o) h
  caused o := caused_step (hi.caused o) (step_effect hi.wf hi.flow h o)

/-- A good order that has ended shows it. -/
theorem Good.ended {s : Sys} {o : Uuid} (hg : Good s o) {ty : EventType} (hty : ty.final)
    (hpos : 0 < s.seen .order o ty) : s.Ended o := by
  have hst := hg ty hty hpos
  cases ty <;> first | exact ⟨_, hst, rfl⟩ | exact absurd hty (by decide)

/-- No final event has been delivered to order-service. -/
def Open (s : Sys) (o : Uuid) : Prop := ∀ ty : EventType, ty.final → s.seen .order o ty = 0

theorem Open.good {s : Sys} {o : Uuid} (h : Open s o) : Good s o := by
  intro ty hty hpos
  rw [h ty hty] at hpos
  exact absurd hpos (Nat.lt_irrefl 0)

theorem open_of_landed {s : Sys} {o : Uuid} (h : s.landed o .paymentFailed + s.landed o .inventoryReserved +
    s.landed o .refundCompleted + s.landed o .refundFailed = 0) : Open s o := by
  intro ty hty
  have hle := seen_le_landed s .order o ty
  cases ty <;> first | omega | exact absurd hty (by decide)

theorem Flow.landed_of_unknown {s : Sys} {o : Uuid} (hf : Flow s o) (h : s.status o = none) (ty : EventType) :
    s.landed o ty = 0 := by
  have hnone : s.ordersDb.get? o = none := Option.map_eq_none_iff.1 h
  have hempty : s.log ty.topic o = [] := by
    by_contra hne
    obtain ⟨event, he⟩ := List.exists_mem_of_ne_nil _ hne
    have hknown := hf.known he
    rw [hnone] at hknown
    exact absurd hknown (by decide)
  unfold Sys.landed
  rw [hempty]
  rfl

theorem Flow.open_of_unknown {s : Sys} {o : Uuid} (hf : Flow s o) (h : s.status o = none) : Open s o := fun ty _ =>
  Nat.eq_zero_of_le_zero (hf.landed_of_unknown h ty ▸ seen_le_landed s .order o ty)

/-- A step to a status that is not final, without a final event, keeps the status good when the order had not ended. -/
theorem good_interrupted {s s' : Sys} {o : Uuid} (hc : Caused s o)
    (hst : ∀ status, s'.status o = some status → status.final = false)
    (hseen : ∀ ty : EventType, ty.final → s'.seen .order o ty = s.seen .order o ty) :
    Good s' o ↔ Good s o ∧ ¬ s.Ended o := by
  constructor
  · intro hg
    have hopen : Open s o := by
      intro ty hty
      by_contra hne
      rw [← hseen ty hty] at hne
      obtain ⟨status, hstatus, hfinal⟩ := hg.ended hty (Nat.pos_of_ne_zero hne)
      rw [hst status hstatus] at hfinal
      exact absurd hfinal (by decide)
    refine ⟨hopen.good, fun hend => ?_⟩
    obtain ⟨ty, hty, hpos⟩ := hc hend
    rw [hopen ty hty] at hpos
    exact absurd hpos (Nat.lt_irrefl 0)
  · rintro ⟨hg, hnot⟩ ty hty hpos
    rw [hseen ty hty] at hpos
    exact absurd (hg.ended hty hpos) hnot

theorem Counts.final_unique {s : Sys} {o : Uuid} (hc : Counts s o) {ty ty' : EventType} (hty : ty.final)
    (hty' : ty'.final) (hpos : 0 < s.landed o ty) (hpos' : 0 < s.landed o ty') : ty' = ty := by
  have hone := hc.finals_le_one
  cases ty <;> cases ty' <;>
    first | rfl | omega | exact absurd hty (by decide) | exact absurd hty' (by decide)

theorem Counts.final_once {s : Sys} {o : Uuid} (hc : Counts s o) {ty : EventType} (hty : ty.final)
    (hpos : 0 < s.landed o ty) : s.landed o ty = 1 := by
  have hone := hc.finals_le_one
  cases ty <;> first | omega | exact absurd hty (by decide)

/-- A final event is the first one delivered to order-service. -/
theorem Counts.open_of_final {s : Sys} {o : Uuid} (hc : Counts s o) {ty : EventType} (hty : ty.final)
    (hlt : s.seen .order o ty < s.landed o ty) : Open s o := by
  have hone := hc.finals_le_one
  intro ty' hty'
  have hle := seen_le_landed s .order o ty'
  cases ty <;> cases ty' <;> first | omega | exact absurd hty (by decide) | exact absurd hty' (by decide)

/-- **A step keeps the status good exactly when it does not overwrite a final one.** -/
theorem good_step {s s' : Sys} {a : Action} {o : Uuid} (hi : Inv s) (h : Step { format } s a s') :
    Good s' o ↔ Good s o ∧ ¬ Overwrites s o a := by
  have hcounts := (hi.flow o).counts hi.wf
  cases step_effect hi.wf hi.flow h o with
  | created hnew hst hseen =>
    have hopen := (hi.flow o).open_of_unknown hnew
    have hopen' : Open s' o := fun ty hty => by rw [hseen, hopen ty hty]
    refine iff_of_true hopen'.good ⟨hopen.good, fun hover => ?_⟩
    obtain ⟨status, hstatus, -⟩ := hover.ended
    rw [hnew] at hstatus
    cases hstatus
  | resumed ha hst hseen =>
    subst ha
    have hnot : ∀ status, s'.status o = some status → status.final = false := fun status hstatus => by
      rw [hst] at hstatus
      obtain ⟨_, -, rfl⟩ := Option.map_eq_some_iff.1 hstatus
      rfl
    rw [good_interrupted (hi.caused o) hnot (fun ty _ => hseen ty)]
    simp [Overwrites]
  | handled i event ha hget hsub hst hseen hle =>
    subst ha
    have hover : Overwrites s o (.deliver .order event.eventType.topic o i) ↔
        s.Ended o ∧ event.eventType = .paymentCompleted := by
      constructor
      · intro h
        obtain ⟨-, -, hend, hmap⟩ := h.deliver
        rw [hget] at hmap
        exact ⟨hend, Option.some.inj hmap⟩
      · rintro ⟨hend, hty⟩
        have htopic : event.eventType.topic = .paymentResult := by rw [hty]; rfl
        rw [htopic] at hget ⊢
        exact ⟨rfl, hend, by rw [hget, Option.map_some, hty]⟩
    rw [hover]
    by_cases hfinal : event.eventType.final
    · have hopen := hcounts.open_of_final hfinal hle
      have hnot : event.eventType ≠ .paymentCompleted := fun h => by
        rw [h] at hfinal
        exact absurd hfinal (by decide)
      refine iff_of_true (fun ty hty hpos => ?_) ⟨hopen.good, fun h => hnot h.2⟩
      rw [hseen, hopen ty hty] at hpos
      by_cases heq : event.eventType = ty
      · rw [hst, heq]
      · rw [if_neg heq] at hpos
        exact absurd hpos (by decide)
    · have hseen' : ∀ ty : EventType, ty.final → s'.seen .order o ty = s.seen .order o ty := fun ty hty => by
        rw [hseen, if_neg (fun heq => hfinal (by rw [heq]; exact hty)), Nat.add_zero]
      cases hty : event.eventType <;> rw [hty] at hfinal hsub hle hst
      case paymentCompleted =>
        rw [good_interrupted (hi.caused o) (fun status hstatus => by rw [hst] at hstatus; cases hstatus; rfl) hseen']
        simp
      case inventoryFailed =>
        have hopen := open_of_landed (hcounts.finals_eq_zero hle)
        have hopen' : Open s' o := fun ty h => by rw [hseen' ty h, hopen ty h]
        exact iff_of_true hopen'.good ⟨hopen.good, fun h => absurd h.2 (by decide)⟩
      all_goals first | exact absurd rfl hfinal | exact absurd hsub (by decide)
  | other ha hst hseen =>
    have hgood : Good s' o ↔ Good s o := by
      unfold Good
      rw [hst]
      simp only [hseen]
    rw [hgood]
    exact ⟨fun hg => ⟨hg, ha⟩, fun hg => hg.1⟩

/-! ## Quiescence -/

theorem debt_orderId {phase : Phase} {st : Stage} {o : Uuid} (h : phase.debt = some (st, o)) :
    phase.orderId? = some o := by
  cases phase with
  | sleeping topic event => exact congrArg some (debt_sleeping.1 h).2
  | publishing topic event landed =>
    cases landed with
    | false => exact congrArg some (debt_publishing.1 h).2
    | true => cases h
  | stopped => cases h

theorem unlanded_orderId {phase : Phase} {ty : EventType} {o : Uuid} (h : phase.unlanded = some (ty, o)) :
    phase.orderId? = some o := by
  cases phase with
  | sleeping topic event => cases h
  | publishing topic event landed =>
    cases landed with
    | false => cases h; rfl
    | true => cases h
  | stopped => cases h

theorem Sys.Idle.owed {s : Sys} {o : Uuid} (h : s.Idle o) (st : Stage) : s.owed st o = 0 := by
  refine if_neg fun hdebt => ?_
  obtain ⟨phase, hrun, hphase⟩ := Option.bind_eq_some_iff.1 hdebt
  exact h.2 _ phase hrun (debt_orderId hphase)

theorem Sys.Idle.unlanded {s : Sys} {o : Uuid} (h : s.Idle o) (svc : Service) (ty : EventType) :
    s.unlanded svc o ty = 0 := by
  refine if_neg fun hun => ?_
  obtain ⟨phase, hrun, hphase⟩ := Option.bind_eq_some_iff.1 hun
  exact h.2 _ phase hrun (unlanded_orderId hphase)

theorem Sys.Quiescent.seen {s : Sys} {o : Uuid} (h : s.Quiescent o) {svc : Service} {ty : EventType}
    (hsub : svc.subscribes ty.topic) : s.seen svc o ty = s.landed o ty := by
  unfold Sys.seen Sys.landed
  rw [h.2 svc ty.topic hsub, List.take_length]

theorem Sys.Quiescent.recorded {s : Sys} {o : Uuid} (hi : Inv s) (h : s.Quiescent o) {ty : EventType}
    (h1 : ty ≠ .orderCreated) (h2 : ty ≠ .refundRequested) : s.recorded o ty = s.landed o ty := by
  have hrec : ∀ st : Stage, ty.topic = st.output → st ≠ .compensate → s.recorded o ty = s.landed o ty :=
    fun st htopic hst => by rw [hi.recorded o st ty htopic hst, h.1.unlanded, Nat.add_zero]
  cases ty with
  | orderCreated => exact absurd rfl h1
  | refundRequested => exact absurd rfl h2
  | paymentCompleted | paymentFailed => exact hrec .pay rfl (by decide)
  | inventoryReserved | inventoryFailed => exact hrec .reserve rfl (by decide)
  | refundCompleted | refundFailed => exact hrec .refund rfl (by decide)

/-- **A quiescent order has ended in one event**, and its records fix the status of that event. -/
theorem Sys.Quiescent.ending {s : Sys} {o : Uuid} (hi : Inv s) (h : s.Quiescent o)
    (hknown : (s.ordersDb.get? o).isSome) :
    ∃ ty : EventType, ty.final ∧ 0 < s.landed o ty ∧ s.fixedStatus o = ty.orderStatus := by
  obtain ⟨h0, h1, h2, h3, h4⟩ := (hi.flow o).counts hi.wf
  have hcreating : s.creating o = 0 := by
    unfold Sys.creating
    rw [h.1.1]
  rw [hcreating, if_pos hknown] at h0
  rw [h.1.owed, h.seen rfl] at h1 h2 h3 h4
  unfold Sys.fixedStatus
  have hrec : ∀ ty, ty ≠ .orderCreated → ty ≠ .refundRequested → s.recorded o ty = s.landed o ty :=
    fun ty => h.recorded hi
  rw [hrec .paymentFailed (by decide) (by decide), hrec .paymentCompleted (by decide) (by decide),
    hrec .inventoryReserved (by decide) (by decide), hrec .inventoryFailed (by decide) (by decide),
    hrec .refundCompleted (by decide) (by decide), hrec .refundFailed (by decide) (by decide)]
  by_cases hpf : 0 < s.landed o .paymentFailed
  · exact ⟨.paymentFailed, rfl, hpf, if_pos hpf⟩
  rw [if_neg hpf]
  by_cases hir : 0 < s.landed o .inventoryReserved
  · exact ⟨.inventoryReserved, rfl, hir, if_pos ⟨by omega, hir⟩⟩
  rw [if_neg (fun hand => hir hand.2)]
  by_cases hrc : 0 < s.landed o .refundCompleted
  · exact ⟨.refundCompleted, rfl, hrc, if_pos ⟨by omega, hrc⟩⟩
  rw [if_neg (fun hand => hrc hand.2)]
  have hrf : 0 < s.landed o .refundFailed := by omega
  exact ⟨.refundFailed, rfl, hrf, if_pos ⟨by omega, hrf⟩⟩

/-- **At quiescence the status is the one the records fix exactly when it is good.** -/
theorem Sys.Quiescent.status_iff {s : Sys} {o : Uuid} (hi : Inv s) (h : s.Quiescent o) :
    s.status o = s.fixedStatus o ↔ Good s o := by
  cases hdb : s.ordersDb.get? o with
  | none =>
    have hstatus : s.status o = none := by
      unfold Sys.status
      rw [hdb]
      rfl
    have hrecorded : ∀ ty, ty ≠ .orderCreated → ty ≠ .refundRequested → s.recorded o ty = 0 := fun ty h1 h2 => by
      rw [h.recorded hi h1 h2, (hi.flow o).landed_of_unknown hstatus ty]
    refine iff_of_true ?_ ((hi.flow o).open_of_unknown hstatus).good
    unfold Sys.fixedStatus
    rw [hstatus, hrecorded .paymentFailed (by decide) (by decide), hrecorded .paymentCompleted (by decide) (by decide),
      hrecorded .inventoryFailed (by decide) (by decide)]
    rfl
  | some order =>
    obtain ⟨ty, hty, hpos, hfixed⟩ := h.ending hi (by rw [hdb]; rfl)
    have hsub : Service.order.subscribes ty.topic := by
      cases ty <;> first | rfl | exact absurd hty (by decide)
    rw [hfixed]
    constructor
    · intro hst ty' hty' hpos'
      have hle := seen_le_landed s .order o ty'
      rw [((hi.flow o).counts hi.wf).final_unique hty hty' hpos (by omega)]
      exact hst
    · intro hg
      exact hg ty hty (by rw [h.seen hsub]; exact hpos)

/-- **The order's status at quiescence is the one its records fix exactly when no step of the run overwrote a final
status of it**: in every run of the three services, any number of orders at once. -/
theorem quiescent_status_iff {acts : List Action} {s : Sys} {o : Uuid} (hrun : (lts { format }).run {} acts = some s)
    (hq : s.Quiescent o) :
    s.status o = s.fixedStatus o ↔ (lts { format }).Along (fun s a _ => ¬ Overwrites s o a) {} acts := by
  have hstep : ∀ s a s', Inv s → (lts { format }).step s a = some s' → Inv s' :=
    fun s a s' hi h => inv_step hi (step_sound h)
  have hgood : ∀ s a s', Inv s → (lts { format }).step s a = some s' → (Good s' o ↔ Good s o ∧ ¬ Overwrites s o a) :=
    fun s a s' hi h => good_step hi (step_sound h)
  have hinit : Good {} o := fun ty _ hpos => absurd hpos (by simp [Sys.seen])
  rw [hq.status_iff ((lts { format }).run_inv hstep inv_init hrun),
    (lts { format }).good_iff_along hstep hgood inv_init hrun]
  exact ⟨fun h => h.2, fun h => ⟨hinit, h⟩⟩

def anOrder : Uuid := ⟨"0b7e1f9a-3c52-4d1e-9a60-5f8d2c4b6e01", by decide⟩

/-- An order that is paid and reserved, its POST handler resumed before order-service reads anything. -/
def natural : List Action :=
  [.createNewOrder anOrder "user-001" [⟨"PROD-001", "노트북", 1, 10⟩], .land (.post anOrder), .resume (.post anOrder),
    .deliver .payment .orderCreated anOrder 0, .draw .payment true, .land (.consumer .payment),
    .resume (.consumer .payment), .deliver .order .paymentResult anOrder 0,
    .deliver .inventory .paymentResult anOrder 0, .draw .inventory true, .land (.consumer .inventory),
    .resume (.consumer .inventory), .deliver .order .inventoryResult anOrder 0]

/-- The same order, its POST handler suspended at `publish_order_created` until the others have finished. -/
def lateResume : List Action := natural.erase (.resume (.post anOrder)) ++ [.resume (.post anOrder)]

/-- An order that is paid, not reserved and refunded. -/
def compensated : List Action :=
  [.createNewOrder anOrder "user-001" [⟨"PROD-001", "노트북", 1, 10⟩], .land (.post anOrder), .resume (.post anOrder),
    .deliver .payment .orderCreated anOrder 0, .draw .payment true, .land (.consumer .payment),
    .resume (.consumer .payment), .deliver .order .paymentResult anOrder 0,
    .deliver .inventory .paymentResult anOrder 0, .draw .inventory false, .land (.consumer .inventory),
    .resume (.consumer .inventory), .deliver .order .inventoryResult anOrder 0, .land (.consumer .order),
    .resume (.consumer .order), .deliver .payment .refundRequest anOrder 0, .draw .payment true,
    .land (.consumer .payment), .resume (.consumer .payment), .deliver .order .refundResult anOrder 0]

theorem sample_quiescent {s : Sys} (hpost : s.running (.post anOrder) = none)
    (hidle : ∀ svc, s.running (.consumer svc) = none)
    (hnext : ∀ svc topic, svc.subscribes topic → s.next svc topic anOrder = (s.log topic anOrder).length) :
    s.Quiescent anOrder :=
  ⟨⟨hpost, fun svc phase h => by rw [hidle svc] at h; cases h⟩, hnext⟩

theorem natural_status_iff : ∃ s, (lts {}).run {} natural = some s ∧
    (s.status anOrder = s.fixedStatus anOrder ↔
      (lts {}).Along (fun s a _ => ¬ Overwrites s anOrder a) {} natural) := by
  refine ⟨_, rfl, quiescent_status_iff rfl ?_⟩
  refine sample_quiescent rfl (fun svc => ?_) (fun svc topic => ?_)
  · cases svc <;> rfl
  · cases svc <;> cases topic <;> decide +kernel

/-- The order ends COMPLETED in its records and PAYMENT_PROCESSING in order-service. -/
theorem lateResume_disagrees : ∃ s, (lts {}).run {} lateResume = some s ∧ s.Quiescent anOrder ∧
    s.status anOrder = some .paymentProcessing ∧ s.fixedStatus anOrder = some .completed := by
  refine ⟨_, rfl, sample_quiescent rfl (fun svc => ?_) (fun svc topic => ?_), ?_, ?_⟩
  · cases svc <;> rfl
  · cases svc <;> cases topic <;> decide +kernel
  · decide +kernel
  · decide +kernel

end Saga
end KafkaGuide
