import KafkaGuide.SagaAmounts
/-!
# SagaItems — the items an order is reserved with

Between ORDER_CREATED and INVENTORY_RESERVED lies PAYMENT_COMPLETED, which payment-service builds without the items.
inventory-service reads `event.get("items", [])` off it, so every reservation names the empty list, whatever was
ordered (`reserved_items`).
-/
namespace KafkaGuide
namespace Saga

/-! ## Where events come from -/

/-- An event some handler makes of the message it was given. -/
inductive Event.Answers (cause : Event) : Event → Prop
  | pay (isSuccess : Bool) (hty : cause.eventType = .orderCreated) :
    Answers cause (processOrderCreated cause isSuccess).2
  | reserve (isSuccess : Bool) (hty : cause.eventType = .paymentCompleted) :
    Answers cause (processPaymentResult cause isSuccess).2
  | refund (isSuccess : Bool) (hty : cause.eventType = .refundRequested) :
    Answers cause (processRefundRequest cause isSuccess).2
  | compensate {format : ℚ → String} {db : OrdersDb} {topic : Topic} {answer : Event}
    (h : (processMessage format db topic cause).2 = some answer) : Answers cause answer

/-- An event no earlier message led to, or one that answers a message mentioned before. -/
def Event.Origin (s : Sys) (a : Action) (event : Event) : Prop :=
  (∃ o userId items, a = .createNewOrder o userId items ∧ event = (createNewOrder s.ordersDb o userId items).2) ∨
    ∃ cause, s.Mentions cause ∧ cause.Answers event

theorem mentions_of_log {s : Sys} {topic : Topic} {o : Uuid} {event : Event} (h : event ∈ s.log topic o) :
    s.Mentions event := .inl ⟨topic, o, h⟩

theorem mentions_of_running {s : Sys} {p : Party} {phase : Phase} {event : Event} (h : s.running p = some phase)
    (he : phase.event? = some event) : s.Mentions event := .inr ⟨p, phase, h, he⟩

theorem mentions_setRunning {s : Sys} {p : Party} {phase : Option Phase} {event : Event}
    (h : (s.setRunning p phase).Mentions event) :
    s.Mentions event ∨ ∃ phase', phase = some phase' ∧ phase'.event? = some event := by
  rcases h with ⟨topic, o, he⟩ | ⟨p', phase', hp, he⟩
  · exact .inl (mentions_of_log he)
  · rcases setRunning_some hp with hold | hnew
    · exact .inl (mentions_of_running hold he)
    · exact .inr ⟨phase', hnew, he⟩

theorem mentions_enter {s : Sys} {p : Party} {phase : Phase} {event : Event}
    (h : (s.setRunning p (some phase)).Mentions event) : s.Mentions event ∨ phase.event? = some event := by
  rcases mentions_setRunning h with hold | ⟨phase', hphase, he⟩
  · exact .inl hold
  · cases hphase
    exact .inr he

theorem mentions_leave {s : Sys} {p : Party} {event : Event} (h : (s.setRunning p none).Mentions event) :
    s.Mentions event := by
  rcases mentions_setRunning h with hold | ⟨_, hphase, -⟩
  · exact hold
  · cases hphase

/-- What a consumer that reads `cause` goes on with: `cause` itself, or the answer to it. -/
theorem mentions_receive {s : Sys} {format : ℚ → String} {svc : Service} {topic : Topic} {cause event : Event}
    (h : (s.receive format svc topic cause).Mentions event) :
    s.Mentions event ∨ event = cause ∨ cause.Answers event := by
  unfold Sys.receive at h
  split at h
  · rcases mentions_setRunning h with hold | ⟨phase, hphase, he⟩
    · exact .inl hold
    · obtain ⟨answer, hanswer, rfl⟩ := Option.map_eq_some_iff.1 hphase
      cases he
      exact .inr (.inr (.compensate hanswer))
  · refine (mentions_enter h).imp_right fun he => ?_
    cases he
    exact .inl rfl
  · split at h
    · refine (mentions_enter h).imp_right fun he => ?_
      cases he
      exact .inl rfl
    · exact .inl h

/-- What a handler that draws publishes is the answer to its message. -/
theorem mentions_drawn {s s' : Sys} (hw : Wf s) {svc : Service} {topic : Topic} {cause event : Event}
    {isSuccess : Bool} (hrun : s.running (.consumer svc) = some (.sleeping topic cause))
    (h : s.drawn svc topic cause isSuccess = some s') (hm : s'.Mentions event) :
    s.Mentions event ∨ cause.Answers event := by
  obtain ⟨st, hsvc, htopic, htype⟩ := hw.running _ _ hrun
  unfold Sys.drawn at h
  split at h
  · cases h
    have hst : st = .pay := Stage.eq_of_reads hsvc htopic
    subst hst
    refine (mentions_enter hm).imp_right fun he => ?_
    cases he
    exact .pay isSuccess htype
  · cases h
    have hst : st = .refund := Stage.eq_of_reads hsvc htopic
    subst hst
    refine (mentions_enter hm).imp_right fun he => ?_
    cases he
    exact .refund isSuccess htype
  · cases h
    have hst : st = .reserve := Stage.eq_of_reads hsvc htopic
    subst hst
    refine (mentions_enter hm).imp_right fun he => ?_
    cases he
    exact .reserve isSuccess htype
  · cases h

theorem mentions_land {s : Sys} {p : Party} {topic : Topic} {event event' : Event}
    (hrun : s.running p = some (.publishing topic event false))
    (h : ((s.append topic event).setRunning p (some (.publishing topic event true))).Mentions event') :
    s.Mentions event' := by
  have hevent : s.Mentions event := mentions_of_running hrun rfl
  rcases h with ⟨t, o, he⟩ | ⟨p', phase, hp, he⟩
  · change event' ∈ (if _ then _ else _) at he
    split at he
    · rcases List.mem_append.1 he with hold | hnew
      · exact mentions_of_log hold
      · rwa [List.mem_singleton.1 hnew]
    · exact mentions_of_log he
  · rcases setRunning_some hp with hold | hset
    · exact mentions_of_running (s := s) hold he
    · cases hset
      cases he
      exact hevent

/-- **No event out of nothing**: what a step adds is a new order's event, or the answer to an event there was. -/
theorem mentions_step {net : Net} {s s' : Sys} {a : Action} (hw : Wf s) (h : Step net s a s') {event : Event}
    (hm : s'.Mentions event) : s.Mentions event ∨ event.Origin s a := by
  cases h with
  | @createNewOrder o userId items hnew =>
    refine (mentions_enter hm).imp_right fun he => ?_
    cases he
    exact .inl ⟨o, userId, items, rfl, rfl⟩
  | @deliver svc topic o i cause hrun hget hsub hi =>
    have hcause : s.Mentions cause := mentions_of_log (List.mem_of_getElem? hget)
    rcases mentions_receive hm with hold | rfl | hanswer
    · exact .inl hold
    · exact .inl hcause
    · exact .inr (.inr ⟨cause, hcause, hanswer⟩)
  | @draw svc topic cause isSuccess _ hrun hd =>
    exact (mentions_drawn hw hrun hd hm).imp_right (fun hanswer => .inr ⟨cause, mentions_of_running hrun rfl, hanswer⟩)
  | land hrun => exact .inl (mentions_land hrun hm)
  | @resume p topic event hrun =>
    cases p with
    | post o => exact .inl (mentions_leave hm)
    | consumer svc => exact .inl (mentions_leave hm)
  | @raise p topic event landed hrun hnet =>
    cases p with
    | post o => exact .inl (mentions_leave hm)
    | consumer svc =>
      refine (mentions_enter hm).imp_right fun he => ?_
      cases he

/-! ## The items of an order -/

def itemsOf (db : OrdersDb) (o : Uuid) : Option (List Item) := (db.get? o).map Order.items

theorem itemsOf_eq (db : OrdersDb) (o : Uuid) : itemsOf db o = (billed db o).map Prod.fst := by
  simp [itemsOf, billed, Function.comp_def]

theorem itemsOf_congr {db db' : OrdersDb} (h : billed db' = billed db) : itemsOf db' = itemsOf db := by
  funext o
  rw [itemsOf_eq, itemsOf_eq, h]

/-- **An order keeps its items.** -/
theorem itemsOf_step {net : Net} {s s' : Sys} {a : Action} (h : Step net s a s') {o : Uuid} {items : List Item}
    (hitems : itemsOf s.ordersDb o = some items) : itemsOf s'.ordersDb o = some items := by
  cases h with
  | @createNewOrder o' userId items' hnew =>
    unfold itemsOf at hitems ⊢
    change ((s.ordersDb.set o' _).get? o).map _ = _
    rw [Dict.get?_set_ne]
    · exact hitems
    · rintro rfl
      rw [hnew] at hitems
      cases hitems
  | @deliver svc topic o' i event =>
    rwa [itemsOf_congr (billed_receive (s.advance svc topic o' i) net.format svc topic event)]
  | draw hrun hd =>
    obtain ⟨st, answer, -, -, -, -, -, -, hdb, -⟩ := drawn_stage hd
    rwa [hdb]
  | land => exact hitems
  | @resume p =>
    cases p with
    | post o' =>
      change itemsOf (updateOrderStatus s.ordersDb o' .paymentProcessing) o = some items
      rwa [itemsOf_congr (billed_updateOrderStatus ..)]
    | consumer svc => exact hitems
  | @raise p => cases p <;> exact hitems

/-- The items an event names, by its type. -/
def Event.Lists (db : OrdersDb) (event : Event) : Prop :=
  match event.eventType with
  | .orderCreated => ∃ items, itemsOf db event.orderId = some items ∧ event.items = some items
  | .paymentCompleted => event.items = none
  | .inventoryReserved => event.items = some []
  | _ => True

theorem lists_of_answers {cause event : Event} (db : OrdersDb) (hcause : cause.Lists db) (h : cause.Answers event) :
    event.Lists db := by
  cases h with
  | pay isSuccess hty => cases isSuccess <;> trivial
  | reserve isSuccess hty =>
    unfold Event.Lists at hcause
    rw [hty] at hcause
    cases isSuccess with
    | false => trivial
    | true => simp [Event.Lists, processPaymentResult, hcause]
  | refund isSuccess hty => cases isSuccess <;> trivial
  | compensate h =>
    unfold processMessage at h
    split at h <;> try cases h
    dsimp only at h
    split at h
    · cases h
      trivial
    · cases h

theorem Event.Lists.step {net : Net} {s s' : Sys} {a : Action} (h : Step net s a s') {event : Event}
    (hl : event.Lists s.ordersDb) : event.Lists s'.ordersDb := by
  unfold Event.Lists at hl ⊢
  cases hty : event.eventType with
  | orderCreated =>
    rw [hty] at hl
    obtain ⟨items, ho, he⟩ := hl
    exact ⟨items, itemsOf_step h ho, he⟩
  | _ =>
    rw [hty] at hl
    exact hl

/-- **Every event names the items its type does.** -/
theorem lists_step {net : Net} {s s' : Sys} {a : Action} (hw : Wf s)
    (hl : ∀ event, s.Mentions event → event.Lists s.ordersDb) (h : Step net s a s') :
    ∀ event, s'.Mentions event → event.Lists s'.ordersDb := by
  intro event hm
  rcases mentions_step hw h hm with hold | ⟨o, userId, items, rfl, rfl⟩ | ⟨cause, hcause, hanswer⟩
  · exact (hl event hold).step h
  · cases h
    exact ⟨items, by simp [itemsOf, createNewOrder, createOrder, Sys.setRunning], rfl⟩
  · exact lists_of_answers _ ((hl cause hcause).step h) hanswer

theorem lists_run {net : Net} {acts : List Action} {s : Sys} (h : (lts net).run {} acts = some s) :
    ∀ event, s.Mentions event → event.Lists s.ordersDb := by
  have hinv : Wf s ∧ ∀ event, s.Mentions event → event.Lists s.ordersDb := by
    apply (lts net).run_inv (I := fun s => Wf s ∧ ∀ event, s.Mentions event → event.Lists s.ordersDb) ?_ ?_ h
    · intro s a s' hi hs
      exact ⟨wf_step hi.1 (step_sound hs), lists_step hi.1 hi.2 (step_sound hs)⟩
    · refine ⟨wf_init, ?_⟩
      rintro event (⟨topic, o, he⟩ | ⟨p, phase, hp, he⟩)
      · cases he
      · cases hp
  exact hinv.2

/-! ## What is reserved -/

/-- **A reservation names no item**, whatever was ordered. -/
theorem reserved_items {net : Net} {acts : List Action} {s : Sys} (h : (lts net).run {} acts = some s) {o : Uuid}
    {reserved : Event} (hr : reserved ∈ s.log .inventoryResult o) (hty : reserved.eventType = .inventoryReserved) :
    reserved.items = some [] := by
  have hl := lists_run h reserved (mentions_of_log hr)
  unfold Event.Lists at hl
  rwa [hty] at hl

/-- ORDER_CREATED names the items that `create_new_order` was given. -/
theorem created_items {net : Net} {acts : List Action} {s : Sys} (h : (lts net).run {} acts = some s) {o : Uuid}
    {userId : String} {items : List Item} (ha : .createNewOrder o userId items ∈ acts) {created : Event}
    (hc : created ∈ s.log .orderCreated o) : created.items = some items := by
  have hinv : ∀ {as : List Action} {m m' : Sys}, (lts net).run m as = some m' → itemsOf m.ordersDb o = some items →
      itemsOf m'.ordersDb o = some items := fun hrun hm =>
    (lts net).run_inv (I := fun s => itemsOf s.ordersDb o = some items)
      (fun _ _ _ hi hs => itemsOf_step (step_sound hs) hi) hm hrun
  obtain ⟨before, after, rfl⟩ := List.append_of_mem ha
  obtain ⟨m, hbefore, hrest⟩ := (lts net).run_append.1 h
  obtain ⟨m', hstep, hafter⟩ := (lts net).run_cons.1 hrest
  have haccepted : itemsOf m'.ordersDb o = some items := by
    have hcreate : Step net m (.createNewOrder o userId items) m' := step_sound hstep
    cases hcreate
    simp [itemsOf, createNewOrder, createOrder, Sys.setRunning]
  have hwf : Wf s := (lts net).run_inv (I := Wf) (fun _ _ _ hw hs => wf_step hw (step_sound hs)) wf_init h
  obtain ⟨htopic, hid⟩ := hwf.keyed _ _ created hc
  have hl := lists_run h created (mentions_of_log hc)
  have hty : created.eventType = .orderCreated := EventType.eq_orderCreated htopic
  unfold Event.Lists at hl
  rw [hty, hid] at hl
  obtain ⟨items', ho, he⟩ := hl
  rw [hinv hafter haccepted] at ho
  rw [he, ho]

/-- What is reserved for the order is what was ordered. -/
def Sys.ItemsCovered (s : Sys) (o : Uuid) : Prop :=
  ∀ created ∈ s.log .orderCreated o, ∀ reserved ∈ s.log .inventoryResult o,
    reserved.eventType = .inventoryReserved → reserved.items = created.items

/-- The order is paid and its items are reserved. -/
def reservation (o : Uuid) (userId : String) (items : List Item) : List Action :=
  [.createNewOrder o userId items, .land (.post o), .deliver .payment .orderCreated o 0, .draw .payment true,
    .land (.consumer .payment), .resume (.consumer .payment), .deliver .inventory .paymentResult o 0,
    .draw .inventory true, .land (.consumer .inventory)]

theorem reservation_run (net : Net) (o : Uuid) (userId : String) (items : List Item) :
    ∃ s, (lts net).run {} (reservation o userId items) = some s ∧
      s.log .orderCreated o = [(createNewOrder .empty o userId items).2] ∧
      ∃ reserved ∈ s.log .inventoryResult o, reserved.eventType = .inventoryReserved := by
  have hnew : (Dict.empty : OrdersDb).get? o = none := rfl
  simp [Lts.run, lts, reservation, step, Sys.setRunning, Sys.append, Sys.advance, Sys.receive, Sys.drawn, Sys.published,
    createNewOrder, processOrderCreated, processPaymentResult, Service.subscribes, hnew]

/-- **The items reach the reservation of an empty order, and of no other**: every run that accepts the order reserves
what it ordered exactly when it ordered nothing, for PAYMENT_COMPLETED does not carry the items. -/
theorem items_covered_iff (net : Net) (o : Uuid) (userId : String) (items : List Item) :
    (∀ acts s, (lts net).run {} acts = some s → .createNewOrder o userId items ∈ acts → s.ItemsCovered o) ↔
      items = [] := by
  constructor
  · intro h
    obtain ⟨s, hrun, hlog, reserved, hr, hty⟩ := reservation_run net o userId items
    have hcovered := h _ s hrun (by simp [reservation]) _ (by rw [hlog]; exact List.mem_singleton_self _) reserved hr
      hty
    rw [reserved_items hrun hr hty] at hcovered
    exact (Option.some.inj hcovered).symm
  · rintro rfl acts s hrun ha created hc reserved hr hty
    rw [reserved_items hrun hr hty, created_items hrun ha hc]

def laptopOrder : Uuid := ⟨"5a0f7c3e-91d2-4b68-8e14-c6d3b2079af5", by decide⟩

/-- One laptop is ordered and paid; the reservation names no item. -/
theorem laptop_uncovered : ∃ s, (lts {}).run {} (reservation laptopOrder "user-001"
    [⟨"PROD-001", "노트북", 1, 1500000⟩]) = some s ∧ (s.ordersDb.get? laptopOrder).isSome ∧
    ¬ s.ItemsCovered laptopOrder := by
  refine ⟨_, rfl, rfl, fun h => ?_⟩
  have hcovered := h _ (List.mem_singleton_self _) _ (List.mem_singleton_self _) rfl
  cases hcovered

end Saga
end KafkaGuide
