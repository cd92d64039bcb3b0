import KafkaGuide.SagaStages
/-!
# SagaAmounts — one price along the saga

The total that `create_new_order` computes is copied into ORDER_CREATED, from there into the payment, read again from
`orders_db` for the refund request and copied into the refund.  No handler changes it (`billed_receive`), so every
message and every record that names an amount names the order's price, whatever is lost or delivered again.
-/
namespace KafkaGuide
namespace Saga

variable {format : ℚ → String}

/-- The items and the price of an order. -/
def billed (db : OrdersDb) (o : Uuid) : Option (List Item × ℚ) :=
  (db.get? o).map (fun order => (order.items, order.totalPrice))

def price (db : OrdersDb) (o : Uuid) : Option ℚ := (db.get? o).map Order.totalPrice

theorem price_eq (db : OrdersDb) (o : Uuid) : price db o = (billed db o).map Prod.snd := by
  simp [price, billed, Function.comp_def]

theorem price_congr {db db' : OrdersDb} (h : billed db' = billed db) : price db' = price db := by
  funext o
  rw [price_eq, price_eq, h]

/-- An event that names an amount names the price of its order. -/
def Event.Charges (db : OrdersDb) (event : Event) : Prop :=
  match event.eventType with
  | .orderCreated => ∃ q, price db event.orderId = some q ∧ event.totalPrice = some q
  | .paymentCompleted | .refundRequested | .refundCompleted =>
    ∃ q, price db event.orderId = some q ∧ event.amount = some q
  | _ => True

/-- The event a handler was given or is about to publish. -/
def Phase.event? : Phase → Option Event
  | .sleeping _ event | .publishing _ event _ => some event
  | .stopped => none

/-- **Every amount is the price of its order**, in the logs, in the handlers and in the records, and the price is that
of the order's items. -/
structure Amounts (s : Sys) : Prop where
  totals : ∀ o items q, billed s.ordersDb o = some (items, q) → q = totalPrice items
  log : ∀ topic o, ∀ event ∈ s.log topic o, event.Charges s.ordersDb
  running : ∀ p phase event, s.running p = some phase → phase.event? = some event → event.Charges s.ordersDb
  payments : ∀ r ∈ s.paymentsDb, price s.ordersDb r.orderId = some r.amount
  refunds : ∀ r ∈ s.refundsDb, price s.ordersDb r.orderId = some r.amount

/-! ## Prices stay -/

theorem billed_updateOrderStatus (db : OrdersDb) (o : Uuid) (status : OrderStatus) (reason : String) :
    billed (updateOrderStatus db o status reason) = billed db := by
  funext o'
  unfold billed updateOrderStatus
  cases hdb : db.get? o with
  | none => rfl
  | some order =>
    by_cases h : o' = o
    · subst h
      simp [hdb]
    · simp [h]

theorem billed_processMessage (format : ℚ → String) (db : OrdersDb) (topic : Topic) (event : Event) :
    billed (processMessage format db topic event).1 = billed db := by
  unfold processMessage
  split <;> try simp only [billed_updateOrderStatus]
  split <;> simp only [billed_updateOrderStatus]

theorem billed_receive (s : Sys) (format : ℚ → String) (svc : Service) (topic : Topic) (event : Event) :
    billed (s.receive format svc topic event).ordersDb = billed s.ordersDb := by
  unfold Sys.receive
  split
  · exact billed_processMessage format s.ordersDb topic event
  · rfl
  · split <;> rfl

theorem Event.Charges.mono {db db' : OrdersDb} {event : Event} (h : event.Charges db)
    (hprice : ∀ o q, price db o = some q → price db' o = some q) : event.Charges db' := by
  have named : ∀ {amount : Option ℚ}, (∃ q, price db event.orderId = some q ∧ amount = some q) →
      ∃ q, price db' event.orderId = some q ∧ amount = some q := by
    rintro amount ⟨q, hq, he⟩
    exact ⟨q, hprice _ q hq, he⟩
  unfold Event.Charges at h ⊢
  cases hty : event.eventType <;> rw [hty] at h
  all_goals first | trivial | exact named h

/-- **What a step may add**: messages, phases and records that name their order's price. -/
theorem Amounts.step {s s' : Sys} (ha : Amounts s)
    (htotals : ∀ o items q, billed s'.ordersDb o = some (items, q) → q = totalPrice items)
    (hprice : ∀ o q, price s.ordersDb o = some q → price s'.ordersDb o = some q)
    (hlog : ∀ topic o, ∀ event ∈ s'.log topic o, event ∈ s.log topic o ∨ event.Charges s'.ordersDb)
    (hrunning : ∀ p phase event, s'.running p = some phase → phase.event? = some event →
      s.running p = some phase ∨ event.Charges s'.ordersDb)
    (hpayments : ∀ r ∈ s'.paymentsDb, r ∈ s.paymentsDb ∨ price s'.ordersDb r.orderId = some r.amount)
    (hrefunds : ∀ r ∈ s'.refundsDb, r ∈ s.refundsDb ∨ price s'.ordersDb r.orderId = some r.amount) : Amounts s' := by
  constructor
  case totals => exact htotals
  case log =>
    intro topic o event he
    rcases hlog topic o event he with hold | hnew
    · exact (ha.log topic o event hold).mono hprice
    · exact hnew
  case running =>
    intro p phase event hp he
    rcases hrunning p phase event hp he with hold | hnew
    · exact (ha.running p phase event hold he).mono hprice
    · exact hnew
  case payments =>
    intro r hr
    rcases hpayments r hr with hold | hnew
    · exact hprice _ _ (ha.payments r hold)
    · exact hnew
  case refunds =>
    intro r hr
    rcases hrefunds r hr with hold | hnew
    · exact hprice _ _ (ha.refunds r hold)
    · exact hnew

theorem setRunning_some {s : Sys} {p p' : Party} {phase : Option Phase} {phase' : Phase}
    (h : (s.setRunning p phase).running p' = some phase') : s.running p' = some phase' ∨ phase = some phase' := by
  rw [setRunning_running] at h
  split at h
  · exact .inr h
  · exact .inl h

/-- A party takes up another phase, over the same messages and records and the same prices. -/
theorem Amounts.phase {s s' : Sys} (ha : Amounts s) {p : Party} {phase : Option Phase}
    (hbilled : billed s'.ordersDb = billed s.ordersDb) (hlog : s'.log = s.log)
    (hpayments : s'.paymentsDb = s.paymentsDb) (hrefunds : s'.refundsDb = s.refundsDb)
    (hrunning : s'.running = (s.setRunning p phase).running)
    (hphase : ∀ phase' event, phase = some phase' → phase'.event? = some event → event.Charges s'.ordersDb) :
    Amounts s' := by
  apply ha.step
  · rw [hbilled]
    exact ha.totals
  · intro o q hq
    rwa [price_congr hbilled]
  · intro topic o event he
    rw [hlog] at he
    exact .inl he
  · intro p' phase' event hp he
    rw [hrunning] at hp
    rcases setRunning_some hp with hold | hnew
    · exact .inl hold
    · exact .inr (hphase phase' event hnew he)
  · intro r hr
    rw [hpayments] at hr
    exact .inl hr
  · intro r hr
    rw [hrefunds] at hr
    exact .inl hr

/-! ## The handlers -/

theorem amounts_create {s : Sys} (ha : Amounts s) {o : Uuid} (userId : String) (items : List Item)
    (hnew : s.ordersDb.get? o = none) :
    Amounts ({ s with ordersDb := (createNewOrder s.ordersDb o userId items).1 }.setRunning (.post o)
      (some (.publishing .orderCreated (createNewOrder s.ordersDb o userId items).2 false))) := by
  have hprice : price (createNewOrder s.ordersDb o userId items).1 o = some (totalPrice items) := by
    simp [price, createNewOrder, createOrder]
  apply ha.step
  · intro o' items' q h
    unfold billed at h
    change ((s.ordersDb.set o _).get? o').map _ = _ at h
    rw [Dict.get?_set] at h
    split at h
    · cases h
      rfl
    · exact ha.totals o' items' q h
  · intro o' q hq
    unfold price at hq ⊢
    change ((s.ordersDb.set o _).get? o').map _ = _
    rw [Dict.get?_set_ne]
    · exact hq
    · rintro rfl
      rw [hnew] at hq
      cases hq
  · exact fun _ _ _ he => .inl he
  · intro p phase event hp he
    rcases setRunning_some hp with hold | hset
    · exact .inl hold
    · cases hset
      cases he
      exact .inr ⟨_, hprice, rfl⟩
  · exact fun _ hr => .inl hr
  · exact fun _ hr => .inl hr

/-- The refund request names the price `orders_db` has. -/
theorem processMessage_charges {db : OrdersDb} {topic : Topic} {event answer : Event}
    (h : (processMessage format db topic event).2 = some answer) :
    answer.Charges (processMessage format db topic event).1 := by
  unfold processMessage at h ⊢
  split at h <;> try cases h
  dsimp only at h ⊢
  split at h
  · rename_i order ho
    cases h
    exact ⟨order.totalPrice, by simp [price, ho], rfl⟩
  · cases h

theorem amounts_receive {s : Sys} (ha : Amounts s) {svc : Service} {topic : Topic} {event : Event}
    (hevent : event.Charges s.ordersDb) : Amounts (s.receive format svc topic event) := by
  unfold Sys.receive
  split
  · refine ha.phase (billed_processMessage ..) rfl rfl rfl rfl ?_
    intro phase event' hphase he
    obtain ⟨answer, hanswer, rfl⟩ := Option.map_eq_some_iff.1 hphase
    cases he
    exact processMessage_charges hanswer
  · refine ha.phase rfl rfl rfl rfl rfl ?_
    intro phase event' hphase he
    cases hphase
    cases he
    exact hevent
  · split
    · refine ha.phase rfl rfl rfl rfl rfl ?_
      intro phase event' hphase he
      cases hphase
      cases he
      exact hevent
    · exact ha

/-- **payment-service charges what ORDER_CREATED names.** -/
theorem processOrderCreated_charges {db : OrdersDb} {event : Event} (hty : event.eventType = .orderCreated)
    (h : event.Charges db) (isSuccess : Bool) :
    price db (processOrderCreated event isSuccess).1.orderId = some (processOrderCreated event isSuccess).1.amount ∧
      (processOrderCreated event isSuccess).2.Charges db := by
  unfold Event.Charges at h
  rw [hty] at h
  obtain ⟨q, hq, ht⟩ := h
  cases isSuccess with
  | true => exact ⟨by simp [processOrderCreated, ht, hq], q, hq, by simp [processOrderCreated, ht]⟩
  | false => exact ⟨by simp [processOrderCreated, ht, hq], trivial⟩

/-- **It refunds what REFUND_REQUESTED names.** -/
theorem processRefundRequest_charges {db : OrdersDb} {event : Event} (hty : event.eventType = .refundRequested)
    (h : event.Charges db) (isSuccess : Bool) :
    price db (processRefundRequest event isSuccess).1.orderId = some (processRefundRequest event isSuccess).1.amount ∧
      (processRefundRequest event isSuccess).2.Charges db := by
  unfold Event.Charges at h
  rw [hty] at h
  obtain ⟨q, hq, ht⟩ := h
  cases isSuccess with
  | true => exact ⟨by simp [processRefundRequest, ht, hq], q, hq, by simp [processRefundRequest, ht]⟩
  | false => exact ⟨by simp [processRefundRequest, ht, hq], trivial⟩

theorem processPaymentResult_charges (db : OrdersDb) (event : Event) (isSuccess : Bool) :
    (processPaymentResult event isSuccess).2.Charges db := by
  cases isSuccess <;> trivial

/-- A handler that draws keeps one record and publishes one event. -/
theorem Amounts.answer {s s' : Sys} (ha : Amounts s) {p : Party} {topic : Topic} {answer : Event}
    (payments : List PaymentRecord) (refunds : List RefundRecord) (hdb : s'.ordersDb = s.ordersDb)
    (hlog : s'.log = s.log) (hpayments : s'.paymentsDb = s.paymentsDb ++ payments)
    (hrefunds : s'.refundsDb = s.refundsDb ++ refunds)
    (hrunning : s'.running = (s.setRunning p (some (.publishing topic answer false))).running)
    (hanswer : answer.Charges s.ordersDb) (hpay : ∀ r ∈ payments, price s.ordersDb r.orderId = some r.amount)
    (href : ∀ r ∈ refunds, price s.ordersDb r.orderId = some r.amount) : Amounts s' := by
  apply ha.step
  · rw [hdb]
    exact ha.totals
  · intro o q hq
    rwa [hdb]
  · intro t o event he
    rw [hlog] at he
    exact .inl he
  · intro p' phase event hp he
    rw [hrunning] at hp
    rcases setRunning_some hp with hold | hset
    · exact .inl hold
    · cases hset
      cases he
      rw [hdb]
      exact .inr hanswer
  · intro r hr
    rw [hpayments, List.mem_append] at hr
    rw [hdb]
    exact hr.imp_right (hpay r)
  · intro r hr
    rw [hrefunds, List.mem_append] at hr
    rw [hdb]
    exact hr.imp_right (href r)

theorem amounts_draw {s s' : Sys} (hw : Wf s) (ha : Amounts s) {svc : Service} {topic : Topic} {event : Event}
    {isSuccess : Bool} (hrun : s.running (.consumer svc) = some (.sleeping topic event))
    (h : s.drawn svc topic event isSuccess = some s') : Amounts s' := by
  have hevent := ha.running _ _ event hrun rfl
  obtain ⟨st, hsvc, htopic, htype⟩ := hw.running _ _ hrun
  unfold Sys.drawn at h
  split at h
  · cases h
    have hst : st = .pay := Stage.eq_of_reads hsvc htopic
    subst hst
    obtain ⟨hrecord, hanswer⟩ := processOrderCreated_charges htype hevent isSuccess
    refine ha.answer [_] [] rfl rfl rfl (List.append_nil _).symm rfl hanswer ?_ (by simp)
    intro r hr
    rw [List.mem_singleton.1 hr]
    exact hrecord
  · cases h
    have hst : st = .refund := Stage.eq_of_reads hsvc htopic
    subst hst
    obtain ⟨hrecord, hanswer⟩ := processRefundRequest_charges htype hevent isSuccess
    refine ha.answer [] [_] rfl rfl (List.append_nil _).symm rfl rfl hanswer (by simp) ?_
    intro r hr
    rw [List.mem_singleton.1 hr]
    exact hrecord
  · cases h
    exact ha.answer [] [] rfl rfl (List.append_nil _).symm (List.append_nil _).symm rfl
      (processPaymentResult_charges _ event isSuccess) (by simp) (by simp)
  · cases h

theorem amounts_land {s : Sys} (ha : Amounts s) {p : Party} {topic : Topic} {event : Event}
    (hrun : s.running p = some (.publishing topic event false)) :
    Amounts ((s.append topic event).setRunning p (some (.publishing topic event true))) := by
  have hevent := ha.running _ _ event hrun rfl
  apply ha.step
  · exact ha.totals
  · exact fun _ _ hq => hq
  · intro t o e he
    change e ∈ (if _ then _ else _) at he
    split at he
    · rcases List.mem_append.1 he with hold | hnew
      · exact .inl hold
      · rw [List.mem_singleton.1 hnew]
        exact .inr hevent
    · exact .inl he
  · intro p' phase e hp he
    rcases setRunning_some hp with hold | hset
    · exact .inl hold
    · cases hset
      cases he
      exact .inr hevent
  · exact fun _ hr => .inl hr
  · exact fun _ hr => .inl hr

/-- **Every step keeps every amount the price of its order.** -/
theorem amounts_step {net : Net} {s s' : Sys} {a : Action} (hw : Wf s) (ha : Amounts s) (h : Step net s a s') :
    Amounts s' := by
  cases h with
  | createNewOrder userId items hnew => exact amounts_create ha userId items hnew
  | @deliver svc topic o i event hrun hget hsub hi =>
    have hadvanced : Amounts (s.advance svc topic o i) := ⟨ha.totals, ha.log, ha.running, ha.payments, ha.refunds⟩
    exact amounts_receive hadvanced (ha.log topic o event (List.mem_of_getElem? hget))
  | draw hrun hd => exact amounts_draw hw ha hrun hd
  | land hrun => exact amounts_land ha hrun
  | @resume p topic event hrun =>
    cases p with
    | post o => exact ha.phase (billed_updateOrderStatus ..) rfl rfl rfl rfl (fun _ _ hp => nomatch hp)
    | consumer svc => exact ha.phase rfl rfl rfl rfl rfl (fun _ _ hp => nomatch hp)
  | @raise p topic event landed hrun hnet =>
    cases p with
    | post o => exact ha.phase rfl rfl rfl rfl rfl (fun _ _ hp => nomatch hp)
    | consumer svc =>
      refine ha.phase rfl rfl rfl rfl rfl fun phase event' hp he => ?_
      cases hp
      cases he

theorem amounts_init : Amounts {} where
  totals _ _ _ h := nomatch h
  log _ _ _ h := nomatch h
  running _ _ _ h := nomatch h
  payments _ h := nomatch h
  refunds _ h := nomatch h

/-! ## Every amount -/

/-- The event is in a log, or a handler has it. -/
def Sys.Mentions (s : Sys) (event : Event) : Prop :=
  (∃ topic o, event ∈ s.log topic o) ∨ ∃ p phase, s.running p = some phase ∧ phase.event? = some event

theorem order_of_price {db : OrdersDb} {o : Uuid} {q : ℚ} (h : price db o = some q) :
    ∃ order, db.get? o = some order ∧ q = order.totalPrice := by
  obtain ⟨order, ho, rfl⟩ := Option.map_eq_some_iff.1 h
  exact ⟨order, ho, rfl⟩

/-- **Amounts are conserved along the saga**: in every run, whatever the brokers and the draws do, each order's
`total_price` is the sum of price times quantity over its items, and each PAYMENT_COMPLETED, REFUND_REQUESTED and
REFUND_COMPLETED and each record of a payment or a refund carries it. -/
theorem amounts_conserved (net : Net) {acts : List Action} {s : Sys} (h : (lts net).run {} acts = some s) :
    (∀ o order, s.ordersDb.get? o = some order →
      order.totalPrice = (order.items.map (fun item => item.price * (item.quantity : ℚ))).sum) ∧
    (∀ event, s.Mentions event → event.eventType = .paymentCompleted ∨ event.eventType = .refundRequested ∨
        event.eventType = .refundCompleted →
      ∃ order, s.ordersDb.get? event.orderId = some order ∧ event.amount = some order.totalPrice) ∧
    (∀ r ∈ s.paymentsDb, ∃ order, s.ordersDb.get? r.orderId = some order ∧ r.amount = order.totalPrice) ∧
    ∀ r ∈ s.refundsDb, ∃ order, s.ordersDb.get? r.orderId = some order ∧ r.amount = order.totalPrice := by
  have ha : Wf s ∧ Amounts s := by
    apply (lts net).run_inv (I := fun s => Wf s ∧ Amounts s) ?_ ⟨wf_init, amounts_init⟩ h
    intro s a s' hi hs
    exact ⟨wf_step hi.1 (step_sound hs), amounts_step hi.1 hi.2 (step_sound hs)⟩
  obtain ⟨-, ha⟩ := ha
  refine ⟨?_, ?_, fun r hr => order_of_price (ha.payments r hr), fun r hr => order_of_price (ha.refunds r hr)⟩
  · intro o order ho
    apply ha.totals o order.items
    simp [billed, ho]
  · intro event hm hty
    have hevent : event.Charges s.ordersDb := by
      rcases hm with ⟨topic, o, he⟩ | ⟨p, phase, hp, he⟩
      · exact ha.log topic o event he
      · exact ha.running p phase event hp he
    have hcharge : ∃ q, price s.ordersDb event.orderId = some q ∧ event.amount = some q := by
      unfold Event.Charges at hevent
      rcases hty with hty | hty | hty <;> rw [hty] at hevent <;> exact hevent
    obtain ⟨q, hq, he⟩ := hcharge
    obtain ⟨order, ho, rfl⟩ := order_of_price hq
    exact ⟨order, ho, he⟩

def pricedOrder : Uuid := ⟨"e47b1c92-08d6-4a3f-95be-7c20f8d1a6b4", by decide⟩

/-- An order of three pieces at 9.5 is paid, its inventory fails, and it is refunded twice. -/
def refundedTwice : List Action :=
  [.createNewOrder pricedOrder "user-001" [⟨"PROD-001", "노트북", 3, 19 / 2⟩], .land (.post pricedOrder),
    .deliver .payment .orderCreated pricedOrder 0, .draw .payment true, .land (.consumer .payment),
    .resume (.consumer .payment), .deliver .inventory .paymentResult pricedOrder 0, .draw .inventory false,
    .land (.consumer .inventory), .deliver .order .inventoryResult pricedOrder 0, .land (.consumer .order),
    .deliver .payment .refundRequest pricedOrder 0, .draw .payment true, .land (.consumer .payment),
    .resume (.consumer .payment), .deliver .payment .refundRequest pricedOrder 0, .draw .payment true]

theorem amounts_conserved_refundedTwice : ∃ s, (lts { redelivers := true }).run {} refundedTwice = some s ∧
    (∀ o order, s.ordersDb.get? o = some order →
      order.totalPrice = (order.items.map (fun item => item.price * (item.quantity : ℚ))).sum) ∧
    (∀ event, s.Mentions event → event.eventType = .paymentCompleted ∨ event.eventType = .refundRequested ∨
        event.eventType = .refundCompleted →
      ∃ order, s.ordersDb.get? event.orderId = some order ∧ event.amount = some order.totalPrice) ∧
    (∀ r ∈ s.paymentsDb, ∃ order, s.ordersDb.get? r.orderId = some order ∧ r.amount = order.totalPrice) ∧
    ∀ r ∈ s.refundsDb, ∃ order, s.ordersDb.get? r.orderId = some order ∧ r.amount = order.totalPrice := by
  obtain ⟨s, hrun⟩ : ∃ s, (lts { redelivers := true }).run {} refundedTwice = some s := ⟨_, rfl⟩
  exact ⟨s, hrun, amounts_conserved { redelivers := true } hrun⟩

end Saga
end KafkaGuide
