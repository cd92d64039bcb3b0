import KafkaGuide.CqrsComplete
import KafkaGuide.CqrsMade
/-!
# CqrsSettled — what completes and what cancels an order (`11-multi-service-architecture`)

order-service and query-service hold issued orders only, each with what was ordered.  Neither shows one COMPLETED before
a payment and a reservation of it are on their topics, nor CANCELLED before a failure is (`settled_backed`), whatever
was lost, repeated or reordered on the way.
-/
namespace KafkaGuide
namespace Cqrs

/-- The topic of a result. -/
def ResultType.onTopic : ResultType → Topic
  | .paymentCompleted | .paymentFailed => .paymentResult
  | .inventoryReserved | .inventoryFailed => .inventoryResult

example (r : ResultType) : r.onTopic.value = r.topic := by
  cases r <;> rfl

/-- A result of the order is on its topic. -/
def Sys.Told (s : Sys) (o : String) (r : ResultType) : Prop :=
  ∃ event ∈ s.log r.onTopic, Json.get event "order_id" (.str "") = .str o ∧
    Json.get event "event_type" (.str "") = .str r.value

theorem Sys.Told.mono {s s' : Sys} (hlog : ∀ topic, s.log topic ⊆ s'.log topic) {o : String} {r : ResultType}
    (h : s.Told o r) : s'.Told o r := by
  obtain ⟨event, hevent, htells⟩ := h
  exact ⟨event, hlog _ hevent, htells⟩

/-- A result is made on its topic. -/
theorem Made.onTopic {env : Env} {issued : Issued} {topic : Topic} {event : Json.Members}
    (h : Made env issued topic event) {r : ResultType}
    (htype : Json.get event "event_type" (.str "") = .str r.value) : topic = r.onTopic := by
  cases h with
  | created h now => cases r <;> simp [createOrder, Json.get, Dict.find, ResultType.value] at htype
  | payment h random transactionId choice now =>
    unfold paymentResult at htype
    split at htype <;> cases r <;> first | rfl | simp [Json.get, Dict.find, ResultType.value] at htype
  | inventory h hresult =>
    unfold inventoryResult at hresult
    split at hresult
    · cases hresult
      cases r <;> first | rfl | simp [Json.get, Dict.find, ResultType.value] at htype
    · obtain ⟨item, -, rfl⟩ := Option.map_eq_some_iff.1 hresult
      cases r <;> first | rfl | simp [Json.get, Dict.find, ResultType.value] at htype

/-- Every event is of an issued order. -/
theorem Made.of_issued {env : Env} {issued : Issued} {topic : Topic} {event : Json.Members}
    (h : Made env issued topic event) :
    ∃ u request, (u, request) ∈ issued ∧ Json.get event "order_id" (.str "") = .str u.str := by
  cases h with
  | @created u request h now => exact ⟨u, request, h, created_orderId u request now⟩
  | @payment u request h random transactionId choice now =>
    refine ⟨u, request, h, ?_⟩
    unfold paymentResult
    split <;> rfl
  | @inventory u request h _ _ _ _ p hresult =>
    refine ⟨u, request, h, ?_⟩
    unfold inventoryResult at hresult
    split at hresult
    · cases hresult
      rfl
    · obtain ⟨item, -, rfl⟩ := Option.map_eq_some_iff.1 hresult
      rfl

/-! ## The orders of order-service -/

/-- The order is the one that was issued. -/
structure Order.Of (u : Uuid) (request : CreateOrderRequest) (order : Order) : Prop where
  orderId : order.orderId = u.str
  userId : order.userId = request.userId
  items : order.items = request.items
  totalPrice : order.totalPrice = Cqrs.totalPrice request.items
  shippingAddress : order.shippingAddress = request.shippingAddress

/-- The order's events are told, and its status is theirs. -/
structure Order.Told (told : ResultType → Prop) (order : Order) : Prop where
  events : ∀ name ∈ order.events, ∃ r : ResultType, name = r.value ∧ told r
  completed : order.status = .completed →
    ResultType.paymentCompleted.value ∈ order.events ∧ ResultType.inventoryReserved.value ∈ order.events
  cancelled : order.status = .cancelled →
    ResultType.paymentFailed.value ∈ order.events ∨ ResultType.inventoryFailed.value ∈ order.events

theorem Order.Told.of_mem {told : ResultType → Prop} {order : Order} (h : order.Told told) {r : ResultType}
    (hr : r.value ∈ order.events) : told r := by
  obtain ⟨r', hvalue, htold⟩ := h.events _ hr
  rwa [ResultType.value_injective hvalue]

theorem Order.Told.mono {told told' : ResultType → Prop} (hsub : ∀ r, told r → told' r) {order : Order}
    (h : order.Told told) : order.Told told' := by
  refine ⟨fun name hname => ?_, h.completed, h.cancelled⟩
  obtain ⟨r, hvalue, htold⟩ := h.events name hname
  exact ⟨r, hvalue, hsub r htold⟩

theorem applyEvent_of {u : Uuid} {request : CreateOrderRequest} {order : Order} (h : order.Of u request)
    (eventType : Json) (now : String) : (applyEvent order eventType now).Of u request := by
  unfold applyEvent
  dsimp only
  repeat' split
  all_goals exact ⟨h.orderId, h.userId, h.items, h.totalPrice, h.shippingAddress⟩

/-- A type that is told may join the events. -/
theorem told_append {told : ResultType → Prop} {order : Order} (h : order.Told told) {r : ResultType} (hr : told r) :
    ∀ name ∈ order.events ++ [r.value], ∃ r : ResultType, name = r.value ∧ told r := by
  intro name hname
  rcases List.mem_append.1 hname with hname | hname
  · exact h.events name hname
  · exact ⟨r, List.mem_singleton.1 hname, hr⟩

/-- **A result that is told keeps an order told.** -/
theorem applyEvent_told {told : ResultType → Prop} {order : Order} (h : order.Told told) {eventType : Json}
    (htype : ∀ r : ResultType, eventType.isStr r.value = true → told r) (now : String) :
    (applyEvent order eventType now).Told told := by
  unfold applyEvent
  dsimp only
  split
  · rename_i hpaid
    exact ⟨told_append h (htype .paymentCompleted hpaid), (fun hs => nomatch hs), fun hs => nomatch hs⟩
  · split
    · rename_i hfailed
      refine ⟨told_append h (htype .paymentFailed hfailed), (fun hs => nomatch hs), fun _ => .inl ?_⟩
      exact List.mem_append_right _ (List.mem_singleton.2 rfl)
    · split
      · rename_i hreserved
        refine ⟨told_append h (htype .inventoryReserved hreserved), fun hs => ?_, fun hs => ?_⟩
        · dsimp only at hs
          split at hs
          · exact ⟨‹_›, List.mem_append_right _ (List.mem_singleton.2 rfl)⟩
          · cases hs
        · dsimp only at hs
          split at hs <;> cases hs
      · split
        · rename_i hfailed
          refine ⟨told_append h (htype .inventoryFailed hfailed), (fun hs => nomatch hs), fun _ => .inr ?_⟩
          exact List.mem_append_right _ (List.mem_singleton.2 rfl)
        · exact ⟨h.events, h.completed, h.cancelled⟩

/-- **What a message can do to the orders**: nothing, or its event applies to the order it names. -/
theorem consume_cases (db : OrdersDb) (event : Json.Members) (now : String) :
    consume db (.obj event) now = db ∨ ∃ o order, Json.get event "order_id" (.str "") = .str o ∧
      db.get? o = some order ∧
      consume db (.obj event) now = db.set o (applyEvent order (Json.get event "event_type" (.str "")) now) := by
  unfold consume
  dsimp only
  split
  · rename_i o hkey
    split
    · rename_i order hget
      exact .inr ⟨o, order, Json.eq_str_of_key? hkey, hget, rfl⟩
    · exact .inl rfl
  · exact .inl rfl

/-- **What a step can do to the orders.** -/
theorem step_orders {env : Env} {s s' : Sys} {a : Action} (h : step env s a = some s') :
    s'.orders = s.orders ∨ s'.orders = .empty ∨
      (∃ u request now, s'.orders = (createOrder s.orders u request now).1 ∧ (u, request) ∈ s'.issued) ∨
      ∃ topic event now, event ∈ s.log topic ∧ s'.orders = consume s.orders (.obj event) now := by
  cases a with
  | createOrder u request now =>
    simp only [step] at h
    split at h
    · cases h
    · cases h
      exact .inr (.inr (.inl ⟨u, request, now, rfl, List.mem_append_right _ (List.mem_singleton.2 rfl)⟩))
  | publish i =>
    simp only [step] at h
    split at h
    · cases h
      exact .inl rfl
    · cases h
  | publishFailed i =>
    cases h
    exact .inl rfl
  | payment e =>
    obtain ⟨payment, -, rfl⟩ := Option.map_eq_some_iff.1 h
    exact .inl rfl
  | inventory e =>
    obtain ⟨inventory, -, rfl⟩ := Option.map_eq_some_iff.1 h
    exact .inl rfl
  | consume topic i now =>
    simp only [step] at h
    split at h
    · rename_i hi
      cases h
      exact .inr (.inr (.inr ⟨topic, _, now, List.mem_of_getElem? hi, rfl⟩))
    · cases h
  | restartOrders =>
    cases h
    exact .inr (.inl rfl)
  | read topic i now =>
    simp only [step] at h
    split at h
    · cases h
      exact .inl rfl
    · cases h
  | restartRead =>
    cases h
    exact .inl rfl

/-- Every order is an issued one, told by the topics. -/
def OrdersTold (s : Sys) : Prop :=
  ∀ o order, s.orders.get? o = some order → ∃ u request, (u, request) ∈ s.issued ∧ o = u.str ∧
    order.Of u request ∧ order.Told (s.Told o)

theorem OrdersTold.mono {s s' : Sys} (h : OrdersTold s) (hissued : s.issued ⊆ s'.issued)
    (hlog : ∀ topic, s.log topic ⊆ s'.log topic) {o : String} {order : Order} (ho : s.orders.get? o = some order) :
    ∃ u request, (u, request) ∈ s'.issued ∧ o = u.str ∧ order.Of u request ∧ order.Told (s'.Told o) := by
  obtain ⟨u, request, hu, hid, hof, htold⟩ := h o order ho
  exact ⟨u, request, hissued hu, hid, hof, htold.mono fun r => Sys.Told.mono hlog⟩

theorem step_issued {env : Env} {s s' : Sys} {a : Action} (h : step env s a = some s') : s.issued ⊆ s'.issued := by
  cases step_sound h with
  | createOrder => exact List.subset_append_left _ _
  | _ => exact List.Subset.refl _

theorem ordersTold_step (env : Env) (s : Sys) (a : Action) (s' : Sys) (h : MadeInv env s ∧ OrdersTold s)
    (hstep : step env s a = some s') : MadeInv env s' ∧ OrdersTold s' := by
  obtain ⟨hmade, hinv⟩ := h
  have hlog := step_log hstep
  have hissued := step_issued hstep
  refine ⟨madeInv_step env s a s' hmade hstep, fun o order ho => ?_⟩
  rcases step_orders hstep with
    hsame | hempty | ⟨u, request, now, hcreated, hu⟩ | ⟨topic, event, now, hevent, hconsumed⟩
  · rw [hsame] at ho
    exact hinv.mono hissued hlog ho
  · rw [hempty] at ho
    cases ho
  · rw [hcreated, createOrder, Dict.get?_set] at ho
    split at ho
    · rename_i hid
      cases ho
      refine ⟨u, request, hu, hid, ⟨rfl, rfl, rfl, rfl, rfl⟩, fun name hname => ?_, fun hs => ?_, fun hs => ?_⟩
      · cases hname
      · cases hs
      · cases hs
    · exact hinv.mono hissued hlog ho
  · rw [hconsumed] at ho
    rcases consume_cases s.orders event now with hsame | ⟨o', order', hid, hget, hset⟩
    · rw [hsame] at ho
      exact hinv.mono hissued hlog ho
    · rw [hset, Dict.get?_set] at ho
      split at ho
      · rename_i heq
        subst heq
        cases ho
        obtain ⟨u, request, hu, hou, hof, htold⟩ := hinv.mono hissued hlog hget
        refine ⟨u, request, hu, hou, applyEvent_of hof _ now, applyEvent_told htold (fun r hr => ?_) now⟩
        have htype := Json.isStr_iff.1 hr
        have htopic := (hmade.log hevent).onTopic htype
        exact ⟨event, htopic ▸ hlog topic hevent, hid, htype⟩
      · exact hinv.mono hissued hlog ho

theorem reachable_ordersTold {env : Env} {s : Sys} (h : (lts env).Reachable s) : OrdersTold s := by
  have h0 : MadeInv env {} ∧ OrdersTold {} := ⟨madeInv_init env, fun o order ho => nomatch ho⟩
  exact ((lts env).reachable_inv h0 (ordersTold_step env) h).2

/-! ## The views of query-service -/

/-- The view is of the order that was issued. -/
structure View.Of (u : Uuid) (request : CreateOrderRequest) (view : View) : Prop where
  orderId : view.orderId = .str u.str
  userId : view.userId = .str request.userId
  items : view.items = .arr (request.items.map OrderItem.dump)
  totalPrice : view.totalPrice = .num (Cqrs.totalPrice request.items)
  shippingAddress : view.shippingAddress = (request.shippingAddress.map Json.str).getD .null

/-- The statuses of the view are told. -/
structure View.Told (told : ResultType → Prop) (view : View) : Prop where
  paid : view.paymentStatus = .completed → told .paymentCompleted
  reserved : view.inventoryStatus = .reserved → told .inventoryReserved
  completed : view.status = .completed → told .paymentCompleted ∧ told .inventoryReserved
  cancelled : view.status = .cancelled → told .paymentFailed ∨ told .inventoryFailed

/-- **What keeps each view, keeps all of them** through a list of messages. -/
theorem processAll_keeps {Q : Json.Key → View → Prop} : ∀ (rs : List Received) {st : ReadStore},
    (∀ k v, st.ordersReadModel.get? k = some v → Q k v) →
    (∀ r ∈ rs, ∀ k view v, r.key? = some k → (∀ w, view = some w → Q k w) → applyTo view r.event r.now = some v →
      Q k v) →
    ∀ k v, (processAll st rs).ordersReadModel.get? k = some v → Q k v
  | [], _, h, _ => h
  | r :: rs, st, h, hrs => by
    refine processAll_keeps rs (fun k v hv => ?_) fun r' hr' => hrs r' (List.mem_cons_of_mem r hr')
    rw [processEvent_at] at hv
    split at hv
    · exact hrs r List.mem_cons_self k _ v ‹_› (h k) hv
    · exact h k v hv

/-- An `ORDER_CREATED` starts the view of its order. -/
theorem created_of {env : Env} {issued : Issued} {topic : Topic} {event : Json.Members}
    (h : Made env issued topic event)
    (htype : (Json.get event "event_type" (.str "")).isStr "ORDER_CREATED" = true) (timestamp : Json) :
    ∃ u request, (u, request) ∈ issued ∧ (newView event (Json.get event "event_type" (.str ""))
      (Json.get event "order_id" (.str "")) timestamp).Of u request := by
  cases h with
  | @created u request h now =>
    refine ⟨u, request, h, ?_⟩
    constructor <;> simp [newView, createOrder, Json.get, Dict.find]
  | payment h random transactionId choice now =>
    unfold paymentResult at htype
    split at htype <;> simp [Json.get, Dict.find] at htype
  | inventory h hresult =>
    unfold inventoryResult at hresult
    split at hresult
    · cases hresult
      simp [Json.get, Dict.find] at htype
    · obtain ⟨item, -, rfl⟩ := Option.map_eq_some_iff.1 hresult
      simp [Json.get, Dict.find] at htype

/-- A new view shows nothing to be told. -/
theorem newView_told (told : ResultType → Prop) (event : Json.Members) (eventType orderId timestamp : Json) :
    (newView event eventType orderId timestamp).Told told := by
  constructor <;> intro hs <;> cases hs

theorem update_of {u : Uuid} {request : CreateOrderRequest} {view : View} (h : view.Of u request)
    {event : Json.Members} {eventType : Json} {update : View → View}
    (hupdate : updateOf event eventType = some update) : (update view).Of u request := by
  cases updateOf_sound hupdate <;> exact ⟨h.orderId, h.userId, h.items, h.totalPrice, h.shippingAddress⟩

/-- **An update that is told keeps a view told.** -/
theorem update_told {told : ResultType → Prop} {view : View} (h : view.Told told) {event : Json.Members}
    {eventType : Json} (htype : ∀ r : ResultType, eventType.isStr r.value = true → told r) {update : View → View}
    (hupdate : updateOf event eventType = some update) : (update view).Told told := by
  cases updateOf_sound hupdate with
  | paymentCompleted ht =>
    have hpaid := htype .paymentCompleted ht
    refine ⟨fun _ => hpaid, h.reserved, fun hs => ?_, fun hs => ?_⟩
    · simp only [onPaymentCompleted] at hs
      split at hs
      · exact ⟨hpaid, h.reserved ‹_›⟩
      · cases hs
    · simp only [onPaymentCompleted] at hs
      split at hs <;> cases hs
  | paymentFailed ht =>
    exact ⟨(fun hs => by cases hs), h.reserved, (fun hs => by cases hs), fun _ => .inl (htype .paymentFailed ht)⟩
  | inventoryReserved ht =>
    have hreserved := htype .inventoryReserved ht
    refine ⟨h.paid, fun _ => hreserved, fun hs => ?_, fun hs => ?_⟩
    · simp only [onInventoryReserved] at hs
      split at hs
      · exact ⟨h.paid ‹_›, hreserved⟩
      · cases hs
    · simp only [onInventoryReserved] at hs
      split at hs <;> cases hs
  | inventoryFailed ht =>
    exact ⟨h.paid, (fun hs => by cases hs), (fun hs => by cases hs), fun _ => .inr (htype .inventoryFailed ht)⟩
  | notificationSent => exact h

/-- **Every view is of an issued order, and told by the topics.** -/
theorem views_told {env : Env} {s : Sys} (h : MadeInv env s) {k : Json.Key} {view : View}
    (hview : s.read.ordersReadModel.get? k = some view) : ∃ u request, (u, request) ∈ s.issued ∧ k = .str u.str ∧
      view.Of u request ∧ view.Told (s.Told u.str) := by
  obtain ⟨rs, hread, hrs⟩ := h.read
  rw [hread] at hview
  have hempty : ∀ k v, ({} : ReadStore).ordersReadModel.get? k = some v → ∃ u request, (u, request) ∈ s.issued ∧
      k = .str u.str ∧ v.Of u request ∧ v.Told (s.Told u.str) := by
    intro k v hv
    cases hv
  refine processAll_keeps rs hempty ?_ k view hview
  intro r hr k view v hkey hold hv
  obtain ⟨topic, -, hevent⟩ := hrs r hr
  have hmade := h.log hevent
  obtain ⟨u, request, hu, hid⟩ := hmade.of_issued
  have hk : k = .str u.str := by
    have hkey' := (key?_eq_some.1 hkey).2
    rw [hid, Json.key?_str, Option.some.injEq] at hkey'
    exact hkey'.symm
  have htype : ∀ t : ResultType, (Json.get r.event "event_type" (.str "")).isStr t.value = true → s.Told u.str t := by
    intro t ht
    have htopic := hmade.onTopic (Json.isStr_iff.1 ht)
    exact ⟨r.event, htopic ▸ hevent, hid, Json.isStr_iff.1 ht⟩
  unfold applyTo at hv
  dsimp only at hv
  split at hv
  · rename_i hcreated
    cases hv
    obtain ⟨u', request', hu', hof⟩ := created_of hmade hcreated (Json.get r.event "timestamp" (.str r.now))
    refine ⟨u', request', hu', ?_, hof, newView_told _ _ _ _ _⟩
    have hid' : Json.get r.event "order_id" (.str "") = .str u'.str := hof.orderId
    rw [hk, Json.Key.str.injEq]
    exact Json.str.inj (hid.symm.trans hid')
  · split at hv
    · exact hold v hv
    · rename_i update hupdate
      obtain ⟨w, hw, rfl⟩ := Option.map_eq_some_iff.1 hv
      obtain ⟨u', request', hu', hk', hof, htold⟩ := hold w hw
      have hstr : u.str = u'.str := Json.Key.str.inj (hk.symm.trans hk')
      have hof' := update_of hof hupdate
      have htold' := update_told htold (fun t ht => hstr ▸ htype t ht) hupdate
      exact ⟨u', request', hu', hk', ⟨hof'.orderId, hof'.userId, hof'.items, hof'.totalPrice, hof'.shippingAddress⟩,
        htold'.paid, htold'.reserved, htold'.completed, htold'.cancelled⟩

/-! ## Both models -/

/-- **No order is completed that was not paid and reserved, none is cancelled that did not fail**, in either model, at
any time: a COMPLETED one has a payment and a reservation on their topics, a CANCELLED one a failure, and each is an
order that was issued, with what was ordered. -/
theorem settled_backed (env : Env) {s : Sys} (h : (lts env).Reachable s) :
    (∀ o order, s.orders.get? o = some order →
      (∃ u request, (u, request) ∈ s.issued ∧ o = u.str ∧ order.Of u request) ∧
        (order.status = .completed → s.Told o .paymentCompleted ∧ s.Told o .inventoryReserved) ∧
        (order.status = .cancelled → s.Told o .paymentFailed ∨ s.Told o .inventoryFailed)) ∧
    ∀ k view, s.read.ordersReadModel.get? k = some view →
      ∃ u request, (u, request) ∈ s.issued ∧ k = .str u.str ∧ view.Of u request ∧
        (view.status = .completed → s.Told u.str .paymentCompleted ∧ s.Told u.str .inventoryReserved) ∧
        (view.status = .cancelled → s.Told u.str .paymentFailed ∨ s.Told u.str .inventoryFailed) := by
  constructor
  · intro o order ho
    obtain ⟨u, request, hu, hid, hof, htold⟩ := reachable_ordersTold h o order ho
    refine ⟨⟨u, request, hu, hid, hof⟩, fun hs => ?_, fun hs => ?_⟩
    · obtain ⟨hpaid, hreserved⟩ := htold.completed hs
      exact ⟨htold.of_mem hpaid, htold.of_mem hreserved⟩
    · exact (htold.cancelled hs).imp htold.of_mem htold.of_mem
  · intro k view hk
    obtain ⟨u, request, hu, hid, hof, htold⟩ := views_told (reachable_made h) hk
    exact ⟨u, request, hu, hid, hof, htold.completed, htold.cancelled⟩

/-- The order of `sold` is also seen by order-service, the reservation first and again after the payment. -/
def soldThrough : List Action :=
  sold ++ [.consume .inventoryResult 0 "t8", .consume .paymentResult 0 "t9", .consume .inventoryResult 0 "t10"]

theorem settled_backed_sold : ∃ s order view, (lts noFailures).run (lts noFailures).init soldThrough = some s ∧
    s.orders.get? soldOrder.str = some order ∧ order.status = .completed ∧
    s.read.ordersReadModel.get? (.str soldOrder.str) = some view ∧ view.status = .completed ∧
    s.Told soldOrder.str .paymentCompleted ∧ s.Told soldOrder.str .inventoryReserved := by
  have hrun : ((lts noFailures).run (lts noFailures).init soldThrough).any (fun s =>
      decide ((s.orders.get? soldOrder.str).map Order.status = some .completed) &&
        decide ((s.read.ordersReadModel.get? (.str soldOrder.str)).map View.status = some .completed)) = true := by
    decide +kernel
  obtain ⟨s, hs, hboth⟩ := (Option.any_eq_true ..).1 hrun
  obtain ⟨horder, hview⟩ := Bool.and_eq_true_iff.1 hboth
  obtain ⟨order, ho, hcompleted⟩ := Option.map_eq_some_iff.1 (of_decide_eq_true horder)
  obtain ⟨view, hv, hshown⟩ := Option.map_eq_some_iff.1 (of_decide_eq_true hview)
  obtain ⟨-, hbacked, -⟩ := (settled_backed noFailures ⟨soldThrough, hs⟩).1 _ order ho
  obtain ⟨hpaid, hreserved⟩ := hbacked hcompleted
  exact ⟨s, order, view, hs, ho, hcompleted, hv, hshown, hpaid, hreserved⟩

end Cqrs
end KafkaGuide
