import KafkaGuide.CqrsSys
/-!
# CqrsRevenue — the revenue is backed by payments (`11-multi-service-architecture/query-service/app/main.py`)

`get_stats` adds up the `total_price` of the COMPLETED views.  Every event on a topic, at an await or on its way tells
of an issued order what was ordered under its id (`Honest`), so a view that was paid for was paid its total price.
-/
namespace KafkaGuide
namespace Cqrs

/-! ## `get_stats` -/

/-- A JSON value as an operand of `+`: `none` where the addition raises. -/
def number : Json → Option ℚ
  | .num q => some q
  | .bool b => some (if b then 1 else 0)
  | _ => none

/-- Ids and what was ordered under them. -/
abbrev Issued := List (Uuid × CreateOrderRequest)

/-- The event is of an issued order: an `ORDER_CREATED` has its items and their total price, and a `PAYMENT_COMPLETED`
is of that amount. -/
def Honest (issued : Issued) (event : Json.Members) : Prop :=
  ∃ u request, (u, request) ∈ issued ∧ Json.get event "order_id" (.str "") = .str u.str ∧
    ((Json.get event "event_type" (.str "")).isStr "ORDER_CREATED" = true →
      Json.get event "items" (.arr []) = .arr (request.items.map OrderItem.dump) ∧
        Json.get event "total_price" (.num 0) = .num (totalPrice request.items)) ∧
    ((Json.get event "event_type" (.str "")).isStr "PAYMENT_COMPLETED" = true →
      Json.get event "amount" (.num 0) = .num (totalPrice request.items))

def IsCreated (event : Json.Members) : Prop := (Json.get event "event_type" (.str "")).isStr "ORDER_CREATED" = true

theorem Honest.mono {issued issued' : Issued} (hsub : issued ⊆ issued') {event : Json.Members}
    (h : Honest issued event) : Honest issued' event := by
  obtain ⟨u, request, hu, htells⟩ := h
  exact ⟨u, request, hsub hu, htells⟩

theorem created_honest {issued : Issued} {u : Uuid} {request : CreateOrderRequest} (h : (u, request) ∈ issued)
    (now : String) :
    Honest issued (createOrder .empty u request now).2 ∧ IsCreated (createOrder .empty u request now).2 := by
  refine ⟨⟨u, request, h, created_orderId u request now, fun _ => ⟨created_items u request now, ?_⟩, fun h => ?_⟩, ?_⟩
  · simp [createOrder, Json.get, Dict.find]
  · simp [createOrder, Json.get, Dict.find] at h
  · simp [IsCreated, createOrder, Json.get, Dict.find]

/-! ## Services -/

/-- **What a service keeps**: honest results, on the topic, at an await or on their way, and awaits that fit. -/
structure Running.Keeps {σ κ : Type} (results : σ → List (Option String × Json.Members)) (P : Json.Members → Prop)
    (W : κ → Prop) (s : Running σ κ) : Prop where
  results : ∀ x ∈ results s.loop.store, P x.2
  awaits : ∀ k, s.loop.position = .awaiting k → W k
  late : ∀ event ∈ s.late, P event

/-- **A service whose body keeps to `P` and `W`** does so at every step. -/
structure Service.Keeping {σ κ ι : Type} (S : Service σ κ ι) (results : σ → List (Option String × Json.Members))
    (created : List Json.Members) (P : Json.Members → Prop) (W : κ → Prop) : Prop where
  receive : ∀ st event, event ∈ created →
    results (S.loop.receive st (.obj event) ()).1 = results st ∧
      ∀ k, (S.loop.receive st (.obj event) ()).2 = .await k → W k
  advance : ∀ st k r p, W k → S.loop.advance st k r = some p →
    (∀ x ∈ results p.1, x ∈ results st ∨ P x.2) ∧ ∀ k', p.2 = .await k' → W k'
  pending : ∀ k, W k → ∀ event ∈ S.pending k, P event
  append : ∀ st entry, results (S.append st entry) = results st ++ [entry]
  restart : ∀ st, results (S.restart st) = results st

theorem Service.Keeping.left {σ κ ι : Type} {S : Service σ κ ι} {results : σ → List (Option String × Json.Members)}
    {created : List Json.Members} {P : Json.Members → Prop} {W : κ → Prop} (hS : S.Keeping results created P W)
    {s : Running σ κ} (h : s.Keeps results P W) : ∀ event ∈ s.late ++ S.left s.loop.position, P event := by
  intro event hevent
  rcases List.mem_append.1 hevent with hevent | hevent
  · exact h.late event hevent
  · unfold Service.left at hevent
    split at hevent
    · exact hS.pending _ (h.awaits _ ‹_›) event hevent
    · cases hevent

theorem Service.Keeping.step {σ κ ι : Type} {S : Service σ κ ι} {results : σ → List (Option String × Json.Members)}
    {created : List Json.Members} {P : Json.Members → Prop} {W : κ → Prop} (hS : S.Keeping results created P W)
    {s s' : Running σ κ} {e : ServiceEvent ι} (h : s.Keeps results P W) (hstep : ServiceStep S created s e s') :
    s'.Keeps results P W := by
  cases hstep with
  | read hi =>
    obtain ⟨hresults, hawaits⟩ := hS.receive s.loop.store _ (List.mem_of_getElem? hi)
    refine ⟨fun x hx => ?_, fun k hk => hawaits k (ConsumerLoop.position_awaiting.1 hk), h.late⟩
    change x ∈ results (S.loop.receive s.loop.store _ ()).1 at hx
    rw [hresults] at hx
    exact h.results x hx
  | advance hposition hadvance =>
    obtain ⟨hresults, hawaits⟩ := hS.advance _ _ _ _ (h.awaits _ hposition) hadvance
    refine ⟨fun x hx => ?_, fun k hk => hawaits k (ConsumerLoop.position_awaiting.1 hk), h.late⟩
    rcases hresults x hx with hx | hx
    · exact h.results x hx
    · exact hx
  | cancel =>
    refine ⟨h.results, fun k hk => ?_, hS.left h⟩
    cases hk
  | restart =>
    refine ⟨fun x hx => ?_, fun k hk => ?_, hS.left h⟩
    · change x ∈ results (S.restart s.loop.store) at hx
      rw [hS.restart] at hx
      exact h.results x hx
    · cases hk
  | land key hi =>
    refine ⟨fun x hx => ?_, h.awaits, fun event hevent => h.late event (List.mem_of_mem_eraseIdx hevent)⟩
    change x ∈ results (S.append s.loop.store _) at hx
    rw [hS.append] at hx
    rcases List.mem_append.1 hx with hx | hx
    · exact h.results x hx
    · rw [List.mem_singleton.1 hx]
      exact h.late _ (List.mem_of_getElem? hi)

theorem Running.Keeps.mono {σ κ : Type} {results : σ → List (Option String × Json.Members)}
    {P P' : Json.Members → Prop} {W W' : κ → Prop} (hP : ∀ event, P event → P' event) (hW : ∀ k, W k → W' k)
    {s : Running σ κ} (h : s.Keeps results P W) : s.Keeps results P' W' :=
  ⟨fun x hx => hP x.2 (h.results x hx), fun k hk => hW k (h.awaits k hk), fun event he => hP event (h.late event he)⟩

/-- An await of payment-service is for an issued order, at its total price. -/
def PaymentAwait.Honest (issued : Issued) : PaymentAwait → Prop
  | .process orderId total => ∃ u request, (u, request) ∈ issued ∧ orderId = .str u.str ∧
    total = .num (totalPrice request.items)
  | .publish resultEvent _ => Cqrs.Honest issued resultEvent

def InventoryAwait.Honest (issued : Issued) : InventoryAwait → Prop
  | .check orderId _ => ∃ u request, (u, request) ∈ issued ∧ orderId = .str u.str
  | .publish resultEvent _ => Cqrs.Honest issued resultEvent

theorem PaymentAwait.Honest.mono {issued issued' : Issued} (hsub : issued ⊆ issued') {k : PaymentAwait}
    (h : k.Honest issued) : k.Honest issued' := by
  cases k with
  | process orderId total =>
    obtain ⟨u, request, hu, hk⟩ := h
    exact ⟨u, request, hsub hu, hk⟩
  | publish resultEvent landed => exact Cqrs.Honest.mono hsub h

theorem InventoryAwait.Honest.mono {issued issued' : Issued} (hsub : issued ⊆ issued') {k : InventoryAwait}
    (h : k.Honest issued) : k.Honest issued' := by
  cases k with
  | check orderId items =>
    obtain ⟨u, request, hu, hk⟩ := h
    exact ⟨u, request, hsub hu, hk⟩
  | publish resultEvent landed => exact Cqrs.Honest.mono hsub h

/-- The result of a payment is honest when the order and the amount are. -/
theorem paymentResult_honest {issued : Issued} {u : Uuid} {request : CreateOrderRequest} (hu : (u, request) ∈ issued)
    (failureRate random : ℚ) (transactionId : String) (choice : Fin reasons.length) (now : String) :
    Honest issued (paymentResult failureRate (.str u.str) (.num (totalPrice request.items)) random transactionId choice
      now).1 := by
  unfold paymentResult
  split
  · refine ⟨u, request, hu, rfl, fun h => ?_, fun _ => rfl⟩
    simp [Json.get, Dict.find] at h
  · refine ⟨u, request, hu, rfl, fun h => ?_, fun h => ?_⟩
    · simp [Json.get, Dict.find] at h
    · simp [Json.get, Dict.find] at h

/-- The result of a check of the stock says nothing of an amount. -/
theorem inventoryResult_honest {issued : Issued} {u : Uuid} {request : CreateOrderRequest} (hu : (u, request) ∈ issued)
    {env : InventoryEnv} {items : Json} {random : ℚ} {warehouse : Fin 5} {choice : Nat} {now : String}
    {p : Json.Members × ReservationRecord}
    (h : inventoryResult env (.str u.str) items random warehouse choice now = some p) : Honest issued p.1 := by
  unfold inventoryResult at h
  split at h
  · cases h
    refine ⟨u, request, hu, rfl, fun h => ?_, fun h => ?_⟩
    · simp [Json.get, Dict.find] at h
    · simp [Json.get, Dict.find] at h
  · obtain ⟨item, -, rfl⟩ := Option.map_eq_some_iff.1 h
    refine ⟨u, request, hu, rfl, fun h => ?_, fun h => ?_⟩
    · simp [Json.get, Dict.find] at h
    · simp [Json.get, Dict.find] at h

/-- A publication leaves results that were there or are its own. -/
theorem mem_results_of_publish {results : List (Option String × Json.Members)} {P : Json.Members → Prop}
    {event : Json.Members} (h : P event) (key : Option String) :
    ∀ x ∈ results ++ [(key, event)], x ∈ results ∨ P x.2 := by
  intro x hx
  rcases List.mem_append.1 hx with hx | hx
  · exact .inl hx
  · rw [List.mem_singleton.1 hx]
    exact .inr h

theorem payment_keeping (env : Env) {issued : Issued} {created : List Json.Members}
    (hcreated : ∀ event ∈ created, Honest issued event ∧ IsCreated event) :
    (paymentService env).Keeping PaymentStore.results created (Honest issued) (PaymentAwait.Honest issued) where
  receive st event hevent := by
    obtain ⟨⟨u, request, hu, hid, htells, -⟩, htype⟩ := hcreated event hevent
    refine ⟨rfl, fun k hk => ?_⟩
    change Stretch.await (PaymentAwait.process _ _) = .await k at hk
    cases hk
    exact ⟨u, request, hu, hid, (htells htype).2⟩
  advance st k r p hk hadvance := by
    change advancePayment env.paymentFailureRate st k r = some p at hadvance
    cases k with
    | process orderId total =>
      obtain ⟨u, request, hu, rfl, rfl⟩ := hk
      cases r with
      | process random transactionId choice now =>
        cases hadvance
        refine ⟨fun x hx => .inl hx, fun k' hk' => ?_⟩
        cases hk'
        exact paymentResult_honest hu _ random transactionId choice now
      | _ => cases hadvance
    | publish event landed =>
      rcases advancePayment_publish hadvance with ⟨-, -, key, rfl⟩ | ⟨rfl, -⟩
      · refine ⟨mem_results_of_publish hk key, fun k' hk' => ?_⟩
        cases hk'
        exact hk
      · exact ⟨fun x hx => .inl hx, fun k' hk' => nomatch hk'⟩
  pending k hk event hevent := by
    change event ∈ k.pending at hevent
    unfold PaymentAwait.pending at hevent
    split at hevent
    · rw [List.mem_singleton.1 hevent]
      exact hk
    · cases hevent
  append st entry := rfl
  restart st := rfl

theorem inventory_keeping (env : Env) {issued : Issued} {created : List Json.Members}
    (hcreated : ∀ event ∈ created, Honest issued event ∧ IsCreated event) :
    (inventoryService env).Keeping InventoryStore.results created (Honest issued) (InventoryAwait.Honest issued) where
  receive st event hevent := by
    obtain ⟨⟨u, request, hu, hid, -⟩, -⟩ := hcreated event hevent
    change (receiveForStock st (.obj event)).1.results = st.results ∧
      ∀ k, (receiveForStock st (.obj event)).2 = .await k → InventoryAwait.Honest issued k
    simp only [receiveForStock]
    split
    · refine ⟨rfl, fun k hk => ?_⟩
      cases hk
      exact ⟨u, request, hu, hid⟩
    · exact ⟨rfl, fun k hk => nomatch hk⟩
  advance st k r p hk hadvance := by
    change advanceInventory env.toInventoryEnv st k r = some p at hadvance
    cases k with
    | check orderId items =>
      obtain ⟨u, request, hu, rfl⟩ := hk
      rcases advanceInventory_check hadvance with rfl | ⟨random, warehouse, choice, now, event, _, _, hresult, rfl⟩
      · exact ⟨fun x hx => .inl hx, fun k' hk' => nomatch hk'⟩
      · refine ⟨fun x hx => .inl hx, fun k' hk' => ?_⟩
        cases hk'
        exact inventoryResult_honest hu hresult
    | publish event landed =>
      rcases advanceInventory_publish hadvance with ⟨-, -, key, rfl⟩ | ⟨rfl, -⟩
      · refine ⟨mem_results_of_publish hk key, fun k' hk' => ?_⟩
        cases hk'
        exact hk
      · exact ⟨fun x hx => .inl hx, fun k' hk' => nomatch hk'⟩
  pending k hk event hevent := by
    change event ∈ k.pending at hevent
    unfold InventoryAwait.pending at hevent
    split at hevent
    · rw [List.mem_singleton.1 hevent]
      exact hk
    · cases hevent
  append st entry := rfl
  restart st := rfl

/-! ## Views -/

/-- **The view tells of what was ordered**, and was paid for at its total price when it was paid for. -/
structure View.Backed (request : CreateOrderRequest) (view : View) : Prop where
  items : view.items = .arr (request.items.map OrderItem.dump)
  total : view.totalPrice = .num (Cqrs.totalPrice request.items)
  paid : view.paymentStatus = .completed → view.paymentAmount = some (.num (Cqrs.totalPrice request.items))
  completed : view.status = .completed → view.paymentStatus = .completed

theorem View.Backed.stamp {request : CreateOrderRequest} {view : View} (h : view.Backed request)
    (eventType timestamp : Json) : (view.stamp eventType timestamp).Backed request :=
  ⟨h.items, h.total, h.paid, h.completed⟩

theorem newView_backed {request : CreateOrderRequest} {event : Json.Members} (eventType orderId timestamp : Json)
    (hitems : Json.get event "items" (.arr []) = .arr (request.items.map OrderItem.dump))
    (htotal : Json.get event "total_price" (.num 0) = .num (totalPrice request.items)) :
    (newView event eventType orderId timestamp).Backed request := by
  refine ⟨hitems, htotal, fun h => ?_, fun h => ?_⟩
  · cases h
  · cases h

/-- **Every update keeps a view backed**, a payment of the order's total price included. -/
theorem update_backed {request : CreateOrderRequest} {event : Json.Members} {eventType : Json} {update : View → View}
    (hupdate : updateOf event eventType = some update)
    (hamount : eventType.isStr "PAYMENT_COMPLETED" = true →
      Json.get event "amount" (.num 0) = .num (totalPrice request.items))
    {view : View} (h : view.Backed request) : (update view).Backed request := by
  cases updateOf_sound hupdate with
  | paymentCompleted htype => exact ⟨h.items, h.total, fun _ => congrArg some (hamount htype), fun _ => rfl⟩
  | paymentFailed => exact ⟨h.items, h.total, (fun hp => nomatch hp), fun hs => nomatch hs⟩
  | inventoryReserved =>
    refine ⟨h.items, h.total, h.paid, fun hs => ?_⟩
    simp only [onInventoryReserved] at hs ⊢
    split at hs
    · assumption
    · cases hs
  | inventoryFailed => exact ⟨h.items, h.total, h.paid, fun hs => nomatch hs⟩
  | notificationSent => exact h

/-- Every view is of an issued order, and backed. -/
def ReadBacked (issued : Issued) (st : ReadStore) : Prop :=
  ∀ k view, st.ordersReadModel.get? k = some view →
    ∃ u request, (u, request) ∈ issued ∧ k = .str u.str ∧ view.Backed request

theorem request_unique {issued : Issued} (hnodup : (issued.map Prod.fst).Nodup) {u u' : Uuid}
    {request request' : CreateOrderRequest} (h : (u, request) ∈ issued) (h' : (u', request') ∈ issued)
    (hstr : u.str = u'.str) : request = request' :=
  congrArg Prod.snd (List.inj_on_of_nodup_map hnodup h h' (Uuid.ext hstr))

/-- Storing a backed view keeps all views backed. -/
theorem ReadBacked.set {issued : Issued} {st st' : ReadStore} (h : ReadBacked issued st) {u : Uuid}
    {request : CreateOrderRequest} (hu : (u, request) ∈ issued) {view : View} (hview : view.Backed request)
    (hset : st'.ordersReadModel = st.ordersReadModel.set (.str u.str) view) : ReadBacked issued st' := by
  intro k view' hk
  rw [hset, Dict.get?_set] at hk
  split at hk
  · rename_i heq
    cases hk
    exact ⟨u, request, hu, heq, hview⟩
  · exact h k view' hk

/-- **An honest event keeps all views backed.** -/
theorem processEvent_backed {issued : Issued} (hnodup : (issued.map Prod.fst).Nodup) {st : ReadStore}
    (h : ReadBacked issued st) {event : Json.Members} (hevent : Honest issued event) (topic now : String) :
    ReadBacked issued (processEvent st event topic now).1 := by
  obtain ⟨u, request, hu, hid, hcreated, hpaid⟩ := hevent
  rcases processEvent_cases st topic now u.str_ne_empty hid with
    ⟨htype, hset⟩ | ⟨update, view, hupdate, hview, hset⟩ | hsame
  · exact h.set hu (newView_backed _ _ _ (hcreated htype).1 (hcreated htype).2) hset
  · obtain ⟨u', request', hu', hk, hbacked⟩ := h _ view hview
    have hrequest := request_unique hnodup hu' hu (Json.Key.str.inj hk).symm
    rw [hrequest] at hbacked
    exact h.set hu ((update_backed hupdate hpaid hbacked).stamp _ _) hset
  · intro k view hk
    rw [hsame] at hk
    exact h k view hk

/-! ## The system -/

/-- **The invariant**: the ids are distinct, all events are honest, and all views backed. -/
structure Inv (s : Sys) : Prop where
  nodup : (s.issued.map Prod.fst).Nodup
  publishing : ∀ event ∈ s.publishing, Honest s.issued event ∧ IsCreated event
  created : ∀ event ∈ s.created, Honest s.issued event ∧ IsCreated event
  payment : s.payment.Keeps PaymentStore.results (Honest s.issued) (PaymentAwait.Honest s.issued)
  inventory : s.inventory.Keeps InventoryStore.results (Honest s.issued) (InventoryAwait.Honest s.issued)
  read : ReadBacked s.issued s.read

theorem Inv.log {s : Sys} (h : Inv s) {topic : Topic} {event : Json.Members} (hevent : event ∈ s.log topic) :
    Honest s.issued event := by
  cases topic with
  | orderCreated => exact (h.created event hevent).1
  | paymentResult =>
    obtain ⟨x, hx, rfl⟩ := List.mem_map.1 hevent
    exact h.payment.results x hx
  | inventoryResult =>
    obtain ⟨x, hx, rfl⟩ := List.mem_map.1 hevent
    exact h.inventory.results x hx

theorem inv_init : Inv {} where
  nodup := List.nodup_nil
  publishing event h := by cases h
  created event h := by cases h
  payment := ⟨fun x h => (by cases h), fun k h => (by cases h), fun event h => (by cases h)⟩
  inventory := ⟨fun x h => (by cases h), fun k h => (by cases h), fun event h => (by cases h)⟩
  read k view h := by cases h

/-- **Every step keeps the invariant.** -/
theorem inv_step (env : Env) (s : Sys) (a : Action) (s' : Sys) (h : Inv s) (hstep : step env s a = some s') :
    Inv s' := by
  cases step_sound hstep with
  | @createOrder u request orders now hu =>
    have hsub : s.issued ⊆ s.issued ++ [(u, request)] := List.subset_append_left _ _
    have hmem : (u, request) ∈ s.issued ++ [(u, request)] := List.mem_append_right _ (List.mem_singleton.2 rfl)
    refine ⟨?_, fun event hevent => ?_, fun event hevent => ?_, ?_, ?_, fun k view hk => ?_⟩
    · rw [List.map_append]
      exact h.nodup.append (List.nodup_singleton _) (by simpa [List.disjoint_singleton] using hu)
    · rcases List.mem_append.1 hevent with hevent | hevent
      · exact ⟨(h.publishing event hevent).1.mono hsub, (h.publishing event hevent).2⟩
      · rw [List.mem_singleton.1 hevent]
        exact created_honest hmem now
    · exact ⟨(h.created event hevent).1.mono hsub, (h.created event hevent).2⟩
    · exact h.payment.mono (fun _ => Honest.mono hsub) (fun _ => PaymentAwait.Honest.mono hsub)
    · exact h.inventory.mono (fun _ => Honest.mono hsub) (fun _ => InventoryAwait.Honest.mono hsub)
    · obtain ⟨u', request', hu', hbacked⟩ := h.read k view hk
      exact ⟨u', request', hsub hu', hbacked⟩
  | publish hi =>
    refine ⟨h.nodup, fun event hevent => h.publishing event (List.mem_of_mem_eraseIdx hevent), fun event hevent => ?_,
      h.payment, h.inventory, h.read⟩
    rcases List.mem_append.1 hevent with hevent | hevent
    · exact h.created event hevent
    · rw [List.mem_singleton.1 hevent]
      exact h.publishing _ (List.mem_of_getElem? hi)
  | publishFailed i =>
    exact ⟨h.nodup, fun event hevent => h.publishing event (List.mem_of_mem_eraseIdx hevent), h.created, h.payment,
      h.inventory, h.read⟩
  | payment hpayment =>
    have hkeeps := (payment_keeping env h.created).step h.payment hpayment
    exact ⟨h.nodup, h.publishing, h.created, hkeeps, h.inventory, h.read⟩
  | inventory hinventory =>
    have hkeeps := (inventory_keeping env h.created).step h.inventory hinventory
    exact ⟨h.nodup, h.publishing, h.created, h.payment, hkeeps, h.read⟩
  | orders orders => exact ⟨h.nodup, h.publishing, h.created, h.payment, h.inventory, h.read⟩
  | read now hi =>
    exact ⟨h.nodup, h.publishing, h.created, h.payment, h.inventory,
      processEvent_backed h.nodup h.read (h.log (List.mem_of_getElem? hi)) _ now⟩
  | restartRead =>
    refine ⟨h.nodup, h.publishing, h.created, h.payment, h.inventory, fun k view hk => ?_⟩
    cases hk

/-! ## The revenue -/

/-- Neither service ever fails an order. -/
def noFailures : Env where
  loads _ := none
  str _ := ""
  failureRate := 0
  paymentFailureRate := 0

def soldOrder : Uuid := ⟨"c81f5a2e-7d30-4b96-8e14-59a0d3c7b2f8", rfl⟩

/-- An order is paid and its items are reserved; query-service reads the payment before the order and again after it,
and the reservation twice. -/
def sold : List Action :=
  [.createOrder soldOrder ⟨"user-001", [⟨"prod-001", "키보드", 2, 55000⟩, ⟨"prod-002", "마우스", 1, 1 / 2⟩], none⟩ "t0",
    .publish 0, .payment (.read 0), .payment (.advance (.process (1 / 2) "7e21" ⟨1, by decide⟩ "t1")),
    .payment (.advance .land), .inventory (.read 0),
    .inventory (.advance (.check (1 / 2) ⟨3, by decide⟩ 0 "t2")), .inventory (.advance .land),
    .read .paymentResult 0 "t3", .read .orderCreated 0 "t4", .read .inventoryResult 0 "t5", .read .paymentResult 0 "t6",
    .read .inventoryResult 0 "t7"]

end Cqrs
end KafkaGuide
