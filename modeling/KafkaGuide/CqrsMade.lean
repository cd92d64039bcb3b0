import KafkaGuide.CqrsOrders
/-!
# CqrsMade — every event is made by its topic's service (`11-multi-service-architecture`)

Whatever publications fail and whichever services are cancelled or restarted, an event on a topic is the one that the
topic's service makes for an issued order (`Made`), and topics only grow.  So query-service's read model is at all times
what `process_event` makes of records of the topics, in some order and maybe again.
-/
namespace KafkaGuide
namespace Cqrs

/-- The event is one that the topic's service makes for an issued order. -/
inductive Made (env : Env) (issued : Issued) : Topic → Json.Members → Prop
  | created {u : Uuid} {request : CreateOrderRequest} (h : (u, request) ∈ issued) (now : String) :
    Made env issued .orderCreated (createOrder .empty u request now).2
  | payment {u : Uuid} {request : CreateOrderRequest} (h : (u, request) ∈ issued) (random : ℚ)
    (transactionId : String) (choice : Fin reasons.length) (now : String) :
    Made env issued .paymentResult (paymentResult env.paymentFailureRate (.str u.str)
      (.num (totalPrice request.items)) random transactionId choice now).1
  | inventory {u : Uuid} {request : CreateOrderRequest} (h : (u, request) ∈ issued) {random : ℚ} {warehouse : Fin 5}
    {choice : Nat} {now : String} {p : Json.Members × ReservationRecord}
    (hresult : inventoryResult env.toInventoryEnv (.str u.str) (.arr (request.items.map OrderItem.dump)) random
      warehouse choice now = some p) :
    Made env issued .inventoryResult p.1

variable {env : Env} {issued issued' : Issued}

theorem Made.mono (hsub : issued ⊆ issued') {topic : Topic} {event : Json.Members} (h : Made env issued topic event) :
    Made env issued' topic event := by
  cases h with
  | created h now => exact .created (hsub h) now
  | payment h random transactionId choice now => exact .payment (hsub h) random transactionId choice now
  | inventory h hresult => exact .inventory (hsub h) hresult

/-- An `ORDER_CREATED` has the id, the items and the price of its order. -/
theorem Made.of_created {event : Json.Members} (h : Made env issued .orderCreated event) :
    ∃ u request, (u, request) ∈ issued ∧ Json.get event "order_id" (.str "") = .str u.str ∧
      Json.get event "items" (.arr []) = .arr (request.items.map OrderItem.dump) ∧
      Json.get event "total_price" (.num 0) = .num (totalPrice request.items) := by
  cases h with
  | @created u request h now =>
    refine ⟨u, request, h, created_orderId u request now, created_items u request now, ?_⟩
    simp [createOrder, Json.get, Dict.find]

/-! ## What the services keep -/

/-- An await of payment-service is for an issued order, at its total price. -/
def PaymentAwait.Made (env : Env) (issued : Issued) : PaymentAwait → Prop
  | .process orderId total => ∃ u request, (u, request) ∈ issued ∧ orderId = .str u.str ∧
    total = .num (totalPrice request.items)
  | .publish resultEvent _ => Cqrs.Made env issued .paymentResult resultEvent

/-- An await of inventory-service is for an issued order, of its items. -/
def InventoryAwait.Made (env : Env) (issued : Issued) : InventoryAwait → Prop
  | .check orderId items => ∃ u request, (u, request) ∈ issued ∧ orderId = .str u.str ∧
    items = .arr (request.items.map OrderItem.dump)
  | .publish resultEvent _ => Cqrs.Made env issued .inventoryResult resultEvent

theorem PaymentAwait.Made.mono (hsub : issued ⊆ issued') {k : PaymentAwait} (h : k.Made env issued) :
    k.Made env issued' := by
  cases k with
  | process orderId total =>
    obtain ⟨u, request, hu, hk⟩ := h
    exact ⟨u, request, hsub hu, hk⟩
  | publish resultEvent landed => exact Cqrs.Made.mono hsub h

theorem InventoryAwait.Made.mono (hsub : issued ⊆ issued') {k : InventoryAwait} (h : k.Made env issued) :
    k.Made env issued' := by
  cases k with
  | check orderId items =>
    obtain ⟨u, request, hu, hk⟩ := h
    exact ⟨u, request, hsub hu, hk⟩
  | publish resultEvent landed => exact Cqrs.Made.mono hsub h

/-- What a publication has under way is its own result. -/
theorem PaymentAwait.eq_publish {k : PaymentAwait} {event : Json.Members} (h : event ∈ k.pending) :
    k = .publish event false := by
  unfold PaymentAwait.pending at h
  split at h
  · rw [List.mem_singleton.1 h]
  · cases h

theorem InventoryAwait.eq_publish {k : InventoryAwait} {event : Json.Members} (h : event ∈ k.pending) :
    k = .publish event false := by
  unfold InventoryAwait.pending at h
  split at h
  · rw [List.mem_singleton.1 h]
  · cases h

theorem payment_makes {created : List Json.Members}
    (hcreated : ∀ event ∈ created, Made env issued .orderCreated event) :
    (paymentService env).Keeping PaymentStore.results created (Made env issued .paymentResult)
      (PaymentAwait.Made env issued) where
  receive st event hevent := by
    obtain ⟨u, request, hu, hid, -, htotal⟩ := (hcreated event hevent).of_created
    refine ⟨rfl, fun k hk => ?_⟩
    change Stretch.await (PaymentAwait.process _ _) = .await k at hk
    cases hk
    exact ⟨u, request, hu, hid, htotal⟩
  advance st k r p hk hadvance := by
    change advancePayment env.paymentFailureRate st k r = some p at hadvance
    cases k with
    | process orderId total =>
      obtain ⟨u, request, hu, rfl, rfl⟩ := hk
      cases r with
      | process random transactionId choice now =>
        cases hadvance
        refine ⟨fun x hx => .inl hx, fun k' hk' => ?_⟩
        cases hk'
        exact .payment hu random transactionId choice now
      | _ => cases hadvance
    | publish event landed =>
      rcases advancePayment_publish hadvance with ⟨-, -, key, rfl⟩ | ⟨rfl, -⟩
      · refine ⟨mem_results_of_publish hk key, fun k' hk' => ?_⟩
        cases hk'
        exact hk
      · exact ⟨fun x hx => .inl hx, fun k' hk' => nomatch hk'⟩
  pending k hk event hevent := by
    obtain rfl := PaymentAwait.eq_publish hevent
    exact hk
  append st entry := rfl
  restart st := rfl

theorem inventory_makes {created : List Json.Members}
    (hcreated : ∀ event ∈ created, Made env issued .orderCreated event) :
    (inventoryService env).Keeping InventoryStore.results created (Made env issued .inventoryResult)
      (InventoryAwait.Made env issued) where
  receive st event hevent := by
    obtain ⟨u, request, hu, hid, hitems, -⟩ := (hcreated event hevent).of_created
    change (receiveForStock st (.obj event)).1.results = st.results ∧
      ∀ k, (receiveForStock st (.obj event)).2 = .await k → InventoryAwait.Made env issued k
    simp only [receiveForStock]
    split
    · refine ⟨rfl, fun k hk => ?_⟩
      cases hk
      exact ⟨u, request, hu, hid, hitems⟩
    · exact ⟨rfl, fun k hk => nomatch hk⟩
  advance st k r p hk hadvance := by
    change advanceInventory env.toInventoryEnv st k r = some p at hadvance
    cases k with
    | check orderId items =>
      obtain ⟨u, request, hu, rfl, rfl⟩ := hk
      rcases advanceInventory_check hadvance with rfl | ⟨random, warehouse, choice, now, event, _, _, hresult, rfl⟩
      · exact ⟨fun x hx => .inl hx, fun k' hk' => nomatch hk'⟩
      · refine ⟨fun x hx => .inl hx, fun k' hk' => ?_⟩
        cases hk'
        exact .inventory hu hresult
    | publish event landed =>
      rcases advanceInventory_publish hadvance with ⟨-, -, key, rfl⟩ | ⟨rfl, -⟩
      · refine ⟨mem_results_of_publish hk key, fun k' hk' => ?_⟩
        cases hk'
        exact hk
      · exact ⟨fun x hx => .inl hx, fun k' hk' => nomatch hk'⟩
  pending k hk event hevent := by
    obtain rfl := InventoryAwait.eq_publish hevent
    exact hk
  append st entry := rfl
  restart st := rfl

/-! ## Topics grow -/

/-- What the service does to its topic is to append results. -/
structure Service.Growing {σ κ ι : Type} (S : Service σ κ ι) (results : σ → List (Option String × Json.Members)) :
    Prop where
  receive : ∀ st value, results st <+: results (S.loop.receive st value ()).1
  advance : ∀ st k r p, S.loop.advance st k r = some p → results st <+: results p.1
  append : ∀ st entry, results st <+: results (S.append st entry)
  restart : ∀ st, results st <+: results (S.restart st)

theorem Service.Growing.step {σ κ ι : Type} {S : Service σ κ ι} {results : σ → List (Option String × Json.Members)}
    (hS : S.Growing results) {created : List Json.Members} {s s' : Running σ κ} {e : ServiceEvent ι}
    (hstep : ServiceStep S created s e s') : results s.loop.store <+: results s'.loop.store := by
  cases hstep with
  | read hi => exact hS.receive _ _
  | advance hposition hadvance => exact hS.advance _ _ _ _ hadvance
  | cancel => exact List.prefix_rfl
  | restart => exact hS.restart _
  | land key hi => exact hS.append _ _

theorem payment_growing (env : Env) : (paymentService env).Growing PaymentStore.results where
  receive st value := by
    change st.results <+: (receiveOrder st value).1.results
    cases value <;> exact List.prefix_rfl
  advance st k r p hadvance := by
    change advancePayment env.paymentFailureRate st k r = some p at hadvance
    cases k with
    | process orderId total =>
      cases r with
      | process random transactionId choice now =>
        simp only [advancePayment] at hadvance
        split at hadvance
        · cases hadvance
          exact List.prefix_rfl
        · cases hadvance
          exact List.prefix_rfl
      | _ => cases hadvance
    | publish event landed =>
      rcases advancePayment_publish hadvance with ⟨-, -, key, rfl⟩ | ⟨rfl, -⟩
      · exact List.prefix_append _ _
      · exact List.prefix_rfl
  append st entry := List.prefix_append _ _
  restart st := List.prefix_rfl

theorem inventory_growing (env : Env) : (inventoryService env).Growing InventoryStore.results where
  receive st value := by
    change st.results <+: (receiveForStock st value).1.results
    cases value with
    | obj event =>
      simp only [receiveForStock]
      split <;> exact List.prefix_rfl
    | _ => exact List.prefix_rfl
  advance st k r p hadvance := by
    change advanceInventory env.toInventoryEnv st k r = some p at hadvance
    cases k with
    | check orderId items =>
      rcases advanceInventory_check hadvance with rfl | ⟨_, _, _, _, _, _, _, -, rfl⟩
      · exact List.prefix_rfl
      · exact List.prefix_rfl
    | publish event landed =>
      rcases advanceInventory_publish hadvance with ⟨-, -, key, rfl⟩ | ⟨rfl, -⟩
      · exact List.prefix_append _ _
      · exact List.prefix_rfl
  append st entry := List.prefix_append _ _
  restart st := List.prefix_rfl

/-- **Topics only grow.** -/
theorem log_grows {s s' : Sys} {a : Action} (h : step env s a = some s') (topic : Topic) :
    s.log topic <+: s'.log topic := by
  cases step_sound h with
  | publish hi =>
    cases topic with
    | orderCreated => exact List.prefix_append _ _
    | _ => exact List.prefix_rfl
  | payment hpayment =>
    cases topic with
    | paymentResult => exact ((payment_growing env).step hpayment).map _
    | _ => exact List.prefix_rfl
  | inventory hinventory =>
    cases topic with
    | inventoryResult => exact ((inventory_growing env).step hinventory).map _
    | _ => exact List.prefix_rfl
  | createOrder | publishFailed | orders | read | restartRead => cases topic <;> exact List.prefix_rfl

/-- **A record stays on its topic.** -/
theorem step_log {s s' : Sys} {a : Action} (h : step env s a = some s') (topic : Topic) :
    s.log topic ⊆ s'.log topic := (log_grows h topic).subset

/-! ## The system -/

/-- The read model is what `process_event` makes of records of the topics. -/
def Sys.ReadOf (s : Sys) (rs : List Received) : Prop :=
  s.read = processAll {} rs ∧ ∀ r ∈ rs, ∃ topic : Topic, r.topic = topic.value ∧ r.event ∈ s.log topic

/-- **The invariant**: ids are issued once, the events on the topics and on their way are made by their services, and
the read model is made of records. -/
structure MadeInv (env : Env) (s : Sys) : Prop where
  nodup : (s.issued.map Prod.fst).Nodup
  publishing : ∀ event ∈ s.publishing, Made env s.issued .orderCreated event
  created : ∀ event ∈ s.created, Made env s.issued .orderCreated event
  payment : s.payment.Keeps PaymentStore.results (Made env s.issued .paymentResult) (PaymentAwait.Made env s.issued)
  inventory : s.inventory.Keeps InventoryStore.results (Made env s.issued .inventoryResult)
    (InventoryAwait.Made env s.issued)
  read : ∃ rs, s.ReadOf rs

theorem MadeInv.log {s : Sys} (h : MadeInv env s) {topic : Topic} {event : Json.Members}
    (hevent : event ∈ s.log topic) : Made env s.issued topic event := by
  cases topic with
  | orderCreated => exact h.created event hevent
  | paymentResult =>
    obtain ⟨x, hx, rfl⟩ := List.mem_map.1 hevent
    exact h.payment.results x hx
  | inventoryResult =>
    obtain ⟨x, hx, rfl⟩ := List.mem_map.1 hevent
    exact h.inventory.results x hx

theorem madeInv_init (env : Env) : MadeInv env {} where
  nodup := List.nodup_nil
  publishing event h := by cases h
  created event h := by cases h
  payment := ⟨fun x h => (by cases h), fun k h => (by cases h), fun event h => (by cases h)⟩
  inventory := ⟨fun x h => (by cases h), fun k h => (by cases h), fun event h => (by cases h)⟩
  read := ⟨[], rfl, fun r h => (by cases h)⟩

/-- A read model made of records of the topics stays one while the topics grow. -/
theorem Sys.ReadOf.mono {s s' : Sys} {rs : List Received} (h : s.ReadOf rs) (hread : s'.read = s.read)
    (hlog : ∀ topic, s.log topic ⊆ s'.log topic) : s'.ReadOf rs := by
  refine ⟨hread.trans h.1, fun r hr => ?_⟩
  obtain ⟨topic, htopic, hevent⟩ := h.2 r hr
  exact ⟨topic, htopic, hlog topic hevent⟩

theorem Sys.ReadOf.read {s : Sys} {rs : List Received} (h : s.ReadOf rs) {topic : Topic} {event : Json.Members}
    (hevent : event ∈ s.log topic) (now : String) :
    Sys.ReadOf { s with read := (processEvent s.read event topic.value now).1 }
      (rs ++ [⟨event, topic.value, now⟩]) := by
  constructor
  · rw [processAll, List.foldl_append, List.foldl_cons, List.foldl_nil, ← processAll, ← h.1]
  · intro r hr
    rcases List.mem_append.1 hr with hr | hr
    · exact h.2 r hr
    · rw [List.mem_singleton.1 hr]
      exact ⟨topic, rfl, hevent⟩

/-- **Every step keeps the invariant.** -/
theorem madeInv_step (env : Env) (s : Sys) (a : Action) (s' : Sys) (h : MadeInv env s)
    (hstep : step env s a = some s') : MadeInv env s' := by
  have hlog := step_log hstep
  obtain ⟨rs, hread⟩ := h.read
  cases step_sound hstep with
  | @createOrder u request orders now hu =>
    have hsub : s.issued ⊆ s.issued ++ [(u, request)] := List.subset_append_left _ _
    have hmem : (u, request) ∈ s.issued ++ [(u, request)] := List.mem_append_right _ (List.mem_singleton.2 rfl)
    refine ⟨?_, fun event hevent => ?_, fun event hevent => (h.created event hevent).mono hsub,
      h.payment.mono (fun _ => Made.mono hsub) (fun _ => PaymentAwait.Made.mono hsub),
      h.inventory.mono (fun _ => Made.mono hsub) (fun _ => InventoryAwait.Made.mono hsub), rs, hread.mono rfl hlog⟩
    · rw [List.map_append]
      exact h.nodup.append (List.nodup_singleton _) (by simpa [List.disjoint_singleton] using hu)
    · rcases List.mem_append.1 hevent with hevent | hevent
      · exact (h.publishing event hevent).mono hsub
      · rw [List.mem_singleton.1 hevent]
        exact .created hmem now
  | publish hi =>
    refine ⟨h.nodup, fun event hevent => h.publishing event (List.mem_of_mem_eraseIdx hevent), fun event hevent => ?_,
      h.payment, h.inventory, rs, hread.mono rfl hlog⟩
    rcases List.mem_append.1 hevent with hevent | hevent
    · exact h.created event hevent
    · rw [List.mem_singleton.1 hevent]
      exact h.publishing _ (List.mem_of_getElem? hi)
  | publishFailed i =>
    exact ⟨h.nodup, fun event hevent => h.publishing event (List.mem_of_mem_eraseIdx hevent), h.created, h.payment,
      h.inventory, rs, hread.mono rfl hlog⟩
  | payment hpayment =>
    have hkeeps := (payment_makes h.created).step h.payment hpayment
    exact ⟨h.nodup, h.publishing, h.created, hkeeps, h.inventory, rs, hread.mono rfl hlog⟩
  | inventory hinventory =>
    have hkeeps := (inventory_makes h.created).step h.inventory hinventory
    exact ⟨h.nodup, h.publishing, h.created, h.payment, hkeeps, rs, hread.mono rfl hlog⟩
  | orders orders => exact ⟨h.nodup, h.publishing, h.created, h.payment, h.inventory, rs, hread.mono rfl hlog⟩
  | read now hi =>
    exact ⟨h.nodup, h.publishing, h.created, h.payment, h.inventory, _, hread.read (List.mem_of_getElem? hi) now⟩
  | restartRead =>
    exact ⟨h.nodup, h.publishing, h.created, h.payment, h.inventory, [], rfl, fun r hr => by cases hr⟩

theorem reachable_made {s : Sys} (h : (lts env).Reachable s) : MadeInv env s :=
  (lts env).reachable_inv (madeInv_init env) (madeInv_step env) h

/-- **Every event is made by its topic's service**, at any time, for an order that was issued once; and query-service's
log and read model are what `process_event` makes of records of the topics. -/
theorem events_made (env : Env) {s : Sys} (h : (lts env).Reachable s) :
    (s.issued.map Prod.fst).Nodup ∧
    (∀ topic, ∀ event ∈ s.log topic, Made env s.issued topic event) ∧
    ∃ rs, s.read = processAll {} rs ∧ s.read.eventLog = rs.map Received.entry ∧
      ∀ r ∈ rs, ∃ topic : Topic, r.topic = topic.value ∧ r.event ∈ s.log topic := by
  have hmade := reachable_made h
  obtain ⟨rs, hread, hrs⟩ := hmade.read
  refine ⟨hmade.nodup, fun topic event hevent => hmade.log hevent, rs, hread, ?_, hrs⟩
  rw [hread, processAll_eventLog rs {}]
  rfl

theorem events_made_sold : ∃ s rs, (lts noFailures).run (lts noFailures).init sold = some s ∧
    s.read.eventLog.length = 5 ∧ s.read = processAll {} rs ∧ rs.length = 5 ∧
    ∀ r ∈ rs, ∃ topic : Topic, r.topic = topic.value ∧ Made noFailures s.issued topic r.event := by
  have hrun : ((lts noFailures).run (lts noFailures).init sold).any
      (fun s => decide (s.read.eventLog.length = 5)) = true := by decide +kernel
  obtain ⟨s, hs, hlength⟩ := (Option.any_eq_true ..).1 hrun
  obtain ⟨-, hmade, rs, hread, hlog, hrs⟩ := events_made noFailures ⟨sold, hs⟩
  have hfive := of_decide_eq_true hlength
  refine ⟨s, rs, hs, hfive, hread, ?_, fun r hr => ?_⟩
  · rwa [hlog, List.length_map] at hfive
  · obtain ⟨topic, htopic, hevent⟩ := hrs r hr
    exact ⟨topic, htopic, hmade topic _ hevent⟩

end Cqrs
end KafkaGuide
