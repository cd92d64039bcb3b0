import KafkaGuide.CqrsComplete
import KafkaGuide.CqrsProject
import KafkaGuide.CqrsShuffle
/-!
# CqrsTerminal — the statuses an order does not stay in

Neither service looks at the status it is about to overwrite, so CANCELLED and COMPLETED last exactly as long as no
event comes that assigns something else.  `order-service` assigns PAYMENT_COMPLETED whatever it has seen;
`query-service` keeps COMPLETED at a repeated payment, and starts over at a repeated ORDER_CREATED.
-/
namespace KafkaGuide
namespace Cqrs

open ResultType
open Fold (Settles settles_iff_steps)

/-! ## The write model -/

def OrderStatus.Terminal (status : OrderStatus) : Prop := status = .cancelled ∨ status = .completed

/-- A result that moves an order of `order-service` out of a terminal status. -/
def OrderStatus.LeftAt : OrderStatus → ResultType → Prop
  | .cancelled, r => r = .paymentCompleted ∨ r = .inventoryReserved
  | .completed, r => r = .paymentCompleted ∨ r = .paymentFailed ∨ r = .inventoryFailed
  | _, _ => False

theorem OrderStatus.LeftAt.terminal {status : OrderStatus} {r : ResultType} (h : status.LeftAt r) :
    status.Terminal := by
  cases status with
  | cancelled => exact .inl rfl
  | completed => exact .inr rfl
  | _ => exact h.elim

theorem writeFold_completed {rs : List ResultType} (h : (writeFold rs).1 = .completed) : .paymentCompleted ∈ rs := by
  rcases List.eq_nil_or_concat rs with rfl | ⟨rs, r, rfl⟩
  · cases h
  · rw [List.concat_eq_append, writeFold_concat] at h
    rw [List.concat_eq_append]
    cases r with
    | paymentCompleted => simp
    | paymentFailed => cases h
    | inventoryFailed => cases h
    | inventoryReserved =>
      by_cases hm : .paymentCompleted ∈ rs
      · exact List.mem_append_left _ hm
      · simp [writeStep, writeFold_seen, hm] at h

/-- **A result leaves a terminal status of the write model's fold exactly when it is one of those.** -/
theorem writeStep_left_iff {rs : List ResultType} (r : ResultType) (ht : (writeFold rs).1.Terminal) :
    (writeFold (rs ++ [r])).1 = (writeFold rs).1 ↔ ¬ (writeFold rs).1.LeftAt r := by
  rw [writeFold_concat]
  rcases ht with ht | ht
  · rw [ht]
    cases r with
    | inventoryReserved =>
      refine iff_of_false ?_ (by simp [OrderStatus.LeftAt])
      intro h
      dsimp only [writeStep] at h
      split at h <;> cases h
    | _ => simp [writeStep, OrderStatus.LeftAt]
  · have hm := writeFold_completed ht
    rw [ht]
    cases r <;> simp [writeStep, writeFold_seen, hm, OrderStatus.LeftAt]

theorem resultsOf_concat (u : Uuid) (vs : List (Json × String)) (v : Json × String) :
    resultsOf u (vs ++ [v]) = resultsOf u vs ++ (resultOf u v.1).toList := by
  unfold resultsOf
  rw [List.filterMap_append, List.filterMap_cons, List.filterMap_nil]
  cases resultOf u v.1 <;> rfl

section WriteModel

variable (db : OrdersDb) (request : CreateOrderRequest) (createdAt : String) (u : Uuid)

/-- The order's status in `orders_db` after `create_order` and what the loop has consumed since. -/
def orderStatus (vs : List (Json × String)) : Option OrderStatus :=
  ((ordersConsumed db request createdAt u vs).get? u.str).map Order.status

theorem orderStatus_eq (vs : List (Json × String)) :
    orderStatus db request createdAt u vs = some (writeFold (resultsOf u vs)).1 := by
  obtain ⟨order, hget, hholds⟩ := ordersConsumed_holds db request createdAt u vs
  rw [orderStatus, hget, Option.map_some, hholds.1]

/-- Nothing that takes the order out of CANCELLED or COMPLETED is consumed while it is there. -/
def OrderUndisturbed (vs : List (Json × String)) : Prop :=
  ∀ as v cs, vs = as ++ v :: cs → ∀ status r, orderStatus db request createdAt u as = some status →
    resultOf u v.1 = some r → ¬ status.LeftAt r

/-- **One value**: a terminal status lasts through it exactly when it brings no result that leaves the status. -/
theorem order_step_iff (as : List (Json × String)) (v : Json × String) :
    (∀ w, orderStatus db request createdAt u as = some w → w.Terminal →
      orderStatus db request createdAt u (as ++ [v]) = some w) ↔
    ∀ status r, orderStatus db request createdAt u as = some status → resultOf u v.1 = some r → ¬ status.LeftAt r := by
  have hnow := orderStatus_eq db request createdAt u as
  have hnext := orderStatus_eq db request createdAt u (as ++ [v])
  rw [resultsOf_concat] at hnext
  constructor
  · intro h status r hstatus hr hleft
    rw [hnow] at hstatus
    cases hstatus
    have hsame := h _ hnow hleft.terminal
    rw [hnext, hr] at hsame
    exact (writeStep_left_iff r hleft.terminal).1 (Option.some.inj hsame) hleft
  · intro h w hw ht
    rw [hnow] at hw
    cases hw
    rw [hnext]
    cases hr : resultOf u v.1 with
    | none => simp
    | some r => exact congrArg some ((writeStep_left_iff r ht).2 (h _ r hnow hr))

theorem order_settles_iff (vs : List (Json × String)) :
    Settles (orderStatus db request createdAt u) OrderStatus.Terminal vs ↔
      OrderUndisturbed db request createdAt u vs := by
  rw [settles_iff_steps]
  unfold OrderUndisturbed
  constructor
  · intro h as v cs hvs
    exact (order_step_iff db request createdAt u as v).1 (h as v cs hvs)
  · intro h as v cs hvs
    exact (order_step_iff db request createdAt u as v).2 (h as v cs hvs)

end WriteModel

/-! ## The read model -/

def ViewStatus.Terminal (status : ViewStatus) : Prop := status = .cancelled ∨ status = .completed

/-- An event that moves a view of `query-service` out of a terminal status. -/
def ViewStatus.LeftAt : ViewStatus → EventKind → Prop
  | .cancelled, k => k = .orderCreated ∨ k = .result .paymentCompleted ∨ k = .result .inventoryReserved
  | .completed, k => k = .orderCreated ∨ k = .result .paymentFailed ∨ k = .result .inventoryFailed
  | _, _ => False

theorem ViewStatus.LeftAt.terminal {status : ViewStatus} {k : EventKind} (h : status.LeftAt k) : status.Terminal := by
  cases status with
  | cancelled => exact .inl rfl
  | completed => exact .inr rfl
  | _ => exact h.elim

/-- What an event says of the order `o`, when it is one of the order's creation or results. -/
def kindOf (o : String) (r : Received) : Option EventKind :=
  if r.isOf o then
    if (Json.get r.event "event_type" (.str "")).isStr "ORDER_CREATED" then some .orderCreated
    else (ResultType.ofJson (Json.get r.event "event_type" (.str ""))).map .result
  else none

/-- An event of no result type does not touch the statuses. -/
theorem updateOf_other {event : Json.Members} {eventType : Json} {f : View → View}
    (h : ResultType.ofJson eventType = none) (hf : updateOf event eventType = some f) (view : View)
    (timestamp : Json) : ((f view).stamp eventType timestamp).statuses = view.statuses := by
  have h1 := ResultType.isStr_of_ofJson_none h .paymentCompleted
  have h2 := ResultType.isStr_of_ofJson_none h .paymentFailed
  have h3 := ResultType.isStr_of_ofJson_none h .inventoryReserved
  have h4 := ResultType.isStr_of_ofJson_none h .inventoryFailed
  simp only [ResultType.value] at h1 h2 h3 h4
  cases updateOf_sound hf with
  | paymentCompleted h => simp [h] at h1
  | paymentFailed h => simp [h] at h2
  | inventoryReserved h => simp [h] at h3
  | inventoryFailed h => simp [h] at h4
  | notificationSent => rfl

/-- **One event**: the statuses of the view take the step of its kind. -/
theorem applyTo_statuses {o : String} {r : Received} (h : r.isOf o = true) (view : Option View) :
    (applyTo view r.event r.now).map View.statuses = match kindOf o r with
      | some k => viewStep (view.map View.statuses) k
      | none => view.map View.statuses := by
  unfold applyTo kindOf
  dsimp only
  rw [if_pos h]
  by_cases hcreated : (Json.get r.event "event_type" (.str "")).isStr "ORDER_CREATED" = true
  · rw [if_pos hcreated, if_pos hcreated]
    rfl
  · rw [if_neg hcreated, if_neg hcreated]
    cases htype : ResultType.ofJson (Json.get r.event "event_type" (.str "")) with
    | none =>
      cases hf : updateOf r.event (Json.get r.event "event_type" (.str "")) with
      | none => rfl
      | some f =>
        cases view with
        | none => rfl
        | some view =>
          simp only [Option.map_some, Option.map_none, Option.some.injEq]
          exact updateOf_other htype hf view _
    | some result =>
      rw [ResultType.ofJson_eq_some htype]
      obtain ⟨f, hf, hstat⟩ := updateOf_result r.event result
      rw [hf]
      cases view with
      | none => rfl
      | some view => exact congrArg some (hstat view _ _)

section ReadModel

variable (o : String)

/-- The order's status in `orders_read_model` after a list of messages. -/
def queryStatus (rs : List Received) : Option ViewStatus := (viewOf o rs).map View.status

/-- The kinds of the order's events, in the order of the messages. -/
def eventKinds (rs : List Received) : List EventKind := rs.filterMap (kindOf o)

variable {o}

theorem viewOf_concat (ho : o ≠ "") (rs : List Received) (r : Received) : viewOf o (rs ++ [r]) =
    if r.isOf o then applyTo (viewOf o rs) r.event r.now else viewOf o rs := by
  unfold viewOf processAll
  rw [List.foldl_concat]
  exact processEvent_view _ r ho

theorem kindOf_other {r : Received} (h : r.isOf o = false) : kindOf o r = none := by
  simp [kindOf, h]

theorem eventKinds_concat (rs : List Received) (r : Received) :
    eventKinds o (rs ++ [r]) = eventKinds o rs ++ (kindOf o r).toList := by
  unfold eventKinds
  rw [List.filterMap_append, List.filterMap_cons, List.filterMap_nil]
  cases kindOf o r <;> rfl

theorem viewOf_statuses (ho : o ≠ "") (rs : List Received) :
    (viewOf o rs).map View.statuses = (resultsSince (eventKinds o rs)).map readFold := by
  rw [← foldl_viewStep]
  induction rs using List.reverseRecOn with
  | nil => rfl
  | append_singleton rs r ih =>
    rw [viewOf_concat ho, eventKinds_concat, List.foldl_append]
    cases h : r.isOf o with
    | true =>
      rw [if_pos rfl, applyTo_statuses h, ih]
      cases kindOf o r <;> rfl
    | false =>
      rw [if_neg (by simp), ih, kindOf_other h]
      rfl

theorem queryStatus_eq (ho : o ≠ "") (rs : List Received) :
    queryStatus o rs = (resultsSince (eventKinds o rs)).map (fun rs => (readFold rs).status) := by
  have hstatuses := congrArg (Option.map Statuses.status) (viewOf_statuses ho rs)
  rw [Option.map_map, Option.map_map] at hstatuses
  exact hstatuses

/-- In the read model COMPLETED is both results at once. -/
theorem readFold_completed {rs : List ResultType} (h : (readFold rs).status = .completed) :
    (readFold rs).payment = .completed ∧ (readFold rs).inventory = .reserved := by
  rcases List.eq_nil_or_concat rs with rfl | ⟨rs, r, rfl⟩
  · cases h
  · rw [List.concat_eq_append, readFold_concat] at h ⊢
    cases r with
    | paymentFailed => cases h
    | inventoryFailed => cases h
    | paymentCompleted =>
      refine ⟨rfl, ?_⟩
      dsimp only [readStep] at h ⊢
      split at h
      · assumption
      · cases h
    | inventoryReserved =>
      refine ⟨?_, rfl⟩
      dsimp only [readStep] at h ⊢
      split at h
      · assumption
      · cases h

/-- **A result leaves a terminal status of the read model's fold exactly when it is one of those.** -/
theorem readStep_left_iff {rs : List ResultType} (r : ResultType) (ht : (readFold rs).status.Terminal) :
    (readFold (rs ++ [r])).status = (readFold rs).status ↔ ¬ (readFold rs).status.LeftAt (.result r) := by
  rw [readFold_concat]
  rcases ht with ht | ht
  · rw [ht]
    cases r with
    | paymentCompleted =>
      refine iff_of_false ?_ (by simp [ViewStatus.LeftAt])
      intro h
      dsimp only [readStep] at h
      split at h <;> cases h
    | inventoryReserved =>
      refine iff_of_false ?_ (by simp [ViewStatus.LeftAt])
      intro h
      dsimp only [readStep] at h
      split at h <;> cases h
    | paymentFailed => simp [readStep, ViewStatus.LeftAt]
    | inventoryFailed => simp [readStep, ViewStatus.LeftAt]
  · obtain ⟨hpayment, hinventory⟩ := readFold_completed ht
    rw [ht]
    cases r <;> simp [readStep, hpayment, hinventory, ViewStatus.LeftAt]

variable (o) in
/-- Nothing that takes the order's view out of CANCELLED or COMPLETED is processed while it is there. -/
def ViewUndisturbed (rs : List Received) : Prop :=
  ∀ as r cs, rs = as ++ r :: cs → ∀ status k, queryStatus o as = some status → kindOf o r = some k →
    ¬ status.LeftAt k

/-- An event leaves a terminal status of the view exactly when it is one of those. -/
theorem viewStep_left_iff {results : List ResultType} (k : EventKind) (ht : (readFold results).status.Terminal) :
    (viewStep (some (readFold results)) k).map Statuses.status = some (readFold results).status ↔
      ¬ (readFold results).status.LeftAt k := by
  cases k with
  | orderCreated =>
    refine iff_of_false ?_ ?_
    · intro h
      rw [← Option.some.inj h] at ht
      rcases ht with ht | ht <;> cases ht
    · rcases ht with ht | ht <;> rw [ht] <;> exact fun h => h (.inl rfl)
  | result r =>
    rw [← readStep_left_iff r ht, readFold_concat]
    exact Option.some_inj

/-- **One event**: a terminal status lasts through it exactly when it is none that leaves the status. -/
theorem view_step_iff (ho : o ≠ "") (as : List Received) (r : Received) :
    (∀ w, queryStatus o as = some w → w.Terminal → queryStatus o (as ++ [r]) = some w) ↔
    ∀ status k, queryStatus o as = some status → kindOf o r = some k → ¬ status.LeftAt k := by
  cases hresults : resultsSince (eventKinds o as) with
  | none =>
    have hnow : queryStatus o as = none := by rw [queryStatus_eq ho, hresults]; rfl
    simp [hnow]
  | some results =>
    have hnow : queryStatus o as = some (readFold results).status := by rw [queryStatus_eq ho, hresults]; rfl
    have hnext : ∀ k, kindOf o r = some k →
        queryStatus o (as ++ [r]) = (viewStep (some (readFold results)) k).map Statuses.status := by
      intro k hk
      have hstatuses := viewOf_statuses ho (as ++ [r])
      rw [eventKinds_concat, hk, Option.toList_some, ← foldl_viewStep, List.foldl_concat, foldl_viewStep, hresults]
        at hstatuses
      have hstatus := congrArg (Option.map Statuses.status) hstatuses
      rw [Option.map_map] at hstatus
      exact hstatus
    constructor
    · intro h status k hstatus hk hleft
      rw [hnow] at hstatus
      cases hstatus
      have hsame := h _ hnow hleft.terminal
      rw [hnext k hk] at hsame
      exact (viewStep_left_iff k hleft.terminal).1 hsame hleft
    · intro h w hw ht
      rw [hnow] at hw
      cases hw
      cases hk : kindOf o r with
      | none =>
        rw [queryStatus_eq ho, eventKinds_concat, hk, Option.toList_none, List.append_nil, hresults]
        rfl
      | some k =>
        rw [hnext k hk]
        exact (viewStep_left_iff k ht).2 (h _ k hnow hk)

theorem view_settles_iff (ho : o ≠ "") (rs : List Received) :
    Settles (queryStatus o) ViewStatus.Terminal rs ↔ ViewUndisturbed o rs := by
  rw [settles_iff_steps]
  unfold ViewUndisturbed
  constructor
  · intro h as r cs hrs
    exact (view_step_iff ho as r).1 (h as r cs hrs)
  · intro h as r cs hrs
    exact (view_step_iff ho as r).2 (h as r cs hrs)

end ReadModel

/-- **The terminal statuses are stable in both services exactly when nothing that leaves them is consumed while they
last**: a success of the order in CANCELLED; anything but INVENTORY_RESERVED in order-service's COMPLETED, a failure in
query-service's; and there a repeated ORDER_CREATED. -/
theorem terminal_stable_iff (u : Uuid) :
    (∀ (db : OrdersDb) (request : CreateOrderRequest) (createdAt : String) (vs : List (Json × String)),
      Settles (orderStatus db request createdAt u) OrderStatus.Terminal vs ↔
        OrderUndisturbed db request createdAt u vs) ∧
    ∀ rs : List Received, Settles (queryStatus u.str) ViewStatus.Terminal rs ↔ ViewUndisturbed u.str rs :=
  ⟨fun db request createdAt vs => order_settles_iff db request createdAt u vs,
    fun rs => view_settles_iff u.str_ne_empty rs⟩

def overturnedOrder : Uuid := ⟨"2f8d61c0-97ab-4e35-b1d7-6c04e5a9f382", by decide⟩

/-- The stock is short, then the payment completes. -/
def paidTooLate : List (Json × String) :=
  [(.obj [("event_type", .str "INVENTORY_FAILED"), ("order_id", .str overturnedOrder.str)], "2025-01-01T00:00:01"),
    (.obj [("event_type", .str "PAYMENT_COMPLETED"), ("order_id", .str overturnedOrder.str)], "2025-01-01T00:00:02")]

/-- The same to `query-service`, after the ORDER_CREATED. -/
def readTooLate : List Received :=
  [⟨[("event_type", .str "ORDER_CREATED"), ("order_id", .str overturnedOrder.str)], "order.created", ""⟩,
    ⟨[("event_type", .str "INVENTORY_FAILED"), ("order_id", .str overturnedOrder.str)], "inventory.result", ""⟩,
    ⟨[("event_type", .str "PAYMENT_COMPLETED"), ("order_id", .str overturnedOrder.str)], "payment.result", ""⟩]

/-- The payment takes the order out of CANCELLED, in either service. -/
theorem tooLate_not_stable :
    ¬ Settles (orderStatus .empty { userId := "user-001", items := [] } "2025-01-01T00:00:00" overturnedOrder)
      OrderStatus.Terminal paidTooLate ∧
    ¬ Settles (queryStatus overturnedOrder.str) ViewStatus.Terminal readTooLate := by
  constructor
  · intro h
    have hstatus := h (paidTooLate.take 1) (paidTooLate.drop 1) [] (by rfl) .cancelled
      (by rw [orderStatus_eq]; decide) (.inl rfl)
    rw [orderStatus_eq] at hstatus
    exact absurd hstatus (by decide)
  · intro h
    have hstatus := h (readTooLate.take 2) (readTooLate.drop 2) [] (by rfl) .cancelled
      (by rw [queryStatus_eq overturnedOrder.str_ne_empty]; decide) (.inl rfl)
    rw [queryStatus_eq overturnedOrder.str_ne_empty] at hstatus
    exact absurd hstatus (by decide)

end Cqrs
end KafkaGuide
