import Mathlib.Data.List.Chain
import KafkaGuide.SagaAgree
/-!
# SagaHistory — the status history against the documented saga graph

`models.py` draws the graph of the statuses.  `update_order_status` appends whatever status it is given, so a step keeps
a history on the graph exactly when the status it gives follows the one the order has (`onGraph_step_iff`).
-/
namespace KafkaGuide
namespace Saga

/-- The graph in the docstring of `models.py`. -/
def OrderStatus.followers : OrderStatus → List OrderStatus
  | .created => [.paymentProcessing]
  | .paymentProcessing => [.paymentFailed, .inventoryProcessing]
  | .inventoryProcessing => [.completed, .compensating]
  | .compensating => [.compensated, .compensationFailed]
  | .paymentFailed | .completed | .failed | .compensated | .compensationFailed => []

/-- Two entries form an edge of the graph. -/
def Edge (e e' : HistoryEntry) : Prop := e'.status ∈ e.status.followers

/-- **The history of an order is on the graph**: consecutive entries form its edges, and a final status is not left. -/
structure Order.OnGraph (order : Order) : Prop where
  edges : order.statusHistory.IsChain Edge
  stays : ∀ i e, order.statusHistory[i]? = some e → e.status.final → i + 1 = order.statusHistory.length

def Sys.OnGraph (s : Sys) : Prop := ∀ o order, s.ordersDb.get? o = some order → order.OnGraph

theorem followers_of_final {status : OrderStatus} (h : status.final) : status.followers = [] := by
  cases status <;> first | rfl | exact absurd h (by decide)

/-- A final status has no follower, so it is the last of a chain of edges. -/
theorem Order.OnGraph.of_edges {order : Order} (h : order.statusHistory.IsChain Edge) : order.OnGraph where
  edges := h
  stays i e hget hfinal := by
    obtain ⟨hi, he⟩ := List.getElem?_eq_some_iff.1 hget
    by_contra hne
    have hlt : i + 1 < order.statusHistory.length := by omega
    have hedge := h.getElem i hlt
    unfold Edge at hedge
    rw [he, followers_of_final hfinal] at hedge
    cases hedge

/-! ## What a step does to an order's record -/

def Order.moved (order : Order) (status : OrderStatus) (reason : Option String) : Order :=
  { order with status, statusHistory := order.statusHistory ++ [{ status, reason }] }

theorem updateOrderStatus_get (db : OrdersDb) (o o' : Uuid) (status : OrderStatus) (reason : String) :
    (updateOrderStatus db o status reason).get? o' =
      if o' = o then (db.get? o').map (fun order => order.moved status (if reason = "" then none else some reason))
      else db.get? o' := by
  unfold updateOrderStatus
  by_cases ho : o' = o
  · subst ho
    rw [if_pos rfl]
    cases hdb : db.get? o' with
    | none => exact hdb
    | some order => exact Dict.get?_set_self ..
  · rw [if_neg ho]
    cases db.get? o with
    | none => rfl
    | some order => exact Dict.get?_set_ne _ ho _

/-- **`process_message` moves the order of its event**, if it is known, and no other. -/
theorem processMessage_get (format : ℚ → String) (db : OrdersDb) {event : Event} {status : OrderStatus}
    (hst : event.eventType.orderStatus = some status) : ∃ reason, ∀ o,
      (processMessage format db event.eventType.topic event).1.get? o =
        if o = event.orderId then (db.get? o).map (fun order => order.moved status reason) else db.get? o := by
  unfold processMessage
  cases hty : event.eventType <;> rw [hty] at hst <;> cases hst <;> simp only [EventType.topic]
  · exact ⟨_, fun o => updateOrderStatus_get ..⟩
  · exact ⟨_, fun o => updateOrderStatus_get ..⟩
  · exact ⟨_, fun o => updateOrderStatus_get ..⟩
  · split
    · exact ⟨_, fun o => updateOrderStatus_get ..⟩
    · rename_i hnone
      refine ⟨none, fun o => ?_⟩
      -- the order is unknown: neither update finds it
      have hdb : db.get? event.orderId = none := by
        rw [updateOrderStatus_get, if_pos rfl] at hnone
        exact Option.map_eq_none_iff.1 hnone
      rw [updateOrderStatus_get, updateOrderStatus_get]
      split
      · rename_i ho
        rw [ho, hdb]
        rfl
      · rfl
  · exact ⟨_, fun o => updateOrderStatus_get ..⟩
  · exact ⟨_, fun o => updateOrderStatus_get ..⟩

/-- The status a step gives the order `o`: `create_new_order` goes on after its publish, or order-service handles an
event about it. -/
def Sys.moves (s : Sys) (o : Uuid) : Action → Option OrderStatus
  | .resume (.post o') => if o' = o then some .paymentProcessing else none
  | .deliver .order topic o' i => if o' = o then ((s.log topic o)[i]?).bind (fun e => e.eventType.orderStatus) else none
  | _ => none

/-- What a step can do to the record of `o`: nothing, create it, or move it. -/
inductive Change (s : Sys) (o : Uuid) (a : Action) (s' : Sys) : Prop
  | same (ha : s.moves o a = none) (h : s'.ordersDb.get? o = s.ordersDb.get? o)
  | created (order : Order) (ha : s.moves o a = none) (hnew : s.ordersDb.get? o = none)
    (h : s'.ordersDb.get? o = some order) (hstatus : order.status = .created)
    (hhistory : order.statusHistory = [{ status := .created }])
  | moved (status : OrderStatus) (reason : Option String) (ha : s.moves o a = some status)
    (h : s'.ordersDb.get? o = (s.ordersDb.get? o).map (fun order => order.moved status reason))

theorem receive_db (s : Sys) (format : ℚ → String) (svc : Service) (topic : Topic) (event : Event) :
    (s.receive format svc topic event).ordersDb =
      if svc = .order then (processMessage format s.ordersDb topic event).1 else s.ordersDb := by
  unfold Sys.receive
  split
  · rfl
  · rfl
  · split <;> rfl

theorem step_change {net : Net} {s s' : Sys} {a : Action} (hw : Wf s) (h : Step net s a s') (o : Uuid) :
    Change s o a s' := by
  cases h with
  | @createNewOrder o' userId items hnew =>
    have hdb : ∀ o, (createNewOrder s.ordersDb o' userId items).1.get? o = if o = o' then _ else s.ordersDb.get? o :=
      fun o => Dict.get?_set ..
    by_cases ho : o = o'
    · subst ho
      exact .created _ rfl hnew ((hdb o).trans (if_pos rfl)) rfl rfl
    · exact .same rfl ((hdb o).trans (if_neg ho))
  | @deliver svc topic o' i event hrun hget hsub hi =>
    obtain ⟨rfl, rfl⟩ := hw.keyed topic o' event (List.mem_of_getElem? hget)
    have hdb := receive_db (s.advance svc event.eventType.topic event.orderId i) net.format svc
      event.eventType.topic event
    by_cases hsvc : svc = .order
    · subst hsvc
      obtain ⟨status, hst⟩ := orderStatus_of_subscribes hsub
      obtain ⟨reason, hmsg⟩ := processMessage_get net.format s.ordersDb hst
      rw [if_pos rfl] at hdb
      by_cases ho : o = event.orderId
      · refine .moved status reason ?_ ?_
        · rw [ho]
          change (if _ then ((s.log _ _)[i]?).bind _ else _) = _
          rw [if_pos rfl, hget]
          exact hst
        · rw [hdb]
          exact (hmsg o).trans (if_pos ho)
      · refine .same (if_neg (Ne.symm ho)) ?_
        rw [hdb]
        exact (hmsg o).trans (if_neg ho)
    · rw [if_neg hsvc] at hdb
      refine .same ?_ (by rw [hdb]; rfl)
      cases svc <;> first | rfl | exact absurd rfl hsvc
  | draw hrun hd =>
    obtain ⟨-, -, -, -, -, -, -, -, hdb, -⟩ := drawn_stage hd
    exact .same rfl (by rw [hdb])
  | land hrun => exact .same rfl rfl
  | @resume p topic event hrun =>
    cases p with
    | post o' =>
      have hdb := updateOrderStatus_get s.ordersDb o' o .paymentProcessing ""
      by_cases ho : o = o'
      · rw [if_pos ho] at hdb
        exact .moved .paymentProcessing none (if_pos ho.symm) hdb
      · rw [if_neg ho] at hdb
        exact .same (if_neg (Ne.symm ho)) hdb
    | consumer svc => exact .same rfl rfl
  | @raise p topic event landed hrun hnet =>
    cases p with
    | post o' => exact .same rfl rfl
    | consumer svc => exact .same rfl rfl

/-! ## In turn -/

/-- The history ends in the order's status. -/
def Current (s : Sys) : Prop := ∀ o order, s.ordersDb.get? o = some order →
  (order.statusHistory.getLast?).map HistoryEntry.status = some order.status

/-- **The step comes in turn**: a status it gives an order follows, in the graph, the one the order has. -/
def InTurn (s : Sys) (a : Action) : Prop := ∀ o status status', s.moves o a = some status' →
  s.status o = some status → status' ∈ status.followers

theorem current_step {net : Net} {s s' : Sys} {a : Action} (hw : Wf s) (hc : Current s) (h : Step net s a s') :
    Current s' := by
  intro o order ho
  cases step_change hw h o with
  | same ha hsame =>
    rw [hsame] at ho
    exact hc o order ho
  | created order' ha hnew hcreated hstatus hhistory =>
    rw [hcreated] at ho
    cases ho
    rw [hstatus, hhistory]
    rfl
  | moved status reason ha hmoved =>
    rw [hmoved] at ho
    obtain ⟨order', -, rfl⟩ := Option.map_eq_some_iff.1 ho
    rw [Order.moved, List.getLast?_concat]
    rfl

/-- A moved order is on the graph exactly when it was and the move follows its status. -/
theorem moved_edges_iff {order : Order} {status : OrderStatus} (reason : Option String)
    (hlast : (order.statusHistory.getLast?).map HistoryEntry.status = some order.status) :
    (order.moved status reason).OnGraph ↔ order.OnGraph ∧ status ∈ order.status.followers := by
  obtain ⟨e, he, hstatus⟩ := Option.map_eq_some_iff.1 hlast
  have hsplit : (order.moved status reason).statusHistory.IsChain Edge ↔
      order.statusHistory.IsChain Edge ∧ status ∈ order.status.followers := by
    rw [Order.moved, List.isChain_append, he, ← hstatus]
    simp [Edge]
  constructor
  · intro h
    obtain ⟨hedges, hmem⟩ := hsplit.1 h.edges
    exact ⟨.of_edges hedges, hmem⟩
  · rintro ⟨h, hmem⟩
    exact .of_edges (hsplit.2 ⟨h.edges, hmem⟩)

/-- **A step keeps the histories on the graph exactly when it comes in turn.** -/
theorem onGraph_step_iff {net : Net} {s s' : Sys} {a : Action} (hw : Wf s) (hc : Current s) (hg : s.OnGraph)
    (h : Step net s a s') : s'.OnGraph ↔ InTurn s a := by
  constructor
  · intro hg' o status status' ha hstatus
    obtain ⟨order, ho, rfl⟩ := Option.map_eq_some_iff.1 hstatus
    cases step_change hw h o with
    | same hnone =>
      rw [hnone] at ha
      cases ha
    | created order' hnone =>
      rw [hnone] at ha
      cases ha
    | moved status'' reason hsome hmoved =>
      rw [hsome] at ha
      cases ha
      rw [ho, Option.map_some] at hmoved
      exact ((moved_edges_iff reason (hc o order ho)).1 (hg' o _ hmoved)).2
  · intro hturn o order' ho'
    cases step_change hw h o with
    | same ha hsame =>
      rw [hsame] at ho'
      exact hg o order' ho'
    | created order ha hnew hcreated hstatus hhistory =>
      rw [hcreated] at ho'
      cases ho'
      refine .of_edges ?_
      rw [hhistory]
      exact List.isChain_singleton _
    | moved status reason ha hmoved =>
      rw [hmoved] at ho'
      obtain ⟨order, ho, rfl⟩ := Option.map_eq_some_iff.1 ho'
      have hstatus : s.status o = some order.status := by
        unfold Sys.status
        rw [ho]
        rfl
      exact (moved_edges_iff reason (hc o order ho)).2 ⟨hg o order ho, hturn o _ _ ha hstatus⟩

end Saga
end KafkaGuide
