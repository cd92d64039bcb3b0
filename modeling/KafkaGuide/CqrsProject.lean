import KafkaGuide.Lib.Fold
import KafkaGuide.CqrsQuery
/-!
# CqrsProject — the view of an order is a fold of the order's own events

`process_event` reads and writes the view of its event's `order_id` only (`processEvent_view`), whatever the type of the
event and whatever the event's `order_id` is.
-/
namespace KafkaGuide
namespace Cqrs

/-- A message as the loop hands it to `process_event`: the event, its topic and what the clock would give. -/
structure Received where
  event : Json.Members
  topic : String
  now : String

/-- The event's `order_id` is `o`. -/
def Received.isOf (o : String) (r : Received) : Bool := (Json.get r.event "order_id" (.str "")).isStr o

/-- The event carries a timestamp of its own. -/
def Received.Stamped (r : Received) : Prop := ∃ timestamp, Dict.find "timestamp" r.event = some timestamp

/-- `process_event` over a list of messages; the loop goes on after one that raises. -/
def processAll (st : ReadStore) (rs : List Received) : ReadStore :=
  rs.foldl (fun st r => (processEvent st r.event r.topic r.now).1) st

/-- `orders_read_model[o]` after a list of messages, from the empty model. -/
def viewOf (o : String) (rs : List Received) : Option View := (processAll {} rs).ordersReadModel.get? (.str o)

/-- What an event does to the view of its order. -/
def applyTo (view : Option View) (event : Json.Members) (now : String) : Option View :=
  let eventType := Json.get event "event_type" (.str "")
  let timestamp := Json.get event "timestamp" (.str now)
  if eventType.isStr "ORDER_CREATED" then
    some (newView event eventType (Json.get event "order_id" (.str "")) timestamp)
  else
    match updateOf event eventType with
    | none => view
    | some update => view.map (fun v => (update v).stamp eventType timestamp)

/-- The key of the view an event goes to: its `order_id`, when that is truthy and hashable. -/
def Received.key? (r : Received) : Option Json.Key :=
  let orderId := Json.get r.event "order_id" (.str "")
  if orderId.truthy then orderId.key? else none

theorem key?_eq_some {r : Received} {k : Json.Key} : r.key? = some k ↔
    (Json.get r.event "order_id" (.str "")).truthy = true ∧ (Json.get r.event "order_id" (.str "")).key? = some k := by
  unfold Received.key?
  by_cases htruthy : (Json.get r.event "order_id" (.str "")).truthy = true <;> simp [htruthy]

/-- An event leaves the views of other keys as they were. -/
theorem processEvent_other {st : ReadStore} {r : Received} {k : Json.Key} (h : r.key? ≠ some k) :
    (processEvent st r.event r.topic r.now).1.ordersReadModel.get? k = st.ordersReadModel.get? k := by
  unfold processEvent
  dsimp only
  split
  · rfl
  · rename_i htruthy
    have hkey : ∀ k', (Json.get r.event "order_id" (.str "")).key? = some k' → k ≠ k' := by
      rintro k' hk' rfl
      exact h (key?_eq_some.2 ⟨by simpa using htruthy, hk'⟩)
    split
    · split
      · rfl
      · exact Dict.get?_set_ne _ (hkey _ ‹_›) _
    · split
      · rfl
      · split
        · rfl
        · split
          · rfl
          · exact Dict.get?_set_ne _ (hkey _ ‹_›) _

/-- An event applies to the view of its own key. -/
theorem processEvent_own {st : ReadStore} {r : Received} {k : Json.Key} (h : r.key? = some k) :
    (processEvent st r.event r.topic r.now).1.ordersReadModel.get? k =
      applyTo (st.ordersReadModel.get? k) r.event r.now := by
  obtain ⟨htruthy, hkey⟩ := key?_eq_some.1 h
  unfold processEvent applyTo
  simp only [hkey, htruthy]
  rw [if_neg (by simp)]
  split
  · exact Dict.get?_set_self ..
  · cases updateOf r.event (Json.get r.event "event_type" (.str "")) with
    | none => rfl
    | some update =>
      cases hview : st.ordersReadModel.get? k with
      | none => simp [hview]
      | some view => simp

/-- **`process_event` on any view.** -/
theorem processEvent_at (st : ReadStore) (r : Received) (k : Json.Key) :
    (processEvent st r.event r.topic r.now).1.ordersReadModel.get? k =
      if r.key? = some k then applyTo (st.ordersReadModel.get? k) r.event r.now else st.ordersReadModel.get? k := by
  by_cases h : r.key? = some k
  · rw [if_pos h, processEvent_own h]
  · rw [if_neg h, processEvent_other h]

theorem key?_iff_isOf (r : Received) {o : String} (ho : o ≠ "") : r.key? = some (.str o) ↔ r.isOf o = true := by
  unfold Received.key? Received.isOf
  rw [Json.isStr_iff]
  cases Json.get r.event "order_id" (.str "") with
  | str s =>
    by_cases hs : s = ""
    · subst hs
      simp [ho.symm]
    · simp [hs]
  | _ => simp [Json.key?]

/-- **`process_event` on the view of an order.** -/
theorem processEvent_view (st : ReadStore) (r : Received) {o : String} (ho : o ≠ "") :
    (processEvent st r.event r.topic r.now).1.ordersReadModel.get? (.str o) =
      if r.isOf o then applyTo (st.ordersReadModel.get? (.str o)) r.event r.now
      else st.ordersReadModel.get? (.str o) := by
  rw [processEvent_at]
  simp only [key?_iff_isOf r ho]

/-- **The view of an order folds the order's own events**, from any contents of the read model. -/
theorem processAll_view (st : ReadStore) (rs : List Received) {o : String} (ho : o ≠ "") :
    (processAll st rs).ordersReadModel.get? (.str o) =
      (rs.filter (Received.isOf o)).foldl (fun view r => applyTo view r.event r.now)
        (st.ordersReadModel.get? (.str o)) := by
  apply Fold.view_foldl (fun st : ReadStore => st.ordersReadModel.get? (.str o))
  · intro st r hown
    simp [processEvent_view st r ho, hown]
  · intro st r hother
    simp [processEvent_view st r ho, hother]

/-- The clock is read for an event without a timestamp only. -/
theorem applyTo_stamped {event : Json.Members} {timestamp : Json} (h : Dict.find "timestamp" event = some timestamp)
    (view : Option View) (now now' : String) : applyTo view event now = applyTo view event now' := by
  have hget : ∀ now, Json.get event "timestamp" (.str now) = timestamp := by
    intro now
    simp [Json.get, h]
  simp only [applyTo, hget]

theorem foldl_stamped : ∀ {rs : List Received}, (∀ r ∈ rs, r.Stamped) → ∀ view : Option View,
    rs.foldl (fun view r => applyTo view r.event r.now) view =
      (rs.map Received.event).foldl (fun view event => applyTo view event "") view
  | [], _, _ => rfl
  | r :: rs, h, view => by
    obtain ⟨timestamp, hr⟩ := h r List.mem_cons_self
    rw [List.foldl_cons, List.map_cons, List.foldl_cons, applyTo_stamped hr view r.now ""]
    exact foldl_stamped (fun r hr => h r (List.mem_cons_of_mem _ hr)) _

/-- **The read model is a product of its orders**: the view of an order is the one its own events alone give, so two
lists of events that agree on the order's events give it the same view, whatever the other events, the topics and the
clock are. -/
theorem view_projects (o : String) (ho : o ≠ "") :
    (∀ rs : List Received, (∀ r ∈ rs, r.Stamped) → viewOf o rs = viewOf o (rs.filter (Received.isOf o))) ∧
    ∀ rs rs' : List Received, (∀ r ∈ rs, r.Stamped) → (∀ r ∈ rs', r.Stamped) →
      (rs.filter (Received.isOf o)).map Received.event = (rs'.filter (Received.isOf o)).map Received.event →
      viewOf o rs = viewOf o rs' := by
  have hfold : ∀ rs : List Received, (∀ r ∈ rs, r.Stamped) → viewOf o rs =
      ((rs.filter (Received.isOf o)).map Received.event).foldl (fun view event => applyTo view event "") none := by
    intro rs hrs
    have hstamped : ∀ r ∈ rs.filter (Received.isOf o), r.Stamped := fun r hr => hrs r (List.mem_of_mem_filter hr)
    exact (processAll_view {} rs ho).trans (foldl_stamped hstamped none)
  constructor
  · intro rs hrs
    rw [hfold rs hrs, hfold _ fun r hr => hrs r (List.mem_of_mem_filter hr), List.filter_filter]
    simp only [Bool.and_self]
  · intro rs rs' hrs hrs' hsame
    rw [hfold rs hrs, hfold rs' hrs', hsame]

def projectedOrder : String := "7f3e9a10-52bc-4d8e-a6f1-90c2b4d7e8a3"

def projectedEvent (orderId eventType timestamp : String) : Json.Members :=
  [("event_type", .str eventType), ("order_id", .str orderId), ("timestamp", .str timestamp)]

/-- The order is created and paid, with an event of another order between, an unknown type and an unhashable
`order_id` after. -/
def mixedEvents : List Received :=
  [⟨projectedEvent projectedOrder "ORDER_CREATED" "t1", "order.created", "c1"⟩,
    ⟨projectedEvent "other" "ORDER_CREATED" "t2", "order.created", "c2"⟩,
    ⟨projectedEvent projectedOrder "PAYMENT_COMPLETED" "t3", "payment.result", "c3"⟩,
    ⟨projectedEvent "other" "UNKNOWN" "t4", "payment.result", "c4"⟩,
    ⟨[("event_type", .str "ORDER_CREATED"), ("order_id", .arr [.null]), ("timestamp", .null)], "order.created", "c5"⟩]

/-- The order's two events alone, read at other times. -/
def ownEvents : List Received :=
  [⟨projectedEvent projectedOrder "ORDER_CREATED" "t1", "order.created", "c6"⟩,
    ⟨projectedEvent projectedOrder "PAYMENT_COMPLETED" "t3", "payment.result", "c7"⟩]

theorem view_projects_mixed : viewOf projectedOrder mixedEvents = viewOf projectedOrder ownEvents := by
  refine (view_projects projectedOrder (by decide)).2 mixedEvents ownEvents ?_ ?_ rfl
  · intro r hr
    simp only [mixedEvents, List.mem_cons, List.not_mem_nil, or_false] at hr
    rcases hr with rfl | rfl | rfl | rfl | rfl <;> exact ⟨_, rfl⟩
  · intro r hr
    simp only [ownEvents, List.mem_cons, List.not_mem_nil, or_false] at hr
    rcases hr with rfl | rfl <;> exact ⟨_, rfl⟩

end Cqrs
end KafkaGuide
