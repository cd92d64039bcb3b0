import KafkaGuide.CqrsProject
/-!
# CqrsHistory — what a view says of its order's events

The status of a view agrees with its payment and its inventory whatever is folded, in any order and any number of times
(`view_consistent`), and its history is the part of the event log that its order's last ORDER_CREATED began
(`view_history`).  `get_order_detail` shows both.
-/
namespace KafkaGuide
namespace Cqrs

/-! ## The status and its parts -/

/-- **The status a view shows is the one its parts allow.** -/
structure View.Consistent (view : View) : Prop where
  completed : view.status = .completed ↔ view.paymentStatus = .completed ∧ view.inventoryStatus = .reserved
  created : view.status = .created → view.paymentStatus = .pending ∧ view.inventoryStatus = .pending
  paymentCompleted : view.status = .paymentCompleted →
    view.paymentStatus = .completed ∧ view.inventoryStatus ≠ .reserved
  inventoryReserved : view.status = .inventoryReserved →
    view.inventoryStatus = .reserved ∧ view.paymentStatus ≠ .completed
  cancelled : view.status = .cancelled → view.paymentStatus = .failed ∨ view.inventoryStatus = .failed

theorem newView_consistent (event : Json.Members) (eventType orderId timestamp : Json) :
    (newView event eventType orderId timestamp).Consistent := by
  constructor <;> simp [newView]

theorem onPaymentCompleted_consistent (event : Json.Members) (view : View) :
    (onPaymentCompleted event view).Consistent := by
  by_cases h : view.inventoryStatus = .reserved
  · constructor <;> simp [onPaymentCompleted, h]
  · constructor <;> simp [onPaymentCompleted, h]

theorem onPaymentFailed_consistent (event : Json.Members) (view : View) : (onPaymentFailed event view).Consistent := by
  constructor <;> simp [onPaymentFailed]

theorem onInventoryReserved_consistent (event : Json.Members) (view : View) :
    (onInventoryReserved event view).Consistent := by
  by_cases h : view.paymentStatus = .completed
  · constructor <;> simp [onInventoryReserved, h]
  · constructor <;> simp [onInventoryReserved, h]

theorem onInventoryFailed_consistent (event : Json.Members) (view : View) :
    (onInventoryFailed event view).Consistent := by
  constructor <;> simp [onInventoryFailed]

/-- Every branch but the one for NOTIFICATION_SENT sets the status anew. -/
theorem updateOf_consistent {event : Json.Members} {eventType : Json} {update : View → View}
    (hupdate : updateOf event eventType = some update) {view : View} (h : view.Consistent) :
    (update view).Consistent := by
  cases updateOf_sound hupdate with
  | paymentCompleted => exact onPaymentCompleted_consistent event view
  | paymentFailed => exact onPaymentFailed_consistent event view
  | inventoryReserved => exact onInventoryReserved_consistent event view
  | inventoryFailed => exact onInventoryFailed_consistent event view
  | notificationSent => exact h

theorem View.Consistent.stamp {view : View} (h : view.Consistent) (eventType timestamp : Json) :
    (view.stamp eventType timestamp).Consistent :=
  ⟨h.completed, h.created, h.paymentCompleted, h.inventoryReserved, h.cancelled⟩

theorem applyTo_consistent {view : Option View} (h : ∀ v, view = some v → v.Consistent) (event : Json.Members)
    (now : String) {v : View} (hv : applyTo view event now = some v) : v.Consistent := by
  unfold applyTo at hv
  dsimp only at hv
  split at hv
  · cases hv
    exact newView_consistent ..
  · split at hv
    · exact h v hv
    · rename_i update hupdate
      obtain ⟨w, hw, rfl⟩ := Option.map_eq_some_iff.1 hv
      exact (updateOf_consistent hupdate (h w hw)).stamp _ _

/-- Every view of the model is consistent. -/
def ReadStore.Consistent (st : ReadStore) : Prop := ∀ k v, st.ordersReadModel.get? k = some v → v.Consistent

theorem processEvent_consistent {st : ReadStore} (h : st.Consistent) (r : Received) :
    (processEvent st r.event r.topic r.now).1.Consistent := by
  intro k v hv
  rw [processEvent_at] at hv
  split at hv
  · exact applyTo_consistent (h k) r.event r.now hv
  · exact h k v hv

theorem processAll_consistent : ∀ (rs : List Received) {st : ReadStore}, st.Consistent → (processAll st rs).Consistent
  | [], _, h => h
  | r :: rs, _, h => processAll_consistent rs (processEvent_consistent h r)

theorem empty_consistent : ({} : ReadStore).Consistent := by
  intro k v hv
  cases hv

/-- **The read model's statuses are consistent**: after any events whatsoever, every view's status agrees with its
payment and its inventory. -/
theorem view_consistent (rs : List Received) {k : Json.Key} {view : View}
    (h : (processAll {} rs).ordersReadModel.get? k = some view) : view.Consistent :=
  processAll_consistent rs empty_consistent k view h

def revivedOrder : String := "91c7d0b8-3e5f-4a62-b1d4-f8072e6a9c35"

/-- The payment fails and then completes, the stock is reserved before and after it. -/
def revivedEvents : List Received :=
  [⟨projectedEvent revivedOrder "ORDER_CREATED" "t1", "order.created", "c1"⟩,
    ⟨projectedEvent revivedOrder "INVENTORY_RESERVED" "t2", "inventory.result", "c2"⟩,
    ⟨projectedEvent revivedOrder "PAYMENT_FAILED" "t3", "payment.result", "c3"⟩,
    ⟨projectedEvent revivedOrder "PAYMENT_COMPLETED" "t4", "payment.result", "c4"⟩,
    ⟨projectedEvent revivedOrder "INVENTORY_RESERVED" "t2", "inventory.result", "c5"⟩]

theorem view_consistent_revived : ∃ view, (processAll {} revivedEvents).ordersReadModel.get? (.str revivedOrder) =
    some view ∧ view.status = .completed ∧ view.Consistent := by
  obtain ⟨view, hview, hstatus⟩ : ∃ view, (processAll {} revivedEvents).ordersReadModel.get? (.str revivedOrder) =
      some view ∧ view.status = .completed := ⟨_, rfl, rfl⟩
  exact ⟨view, hview, hstatus, view_consistent revivedEvents hview⟩

/-! ## The history and the log -/

/-- The entry `process_event` logs. -/
def Received.entry (r : Received) : LogEntry :=
  { eventType := Json.get r.event "event_type" (.str "")
    orderId := Json.get r.event "order_id" (.str "")
    topic := r.topic
    timestamp := Json.get r.event "timestamp" (.str r.now)
    data := r.event }

/-- The types `process_event` has a branch for. -/
def handledTypes : List String :=
  ["ORDER_CREATED", "PAYMENT_COMPLETED", "PAYMENT_FAILED", "INVENTORY_RESERVED", "INVENTORY_FAILED",
    "NOTIFICATION_SENT"]

def LogEntry.handled (e : LogEntry) : Bool := handledTypes.any e.eventType.isStr

def LogEntry.creates (e : LogEntry) : Bool := e.eventType.isStr "ORDER_CREATED"

/-- An entry of the order, of a handled type. -/
def LogEntry.handledFor (k : Json.Key) (e : LogEntry) : Bool := decide (e.orderId.key? = some k) && e.handled

/-- What a view keeps of an event. -/
def LogEntry.summary (e : LogEntry) : Json × Json := (e.eventType, e.timestamp)

/-- The answer of GET /orders/{order_id}. -/
structure OrderDetail where
  order : View
  eventTimeline : List LogEntry
  totalEvents : Nat

/-- `get_order_detail`; `none` is its 404. -/
def getOrderDetail (st : ReadStore) (orderId : String) : Option OrderDetail :=
  match st.ordersReadModel.get? (.str orderId) with
  | none => none
  | some orderView =>
    let orderEvents := st.eventLog.filter (fun e => e.orderId.isStr orderId)
    some { order := orderView, eventTimeline := orderEvents, totalEvents := orderEvents.length }

theorem processEvent_eventLog (st : ReadStore) (r : Received) :
    (processEvent st r.event r.topic r.now).1.eventLog = st.eventLog ++ [r.entry] := by
  unfold processEvent
  dsimp only
  split
  · rfl
  · split
    · split <;> rfl
    · split
      · rfl
      · split
        · rfl
        · split <;> rfl

/-- **Every event is logged**, also one whose branch raises. -/
theorem processAll_eventLog : ∀ (rs : List Received) (st : ReadStore),
    (processAll st rs).eventLog = st.eventLog ++ rs.map Received.entry
  | [], st => (List.append_nil _).symm
  | r :: rs, st => by
    change (processAll (processEvent st r.event r.topic r.now).1 rs).eventLog = _
    rw [processAll_eventLog rs, processEvent_eventLog, List.append_assoc]
    rfl

theorem handled_iff (r : Received) : r.entry.handled = true ↔
    r.entry.creates = true ∨ (updateOf r.event r.entry.eventType).isSome = true := by
  unfold LogEntry.handled LogEntry.creates handledTypes updateOf
  generalize r.entry.eventType = eventType
  by_cases h1 : eventType.isStr "PAYMENT_COMPLETED" = true
  · simp [h1]
  · by_cases h2 : eventType.isStr "PAYMENT_FAILED" = true
    · simp [h1, h2]
    · by_cases h3 : eventType.isStr "INVENTORY_RESERVED" = true
      · simp [h1, h2, h3]
      · by_cases h4 : eventType.isStr "INVENTORY_FAILED" = true
        · simp [h1, h2, h3, h4]
        · by_cases h5 : eventType.isStr "NOTIFICATION_SENT" = true <;> simp [h1, h2, h3, h4, h5]

/-- What an event that starts no view does to one. -/
def Received.update (view : View) (r : Received) : View :=
  ((updateOf r.event r.entry.eventType).getD id view).stamp r.entry.eventType r.entry.timestamp

def Received.start (r : Received) : View :=
  newView r.event r.entry.eventType r.entry.orderId r.entry.timestamp

theorem applyTo_entry (r : Received) (view : Option View) : applyTo view r.event r.now =
    if r.entry.creates then some r.start
    else match updateOf r.event r.entry.eventType with
      | none => view
      | some update => view.map (fun v => (update v).stamp r.entry.eventType r.entry.timestamp) := rfl

/-- A handled event starts the view over or stamps it. -/
theorem applyTo_handled {r : Received} (h : r.entry.handled = true) (view : Option View) :
    applyTo view r.event r.now = if r.entry.creates then some r.start else view.map (fun v => r.update v) := by
  rw [applyTo_entry]
  split
  · rfl
  · rename_i hcreates
    obtain ⟨update, hupdate⟩ := Option.isSome_iff_exists.1 (((handled_iff r).1 h).resolve_left hcreates)
    rw [hupdate]
    simp [Received.update, hupdate]

theorem applyTo_unhandled {r : Received} (h : r.entry.handled = false) (view : Option View) :
    applyTo view r.event r.now = view := by
  have hnot : ¬ (r.entry.creates = true ∨ (updateOf r.event r.entry.eventType).isSome = true) := by
    rw [← handled_iff, h]
    simp
  rw [applyTo_entry, if_neg (fun hc => hnot (.inl hc))]
  cases hupdate : updateOf r.event r.entry.eventType with
  | none => rfl
  | some update => exact absurd (.inr (by rw [hupdate]; rfl)) hnot

/-- **A view folds the handled events of its key.** -/
theorem processAll_at (rs : List Received) (k : Json.Key) :
    (processAll {} rs).ordersReadModel.get? k =
      (rs.filter (fun r => decide (r.key? = some k) && r.entry.handled)).foldl
        (fun view r => if r.entry.creates then some r.start else view.map (fun v => r.update v)) none := by
  apply Fold.view_foldl (fun st : ReadStore => st.ordersReadModel.get? k)
  · intro st r hown
    rw [Bool.and_eq_true, decide_eq_true_eq] at hown
    rw [processEvent_at, if_pos hown.1, applyTo_handled hown.2]
  · intro st r hother
    rw [processEvent_at]
    split
    · rename_i hkey
      apply applyTo_unhandled
      simpa [hkey] using hother
    · rfl

/-- The view's history is `history`, and its last time that of the last entry. -/
def View.Records (view : View) (history : List LogEntry) : Prop :=
  view.events = history.map LogEntry.summary ∧ history.getLast?.map LogEntry.timestamp = some view.updatedAt

theorem start_records (r : Received) : r.start.Records [r.entry] := ⟨rfl, rfl⟩

/-- No branch touches the history but by its stamp. -/
theorem updateOf_events {event : Json.Members} {eventType : Json} (view : View) :
    ((updateOf event eventType).getD id view).events = view.events := by
  cases hupdate : updateOf event eventType with
  | none => rfl
  | some update => cases updateOf_sound hupdate <;> rfl

theorem update_records {view : View} {history : List LogEntry} (h : view.Records history) (r : Received) :
    (r.update view).Records (history ++ [r.entry]) := by
  constructor
  · change ((updateOf r.event r.entry.eventType).getD id view).events ++ [r.entry.summary] = _
    rw [updateOf_events, h.1, List.map_append]
    rfl
  · rw [List.getLast?_concat]
    rfl

theorem updates_record : ∀ (rs : List Received) {view : View} {history : List LogEntry}, view.Records history →
    (rs.foldl Received.update view).Records (history ++ rs.map Received.entry)
  | [], _, _, h => by rwa [List.map_nil, List.append_nil]
  | r :: rs, _, _, h => by
    rw [List.map_cons, List.append_cons]
    exact updates_record rs (update_records h r)

/-- The events of a truthy key are those logged under it. -/
theorem key?_eq_some_iff {k : Json.Key} (hk : k.truthy = true) (r : Received) :
    r.key? = some k ↔ r.entry.orderId.key? = some k := by
  constructor
  · intro h
    exact (key?_eq_some.1 h).2
  · intro h
    refine key?_eq_some.2 ⟨?_, h⟩
    rwa [← Json.truthy_of_key? h] at hk

/-- The events that made a view, from the one that started it on. -/
theorem view_since {rs : List Received} {k : Json.Key} {view : View}
    (h : (processAll {} rs).ordersReadModel.get? k = some view) :
    k.truthy = true ∧ ∃ before r after, rs.filter (fun r => decide (r.key? = some k) && r.entry.handled) =
      before ++ r :: after ∧ r.entry.creates = true ∧ (∀ x ∈ after, x.entry.creates = false) ∧
      view = after.foldl Received.update r.start := by
  rw [processAll_at] at h
  obtain ⟨before, r, after, heq, hstart, hafter, hview⟩ := Fold.foldl_starts _ h
  refine ⟨?_, before, r, after, heq, hstart, hafter, hview⟩
  have hmem : r ∈ rs.filter (fun r => decide (r.key? = some k) && r.entry.handled) := by
    rw [heq]
    exact List.mem_append_right _ List.mem_cons_self
  have hkey : r.key? = some k := by
    have hown := List.of_mem_filter hmem
    simp only [Bool.and_eq_true, decide_eq_true_eq] at hown
    exact hown.1
  obtain ⟨htruthy, hk⟩ := key?_eq_some.1 hkey
  rwa [Json.truthy_of_key? hk] at htruthy

/-- What is logged for a truthy key. -/
theorem log_of_key {k : Json.Key} (hk : k.truthy = true) (rs : List Received) :
    (processAll {} rs).eventLog.filter (LogEntry.handledFor k) =
      (rs.filter (fun r => decide (r.key? = some k) && r.entry.handled)).map Received.entry := by
  have hsame : LogEntry.handledFor k ∘ Received.entry = fun r => decide (r.key? = some k) && r.entry.handled := by
    funext r
    simp only [Function.comp_apply, LogEntry.handledFor, key?_eq_some_iff hk]
  rw [processAll_eventLog, List.nil_append, List.filter_map, hsame]

/-- The timeline of an order has all that is logged for it. -/
theorem timeline_of_order {st : ReadStore} {o : String} {view : View}
    (h : st.ordersReadModel.get? (.str o) = some view) : ∃ detail, getOrderDetail st o = some detail ∧
      detail.order = view ∧ (st.eventLog.filter (LogEntry.handledFor (.str o))).Sublist detail.eventTimeline := by
  have hdetail : getOrderDetail st o = some
      { order := view
        eventTimeline := st.eventLog.filter (fun e => e.orderId.isStr o)
        totalEvents := (st.eventLog.filter (fun e => e.orderId.isStr o)).length } := by
    simp only [getOrderDetail, h]
  refine ⟨_, hdetail, rfl, ?_⟩
  apply List.monotone_filter_right
  intro e he
  simp only [LogEntry.handledFor, Bool.and_eq_true, decide_eq_true_eq] at he
  exact Json.isStr_iff.2 (Json.eq_str_of_key? he.1)

/-- **View history equals the event log**: a view's `events` are the types and times of the handled entries logged for
its order since the last ORDER_CREATED, in log order, and its `updated_at` is the time of the last of them; so the
`event_timeline` of `get_order_detail` contains them in this order. -/
theorem view_history (rs : List Received) {k : Json.Key} {view : View}
    (h : (processAll {} rs).ordersReadModel.get? k = some view) :
    ∃ history, Fold.SinceLast LogEntry.creates ((processAll {} rs).eventLog.filter (LogEntry.handledFor k)) history ∧
      view.events = history.map LogEntry.summary ∧
      history.getLast?.map LogEntry.timestamp = some view.updatedAt ∧
      ∀ o, k = .str o → ∃ detail, getOrderDetail (processAll {} rs) o = some detail ∧ detail.order = view ∧
        history.Sublist detail.eventTimeline := by
  obtain ⟨hk, before, r, after, heq, hstart, hafter, hview⟩ := view_since h
  have hlog : (processAll {} rs).eventLog.filter (LogEntry.handledFor k) =
      before.map Received.entry ++ r.entry :: after.map Received.entry := by
    rw [log_of_key hk, heq, List.map_append, List.map_cons]
  have hrecords : view.Records ([r.entry] ++ after.map Received.entry) := by
    rw [hview]
    exact updates_record after (start_records r)
  refine ⟨r.entry :: after.map Received.entry, ⟨before.map Received.entry, r.entry, after.map Received.entry, hlog, rfl,
    hstart, ?_⟩, hrecords.1, hrecords.2, ?_⟩
  · intro e he
    obtain ⟨x, hx, rfl⟩ := List.mem_map.1 he
    exact hafter x hx
  · rintro o rfl
    obtain ⟨detail, hdetail, horder, htimeline⟩ := timeline_of_order h
    rw [hlog] at htimeline
    exact ⟨detail, hdetail, horder, (List.sublist_append_right _ _).trans htimeline⟩

/-- An early result, another order's event and an unknown type are logged beside the order's history, which a repeated
ORDER_CREATED starts over. -/
def repeatedEvents : List Received :=
  [⟨projectedEvent revivedOrder "PAYMENT_COMPLETED" "t2", "payment.result", "c1"⟩,
    ⟨projectedEvent revivedOrder "ORDER_CREATED" "t1", "order.created", "c2"⟩,
    ⟨projectedEvent "other" "ORDER_CREATED" "t3", "order.created", "c3"⟩,
    ⟨projectedEvent revivedOrder "ORDER_CREATED" "t1", "order.created", "c4"⟩,
    ⟨projectedEvent revivedOrder "UNKNOWN" "t4", "order.created", "c5"⟩,
    ⟨projectedEvent revivedOrder "NOTIFICATION_SENT" "t5", "notification.send", "c6"⟩]

theorem view_history_repeated : ∃ view history,
    (processAll {} repeatedEvents).ordersReadModel.get? (.str revivedOrder) = some view ∧
    Fold.SinceLast LogEntry.creates
      ((processAll {} repeatedEvents).eventLog.filter (LogEntry.handledFor (.str revivedOrder))) history ∧
    view.events = history.map LogEntry.summary ∧
    view.events = [(.str "ORDER_CREATED", .str "t1"), (.str "NOTIFICATION_SENT", .str "t5")] := by
  obtain ⟨view, hview, hevents⟩ : ∃ view,
      (processAll {} repeatedEvents).ordersReadModel.get? (.str revivedOrder) = some view ∧
      view.events = [(.str "ORDER_CREATED", .str "t1"), (.str "NOTIFICATION_SENT", .str "t5")] := ⟨_, rfl, rfl⟩
  obtain ⟨history, hsince, hsame, -⟩ := view_history repeatedEvents hview
  exact ⟨view, history, hview, hsince, hsame, hevents⟩

end Cqrs
end KafkaGuide
