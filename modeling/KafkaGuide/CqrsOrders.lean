import Mathlib.Data.List.Sort
import KafkaGuide.CqrsHistory
import KafkaGuide.CqrsRevenue
import KafkaGuide.Lib.IsoOrder
/-!
# CqrsOrders — the list of orders (`11-multi-service-architecture/query-service/app/main.py`)

`query_orders` filters the views and sorts them by the text of `created_at`.  Where these texts are date-times the list
is newest first (`orders_newest_first`), and they are wherever the order service made them (`processAll_stamped`).
-/
namespace KafkaGuide
namespace Cqrs

/-- `a < b`: `none` where the comparison raises.  Two lists, which compare item by item, are left out. -/
def lessThan : Json → Json → Option Bool
  | .str a, .str b => some (decide (a < b))
  | a, b => (number a).bind fun x => (number b).map fun y => decide (x < y)

/-- An optional string parameter, when it is truthy. -/
def given (param : Option String) : Option String := param.filter (fun s => s ≠ "")

/-- The status filter; `upper` is `str.upper`. -/
def filterStatus (upper : String → String) (status : Option String) (orders : List View) : List View :=
  match given status with
  | some status => orders.filter (fun o => upper o.status.value = upper status)
  | none => orders

/-- The user filter. -/
def filterUser (userId : Option String) (orders : List View) : List View :=
  match given userId with
  | some userId => orders.filter (fun o => o.userId.isStr userId)
  | none => orders

/-- `orders.sort(key=lambda o: o.get("created_at", ""), reverse=True)`, which is stable; it raises, `none`, where two of
the keys do not compare. -/
def sortNewest (orders : List View) : Option (List View) :=
  if orders.Pairwise (fun a b => (lessThan a.createdAt b.createdAt).isSome) then
    some (orders.insertionSort (fun a b => lessThan a.createdAt b.createdAt ≠ some true))
  else none

/-- An entry of the answer's list. -/
structure OrderSummary where
  orderId : Json
  userId : Json
  totalPrice : Json
  status : ViewStatus
  paymentStatus : PaymentStatus
  inventoryStatus : InventoryStatus
  createdAt : Json
  updatedAt : Json

def View.summary (o : View) : OrderSummary :=
  { orderId := o.orderId
    userId := o.userId
    totalPrice := o.totalPrice
    status := o.status
    paymentStatus := o.paymentStatus
    inventoryStatus := o.inventoryStatus
    createdAt := o.createdAt
    updatedAt := o.updatedAt }

structure OrderFilters where
  status : Option String
  userId : Option String

/-- The answer of GET /orders. -/
structure OrderList where
  total : Nat
  filters : OrderFilters
  orders : List OrderSummary

/-- `query_orders`: `none` where the sort raises. -/
def queryOrders (upper : String → String) (st : ReadStore) (status userId : Option String) : Option OrderList :=
  let orders := filterUser userId (filterStatus upper status st.ordersReadModel.values)
  (sortNewest orders).map fun orders =>
    { total := orders.length
      filters := { status, userId }
      orders := orders.map View.summary }

/-! ## The views of the list -/

/-- The view passes the filters that are given. -/
def View.Matches (upper : String → String) (status userId : Option String) (o : View) : Prop :=
  (∀ s ∈ given status, upper o.status.value = upper s) ∧ ∀ u ∈ given userId, o.userId = .str u

instance (upper : String → String) (status userId : Option String) : DecidablePred (View.Matches upper status userId) :=
  fun o => decidable_of_iff ((∀ s ∈ given status, upper o.status.value = upper s) ∧
    ∀ u ∈ given userId, o.userId.isStr u = true) (by simp only [View.Matches, Json.isStr_iff])

theorem filterStatus_eq (upper : String → String) (status : Option String) (orders : List View) :
    filterStatus upper status orders = orders.filter (fun o => ∀ s ∈ given status, upper o.status.value = upper s) := by
  unfold filterStatus
  generalize given status = status
  cases status <;> simp

theorem filterUser_eq (userId : Option String) (orders : List View) :
    filterUser userId orders = orders.filter (fun o => ∀ u ∈ given userId, o.userId.isStr u = true) := by
  unfold filterUser
  generalize given userId = userId
  cases userId <;> simp

/-- **The filters keep the views that match**, in their order. -/
theorem filters_eq (upper : String → String) (status userId : Option String) (orders : List View) :
    filterUser userId (filterStatus upper status orders) = orders.filter (View.Matches upper status userId) := by
  rw [filterUser_eq, filterStatus_eq, List.filter_filter]
  apply List.filter_congr
  intro o _
  rw [Bool.eq_iff_iff]
  simp only [Json.isStr_iff, Bool.and_eq_true, decide_eq_true_eq]
  exact and_comm

/-! ## Their order -/

/-- The view was created at `d`. -/
def View.CreatedAt (o : View) (d : DateTime) : Prop := o.createdAt = .str d.isoformat

/-- Every view of the model has the text of a date-time. -/
def ReadStore.Stamped (st : ReadStore) : Prop := ∀ view ∈ st.ordersReadModel.values, ∃ d, view.CreatedAt d

/-- The text a view is sorted by. -/
def View.createdText (o : View) : String :=
  match o.createdAt with
  | .str text => text
  | _ => ""

theorem View.CreatedAt.text {o : View} {d : DateTime} (h : o.CreatedAt d) : o.createdText = d.isoformat := by
  rw [View.createdText, h]

/-- Views with date-times are sorted as their texts. -/
theorem lessThan_text {a b : View} (ha : ∃ d, a.CreatedAt d) (hb : ∃ d, b.CreatedAt d) :
    lessThan a.createdAt b.createdAt = some (decide (a.createdText < b.createdText)) := by
  obtain ⟨d, hd⟩ := ha
  obtain ⟨d', hd'⟩ := hb
  rw [hd.text, hd'.text, hd, hd']
  rfl

/-- **The sort of views with date-times**: it raises nothing, loses no view and doubles none, and an earlier view never
stands before a later one. -/
theorem sortNewest_stamped {orders : List View} (h : ∀ o ∈ orders, ∃ d, o.CreatedAt d) :
    ∃ views, sortNewest orders = some views ∧ views.Perm orders ∧
      views.Pairwise (fun a b => ∀ d d', a.CreatedAt d → b.CreatedAt d' → d' ≤ d) := by
  have hcompare : orders.Pairwise (fun a b => (lessThan a.createdAt b.createdAt).isSome) := by
    refine List.pairwise_of_forall_mem_list fun a ha b hb => ?_
    rw [lessThan_text (h a ha) (h b hb)]
    rfl
  have htexts : (orders.insertionSort (fun a b => lessThan a.createdAt b.createdAt ≠ some true)).map View.createdText =
      (orders.map View.createdText).insertionSort (fun x y => y ≤ x) := by
    refine List.map_insertionSort _ _ _ _ fun a ha b hb => ?_
    rw [lessThan_text (h a ha) (h b hb), ne_eq, Option.some.injEq, decide_eq_true_eq, not_lt]
  have hsorted := List.pairwise_insertionSort (fun x y : String => y ≤ x) (orders.map View.createdText)
  rw [← htexts, List.pairwise_map] at hsorted
  refine ⟨_, if_pos hcompare, List.perm_insertionSort _ _, hsorted.imp fun hle d d' hd hd' => ?_⟩
  rwa [hd.text, hd'.text, DateTime.isoformat_strictMono.le_iff_le] at hle

/-! ## Where the texts come from -/

/-- An `ORDER_CREATED` has the text of a date-time. -/
def Received.Dated (r : Received) : Prop :=
  r.entry.creates = true → ∃ d : DateTime, r.entry.timestamp = .str d.isoformat

/-- `created_at` is `datetime.utcnow().isoformat()` where the order service made the event. -/
theorem created_dated (db : OrdersDb) (u : Uuid) (request : CreateOrderRequest) (d : DateTime) (topic now : String) :
    Received.Dated ⟨(createOrder db u request d.isoformat).2, topic, now⟩ := fun _ => ⟨d, rfl⟩

/-- No update touches it. -/
theorem updateOf_createdAt {event : Json.Members} {eventType : Json} {update : View → View}
    (hupdate : updateOf event eventType = some update) (view : View) : (update view).createdAt = view.createdAt := by
  cases updateOf_sound hupdate <;> rfl

theorem applyTo_createdAt {view : Option View} {r : Received} (h : ∀ v, view = some v → ∃ d, v.CreatedAt d)
    (hr : r.Dated) {v : View} (hv : applyTo view r.event r.now = some v) : ∃ d, v.CreatedAt d := by
  rw [applyTo_entry] at hv
  split at hv
  · rename_i hcreates
    cases hv
    exact hr hcreates
  · split at hv
    · exact h v hv
    · rename_i update hupdate
      obtain ⟨w, hw, rfl⟩ := Option.map_eq_some_iff.1 hv
      obtain ⟨d, hd⟩ := h w hw
      exact ⟨d, (updateOf_createdAt hupdate w).trans hd⟩

theorem processAll_createdAt : ∀ (rs : List Received) {st : ReadStore},
    (∀ k v, st.ordersReadModel.get? k = some v → ∃ d, v.CreatedAt d) → (∀ r ∈ rs, r.Dated) →
    ∀ k v, (processAll st rs).ordersReadModel.get? k = some v → ∃ d, v.CreatedAt d
  | [], _, h, _ => h
  | r :: rs, st, h, hrs => by
    refine processAll_createdAt rs (fun k v hv => ?_) fun r' hr' => hrs r' (List.mem_cons_of_mem r hr')
    rw [processEvent_at] at hv
    split at hv
    · exact applyTo_createdAt (h k) (hrs r List.mem_cons_self) hv
    · exact h k v hv

/-- **Every view has the text of a date-time** when every ORDER_CREATED had. -/
theorem processAll_stamped {rs : List Received} (h : ∀ r ∈ rs, r.Dated) : (processAll {} rs).Stamped := by
  intro view hview
  obtain ⟨k, hk⟩ := Dict.get?_of_mem_values hview
  refine processAll_createdAt rs (fun k v hv => ?_) h k view hk
  cases hv

/-! ## The answer -/

/-- An entry shows a view. -/
structure OrderSummary.Shows (o : View) (e : OrderSummary) : Prop where
  orderId : e.orderId = o.orderId
  userId : e.userId = o.userId
  totalPrice : e.totalPrice = o.totalPrice
  status : e.status = o.status
  paymentStatus : e.paymentStatus = o.paymentStatus
  inventoryStatus : e.inventoryStatus = o.inventoryStatus
  createdAt : e.createdAt = o.createdAt
  updatedAt : e.updatedAt = o.updatedAt

theorem summaries_show (views : List View) : List.Forall₂ OrderSummary.Shows views (views.map View.summary) :=
  List.forall₂_map_right_iff.2 (List.forall₂_same.2 fun _ _ => ⟨rfl, rfl, rfl, rfl, rfl, rfl, rfl, rfl⟩)

/-- **The list of orders is newest first and complete**: where every view has the text of a date-time, `query_orders`
answers with the views that match its filters, each once, and the later-created first; the order of these texts is that
of the instants they name, microseconds written or not. -/
theorem orders_newest_first (upper : String → String) {st : ReadStore} (h : st.Stamped)
    (status userId : Option String) :
    (∃ (views : List View) (response : OrderList), queryOrders upper st status userId = some response ∧
      views.Perm (st.ordersReadModel.values.filter (View.Matches upper status userId)) ∧
      views.Pairwise (fun a b => ∀ d d', a.CreatedAt d → b.CreatedAt d' → d'.instant ≤ d.instant) ∧
      List.Forall₂ OrderSummary.Shows views response.orders ∧ response.total = views.length ∧
      response.filters = ⟨status, userId⟩) ∧
    ∀ d d' : DateTime, d.isoformat ≤ d'.isoformat ↔ d.instant ≤ d'.instant := by
  constructor
  · have hstamped : ∀ o ∈ st.ordersReadModel.values.filter (View.Matches upper status userId), ∃ d, o.CreatedAt d :=
      fun o ho => h o (List.mem_of_mem_filter ho)
    obtain ⟨views, hsort, hperm, hsorted⟩ := sortNewest_stamped hstamped
    refine ⟨views, ⟨views.length, ⟨status, userId⟩, views.map View.summary⟩, ?_, hperm, ?_,
      summaries_show views, rfl, rfl⟩
    · simp only [queryOrders, filters_eq, hsort, Option.map_some]
    · exact hsorted.imp fun hle d d' hd hd' => DateTime.instant_strictMono.monotone (hle d d' hd hd')
  · intro d d'
    rw [DateTime.isoformat_strictMono.le_iff_le, DateTime.instant_strictMono.le_iff_le]

/-- `str.upper` of ASCII text. -/
def asciiUpper (s : String) : String := String.ofList (s.toList.map Char.toUpper)

def leapNight : DateTime := (DateTime.ofFields 2024 2 29 23 59 59 999999).get rfl

def marchFirst : DateTime := (DateTime.ofFields 2024 3 1 0 0 0 0).get rfl

def orderedAt (u : Uuid) (userId : String) (d : DateTime) : Received :=
  ⟨(createOrder .empty u ⟨userId, [], none⟩ d.isoformat).2, "order.created", ""⟩

theorem orderedAt_dated (u : Uuid) (userId : String) (d : DateTime) : (orderedAt u userId d).Dated :=
  created_dated .empty u ⟨userId, [], none⟩ d "order.created" ""

/-- Two orders of one user, a microsecond apart over midnight, and between them one of another user. -/
def midnightEvents : List Received :=
  [orderedAt ⟨"1e6f0a52-94d7-4c3b-8f21-d05a7be39c64", rfl⟩ "user-001" leapNight,
    orderedAt ⟨"7b20c9d4-5e18-4fa6-93c7-2a8e61f0b5d3", rfl⟩ "user-002" marchFirst,
    orderedAt ⟨"d9348e17-c06b-42f5-a7d1-6f5b0e2c8a90", rfl⟩ "user-001" marchFirst]

theorem orders_newest_first_midnight : ∃ (views : List View) (response : OrderList),
    queryOrders asciiUpper (processAll {} midnightEvents) (some "created") (some "user-001") = some response ∧
      views.Perm ((processAll {} midnightEvents).ordersReadModel.values.filter
        (View.Matches asciiUpper (some "created") (some "user-001"))) ∧
      views.Pairwise (fun a b => ∀ d d', a.CreatedAt d → b.CreatedAt d' → d'.instant ≤ d.instant) ∧
      List.Forall₂ OrderSummary.Shows views response.orders ∧
      response.orders.map OrderSummary.createdAt =
        [.str "2024-03-01T00:00:00", .str "2024-02-29T23:59:59.999999"] := by
  have hstamped : (processAll {} midnightEvents).Stamped := by
    apply processAll_stamped
    intro r hr
    simp only [midnightEvents, List.mem_cons, List.not_mem_nil, or_false] at hr
    rcases hr with rfl | rfl | rfl
    · exact orderedAt_dated _ _ leapNight
    · exact orderedAt_dated _ _ marchFirst
    · exact orderedAt_dated _ _ marchFirst
  obtain ⟨⟨views, response, hlist, hperm, hsorted, horders, -⟩, -⟩ :=
    orders_newest_first asciiUpper hstamped (some "created") (some "user-001")
  have htexts : (queryOrders asciiUpper (processAll {} midnightEvents) (some "created") (some "user-001")).map
      (fun response => response.orders.map OrderSummary.createdAt) =
      some [.str "2024-03-01T00:00:00", .str "2024-02-29T23:59:59.999999"] := rfl
  rw [hlist, Option.map_some, Option.some.injEq] at htexts
  exact ⟨views, response, hlist, hperm, hsorted, horders, htexts⟩

end Cqrs
end KafkaGuide
