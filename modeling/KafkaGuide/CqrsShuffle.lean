import KafkaGuide.CqrsAgree
/-!
# CqrsShuffle — the read model under two interleavings of the same topics

Folded over the events of any number of orders, `process_event` gives an order the statuses of its own results since its
ORDER_CREATED (`readStore_statuses`).  These depend on the latest payment result, the latest inventory result and,
where just one of the two is a failure, on which came last (`readFold_eq_iff`).  So two interleavings agree exactly
when they agree on that, for every order (`order_independent_iff`).
-/
namespace KafkaGuide
namespace Cqrs

open ResultType

inductive EventKind where
  | orderCreated
  | result (r : ResultType)
deriving DecidableEq

def EventKind.value : EventKind → String
  | .orderCreated => "ORDER_CREATED"
  | .result r => r.value

def EventKind.topic : EventKind → String
  | .orderCreated => "order.created"
  | .result r => r.topic

/-- An event of an order, from the topic of its type. -/
structure Msg where
  order : Uuid
  kind : EventKind
  event : Json.Members
  type_eq : Json.get event "event_type" (.str "") = .str kind.value
  order_eq : Json.get event "order_id" (.str "") = .str order.str

/-- `process_event` folded over messages, each with the clock reading of its handling, from the empty model. -/
def readStore (ms : List (Msg × String)) : ReadStore :=
  ms.foldl (fun st m => (processEvent st m.1.event m.1.kind.topic m.2).1) {}

def ReadStore.statusesOf (st : ReadStore) (u : Uuid) : Option Statuses :=
  (st.ordersReadModel.get? (.str u.str)).map View.statuses

/-! ## One order -/

/-- What an event of an order does to the statuses of its view. -/
def viewStep (v : Option Statuses) : EventKind → Option Statuses
  | .orderCreated => some {}
  | .result r => v.map (fun statuses => readStep statuses r)

def kindsOf (u : Uuid) (ms : List Msg) : List EventKind := (ms.filter (fun m => m.order = u)).map Msg.kind

theorem statusesOf_set (st : ReadStore) (db : Dict Json.Key View) {u u' : Uuid} {view : View}
    (h : st.ordersReadModel = db.set (.str u.str) view) :
    st.statusesOf u' = if u = u' then some view.statuses else (db.get? (.str u'.str)).map View.statuses := by
  unfold ReadStore.statusesOf
  rw [h, Dict.get?_set]
  by_cases hu : u = u'
  · rw [if_pos hu, if_pos (by rw [hu])]
    rfl
  · rw [if_neg hu, if_neg]
    intro hkey
    exact hu (Uuid.ext (Json.Key.str.inj hkey).symm)

/-- A result of an order without a view is dropped. -/
theorem processEvent_absent {st : ReadStore} {event : Json.Members} (topic now : String) {o : String} {r : ResultType}
    (hid : Json.get event "order_id" (.str "") = .str o)
    (htype : Json.get event "event_type" (.str "") = .str r.value)
    (hview : st.ordersReadModel.get? (.str o) = none) :
    (processEvent st event topic now).1.ordersReadModel = st.ordersReadModel := by
  obtain ⟨f, hf, -⟩ := updateOf_result event r
  by_cases ho : o = ""
  · simp [processEvent, hid, ho]
  · simp [processEvent, hid, htype, ho, r.value_ne_created, hf, hview]

/-- **One event**: the statuses of its order take the step of its type, those of the others stay. -/
theorem processEvent_statuses (st : ReadStore) (m : Msg) (now : String) (u : Uuid) :
    (processEvent st m.event m.kind.topic now).1.statusesOf u =
      if m.order = u then viewStep (st.statusesOf u) m.kind else st.statusesOf u := by
  obtain ⟨o, kind, event, htype, hid⟩ := m
  cases kind with
  | orderCreated =>
    rw [statusesOf_set _ _ (processEvent_created o.str_ne_empty hid htype)]
    rfl
  | result r =>
    cases hview : st.ordersReadModel.get? (.str o.str) with
    | none =>
      have habsent := processEvent_absent r.topic now hid htype hview
      have hsame : (processEvent st event r.topic now).1.statusesOf u = st.statusesOf u := by
        unfold ReadStore.statusesOf
        rw [habsent]
      change (processEvent st event r.topic now).1.statusesOf u = _
      rw [hsame]
      split
      · rename_i ho
        subst ho
        simp only [ReadStore.statusesOf, hview]
        rfl
      · rfl
    | some view =>
      obtain ⟨f, hf, hstat⟩ := updateOf_result event r
      have hstep := processEvent_update r.topic now o.str_ne_empty hid htype r.value_ne_created hf hview
      change (processEvent st event r.topic now).1.statusesOf u = _
      rw [statusesOf_set _ _ hstep, hstat]
      split
      · rename_i ho
        subst ho
        simp only [ReadStore.statusesOf, hview]
        rfl
      · rfl

theorem readStore_statuses_from (u : Uuid) : ∀ (ms : List (Msg × String)) (st : ReadStore),
    (ms.foldl (fun st m => (processEvent st m.1.event m.1.kind.topic m.2).1) st).statusesOf u =
      (kindsOf u (ms.map Prod.fst)).foldl viewStep (st.statusesOf u)
  | [], _ => rfl
  | (m, now) :: ms, st => by
    rw [List.foldl_cons, readStore_statuses_from u ms, processEvent_statuses, List.map_cons]
    unfold kindsOf
    by_cases hm : m.order = u
    · rw [if_pos hm, List.filter_cons_of_pos (by simpa using hm), List.map_cons, List.foldl_cons]
    · rw [if_neg hm, List.filter_cons_of_neg (by simpa using hm)]

/-- The results of an order since its ORDER_CREATED, `none` before it. -/
def resultsSince (ks : List EventKind) : Option (List ResultType) :=
  ks.foldl (fun rs k => match k with
    | .orderCreated => some []
    | .result r => rs.map (fun rs => rs ++ [r])) none

theorem resultsSince_concat (ks : List EventKind) (k : EventKind) : resultsSince (ks ++ [k]) = match k with
    | .orderCreated => some []
    | .result r => (resultsSince ks).map (fun rs => rs ++ [r]) := by
  unfold resultsSince
  rw [List.foldl_concat]

theorem foldl_viewStep (ks : List EventKind) : ks.foldl viewStep none = (resultsSince ks).map readFold := by
  induction ks using List.reverseRecOn with
  | nil => rfl
  | append_singleton ks k ih =>
    rw [List.foldl_concat, ih, resultsSince_concat]
    cases k with
    | orderCreated => rfl
    | result r =>
      cases resultsSince ks with
      | none => rfl
      | some rs =>
        change some (readStep (readFold rs) r) = some (readFold (rs ++ [r]))
        rw [readFold_concat]

/-- **The view of an order shows its own results since its ORDER_CREATED**, and there is none before it. -/
theorem readStore_statuses (u : Uuid) (ms : List (Msg × String)) :
    (readStore ms).statusesOf u = (resultsSince (kindsOf u (ms.map Prod.fst))).map readFold := by
  rw [← foldl_viewStep]
  exact readStore_statuses_from u ms {}

theorem resultsSince_eq_none {ks : List EventKind} : resultsSince ks = none ↔ .orderCreated ∉ ks := by
  induction ks using List.reverseRecOn with
  | nil => simp [resultsSince]
  | append_singleton ks k ih =>
    rw [resultsSince_concat]
    cases k with
    | orderCreated => simp
    | result r => simp [ih]

/-! ## What the statuses depend on -/

theorem lastPayment_cases (rs : List ResultType) :
    lastPayment rs = none ∨ lastPayment rs = some .paymentCompleted ∨ lastPayment rs = some .paymentFailed := by
  induction rs using List.reverseRecOn with
  | nil => exact .inl rfl
  | append_singleton rs r ih =>
    rw [lastPayment_concat]
    cases r <;> simp [isPayment, ih]

theorem lastInventory_cases (rs : List ResultType) :
    lastInventory rs = none ∨ lastInventory rs = some .inventoryReserved ∨
      lastInventory rs = some .inventoryFailed := by
  induction rs using List.reverseRecOn with
  | nil => exact .inl rfl
  | append_singleton rs r ih =>
    rw [lastInventory_concat]
    cases r <;> simp [isPayment, ih]

/-- The latest result is the latest of its topic. -/
theorem getLast?_cases (rs : List ResultType) :
    (rs.getLast? = lastPayment rs ∨ rs.getLast? = lastInventory rs) ∧
    (rs.getLast? = none → lastPayment rs = none ∧ lastInventory rs = none) := by
  rcases List.eq_nil_or_concat rs with rfl | ⟨rs, r, rfl⟩
  · exact ⟨.inl rfl, fun _ => ⟨rfl, rfl⟩⟩
  · rw [List.concat_eq_append, List.getLast?_concat, lastPayment_concat, lastInventory_concat]
    refine ⟨?_, fun h => nomatch h⟩
    cases r with
    | paymentCompleted => exact .inl rfl
    | paymentFailed => exact .inl rfl
    | inventoryReserved => exact .inr rfl
    | inventoryFailed => exact .inr rfl

/-- The statuses, from the latest payment result, the latest inventory result and the latest result. -/
def Statuses.ofLast (payment inventory last : Option ResultType) : Statuses where
  payment := match payment with
    | none => .pending
    | some .paymentCompleted => .completed
    | some _ => .failed
  inventory := match inventory with
    | none => .pending
    | some .inventoryReserved => .reserved
    | some _ => .failed
  status := match last with
    | none => .created
    | some .paymentCompleted => if inventory = some .inventoryReserved then .completed else .paymentCompleted
    | some .inventoryReserved => if payment = some .paymentCompleted then .completed else .inventoryReserved
    | some .paymentFailed | some .inventoryFailed => .cancelled

theorem readFold_ofLast (rs : List ResultType) :
    readFold rs = Statuses.ofLast (lastPayment rs) (lastInventory rs) rs.getLast? := by
  induction rs using List.reverseRecOn with
  | nil => rfl
  | append_singleton rs r ih =>
    have hp := readFold_payment rs
    have hi := readFold_inventory rs
    rw [readFold_concat, lastPayment_concat, lastInventory_concat, List.getLast?_concat]
    cases r <;> simp only [readStep, isPayment, Statuses.ofLast, hp, hi, if_true, if_false, Bool.false_eq_true] <;>
      rw [ih] <;> rfl

/-- Just one of the latest payment result and the latest inventory result is a failure. -/
def Mixed (rs : List ResultType) : Prop :=
  (lastPayment rs = some .paymentCompleted ∧ lastInventory rs = some .inventoryFailed) ∨
  (lastPayment rs = some .paymentFailed ∧ lastInventory rs = some .inventoryReserved)

/-- Two orders of an order's results with the same latest payment and inventory results, and the same last one where
just one of these is a failure. -/
def SameEnd (rs rs' : List ResultType) : Prop :=
  lastPayment rs = lastPayment rs' ∧ lastInventory rs = lastInventory rs' ∧ (Mixed rs → rs.getLast? = rs'.getLast?)

theorem readFold_payment_eq_iff (rs rs' : List ResultType) :
    (readFold rs).payment = (readFold rs').payment ↔ lastPayment rs = lastPayment rs' := by
  rw [readFold_ofLast, readFold_ofLast]
  rcases lastPayment_cases rs with h | h | h <;> rcases lastPayment_cases rs' with h' | h' | h' <;>
    simp [Statuses.ofLast, h, h']

theorem readFold_inventory_eq_iff (rs rs' : List ResultType) :
    (readFold rs).inventory = (readFold rs').inventory ↔ lastInventory rs = lastInventory rs' := by
  rw [readFold_ofLast, readFold_ofLast]
  rcases lastInventory_cases rs with h | h | h <;> rcases lastInventory_cases rs' with h' | h' | h' <;>
    simp [Statuses.ofLast, h, h']

/-- Which of the two latest results came last shows in the status just where one of them is a failure. -/
theorem readFold_status_eq_iff {rs rs' : List ResultType} (hpay : lastPayment rs = lastPayment rs')
    (hinv : lastInventory rs = lastInventory rs') :
    (readFold rs).status = (readFold rs').status ↔ (Mixed rs → rs.getLast? = rs'.getLast?) := by
  have hlast := getLast?_cases rs
  have hlast' := getLast?_cases rs'
  have hp := lastPayment_cases rs
  have hi := lastInventory_cases rs
  rw [readFold_ofLast, readFold_ofLast, ← hpay, ← hinv]
  rw [← hpay, ← hinv] at hlast'
  unfold Mixed
  generalize lastPayment rs = payment at *
  generalize lastInventory rs = inventory at *
  generalize rs.getLast? = last at *
  generalize rs'.getLast? = last' at *
  clear hpay hinv
  obtain ⟨hlast, hnone⟩ := hlast
  obtain ⟨hlast', hnone'⟩ := hlast'
  -- a latest result is one of three for each topic; the last one is the latest of a topic that has one
  rcases hp with rfl | rfl | rfl <;> rcases hi with rfl | rfl | rfl <;> rcases hlast with rfl | rfl <;>
    rcases hlast' with rfl | rfl <;> revert hnone hnone' <;> decide

/-- **Two orders of an order's results end in the same statuses exactly when they have the same end.** -/
theorem readFold_eq_iff (rs rs' : List ResultType) : readFold rs = readFold rs' ↔ SameEnd rs rs' := by
  unfold SameEnd
  rw [← readFold_payment_eq_iff, ← readFold_inventory_eq_iff]
  constructor
  · intro h
    refine ⟨by rw [h], by rw [h], ?_⟩
    rw [← readFold_status_eq_iff ((readFold_payment_eq_iff ..).1 (by rw [h]))
      ((readFold_inventory_eq_iff ..).1 (by rw [h])), h]
  · rintro ⟨hpay, hinv, hlast⟩
    have hstatus := (readFold_status_eq_iff ((readFold_payment_eq_iff ..).1 hpay)
      ((readFold_inventory_eq_iff ..).1 hinv)).2 hlast
    generalize readFold rs = v at hpay hinv hstatus
    generalize readFold rs' = v' at hpay hinv hstatus
    cases v
    cases v'
    cases hpay
    cases hinv
    cases hstatus
    rfl

/-! ## Two interleavings -/

/-- Two interleavings of the topics' events that keep, for each order, the order of each topic's events; every order is
created once at most. -/
structure Interleavings where
  first : List (Msg × String)
  second : List (Msg × String)
  once : ∀ u, ((kindsOf u (first.map Prod.fst)).filter (fun k => k = .orderCreated)).length ≤ 1
  sameOrder : ∀ u topic, (first.map Prod.fst).filter (fun m => m.order = u ∧ m.kind.topic = topic) =
    (second.map Prod.fst).filter (fun m => m.order = u ∧ m.kind.topic = topic)

theorem EventKind.topic_eq_created {k : EventKind} : k.topic = "order.created" ↔ k = .orderCreated := by
  cases k with
  | orderCreated => exact iff_of_true rfl rfl
  | result r => cases r <;> exact iff_of_false (by decide) (by decide)

theorem mem_kindsOf_created {u : Uuid} {ms : List Msg} : .orderCreated ∈ kindsOf u ms ↔
    ms.filter (fun m => m.order = u ∧ m.kind.topic = "order.created") ≠ [] := by
  unfold kindsOf
  rw [List.mem_map]
  constructor
  · rintro ⟨m, hm, hk⟩
    obtain ⟨hm, hu⟩ := List.mem_filter.1 hm
    refine List.ne_nil_of_mem (a := m) (List.mem_filter.2 ⟨hm, decide_eq_true ⟨of_decide_eq_true hu, ?_⟩⟩)
    exact EventKind.topic_eq_created.2 hk
  · intro hne
    obtain ⟨m, hm⟩ := List.exists_mem_of_ne_nil _ hne
    obtain ⟨hm, hcond⟩ := List.mem_filter.1 hm
    obtain ⟨hu, htopic⟩ := of_decide_eq_true hcond
    exact ⟨m, List.mem_filter.2 ⟨hm, decide_eq_true hu⟩, EventKind.topic_eq_created.1 htopic⟩

namespace Interleavings

variable (x : Interleavings)

/-- `process_event` gives every order the same statuses over both. -/
def Agree : Prop := ∀ u, (readStore x.first).statusesOf u = (readStore x.second).statusesOf u

/-- The results of an order since its ORDER_CREATED in the first interleaving, and in the second. -/
def results (u : Uuid) : Option (List ResultType) × Option (List ResultType) :=
  (resultsSince (kindsOf u (x.first.map Prod.fst)), resultsSince (kindsOf u (x.second.map Prod.fst)))

/-- An order is created in both, or in none. -/
theorem results_cases (u : Uuid) : (x.results u = (none, none)) ∨ ∃ rs rs', x.results u = (some rs, some rs') := by
  have hcreated : .orderCreated ∈ kindsOf u (x.first.map Prod.fst) ↔
      .orderCreated ∈ kindsOf u (x.second.map Prod.fst) := by
    rw [mem_kindsOf_created, mem_kindsOf_created, x.sameOrder]
  unfold results
  cases h : resultsSince (kindsOf u (x.first.map Prod.fst)) with
  | none =>
    rw [resultsSince_eq_none] at h
    exact .inl (by rw [resultsSince_eq_none.2 fun h' => h (hcreated.2 h')])
  | some rs =>
    cases h' : resultsSince (kindsOf u (x.second.map Prod.fst)) with
    | none =>
      rw [resultsSince_eq_none, ← hcreated, ← resultsSince_eq_none, h] at h'
      cases h'
    | some rs' => exact .inr ⟨rs, rs', rfl⟩

/-- **The read model is the same after both interleavings exactly when the results that follow each order's
ORDER_CREATED have the same end in both.** -/
theorem order_independent_iff :
    x.Agree ↔ ∀ u rs rs', x.results u = (some rs, some rs') → SameEnd rs rs' := by
  have hone : ∀ u, (readStore x.first).statusesOf u = (readStore x.second).statusesOf u ↔
      ∀ rs rs', x.results u = (some rs, some rs') → SameEnd rs rs' := fun u => by
    rw [readStore_statuses, readStore_statuses]
    rcases x.results_cases u with h | ⟨rs, rs', h⟩
    · obtain ⟨h1, h2⟩ := Prod.mk.inj h
      rw [h1, h2]
      refine iff_of_true rfl fun rs rs' hsome => ?_
      rw [h] at hsome
      cases hsome
    · obtain ⟨h1, h2⟩ := Prod.mk.inj h
      rw [h1, h2, Option.map_some, Option.map_some, Option.some.injEq, readFold_eq_iff]
      constructor
      · intro hend rs1 rs1' hsome
        rw [h] at hsome
        cases hsome
        exact hend
      · exact fun hall => hall rs rs' h
  exact forall_congr' hone

end Interleavings

def shuffledOrder : Uuid := ⟨"d4e8b2a7-0c61-4f39-8a5d-3b9f1c7e6d20", by decide⟩

/-- An event of the order with no further members. -/
def shuffledMsg (kind : EventKind) : Msg where
  order := shuffledOrder
  kind := kind
  event := [("event_type", .str kind.value), ("order_id", .str shuffledOrder.str)]
  type_eq := rfl
  order_eq := rfl

/-- The payment completes and the inventory fails, in this order and in the other. -/
def failedLastOrFirst : Interleavings where
  first := [(shuffledMsg .orderCreated, "2025-01-01T00:00:01"),
    (shuffledMsg (.result .paymentCompleted), "2025-01-01T00:00:02"),
    (shuffledMsg (.result .inventoryFailed), "2025-01-01T00:00:03")]
  second := [(shuffledMsg .orderCreated, "2025-01-01T00:00:01"),
    (shuffledMsg (.result .inventoryFailed), "2025-01-01T00:00:02"),
    (shuffledMsg (.result .paymentCompleted), "2025-01-01T00:00:03")]
  once u := by
    by_cases hu : shuffledOrder = u <;> simp [kindsOf, shuffledMsg, hu]
  sameOrder u topic := by
    by_cases htopic : topic = "payment.result"
    · simp [shuffledMsg, EventKind.topic, ResultType.topic, List.filter_cons, htopic]
    · have hpay : ¬ (shuffledOrder = u ∧ "payment.result" = topic) := fun h => htopic h.2.symm
      simp [shuffledMsg, EventKind.topic, ResultType.topic, List.filter_cons, hpay]

theorem failedLastOrFirst_results : failedLastOrFirst.results shuffledOrder =
    (some [.paymentCompleted, .inventoryFailed], some [.inventoryFailed, .paymentCompleted]) := by decide

/-- CANCELLED after the one, PAYMENT_COMPLETED after the other. -/
theorem failedLastOrFirst_not_agree : ¬ failedLastOrFirst.Agree := by
  intro h
  have hstatuses := h shuffledOrder
  obtain ⟨h1, h2⟩ := Prod.mk.inj failedLastOrFirst_results
  rw [readStore_statuses, readStore_statuses, h1, h2] at hstatuses
  exact absurd hstatuses (by decide)

end Cqrs
end KafkaGuide
