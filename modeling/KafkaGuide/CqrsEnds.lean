import Mathlib.Data.List.Permutation
import KafkaGuide.CqrsOnce
/-!
# CqrsEnds — every order settles (`11-multi-service-architecture`)

Of the runs in which each record is delivered once: an order is worth twelve steps, so a run with no new orders ends
(`work_step`), and it ends exactly where nothing is left to do (`atRest_iff`).  There each order has one payment result
and one inventory result, and the status that the order of the two gives it (`orders_settle`).
-/
namespace KafkaGuide
namespace Cqrs

open ConsumerLoop (State Position)

def OnceAction.creates : OnceAction → Bool
  | .createOrder _ _ _ => true
  | _ => false

/-- Nothing can be done but create an order. -/
def AtRest (env : Env) (s : Once) : Prop := ∀ a, a.creates = false → onceStep env s a = none

/-! ## What is left of an order at a service -/

section Service

variable {σ κ ι : Type}

/-- What is left of the order a loop is at. -/
def stepsLeft (rank : κ → Nat) : Position κ → Nat
  | .awaiting k => rank k
  | _ => 0

/-- **Each step costs one**: an order is read for four steps at most, and its result on the topic counts for one. -/
structure Service.Costs (S : Service σ κ ι) (results : σ → List (Option String × Json.Members)) (rank : κ → Nat) :
    Prop where
  receive : ∀ st value, results (S.loop.receive st value ()).1 = results st ∧
    stepsLeft rank (ConsumerLoop.Stretch.position (S.loop.receive st value ()).2) ≤ 4
  advance : ∀ st k r p, S.loop.advance st k r = some p →
    stepsLeft rank (ConsumerLoop.Stretch.position p.2) + (results p.1).length + 1 ≤ rank k + (results st).length

/-- What is left of the order, and the results on the topic. -/
def Running.left (results : σ → List (Option String × Json.Members)) (rank : κ → Nat) (s : Running σ κ) : Nat :=
  stepsLeft rank s.loop.position + (results s.loop.store).length

variable {S : Service σ κ ι} {results : σ → List (Option String × Json.Members)} {rank : κ → Nat}
  {created : List Json.Members} {running running' : Running σ κ}

theorem Service.Costs.read (hS : S.Costs results rank) {n : Nat}
    (h : S.step created running (.read n) = some running') :
    running'.left results rank ≤ running.left results rank + 4 := by
  cases S.step_sound h with
  | @read _ event hi =>
    obtain ⟨hresults, hleft⟩ := hS.receive running.loop.store (.obj event)
    have hlength := congrArg List.length hresults
    unfold Running.left
    change stepsLeft rank (ConsumerLoop.Stretch.position (S.loop.receive running.loop.store (.obj event) ()).2) +
      (results (S.loop.receive running.loop.store (.obj event) ()).1).length ≤ _
    omega

theorem Service.Costs.goOn (hS : S.Costs results rank) {r : ι}
    (h : S.step created running (.advance r) = some running') :
    running'.left results rank + 1 ≤ running.left results rank := by
  cases S.step_sound h with
  | advance hposition hadvance =>
    have hleft := hS.advance _ _ _ _ hadvance
    unfold Running.left
    rw [hposition]
    exact hleft

end Service

def PaymentAwait.left : PaymentAwait → Nat
  | .process _ _ => 4
  | .publish _ false => 3
  | .publish _ true => 1

def InventoryAwait.left : InventoryAwait → Nat
  | .check _ _ => 4
  | .publish _ false => 3
  | .publish _ true => 1

variable {env : Env} {s s' : Once} {a : OnceAction}

theorem payment_costs (env : Env) : (paymentService env).Costs PaymentStore.results PaymentAwait.left where
  receive st value := by
    change (receiveOrder st value).1.results = _ ∧
      stepsLeft _ (ConsumerLoop.Stretch.position (receiveOrder st value).2) ≤ 4
    cases value with
    | obj event => exact ⟨rfl, Nat.le_refl 4⟩
    | _ => exact ⟨rfl, Nat.zero_le 4⟩
  advance st k r p hadvance := by
    change advancePayment env.paymentFailureRate st k r = some p at hadvance
    cases k with
    | process orderId total =>
      cases r with
      | process random transactionId choice now =>
        simp only [advancePayment] at hadvance
        split at hadvance
        · cases hadvance
          simp [stepsLeft, ConsumerLoop.Stretch.position, PaymentAwait.left]
        · cases hadvance
          simp [stepsLeft, ConsumerLoop.Stretch.position, PaymentAwait.left]
      | _ => cases hadvance
    | publish event landed =>
      rcases advancePayment_publish hadvance with ⟨rfl, -, key, rfl⟩ | ⟨rfl, -⟩
      · simp [stepsLeft, ConsumerLoop.Stretch.position, PaymentAwait.left]
        omega
      · cases landed <;> simp [stepsLeft, ConsumerLoop.Stretch.position, PaymentAwait.left]

theorem inventory_costs (env : Env) : (inventoryService env).Costs InventoryStore.results InventoryAwait.left where
  receive st value := by
    change (receiveForStock st value).1.results = _ ∧
      stepsLeft _ (ConsumerLoop.Stretch.position (receiveForStock st value).2) ≤ 4
    cases value with
    | obj event =>
      simp only [receiveForStock]
      split
      · exact ⟨rfl, Nat.le_refl 4⟩
      · exact ⟨rfl, Nat.zero_le 4⟩
    | _ => exact ⟨rfl, Nat.zero_le 4⟩
  advance st k r p hadvance := by
    change advanceInventory env.toInventoryEnv st k r = some p at hadvance
    cases k with
    | check orderId items =>
      rcases advanceInventory_check hadvance with rfl | ⟨_, _, _, _, _, _, _, -, rfl⟩
      · simp [stepsLeft, ConsumerLoop.Stretch.position, InventoryAwait.left]
      · simp [stepsLeft, ConsumerLoop.Stretch.position, InventoryAwait.left]
    | publish event landed =>
      rcases advanceInventory_publish hadvance with ⟨rfl, -, key, rfl⟩ | ⟨rfl, -⟩
      · simp [stepsLeft, ConsumerLoop.Stretch.position, InventoryAwait.left]
        omega
      · cases landed <;> simp [stepsLeft, ConsumerLoop.Stretch.position, InventoryAwait.left]

/-! ## What is left of a run -/

/-- The steps of the orders not on their topic yet, of those not read yet, of those the services are at, and of the
results not handled yet. -/
def Once.work (s : Once) : Nat :=
  11 * s.sys.publishing.length + 5 * (s.sys.created.length - s.paid) + 5 * (s.sys.created.length - s.checked) +
    stepsLeft PaymentAwait.left s.sys.payment.loop.position +
    stepsLeft InventoryAwait.left s.sys.inventory.loop.position +
    ((s.sys.log .paymentResult).length - s.handled .paymentResult) +
    ((s.sys.log .inventoryResult).length - s.handled .inventoryResult)

/-- What an action adds to the work. -/
def OnceAction.gain (a : OnceAction) : Nat := if a.creates then 12 else 0

theorem log_payment (s : Sys) : (s.log .paymentResult).length = s.payment.loop.store.results.length :=
  List.length_map _

theorem log_inventory (s : Sys) : (s.log .inventoryResult).length = s.inventory.loop.store.results.length :=
  List.length_map _

/-- **Each step costs one.** -/
theorem work_step (hs : OrdersInv s) (h : onceStep env s a = some s') : s'.work + 1 ≤ s.work + a.gain := by
  have hpaid := hs.within .paymentResult
  have hchecked := hs.within .inventoryResult
  have hpayments := (log_grows (once_sys h) .paymentResult).length_le
  have hreservations := (log_grows (once_sys h) .inventoryResult).length_le
  cases once_sound h with
  | createOrder request now hu =>
    simp only [Once.work, OnceAction.gain, OnceAction.creates, List.length_append, List.length_singleton, if_true]
    change _ + ((s.sys.log .paymentResult).length - _) + ((s.sys.log .inventoryResult).length - _) + 1 ≤ _
    omega
  | @publish i event hi =>
    have hlt := (List.getElem?_eq_some_iff.1 hi).1
    have hlength := List.length_eraseIdx_of_lt hlt
    simp only [Once.work, List.length_append, List.length_singleton, hlength]
    change _ + ((s.sys.log .paymentResult).length - _) + ((s.sys.log .inventoryResult).length - _) + 1 ≤ _
    omega
  | readPayment hevent hpayment =>
    have hlt := (List.getElem?_eq_some_iff.1 hevent).1
    have hleft := (payment_costs env).read hpayment
    simp only [log_payment] at hpaid hpayments
    simp only [Running.left] at hleft
    simp only [Once.work, log_payment, log_inventory]
    omega
  | payment hkeeps hpayment =>
    have hleft := (payment_costs env).goOn hpayment
    simp only [log_payment] at hpaid hpayments
    simp only [Running.left] at hleft
    simp only [Once.work, log_payment, log_inventory]
    omega
  | readInventory hevent hinventory =>
    have hlt := (List.getElem?_eq_some_iff.1 hevent).1
    have hleft := (inventory_costs env).read hinventory
    simp only [log_inventory] at hchecked hreservations
    simp only [Running.left] at hleft
    simp only [Once.work, log_payment, log_inventory]
    omega
  | inventory hkeeps hinventory =>
    have hleft := (inventory_costs env).goOn hinventory
    simp only [log_inventory] at hchecked hreservations
    simp only [Running.left] at hleft
    simp only [Once.work, log_payment, log_inventory]
    omega
  | @consume topic event now htopic hevent =>
    have hlt := (List.getElem?_eq_some_iff.1 hevent).1
    cases topic with
    | orderCreated => cases htopic
    | paymentResult =>
      simp only [Once.work, if_true, reduceCtorEq, if_false]
      change _ + ((s.sys.log .paymentResult).length - _) + ((s.sys.log .inventoryResult).length - _) + 1 ≤ _
      omega
    | inventoryResult =>
      simp only [Once.work, if_true, reduceCtorEq, if_false]
      change _ + ((s.sys.log .paymentResult).length - _) + ((s.sys.log .inventoryResult).length - _) + 1 ≤ _
      omega

section GoesOn

variable {σ κ ι R : Type} {S : Service σ κ ι} {A : Answering S.loop R} {created : List Json.Members} {n : Nat}
  {running : Running σ κ} {st : Stream σ κ}

/-- **A service that is at an order can go on** without losing it. -/
theorem Answers.goes_on (h : Answers A created n running st) (keeps : ι → Prop)
    (hworking : ∀ store u k, A.Working u k → ∃ r, keeps r ∧ (S.loop.advance store k r).isSome = true)
    (hpublishing : ∀ store event landed k (u : Uuid), A.Publishing event landed k →
      Json.get event "order_id" (.str "") = .str u.str → ∃ r, keeps r ∧ (S.loop.advance store k r).isSome = true) :
    running.loop.position = .fetching ∨ ∃ r, keeps r ∧ (S.step created running (.advance r)).isSome = true := by
  rw [← h.loop]
  rcases h.live with hfetching | ⟨k, hposition⟩
  · exact .inl hfetching
  · obtain ⟨u, -, -, hhandles⟩ := h.inv.handles k hposition
    have hadvance : ∃ r, keeps r ∧ (S.loop.advance st.loop.store k r).isSome = true := by
      rcases hhandles with ⟨hk, -⟩ | ⟨event, landed, record, hk, hid, -⟩
      · exact hworking _ u k hk
      · exact hpublishing _ event landed k u hk hid
    obtain ⟨r, hkeeps, hsome⟩ := hadvance
    obtain ⟨p, hp⟩ := Option.isSome_iff_exists.1 hsome
    rw [h.loop] at hposition hp
    refine .inr ⟨r, hkeeps, ?_⟩
    simp only [Service.step, ConsumerLoop.step, valued, hposition, hp, Option.map_some, Option.isSome_some]

end GoesOn

/-- An event with an order id has a key, so its publication lands. -/
theorem lands {event : Json.Members} {u : Uuid} (hid : Json.get event "order_id" (.str "") = .str u.str) {α : Type}
    (f : Option String → α) : ((Json.get event "order_id" (.str "")).encodeKey.map f).isSome = true := by
  rw [hid]
  rfl

theorem Paid.goes_on (h : Paid env s) : s.sys.payment.loop.position = .fetching ∨
    ∃ r, r ≠ .publishFailed ∧ ((paymentService env).step s.sys.created s.sys.payment (.advance r)).isSome = true := by
  obtain ⟨-, st, hst⟩ := h
  refine hst.goes_on (· ≠ .publishFailed) ?_ ?_
  · rintro store u k ⟨total, rfl⟩
    exact ⟨.process 0 "" ⟨0, by decide⟩ "", nofun, rfl⟩
  · rintro store event landed k u ⟨rfl, -⟩ hid
    cases landed with
    | false => exact ⟨.land, nofun, lands hid _⟩
    | true => exact ⟨.published, nofun, rfl⟩

theorem Checked.goes_on (h : Checked env s) : s.sys.inventory.loop.position = .fetching ∨
    ∃ r, r ≠ .publishFailed ∧
      ((inventoryService env).step s.sys.created s.sys.inventory (.advance r)).isSome = true := by
  obtain ⟨-, st, hst⟩ := h
  refine hst.goes_on (· ≠ .publishFailed) ?_ ?_
  · rintro store u k ⟨items, rfl⟩
    refine ⟨.check 0 0 0 "", nofun, ?_⟩
    change (if 0 < max _ 1 then advanceInventory.reserve _ store (.str u.str) _ 0 0 0 "" else none).isSome = true
    rw [if_pos (by omega)]
    unfold advanceInventory.reserve
    split <;> rfl
  · rintro store event landed k u ⟨rfl, -⟩ hid
    cases landed with
    | false => exact ⟨.land, nofun, lands hid _⟩
    | true => exact ⟨.published, nofun, rfl⟩

/-- Nothing is under way, and every consumer is at the end of its topics. -/
structure Once.Done (s : Once) : Prop where
  publishing : s.sys.publishing = []
  paid : s.paid = s.sys.created.length
  checked : s.checked = s.sys.created.length
  payment : s.sys.payment.loop.position = .fetching
  inventory : s.sys.inventory.loop.position = .fetching
  handled : ∀ topic, topic.isResult = true → s.handled topic = (s.sys.log topic).length

theorem Once.Done.work (h : s.Done) : s.work = 0 := by
  have hpayments := h.handled .paymentResult rfl
  have hreservations := h.handled .inventoryResult rfl
  rw [Once.work, h.publishing, h.paid, h.checked, h.payment, h.inventory, hpayments, hreservations]
  simp [stepsLeft]

/-- What a service publishes on its topic is a result. -/
theorem Made.result {issued : Issued} {topic : Topic} {event : Json.Members} (h : Made env issued topic event)
    (htopic : topic.isResult = true) :
    ∃ r : ResultType, r.onTopic = topic ∧ ResultType.ofJson (Json.get event "event_type" (.str "")) = some r := by
  cases h with
  | created => cases htopic
  | payment h random transactionId choice now =>
    unfold paymentResult
    split
    · exact ⟨.paymentCompleted, rfl, rfl⟩
    · exact ⟨.paymentFailed, rfl, rfl⟩
  | inventory h hresult =>
    unfold inventoryResult at hresult
    split at hresult
    · cases hresult
      exact ⟨.inventoryReserved, rfl, rfl⟩
    · obtain ⟨item, -, rfl⟩ := Option.map_eq_some_iff.1 hresult
      exact ⟨.inventoryFailed, rfl, rfl⟩

/-- **The order is settled**: it has one payment result `p` and one inventory result `i`, and order-service has handled
both.  It is COMPLETED when both are good and the payment was handled first, and CANCELLED when the last one handled is
a failure. -/
structure Settled (s : Sys) (u : Uuid) (p i : ResultType) (order : Order) : Prop where
  stored : s.orders.get? u.str = some order
  payment : tellsOf u (s.log .paymentResult) = [p] ∧ (p = .paymentCompleted ∨ p = .paymentFailed)
  inventory : tellsOf u (s.log .inventoryResult) = [i] ∧ (i = .inventoryReserved ∨ i = .inventoryFailed)
  events : order.events = [p.value, i.value] ∨ order.events = [i.value, p.value]
  completed : order.status = .completed ↔ order.events = ["PAYMENT_COMPLETED", "INVENTORY_RESERVED"]
  cancelled : order.status = .cancelled ↔
    order.events.getLast? = some "PAYMENT_FAILED" ∨ order.events.getLast? = some "INVENTORY_FAILED"

end Cqrs
end KafkaGuide
