import KafkaGuide.CqrsSettled
/-!
# CqrsOnce — each record delivered once (`11-multi-service-architecture`)

The runs in which every publication goes well, no service stops, and each consumer goes through its topics from their
start: payment-service and inventory-service through `order.created`, order-service through the two topics of results.
Each step is one of the services (`once_sys`); the two services answer each order they are past once (`Answers`), and
order-service has, of each order, the results it has been through (`Handled`).
-/
namespace KafkaGuide
namespace Cqrs

open ConsumerLoop (State Position)

deriving instance DecidableEq for Topic

/-- The services, and how far each consumer is. -/
structure Once where
  sys : Sys := {}
  paid : Nat := 0
  checked : Nat := 0
  handled : Topic → Nat := fun _ => 0

inductive OnceAction where
  | createOrder (u : Uuid) (request : CreateOrderRequest) (now : String)
  | publish (i : Nat)
  | readPayment
  | payment (r : PaymentReturn)
  | readInventory
  | inventory (r : InventoryReturn)
  | consume (topic : Topic) (now : String)

/-- What the services do. -/
def OnceAction.event (s : Once) : OnceAction → Action
  | .createOrder u request now => .createOrder u request now
  | .publish i => .publish i
  | .readPayment => .payment (.read s.paid)
  | .payment r => .payment (.advance r)
  | .readInventory => .inventory (.read s.checked)
  | .inventory r => .inventory (.advance r)
  | .consume topic now => .consume topic (s.handled topic) now

def OnceAction.moved (s : Once) (sys : Sys) : OnceAction → Once
  | .readPayment => { s with sys, paid := s.paid + 1 }
  | .readInventory => { s with sys, checked := s.checked + 1 }
  | .consume topic _ => { s with sys, handled := fun t => if t = topic then s.handled topic + 1 else s.handled t }
  | _ => { s with sys }

/-- A publication of a result raises. -/
def OnceAction.fails : OnceAction → Bool
  | .payment .publishFailed => true
  | .inventory .publishFailed => true
  | _ => false

def onceStep (env : Env) (s : Once) (a : OnceAction) : Option Once :=
  if a.fails then none else (step env s.sys (a.event s)).map (a.moved s)

variable {env : Env} {s s' : Once} {a : OnceAction}

theorem onceStep_eq (h : onceStep env s a = some s') :
    a.fails = false ∧ ∃ sys, step env s.sys (a.event s) = some sys ∧ s' = a.moved s sys := by
  unfold onceStep at h
  split at h
  · cases h
  · rename_i hfails
    obtain ⟨sys, hsys, rfl⟩ := Option.map_eq_some_iff.1 h
    exact ⟨Bool.eq_false_iff.2 hfails, sys, hsys, rfl⟩

theorem moved_sys (s : Once) (sys : Sys) (a : OnceAction) : (a.moved s sys).sys = sys := by
  cases a <;> rfl

/-- **A step is one of the services.** -/
theorem once_sys (h : onceStep env s a = some s') : step env s.sys (a.event s) = some s'.sys := by
  obtain ⟨-, sys, hsys, rfl⟩ := onceStep_eq h
  rw [moved_sys]
  exact hsys

/-- What a step can do. -/
inductive OnceStep (env : Env) (s : Once) : OnceAction → Once → Prop
  | createOrder {u : Uuid} (request : CreateOrderRequest) (now : String) (hu : u ∉ s.sys.issued.map Prod.fst) :
    OnceStep env s (.createOrder u request now) { s with sys := { s.sys with
      orders := (createOrder s.sys.orders u request now).1
      publishing := s.sys.publishing ++ [(createOrder s.sys.orders u request now).2]
      issued := s.sys.issued ++ [(u, request)] } }
  | publish {i : Nat} {event : Json.Members} (hi : s.sys.publishing[i]? = some event) :
    OnceStep env s (.publish i) { s with sys := { s.sys with
      publishing := s.sys.publishing.eraseIdx i
      created := s.sys.created ++ [event] } }
  | readPayment {event : Json.Members} {payment : Running PaymentStore PaymentAwait}
    (hevent : s.sys.created[s.paid]? = some event)
    (h : (paymentService env).step s.sys.created s.sys.payment (.read s.paid) = some payment) :
    OnceStep env s .readPayment { s with sys := { s.sys with payment }, paid := s.paid + 1 }
  | payment {r : PaymentReturn} {payment : Running PaymentStore PaymentAwait} (hkeeps : r ≠ .publishFailed)
    (h : (paymentService env).step s.sys.created s.sys.payment (.advance r) = some payment) :
    OnceStep env s (.payment r) { s with sys := { s.sys with payment } }
  | readInventory {event : Json.Members} {inventory : Running InventoryStore InventoryAwait}
    (hevent : s.sys.created[s.checked]? = some event)
    (h : (inventoryService env).step s.sys.created s.sys.inventory (.read s.checked) = some inventory) :
    OnceStep env s .readInventory { s with sys := { s.sys with inventory }, checked := s.checked + 1 }
  | inventory {r : InventoryReturn} {inventory : Running InventoryStore InventoryAwait} (hkeeps : r ≠ .publishFailed)
    (h : (inventoryService env).step s.sys.created s.sys.inventory (.advance r) = some inventory) :
    OnceStep env s (.inventory r) { s with sys := { s.sys with inventory } }
  | consume {topic : Topic} {event : Json.Members} (now : String) (htopic : topic.isResult = true)
    (hevent : (s.sys.log topic)[s.handled topic]? = some event) :
    OnceStep env s (.consume topic now) { s with
      sys := { s.sys with orders := consume s.sys.orders (.obj event) now }
      handled := fun t => if t = topic then s.handled topic + 1 else s.handled t }

/-- A service reads what is there. -/
theorem read_some {σ κ ι : Type} {S : Service σ κ ι} {created : List Json.Members} {running running' : Running σ κ}
    {n : Nat} (h : S.step created running (.read n) = some running') : ∃ event, created[n]? = some event := by
  cases hevent : created[n]? with
  | none =>
    simp only [Service.step, hevent] at h
    cases h
  | some event => exact ⟨event, rfl⟩

theorem once_sound (h : onceStep env s a = some s') : OnceStep env s a s' := by
  obtain ⟨hfails, sys, hsys, rfl⟩ := onceStep_eq h
  cases a with
  | createOrder u request now =>
    simp only [OnceAction.event, step] at hsys
    split at hsys
    · cases hsys
    · rename_i hu
      cases hsys
      exact .createOrder request now hu
  | publish i =>
    simp only [OnceAction.event, step] at hsys
    split at hsys
    · rename_i hi
      cases hsys
      exact .publish hi
    · cases hsys
  | readPayment =>
    obtain ⟨payment, hpayment, rfl⟩ := Option.map_eq_some_iff.1 hsys
    exact .readPayment (read_some hpayment).choose_spec hpayment
  | payment r =>
    obtain ⟨payment, hpayment, rfl⟩ := Option.map_eq_some_iff.1 hsys
    refine .payment (fun hr => ?_) hpayment
    rw [hr] at hfails
    cases hfails
  | readInventory =>
    obtain ⟨inventory, hinventory, rfl⟩ := Option.map_eq_some_iff.1 hsys
    exact .readInventory (read_some hinventory).choose_spec hinventory
  | inventory r =>
    obtain ⟨inventory, hinventory, rfl⟩ := Option.map_eq_some_iff.1 hsys
    refine .inventory (fun hr => ?_) hinventory
    rw [hr] at hfails
    cases hfails
  | consume topic now =>
    simp only [OnceAction.event, step] at hsys
    split at hsys
    · rename_i htopic hevent
      cases hsys
      exact .consume now htopic hevent
    · cases hsys

/-! ## A service answers what it has read -/

section Answers

variable {σ κ ι R : Type} {S : Service σ κ ι} (A : Answering S.loop R)

/-- The order an event is of. -/
def idOf (event : Json.Members) : Json := Json.get event "order_id" (.str "")

/-- **The service has answered once each order it is past**, of those it has read: the first `n` of the topic. -/
structure Answers (created : List Json.Members) (n : Nat) (running : Running σ κ) (st : Stream σ κ) : Prop where
  loop : st.loop = running.loop
  inv : A.Inv st
  answered : A.Answered st
  given : st.given.map (fun u => Json.str u.str) = (created.take n).map idOf
  live : st.loop.position = .fetching ∨ ∃ k, st.loop.position = .awaiting k

variable {A} {created : List Json.Members} {n : Nat} {running running' : Running σ κ} {st : Stream σ κ}

theorem Answers.grown (h : Answers A created n running st) (hn : n ≤ created.length) (event : Json.Members) :
    Answers A (created ++ [event]) n running st := by
  refine ⟨h.loop, h.inv, h.answered, ?_, h.live⟩
  rw [List.take_append_of_le_length hn]
  exact h.given

/-- **An order is read**, which was not read before. -/
theorem Answers.read (h : Answers A created n running st) {u : Uuid} {request : CreateOrderRequest} {now : String}
    (hn : created[n]? = some (createOrder .empty u request now).2) (hnodup : (created.map idOf).Nodup)
    (hstep : S.step created running (.read n) = some running') : ∃ st', Answers A created (n + 1) running' st' := by
  have htake : created.take (n + 1) = created.take n ++ [(createOrder .empty u request now).2] := by
    rw [List.take_add_one, hn]
    rfl
  have hid : idOf (createOrder .empty u request now).2 = .str u.str := created_orderId u request now
  have hnew : u ∉ st.given := by
    intro hmem
    have hsub : ((created.take (n + 1)).map idOf).Nodup := hnodup.sublist ((List.take_sublist _ _).map _)
    rw [htake, List.map_append, List.map_cons, List.map_nil, hid, ← h.given] at hsub
    exact List.disjoint_of_nodup_append hsub (List.mem_map_of_mem hmem) (List.mem_singleton.2 rfl)
  simp only [Service.step, hn] at hstep
  obtain ⟨loop, hloop, rfl⟩ := Option.map_eq_some_iff.1 hstep
  have hgive : (stream S.loop).step st (.give u request now ()) = some (st.moved (st.given ++ [u]) loop) := by
    change (if u ∈ st.given then none else _) = _
    rw [if_neg hnew, h.loop]
    exact congrArg (Option.map _) hloop
  obtain ⟨hinv, hanswered⟩ := A.good_step st _ _ h.inv hgive
  refine ⟨st.moved (st.given ++ [u]) loop, rfl, hinv, (hanswered h.answered).2 ?_, ?_, ?_⟩
  · rintro ⟨k, i, he, -⟩
    cases he
  · change (st.given ++ [u]).map _ = _
    rw [htake, List.map_append, List.map_append, h.given, List.map_cons, List.map_cons, hid]
    rfl
  · obtain ⟨k, hreceive, -⟩ := A.receive running.loop.store u request now ()
    cases ConsumerLoop.step_sound hloop with
    | undecoded r hposition hdecode => cases hdecode
    | receive r hposition hdecode =>
      cases hdecode
      refine .inr ⟨k, ?_⟩
      change (ConsumerLoop.after (S.loop.receive running.loop.store (createdValue u request now) ())).position = _
      rw [hreceive]
      rfl

/-- **The service goes on** from an await, and loses nothing. -/
theorem Answers.advance (h : Answers A created n running st) {r : ι} (hkeeps : ∀ k, ¬ A.Loses k r)
    (hstep : S.step created running (.advance r) = some running') : ∃ st', Answers A created n running' st' := by
  obtain ⟨loop, hloop, rfl⟩ := Option.map_eq_some_iff.1 hstep
  have hadvance : (stream S.loop).step st (.advance r) = some (st.moved st.given loop) := by
    change Option.map _ _ = _
    rw [h.loop]
    exact congrArg (Option.map _) hloop
  obtain ⟨hinv, hanswered⟩ := A.good_step st _ _ h.inv hadvance
  refine ⟨st.moved st.given loop, rfl, hinv, (hanswered h.answered).2 ?_, h.given, ?_⟩
  · rintro ⟨k, i, he, -, hloses⟩
    cases he
    exact hkeeps k hloses
  · cases ConsumerLoop.step_sound hloop with
    | @advance k i p hposition hstretches =>
      rw [← h.loop] at hposition
      obtain ⟨u, -, -, ⟨hworking, -⟩ | ⟨event, landed, record, hpublishing, -⟩⟩ := h.inv.handles k hposition
      · obtain ⟨-, event, k', record, hstretch, -⟩ := A.work hworking hstretches
        refine .inr ⟨k', ?_⟩
        change ConsumerLoop.Stretch.position p.2 = _
        rw [hstretch]
        rfl
      · obtain ⟨-, ⟨-, -, key, k', hstretch, -⟩ | ⟨hstretch, -⟩⟩ := A.publish hpublishing hstretches
        · refine .inr ⟨k', ?_⟩
          change ConsumerLoop.Stretch.position p.2 = _
          rw [hstretch]
          rfl
        · refine .inl ?_
          change ConsumerLoop.Stretch.position p.2 = _
          rw [hstretch]
          rfl

end Answers

/-! ## The topic of orders -/

/-- The events of the orders, published or on their way, are those of the issued ones, each once. -/
def EachOnce (s : Sys) : Prop :=
  ((s.publishing ++ s.created).map idOf).Perm (s.issued.map fun x => Json.str x.1.str)

theorem ids_nodup (hm : MadeInv env s.sys) (hs : EachOnce s.sys) : (s.sys.created.map idOf).Nodup := by
  have hissued : (s.sys.issued.map fun x => Json.str x.1.str).Nodup := by
    have hinj : Function.Injective fun u : Uuid => Json.str u.str := fun u v h => Uuid.ext (Json.str.inj h)
    have hmap := hm.nodup.map hinj
    rwa [List.map_map] at hmap
  have hall := hs.nodup_iff.2 hissued
  rw [List.map_append] at hall
  exact hall.of_append_right

/-- What is on the topic is of an issued order. -/
theorem created_eq (hm : MadeInv env s.sys) {event : Json.Members} (h : event ∈ s.sys.created) :
    ∃ u request now, (u, request) ∈ s.sys.issued ∧ event = (createOrder .empty u request now).2 := by
  cases hm.created event h with
  | created hu now => exact ⟨_, _, now, hu, rfl⟩

/-! ## The two services -/

/-- payment-service has answered what it has read. -/
def Paid (env : Env) (s : Once) : Prop :=
  s.paid ≤ s.sys.created.length ∧ ∃ st, Answers (S := paymentService env)
    (paymentAnswering env.loads env.paymentFailureRate) s.sys.created s.paid s.sys.payment st

theorem paid_step (hm : MadeInv env s.sys) (hids : EachOnce s.sys) (h : OnceStep env s a s') (hs : Paid env s) :
    Paid env s' := by
  obtain ⟨hle, st, hst⟩ := hs
  cases h with
  | @publish i event hi => exact ⟨hle.trans (List.prefix_append _ [event]).length_le, st, hst.grown hle event⟩
  | readPayment hevent hpayment =>
    obtain ⟨u, request, now, -, rfl⟩ := created_eq hm (List.mem_of_getElem? hevent)
    exact ⟨(List.getElem?_eq_some_iff.1 hevent).1, hst.read hevent (ids_nodup hm hids) hpayment⟩
  | payment hkeeps hpayment => exact ⟨hle, hst.advance (fun k hloses => hkeeps hloses.1) hpayment⟩
  | _ => exact ⟨hle, st, hst⟩

/-- inventory-service has answered what it has read. -/
def Checked (env : Env) (s : Once) : Prop :=
  s.checked ≤ s.sys.created.length ∧ ∃ st, Answers (S := inventoryService env)
    (inventoryAnswering env.toInventoryEnv) s.sys.created s.checked s.sys.inventory st

/-- The results of an order among events. -/
def tellsOf (u : Uuid) (events : List Json.Members) : List ResultType :=
  events.filterMap fun event => resultOf u (.obj event)

theorem tellsOf_concat (u : Uuid) (events : List Json.Members) (event : Json.Members) :
    tellsOf u (events ++ [event]) = tellsOf u events ++ (resultOf u (.obj event)).toList := by
  unfold tellsOf
  rw [List.filterMap_append, List.filterMap_cons, List.filterMap_nil]
  cases resultOf u (.obj event) <;> rfl

/-- What order-service has of an order: its results on the two topics, as far as the consumer is. -/
structure Handled (s : Once) (u : Uuid) (order : Order) (rs : List ResultType) : Prop where
  stored : s.sys.orders.get? u.str = some order
  holds : order.Holds (writeFold rs)
  parts : ∀ topic, topic.isResult = true →
    rs.filter (fun r => r.onTopic = topic) = tellsOf u ((s.sys.log topic).take (s.handled topic))

structure OrdersInv (s : Once) : Prop where
  within : ∀ topic, s.handled topic ≤ (s.sys.log topic).length
  orders : ∀ u request, (u, request) ∈ s.sys.issued → ∃ order rs, Handled s u order rs

/-- An order keeps what it has while the topics grow. -/
theorem Handled.grown {u : Uuid} {order : Order} {rs : List ResultType} (h : Handled s u order rs)
    (hgrows : ∀ topic, s.sys.log topic <+: s'.sys.log topic)
    (hwithin : ∀ topic, s.handled topic ≤ (s.sys.log topic).length)
    (hstored : s'.sys.orders.get? u.str = s.sys.orders.get? u.str) (hhandled : s'.handled = s.handled) :
    Handled s' u order rs where
  stored := hstored.trans h.stored
  holds := h.holds
  parts topic htopic := by
    obtain ⟨rest, hrest⟩ := hgrows topic
    rw [h.parts topic htopic, hhandled, ← hrest, List.take_append_of_le_length (hwithin topic)]

/-- A result is on its topic. -/
theorem onTopic_of_resultOf (hm : MadeInv env s.sys) {topic : Topic} {event : Json.Members}
    (hevent : event ∈ s.sys.log topic) {u : Uuid} {r : ResultType} (hr : resultOf u (.obj event) = some r) :
    r.onTopic = topic := by
  simp only [resultOf] at hr
  split at hr
  · exact ((hm.log hevent).onTopic (ResultType.ofJson_eq_some hr)).symm
  · cases hr

/-- **A result is handled**: it is the order's next one, if it is of the order. -/
theorem Handled.consume (hm : MadeInv env s.sys) {u : Uuid} {order : Order} {rs : List ResultType}
    (h : Handled s u order rs) {topic : Topic} {event : Json.Members}
    (hevent : (s.sys.log topic)[s.handled topic]? = some event) (now : String) :
    ∃ order', Handled { s with
      sys := { s.sys with orders := Cqrs.consume s.sys.orders (.obj event) now }
      handled := fun t => if t = topic then s.handled topic + 1 else s.handled t } u order'
        (rs ++ (resultOf u (.obj event)).toList) := by
  obtain ⟨order', hstored, hholds⟩ := consume_holds h.stored h.holds (.obj event) now
  refine ⟨order', hstored, ?_, fun t ht => ?_⟩
  · unfold writeFold at hholds ⊢
    rw [List.foldl_append]
    exact hholds
  · have honly : ∀ r, resultOf u (.obj event) = some r → r.onTopic = topic := fun r hr =>
      onTopic_of_resultOf hm (List.mem_of_getElem? hevent) hr
    rw [List.filter_append, h.parts t ht]
    dsimp only
    change _ = tellsOf u ((s.sys.log t).take _)
    split
    · rename_i heq
      subst heq
      rw [List.take_add_one, hevent, Option.toList_some, tellsOf_concat]
      cases hr : resultOf u (.obj event) with
      | none => rfl
      | some r =>
        rw [Option.toList_some, List.filter_singleton, decide_eq_true (honly r hr)]
        rfl
    · rename_i hne
      cases hr : resultOf u (.obj event) with
      | none => exact List.append_nil _
      | some r =>
        have hother : ¬ r.onTopic = t := fun heq => hne (heq.symm.trans (honly r hr))
        rw [Option.toList_some, List.filter_singleton, decide_eq_false hother]
        exact List.append_nil _

end Cqrs
end KafkaGuide
