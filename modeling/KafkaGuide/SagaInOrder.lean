import KafkaGuide.SagaHistory
/-!
# SagaInOrder — which deliveries keep the histories on the graph

Nothing guards a status, so the graph of `models.py` rests on the order in which things happen: `create_new_order` goes
on, and order-service reads the results of the order.  The condition is on these alone (`InOrder`), and it is the exact
one (`history_on_graph_iff`): what it leaves out (that a refund result is read after the INVENTORY_FAILED, that
`create_new_order` goes on before the rest and once) follows from who publishes what, whatever the brokers do.
-/
namespace KafkaGuide
namespace Saga

/-- **The step is in order**: order-service reads a result of an order only once `create_new_order` has gone on after
its publish, it reads one result of each topic, and the inventory's only after a PAYMENT_COMPLETED.  `past` are the
steps before. -/
def InOrder (past : List Action) (s : Sys) : Action → Prop
  | .deliver .order topic o _ =>
    .resume (.post o) ∈ past ∧ s.next .order topic o = 0 ∧
      (topic = .inventoryResult → 0 < s.seen .order o .paymentCompleted)
  | _ => True

instance (past : List Action) (s : Sys) (a : Action) : Decidable (InOrder past s a) := by
  unfold InOrder
  split <;> infer_instance

/-! ## What is published about an order -/

/-- The topic and the order of the message a handler works on. -/
def Phase.about : Phase → Option (Topic × Uuid)
  | .sleeping topic event | .publishing topic event _ => some (topic, event.orderId)
  | .stopped => none

/-- A message of the topic about the order is in the log, or a handler works on it. -/
def Sys.Concerns (s : Sys) (topic : Topic) (o : Uuid) : Prop :=
  s.log topic o ≠ [] ∨ ∃ p phase, s.running p = some phase ∧ phase.about = some (topic, o)

theorem Sys.Concerns.of_log {s : Sys} {topic : Topic} {o : Uuid} {event : Event} (h : event ∈ s.log topic o) :
    s.Concerns topic o :=
  .inl (List.ne_nil_of_mem h)

/-- A party that takes up another phase concerns nothing new but the phase. -/
theorem concerns_set (s : Sys) {s' : Sys} {topic : Topic} {o : Uuid} (h : s'.Concerns topic o) (p : Party)
    (phase : Option Phase) (hlog : s'.log = s.log) (hrunning : s'.running = (s.setRunning p phase).running) :
    s.Concerns topic o ∨ ∃ phase', phase = some phase' ∧ phase'.about = some (topic, o) := by
  rcases h with h | ⟨p', phase', hrun, habout⟩
  · rw [hlog] at h
    exact .inl (.inl h)
  · rw [hrunning, setRunning_running] at hrun
    split at hrun
    · exact .inr ⟨phase', hrun, habout⟩
    · exact .inl (.inr ⟨p', phase', hrun, habout⟩)

theorem concerns_none (s : Sys) {s' : Sys} {topic : Topic} {o : Uuid} (h : s'.Concerns topic o) (p : Party)
    (hlog : s'.log = s.log) (hrunning : s'.running = (s.setRunning p none).running) : s.Concerns topic o := by
  rcases concerns_set s h p none hlog hrunning with h | ⟨_, hphase, _⟩
  · exact h
  · cases hphase

/-- **order-service asks for a refund** when it moves the order to COMPENSATING. -/
theorem processMessage_asks {format : ℚ → String} {db : OrdersDb} {topic : Topic} {event answer : Event}
    (h : (processMessage format db topic event).2 = some answer) : answer.orderId = event.orderId ∧
      ((processMessage format db topic event).1.get? event.orderId).map Order.status = some .compensating := by
  unfold processMessage at h ⊢
  split at h <;> try cases h
  dsimp only at h ⊢
  split at h
  · rename_i order horder
    cases h
    have hst := get?_updateOrderStatus db event.orderId event.orderId .compensating (event.reason.getD "재고 부족")
    rw [if_pos rfl, horder] at hst
    obtain ⟨_, -, hcompensating⟩ := Option.map_eq_some_iff.1 hst.symm
    rw [horder]
    exact ⟨rfl, congrArg some hcompensating.symm⟩
  · cases h

/-- A stage whose handler draws its outcome. -/
theorem drawn_ne_compensate {s s' : Sys} {st : Stage} {event : Event} {isSuccess : Bool}
    (h : s.drawn st.service st.trigger.topic event isSuccess = some s') : st ≠ .compensate := by
  rintro rfl
  cases h

/-- **What a step publishes or reads about an order had its cause**: the order is new, or order-service compensates it,
or a stage answers what it was told. -/
theorem concerns_step {net : Net} {s s' : Sys} {a : Action} (hw : Wf s) (h : Step net s a s') {topic : Topic} {o : Uuid}
    (hc : s'.Concerns topic o) : s.Concerns topic o ∨
      topic = .orderCreated ∧ s'.status o = some .created ∨
      topic = .refundRequest ∧ s'.status o = some .compensating ∨
      ∃ st : Stage, st ≠ .compensate ∧ topic = st.output ∧ s.Concerns st.trigger.topic o := by
  cases h with
  | @createNewOrder o' userId items hnew =>
    refine (concerns_set s hc _ _ rfl rfl).imp id fun htaken => .inl ?_
    obtain ⟨_, hphase, habout⟩ := htaken
    cases hphase
    cases habout
    refine ⟨rfl, ?_⟩
    change ((createNewOrder s.ordersDb _ userId items).1.get? _).map Order.status = _
    simp [createNewOrder, createOrder]
  | @deliver svc t o' i event hrun hget hsub hi =>
    have hmem := List.mem_of_getElem? hget
    have hkeyed := (hw.keyed t o' event hmem).2
    -- what a consumer sleeps on is in the log
    have hread : (∃ phase', some (Phase.sleeping t event) = some phase' ∧ phase'.about = some (topic, o)) →
        s.Concerns topic o := by
      rintro ⟨_, hphase, habout⟩
      cases hphase
      cases habout
      rw [hkeyed]
      exact .of_log hmem
    cases svc with
    | order =>
      refine (concerns_set (s.advance .order t o' i) hc _ _ (receive_log ..).1 rfl).imp id ?_
      rintro ⟨_, hphase, habout⟩
      obtain ⟨answer, hanswer, rfl⟩ := Option.map_eq_some_iff.1 hphase
      obtain ⟨horder, hstatus⟩ := processMessage_asks hanswer
      cases habout
      rw [horder]
      exact .inr (.inl ⟨rfl, hstatus⟩)
    | payment => exact .inl ((concerns_set (s.advance .payment t o' i) hc _ _ rfl rfl).elim id hread)
    | inventory =>
      unfold Sys.receive at hc
      dsimp only at hc
      split at hc
      · exact .inl ((concerns_set (s.advance .inventory t o' i) hc _ _ rfl rfl).elim id hread)
      · exact .inl hc
  | @draw svc t event isSuccess _ hrun hd =>
    obtain ⟨st, answer, rfl, rfl, -, horder, hlog, -, -, hrunning, -⟩ := drawn_stage hd
    refine (concerns_set s hc _ _ hlog hrunning).imp id fun htaken => .inr (.inr ⟨st, drawn_ne_compensate hd, ?_⟩)
    obtain ⟨_, hphase, habout⟩ := htaken
    cases hphase
    cases habout
    rw [horder]
    exact ⟨rfl, .inr ⟨_, _, hrun, rfl⟩⟩
  | @land p t event hrun =>
    left
    have hown : ∀ landed, (Phase.publishing t event landed).about = some (topic, o) → s.Concerns topic o :=
      fun _ habout => .inr ⟨p, _, hrun, habout⟩
    rcases concerns_set (s.append t event) hc p _ rfl rfl with (hlog | hs) | ⟨_, hphase, habout⟩
    · by_cases hcond : topic = t ∧ o = event.orderId
      · exact hown false (by rw [hcond.1, hcond.2]; rfl)
      · exact .inl fun hnil => hlog ((if_neg hcond).trans hnil)
    · exact .inr hs
    · cases hphase
      exact hown true habout
  | @resume p t event hrun =>
    left
    cases p with
    | post o' => exact concerns_none s hc (.post o') rfl rfl
    | consumer svc => exact concerns_none s hc (.consumer svc) rfl rfl
  | @raise p t event landed hrun hnet =>
    left
    cases p with
    | post o' => exact concerns_none s hc (.post o') rfl rfl
    | consumer svc =>
      rcases concerns_set s hc (.consumer svc) (some .stopped) rfl rfl with h | ⟨_, hphase, habout⟩
      · exact h
      · cases hphase
        cases habout

/-! ## What the status tells -/

/-- order-service has read no result of the topic. -/
def OrderStatus.unread : OrderStatus → Topic → Bool
  | .created, _ | .paymentProcessing, _ => true
  | .paymentFailed, topic | .inventoryProcessing, topic => topic ≠ .paymentResult
  | .completed, topic | .compensating, topic => topic = .refundResult
  | .failed, _ | .compensated, _ | .compensationFailed, _ => false

/-- order-service has read a PAYMENT_COMPLETED. -/
def OrderStatus.paid : OrderStatus → Bool
  | .inventoryProcessing | .completed | .compensating | .compensated | .compensationFailed => true
  | .created | .paymentProcessing | .paymentFailed | .failed => false

/-- The order may have messages of the topic: only a compensated one has any about a refund. -/
def OrderStatus.admits : OrderStatus → Topic → Bool
  | .compensating, _ | .compensated, _ | .compensationFailed, _ => true
  | _, topic => topic ≠ .refundRequest ∧ topic ≠ .refundResult

theorem admits_followers {status status' : OrderStatus} (h : status' ∈ status.followers) {topic : Topic}
    (ha : status.admits topic) : status'.admits topic := by
  cases status <;> simp only [OrderStatus.followers, List.mem_cons, List.not_mem_nil, or_false] at h
  all_goals first | exact h.elim | rcases h with rfl | rfl <;> cases topic <;> first | rfl | exact ha

theorem admits_output {status : OrderStatus} {st : Stage} (hst : st ≠ .compensate)
    (h : status.admits st.trigger.topic) : status.admits st.output := by
  cases st with
  | compensate => exact absurd rfl hst
  | pay | reserve => cases status <;> rfl
  | refund => cases status <;> first | rfl | exact h

/-- **Whatever is published about an order is about a known one**, and about a refund only once order-service
compensates it. -/
def Causal (s : Sys) : Prop :=
  ∀ topic o, s.Concerns topic o → ∃ status, s.status o = some status ∧ status.admits topic

/-- In turn, a known order keeps its status or moves along an edge. -/
theorem status_step {net : Net} {s s' : Sys} {a : Action} (hw : Wf s) (hturn : InTurn s a) (h : Step net s a s')
    {o : Uuid} {status : OrderStatus} (hstatus : s.status o = some status) :
    ∃ status', s'.status o = some status' ∧ (status' = status ∨ status' ∈ status.followers) := by
  cases step_change hw h o with
  | same ha hsame => exact ⟨status, (status_congr hsame).trans hstatus, .inl rfl⟩
  | created order ha hnew =>
    unfold Sys.status at hstatus
    rw [hnew] at hstatus
    cases hstatus
  | moved status' reason ha hmoved =>
    refine ⟨status', ?_, .inr (hturn o status status' ha hstatus)⟩
    obtain ⟨order, ho, -⟩ := Option.map_eq_some_iff.1 hstatus
    unfold Sys.status
    rw [hmoved, ho]
    rfl

theorem causal_step {net : Net} {s s' : Sys} {a : Action} (hw : Wf s) (hc : Causal s) (hturn : InTurn s a)
    (h : Step net s a s') : Causal s' := by
  intro topic o hconcerns
  have hkept : ∀ topic, s.Concerns topic o → ∃ status, s'.status o = some status ∧ status.admits topic := by
    intro topic hcon
    obtain ⟨status, hstatus, hadmits⟩ := hc topic o hcon
    obtain ⟨status', hstatus', rfl | hedge⟩ := status_step hw hturn h hstatus
    · exact ⟨status', hstatus', hadmits⟩
    · exact ⟨status', hstatus', admits_followers hedge hadmits⟩
  rcases concerns_step hw h hconcerns with hcon | ⟨rfl, hnew⟩ | ⟨rfl, hasked⟩ | ⟨st, hst, rfl, hcon⟩
  · exact hkept topic hcon
  · exact ⟨_, hnew, rfl⟩
  · exact ⟨_, hasked, rfl⟩
  · obtain ⟨status, hstatus, hadmits⟩ := hkept _ hcon
    exact ⟨status, hstatus, admits_output hst hadmits⟩

/-! ## What a step does to the reading of an order -/

/-- What order-service reads of `o` in a step, and whether `create_new_order` goes on. -/
inductive Reading (s : Sys) (o : Uuid) (a : Action) (s' : Sys) : Prop
  | none (hmoves : s.moves o a = .none) (hresume : a ≠ .resume (.post o))
    (hnext : ∀ topic, s'.next .order topic o = s.next .order topic o)
    (hseen : s'.seen .order o .paymentCompleted = s.seen .order o .paymentCompleted)
  | resumed (ha : a = .resume (.post o)) (hrun : s.running (.post o) ≠ .none) (hrun' : s'.running (.post o) = .none)
    (hnext : ∀ topic, s'.next .order topic o = s.next .order topic o)
    (hseen : s'.seen .order o .paymentCompleted = s.seen .order o .paymentCompleted)
  | read (i : Nat) (event : Event) (ha : a = .deliver .order event.eventType.topic o i)
    (hget : (s.log event.eventType.topic o)[i]? = some event) (hsub : Service.order.subscribes event.eventType.topic)
    (hfirst : s.next .order event.eventType.topic o = 0 →
      (∀ topic, s'.next .order topic o = if topic = event.eventType.topic then 1 else s.next .order topic o) ∧
      s'.seen .order o .paymentCompleted =
        s.seen .order o .paymentCompleted + if event.eventType = .paymentCompleted then 1 else 0)

theorem step_reading {net : Net} {s s' : Sys} {a : Action} (hw : Wf s) (h : Step net s a s') (o : Uuid) :
    Reading s o a s' := by
  cases h with
  | createNewOrder userId items hnew => exact .none rfl nofun (fun _ => rfl) rfl
  | @deliver svc topic o' i event hrun hget hsub hi =>
    obtain ⟨rfl, rfl⟩ := hw.keyed topic o' event (List.mem_of_getElem? hget)
    have hnext : ∀ topic, ((s.advance svc event.eventType.topic event.orderId i).receive net.format svc
        event.eventType.topic event).next .order topic o =
          if .order = svc ∧ topic = event.eventType.topic ∧ o = event.orderId then max (s.next .order topic o) (i + 1)
          else s.next .order topic o := fun topic => by
      rw [(receive_log ..).2]
      rfl
    by_cases hcond : svc = .order ∧ o = event.orderId
    · obtain ⟨rfl, rfl⟩ := hcond
      refine .read i event rfl hget hsub fun hzero => ?_
      have hi0 : i = s.next .order event.eventType.topic event.orderId := hi.resolve_right fun h => by omega
      subst hi0
      refine ⟨fun topic => ?_, ?_⟩
      · rw [hnext]
        by_cases ht : topic = event.eventType.topic
        · subst ht
          simp [hzero]
        · simp [ht]
      · rw [receive_seen, advance_seen hget]
        simp
    · have hmoves : s.moves o (.deliver svc event.eventType.topic event.orderId i) = .none := by
        cases svc with
        | order => exact if_neg fun h => hcond ⟨rfl, h.symm⟩
        | payment => rfl
        | inventory => rfl
      have hother : ∀ topic, ¬ (.order = svc ∧ topic = event.eventType.topic ∧ o = event.orderId) :=
        fun topic h => hcond ⟨h.1.symm, h.2.2⟩
      refine .none hmoves nofun (fun topic => by rw [hnext, if_neg (hother topic)]) ?_
      rw [receive_seen]
      unfold Sys.seen
      rw [show (s.advance svc event.eventType.topic event.orderId i).next .order _ o = _ from if_neg (hother _)]
      rfl
  | draw hrun hd =>
    obtain ⟨-, -, -, -, -, -, hlog, hnext, -⟩ := drawn_stage hd
    exact .none rfl nofun (fun _ => by rw [hnext]) (seen_congr hlog hnext ..)
  | @land p topic event hrun => exact .none rfl nofun (fun _ => rfl) (append_seen hw topic event .order o _)
  | @resume p topic event hrun =>
    cases p with
    | post o' =>
      by_cases ho : o' = o
      · subst ho
        refine .resumed rfl (by rw [hrun]; exact nofun) ?_ (fun _ => rfl) rfl
        exact if_pos rfl
      · exact .none (if_neg ho) (fun h => ho (by cases h; rfl)) (fun _ => rfl) rfl
    | consumer svc => exact .none rfl nofun (fun _ => rfl) rfl
  | @raise p topic event landed hrun hnet =>
    cases p with
    | post o' => exact .none rfl nofun (fun _ => rfl) rfl
    | consumer svc => exact .none rfl nofun (fun _ => rfl) rfl

/-! ## What the status and the past have in common -/

/-- **The status tells what has happened to the order**: whether `create_new_order` has gone on, and which results
order-service has read. -/
structure Tells (past : List Action) (s : Sys) (o : Uuid) (status : OrderStatus) : Prop where
  resumed : .resume (.post o) ∈ past ↔ status ≠ .created
  unread : ∀ topic, Service.order.subscribes topic → (s.next .order topic o = 0 ↔ status.unread topic)
  paid : 0 < s.seen .order o .paymentCompleted ↔ status.paid

structure Tracked (past : List Action) (s : Sys) : Prop where
  wf : Wf s
  current : Current s
  causal : Causal s
  tells : ∀ o status, s.status o = some status → Tells past s o status
  resumed : ∀ o, .resume (.post o) ∈ past → s.running (.post o) = none ∧ ∃ status, s.status o = some status

/-- What order-service reads is about an order it knows. -/
theorem Tracked.known {past : List Action} {s : Sys} (ht : Tracked past s) {topic : Topic} {o : Uuid} {i : Nat}
    {event : Event} (hget : (s.log topic o)[i]? = some event) :
    ∃ status, s.status o = some status ∧ status.admits topic :=
  ht.causal topic o (.of_log (List.mem_of_getElem? hget))

/-- **What is in order, in terms of the status**: the one the event gives follows the one the order has. -/
theorem follows_iff {status status' : OrderStatus} {ty : EventType} (hst : ty.orderStatus = some status')
    (hadmits : status.admits ty.topic) : status' ∈ status.followers ↔
      status ≠ .created ∧ status.unread ty.topic ∧ (ty.topic = .inventoryResult → status.paid) := by
  cases ty <;> cases hst <;> cases status <;>
    first | exact absurd hadmits (by decide) | decide

/-- **A tracked step comes in turn exactly when it is in order.** -/
theorem inTurn_iff {net : Net} {past : List Action} {s s' : Sys} {a : Action} (ht : Tracked past s)
    (h : Step net s a s') : InTurn s a ↔ InOrder past s a := by
  cases h with
  | @deliver svc topic o i event hrun hget hsub hi =>
    obtain ⟨rfl, rfl⟩ := ht.wf.keyed topic o event (List.mem_of_getElem? hget)
    cases svc with
    | order =>
      obtain ⟨status, hstatus, hadmits⟩ := ht.known hget
      obtain ⟨status', hst⟩ := orderStatus_of_subscribes hsub
      have htells := ht.tells event.orderId status hstatus
      have hmoves : ∀ o, s.moves o (.deliver .order event.eventType.topic event.orderId i) =
          if event.orderId = o then some status' else none := fun o => by
        change (if event.orderId = o then _ else none) = _
        split
        · rename_i ho
          rw [← ho, hget]
          exact hst
        · rfl
      have hinOrder : InOrder past s (.deliver .order event.eventType.topic event.orderId i) ↔
          status ≠ .created ∧ status.unread event.eventType.topic ∧
            (event.eventType.topic = .inventoryResult → status.paid) := by
        rw [← htells.resumed, ← htells.unread _ hsub, ← htells.paid]
        rfl
      rw [hinOrder, ← follows_iff hst hadmits]
      constructor
      · exact fun hturn => hturn event.orderId status status' ((hmoves _).trans (if_pos rfl)) hstatus
      · intro hedge o status₁ status₂ hmoved hstatus₁
        rw [hmoves] at hmoved
        split at hmoved
        · rename_i ho
          cases hmoved
          rw [← ho, hstatus] at hstatus₁
          cases hstatus₁
          exact hedge
        · cases hmoved
    | payment => exact iff_of_true (fun _ _ _ hmoved => by cases hmoved) trivial
    | inventory => exact iff_of_true (fun _ _ _ hmoved => by cases hmoved) trivial
  | @resume p topic event hrun =>
    refine iff_of_true (fun o status status' hmoved hstatus => ?_) trivial
    cases p with
    | post o' =>
      change (if o' = o then some OrderStatus.paymentProcessing else none) = some status' at hmoved
      split at hmoved
      · rename_i ho
        subst ho
        cases hmoved
        -- the handler still runs, so it has not gone on before
        have hcreated : status = .created := by
          by_contra hne
          have hrest := (ht.resumed o' (((ht.tells o' status hstatus).resumed).2 hne)).1
          rw [hrun] at hrest
          cases hrest
        subst hcreated
        exact List.mem_singleton_self _
      · cases hmoved
    | consumer svc => cases hmoved
  | createNewOrder => exact iff_of_true (fun _ _ _ hmoved => by cases hmoved) trivial
  | draw => exact iff_of_true (fun _ _ _ hmoved => by cases hmoved) trivial
  | land => exact iff_of_true (fun _ _ _ hmoved => by cases hmoved) trivial
  | raise => exact iff_of_true (fun _ _ _ hmoved => by cases hmoved) trivial

/-! ## Tracking a run -/

/-- What an event in order leaves unread and paid. -/
theorem follows_tells {status status' : OrderStatus} {ty : EventType} (hst : ty.orderStatus = some status')
    (hedge : status' ∈ status.followers) : status ≠ .created ∧ status' ≠ .created ∧
      (∀ topic, Service.order.subscribes topic →
        (status'.unread topic ↔ status.unread topic ∧ topic ≠ ty.topic)) ∧
      (status'.paid ↔ status.paid ∨ ty = .paymentCompleted) := by
  cases ty <;> cases hst <;> cases status <;> try exact absurd hedge (by decide)
  all_goals
    refine ⟨by decide, by decide, fun topic hsub => ?_, by decide⟩
    cases topic <;> first | decide | exact absurd hsub (by decide)

/-- A handler of POST /orders runs once: it starts with the order. -/
theorem post_ended {net : Net} {s s' : Sys} {a : Action} (h : Step net s a s') {o : Uuid} {status : OrderStatus}
    (hknown : s.status o = some status) (hended : s.running (.post o) = none) : s'.running (.post o) = none := by
  have hset : ∀ (s₁ : Sys) (p : Party) phase, s₁.running (.post o) = none → p ≠ .post o →
      (s₁.setRunning p phase).running (.post o) = none := fun s₁ p phase h hne => by
    rw [setRunning_running, if_neg (Ne.symm hne), h]
  have hother : ∀ {p : Party} {phase : Phase}, s.running p = some phase → p ≠ .post o := fun {p phase} hrun hp => by
    rw [hp, hended] at hrun
    cases hrun
  cases h with
  | createNewOrder userId items hnew =>
    refine hset _ _ _ hended fun hp => ?_
    cases hp
    unfold Sys.status at hknown
    rw [hnew] at hknown
    cases hknown
  | deliver =>
    rw [receive_post]
    exact hended
  | draw hrun hd =>
    obtain ⟨st, answer, -, -, -, -, -, -, -, hrunning, -⟩ := drawn_stage hd
    rw [hrunning]
    exact hset _ _ _ hended nofun
  | land hrun => exact hset _ _ _ hended (hother hrun)
  | @resume p topic event hrun => cases p <;> exact hset _ _ _ hended (hother hrun)
  | @raise p topic event landed hrun hnet => cases p <;> exact hset _ _ _ hended (hother hrun)

/-- Nothing has happened to an order that is not known. -/
theorem Tracked.created {past : List Action} {s : Sys} (ht : Tracked past s) {o : Uuid} (hnew : s.status o = none) :
    Tells past s o .created := by
  have hlog : ∀ topic, s.log topic o = [] := fun topic => by
    by_contra hne
    obtain ⟨status, hstatus, -⟩ := ht.causal topic o (.inl hne)
    rw [hnew] at hstatus
    cases hstatus
  refine ⟨iff_of_false (fun hpast => ?_) (fun h => h rfl), fun topic _ => iff_of_true ?_ rfl,
    iff_of_false (fun hpos => ?_) (by decide)⟩
  · obtain ⟨-, status, hstatus⟩ := ht.resumed o hpast
    rw [hnew] at hstatus
    cases hstatus
  · have hle := ht.wf.cursor .order topic o
    rw [hlog] at hle
    exact Nat.eq_zero_of_le_zero hle
  · have hle := seen_le_landed s .order o .paymentCompleted
    unfold Sys.landed at hle
    rw [hlog] at hle
    exact absurd (hpos.trans_le hle) (Nat.lt_irrefl 0)

/-- An order that a step moves has the status it is given. -/
theorem Change.of_moves {s s' : Sys} {o : Uuid} {a : Action} {status status' : OrderStatus} (h : Change s o a s')
    (hmoves : s.moves o a = some status) (hstatus' : s'.status o = some status') :
    status' = status ∧ ∃ status₀, s.status o = some status₀ := by
  cases h with
  | same hnone =>
    rw [hmoves] at hnone
    cases hnone
  | created order hnone =>
    rw [hmoves] at hnone
    cases hnone
  | moved status₁ reason hsome hmoved =>
    rw [hmoves] at hsome
    cases hsome
    unfold Sys.status at hstatus' ⊢
    rw [hmoved] at hstatus'
    cases hdb : s.ordersDb.get? o with
    | none =>
      rw [hdb] at hstatus'
      cases hstatus'
    | some order =>
      rw [hdb] at hstatus'
      exact ⟨(Option.some.inj hstatus').symm, _, rfl⟩

theorem Tells.congr {past : List Action} {s s' : Sys} {o : Uuid} {a : Action} {status : OrderStatus}
    (h : Tells past s o status) (hresume : a ≠ .resume (.post o))
    (hnext : ∀ topic, s'.next .order topic o = s.next .order topic o)
    (hseen : s'.seen .order o .paymentCompleted = s.seen .order o .paymentCompleted) :
    Tells (past ++ [a]) s' o status := by
  refine ⟨?_, fun topic hsub => ?_, ?_⟩
  · rw [List.mem_append, List.mem_singleton, or_iff_left hresume.symm]
    exact h.resumed
  · rw [hnext]
    exact h.unread topic hsub
  · rw [hseen]
    exact h.paid

/-- **A step in order keeps the statuses telling what has happened.** -/
theorem tells_step {net : Net} {past : List Action} {s s' : Sys} {a : Action} (ht : Tracked past s)
    (horder : InOrder past s a) (h : Step net s a s') {o : Uuid} {status' : OrderStatus}
    (hstatus' : s'.status o = some status') : Tells (past ++ [a]) s' o status' := by
  have hturn := (inTurn_iff ht h).2 horder
  have hchange := step_change ht.wf h o
  cases step_reading ht.wf h o with
  | none hmoves hresume hnext hseen =>
    cases hchange with
    | same _ hsame =>
      exact (ht.tells o status' ((status_congr hsame).symm.trans hstatus')).congr hresume hnext hseen
    | created order _ hnew hcreated hst _ =>
      have hnone : s.status o = .none := by
        unfold Sys.status
        rw [hnew]
        rfl
      have hstatus : status' = .created := by
        unfold Sys.status at hstatus'
        rw [hcreated, Option.map_some, hst] at hstatus'
        exact (Option.some.inj hstatus').symm
      rw [hstatus]
      exact (ht.created hnone).congr hresume hnext hseen
    | moved status reason hsome =>
      rw [hmoves] at hsome
      cases hsome
  | resumed ha hrun hrun' hnext hseen =>
    subst ha
    have hmoves : s.moves o (.resume (.post o)) = some .paymentProcessing := if_pos rfl
    obtain ⟨rfl, status, hstatus⟩ := hchange.of_moves hmoves hstatus'
    have htells := ht.tells o status hstatus
    have hcreated : status = .created := by
      have hedge := hturn o status _ hmoves hstatus
      cases status <;> first | rfl | exact absurd hedge (by decide)
    subst hcreated
    refine ⟨iff_of_true (List.mem_append_right _ (List.mem_singleton_self _)) (by decide), fun topic hsub => ?_, ?_⟩
    · rw [hnext]
      exact htells.unread topic hsub
    · rw [hseen]
      exact htells.paid
  | read i event ha hget hsub hfirst =>
    subst ha
    obtain ⟨status₁, hst⟩ := orderStatus_of_subscribes hsub
    have hmoves : s.moves o (.deliver .order event.eventType.topic o i) = some status₁ := by
      change (if o = o then _ else none) = _
      rw [if_pos rfl, hget]
      exact hst
    obtain ⟨rfl, status, hstatus⟩ := hchange.of_moves hmoves hstatus'
    have htells := ht.tells o status hstatus
    obtain ⟨hne, hne', hunread, hpaid⟩ := follows_tells hst (hturn o status _ hmoves hstatus)
    obtain ⟨hpast, hzero, -⟩ := horder
    obtain ⟨hnext, hseen⟩ := hfirst hzero
    refine ⟨iff_of_true (List.mem_append_left _ hpast) hne', fun topic htopic => ?_, ?_⟩
    · rw [hnext, hunread topic htopic, ← htells.unread topic htopic]
      by_cases ht : topic = event.eventType.topic <;> simp [ht]
    · rw [hseen, hpaid, ← htells.paid]
      by_cases hty : event.eventType = .paymentCompleted <;> simp [hty]

theorem tracked_step {net : Net} {past : List Action} {s s' : Sys} {a : Action} (ht : Tracked past s)
    (horder : InOrder past s a) (h : Step net s a s') : Tracked (past ++ [a]) s' := by
  have hturn := (inTurn_iff ht h).2 horder
  refine ⟨wf_step ht.wf h, current_step ht.wf ht.current h, causal_step ht.wf ht.causal hturn h,
    fun o status => tells_step ht horder h, fun o hpast => ?_⟩
  have hkept : ∀ status, s.status o = some status → ∃ status', s'.status o = some status' := fun status hstatus => by
    obtain ⟨status', hstatus', -⟩ := status_step ht.wf hturn h hstatus
    exact ⟨status', hstatus'⟩
  rcases List.mem_append.1 hpast with hpast | hlast
  · obtain ⟨hended, status, hstatus⟩ := ht.resumed o hpast
    exact ⟨post_ended h hstatus hended, hkept status hstatus⟩
  · rw [← List.mem_singleton.1 hlast] at h
    cases h with
    | resume hrun =>
      obtain ⟨rfl, -, ho⟩ := ht.wf.running _ _ hrun
      obtain ⟨status, hstatus, -⟩ := ht.causal .orderCreated o (.inr ⟨_, _, hrun, by rw [Phase.about, ho]⟩)
      exact ⟨if_pos rfl, hkept status hstatus⟩

theorem tracked_init : Tracked [] {} where
  wf := wf_init
  current _ _ h := nomatch h
  causal _ _ h := by
    rcases h with h | ⟨_, _, hrun, -⟩
    · exact absurd rfl h
    · cases hrun
  tells _ _ h := nomatch h
  resumed _ h := nomatch h

/-- **Every status history is on the graph in every state of a run exactly when every step is in order**: for any
number of orders, redeliveries or not, whatever the producers raise. -/
theorem history_on_graph_iff (net : Net) (acts : List Action) :
    (lts net).Along (fun _ _ s' => s'.OnGraph) {} acts ↔
      (lts net).recorded.Along (fun t a _ => InOrder t.1 t.2 a) ([], {}) acts := by
  rw [← (lts net).recorded_along (t := ([], {}))]
  have hgraph : ∀ t a t', Tracked t.1 t.2 → t.2.OnGraph → (lts net).recorded.step t a = some t' →
      (t'.2.OnGraph ↔ InOrder t.1 t.2 a) := fun t a t' ht hg h => by
    have hstep := step_sound ((lts net).recorded_step.1 h).1
    rw [← inTurn_iff ht hstep]
    exact onGraph_step_iff ht.wf ht.current hg hstep
  refine (lts net).recorded.always_iff_along (I := fun t => Tracked t.1 t.2) (fun t a t' ht hg h hg' => ?_) hgraph
    tracked_init fun _ _ h => nomatch h
  have horder := (hgraph t a t' ht hg h).1 hg'
  obtain ⟨hstep, hpast⟩ := (lts net).recorded_step.1 h
  rw [hpast]
  exact tracked_step ht horder (step_sound hstep)

/-- payment-service is told of a compensated order again: what it does next is not read, and the history is on the
graph. -/
theorem history_on_graph_compensated : ∃ s order,
    (lts { redelivers := true }).run {} (compensated ++ [.deliver .payment .orderCreated anOrder 0]) = some s ∧
    (lts { redelivers := true }).Along (fun _ _ s' => s'.OnGraph) {}
      (compensated ++ [.deliver .payment .orderCreated anOrder 0]) ∧
    s.ordersDb.get? anOrder = some order ∧ order.statusHistory.map HistoryEntry.status =
      [.created, .paymentProcessing, .inventoryProcessing, .compensating, .compensated] :=
  ⟨_, _, rfl, (history_on_graph_iff _ _).2 (by decide +kernel), rfl, by decide +kernel⟩

theorem lateResume_history : ∃ s order, (lts {}).run {} lateResume = some s ∧ s.ordersDb.get? anOrder = some order ∧
    order.statusHistory.map HistoryEntry.status = [.created, .inventoryProcessing, .completed, .paymentProcessing] :=
  ⟨_, _, rfl, rfl, by decide +kernel⟩

/-- The POST handler resumes when the order is COMPLETED: the history goes on to PAYMENT_PROCESSING. -/
theorem lateResume_off_graph : ∃ s, (lts {}).Reachable s ∧ ¬ s.OnGraph := by
  obtain ⟨s, order, hrun, ho, hhistory⟩ := lateResume_history
  refine ⟨s, ⟨lateResume, hrun⟩, fun hg => ?_⟩
  have hedges := (hg anOrder order ho).edges
  have hchain : (order.statusHistory.map HistoryEntry.status).IsChain (fun st st' => st' ∈ st.followers) :=
    (List.isChain_map _).2 hedges
  rw [hhistory] at hchain
  exact absurd hchain (by decide)

end Saga
end KafkaGuide
