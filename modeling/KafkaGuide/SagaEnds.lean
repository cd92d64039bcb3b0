import Mathlib.Algebra.BigOperators.Group.Finset.Piecewise
import Mathlib.Algebra.Order.BigOperators.Group.Finset
import KafkaGuide.SagaAgree
/-!
# SagaEnds — every saga ends

With each message delivered once and no publish raising, an order has a bounded number of steps in it, whatever the
services draw: those its messages can still cause, and those its handlers have left (`Sys.left`).  A run can do nothing
more only when no handler runs and every message is read, and then each order has ended.
-/
namespace KafkaGuide
namespace Saga

variable {format : ℚ → String}

/-! ## The steps an order has left -/

/-- The steps a service takes for a message of a topic, up to the last step of what it publishes. -/
def Service.weight : Service → Topic → Nat
  | .order, .paymentResult | .order, .refundResult => 1
  | .order, .inventoryResult => 8
  | .payment, .orderCreated => 17
  | .payment, .refundRequest => 5
  | .inventory, .paymentResult => 12
  | _, _ => 0

/-- The steps of all the services that read the topic. -/
def Topic.weight (t : Topic) : Nat := Service.order.weight t + Service.payment.weight t + Service.inventory.weight t

/-- The steps a handler has left, those after its publication included. -/
def Phase.left : Phase → Nat
  | .sleeping .orderCreated _ => 16
  | .sleeping .paymentResult _ => 11
  | .sleeping .inventoryResult _ => 8
  | .sleeping .refundRequest _ => 4
  | .sleeping .refundResult _ => 0
  | .publishing topic _ false => 2 + topic.weight
  | .publishing _ _ true => 1
  | .stopped => 0

/-- What a handler has left for one order. -/
def leftFor (o : Uuid) : Option Phase → Nat
  | some phase => if phase.orderId? = some o then phase.left else 0
  | none => 0

def Sys.unread (s : Sys) (svc : Service) (t : Topic) (o : Uuid) : Nat := (s.log t o).length - s.next svc t o

/-- What the messages a service has not read of an order will cost it. -/
def Sys.due (s : Sys) (svc : Service) (o : Uuid) : Nat :=
  svc.weight .orderCreated * s.unread svc .orderCreated o + svc.weight .paymentResult * s.unread svc .paymentResult o +
    svc.weight .inventoryResult * s.unread svc .inventoryResult o +
    svc.weight .refundRequest * s.unread svc .refundRequest o + svc.weight .refundResult * s.unread svc .refundResult o

/-- **The steps an order has left**, at most. -/
def Sys.left (s : Sys) (o : Uuid) : Nat :=
  leftFor o (s.running (.post o)) + leftFor o (s.running (.consumer .order)) +
    leftFor o (s.running (.consumer .payment)) + leftFor o (s.running (.consumer .inventory)) +
    s.due .order o + s.due .payment o + s.due .inventory o

theorem left_congr {s s' : Sys} (hrunning : s'.running = s.running) (hlog : s'.log = s.log) (hnext : s'.next = s.next)
    (o : Uuid) : s'.left o = s.left o := by
  unfold Sys.left Sys.due Sys.unread
  rw [hrunning, hlog, hnext]

theorem setRunning_consumer_left (s : Sys) (svc : Service) (phase : Option Phase) (o : Uuid) :
    (s.setRunning (.consumer svc) phase).left o + leftFor o (s.running (.consumer svc)) =
      s.left o + leftFor o phase := by
  unfold Sys.left Sys.due Sys.unread
  simp only [setRunning_running]
  cases svc <;> simp [Sys.setRunning] <;> omega

theorem setRunning_post_left (s : Sys) (o' : Uuid) (phase : Option Phase)
    (hold : ∀ phase', s.running (.post o') = some phase' → phase'.orderId? = some o')
    (hnew : ∀ phase', phase = some phase' → phase'.orderId? = some o') (o : Uuid) :
    (s.setRunning (.post o') phase).left o + leftFor o (s.running (.post o')) = s.left o + leftFor o phase := by
  have hother : ∀ p : Option Phase, (∀ phase', p = some phase' → phase'.orderId? = some o') → o ≠ o' →
      leftFor o p = 0 := by
    intro p hp hne
    cases p with
    | none => rfl
    | some phase' =>
      refine if_neg fun h => ?_
      rw [hp phase' rfl] at h
      exact hne (Option.some.inj h).symm
  by_cases ho : o = o'
  · subst ho
    unfold Sys.left Sys.due Sys.unread
    simp only [setRunning_running]
    simp [Sys.setRunning]
    omega
  · rw [hother _ hold ho, hother _ hnew ho]
    unfold Sys.left Sys.due Sys.unread
    simp only [setRunning_running]
    simp [Sys.setRunning, ho]

/-- **A message that lands** costs what its readers will do. -/
theorem append_left {s : Sys} (hw : Wf s) (topic : Topic) (event : Event) (o : Uuid) :
    (s.append topic event).left o = s.left o + if o = event.orderId then topic.weight else 0 := by
  have hunread : ∀ svc t, (s.append topic event).unread svc t o =
      s.unread svc t o + if t = topic ∧ o = event.orderId then 1 else 0 := by
    intro svc t
    have hc := hw.cursor svc t o
    unfold Sys.unread
    rw [append_length]
    change _ - s.next svc t o = _
    omega
  unfold Sys.left Sys.due
  simp only [hunread]
  change _ = leftFor o (s.running (.post o)) + leftFor o (s.running (.consumer .order)) +
    leftFor o (s.running (.consumer .payment)) + leftFor o (s.running (.consumer .inventory)) + _ + _ + _ + _
  by_cases ho : o = event.orderId
  · cases topic <;> simp [ho, Topic.weight, Service.weight, Sys.append] <;> omega
  · simp [ho, Sys.append]

/-- **A message that is read** costs its reader from now on. -/
theorem advance_left {s : Sys} {svc : Service} {topic : Topic} {o : Uuid}
    (hlt : s.next svc topic o < (s.log topic o).length) (o' : Uuid) :
    (s.advance svc topic o (s.next svc topic o)).left o' + (if o' = o then svc.weight topic else 0) = s.left o' := by
  have hunread : ∀ svc' t, (s.advance svc topic o (s.next svc topic o)).unread svc' t o' +
      (if svc' = svc ∧ t = topic ∧ o' = o then 1 else 0) = s.unread svc' t o' := by
    intro svc' t
    unfold Sys.unread Sys.advance
    dsimp only
    split
    · rename_i h
      obtain ⟨rfl, rfl, rfl⟩ := h
      omega
    · rfl
  by_cases ho : o' = o
  · subst ho
    unfold Sys.left Sys.due
    simp only [← hunread]
    cases svc <;> cases topic <;> simp [Service.weight, Sys.advance] <;> omega
  · unfold Sys.left Sys.due
    simp only [← hunread]
    simp [ho, Sys.advance]

/-! ## Every step costs one -/

theorem processMessage_answer {db : OrdersDb} {topic : Topic} {event answer : Event}
    (h : (processMessage format db topic event).2 = some answer) :
    topic = .inventoryResult ∧ answer.orderId = event.orderId := by
  unfold processMessage at h
  split at h <;> try cases h
  dsimp only at h
  split at h
  · cases h
    exact ⟨rfl, rfl⟩
  · cases h

/-- **A handler has less left than the message that started it** was going to cost. -/
theorem receive_left {s : Sys} (format : ℚ → String) {svc : Service} {topic : Topic} (event : Event)
    (hsub : svc.subscribes topic) (hrun : s.running (.consumer svc) = none) (o : Uuid) :
    (s.receive format svc topic event).left o + (if o = event.orderId then 1 else 0) ≤
      s.left o + if o = event.orderId then svc.weight topic else 0 := by
  have hset : ∀ (db : OrdersDb) (phase : Option Phase),
      ({ s with ordersDb := db }.setRunning (.consumer svc) phase).left o = s.left o + leftFor o phase := by
    intro db phase
    have h := setRunning_consumer_left { s with ordersDb := db } svc phase o
    change _ + leftFor o (s.running (.consumer svc)) = s.left o + leftFor o phase at h
    rw [hrun] at h
    exact h
  have hsleep : (Phase.sleeping topic event).left + 1 ≤ svc.weight topic →
      (s.setRunning (.consumer svc) (some (.sleeping topic event))).left o + (if o = event.orderId then 1 else 0) ≤
        s.left o + if o = event.orderId then svc.weight topic else 0 := fun hle => by
    have h := hset s.ordersDb (some (.sleeping topic event))
    change (s.setRunning _ _).left o = _ at h
    rw [h]
    by_cases ho : o = event.orderId
    · simp only [leftFor, Phase.orderId?, ho, if_true]
      omega
    · simp only [leftFor, Phase.orderId?, Option.some.injEq, Ne.symm ho, ho, if_false]
      omega
  have hone : 1 ≤ svc.weight topic := by
    cases svc <;> cases topic <;> first | exact absurd hsub (by decide) | decide
  unfold Sys.receive
  split
  · rw [hset]
    cases hanswer : (processMessage format s.ordersDb topic event).2 with
    | none =>
      simp only [Option.map_none, leftFor]
      split <;> omega
    | some answer =>
      obtain ⟨rfl, horder⟩ := processMessage_answer hanswer
      simp only [Option.map_some, leftFor, Phase.orderId?, horder, Option.some.injEq, eq_comm (a := event.orderId)]
      split <;> simp [Phase.left, Topic.weight, Service.weight]
  · exact hsleep (by cases topic <;> first | exact absurd hsub (by decide) | exact Nat.le_refl _)
  · split
    · exact hsleep (by cases topic <;> first | exact absurd hsub (by decide) | exact Nat.le_refl _)
    · split <;> omega

theorem leftFor_of {phase : Phase} {o' : Uuid} (h : phase.orderId? = some o') (o : Uuid) :
    leftFor o (some phase) = if o = o' then phase.left else 0 := by
  change (if phase.orderId? = some o then phase.left else 0) = _
  rw [h]
  simp [eq_comm]

/-- **A handler that goes on** changes what its own order has left. -/
theorem goes_on {s s' : Sys} {p : Party} {phase : Phase} {o' : Uuid} (hw : Wf s) (hrun : s.running p = some phase)
    (phase' : Option Phase) (hs' : ∀ o, s'.left o = (s.setRunning p phase').left o)
    (hphase : phase.orderId? = some o') (hphase' : ∀ q, phase' = some q → q.orderId? = some o') (o : Uuid) :
    s'.left o + (if o = o' then phase.left else 0) =
      s.left o + if o = o' then (phase'.map Phase.left).getD 0 else 0 := by
  have hnext : leftFor o phase' = if o = o' then (phase'.map Phase.left).getD 0 else 0 := by
    cases phase' with
    | none => simp [leftFor]
    | some q => exact leftFor_of (hphase' q rfl) o
  have hset : s'.left o + leftFor o (s.running p) = s.left o + leftFor o phase' := by
    rw [hs']
    cases p with
    | consumer svc => exact setRunning_consumer_left s svc phase' o
    | post o₀ =>
      have hown : phase.orderId? = some o₀ := by
        have hok := hw.running _ _ hrun
        cases phase with
        | publishing topic event landed => exact congrArg some hok.2.2
        | sleeping | stopped => exact absurd hok id
      have heq : o' = o₀ := Option.some.inj (hphase.symm.trans hown)
      subst heq
      refine setRunning_post_left s o' phase' (fun q hq => ?_) hphase' o
      rw [hrun] at hq
      cases hq
      exact hown
  rw [hrun, leftFor_of hphase, hnext] at hset
  exact hset

/-- A new order has 19 steps before it. -/
theorem left_create {s : Sys} (hw : Wf s) (db : OrdersDb) (event : Event) (o : Uuid) :
    (({ s with ordersDb := db } : Sys).setRunning (.post event.orderId)
      (some (.publishing .orderCreated event false))).left o ≤ s.left o + if o = event.orderId then 19 else 0 := by
  have hnew : leftFor o (some (.publishing .orderCreated event false)) = if o = event.orderId then 19 else 0 :=
    leftFor_of rfl o
  have hset := setRunning_post_left { s with ordersDb := db } event.orderId
    (some (.publishing .orderCreated event false)) (fun phase h => ?_) (fun phase h => by cases h; rfl) o
  · rw [hnew] at hset
    exact Nat.le_of_add_right_le hset.le
  · have hok := hw.running _ _ h
    cases phase with
    | publishing topic event landed => exact congrArg some hok.2.2
    | sleeping | stopped => exact absurd hok id

def Action.created? : Action → Option Uuid
  | .createNewOrder o _ _ => some o
  | _ => none

/-- The steps a run may take for the action. -/
def Action.gain (a : Action) : Nat := if a.created?.isSome then 20 else 0

/-- **Every step costs an order one**, and only a new order gains some first. -/
theorem left_step {s s' : Sys} {a : Action} (hw : Wf s) (h : Step { format } s a s') :
    ∃ c, (∀ o, a.created? = some o → o = c) ∧
      ∀ o, s'.left o + (if o = c then 1 else 0) ≤ s.left o + if o = c then a.gain else 0 := by
  cases h with
  | @createNewOrder o userId items hnew =>
    refine ⟨o, fun o' h => (Option.some.inj h).symm, fun o' => ?_⟩
    have hle := left_create hw (createNewOrder s.ordersDb o userId items).1
      (createNewOrder s.ordersDb o userId items).2 o'
    change _ ≤ _ + if o' = o then 19 else 0 at hle
    change _ ≤ _ + if o' = o then 20 else 0
    split at hle
    · rename_i ho
      rw [if_pos ho, if_pos ho]
      exact Nat.add_le_add_right hle 1
    · rename_i ho
      rw [if_neg ho, if_neg ho]
      exact hle
  | @deliver svc topic o i event hrun hget hsub hi =>
    have hi : i = s.next svc topic o := hi.resolve_right fun h => absurd h.1 Bool.false_ne_true
    subst hi
    obtain ⟨-, horder⟩ := hw.keyed topic o event (List.mem_of_getElem? hget)
    refine ⟨o, (fun c hc => by cases hc), fun o' => ?_⟩
    change (Sys.receive _ format ..).left o' + _ ≤ _ + if o' = o then 0 else 0
    have hadvance := advance_left (List.getElem?_eq_some_iff.1 hget).1 o'
    have hreceive := receive_left (s := s.advance svc topic o (s.next svc topic o)) format event hsub hrun o'
    rw [horder] at hreceive
    omega
  | @draw svc topic event isSuccess s' hrun hd =>
    obtain ⟨st, answer, -, rfl, -, horder, hlog, hnext, -, hrunning, -⟩ := drawn_stage hd
    refine ⟨event.orderId, (fun c hc => by cases hc), fun o => ?_⟩
    change _ ≤ _ + if o = event.orderId then 0 else 0
    have hgo := goes_on hw hrun (some (.publishing st.output answer false)) (left_congr hrunning hlog hnext) rfl
      (fun q hq => by cases hq; exact congrArg some horder) o
    by_cases ho : o = event.orderId
    · simp only [ho, if_true, Option.map_some, Option.getD_some] at hgo ⊢
      cases st <;> simp only [Stage.trigger, EventType.topic, Stage.output, Phase.left, Topic.weight,
        Service.weight] at hgo <;> omega
    · simp only [ho, if_false] at hgo ⊢
      omega
  | @land p topic event hrun =>
    have hok := hw.running p _ hrun
    refine ⟨event.orderId, (fun c hc => by cases hc), fun o => ?_⟩
    change _ ≤ _ + if o = event.orderId then 0 else 0
    have hgo := goes_on (hw.append hok.topic) hrun (some (.publishing topic event true)) (fun _ => rfl) rfl
      (fun q hq => by cases hq; rfl) o
    rw [append_left hw] at hgo
    by_cases ho : o = event.orderId
    · simp only [ho, if_true, Option.map_some, Option.getD_some, Phase.left] at hgo ⊢
      omega
    · simp only [ho, if_false] at hgo ⊢
      omega
  | @resume p topic event hrun =>
    refine ⟨event.orderId, (fun c hc => by cases hc), fun o => ?_⟩
    change _ ≤ _ + if o = event.orderId then 0 else 0
    have hpublished : ∀ o, (s.published p).left o = (s.setRunning p none).left o := by
      intro o
      cases p with
      | post o' => exact left_congr rfl rfl rfl o
      | consumer svc => rfl
    have hgo := goes_on hw hrun none hpublished rfl (fun _ hq => by cases hq) o
    by_cases ho : o = event.orderId
    · simp only [ho, if_true, Option.map_none, Option.getD_none, Phase.left] at hgo ⊢
      omega
    · simp only [ho, if_false] at hgo ⊢
      omega
  | raise hrun hnet => cases hnet

/-! ## Runs are short -/

/-- **What the orders of a finite set have left bounds the run**, when it creates no others. -/
theorem left_sum_step {s s' : Sys} {a : Action} {orders : Finset Uuid} (hw : Wf s) (h : Step { format } s a s')
    (hleft : ∀ o, o ∉ orders → s.left o = 0) (ha : ∀ o, a.created? = some o → o ∈ orders) :
    (∀ o, o ∉ orders → s'.left o = 0) ∧ ∑ o ∈ orders, s'.left o + 1 ≤ ∑ o ∈ orders, s.left o + a.gain := by
  obtain ⟨c, hcreated, hstep⟩ := left_step hw h
  have hmem : c ∈ orders := by
    cases hc : a.created? with
    | some o => exact hcreated o hc ▸ ha o hc
    | none =>
      by_contra hnot
      have hle := hstep c
      rw [hleft c hnot, if_pos rfl, if_pos rfl, Action.gain, hc] at hle
      exact absurd hle (Nat.not_succ_le_zero _)
  refine ⟨fun o ho => ?_, ?_⟩
  · have hle := hstep o
    have hne : o ≠ c := fun heq => ho (heq ▸ hmem)
    rw [hleft o ho, if_neg hne, if_neg hne] at hle
    exact Nat.le_zero.1 hle
  · have hone : ∀ n : Nat, ∑ o ∈ orders, (if o = c then n else 0) = n := fun n => by
      rw [Finset.sum_ite_eq' orders c, if_pos hmem]
    calc ∑ o ∈ orders, s'.left o + 1
        = ∑ o ∈ orders, (s'.left o + if o = c then 1 else 0) := by rw [Finset.sum_add_distrib, hone]
      _ ≤ ∑ o ∈ orders, (s.left o + if o = c then a.gain else 0) := Finset.sum_le_sum fun o _ => hstep o
      _ = ∑ o ∈ orders, s.left o + a.gain := by rw [Finset.sum_add_distrib, hone]

theorem run_short {acts : List Action} {s : Sys} (hrun : (lts { format }).run {} acts = some s) :
    acts.length ≤ 20 * acts.countP (fun a => a.created?.isSome) := by
  have hgain : (acts.map Action.gain).sum = 20 * acts.countP (fun a => a.created?.isSome) := by
    clear hrun
    induction acts with
    | nil => rfl
    | cons a acts ih =>
      rw [List.map_cons, List.sum_cons, ih, List.countP_cons, Action.gain]
      split <;> omega
  have horders : ∀ a ∈ acts, ∀ o, a.created? = some o → o ∈ (acts.filterMap Action.created?).toFinset :=
    fun a ha o ho => List.mem_toFinset.2 (List.mem_filterMap.2 ⟨a, ha, ho⟩)
  generalize (acts.filterMap Action.created?).toFinset = orders at horders
  have hlen := Lts.run_length_le (L := lts { format }) (I := fun s => Wf s ∧ ∀ o, o ∉ orders → s.left o = 0)
    (P := fun a => ∀ o, a.created? = some o → o ∈ orders) (fun s => ∑ o ∈ orders, s.left o) Action.gain
    (fun s a s' hi ha h => ?_) ⟨wf_init, fun _ _ => rfl⟩ horders hrun
  · have hzero : ∑ o ∈ orders, Sys.left {} o = 0 := Finset.sum_eq_zero fun _ _ => rfl
    rw [hzero, hgain] at hlen
    omega
  · obtain ⟨hleft, hsum⟩ := left_sum_step hi.1 (step_sound h) hi.2 ha
    exact ⟨⟨wf_step hi.1 (step_sound h), hleft⟩, hsum⟩

/-! ## Where a run halts -/

/-- order-service handles its messages without a pause, and no consumer loop has ended. -/
def Phase.Goes (p : Party) : Phase → Prop
  | .sleeping _ _ => p ≠ .consumer .order
  | .publishing _ _ _ => True
  | .stopped => False

def Awake (s : Sys) : Prop := ∀ p phase, s.running p = some phase → phase.Goes p

theorem Awake.set {s s' : Sys} (ha : Awake s) {p : Party} {phase : Option Phase}
    (hrunning : s'.running = (s.setRunning p phase).running) (hgoes : ∀ phase', phase = some phase' → phase'.Goes p) :
    Awake s' := by
  intro p' phase' h
  rw [hrunning, setRunning_running] at h
  split at h
  · rename_i hp
    rw [hp]
    exact hgoes phase' h
  · exact ha p' phase' h

theorem awake_step {s s' : Sys} {a : Action} (ha : Awake s) (h : Step { format } s a s') : Awake s' := by
  cases h with
  | createNewOrder userId items hnew =>
    refine ha.set rfl fun phase hp => ?_
    cases hp
    trivial
  | @deliver svc topic o i event hrun hget hsub hi =>
    have hadvance : Awake (s.advance svc topic o i) := ha
    unfold Sys.receive
    split
    · refine hadvance.set rfl fun phase hp => ?_
      obtain ⟨answer, -, rfl⟩ := Option.map_eq_some_iff.1 hp
      trivial
    · refine hadvance.set rfl fun phase hp => ?_
      cases hp
      exact nofun
    · split
      · refine hadvance.set rfl fun phase hp => ?_
        cases hp
        exact nofun
      · exact hadvance
  | draw hrun hd =>
    obtain ⟨st, answer, -, -, -, -, -, -, -, hrunning, -⟩ := drawn_stage hd
    refine ha.set hrunning fun phase hp => ?_
    cases hp
    trivial
  | @land p topic event hrun =>
    refine Awake.set (s := s.append topic event) ha rfl fun phase hp => ?_
    cases hp
    trivial
  | @resume p topic event hrun =>
    cases p with
    | post o => exact ha.set rfl fun _ hp => nomatch hp
    | consumer svc => exact ha.set rfl fun _ hp => nomatch hp
  | raise hrun hnet => cases hnet

/-- **A state from which only new orders lead on is quiescent**: no handler runs, and every message is read. -/
theorem halted_quiescent {s : Sys} (hw : Wf s) (ha : Awake s)
    (hhalt : ∀ a, a.created? = none → step { format } s a = none) (o : Uuid) : s.Quiescent o := by
  have hnone : ∀ p, s.running p = none := by
    intro p
    cases hrun : s.running p with
    | none => rfl
    | some phase =>
      have hok := hw.running p phase hrun
      cases phase with
      | sleeping topic event =>
        cases p with
        | post o => exact absurd hok id
        | consumer svc =>
          obtain ⟨st, rfl, rfl, -⟩ := hok
          have hdraw := hhalt (.draw st.service true) rfl
          cases st with
          | compensate => exact absurd rfl (ha _ _ hrun)
          | pay | reserve | refund =>
            simp only [step, hrun] at hdraw
            cases hdraw
      | publishing topic event landed =>
        cases landed with
        | false =>
          have hland := hhalt (.land p) rfl
          simp only [step, hrun] at hland
          cases hland
        | true =>
          have hresume := hhalt (.resume p) rfl
          simp only [step, hrun] at hresume
          cases hresume
      | stopped => exact absurd (ha p _ hrun) id
  refine ⟨⟨hnone _, fun svc phase h => ?_⟩, fun svc topic hsub => ?_⟩
  · rw [hnone] at h
    cases h
  · refine Nat.le_antisymm (hw.cursor svc topic o) (Nat.le_of_not_lt fun hlt => ?_)
    have hdeliver := hhalt (.deliver svc topic o (s.next svc topic o)) rfl
    simp only [step, hnone, List.getElem?_eq_getElem hlt] at hdeliver
    rw [if_pos ⟨hsub, .inl trivial⟩] at hdeliver
    cases hdeliver

/-- **Every saga ends**: with each message delivered once and no publish raising, whatever the interleaving and the
draws, a run has at most 20 steps an order, and where it can do no more but create orders, each order has ended in
exactly one of the four events that end a saga, and its records fix the status of that event. -/
theorem saga_ends {acts : List Action} {s : Sys} (hrun : (lts { format }).run {} acts = some s) :
    acts.length ≤ 20 * acts.countP (fun a => a.created?.isSome) ∧
      ((∀ a, a.created? = none → step { format } s a = none) → ∀ o, (s.ordersDb.get? o).isSome → s.Quiescent o ∧
        ∃ ty : EventType, ty.final ∧ s.landed o ty = 1 ∧
          (∀ ty' : EventType, ty'.final → 0 < s.landed o ty' → ty' = ty) ∧ s.fixedStatus o = ty.orderStatus) := by
  refine ⟨run_short hrun, fun hhalt o ho => ?_⟩
  have hi : Inv s := (lts { format }).run_inv (fun _ _ _ hi h => inv_step hi (step_sound h)) inv_init hrun
  have ha : Awake s :=
    (lts { format }).run_inv (fun _ _ _ ha h => awake_step ha (step_sound h)) (fun _ _ h => by cases h) hrun
  have hq := halted_quiescent hi.wf ha hhalt o
  obtain ⟨ty, hfinal, hpos, hfixed⟩ := hq.ending hi ho
  have hcounts := (hi.flow o).counts hi.wf
  exact ⟨hq, ty, hfinal, hcounts.final_once hfinal hpos, fun _ h h' => hcounts.final_unique hfinal h hpos h', hfixed⟩

/-- The run has used up its steps. -/
theorem compensated_halts {s : Sys} (hrun : (lts {}).run {} compensated = some s) {a : Action}
    (ha : a.created? = none) : step {} s a = none := by
  by_contra hsome
  obtain ⟨s', hs'⟩ := Option.ne_none_iff_exists'.1 hsome
  have hlonger : (lts {}).run {} (compensated ++ [a]) = some s' :=
    (lts {}).run_append.2 ⟨s, hrun, (lts {}).run_cons.2 ⟨s', hs', rfl⟩⟩
  have hshort := run_short hlonger
  rw [List.length_append, List.length_singleton, List.countP_append, List.countP_singleton, ha] at hshort
  exact absurd hshort (by decide)

theorem saga_ends_compensated : ∃ s, (lts {}).run {} compensated = some s ∧
    compensated.length ≤ 20 * compensated.countP (fun a => a.created?.isSome) ∧
    (∀ a, a.created? = none → step {} s a = none) ∧ (s.ordersDb.get? anOrder).isSome ∧ s.Quiescent anOrder ∧
    ∃ ty : EventType, ty.final ∧ s.landed anOrder ty = 1 ∧
      (∀ ty' : EventType, ty'.final → 0 < s.landed anOrder ty' → ty' = ty) ∧
      s.fixedStatus anOrder = ty.orderStatus := by
  obtain ⟨s, hrun, hknown⟩ : ∃ s, (lts {}).run {} compensated = some s ∧ (s.ordersDb.get? anOrder).isSome :=
    ⟨_, rfl, rfl⟩
  obtain ⟨hshort, hends⟩ := saga_ends hrun
  have hhalt : ∀ a, a.created? = none → step {} s a = none := fun a ha => compensated_halts hrun ha
  exact ⟨s, hrun, hshort, hhalt, hknown, hends hhalt anOrder hknown⟩

end Saga
end KafkaGuide
