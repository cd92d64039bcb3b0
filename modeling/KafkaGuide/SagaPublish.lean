import KafkaGuide.SagaHistory
/-!
# SagaPublish — local records against published events, when a publish raises

Every handler of the saga writes its local state, then awaits its publish; nothing undoes the write when the publish
raises.  While a handler runs, what it has written is ahead of the log by the event it is about to publish (`Ahead`).
So at rest the two agree in every run in which no publish raises before its event is in the log (`rest_published`).
-/
namespace KafkaGuide
namespace Saga

variable {format : ℚ → String}

/-- No handler is running: a consumer waits for a message, or its loop has ended. -/
def Sys.AtRest (s : Sys) : Prop := ∀ p phase, s.running p = some phase → phase = .stopped

/-- **What is stored has been published**: the ORDER_CREATED of each order, the result event of each record, a
REFUND_REQUESTED for an order that is COMPENSATING. -/
structure Sys.Published (s : Sys) : Prop where
  orders : ∀ o, (s.ordersDb.get? o).isSome → 0 < s.landed o .orderCreated
  records : ∀ o ty, s.recorded o ty ≤ s.landed o ty
  compensating : ∀ o, s.status o = some .compensating → 0 < s.landed o .refundRequested

/-- The step is a publish that raises before its event is in the log. -/
def LosesEvent (s : Sys) : Action → Prop
  | .raise p => match s.running p with
    | some (.publishing _ _ false) => True
    | _ => False
  | _ => False

instance (s : Sys) (a : Action) : Decidable (LosesEvent s a) := by
  unfold LosesEvent
  split
  · split <;> infer_instance
  · infer_instance

theorem landed_of_not_loses {s : Sys} {p : Party} {topic : Topic} {event : Event} {landed : Bool}
    (hrun : s.running p = some (.publishing topic event landed)) (h : ¬ LosesEvent s (.raise p)) : landed = true := by
  cases landed with
  | true => rfl
  | false =>
    refine absurd ?_ h
    change match s.running p with
      | some (.publishing _ _ false) => True
      | _ => False
    rw [hrun]
    trivial

/-- What is stored and not in the log is about to be: it is the event of a running handler. -/
structure Ahead (s : Sys) : Prop where
  orders : ∀ o, (s.ordersDb.get? o).isSome → 0 < s.landed o .orderCreated + s.creating o
  records : ∀ o, Recorded s o
  compensating : ∀ o, s.status o = some .compensating → 0 < s.landed o .refundRequested + s.owed .compensate o

theorem ahead_init : Ahead {} where
  orders _ h := nomatch h
  records := recorded_init
  compensating _ h := nomatch h

/-- **At rest nothing is about to be published.** -/
theorem Ahead.published {s : Sys} (ha : Ahead s) (hrest : s.AtRest) : s.Published where
  orders o ho := by
    have h := ha.orders o ho
    have hzero : s.creating o = 0 := by
      unfold Sys.creating
      split
      · rename_i hrun
        cases hrest _ _ hrun
      · rfl
    omega
  records o ty := by
    have hun : ∀ svc, s.unlanded svc o ty = 0 := fun svc => by
      unfold Sys.unlanded
      cases hrun : s.running (.consumer svc) with
      | none => rfl
      | some phase =>
        cases hrest _ _ hrun
        rfl
    by_cases hst : ∃ st : Stage, ty.topic = st.output ∧ st ≠ .compensate
    · obtain ⟨st, htopic, hne⟩ := hst
      have h := ha.records o st ty htopic hne
      rw [hun, Nat.add_zero] at h
      exact h.le
    · -- no service keeps a record of an ORDER_CREATED or a REFUND_REQUESTED
      cases ty <;> first
        | exact Nat.zero_le _
        | exact absurd ⟨.pay, rfl, by decide⟩ hst
        | exact absurd ⟨.reserve, rfl, by decide⟩ hst
        | exact absurd ⟨.refund, rfl, by decide⟩ hst
  compensating o hstatus := by
    have h := ha.compensating o hstatus
    have hzero : s.owed .compensate o = 0 := by
      unfold Sys.owed Sys.debt
      cases hrun : s.running (.consumer Stage.compensate.service) with
      | none => rfl
      | some phase =>
        cases hrest _ _ hrun
        rfl
    omega

/-! ## Steps -/

/-- A publish that raises once its event is in the log leaves the logs, and what every handler owes, as they were. -/
theorem raised_flow {s : Sys} {p : Party} {topic : Topic} {event : Event}
    (hrun : s.running p = some (.publishing topic event true)) (o : Uuid) :
    (s.raised p).log = s.log ∧ (s.raised p).ordersDb = s.ordersDb ∧ (s.raised p).creating o = s.creating o ∧
      ∀ st, (s.raised p).owed st o = s.owed st o := by
  cases p with
  | post o' =>
    refine ⟨rfl, rfl, ?_, fun st => ?_⟩
    · unfold Sys.creating Sys.raised
      rw [setRunning_running]
      by_cases ho : o = o'
      · subst ho
        simp [hrun]
      · simp [ho]
    · unfold Sys.owed Sys.raised
      rw [setRunning_post_debt]
  | consumer svc =>
    refine ⟨rfl, rfl, creating_congr rfl, fun st => ?_⟩
    rw [Sys.raised, setRunning_owed]
    split
    · rename_i hst
      unfold Sys.owed Sys.debt
      rw [hst, hrun]
      rfl
    · rfl

theorem ahead_orders_step {net : Net} {s s' : Sys} {a : Action} (hw : Wf s) (ha : Ahead s) (h : Step net s a s')
    (hlost : ¬ LosesEvent s a) (o : Uuid) (ho : (s'.ordersDb.get? o).isSome) :
    0 < s'.landed o .orderCreated + s'.creating o := by
  have hold := ha.orders o
  cases h with
  | @createNewOrder o' userId items hnew =>
    by_cases heq : o = o'
    · subst heq
      have hcreating : (Sys.setRunning { s with ordersDb := (createNewOrder s.ordersDb o userId items).1 } (.post o)
          (some (.publishing .orderCreated (createNewOrder s.ordersDb o userId items).2 false))).creating o = 1 := by
        unfold Sys.creating
        rw [setRunning_running, if_pos rfl]
      rw [hcreating]
      exact Nat.succ_pos _
    · have hknown : (s.ordersDb.get? o).isSome := by
        change ((createNewOrder s.ordersDb o' userId items).1.get? o).isSome at ho
        simpa [createNewOrder, createOrder, heq] using ho
      have hsame := hold hknown
      unfold Sys.creating at hsame ⊢
      rw [setRunning_running, if_neg (by simpa using heq)]
      exact hsame
  | @deliver svc topic o' i event hrun hget hsub hi =>
    rw [isSome_receive] at ho
    rw [landed_congr (receive_log ..).1, creating_congr (receive_post ..)]
    exact hold ho
  | @draw svc topic event isSuccess _ hrun hd =>
    obtain ⟨_, _, -, -, -, -, hlog, -, hdb, hrunning, -⟩ := drawn_stage hd
    rw [hdb] at ho
    have hpost : s'.running (.post o) = s.running (.post o) := by
      rw [hrunning, setRunning_running, if_neg (by simp)]
    rw [landed_congr hlog, creating_congr hpost]
    exact hold ho
  | @land p topic event hrun =>
    have htopic := (hw.running p _ hrun).topic
    have hcreating := land_creating hw hrun o
    have hlanded := append_landed (s := s) htopic o .orderCreated
    have hsame := hold ho
    change 0 < (s.append topic event).landed o .orderCreated + _
    have hiff : (.orderCreated = topic ∧ o = event.orderId) → event.eventType = .orderCreated ∧ event.orderId = o := by
      rintro ⟨ht, rfl⟩
      exact ⟨EventType.eq_orderCreated (htopic.trans ht.symm), rfl⟩
    by_cases hcond : .orderCreated = topic ∧ o = event.orderId
    · rw [if_pos (hiff hcond)] at hlanded
      omega
    · rw [if_neg hcond] at hcreating
      omega
  | @resume p topic event hrun =>
    obtain ⟨hlog, -, -, hcreating, hdb⟩ := published_flow hrun o
    rw [hdb] at ho
    rw [landed_congr hlog, hcreating]
    exact hold ho
  | @raise p topic event landed hrun hnet =>
    have hlanded := landed_of_not_loses hrun hlost
    subst hlanded
    obtain ⟨hlog, hdb, hcreating, -⟩ := raised_flow hrun o
    rw [hdb] at ho
    rw [landed_congr hlog, hcreating]
    exact hold ho

theorem ahead_records_step {net : Net} {s s' : Sys} {a : Action} (hw : Wf s) (ha : Ahead s) (h : Step net s a s')
    (hlost : ¬ LosesEvent s a) (o : Uuid) : Recorded s' o := by
  intro st ty htopic hst
  have hrec := ha.records o st ty htopic hst
  have hbalance := recorded_balance hw h o htopic hst
  have hzero : s.lost st.service o ty a = 0 := by
    cases h with
    | @raise p topic event landed hrun hnet =>
      have hlanded := landed_of_not_loses hrun hlost
      subst hlanded
      cases p with
      | post o' => rfl
      | consumer svc =>
        change (if svc = st.service then s.unlanded st.service o ty else 0) = 0
        split
        · rename_i hsvc
          rw [← hsvc]
          exact unlanded_of_running hrun rfl o ty
        · rfl
    | _ => rfl
  omega

/-- A delivery to another service leaves what a stage owes as it was. -/
theorem receive_owed_other (s : Sys) (format : ℚ → String) {svc : Service} (topic : Topic) (event : Event) {st : Stage}
    (hsvc : st.service ≠ svc) (o : Uuid) : (s.receive format svc topic event).owed st o = s.owed st o := by
  have hset : ∀ phase, (s.setRunning (.consumer svc) phase).owed st o = s.owed st o := fun phase => by
    rw [setRunning_owed, if_neg hsvc]
  unfold Sys.receive
  split
  · exact hset _
  · exact hset _
  · split
    · exact hset _
    · rfl

theorem orderStatus_compensating {ty : EventType} (h : ty.orderStatus = some .compensating) :
    ty = .inventoryFailed := by
  cases ty <;> first | rfl | cases h

theorem created_not_compensating {s : Sys} {o : Uuid} {order : Order} (hcreated : s.ordersDb.get? o = some order)
    (hst : order.status = .created) : s.status o ≠ some .compensating := by
  unfold Sys.status
  rw [hcreated, Option.map_some, hst]
  decide

/-- **The delivery that moves an order to COMPENSATING** is of the INVENTORY_FAILED whose handler requests the
refund. -/
theorem deliver_compensating {s s' : Sys} {svc : Service} {event : Event} {i : Nat} {o : Uuid} {status : OrderStatus}
    {reason : Option String} (hs' : s' = (s.advance svc event.eventType.topic event.orderId i).receive format svc
      event.eventType.topic event)
    (hget : (s.log event.eventType.topic event.orderId)[i]? = some event) (hsub : svc.subscribes event.eventType.topic)
    (hrun : s.running (.consumer svc) = none)
    (hmoves : s.moves o (.deliver svc event.eventType.topic event.orderId i) = some status)
    (hmoved : s'.ordersDb.get? o = (s.ordersDb.get? o).map (fun order => order.moved status reason))
    (hstatus : s'.status o = some .compensating) : 0 < s'.owed .compensate o := by
  cases svc with
  | order =>
    change (if event.orderId = o then _ else none) = some status at hmoves
    split at hmoves
    · rename_i ho
      subst ho
      rw [hget] at hmoves
      obtain ⟨order, horder, hnew⟩ := Option.map_eq_some_iff.1 hstatus
      rw [hmoved] at horder
      obtain ⟨before, hbefore, rfl⟩ := Option.map_eq_some_iff.1 horder
      cases hnew
      have hknown : ((s.advance .order event.eventType.topic event.orderId i).ordersDb.get? event.orderId).isSome := by
        rw [show (s.advance .order _ _ i).ordersDb = s.ordersDb from rfl, hbefore]
        rfl
      have howed := receive_owed (s := s.advance .order event.eventType.topic event.orderId i) format hsub hrun hknown
        .compensate event.orderId
      rw [if_pos ⟨rfl, orderStatus_compensating hmoves, rfl⟩] at howed
      rw [hs']
      omega
    · cases hmoves
  | payment => cases hmoves
  | inventory => cases hmoves

/-- An order is COMPENSATING only by the INVENTORY_FAILED whose handler requests its refund. -/
theorem ahead_compensating_step {net : Net} {s s' : Sys} {a : Action} (hw : Wf s) (ha : Ahead s) (h : Step net s a s')
    (hlost : ¬ LosesEvent s a) (o : Uuid) (hstatus : s'.status o = some .compensating) :
    0 < s'.landed o .refundRequested + s'.owed .compensate o := by
  have hold := ha.compensating o
  have hchange := step_change hw h o
  cases h with
  | @createNewOrder o' userId items hnew =>
    have howed : (Sys.setRunning { s with ordersDb := (createNewOrder s.ordersDb o' userId items).1 } (.post o')
        (some (.publishing .orderCreated (createNewOrder s.ordersDb o' userId items).2 false))).owed .compensate o =
          s.owed .compensate o := by
      unfold Sys.owed
      rw [setRunning_post_debt]
      rfl
    rw [howed]
    refine hold ?_
    cases hchange with
    | same _ hsame => exact (status_congr hsame).symm.trans hstatus
    | created order _ _ hcreated hst _ => exact absurd hstatus (created_not_compensating hcreated hst)
    | moved status reason hmoves => cases hmoves
  | @deliver svc topic o' i event hrun hget hsub hi =>
    obtain ⟨rfl, rfl⟩ := hw.keyed topic o' event (List.mem_of_getElem? hget)
    rw [landed_congr (receive_log ..).1]
    change 0 < s.landed o .refundRequested + _
    cases hchange with
    | same _ hsame =>
      have hpos := hold ((status_congr hsame).symm.trans hstatus)
      by_cases hsvc : Stage.compensate.service = svc
      · -- order-service was idle, so what is due has landed
        subst hsvc
        rw [owed_of_none hrun] at hpos
        omega
      · rw [receive_owed_other _ _ _ _ hsvc]
        exact hpos
    | created order _ _ hcreated hst _ => exact absurd hstatus (created_not_compensating hcreated hst)
    | moved status reason hmoves hmoved =>
      have howed := deliver_compensating rfl hget hsub hrun hmoves hmoved hstatus
      omega
  | @draw svc topic event isSuccess _ hrun hd =>
    have howed := draw_owed hw hrun hd .compensate o
    obtain ⟨-, -, -, -, -, -, hlog, -, hdb, -, -⟩ := drawn_stage hd
    rw [landed_congr hlog, howed]
    exact hold ((status_congr (by rw [hdb])).symm.trans hstatus)
  | @land p topic event hrun =>
    have htopic := (hw.running p _ hrun).topic
    have howed := land_owed hw hrun .compensate o
    have hlanded := append_landed (s := s) htopic o .refundRequested
    have hsame := hold hstatus
    change 0 < (s.append topic event).landed o .refundRequested + _
    by_cases hcond : Stage.compensate.output = topic ∧ o = event.orderId
    · have hty : event.eventType = .refundRequested := EventType.eq_refundRequested (htopic.trans hcond.1.symm)
      rw [if_pos ⟨hty, hcond.2.symm⟩] at hlanded
      omega
    · rw [if_neg hcond] at howed
      omega
  | @resume p topic event hrun =>
    obtain ⟨hlog, -, howed, -, -⟩ := published_flow hrun o
    rw [landed_congr hlog, howed]
    refine hold ?_
    cases p with
    | post o' =>
      rw [published_status] at hstatus
      split at hstatus
      · obtain ⟨_, -, h⟩ := Option.map_eq_some_iff.1 hstatus
        cases h
      · exact hstatus
    | consumer svc => exact hstatus
  | @raise p topic event landed hrun hnet =>
    have hlanded := landed_of_not_loses hrun hlost
    subst hlanded
    obtain ⟨hlog, hdb, -, howed⟩ := raised_flow hrun o
    rw [landed_congr hlog, howed]
    exact hold ((status_congr (by rw [hdb])).symm.trans hstatus)

theorem ahead_step {net : Net} {s s' : Sys} {a : Action} (hw : Wf s) (ha : Ahead s) (h : Step net s a s')
    (hlost : ¬ LosesEvent s a) : Ahead s' where
  orders := ahead_orders_step hw ha h hlost
  records := ahead_records_step hw ha h hlost
  compensating := ahead_compensating_step hw ha h hlost

/-- **At rest everything stored has been published, in a run in which no publish raises before its event is in the
log**: it may raise afterwards, and messages may be delivered again. -/
theorem rest_published (net : Net) {acts : List Action} {s : Sys} (hrun : (lts net).run {} acts = some s)
    (hlost : (lts net).Along (fun s a _ => ¬ LosesEvent s a) {} acts) (hrest : s.AtRest) : s.Published := by
  have hstep : ∀ s a s', Wf s ∧ Ahead s → (lts net).step s a = some s' → ¬ LosesEvent s a → Wf s' ∧ Ahead s' :=
    fun s a s' hi h hl => ⟨wf_step hi.1 (step_sound h), ahead_step hi.1 hi.2 (step_sound h) hl⟩
  exact ((lts net).run_inv_along hstep ⟨wf_init, ahead_init⟩ hlost hrun).2.published hrest

def unpublishedOrder : Uuid := ⟨"a91d3c57-6e24-4b08-8f1a-7c5e2d9b0f46", by decide⟩

/-- `publish_order_created` raises, and nothing of the order is in the log. -/
def raisedAtOnce : List Action :=
  [.createNewOrder unpublishedOrder "user-001" [⟨"PROD-001", "노트북", 1, 10⟩], .raise (.post unpublishedOrder)]

/-- `publish_order_created` raises when the ORDER_CREATED is in the log. -/
def raisedLate : List Action :=
  [.createNewOrder unpublishedOrder "user-001" [⟨"PROD-001", "노트북", 1, 10⟩], .land (.post unpublishedOrder),
    .raise (.post unpublishedOrder)]

theorem atRest_of_none {s : Sys} (h : ∀ p, s.running p = none) : s.AtRest := by
  intro p phase hrun
  rw [h p] at hrun
  cases hrun

theorem rest_published_raisedLate :
    ∃ s, (lts { publishRaises := true }).run {} raisedLate = some s ∧ s.AtRest ∧ s.Published := by
  have hlost : (lts { publishRaises := true }).Along (fun s a _ => ¬ LosesEvent s a) {} raisedLate := by
    decide +kernel
  obtain ⟨s, hrun, hrest⟩ : ∃ s, (lts { publishRaises := true }).run {} raisedLate = some s ∧ s.AtRest := by
    refine ⟨_, rfl, atRest_of_none fun p => ?_⟩
    change (if _ then none else if _ then _ else if _ then _ else none) = none
    by_cases hp : p = .post unpublishedOrder <;> simp [hp]
  exact ⟨s, hrun, hrest, rest_published { publishRaises := true } hrun hlost hrest⟩

/-- Nothing was published of the order, and it stays in `orders_db`. -/
theorem raisedAtOnce_unpublished :
    ∃ s, (lts { publishRaises := true }).run {} raisedAtOnce = some s ∧ s.AtRest ∧ ¬ s.Published := by
  refine ⟨_, rfl, atRest_of_none fun p => ?_, fun h => ?_⟩
  · change (if _ then none else if _ then _ else none) = none
    by_cases hp : p = .post unpublishedOrder <;> simp [hp]
  · have hpos := h.orders unpublishedOrder (by decide +kernel)
    exact absurd hpos (by decide +kernel)

end Saga
end KafkaGuide
