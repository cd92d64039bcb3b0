import KafkaGuide.SagaFlow
/-!
# SagaRefund — refunds against payments, when messages are delivered again

No handler of the saga deduplicates.  A message delivered again to the stage it sets off is answered again, so each of
the three hops from a payment to its refund can multiply it; redelivering anything else multiplies payments only, or
nothing.  While the three hops handle each message once, an order is not refunded more often than it was paid
(`refunds_le_payments`).
-/
namespace KafkaGuide
namespace Saga

variable {format : ℚ → String}

/-- The step delivers a message about `o` again to the stage it sets off, past the payment. -/
def Rehandles (s : Sys) (o : Uuid) : Action → Prop
  | .deliver .inventory .paymentResult o' i => o' = o ∧ i < s.next .inventory .paymentResult o ∧
    ((s.log .paymentResult o)[i]?).map Event.eventType = some .paymentCompleted
  | .deliver .order .inventoryResult o' i => o' = o ∧ i < s.next .order .inventoryResult o ∧
    ((s.log .inventoryResult o)[i]?).map Event.eventType = some .inventoryFailed
  | .deliver .payment .refundRequest o' i => o' = o ∧ i < s.next .payment .refundRequest o ∧
    ((s.log .refundRequest o)[i]?).map Event.eventType = some .refundRequested
  | _ => False

instance (s : Sys) (o : Uuid) (a : Action) : Decidable (Rehandles s o a) := by
  unfold Rehandles
  split <;> infer_instance

theorem Rehandles.of_stage {s : Sys} {st : Stage} {event : Event} {i : Nat} (hst : st ≠ .pay)
    (htype : event.eventType = st.trigger) (hlt : i < s.next st.service event.eventType.topic event.orderId)
    (hget : (s.log event.eventType.topic event.orderId)[i]? = some event) :
    Rehandles s event.orderId (.deliver st.service event.eventType.topic event.orderId i) := by
  have hmap : ((s.log event.eventType.topic event.orderId)[i]?).map Event.eventType = some st.trigger := by
    rw [hget]
    exact congrArg some htype
  rw [htype] at hlt hmap ⊢
  cases st with
  | pay => exact absurd rfl hst
  | reserve => exact ⟨rfl, hlt, hmap⟩
  | compensate => exact ⟨rfl, hlt, hmap⟩
  | refund => exact ⟨rfl, hlt, hmap⟩

/-- The order has no more completed refunds than completed payments. -/
def Covered (s : Sys) (o : Uuid) : Prop := s.recorded o .refundCompleted ≤ s.recorded o .paymentCompleted

instance (s : Sys) (o : Uuid) : Decidable (Covered s o) := inferInstanceAs (Decidable (_ ≤ _))

/-! ## Deliveries -/

/-- A message delivered again leaves the cursor where it is. -/
theorem advance_old {s : Sys} {svc : Service} {topic : Topic} {o : Uuid} {i : Nat} (h : i < s.next svc topic o) :
    s.advance svc topic o i = s := by
  unfold Sys.advance
  have hnext : (fun svc' t o' => if svc' = svc ∧ t = topic ∧ o' = o then max (s.next svc' t o') (i + 1)
      else s.next svc' t o') = s.next := by
    funext svc' t o'
    split
    · rename_i hcond
      obtain ⟨rfl, rfl, rfl⟩ := hcond
      exact max_eq_left h
    · rfl
  rw [hnext]

theorem processMessage_unknown {db : OrdersDb} {topic : Topic} {event : Event}
    (hdb : ¬ (db.get? event.orderId).isSome) : (processMessage format db topic event).2 = none := by
  unfold processMessage
  split <;> try rfl
  dsimp only
  split
  · rename_i order ho
    have hsome := isSome_updateOrderStatus db event.orderId event.orderId .compensating (event.reason.getD "재고 부족")
    rw [ho] at hsome
    exact absurd hsome.symm hdb
  · rfl

/-- A consumer that reads a message owes at most the answer of the stage the message sets off there. -/
theorem receive_owed_le {s : Sys} (format : ℚ → String) {svc : Service} {event : Event}
    (hsub : svc.subscribes event.eventType.topic) (hrun : s.running (.consumer svc) = none) (st : Stage) (o : Uuid) :
    (s.receive format svc event.eventType.topic event).owed st o ≤
      s.owed st o + if st.service = svc ∧ event.eventType = st.trigger ∧ event.orderId = o then 1 else 0 := by
  by_cases hdb : (s.ordersDb.get? event.orderId).isSome
  · exact (receive_owed format hsub hrun hdb st o).le
  · by_cases hsvc : svc = .order
    · subst hsvc
      unfold Sys.receive
      dsimp only
      rw [processMessage_unknown hdb, Option.map_none, setRunning_owed]
      split
      · exact Nat.zero_le _
      · exact Nat.le_add_right _ _
    · -- the other services do not look at the orders
      have hsame := receive_owed (s := { s with ordersDb := createOrder s.ordersDb event.orderId "" [] 0 }) format hsub
        hrun (by simp [createOrder]) st o
      have hreceive : (Sys.receive { s with ordersDb := createOrder s.ordersDb event.orderId "" [] 0 } format svc
          event.eventType.topic event).owed st o = (s.receive format svc event.eventType.topic event).owed st o := by
        unfold Sys.receive
        split
        · exact absurd rfl hsvc
        · rfl
        · split <;> rfl
      rw [← hreceive]
      exact hsame.le

theorem raised_log (s : Sys) (p : Party) : (s.raised p).log = s.log ∧ (s.raised p).next = s.next := by
  cases p <;> exact ⟨rfl, rfl⟩

/-- A raising publish leaves nothing owed that was not. -/
theorem raised_owed_le (s : Sys) (p : Party) (st : Stage) (o : Uuid) : (s.raised p).owed st o ≤ s.owed st o := by
  cases p with
  | post o' =>
    unfold Sys.owed Sys.raised
    rw [setRunning_post_debt]
  | consumer svc =>
    rw [Sys.raised, setRunning_owed]
    split
    · exact Nat.zero_le _
    · exact le_rfl

/-! ## What holds of one order -/

/-- payment-service has read a REFUND_REQUESTED about the order, and not drawn its outcome. -/
def Phase.refunding (o : Uuid) : Phase → Nat
  | .sleeping _ event => if event.eventType = .refundRequested ∧ event.orderId = o then 1 else 0
  | _ => 0

def Sys.refunding (s : Sys) (o : Uuid) : Nat := ((s.running (.consumer .payment)).map (Phase.refunding o)).getD 0

/-- **Each hop answers what it has seen, once**: the payments recorded cover the PAYMENT_COMPLETED, the stages past the
payment owe and have published no more answers than they have seen messages, and neither are there more refunds. -/
structure Hops (s : Sys) (o : Uuid) : Prop where
  paid : s.landed o .paymentCompleted + s.unlanded .payment o .paymentCompleted ≤ s.recorded o .paymentCompleted
  answered : ∀ st : Stage, st ≠ .pay → (s.log st.output o).length + s.owed st o ≤ s.seen st.service o st.trigger
  refunded : s.recorded o .refundCompleted + s.recorded o .refundFailed + s.refunding o ≤
    s.seen .payment o .refundRequested

theorem hops_init (o : Uuid) : Hops {} o where
  paid := Nat.le_refl 0
  answered st _ := by cases st <;> exact Nat.le_refl 0
  refunded := Nat.le_refl 0

/-- **The hops in a row**: a completed refund goes back to a completed payment. -/
theorem Hops.covered {s : Sys} {o : Uuid} (h : Hops s o) : Covered s o := by
  have h1 := h.paid
  have h2 : (s.log .inventoryResult o).length + s.owed .reserve o ≤ s.seen .inventory o .paymentCompleted :=
    h.answered .reserve (by decide)
  have h3 : (s.log .refundRequest o).length + s.owed .compensate o ≤ s.seen .order o .inventoryFailed :=
    h.answered .compensate (by decide)
  have h4 := h.refunded
  have h5 := seen_le_landed s .payment o .refundRequested
  have h6 : s.landed o .refundRequested ≤ (s.log .refundRequest o).length := landed_le_length s o .refundRequested
  have h7 := seen_le_landed s .order o .inventoryFailed
  have h8 : s.landed o .inventoryFailed ≤ (s.log .inventoryResult o).length := landed_le_length s o .inventoryFailed
  have h9 := seen_le_landed s .inventory o .paymentCompleted
  unfold Covered
  omega

theorem paid_step {net : Net} {s s' : Sys} {a : Action} {o : Uuid} (hw : Wf s) (hh : Hops s o) (h : Step net s a s') :
    s'.landed o .paymentCompleted + s'.unlanded .payment o .paymentCompleted ≤ s'.recorded o .paymentCompleted := by
  have htopic : EventType.paymentCompleted.topic = Stage.pay.output := rfl
  have hbalance := recorded_balance hw h o htopic (by decide)
  have hpaid := hh.paid
  change _ + (_ + s.unlanded .payment o _) = _ + (_ + s'.unlanded .payment o _) + _ at hbalance
  omega

/-- **A delivery**: the messages a stage past the payment has seen grow with what it owes. -/
theorem deliver_answered {net : Net} {s : Sys} {svc : Service} {event : Event} {i : Nat}
    (hrun : s.running (.consumer svc) = none)
    (hget : (s.log event.eventType.topic event.orderId)[i]? = some event)
    (hsub : svc.subscribes event.eventType.topic)
    (hi : i = s.next svc event.eventType.topic event.orderId ∨
      net.redelivers ∧ i < s.next svc event.eventType.topic event.orderId)
    {o : Uuid} (hnew : ¬ Rehandles s o (.deliver svc event.eventType.topic event.orderId i)) {st : Stage}
    (hst : st ≠ .pay) {n : Nat} (hn : n + s.owed st o ≤ s.seen st.service o st.trigger) :
    n + ((s.advance svc event.eventType.topic event.orderId i).receive net.format svc event.eventType.topic
        event).owed st o ≤
      ((s.advance svc event.eventType.topic event.orderId i).receive net.format svc event.eventType.topic event).seen
        st.service o st.trigger := by
  rw [receive_seen]
  rcases hi with rfl | ⟨-, hlt⟩
  · have howed := receive_owed_le (s := s.advance svc event.eventType.topic event.orderId
      (s.next svc event.eventType.topic event.orderId)) net.format hsub hrun st o
    have hadvance := advance_seen hget st.service o st.trigger
    change _ ≤ s.owed st o + _ at howed
    by_cases hcond : st.service = svc ∧ event.eventType = st.trigger ∧ event.orderId = o
    · rw [if_pos hcond] at howed
      rw [if_pos ⟨hcond.1, hcond.2.2.symm, hcond.2.1⟩] at hadvance
      omega
    · rw [if_neg hcond] at howed
      omega
  · rw [advance_old hlt]
    have howed := receive_owed_le net.format hsub hrun st o
    rw [if_neg] at howed
    · omega
    · rintro ⟨rfl, htype, rfl⟩
      exact hnew (.of_stage hst htype hlt hget)

theorem answered_step {net : Net} {s s' : Sys} {a : Action} {o : Uuid} (hw : Wf s) (hh : Hops s o)
    (h : Step net s a s') (hnew : ¬ Rehandles s o a) {st : Stage} (hst : st ≠ .pay) :
    (s'.log st.output o).length + s'.owed st o ≤ s'.seen st.service o st.trigger := by
  have hn := hh.answered st hst
  cases h with
  | createNewOrder userId items hfresh =>
    unfold Sys.owed at hn ⊢
    rw [setRunning_post_debt]
    exact hn
  | @deliver svc topic o' i event hrun hget hsub hi =>
    obtain ⟨rfl, rfl⟩ := hw.keyed topic o' event (List.mem_of_getElem? hget)
    have hstep := deliver_answered hrun hget hsub hi hnew hst hn
    rw [(receive_log ..).1]
    exact hstep
  | @draw svc topic event isSuccess _ hrun hd =>
    have howed := draw_owed hw hrun hd st o
    obtain ⟨-, -, -, -, -, -, hlog, hnext, -⟩ := drawn_stage hd
    rw [hlog, seen_congr hlog hnext, howed]
    exact hn
  | @land p topic event hrun =>
    have hlen := append_length s topic st.output event o
    have howed := land_owed hw hrun st o
    have hseen := append_seen hw topic event st.service o st.trigger
    change ((s.append topic event).log st.output o).length + _ ≤ (s.append topic event).seen st.service o st.trigger
    omega
  | @resume p topic event hrun =>
    obtain ⟨hlog, hnext, howed, -, -⟩ := published_flow hrun o
    rw [hlog, seen_congr hlog hnext, howed]
    exact hn
  | @raise p topic event landed hrun hnet =>
    have howed := raised_owed_le s p st o
    obtain ⟨hlog, hnext⟩ := raised_log s p
    rw [hlog, seen_congr hlog hnext]
    omega

theorem setRunning_refunding (s : Sys) (svc : Service) (phase : Option Phase) (o : Uuid) :
    (s.setRunning (.consumer svc) phase).refunding o =
      if svc = .payment then (phase.map (Phase.refunding o)).getD 0 else s.refunding o := by
  unfold Sys.refunding
  rw [setRunning_running]
  by_cases h : svc = .payment
  · rw [if_pos h, if_pos (by rw [h])]
  · rw [if_neg h, if_neg (by simpa using Ne.symm h)]

theorem setRunning_post_refunding (s : Sys) (o' : Uuid) (phase : Option Phase) (o : Uuid) :
    (s.setRunning (.post o') phase).refunding o = s.refunding o := by
  unfold Sys.refunding
  rw [setRunning_running, if_neg (by simp)]

/-- A refund begins with the delivery of a REFUND_REQUESTED. -/
theorem receive_refunding (s : Sys) (format : ℚ → String) (svc : Service) (topic : Topic) (event : Event) (o : Uuid) :
    (s.receive format svc topic event).refunding o ≤ s.refunding o +
      if svc = .payment ∧ event.eventType = .refundRequested ∧ event.orderId = o then 1 else 0 := by
  unfold Sys.receive
  cases svc with
  | order =>
    dsimp only
    rw [setRunning_refunding, if_neg (by decide)]
    exact Nat.le_add_right _ _
  | payment =>
    dsimp only
    rw [setRunning_refunding, if_pos rfl]
    simp only [Option.map_some, Option.getD_some, Phase.refunding, true_and]
    exact Nat.le_add_left _ _
  | inventory =>
    dsimp only
    split
    · rw [setRunning_refunding, if_neg (by decide)]
      exact Nat.le_add_right _ _
    · exact Nat.le_add_right _ _

/-- **A draw records the refund it ends.** -/
theorem draw_refunded {s s' : Sys} {svc : Service} {topic : Topic} {event : Event} {isSuccess : Bool} (hw : Wf s)
    (hrun : s.running (.consumer svc) = some (.sleeping topic event))
    (h : s.drawn svc topic event isSuccess = some s') (o : Uuid) :
    s'.recorded o .refundCompleted + s'.recorded o .refundFailed + s'.refunding o ≤
      s.recorded o .refundCompleted + s.recorded o .refundFailed + s.refunding o := by
  obtain ⟨st, answer, hsvc, htopic, hanswer, horder, -, -, -, hrunning, hrecorded⟩ := drawn_stage h
  obtain ⟨st', hsvc', htopic', htype⟩ := hw.running _ _ hrun
  have hst : st' = st := Stage.eq_of_reads (hsvc'.trans hsvc.symm) (htopic'.trans htopic.symm)
  subst hst
  have hafter : s'.refunding o =
      (s.setRunning (.consumer svc) (some (.publishing st'.output answer false))).refunding o := by
    unfold Sys.refunding
    rw [hrunning]
  rw [hrecorded, hrecorded, hafter, setRunning_refunding]
  by_cases hrefund : st' = .refund
  · subst hrefund
    have hpayment : svc = .payment := hsvc.symm
    subst hpayment
    rw [if_pos rfl]
    simp only [Option.map_some, Option.getD_some, Phase.refunding, horder]
    by_cases ho : event.orderId = o
    · have hone : s.refunding o = 1 := by
        unfold Sys.refunding
        rw [hrun]
        exact if_pos ⟨htype, ho⟩
      rw [hone]
      cases hty : answer.eventType <;> simp [ho] <;> omega
    · simp [ho]
  · have hne : ∀ ty : EventType, ty.topic = .refundResult → ¬ (answer.eventType = ty ∧ answer.orderId = o) := by
      rintro ty hty ⟨rfl, -⟩
      exact hrefund (Stage.output_injective (hanswer.symm.trans hty))
    rw [if_neg (hne .refundCompleted rfl), if_neg (hne .refundFailed rfl)]
    split
    · exact Nat.le_add_right _ _
    · exact le_rfl

/-- The rest of a publication keeps every record, and no refund begins with it. -/
theorem publishing_refunded {net : Net} {s s' : Sys} {p : Party} {topic : Topic} {event : Event} {landed : Bool}
    {a : Action} (hrun : s.running p = some (.publishing topic event landed)) (h : Step net s a s')
    (ha : a = .land p ∨ a = .resume p ∨ a = .raise p) (o : Uuid) :
    s'.refunding o = s.refunding o ∧ ∀ ty, s'.recorded o ty = s.recorded o ty := by
  have hnone : p = .consumer .payment → s.refunding o = 0 := fun hp => by
    unfold Sys.refunding
    rw [← hp, hrun]
    rfl
  have hset : ∀ (s1 : Sys) (phase : Option Phase), s1.refunding o = s.refunding o →
      (phase.map (Phase.refunding o)).getD 0 = 0 → (s1.setRunning p phase).refunding o = s.refunding o := by
    intro s1 phase hs1 hphase
    cases p with
    | post o' => rw [setRunning_post_refunding, hs1]
    | consumer svc =>
      rw [setRunning_refunding]
      split
      · rename_i hsvc
        rw [hphase, hnone (by rw [hsvc])]
      · exact hs1
  rcases ha with rfl | rfl | rfl
  · cases h with
    | land hrun' => exact ⟨hset _ _ rfl rfl, fun ty => rfl⟩
  · cases h with
    | resume hrun' =>
      cases p with
      | post o' => exact ⟨hset _ none rfl rfl, fun ty => rfl⟩
      | consumer svc => exact ⟨hset _ none rfl rfl, fun ty => rfl⟩
  · cases h with
    | raise hrun' hnet =>
      cases p with
      | post o' => exact ⟨hset _ none rfl rfl, fun ty => rfl⟩
      | consumer svc => exact ⟨hset _ (some .stopped) rfl rfl, fun ty => rfl⟩

theorem refunded_step {net : Net} {s s' : Sys} {a : Action} {o : Uuid} (hw : Wf s) (hh : Hops s o)
    (h : Step net s a s') (hnew : ¬ Rehandles s o a) :
    s'.recorded o .refundCompleted + s'.recorded o .refundFailed + s'.refunding o ≤
      s'.seen .payment o .refundRequested := by
  have hn := hh.refunded
  cases hstep : h with
  | createNewOrder userId items hfresh =>
    rw [setRunning_post_refunding]
    exact hn
  | @deliver svc topic o' i event hrun hget hsub hi =>
    obtain ⟨rfl, rfl⟩ := hw.keyed topic o' event (List.mem_of_getElem? hget)
    have hrefunding := receive_refunding (s.advance svc event.eventType.topic event.orderId i) net.format svc
      event.eventType.topic event o
    rw [recorded_receive, recorded_receive, receive_seen]
    change s.recorded o .refundCompleted + s.recorded o .refundFailed + _ ≤ _
    change _ ≤ s.refunding o + _ at hrefunding
    rcases hi with rfl | ⟨-, hlt⟩
    · have hadvance := advance_seen hget .payment o .refundRequested
      by_cases hcond : svc = .payment ∧ event.eventType = .refundRequested ∧ event.orderId = o
      · rw [if_pos hcond] at hrefunding
        rw [if_pos ⟨hcond.1.symm, hcond.2.2.symm, hcond.2.1⟩] at hadvance
        omega
      · rw [if_neg hcond] at hrefunding
        omega
    · rw [if_neg] at hrefunding
      · rw [advance_old hlt] at hrefunding ⊢
        omega
      · rintro ⟨rfl, htype, rfl⟩
        exact hnew (.of_stage (by decide : Stage.refund ≠ .pay) htype hlt hget)
  | draw hrun hd =>
    have hdraw := draw_refunded hw hrun hd o
    obtain ⟨-, -, -, -, -, -, hlog, hnext, -⟩ := drawn_stage hd
    rw [seen_congr hlog hnext]
    omega
  | @land p topic event hrun =>
    obtain ⟨hrefunding, hrecorded⟩ := publishing_refunded hrun h (.inl rfl) o
    have hseen := append_seen hw topic event .payment o .refundRequested
    rw [hrefunding, hrecorded, hrecorded]
    change _ ≤ (s.append topic event).seen .payment o .refundRequested
    omega
  | @resume p topic event hrun =>
    obtain ⟨hrefunding, hrecorded⟩ := publishing_refunded hrun h (.inr (.inl rfl)) o
    obtain ⟨hlog, hnext, -⟩ := published_flow hrun o
    rw [hrefunding, hrecorded, hrecorded, seen_congr hlog hnext]
    exact hn
  | @raise p topic event landed hrun hnet =>
    obtain ⟨hrefunding, hrecorded⟩ := publishing_refunded hrun h (.inr (.inr rfl)) o
    obtain ⟨hlog, hnext⟩ := raised_log s p
    rw [hrefunding, hrecorded, hrecorded, seen_congr hlog hnext]
    exact hn

theorem hops_step {net : Net} {s s' : Sys} {a : Action} {o : Uuid} (hw : Wf s) (hh : Hops s o) (h : Step net s a s')
    (hnew : ¬ Rehandles s o a) : Hops s' o where
  paid := paid_step hw hh h
  answered _ hst := answered_step hw hh h hnew hst
  refunded := refunded_step hw hh h hnew

/-- **An order is never refunded more often than it was paid, in a run that handles each of its messages past the
payment once**: whatever else is delivered again, whatever the outcomes, and whichever publishes raise. -/
theorem refunds_le_payments (net : Net) (o : Uuid) {acts : List Action} {s : Sys}
    (hrun : (lts net).run {} acts = some s) (hnew : (lts net).Along (fun s a _ => ¬ Rehandles s o a) {} acts) :
    Covered s o := by
  have hstep : ∀ s a s', Wf s ∧ Hops s o → (lts net).step s a = some s' → ¬ Rehandles s o a → Wf s' ∧ Hops s' o :=
    fun s a s' hi h hnew => ⟨wf_step hi.1 (step_sound h), hops_step hi.1 hi.2 (step_sound h) hnew⟩
  exact ((lts net).run_inv_along hstep ⟨wf_init, hops_init o⟩ hnew hrun).2.covered

def refundOrder : Uuid := ⟨"5d0c8e72-91ab-4f36-b7d4-2e6a9c1f8b53", by decide⟩

/-- An order that is paid, whose inventory fails, and that is refunded. -/
def refundedOnce : List Action :=
  [.createNewOrder refundOrder "user-001" [⟨"PROD-001", "노트북", 1, 10⟩], .land (.post refundOrder),
    .resume (.post refundOrder), .deliver .payment .orderCreated refundOrder 0, .draw .payment true,
    .land (.consumer .payment), .resume (.consumer .payment), .deliver .order .paymentResult refundOrder 0,
    .deliver .inventory .paymentResult refundOrder 0, .draw .inventory false, .land (.consumer .inventory),
    .resume (.consumer .inventory), .deliver .order .inventoryResult refundOrder 0, .land (.consumer .order),
    .resume (.consumer .order), .deliver .payment .refundRequest refundOrder 0, .draw .payment true,
    .land (.consumer .payment), .resume (.consumer .payment)]

/-- The INVENTORY_FAILED is delivered again to order-service, which requests a second refund. -/
def inventoryFailedAgain : List Action :=
  [.deliver .order .inventoryResult refundOrder 0, .land (.consumer .order), .resume (.consumer .order),
    .deliver .payment .refundRequest refundOrder 1, .draw .payment true]

/-- The REFUND_REQUESTED is delivered again to payment-service, which refunds it again. -/
def refundRequestedAgain : List Action := [.deliver .payment .refundRequest refundOrder 0, .draw .payment true]

/-- The PAYMENT_COMPLETED is delivered again to inventory-service, which fails it again. -/
def paymentCompletedAgain : List Action :=
  [.deliver .inventory .paymentResult refundOrder 0, .draw .inventory false, .land (.consumer .inventory),
    .resume (.consumer .inventory), .deliver .order .inventoryResult refundOrder 1, .land (.consumer .order),
    .resume (.consumer .order), .deliver .payment .refundRequest refundOrder 1, .draw .payment true]

/-- **Each of the three redeliveries refunds the order twice.** -/
theorem redelivery_not_covered :
    (∃ s, (lts { redelivers := true }).run {} (refundedOnce ++ inventoryFailedAgain) = some s ∧
      ¬ Covered s refundOrder) ∧
    (∃ s, (lts { redelivers := true }).run {} (refundedOnce ++ refundRequestedAgain) = some s ∧
      ¬ Covered s refundOrder) ∧
    ∃ s, (lts { redelivers := true }).run {} (refundedOnce ++ paymentCompletedAgain) = some s ∧
      ¬ Covered s refundOrder := by
  have not_covered (as : List Action) (h : ((lts { redelivers := true }).run {} as).any
      (fun s => decide (¬ Covered s refundOrder)) = true) :
      ∃ s, (lts { redelivers := true }).run {} as = some s ∧ ¬ Covered s refundOrder := by
    obtain ⟨s, hs, hcovered⟩ := (Option.any_eq_true ..).1 h
    exact ⟨s, hs, of_decide_eq_true hcovered⟩
  refine ⟨not_covered _ ?_, not_covered _ ?_, not_covered _ ?_⟩
  · decide +kernel
  · decide +kernel
  · decide +kernel

/-- The ORDER_CREATED and the REFUND_COMPLETED are delivered again: no harm is done. -/
def othersAgain : List Action :=
  [.deliver .order .refundResult refundOrder 0, .deliver .order .refundResult refundOrder 0,
    .deliver .payment .orderCreated refundOrder 0, .draw .payment false]

theorem refunds_le_payments_othersAgain :
    ∃ s, (lts { redelivers := true }).run {} (refundedOnce ++ othersAgain) = some s ∧ Covered s refundOrder := by
  have hnew : (lts { redelivers := true }).Along (fun s a _ => ¬ Rehandles s refundOrder a) {}
      (refundedOnce ++ othersAgain) := by decide +kernel
  obtain ⟨s, hrun⟩ : ∃ s, (lts { redelivers := true }).run {} (refundedOnce ++ othersAgain) = some s := ⟨_, rfl⟩
  exact ⟨s, hrun, refunds_le_payments { redelivers := true } refundOrder hrun hnew⟩

end Saga
end KafkaGuide
