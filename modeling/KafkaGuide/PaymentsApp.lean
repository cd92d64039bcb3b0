import KafkaGuide.Lib.Count
import KafkaGuide.PaymentsDlq
/-!
# PaymentsApp — the whole of `07-error-handling-and-retry`

POST /payments, the `payments` topic, `consume_payments`, the `payments-dlq` topic and `consume_dlq`, in one process.
A consumer gets each record of its topic once, and the records of different partitions in any order.  A producer that
is not idempotent may write a record more than once.  Serialized values are left as the JSON they decode to.
-/
namespace KafkaGuide
namespace Payments

open ConsumerLoop (State)

/-- `PaymentRequest`: `amount` has `gt=0`. -/
structure PaymentRequest where
  userId : String
  amount : ℚ
  currency : String := "KRW"
  description : String := ""
  amount_pos : 0 < amount

/-- `PaymentEvent(...).model_dump()` of `create_payment`. -/
def paymentEvent (request : PaymentRequest) (uuid4 : Uuid) (now : String) : Json.Members :=
  [("payment_id", .str uuid4.str), ("user_id", .str request.userId), ("amount", .num request.amount),
    ("currency", .str request.currency), ("description", .str request.description), ("created_at", .str now)]

/-- What `process_payment` returns for it. -/
def processedPayment (request : PaymentRequest) (uuid4 : Uuid) (now : String) : Json.Members :=
  [("payment_id", .str uuid4.str), ("user_id", .str request.userId), ("amount", .num request.amount),
    ("currency", .str request.currency), ("status", .str "completed"), ("processed_at", .str now)]

/-- `sent` lists the payments whose POST was answered "sent", `lost` the DLQ messages whose `send_message` ended without
a record on the topic, and `doubled` those whose record was written again: no code reads them. -/
structure App where
  payments : List Json.Members := []
  sent : List Uuid := []
  fetched : List Nat := []
  worker : State Store Await := ⟨{}, .fetching⟩
  lost : List Json.Members := []
  doubled : List Json.Members := []
  dlqFetched : List Nat := []
  failedPayments : List Json.Members := []

namespace App

def paymentId (m : Json.Members) : Json := Json.get m "payment_id"

inductive Action where
  | createPayment (request : PaymentRequest) (uuid4 : Uuid) (now : String) (copies : Nat) (returned : Bool)
  | fetch (i : Nat) (now : String)
  | attempt (now : String)
  | worker (i : Return)
  | fetchDlq (i : Nat)

/-- The message of a `send_to_dlq` that ends without its record on the topic. -/
def lostBy : ConsumerLoop.Position Await → Return → List Json.Members
  | .awaiting (.sendToDlq _ message false), .sent => [message]
  | _, _ => []

/-- The message of a `send_to_dlq` whose record is written again. -/
def doubledBy : ConsumerLoop.Position Await → Return → List Json.Members
  | .awaiting (.sendToDlq _ message true), .land => [message]
  | _, _ => []

/-- One step.  The id of a payment is a fresh `uuid4`; the POST is answered "sent" only when its record is on the topic,
which it may be also when `send_message` raises.  `process_payment` raises for its payment only. -/
def step (env : Env) (s : App) : Action → Option App
  | .createPayment request uuid4 now copies returned =>
    if s.payments.all (fun m => !(paymentId m).isStr uuid4.str) ∧ (returned → 0 < copies) then
      some { s with
        payments := s.payments ++ List.replicate copies (paymentEvent request uuid4 now)
        sent := if returned then s.sent ++ [uuid4] else s.sent }
    else none
  | .fetch i now =>
    match s.worker.position, s.payments[i]? with
    | .fetching, some payment =>
      if i ∈ s.fetched then none
      else some { s with
        fetched := s.fetched ++ [i]
        worker := ConsumerLoop.after (receive env s.worker.store (.obj payment) { now }) }
    | _, _ => none
  | .attempt now => ((loop env).step s.worker (.advance (.attempt { now }))).map (fun worker => { s with worker })
  | .worker (.attempt _) => none
  | .worker i =>
    ((loop env).step s.worker (.advance i)).map
      (fun worker => { s with
        worker
        lost := s.lost ++ lostBy s.worker.position i
        doubled := s.doubled ++ doubledBy s.worker.position i })
  | .fetchDlq i =>
    match s.worker.store.dlq[i]? with
    | some rec =>
      if i ∈ s.dlqFetched then none
      else some { s with dlqFetched := s.dlqFetched ++ [i], failedPayments := s.failedPayments ++ [rec.2] }
    | none => none

def lts (env : Env) : Lts App Action where
  init := {}
  step := step env

/-- Both consumers have got all that is on their topics, and `consume_payments` is done with it. -/
def Quiet (s : App) : Prop :=
  s.worker.position = .fetching ∧ s.fetched.length = s.payments.length ∧
    s.dlqFetched.length = s.worker.store.dlq.length

variable {env : Env}

/-- **`process_payment` goes by the amount alone**. -/
theorem processPayment_made (env : Env) (request : PaymentRequest) (uuid4 : Uuid) (created now : String) :
    (request.amount ≠ 10 ∧ processPayment env (paymentEvent request uuid4 created) { now } =
      .ok (processedPayment request uuid4 now)) ∨
    (request.amount = 10 ∧ ∃ text, processPayment env (paymentEvent request uuid4 created) { now } = .error text) := by
  by_cases hamount : request.amount = 10
  · refine .inr ⟨hamount, _, if_pos ?_⟩
    exact decide_eq_true hamount
  · refine .inl ⟨hamount, ?_⟩
    refine (if_neg fun h => hamount (of_decide_eq_true h)).trans ?_
    rfl

/-- **A round for a payment of the endpoint**: an amount other than 10 is processed, and 10 goes on to a further round
or to the DLQ. -/
theorem tryPayment_made {st : Store} {request : PaymentRequest} {uuid4 : Uuid} {created : String} {attempt : Nat}
    (now : String) (hround : 1 ≤ env.maxRetries → (attempt : Int) < env.maxRetries) :
    (request.amount ≠ 10 ∧ tryPayment env st (paymentEvent request uuid4 created) attempt { now } =
      ({ st with processedPayments := st.processedPayments ++ [processedPayment request uuid4 now] },
        .await (.commit false))) ∨
    ((1 ≤ env.maxRetries → request.amount = 10) ∧
      (((attempt + 1 : Nat) : Int) < env.maxRetries ∧
        tryPayment env st (paymentEvent request uuid4 created) attempt { now } =
          (st, .await (.retry (paymentEvent request uuid4 created) (attempt + 1))) ∨
      ∃ text, tryPayment env st (paymentEvent request uuid4 created) attempt { now } =
        giveUp env st (paymentEvent request uuid4 created) text now)) := by
  unfold tryPayment
  split
  · rcases processPayment_made env request uuid4 created now with ⟨hamount, hok⟩ | ⟨hamount, text, herror⟩
    · rw [hok]
      exact .inl ⟨hamount, rfl⟩
    · rw [herror]
      refine .inr ⟨fun _ => hamount, ?_⟩
      dsimp only
      split
      · split
        · exact .inl ⟨by omega, rfl⟩
        · exact .inr ⟨_, rfl⟩
      · exact .inr ⟨text, rfl⟩
  · rename_i hnone
    exact .inr ⟨fun hpos => absurd (hround hpos) hnone, .inr ⟨_, rfl⟩⟩

/-! ## What the worker keeps -/

/-- The result of a payment that `consume_payments` got, whose amount is not 10. -/
def Result (st : Store) (r : Json.Members) : Prop :=
  ∃ request uuid4 created now, paymentEvent request uuid4 created ∈ st.received ∧ request.amount ≠ 10 ∧
    r = processedPayment request uuid4 now

/-- The DLQ message of a payment that `consume_payments` got, of the amount 10 if there is an attempt at all. -/
def DeadLetter (env : Env) (st : Store) (m : Json.Members) : Prop :=
  ∃ request uuid4 created error now, paymentEvent request uuid4 created ∈ st.received ∧
    (1 ≤ env.maxRetries → request.amount = 10) ∧
    m = dlqMessage (paymentEvent request uuid4 created) error env.maxRetries now

/-- The ids of what has been processed, sent to the DLQ, or lost on the way there. -/
def settled (st : Store) (lost : List Json.Members) : List Json :=
  st.processedPayments.map paymentId ++ (st.dlq.map fun rec => paymentId rec.2) ++ lost.map paymentId

/-- All the payments got so far are settled, each once. -/
def AllSettled (st : Store) (lost doubled : List Json.Members) : Prop :=
  (settled st lost).Perm (st.received.map paymentId ++ doubled.map paymentId)

/-- All but the last one, a payment of the endpoint. -/
def Pending (st : Store) (lost doubled : List Json.Members) (payment : Json.Members) : Prop :=
  (∃ request uuid4 created, payment = paymentEvent request uuid4 created) ∧
    ∃ before, st.received = before ++ [payment] ∧
      (settled st lost).Perm (before.map paymentId ++ doubled.map paymentId)

def At (env : Env) (st : Store) (lost doubled : List Json.Members) : ConsumerLoop.Position Await → Prop
  | .awaiting (.retry payment attempt) =>
    Pending st lost doubled payment ∧ (1 ≤ env.maxRetries → (attempt : Int) < env.maxRetries)
  | .awaiting (.sendToDlq payment message false) =>
    Pending st lost doubled payment ∧ DeadLetter env st message ∧ paymentId message = paymentId payment
  | .awaiting (.sendToDlq _ message true) => AllSettled st lost doubled ∧ DeadLetter env st message
  | _ => AllSettled st lost doubled

structure Sound (env : Env) (st : Store) (lost doubled : List Json.Members) (position : ConsumerLoop.Position Await) :
    Prop where
  results : ∀ r ∈ st.processedPayments, Result st r
  deadLetters : ∀ m, (∃ key, (key, m) ∈ st.dlq) ∨ m ∈ lost → DeadLetter env st m
  settled : At env st lost doubled position

theorem sound_init (env : Env) : Sound env {} [] [] .fetching where
  results _ h := nomatch h
  deadLetters m h := by
    rcases h with ⟨key, h⟩ | h <;> cases h
  settled := List.Perm.refl _

theorem settled_processed (st : Store) (lost : List Json.Members) (r : Json.Members) :
    (settled { st with processedPayments := st.processedPayments ++ [r] } lost).Perm
      (paymentId r :: settled st lost) := by
  simp only [settled, List.map_append, List.map_cons, List.map_nil, List.append_assoc, List.cons_append,
    List.nil_append]
  exact List.perm_middle

theorem settled_dlq (st : Store) (lost : List Json.Members) (key : Option String) (m : Json.Members) :
    (settled { st with dlq := st.dlq ++ [(key, m)] } lost).Perm (paymentId m :: settled st lost) := by
  simp only [settled, List.map_append, List.map_cons, List.map_nil, List.append_assoc, List.cons_append,
    List.nil_append]
  rw [← List.append_assoc, ← List.append_assoc]
  exact List.perm_middle

theorem settled_lost (st : Store) (lost : List Json.Members) (m : Json.Members) :
    (settled st (lost ++ [m])).Perm (paymentId m :: settled st lost) := by
  simp only [settled, List.map_append, List.map_cons, List.map_nil]
  rw [← List.append_assoc]
  exact List.perm_append_singleton _ _

/-- The last payment is settled too. -/
theorem Pending.settle {st st' : Store} {lost lost' doubled : List Json.Members} {payment : Json.Members}
    (h : Pending st lost doubled payment) (hreceived : st'.received = st.received)
    (hperm : (settled st' lost').Perm (paymentId payment :: settled st lost)) : AllSettled st' lost' doubled := by
  obtain ⟨-, before, hbefore, hbut⟩ := h
  unfold AllSettled
  rw [hreceived, hbefore, List.map_append, List.append_assoc]
  exact (hperm.trans (hbut.cons _)).trans List.perm_middle.symm

/-- **The payment of a round is settled by its result**, or waits for another round, or for the DLQ. -/
theorem sound_tryPayment {st : Store} {lost doubled : List Json.Members} {payment : Json.Members} {attempt : Nat}
    (hresults : ∀ r ∈ st.processedPayments, Result st r)
    (hdead : ∀ m, (∃ key, (key, m) ∈ st.dlq) ∨ m ∈ lost → DeadLetter env st m)
    (hpending : Pending st lost doubled payment)
    (hround : 1 ≤ env.maxRetries → (attempt : Int) < env.maxRetries) (now : String) :
    ∃ store next, tryPayment env st payment attempt { now } = (store, next) ∧ store.received = st.received ∧
      store.dlq = st.dlq ∧ Sound env store lost doubled (ConsumerLoop.Stretch.position next) := by
  obtain ⟨⟨request, uuid4, created, rfl⟩, before, hbefore, -⟩ := id hpending
  have hmem : paymentEvent request uuid4 created ∈ st.received := by
    rw [hbefore]
    exact List.mem_append_right _ List.mem_cons_self
  rcases @tryPayment_made env st request uuid4 created attempt now hround
    with ⟨hamount, he⟩ | ⟨hamount, ⟨hnext, he⟩ | ⟨text, he⟩⟩
  · refine ⟨_, _, he, rfl, rfl, fun r hr => ?_, hdead, ?_⟩
    · rcases List.mem_append.1 hr with hr | hr
      · exact hresults r hr
      · exact ⟨request, uuid4, created, now, hmem, hamount, List.mem_singleton.1 hr⟩
    · exact hpending.settle rfl (settled_processed st lost (processedPayment request uuid4 now))
  · exact ⟨_, _, he, rfl, rfl, hresults, hdead, hpending, fun _ => hnext⟩
  · exact ⟨_, _, he, rfl, rfl, hresults, hdead, hpending, ⟨request, uuid4, created, text, now, hmem, hamount, rfl⟩, rfl⟩

/-- `consume_payments` gets another payment of the endpoint. -/
theorem sound_receive {st : Store} {lost doubled : List Json.Members} (h : Sound env st lost doubled .fetching)
    {payment : Json.Members} (hmade : ∃ request uuid4 created, payment = paymentEvent request uuid4 created)
    (now : String) : ∃ store next, receive env st (.obj payment) { now } = (store, next) ∧
      store.received = st.received ++ [payment] ∧ store.dlq = st.dlq ∧
      Sound env store lost doubled (ConsumerLoop.Stretch.position next) := by
  have hmono : ∀ p ∈ st.received, p ∈ st.received ++ [payment] := fun p hp => List.mem_append_left _ hp
  refine @sound_tryPayment env { st with received := st.received ++ [payment] } lost doubled payment 0 (fun r hr => ?_)
    (fun m hm => ?_) ⟨hmade, st.received, rfl, h.settled⟩ (fun hpos => hpos) now
  · obtain ⟨request, uuid4, created, now', hmem, hrest⟩ := h.results r hr
    exact ⟨request, uuid4, created, now', hmono _ hmem, hrest⟩
  · obtain ⟨request, uuid4, created, error, now', hmem, hrest⟩ := h.deadLetters m hm
    exact ⟨request, uuid4, created, error, now', hmono _ hmem, hrest⟩

/-- Another attempt at the payment. -/
theorem sound_attempt {w w' : State Store Await} {lost doubled : List Json.Members}
    (h : Sound env w.store lost doubled w.position)
    {now : String} (hstep : (loop env).step w (.advance (.attempt { now })) = some w') :
    w'.store.received = w.store.received ∧ w'.store.dlq = w.store.dlq ∧
      Sound env w'.store lost doubled w'.position := by
  cases ConsumerLoop.step_sound hstep with
  | @advance k i p hposition hadvance =>
    have hat := h.settled
    rw [hposition] at hat
    cases k with
    | retry payment attempt =>
      cases hadvance
      obtain ⟨store, next, he, hreceived, hdlq, hsound⟩ :=
        sound_tryPayment h.results h.deadLetters hat.1 hat.2 now
      rw [he]
      exact ⟨hreceived, hdlq, hsound⟩
    | sendToDlq payment message landed => cases hadvance
    | commit stored => cases hadvance

/-- A DLQ record is written: the first settles its payment. -/
theorem sound_land {st : Store} {lost doubled : List Json.Members} {payment message : Json.Members} {landed : Bool}
    (h : Sound env st lost doubled (.awaiting (.sendToDlq payment message landed))) (key : Option String) :
    Sound env { st with dlq := st.dlq ++ [(key, message)] } lost
      (doubled ++ doubledBy (.awaiting (.sendToDlq payment message landed)) .land)
      (.awaiting (.sendToDlq payment message true)) := by
  have hdead : DeadLetter env st message := by
    have hat := h.settled
    cases landed with
    | false => exact hat.2.1
    | true => exact hat.2
  refine ⟨h.results, fun m hm => ?_, ?_, hdead⟩
  · rcases hm with ⟨key', hm⟩ | hm
    · rcases List.mem_append.1 hm with hm | hm
      · exact h.deadLetters m (.inl ⟨key', hm⟩)
      · cases List.mem_singleton.1 hm
        exact hdead
    · exact h.deadLetters m (.inr hm)
  · have hperm := settled_dlq st lost key message
    cases landed with
    | false =>
      obtain ⟨hpending, -, hid⟩ := h.settled
      rw [hid] at hperm
      rw [show doubled ++ doubledBy _ Return.land = doubled from List.append_nil _]
      refine hpending.settle ?_ hperm
      rfl
    | true =>
      have hall := h.settled.1
      unfold AllSettled at hall ⊢
      rw [show doubled ++ doubledBy _ Return.land = doubled ++ [message] from rfl, List.map_append, ← List.append_assoc]
      exact (hperm.trans (hall.cons _)).trans (List.perm_append_singleton _ _).symm

/-- The send ends: a message without a record is lost. -/
theorem sound_sent {st : Store} {lost doubled : List Json.Members} {payment message : Json.Members} {landed : Bool}
    (h : Sound env st lost doubled (.awaiting (.sendToDlq payment message landed))) :
    Sound env st (lost ++ lostBy (.awaiting (.sendToDlq payment message landed)) .sent) doubled
      (.awaiting (.commit false)) := by
  cases landed with
  | false =>
    obtain ⟨hpending, hdead, hid⟩ := h.settled
    have hperm := settled_lost st lost message
    rw [hid] at hperm
    refine ⟨h.results, fun m hm => ?_, hpending.settle rfl hperm⟩
    rcases hm with hm | hm
    · exact h.deadLetters m (.inl hm)
    · rcases List.mem_append.1 hm with hm | hm
      · exact h.deadLetters m (.inr hm)
      · rw [List.mem_singleton.1 hm]
        exact hdead
  | true =>
    rw [show lost ++ lostBy _ Return.sent = lost from List.append_nil _]
    exact ⟨h.results, h.deadLetters, h.settled.1⟩

/-- **The other awaits**: a DLQ message is written, or its send ends; the offset is committed or not. -/
theorem sound_worker {w w' : State Store Await} {lost doubled : List Json.Members}
    (h : Sound env w.store lost doubled w.position) {i : Return} (hi : ∀ a, i ≠ .attempt a)
    (hstep : (loop env).step w (.advance i) = some w') :
    w'.store.received = w.store.received ∧ (∃ recs, w'.store.dlq = w.store.dlq ++ recs) ∧
      Sound env w'.store (lost ++ lostBy w.position i) (doubled ++ doubledBy w.position i) w'.position := by
  cases ConsumerLoop.step_sound hstep with
  | @advance k _ p hposition hadvance =>
    rw [hposition] at h ⊢
    cases k with
    | retry payment attempt =>
      cases i with
      | attempt a => exact absurd rfl (hi a)
      | _ => cases hadvance
    | sendToDlq payment message landed =>
      cases i with
      | land =>
        obtain ⟨key, -, rfl⟩ := Option.map_eq_some_iff.1 hadvance
        rw [show lost ++ lostBy _ Return.land = lost by cases landed <;> exact List.append_nil _]
        exact ⟨rfl, ⟨_, rfl⟩, sound_land h key⟩
      | sent =>
        cases hadvance
        rw [show doubled ++ doubledBy _ Return.sent = doubled by cases landed <;> exact List.append_nil _]
        exact ⟨rfl, ⟨[], (List.append_nil _).symm⟩, sound_sent h⟩
      | attempt a => exact absurd rfl (hi a)
      | _ => cases hadvance
    | commit stored =>
      rw [show lost ++ lostBy _ i = lost from List.append_nil _,
        show doubled ++ doubledBy _ i = doubled from List.append_nil _]
      cases i with
      | store =>
        cases hadvance
        exact ⟨rfl, ⟨[], (List.append_nil _).symm⟩, h.results, h.deadLetters, h.settled⟩
      | committed =>
        cases stored with
        | true =>
          cases hadvance
          exact ⟨rfl, ⟨[], (List.append_nil _).symm⟩, h.results, h.deadLetters, h.settled⟩
        | false => cases hadvance
      | commitFailed =>
        have hraised : p = (w.store, .raised) := by
          cases stored <;> exact (Option.some.inj hadvance).symm
        rw [hraised]
        exact ⟨rfl, ⟨[], (List.append_nil _).symm⟩, h.results, h.deadLetters, h.settled⟩
      | attempt a => exact absurd rfl (hi a)
      | _ => cases hadvance

/-! ## Every run -/

structure Inv (env : Env) (s : App) : Prop where
  made : ∀ m ∈ s.payments, ∃ request uuid4 created, m = paymentEvent request uuid4 created
  unique : ∀ m ∈ s.payments, ∀ m' ∈ s.payments, paymentId m = paymentId m' → m = m'
  sent : ∀ u ∈ s.sent, ∃ request created, paymentEvent request u created ∈ s.payments
  fetched : s.fetched.Nodup ∧ ∀ i ∈ s.fetched, i < s.payments.length
  received : s.worker.store.received = Count.picked s.payments s.fetched
  dlqFetched : s.dlqFetched.Nodup ∧ ∀ i ∈ s.dlqFetched, i < s.worker.store.dlq.length
  failed : s.failedPayments = (Count.picked s.worker.store.dlq s.dlqFetched).map Prod.snd
  sound : Sound env s.worker.store s.lost s.doubled s.worker.position

theorem inv_init (env : Env) : Inv env {} where
  made _ h := nomatch h
  unique _ h := nomatch h
  sent _ h := nomatch h
  fetched := ⟨List.nodup_nil, nofun⟩
  received := rfl
  dlqFetched := ⟨List.nodup_nil, nofun⟩
  failed := rfl
  sound := sound_init env

/-- An index that is new to those fetched. -/
theorem nodup_snoc {is : List Nat} {i n : Nat} (h : is.Nodup ∧ ∀ j ∈ is, j < n) (hnew : i ∉ is) (hi : i < n) :
    (is ++ [i]).Nodup ∧ ∀ j ∈ is ++ [i], j < n := by
  refine ⟨List.nodup_append'.2 ⟨h.1, List.nodup_singleton i, ?_⟩, fun j hj => ?_⟩
  · exact List.disjoint_singleton.2 hnew
  · rcases List.mem_append.1 hj with hj | hj
    · exact h.2 j hj
    · rw [List.mem_singleton.1 hj]
      exact hi

/-- **The worker goes on**: the DLQ only grows, and what `consume_dlq` got stays. -/
theorem Inv.work {s : App} (hi : Inv env s) {worker : State Store Await} {lost doubled : List Json.Members}
    (hreceived : worker.store.received = s.worker.store.received)
    (hdlq : ∃ recs, worker.store.dlq = s.worker.store.dlq ++ recs)
    (hsound : Sound env worker.store lost doubled worker.position) : Inv env { s with worker, lost, doubled } := by
  obtain ⟨recs, hrecs⟩ := hdlq
  constructor
  case made => exact hi.made
  case unique => exact hi.unique
  case sent => exact hi.sent
  case fetched => exact hi.fetched
  case received => exact hreceived.trans hi.received
  case dlqFetched =>
    refine ⟨hi.dlqFetched.1, fun i hmem => ?_⟩
    have hlt := hi.dlqFetched.2 i hmem
    change i < worker.store.dlq.length
    rw [hrecs, List.length_append]
    omega
  case failed =>
    change s.failedPayments = (Count.picked worker.store.dlq s.dlqFetched).map Prod.snd
    rw [hrecs, Count.picked_append recs hi.dlqFetched.2]
    exact hi.failed
  case sound => exact hsound

theorem Inv.createPayment {s : App} (hi : Inv env s) (request : PaymentRequest) (uuid4 : Uuid) (now : String)
    {copies : Nat} {returned : Bool} (hnew : s.payments.all (fun m => !(paymentId m).isStr uuid4.str) = true)
    (hsent : returned → 0 < copies) :
    Inv env { s with
      payments := s.payments ++ List.replicate copies (paymentEvent request uuid4 now)
      sent := if returned then s.sent ++ [uuid4] else s.sent } := by
  have hfresh : ∀ m ∈ s.payments, paymentId m ≠ .str uuid4.str := by
    intro m hm heq
    have h := List.all_eq_true.1 hnew m hm
    rw [heq, Json.isStr_str] at h
    simp at h
  have hmem : ∀ {m}, m ∈ s.payments ++ List.replicate copies (paymentEvent request uuid4 now) →
      m ∈ s.payments ∨ m = paymentEvent request uuid4 now := fun {m} hm =>
    (List.mem_append.1 hm).imp_right List.eq_of_mem_replicate
  constructor
  case made =>
    intro m hm
    rcases hmem hm with hm | rfl
    · exact hi.made m hm
    · exact ⟨request, uuid4, now, rfl⟩
  case unique =>
    intro m hm m' hm' heq
    rcases hmem hm with hm | rfl <;> rcases hmem hm' with hm' | rfl
    · exact hi.unique m hm m' hm' heq
    · exact absurd heq (hfresh m hm)
    · exact absurd heq.symm (hfresh m' hm')
    · rfl
  case sent =>
    have hold : ∀ u ∈ s.sent, ∃ request' created, paymentEvent request' u created ∈
        s.payments ++ List.replicate copies (paymentEvent request uuid4 now) := fun u hu => by
      obtain ⟨request', created, hm⟩ := hi.sent u hu
      exact ⟨request', created, List.mem_append_left _ hm⟩
    intro u hu
    dsimp only at hu
    split at hu
    · rename_i hreturned
      rcases List.mem_append.1 hu with hu | hu
      · exact hold u hu
      · rw [List.mem_singleton.1 hu]
        refine ⟨request, now, List.mem_append_right _ (List.mem_replicate.2 ⟨?_, rfl⟩)⟩
        exact Nat.ne_of_gt (hsent hreturned)
    · exact hold u hu
  case fetched =>
    refine ⟨hi.fetched.1, fun i hmem => ?_⟩
    have hlt := hi.fetched.2 i hmem
    rw [List.length_append]
    omega
  case received =>
    dsimp only
    rw [Count.picked_append _ hi.fetched.2]
    exact hi.received
  case dlqFetched => exact hi.dlqFetched
  case failed => exact hi.failed
  case sound => exact hi.sound

theorem inv_step {s s' : App} {a : Action} (hi : Inv env s) (h : step env s a = some s') : Inv env s' := by
  cases a with
  | createPayment request uuid4 now copies returned =>
    simp only [step] at h
    split at h
    · rename_i hok
      cases h
      exact hi.createPayment request uuid4 now hok.1 hok.2
    · cases h
  | fetch i now =>
    simp only [step] at h
    split at h
    · rename_i payment hposition hget
      split at h
      · cases h
      · rename_i hnew
        cases h
        have hsound := hi.sound
        rw [hposition] at hsound
        obtain ⟨store, next, he, hreceived, hdlq, hsound'⟩ :=
          sound_receive hsound (hi.made payment (List.mem_of_getElem? hget)) now
        rw [he]
        constructor
        case made => exact hi.made
        case unique => exact hi.unique
        case sent => exact hi.sent
        case fetched => exact nodup_snoc hi.fetched hnew (List.getElem?_eq_some_iff.1 hget).1
        case received =>
          change store.received = Count.picked s.payments (s.fetched ++ [i])
          rw [hreceived, Count.picked_snoc hget, hi.received]
        case dlqFetched =>
          change _ ∧ ∀ i ∈ s.dlqFetched, i < store.dlq.length
          rw [hdlq]
          exact hi.dlqFetched
        case failed =>
          change s.failedPayments = (Count.picked store.dlq s.dlqFetched).map Prod.snd
          rw [hdlq]
          exact hi.failed
        case sound => exact hsound'
    · cases h
  | attempt now =>
    obtain ⟨worker, hw, rfl⟩ := Option.map_eq_some_iff.1 h
    obtain ⟨hreceived, hdlq, hsound⟩ := sound_attempt hi.sound hw
    exact hi.work hreceived ⟨[], by rw [hdlq, List.append_nil]⟩ hsound
  | worker i =>
    have hi' : ∀ a, i ≠ .attempt a := by
      rintro a rfl
      cases h
    have h' : ((loop env).step s.worker (.advance i)).map (fun worker => ({ s with
        worker
        lost := s.lost ++ lostBy s.worker.position i
        doubled := s.doubled ++ doubledBy s.worker.position i } : App)) = some s' := by
      cases i with
      | attempt a => exact absurd rfl (hi' a)
      | _ => exact h
    obtain ⟨worker, hw, rfl⟩ := Option.map_eq_some_iff.1 h'
    obtain ⟨hreceived, hdlq, hsound⟩ := sound_worker hi.sound hi' hw
    exact hi.work hreceived hdlq hsound
  | fetchDlq i =>
    simp only [step] at h
    split at h
    · rename_i rec hget
      split at h
      · cases h
      · rename_i hnew
        cases h
        refine ⟨hi.made, hi.unique, hi.sent, hi.fetched, hi.received,
          nodup_snoc hi.dlqFetched hnew (List.getElem?_eq_some_iff.1 hget).1, ?_, hi.sound⟩
        change s.failedPayments ++ [rec.2] = (Count.picked s.worker.store.dlq (s.dlqFetched ++ [i])).map Prod.snd
        rw [Count.picked_snoc hget, List.map_append, hi.failed]
        rfl
    · cases h

theorem reachable_inv {s : App} (h : (lts env).Reachable s) : Inv env s :=
  (lts env).reachable_inv (inv_init env) (fun _ _ _ hi h => inv_step hi h) h

/-! ## The two lists -/

/-- What is picked once, and is as long, is all there is. -/
theorem picked_all {α : Type} {xs : List α} {is : List Nat} (h : is.Nodup ∧ ∀ i ∈ is, i < xs.length)
    (hlen : is.length = xs.length) : (Count.picked xs is).Perm xs := by
  refine (Count.picked_subperm h.1 h.2).perm_of_length_le ?_
  rw [Count.picked_length h.2, hlen]

/-- **When all is read, all is settled**. -/
theorem Inv.quiet {s : App} (hi : Inv env s) (hq : s.Quiet) :
    ((s.worker.store.processedPayments ++ s.failedPayments ++ s.lost).map paymentId).Perm
      ((s.payments ++ s.doubled).map paymentId) := by
  obtain ⟨hposition, hfetched, hdlq⟩ := hq
  have hsettled := hi.sound.settled
  rw [hposition] at hsettled
  have hreceived : s.worker.store.received.Perm s.payments := by
    rw [hi.received]
    exact picked_all hi.fetched hfetched
  have hfailed : s.failedPayments.Perm (s.worker.store.dlq.map Prod.snd) := by
    rw [hi.failed]
    exact (picked_all hi.dlqFetched hdlq).map Prod.snd
  simp only [List.map_append]
  have hleft : (s.failedPayments.map paymentId).Perm (s.worker.store.dlq.map fun rec => paymentId rec.2) := by
    have hmap := hfailed.map paymentId
    rw [List.map_map] at hmap
    exact hmap
  exact (((hleft.append_left _).append_right _).trans hsettled).trans ((hreceived.map paymentId).append_right _)

end App
end Payments
end KafkaGuide
