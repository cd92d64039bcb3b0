import Mathlib.Data.List.Basic
import KafkaGuide.Payments
/-!
# PaymentsDlq — what becomes of the payments with a committed offset

The loop commits what it has processed and what it has given up on.  The second is safe only if its DLQ record is on the
topic by the time `send_message` ends, and if `dlq_message` has every field of it.
-/
namespace KafkaGuide
namespace Payments

open ConsumerLoop (State Event)

variable {env : Env}

/-- `processed_payments` has a result with the payment's own fields. -/
def Store.Processed (st : Store) (payment : Json.Members) : Prop :=
  ∃ result ∈ st.processedPayments, ∀ k ∈ paymentFields, ∃ v,
    Dict.find k payment = some v ∧ Dict.find k result = some v

/-- `payments-dlq` has a record with every field of the payment and the error information. -/
def Store.DeadLettered (st : Store) (payment : Json.Members) : Prop :=
  ∃ rec ∈ st.dlq, (∀ k v, Dict.find k payment = some v → Dict.find k rec.2 = some v) ∧
    ∀ k ∈ ["error", "retry_count", "failed_at"], (Dict.find k rec.2).isSome = true

def Store.Safe (st : Store) (payment : Json.Members) : Prop := st.Processed payment ∨ st.DeadLettered payment

/-- No payment with a committed offset is lost. -/
def Store.NoneLost (st : Store) : Prop := ∀ payment ∈ st.received.take st.committed, st.Safe payment

/-- If the action is the end of a `send_to_dlq`, its record is on the topic, and the payment has no field that
`dlq_message` does not take over. -/
def Keeps (s : State Store Await) : Event ByteArray Attempt Return → Prop
  | .advance .sent => match s.position with
    | .awaiting (.sendToDlq payment message landed) =>
      landed = true ∧ ∀ p ∈ payment, p.1 ∈ paymentFields ∨ Dict.find p.1 message = some p.2
    | _ => True
  | _ => True

/-! ## The invariant -/

theorem Store.Safe.mono {st st' : Store} (hprocessed : st.processedPayments ⊆ st'.processedPayments)
    (hdlq : st.dlq ⊆ st'.dlq) {payment : Json.Members} (h : st.Safe payment) : st'.Safe payment := by
  rcases h with ⟨result, hresult, h⟩ | ⟨rec, hrec, h⟩
  · exact .inl ⟨result, hprocessed hresult, h⟩
  · exact .inr ⟨rec, hdlq hrec, h⟩

/-- All that has been received is safe, but for the payment the loop is at. -/
def AllBut (st : Store) (payment : Json.Members) : Prop :=
  ∃ before, st.received = before ++ [payment] ∧ ∀ p ∈ before, st.Safe p

/-- **What the loop has done by each of its awaits.** -/
def AtAwait (env : Env) (st : Store) : Await → Prop
  | .retry payment _ => AllBut st payment
  | .sendToDlq payment message landed => AllBut st payment ∧
    (∃ error now, message = dlqMessage payment error env.maxRetries now) ∧
    (landed = true → ∃ key, (key, message) ∈ st.dlq)
  | .commit _ => ∀ p ∈ st.received, st.Safe p

/-- **The loop invariant.** -/
structure Inv (env : Env) (s : State Store Await) : Prop where
  lost : s.store.NoneLost
  committed : s.store.committed ≤ s.store.received.length
  position : match s.position with
    | .fetching => ∀ p ∈ s.store.received, s.store.Safe p
    | .awaiting k => AtAwait env s.store k
    | _ => True

theorem dlqMessage_error (payment : Json.Members) (error : String) (retryCount : Int) (now : String) :
    ∀ k ∈ ["error", "retry_count", "failed_at"],
      (Dict.find k (dlqMessage payment error retryCount now)).isSome = true := by
  intro k hk
  simp only [List.mem_cons, List.not_mem_nil, or_false] at hk
  rcases hk with rfl | rfl | rfl <;> rfl

theorem Store.NoneLost.mono {st st' : Store} (hlost : st.NoneLost) (hcommitted : st.committed ≤ st.received.length)
    (hreceived : ∃ ps, st'.received = st.received ++ ps) (hsame : st'.committed = st.committed)
    (hprocessed : st.processedPayments ⊆ st'.processedPayments) (hdlq : st.dlq ⊆ st'.dlq) : st'.NoneLost := by
  obtain ⟨ps, hps⟩ := hreceived
  intro payment hmem
  rw [hps, hsame, List.take_append_of_le_length hcommitted] at hmem
  exact (hlost payment hmem).mono hprocessed hdlq

/-- A round of retries, for the one payment that may not be safe. -/
theorem inv_tryPayment {st : Store} {payment : Json.Members} (hlost : st.NoneLost)
    (hcommitted : st.committed ≤ st.received.length) (hbut : AllBut st payment) (attempt : Nat) (a : Attempt) :
    Inv env (ConsumerLoop.after (tryPayment env st payment attempt a)) := by
  rcases tryPayment_cases env st payment attempt a with ⟨result, hresult, he⟩ | ⟨-, he⟩ | ⟨text, he⟩
  · rw [he]
    have hgrows : st.processedPayments ⊆ st.processedPayments ++ [result] := List.subset_append_left ..
    refine ⟨hlost.mono hcommitted ⟨[], (List.append_nil _).symm⟩ rfl hgrows (List.Subset.refl _), hcommitted,
      fun p hp => ?_⟩
    obtain ⟨before, hbefore, hsafe⟩ := hbut
    change p ∈ st.received at hp
    rw [hbefore] at hp
    rcases List.mem_append.1 hp with hp | hp
    · refine (hsafe p hp).mono ?_ ?_
      · exact hgrows
      · exact List.Subset.refl _
    · rw [List.mem_singleton.1 hp]
      exact .inl ⟨result, List.mem_append_right _ (List.mem_singleton.2 rfl), processPayment_ok hresult⟩
  · rw [he]
    exact ⟨hlost, hcommitted, hbut⟩
  · rw [he]
    exact ⟨hlost, hcommitted, hbut, ⟨text, a.now, rfl⟩, fun h => nomatch h⟩

theorem inv_receive {st : Store} (hlost : st.NoneLost) (hcommitted : st.committed ≤ st.received.length)
    (hsafe : ∀ p ∈ st.received, st.Safe p) (value : Json) (a : Attempt) :
    Inv env (ConsumerLoop.after (receive env st value a)) := by
  unfold receive
  split
  · rename_i payment
    have hlost' : Store.NoneLost { st with received := st.received ++ [payment] } := by
      refine hlost.mono hcommitted ⟨[payment], ?_⟩ ?_ ?_ ?_
      · rfl
      · rfl
      · exact List.Subset.refl _
      · exact List.Subset.refl _
    refine inv_tryPayment hlost' ?_ ⟨st.received, rfl, hsafe⟩ 0 a
    change st.committed ≤ (st.received ++ [payment]).length
    rw [List.length_append]
    omega
  · exact ⟨hlost, hcommitted, trivial⟩

/-- **The end of a `send_to_dlq` that keeps its payment.** -/
theorem safe_of_sent {st : Store} {payment message : Json.Members} {landed : Bool}
    (hat : AtAwait env st (.sendToDlq payment message landed)) (hlanded : landed = true)
    (hfields : ∀ p ∈ payment, p.1 ∈ paymentFields ∨ Dict.find p.1 message = some p.2) :
    ∀ p ∈ st.received, st.Safe p := by
  obtain ⟨⟨before, hbefore, hsafe⟩, ⟨error, now, hmessage⟩, hdlq⟩ := hat
  intro p hp
  rw [hbefore] at hp
  rcases List.mem_append.1 hp with hp | hp
  · exact hsafe p hp
  · rw [List.mem_singleton.1 hp]
    obtain ⟨key, hrec⟩ := hdlq hlanded
    refine .inr ⟨(key, message), hrec, fun k v hv => ?_, ?_⟩
    · rcases hfields (k, v) (Dict.mem_of_find hv) with hk | hk
      · rw [hmessage]
        exact dlqMessage_find hk hv _ _ _
      · exact hk
    · rw [hmessage]
      exact dlqMessage_error _ _ _ _

theorem inv_advance {s : State Store Await} (hi : Inv env s) {k : Await} {i : Return} {p : Store × Stretch Await}
    (hposition : s.position = .awaiting k) (hkeeps : Keeps s (.advance i))
    (hadvance : advance env s.store k i = some p) : Inv env (ConsumerLoop.after p) := by
  have hat : AtAwait env s.store k := by
    have h := hi.position
    rw [hposition] at h
    exact h
  cases k with
  | retry payment attempt =>
    cases i with
    | attempt a =>
      cases hadvance
      exact inv_tryPayment hi.lost hi.committed hat attempt a
    | _ => cases hadvance
  | sendToDlq payment message landed =>
    cases i with
    | land =>
      obtain ⟨key, -, rfl⟩ := Option.map_eq_some_iff.1 hadvance
      have hgrows : s.store.dlq ⊆ s.store.dlq ++ [(key, message)] := List.subset_append_left ..
      obtain ⟨⟨before, hbefore, hsafe⟩, hmessage, -⟩ := hat
      refine ⟨hi.lost.mono hi.committed ⟨[], (List.append_nil _).symm⟩ rfl (List.Subset.refl _) hgrows, hi.committed,
        ⟨before, hbefore, fun p hp => ?_⟩, hmessage, fun _ => ?_⟩
      · refine (hsafe p hp).mono ?_ ?_
        · exact List.Subset.refl _
        · exact hgrows
      · exact ⟨key, List.mem_append_right _ (List.mem_singleton.2 rfl)⟩
    | sent =>
      cases hadvance
      unfold Keeps at hkeeps
      dsimp only at hkeeps
      rw [hposition] at hkeeps
      exact ⟨hi.lost, hi.committed, safe_of_sent hat hkeeps.1 hkeeps.2⟩
    | _ => cases hadvance
  | commit stored =>
    cases i with
    | store =>
      cases hadvance
      exact ⟨fun p hp => hat p (List.mem_of_mem_take hp), le_refl _, hat⟩
    | committed =>
      cases stored with
      | true =>
        cases hadvance
        exact ⟨hi.lost, hi.committed, hat⟩
      | false => cases hadvance
    | commitFailed =>
      have hraised : p = (s.store, .raised) := by
        cases stored <;> exact (Option.some.inj hadvance).symm
      rw [hraised]
      exact ⟨hi.lost, hi.committed, trivial⟩
    | _ => cases hadvance

theorem inv_step {s s' : State Store Await} {e : Event ByteArray Attempt Return} (hi : Inv env s)
    (hstep : (loop env).step s e = some s') (hkeeps : Keeps s e) : Inv env s' := by
  cases ConsumerLoop.step_sound hstep with
  | undecoded r hposition hdecode => exact ⟨hi.lost, hi.committed, trivial⟩
  | receive r hposition hdecode =>
    have hsafe := hi.position
    rw [hposition] at hsafe
    exact inv_receive hi.lost hi.committed hsafe _ r
  | advance hposition hadvance => exact inv_advance hi hposition hkeeps hadvance
  | cancel => exact ⟨hi.lost, hi.committed, trivial⟩

/-- **No payment is lost** as long as each one that goes to the DLQ lands there, and has only fields that
`dlq_message` takes over: in every run, whatever the attempts and the sends come to. -/
theorem none_lost (env : Env) {es : List (Event ByteArray Attempt Return)} {t : State Store Await}
    (hrun : (loop env).lts.run (loop env).lts.init es = some t)
    (hkeeps : (loop env).lts.Along (fun s e _ => Keeps s e) (loop env).lts.init es) : t.store.NoneLost := by
  have hinit : Inv env (loop env).lts.init := by
    refine ⟨fun _ h => ?_, le_refl _, fun _ h => ?_⟩
    · cases h
    · cases h
  exact ((loop env).lts.run_inv_along (fun s e s' hi hs hk => inv_step hi hs hk) hinit hkeeps hrun).lost

/-! ## A payment as the endpoint sends it -/

def gift : Json.Members :=
  [("payment_id", .str "3b7c90d2"), ("user_id", .str "user-001"), ("amount", .num 10), ("currency", .str "KRW"),
    ("description", .str "gift"), ("created_at", .str "2026-01-05T09:00:00")]

def giftText : String :=
  "\x7b\"payment_id\": \"3b7c90d2\", \"user_id\": \"user-001\", \"amount\": 10.0, \"currency\": \"KRW\", " ++
    "\"description\": \"gift\", \"created_at\": \"2026-01-05T09:00:00\"\x7d"

def giftEnv : Env where
  loads text := if text = giftText then some (.obj gift) else none
  format _ := "3b7c90d2"

/-- It fails three times, its DLQ record is sent, and its offset is committed. -/
def giftRun : List (Event ByteArray Attempt Return) :=
  [.receive giftText.toUTF8 ⟨"2026-01-05T09:00:01", none⟩, .advance (.attempt ⟨"2026-01-05T09:00:02", none⟩),
    .advance (.attempt ⟨"2026-01-05T09:00:04", none⟩), .advance .land, .advance .sent, .advance .store]

set_option maxRecDepth 1000 in
/-- No record on the DLQ says what the payment was for. -/
theorem gift_lost : ∃ t, (loop giftEnv).lts.run (loop giftEnv).lts.init giftRun = some t ∧ ¬ t.store.NoneLost := by
  obtain ⟨t, hrun, hcommitted, hprocessed, message, hdlq, hdescription⟩ :
      ∃ t, (loop giftEnv).lts.run (loop giftEnv).lts.init giftRun = some t ∧
        t.store.received.take t.store.committed = [gift] ∧ t.store.processedPayments = [] ∧
        ∃ message, t.store.dlq = [(some "3b7c90d2", message)] ∧ Dict.find "description" message = none :=
    ⟨_, rfl, rfl, rfl, _, rfl, rfl⟩
  refine ⟨t, hrun, fun h => ?_⟩
  rcases h gift (by rw [hcommitted]; exact List.mem_singleton.2 rfl) with ⟨result, hresult, -⟩ | ⟨rec, hrec, hfields, -⟩
  · rw [hprocessed] at hresult
    cases hresult
  · rw [hdlq] at hrec
    rw [List.mem_singleton.1 hrec] at hfields
    have hfound := hfields "description" (.str "gift") rfl
    rw [hdescription] at hfound
    cases hfound

/-- A payment with no more than its four fields, which fails at every attempt. -/
def plain : Json.Members :=
  [("payment_id", .str "81d46e05"), ("user_id", .str "user-002"), ("amount", .num 4900), ("currency", .str "KRW")]

def plainText : String :=
  "\x7b\"payment_id\": \"81d46e05\", \"user_id\": \"user-002\", \"amount\": 4900, \"currency\": \"KRW\"\x7d"

def plainEnv : Env where
  loads text := if text = plainText then some (.obj plain) else none
  format _ := "81d46e05"

def plainRun : List (Event ByteArray Attempt Return) :=
  [.receive plainText.toUTF8 ⟨"2026-01-05T09:00:01", some "timeout"⟩,
    .advance (.attempt ⟨"2026-01-05T09:00:02", some "timeout"⟩),
    .advance (.attempt ⟨"2026-01-05T09:00:04", some "timeout"⟩), .advance .land, .advance .sent, .advance .store,
    .advance .committed, .receive plainText.toUTF8 ⟨"2026-01-05T09:00:05", none⟩, .advance .store]

theorem none_lost_plain : ∃ t, (loop plainEnv).lts.run (loop plainEnv).lts.init plainRun = some t ∧
    t.store.committed = 2 ∧ t.store.NoneLost := by
  obtain ⟨t, hrun, hcommitted⟩ : ∃ t, (loop plainEnv).lts.run (loop plainEnv).lts.init plainRun = some t ∧
      t.store.committed = 2 := ⟨_, rfl, rfl⟩
  have hfields : ∀ p ∈ plain, p.1 ∈ paymentFields := by decide
  have hkeeps : (loop plainEnv).lts.Along (fun s e _ => Keeps s e) (loop plainEnv).lts.init plainRun :=
    ⟨trivial, trivial, trivial, trivial, ⟨rfl, fun p hp => .inl (hfields p hp)⟩, trivial, trivial, trivial, trivial,
      trivial⟩
  exact ⟨t, hrun, hcommitted, none_lost plainEnv hrun hkeeps⟩

end Payments
end KafkaGuide
