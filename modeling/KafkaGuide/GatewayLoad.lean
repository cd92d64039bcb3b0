import Mathlib.Data.Set.Card
import KafkaGuide.GatewayCalls
/-!
# GatewayLoad — how many posts a dead gateway gets

While the breaker is CLOSED its `failure_count` is the number of calls that have ended, and each of the others is held
by a request of its own: so there are fewer than `failure_threshold` of the first and at most as many of the second as
requests run at the same time.  Once it is OPEN nothing is posted before `recovery_timeout` has passed.
-/
namespace KafkaGuide
namespace Gateway

open Breaker (Call)
open Count

variable {env : Settings} {s : Sys}

/-- A `POST /payments` that has not been answered yet. -/
def Sys.Active (s : Sys) (p : Nat) : Prop := ∃ pay, s.payments p = some pay ∧ ∀ outcome, pay.progress ≠ .ended outcome

/-- At most `c` requests run at the same time. -/
def Sys.AtMost (s : Sys) (c : Nat) : Prop := {p | s.Active p}.encard ≤ c

/-- The request an action starts. -/
def Action.request : Action → Option Nat
  | .payment p _ _ => some p
  | _ => none

theorem setPayment_known {p q : Nat} {pay pay' : Payment} (hpay : s.payments p = some pay)
    (h : (s.setPayment p pay').payments q ≠ none) : s.payments q ≠ none := by
  rw [setPayment_payments] at h
  split at h
  · rename_i hqp
    rw [hqp, hpay]
    exact fun h => nomatch h
  · exact h

/-- Only its request makes a payment known. -/
theorem known_step {s' : Sys} {a : Action} (h : Step env s a s') {q : Nat} (hq : s'.payments q ≠ none) :
    s.payments q ≠ none ∨ a.request = some q := by
  cases h with
  | @payment p orderId amount hnew =>
    rw [setPayment_payments] at hq
    split at hq
    · rename_i hqp
      exact .inr (congrArg some hqp.symm)
    · exact .inl hq
  | @attempt p pay hpay hprogress =>
    cases hbefore : Breaker.beforeCall env.gatewayBreaker s.breaker.breaker s.breaker.now with
    | error e =>
      rw [attempt_rejected hbefore] at hq
      exact .inl (setPayment_known hpay hq)
    | ok cb =>
      rw [attempt_posted hbefore] at hq
      exact .inl (setPayment_known hpay hq)
  | answer hpost hview hresponse hpay => exact .inl (setPayment_known hpay hq)
  | transportError hpost hview hpay => exact .inl (setPayment_known hpay hq)
  | settle random hpay hprogress => exact .inl (setPayment_known hpay hq)
  | wakeUp hpay hprogress => exact .inl (setPayment_known hpay hq)
  | _ => exact .inl hq

/-- **No more requests run at the same time than there are.** -/
theorem atMost_requests (env : Settings) (gateway : State) (ps : Finset Nat) {as : List Action}
    (hrequests : ∀ a ∈ as, ∀ p ∈ a.request, p ∈ ps) (hknown : ∀ p, s.payments p ≠ none → p ∈ ps) :
    (lts env gateway).Along (fun _ _ s' => s'.AtMost ps.card) s as := by
  refine (lts env gateway).along_of_inv (I := fun s => ∀ p, s.payments p ≠ none → p ∈ ps)
    (fun s a s' hknown hstep hrequest => ?_) hknown ((lts env gateway).along_of_events hrequests)
  have hknown' : ∀ p, s'.payments p ≠ none → p ∈ ps := fun p hp =>
    (known_step (step_sound hstep) hp).elim (hknown p) (hrequest p)
  refine ⟨hknown', ?_⟩
  unfold Sys.AtMost
  rw [← Set.encard_coe_eq_coe_finsetCard]
  refine Set.encard_le_encard fun p hp => hknown' p ?_
  obtain ⟨pay, hpay, -⟩ := hp
  rw [hpay]
  exact fun h => nomatch h

/-! ## The bound -/

variable (env) in
/-- The breaker has not opened yet, or has and stays OPEN until after `limit`. -/
def Sys.InPhase (limit : ℚ) (s : Sys) : Prop :=
  Breaker.Counting env.gatewayBreaker s.breaker ∨ Breaker.Tripped env.gatewayBreaker limit s.breaker

theorem inPhase_finish {limit : ℚ} (hp : s.InPhase env limit) (i : Nat) {exc : Exc} (hexc : exc.isHttpError = true) :
    (s.stepCall env (.finish i (.raised exc))).InPhase env limit := by
  rcases stepCall_finish env s i hexc with ⟨a, hi, hbreaker⟩ | ⟨-, hsame⟩
  · have hended := Breaker.isEnded_set (q := .onFailure) hi
    rw [if_neg (fun h => nomatch h), if_neg (fun h => nomatch h)] at hended
    unfold Sys.InPhase
    rw [hbreaker]
    exact hp.imp (fun hc => hc.congr rfl rfl hended) (fun ht => ht.congr rfl rfl (le_refl _))
  · rw [hsame]
    exact hp

theorem inPhase_settle {limit : ℚ} (hl : Load s) (hp : s.InPhase env limit) (i : Nat)
    (hlimit : s.breaker.opens = 0 → 0 < (s.stepCall env (.settle i)).breaker.opens →
      limit - s.breaker.now < env.cbRecoveryTimeoutSec) : (s.stepCall env (.settle i)).InPhase env limit := by
  rcases stepCall_settle env hl i with ⟨a, hi, hbreaker⟩ | ⟨-, hsame⟩
  · unfold Sys.InPhase
    rw [hbreaker] at hlimit ⊢
    rcases hp with hc | ht
    · exact hc.fail hi (hlimit hc.opens)
    · exact .inr ht.fail
  · rw [hsame]
    exact hp

/-- **Before the breaker opens**: fewer than `failure_threshold` calls have ended, and the others are held. -/
theorem posts_lt {c : Nat} (hl : Load s) (hmost : s.AtMost c) (hc : Breaker.Counting env.gatewayBreaker s.breaker) :
    (s.posts.length : Int) < env.cbFailureThreshold + c := by
  have hfinite := Set.finite_of_encard_le_coe hmost
  have hcard : hfinite.toFinset.card ≤ c := by
    have hmost := hmost
    unfold Sys.AtMost at hmost
    rw [hfinite.encard_eq_coe_toFinset_card] at hmost
    exact_mod_cast hmost
  have hflight : s.breaker.calls.countP Call.inFlight ≤ hfinite.toFinset.card := by
    refine countP_le_holders s.callOf _ _ fun i c hc hflight => ?_
    obtain ⟨p, hp⟩ := hl.held i c hc hflight
    refine ⟨p, hfinite.mem_toFinset.2 ?_, hp⟩
    obtain ⟨pay, hpay, hcall⟩ := Option.bind_eq_some_iff.1 hp
    refine ⟨pay, hpay, fun outcome h => ?_⟩
    rw [h] at hcall
    cases hcall
  have hbelow : ((s.breaker.calls.countP Call.isEnded : Nat) : Int) < env.cbFailureThreshold := by
    rw [← hc.count]
    exact hc.below
  rw [hl.posts, Breaker.countP_passed]
  push_cast
  omega

/-- **The inductive invariant**, until the clock reads `limit`. -/
structure Bounded (env : Settings) (c : Nat) (limit : ℚ) (s : Sys) : Prop where
  charge : Inv env s
  load : Load s
  phase : s.InPhase env limit
  bound : (s.posts.length : Int) < env.cbFailureThreshold + c

/-- Only an attempt posts. -/
theorem posts_length {s' : Sys} {a : Action} (h : Step env s a s') (hnot : ∀ p, a ≠ .attempt p) :
    s'.posts.length = s.posts.length := by
  cases h with
  | attempt hpay hprogress => exact absurd rfl (hnot _)
  | arrive random hpost hhandler => exact List.length_set
  | resume hpost hresume => exact List.length_set
  | answer hpost hview hresponse hpay => exact List.length_set
  | transportError hpost hview hpay => exact List.length_set
  | _ => rfl

theorem attempt_step {c : Nat} {limit : ℚ} {p : Nat} {pay : Payment} (hb : Bounded env c limit s)
    (hpay : s.payments p = some pay) (hprogress : pay.progress = .attempting) (hmost : (s.attempt env p pay).AtMost c)
    (hnow : s.breaker.now ≤ limit) : Bounded env c limit (s.attempt env p pay) ∧
      (0 < s.breaker.opens → (s.attempt env p pay).posts.length = s.posts.length) := by
  have hload : Load (s.attempt env p pay) := hb.load.attempt hpay hprogress
  have hcharge := hb.charge.attempt hpay hprogress
  rcases hb.phase with hc | ht
  · have hclosed := hc.closed
    have hbefore : Breaker.beforeCall env.gatewayBreaker s.breaker.breaker s.breaker.now = .ok s.breaker.breaker := by
      rw [Breaker.beforeCall, hclosed]
      rfl
    have hbreaker : (s.attempt env p pay).breaker = s.breaker.pass s.breaker.breaker := by rw [attempt_posted hbefore]
    have hcounting : Breaker.Counting env.gatewayBreaker (s.attempt env p pay).breaker := by
      rw [hbreaker]
      exact hc.pass
    refine ⟨⟨hcharge, hload, .inl hcounting, posts_lt hload hmost hcounting⟩, fun hopens => ?_⟩
    have hzero := hc.opens
    omega
  · have hbefore : Breaker.beforeCall env.gatewayBreaker s.breaker.breaker s.breaker.now =
        .error ⟨env.gatewayBreaker.name⟩ := by
      rw [Breaker.beforeCall, if_pos ht.opened, ht.rejects hnow]
      rfl
    have hlength : (s.attempt env p pay).posts.length = s.posts.length := by
      rw [attempt_rejected hbefore, List.append_nil]
    refine ⟨⟨hcharge, hload, .inr ?_, by rw [hlength]; exact hb.bound⟩, fun _ => hlength⟩
    rw [attempt_rejected hbefore]
    exact ht.congr rfl rfl (le_refl _)

/-- The clock does not go back. -/
theorem now_le {s' : Sys} {a : Action} (h : Step env s a s') : s.breaker.now ≤ s'.breaker.now := by
  cases h with
  | tick hd =>
    rw [stepCall_tick hd]
    exact le_add_of_nonneg_right hd
  | attempt hpay hprogress =>
    rw [attempt_breaker]
    exact (stepCall_now env s fun _ h => by cases h).ge
  | answer hpost hview hresponse hpay => exact (stepCall_now env s fun _ h => by cases h).ge
  | transportError hpost hview hpay => exact (stepCall_now env s fun _ h => by cases h).ge
  | settle random hpay hprogress => exact (stepCall_now env s fun _ h => by cases h).ge
  | _ => exact le_refl _

theorem bounded_step {s' : Sys} {a : Action} {c : Nat} {limit : ℚ} (hb : Bounded env c limit s) (h : Step env s a s')
    (hdead : s.Dead a) (hmost : s'.AtMost c) (hnow : s'.breaker.now ≤ limit)
    (hlimit : s.breaker.opens = 0 → 0 < s'.breaker.opens → limit - s'.breaker.now < env.cbRecoveryTimeoutSec) :
    Bounded env c limit s' ∧ (0 < s.breaker.opens → s'.posts.length = s.posts.length) := by
  by_cases hattempt : ∃ p, a = .attempt p
  · obtain ⟨p, rfl⟩ := hattempt
    have hbefore := now_le h
    cases h with
    | attempt hpay hprogress => exact attempt_step hb hpay hprogress hmost (hbefore.trans hnow)
  · have hlength := posts_length h fun p hp => hattempt ⟨p, hp⟩
    refine ⟨⟨inv_step hb.charge h, load_step hb.charge hb.load hdead h, ?_, by rw [hlength]; exact hb.bound⟩,
      fun _ => hlength⟩
    cases h with
    | tick hd =>
      rw [stepCall_tick hd]
      exact hb.phase.imp (fun hc => hc.congr rfl rfl rfl) (fun ht => ht.congr rfl rfl (le_add_of_nonneg_right hd))
    | attempt hpay hprogress => exact absurd ⟨_, rfl⟩ hattempt
    | @answer j post r pay hpost hview hresponse hpay =>
      obtain ⟨exc, hcall, hexc⟩ := httpCall_error hdead hpost hresponse
      rw [hcall]
      exact inPhase_finish hb.phase post.call hexc
    | transportError hpost hview hpay => exact inPhase_finish hb.phase _ rfl
    | @settle p call outcome pay random hpay hprogress =>
      have hsame := stepCall_now env s (e := .settle call) (fun _ h => nomatch h)
      refine inPhase_settle hb.load hb.phase call fun hzero hopens => ?_
      have hwindow := hlimit hzero hopens
      change limit - (s.stepCall env (.settle call)).breaker.now < _ at hwindow
      rw [hsame] at hwindow
      exact hwindow
    | _ => exact hb.phase

/-! ## A dead gateway -/

variable (env) in
/-- Less than `recovery_timeout` has passed at `limit` since the breaker first opened, if it has. -/
def Recovering (limit : ℚ) (s : Sys) (_ : Action) (s' : Sys) : Prop :=
  s.breaker.opens = 0 → 0 < s'.breaker.opens → limit - s'.breaker.now < env.cbRecoveryTimeoutSec

/-- **The breaker bounds the load on a dead gateway**: with at most `c` requests at the same time, the gateway gets at
most `failure_threshold + c - 1` posts, however often each is retried, and none once the breaker has opened. -/
theorem load_bounded (env : Settings) (gateway : State) (t₀ : ℚ) {c : Nat} {as : List Action} {t : Sys}
    (hthreshold : 1 ≤ env.cbFailureThreshold)
    (hrun : (lts env gateway).run { gateway, breaker := { now := t₀ } } as = some t)
    (hmost : (lts env gateway).Along (fun _ _ s' => s'.AtMost c) { gateway, breaker := { now := t₀ } } as)
    (hdead : (lts env gateway).Along (fun s a _ => s.Dead a) { gateway, breaker := { now := t₀ } } as)
    (hwindow : (lts env gateway).Along (Recovering env t.breaker.now) { gateway, breaker := { now := t₀ } } as) :
    (t.posts.length : Int) ≤ env.cbFailureThreshold + c - 1 ∧
      (lts env gateway).Along (fun s _ s' => 0 < s.breaker.opens → s'.posts.length = s.posts.length)
        { gateway, breaker := { now := t₀ } } as := by
  have hnow : (lts env gateway).Along (fun _ _ s' => s'.breaker.now ≤ t.breaker.now)
      { gateway, breaker := { now := t₀ } } as := by
    refine (lts env gateway).along_mono (fun s a s' _ hreach => ?_) ((lts env gateway).along_reaches hrun)
    obtain ⟨as', hrun'⟩ := hreach
    exact (lts env gateway).run_inv (I := fun u => s'.breaker.now ≤ u.breaker.now)
      (fun u b u' hu hstep => hu.trans (now_le (step_sound hstep))) (le_refl _) hrun'
  have hinit : Bounded env c t.breaker.now { gateway, breaker := { now := t₀ } } := by
    refine ⟨(inv_init gateway).congr rfl rfl, load_init gateway t₀, .inl ⟨rfl, rfl, rfl, ?_⟩, ?_⟩
    · change (0 : Int) < env.cbFailureThreshold
      omega
    · change (0 : Int) < env.cbFailureThreshold + c
      omega
  have hall := (lts env gateway).along_and hmost
    ((lts env gateway).along_and hdead ((lts env gateway).along_and hwindow hnow))
  have hstep : ∀ s a s', Bounded env c t.breaker.now s → (lts env gateway).step s a = some s' →
      (s'.AtMost c ∧ s.Dead a ∧ Recovering env t.breaker.now s a s' ∧ s'.breaker.now ≤ t.breaker.now) →
      Bounded env c t.breaker.now s' ∧ (0 < s.breaker.opens → s'.posts.length = s.posts.length) :=
    fun s a s' hb hstep ⟨hmost, hdead, hwindow, hnow⟩ => bounded_step hb (step_sound hstep) hdead hmost hnow hwindow
  constructor
  · have hb := (lts env gateway).run_inv_along (fun s a s' hb h hc => (hstep s a s' hb h hc).1) hinit hall hrun
    have hbound := hb.bound
    omega
  · exact (lts env gateway).along_of_inv hstep hinit hall

instance (limit : ℚ) (s : Sys) (a : Action) (s' : Sys) : Decidable (Recovering env limit s a s') :=
  inferInstanceAs (Decidable (_ → _ → _))

/-- Two requests, each of whose posts ends in a `TransportError`: the first is retried before the second has failed. -/
def twoDown : List Action :=
  [.payment 0 "abc-1" (4900 : ℚ), .payment 1 "abc-2" (1200 : ℚ), .attempt 0, .attempt 1, .transportError 0,
    .settle 0 0, .tick 1, .wakeUp 0, .attempt 0, .transportError 1, .settle 1 0, .tick 1, .wakeUp 1, .attempt 1,
    .transportError 2, .settle 0 0, .settle 1 0]

theorem load_bounded_twoDown : ∃ t,
    (lts { cbFailureThreshold := 2 } ⟨.dead, 50⟩).run { gateway := ⟨.dead, 50⟩, breaker := { now := 0 } } twoDown =
      some t ∧ t.posts.length = 3 ∧ (t.posts.length : Int) ≤ 2 + 2 - 1 := by
  have hend : ((lts { cbFailureThreshold := 2 } ⟨.dead, 50⟩).run { gateway := ⟨.dead, 50⟩, breaker := { now := 0 } }
      twoDown).any (fun t => decide (t.posts.length = 3 ∧ t.breaker.now = 2)) = true := by decide +kernel
  obtain ⟨t, hrun, h⟩ := (Option.any_eq_true ..).1 hend
  obtain ⟨hposts, hnow⟩ := of_decide_eq_true h
  have hrequests : ∀ a ∈ twoDown, ∀ p ∈ a.request, p ∈ ({0, 1} : Finset Nat) := by decide
  have hmost := atMost_requests (s := { gateway := ⟨.dead, 50⟩, breaker := { now := 0 } })
    { cbFailureThreshold := 2 } ⟨.dead, 50⟩ {0, 1} hrequests (fun _ h => absurd rfl h)
  have hwindow : (lts { cbFailureThreshold := 2 } ⟨.dead, 50⟩).Along (Recovering { cbFailureThreshold := 2 } 2)
      { gateway := ⟨.dead, 50⟩, breaker := { now := 0 } } twoDown := by decide +kernel
  rw [← hnow] at hwindow
  exact ⟨t, hrun, hposts,
    (load_bounded { cbFailureThreshold := 2 } ⟨.dead, 50⟩ 0 (by decide) hrun hmost (by decide +kernel) hwindow).1⟩

end Gateway
end KafkaGuide
