import Mathlib.Algebra.Order.BigOperators.Group.Finset
import KafkaGuide.GatewayLoad
import KafkaGuide.GatewayOwned
/-!
# GatewayEnds — every payment is answered (`13-resilience-patterns`)

A payment has a bounded number of steps in it, whatever the gateway does and whichever posts time out: its attempts are
bounded, and so are the steps of one.  And until it is answered it can take one, at the latest when some time has
passed; no post has to time out for that.
-/
namespace KafkaGuide
namespace Gateway

open Count

variable {env : Settings} {s : Sys}

/-- A step of a payment or of the gateway's handler of a post. -/
def Action.isWork : Action → Bool
  | .tick _ => false
  | .setMode _ _ => false
  | .payment _ _ _ => false
  | _ => true

/-- The client stops waiting for a post. -/
def Action.isTimeout : Action → Bool
  | .transportError _ => true
  | _ => false

/-- The attempts that `retry_with_backoff` makes at most. -/
def Settings.attempts (env : Settings) : Nat := (max 1 env.retryMaxAttempts).toNat

/-! ## What is left to do -/

/-- The steps a handler has left. -/
def Handler.left : Handler → Nat
  | .wire => 3
  | .slow _ => 2
  | .latency _ => 1
  | .failed _ => 0
  | .approved _ => 0

/-- The steps a payment has left, those of the handlers of the posts it is still to make included. -/
def Payment.left (env : Settings) (pay : Payment) : Nat :=
  match pay.progress with
  | .attempting => 7 * (env.attempts - pay.attempt)
  | .posting _ => 7 * (env.attempts - pay.attempt) + 3
  | .settling _ _ => 7 * (env.attempts - pay.attempt) + 2
  | .sleeping _ => 7 * (env.attempts - pay.attempt) + 1
  | .ended _ => 0

def Sys.left (env : Settings) (s : Sys) (p : Nat) : Nat := ((s.payments p).map (Payment.left env)).getD 0

/-- What is left to do of some payments, and in the gateway. -/
def Sys.work (env : Settings) (ps : Finset Nat) (s : Sys) : Nat :=
  ∑ p ∈ ps, s.left env p + (s.posts.map fun post => post.handler.left).sum

/-- What a step may add, besides the step itself. -/
def Action.gain (env : Settings) (a : Action) : Nat :=
  if a.isWork then 0 else if a.request.isSome then 7 * env.attempts + 1 else 1

theorem left_setPayment (p q : Nat) (pay : Payment) :
    (s.setPayment p pay).left env q = if q = p then pay.left env else s.left env q := by
  unfold Sys.left
  rw [setPayment_payments]
  split <;> rfl

/-- **A payment moves on**: only its own part of the work changes. -/
theorem work_setPayment (env : Settings) (s : Sys) {ps : Finset Nat} {p : Nat} (hp : p ∈ ps) (pay : Payment) :
    (s.setPayment p pay).work env ps + s.left env p = s.work env ps + pay.left env := by
  have hsum := sum_change (f := s.left env) (g := (s.setPayment p pay).left env) hp fun q hq => by
    rw [left_setPayment, if_neg hq]
  rw [left_setPayment, if_pos rfl] at hsum
  unfold Sys.work
  change _ + (s.posts.map fun post => post.handler.left).sum + _ = _
  omega

theorem work_setPost (env : Settings) {j : Nat} {post : Post} (post' : Post) (ps : Finset Nat)
    (hpost : s.posts[j]? = some post) : (s.setPost j post').work env ps + post.handler.left =
      s.work env ps + post'.handler.left := by
  have hsum := sum_map_set (fun post : Post => post.handler.left) post' hpost
  unfold Sys.work
  change ∑ p ∈ ps, s.left env p + ((s.posts.set j post').map fun post => post.handler.left).sum + _ = _
  omega

theorem attempts_eq (env : Settings) : (env.attempts : Int) = max 1 env.retryMaxAttempts :=
  Int.toNat_of_nonneg (le_trans Int.one_nonneg (le_max_left _ _))

/-- A payment that is to make another attempt has one. -/
theorem Inv.attempt_lt (hi : Inv env s) {p : Nat} {pay : Payment} (hpay : s.payments p = some pay)
    (hpending : pay.progress.pending = true) : pay.attempt < env.attempts := by
  have hlt := hi.next p pay hpay hpending
  rw [← attempts_eq] at hlt
  exact Int.ofNat_lt.1 hlt

theorem left_chargeStart (g : State) (now random : ℚ) : (chargeStart g now random).left ≤ 2 := by
  unfold chargeStart
  split
  · exact Nat.zero_le 2
  · exact Nat.le_refl 2
  · split
    · exact Nat.zero_le 2
    · exact Nat.le_succ 1
  · exact Nat.le_succ 1

theorem left_chargeResume {g : State} {now : ℚ} {random : Nat} {h h' : Handler}
    (hresume : chargeResume g now random h = some h') : h'.left + 1 = h.left := by
  unfold chargeResume at hresume
  split at hresume
  · split at hresume
    · cases hresume
      rfl
    · cases hresume
  · split at hresume
    · cases hresume
      rfl
    · cases hresume
  · cases hresume

/-- After an attempt a payment has ended, or sleeps. -/
theorem left_afterAttempt (env : Settings) (pay : Payment) (now random : ℚ) (outcome : Except Exc Json) :
    (pay.afterAttempt env now random outcome).left env ≤ 7 * (env.attempts - pay.attempt) + 1 := by
  unfold Payment.afterAttempt
  cases outcome with
  | ok v => exact Nat.zero_le _
  | error exc =>
    dsimp only
    split
    · exact Nat.zero_le _
    · exact le_refl _

/-- The end of a post: the payment is to settle. -/
theorem work_conclude {ps : Finset Nat} (hi : Inv env s) {j : Nat} {post : Post} {pay : Payment}
    (hmem : post.payment ∈ ps) (view : View) (outcome : Except Exc Json) (hpost : s.posts[j]? = some post)
    (hview : post.view = .waiting) (hpay : s.payments post.payment = some pay) :
    (s.conclude env j post pay view outcome).work env ps + 1 ≤ s.work env ps := by
  have hposts : (s.setPost j { post with view }).work env ps + post.handler.left =
      s.work env ps + post.handler.left := work_setPost env { post with view } ps hpost
  have hwork := work_setPayment env ((s.stepCall env (.finish post.call (ending outcome))).setPost j { post with view })
    hmem { pay with progress := .settling post.call outcome }
  have hold : s.left env post.payment = 7 * (env.attempts - pay.attempt) + 3 := by
    rw [Sys.left, hpay, Option.map_some, Option.getD_some, Payment.left, hi.posting hpost hview hpay]
  change (s.conclude env j post pay view outcome).work env ps + s.left env post.payment =
    (s.setPost j { post with view }).work env ps + (7 * (env.attempts - pay.attempt) + 2) at hwork
  omega

/-- **One step of a payment or a handler is one step less to do**; a tick and a change of mode leave the work as it is,
and a request adds its attempts. -/
theorem work_step {ps : Finset Nat} {s' : Sys} {a : Action} (hi : Inv env s) (hps : ∀ p, s.payments p ≠ none → p ∈ ps)
    (hrequest : ∀ p ∈ a.request, p ∈ ps) (h : Step env s a s') :
    s'.work env ps + 1 ≤ s.work env ps + a.gain env := by
  have hmem : ∀ {p : Nat} {pay : Payment}, s.payments p = some pay → p ∈ ps := fun hpay =>
    hps _ (by rw [hpay]; exact fun h => nomatch h)
  have hleft : ∀ {p : Nat} {pay : Payment}, s.payments p = some pay → s.left env p = pay.left env := fun hpay => by
    rw [Sys.left, hpay]
    rfl
  cases h with
  | tick hd => exact le_refl _
  | setMode mode latencyMs => exact le_refl _
  | @payment p orderId amount hnew =>
    have hwork := work_setPayment env s (hrequest p rfl) { orderId, amount }
    have hnone : s.left env p = 0 := by
      rw [Sys.left, hnew]
      rfl
    have hgain : (Action.payment p orderId amount).gain env = 7 * env.attempts + 1 := rfl
    have hnewleft : Payment.left env { orderId, amount } = 7 * env.attempts := rfl
    omega
  | @attempt p pay hpay hprogress =>
    have hlt := hi.attempt_lt hpay (by rw [hprogress]; rfl)
    have hold : pay.left env = 7 * (env.attempts - pay.attempt) := by rw [Payment.left, hprogress]
    have hsame := hleft hpay
    cases hbefore : Breaker.beforeCall env.gatewayBreaker s.breaker.breaker s.breaker.now with
    | error e =>
      have hwork := work_setPayment env s (hmem hpay) { pay with
        attempt := pay.attempt + 1
        progress := .settling s.breaker.calls.length (.error (.circuitBreakerOpenError e)) }
      rw [attempt_rejected hbefore, List.append_nil]
      change (s.setPayment p _).work env ps + 1 ≤ _
      change _ = _ + (7 * (env.attempts - (pay.attempt + 1)) + 2) at hwork
      omega
    | ok cb =>
      have hwork := work_setPayment env s (hmem hpay) { pay with
        attempt := pay.attempt + 1, progress := .posting s.posts.length }
      have hposts : ∀ post : Post, ((s.posts ++ [post]).map fun post => post.handler.left).sum =
          (s.posts.map fun post => post.handler.left).sum + post.handler.left := fun post => by
        rw [List.map_append, List.sum_append, List.map_singleton, List.sum_singleton]
      rw [attempt_posted hbefore]
      unfold Sys.work at hwork ⊢
      change ∑ q ∈ ps, (s.setPayment p _).left env q + (List.map _ (s.posts ++ [_])).sum + 1 ≤ _
      rw [hposts]
      change _ + ((s.posts.map fun post => post.handler.left).sum) + _ =
        _ + (7 * (env.attempts - (pay.attempt + 1)) + 3) at hwork
      change _ + (_ + 3) + 1 ≤ _
      omega
  | @arrive j post random hpost hhandler =>
    have hwork := work_setPost env { post with
      handler := chargeStart s.gateway s.breaker.now random } ps hpost
    have hle := left_chargeStart s.gateway s.breaker.now random
    rw [hhandler] at hwork
    change _ + 3 = _ + (chargeStart s.gateway s.breaker.now random).left at hwork
    omega
  | @resume j random post handler hpost hresume =>
    have hwork := work_setPost env { post with handler } ps hpost
    have hle := left_chargeResume hresume
    change _ = _ + handler.left at hwork
    omega
  | @answer j post r pay hpost hview hresponse hpay =>
    exact work_conclude hi (hmem hpay) (.received) (httpCall r) hpost hview hpay
  | transportError hpost hview hpay => exact work_conclude hi (hmem hpay) .gaveUp _ hpost hview hpay
  | @settle p call outcome pay random hpay hprogress =>
    have hwork := work_setPayment env (s.stepCall env (.settle call)) (hmem hpay)
      (pay.afterAttempt env s.breaker.now random outcome)
    have hle := left_afterAttempt env pay s.breaker.now random outcome
    have hold : pay.left env = 7 * (env.attempts - pay.attempt) + 2 := by rw [Payment.left, hprogress]
    have hsame := hleft hpay
    change _ + s.left env p = s.work env ps + _ at hwork
    omega
  | @wakeUp p due pay hpay hprogress =>
    have hwork := work_setPayment env s (hmem hpay) { pay with progress := .attempting }
    have hold : pay.left env = 7 * (env.attempts - pay.attempt) + 1 := by rw [Payment.left, hprogress]
    have hsame := hleft hpay
    change _ = _ + 7 * (env.attempts - pay.attempt) at hwork
    omega

/-! ## Runs are short -/

theorem gain_add (env : Settings) (a : Action) : a.gain env + (if a.isWork = true then 1 else 0) =
    1 + 7 * env.attempts * (if a.request.isSome = true then 1 else 0) := by
  cases a with
  | payment p orderId amount =>
    change 7 * env.attempts + 1 + 0 = 1 + 7 * env.attempts * 1
    omega
  | _ => rfl

/-- **A request has at most seven steps an attempt in it.** -/
theorem run_short {gateway : State} {as : List Action} (hrun : (lts env gateway).run { gateway } as = some s) :
    as.countP Action.isWork ≤ 7 * env.attempts * as.countP (fun a => a.request.isSome) := by
  have hgain : (as.map (Action.gain env)).sum + as.countP Action.isWork =
      as.length + 7 * env.attempts * as.countP (fun a => a.request.isSome) := by
    clear hrun
    induction as with
    | nil => rfl
    | cons a as ih =>
      have hone := gain_add env a
      rw [List.map_cons, List.sum_cons, List.countP_cons, List.countP_cons, List.length_cons, Nat.mul_add]
      omega
  have hrequests : ∀ a ∈ as, ∀ p ∈ a.request, p ∈ (as.filterMap Action.request).toFinset :=
    fun a ha p hp => List.mem_toFinset.2 (List.mem_filterMap.2 ⟨a, ha, hp⟩)
  generalize (as.filterMap Action.request).toFinset = ps at hrequests
  have hlength := Lts.run_length_le (L := lts env gateway)
    (I := fun s => Inv env s ∧ ∀ p, s.payments p ≠ none → p ∈ ps) (P := fun a => ∀ p ∈ a.request, p ∈ ps)
    (Sys.work env ps) (Action.gain env) (fun s a s' hi ha h => ?_) ⟨inv_init gateway, fun p hp => absurd rfl hp⟩
    hrequests hrun
  · have hzero : Sys.work env ps { gateway } = 0 := Finset.sum_eq_zero fun _ _ => rfl
    omega
  · have hstep := step_sound (show step env s a = some s' from h)
    exact ⟨⟨inv_step hi.1 hstep, fun p hp => (known_step hstep hp).elim (hi.2 p) (ha p)⟩, work_step hi.1 hi.2 ha hstep⟩

/-! ## What can go on -/

theorem le_add_wait (now due : ℚ) : due ≤ now + max 0 (due - now) := by
  have hle := le_max_right 0 (due - now)
  linarith

/-- After some time a step can be taken that is no timeout. -/
def Sys.CanGoOn (env : Settings) (s : Sys) : Prop :=
  ∃ d a, 0 ≤ d ∧ a.isWork = true ∧ a.isTimeout = false ∧ (step env (s.stepCall env (.tick d)) a).isSome = true

theorem canGoOn_of {d : ℚ} {a : Action} (hd : 0 ≤ d) (hwork : a.isWork = true) (htimeout : a.isTimeout = false)
    (h : (step env { s with breaker := { s.breaker with now := s.breaker.now + d } } a).isSome = true) :
    s.CanGoOn env := by
  refine ⟨d, a, hd, hwork, htimeout, ?_⟩
  rw [stepCall_tick hd]
  exact h

theorem canGoOn_resume {j : Nat} {post : Post} (due : ℚ) (hpost : s.posts[j]? = some post)
    (hresume : (chargeResume s.gateway (s.breaker.now + max 0 (due - s.breaker.now)) 0 post.handler).isSome = true) :
    s.CanGoOn env := by
  obtain ⟨handler, h⟩ := Option.isSome_iff_exists.1 hresume
  refine canGoOn_of (a := .resume j 0) (le_max_left 0 (due - s.breaker.now)) rfl rfl ?_
  simp only [step, hpost, h, Option.map_some, Option.isSome_some]

/-- A post that is waited for goes on: its handler does, or its answer is read. -/
theorem post_goes_on {j : Nat} {post : Post} {pay : Payment} (hpost : s.posts[j]? = some post)
    (hview : post.view = .waiting) (hpay : s.payments post.payment = some pay) : s.CanGoOn env := by
  cases hhandler : post.handler with
  | wire =>
    refine canGoOn_of (a := .arrive j 0) (le_refl 0) rfl rfl ?_
    simp only [step, hpost, hhandler, Option.isSome_some]
  | slow due =>
    refine canGoOn_resume due hpost ?_
    simp only [hhandler, chargeResume, if_pos (le_add_wait s.breaker.now due), Option.isSome_some]
  | latency due =>
    refine canGoOn_resume due hpost ?_
    simp only [hhandler, chargeResume, if_pos (le_add_wait s.breaker.now due), Option.isSome_some]
  | failed detail =>
    refine canGoOn_of (a := .answer j) (le_refl 0) rfl rfl ?_
    simp only [step, hpost, hview, Post.response, hhandler, hpay, Option.isSome_some]
  | approved tx =>
    refine canGoOn_of (a := .answer j) (le_refl 0) rfl rfl ?_
    simp only [step, hpost, hview, Post.response, hhandler, hpay, Option.isSome_some]

/-- **A payment that is not answered can go on**, after some time and without a timeout. -/
theorem goes_on (ho : Owned env s) {p : Nat} {pay : Payment} (hpay : s.payments p = some pay)
    (hopen : ∀ outcome, pay.progress ≠ .ended outcome) : s.CanGoOn env := by
  cases hprogress : pay.progress with
  | attempting =>
    refine canGoOn_of (a := .attempt p) (le_refl 0) rfl rfl ?_
    simp only [step, hpay, hprogress, Option.isSome_some]
  | posting j =>
    obtain ⟨post, a, hpost, rfl, hview, -⟩ := ho.posting p pay j hpay hprogress
    exact post_goes_on hpost hview hpay
  | settling call outcome =>
    refine canGoOn_of (a := .settle p 0) (le_refl 0) rfl rfl ?_
    simp only [step, hpay, hprogress, Option.isSome_some]
  | sleeping due =>
    refine canGoOn_of (a := .wakeUp p) (le_max_left 0 (due - s.breaker.now)) rfl rfl ?_
    simp only [step, hpay, hprogress]
    rw [if_pos (le_add_wait s.breaker.now due), Option.isSome_some]
  | ended outcome => exact absurd hprogress (hopen outcome)

/-- **Every payment is answered**: whatever the gateway's modes, the draws and the timeouts, and however the requests
interleave, a run has at most seven steps for each attempt that its requests may make, and one in which no wait leads to
a further step, timeouts apart, has answered them all. -/
theorem payments_answered (env : Settings) (gateway : State) {as : List Action}
    (hrun : (lts env gateway).run { gateway } as = some s) :
    as.countP Action.isWork ≤ 7 * (max 1 env.retryMaxAttempts).toNat * as.countP (fun a => a.request.isSome) ∧
      ((∀ d a, 0 ≤ d → a.isWork = true → a.isTimeout = false → (lts env gateway).run s [.tick d, a] = none) →
        ∀ p pay, s.payments p = some pay → ∃ outcome, pay.progress = .ended outcome) := by
  refine ⟨run_short hrun, fun hhalt p pay hpay => ?_⟩
  by_contra hnot
  obtain ⟨-, ho⟩ := reachable_owned gateway ⟨as, hrun⟩
  obtain ⟨d, a, hd, hwork, htimeout, hsome⟩ := goes_on ho hpay fun outcome hended => hnot ⟨outcome, hended⟩
  obtain ⟨t, hstep⟩ := Option.isSome_iff_exists.1 hsome
  have hrun' : (lts env gateway).run s [.tick d, a] = some t := by
    refine (lts env gateway).run_cons.2 ⟨s.stepCall env (.tick d), if_pos hd, ?_⟩
    exact (lts env gateway).run_cons.2 ⟨t, hstep, rfl⟩
  rw [hhalt d a hd hwork htimeout] at hrun'
  cases hrun'

/-- The gateway is asleep for the first post, which times out, and rejects the second; the third is approved. -/
def threeAttempts : List Action :=
  [.payment 0 "abc-1" (4900 : ℚ), .attempt 0, .arrive 0 0, .tick 2, .transportError 0, .settle 0 0, .tick 1, .wakeUp 0,
    .setMode .dead none, .attempt 0, .arrive 1 0, .answer 1, .settle 0 0, .tick 1, .wakeUp 0, .setMode .slow none,
    .attempt 0, .arrive 2 0, .tick 5, .resume 2 0, .resume 0 0, .tick 1, .resume 2 123456, .answer 2, .settle 0 0,
    .resume 0 654321]

theorem payments_answered_thrice : ∃ s, (lts {} ⟨.slow, 50⟩).run { gateway := ⟨.slow, 50⟩ } threeAttempts = some s ∧
    (s.payments 0).any (fun pay => decide (pay.attempt = 3)) = true ∧
    (threeAttempts.countP Action.isWork ≤
        7 * (max 1 (3 : Int)).toNat * threeAttempts.countP (fun a => a.request.isSome) ∧
      ((∀ d a, 0 ≤ d → a.isWork = true → a.isTimeout = false → (lts {} ⟨.slow, 50⟩).run s [.tick d, a] = none) →
        ∀ p pay, s.payments p = some pay → ∃ outcome, pay.progress = .ended outcome)) := by
  have hrun : ((lts {} ⟨.slow, 50⟩).run { gateway := ⟨.slow, 50⟩ } threeAttempts).any
      (fun s => (s.payments 0).any fun pay => decide (pay.attempt = 3)) = true := by decide +kernel
  obtain ⟨s, hs, hthree⟩ := (Option.any_eq_true ..).1 hrun
  exact ⟨s, hs, hthree, payments_answered {} ⟨.slow, 50⟩ hs⟩

end Gateway
end KafkaGuide
