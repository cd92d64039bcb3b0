import KafkaGuide.BreakerCount
import KafkaGuide.GatewayCharge
/-!
# GatewayCalls — the calls of the breaker that payments are in

A payment is in one call of the breaker at a time: it posts in it, and then settles it.  When every post ends in an
`httpx.HTTPError`, each call that is in flight is one a payment is in.
-/
namespace KafkaGuide
namespace Gateway

open Breaker (Call)
open Count

variable {env : Settings}

/-- `_http_call` raises an `httpx.HTTPError`. -/
def endsInHttpError : Except Exc Json → Bool
  | .ok _ => false
  | .error exc => exc.isHttpError

/-- The answers there are make `_http_call` raise an `httpx.HTTPError`; a post without one always does. -/
def Sys.Dead (s : Sys) : Action → Prop
  | .answer j => ((s.posts[j]?.bind Post.response).map httpCall).all endsInHttpError = true
  | _ => True

instance (s : Sys) (a : Action) : Decidable (s.Dead a) := by
  unfold Sys.Dead
  split <;> infer_instance

/-! ## Holding a call -/

/-- The call of the breaker a payment is in. -/
def Progress.call (posts : List Post) : Progress → Option Nat
  | .posting j => posts[j]?.map Post.call
  | .settling call _ => some call
  | _ => none

/-- The call of the breaker that a payment is in. -/
def Sys.callOf (s : Sys) (p : Nat) : Option Nat := (s.payments p).bind (fun pay => pay.progress.call s.posts)

/-- **The invariant of the calls.** -/
structure Load (s : Sys) : Prop where
  posts : s.posts.length = s.breaker.calls.countP Call.passed
  posted : ∀ post ∈ s.posts, post.call < s.breaker.calls.length
  settling : ∀ p pay call outcome, s.payments p = some pay → pay.progress = .settling call outcome →
    ∃ c, s.breaker.calls[call]? = some c ∧ c.inFunc = false
  held : ∀ i c, s.breaker.calls[i]? = some c → c.inFlight = true → ∃ p, s.callOf p = some i
  failing : ∀ c ∈ s.breaker.calls, c.succeeds = false

theorem load_init (gateway : State) (t₀ : ℚ) : Load { gateway, breaker := { now := t₀ } } where
  posts := rfl
  posted _ h := nomatch h
  settling _ _ _ _ h := nomatch h
  held _ _ h := nomatch h
  failing _ h := nomatch h

/-! ## What a step does to the calls -/

theorem call_set {posts : List Post} {j : Nat} {post : Post} (post' : Post) (hpost : posts[j]? = some post)
    (hcall : post'.call = post.call) (progress : Progress) :
    progress.call (posts.set j post') = progress.call posts := by
  cases progress with
  | posting k =>
    change (posts.set j post')[k]?.map Post.call = posts[k]?.map Post.call
    rw [List.getElem?_set]
    split
    · rename_i hjk
      subst hjk
      rw [if_pos (List.getElem?_eq_some_iff.1 hpost).1, hpost, Option.map_some, Option.map_some, hcall]
    · rfl
  | _ => rfl

theorem call_append {posts : List Post} {progress : Progress} {i : Nat} (h : progress.call posts = some i)
    (post : Post) : progress.call (posts ++ [post]) = some i := by
  cases progress with
  | posting k =>
    obtain ⟨other, hother, hcall⟩ := Option.map_eq_some_iff.1 h
    change (posts ++ [post])[k]?.map Post.call = some i
    rw [append_get hother, Option.map_some, hcall]
  | _ => exact h

variable {s : Sys}

theorem setPayment_callOf (p q : Nat) (pay : Payment) :
    (s.setPayment p pay).callOf q = if q = p then pay.progress.call s.posts else s.callOf q := by
  unfold Sys.callOf
  rw [setPayment_payments]
  split <;> rfl

theorem Load.setPost (hl : Load s) {j : Nat} {post post' : Post} (hpost : s.posts[j]? = some post)
    (hcall : post'.call = post.call) : Load (s.setPost j post') where
  posts := by
    change (s.posts.set j post').length = _
    rw [List.length_set]
    exact hl.posts
  posted other hother := by
    rcases List.mem_or_eq_of_mem_set hother with h | rfl
    · exact hl.posted other h
    · rw [hcall]
      exact hl.posted post (List.mem_of_getElem? hpost)
  settling := hl.settling
  held i c hc hflight := by
    obtain ⟨p, hp⟩ := hl.held i c hc hflight
    refine ⟨p, ?_⟩
    rw [← hp]
    change (s.payments p).bind _ = (s.payments p).bind _
    congr 1
    funext pay
    exact call_set post' hpost hcall pay.progress
  failing := hl.failing

/-- **A payment moves on**: the call it leaves behind is not in flight. -/
theorem Load.setPayment (hl : Load s) {p : Nat} {pay : Payment}
    (hleft : ∀ i c, s.callOf p = some i → s.breaker.calls[i]? = some c → c.inFlight = true →
      pay.progress.call s.posts = some i)
    (hsettling : ∀ call outcome, pay.progress = .settling call outcome →
      ∃ c, s.breaker.calls[call]? = some c ∧ c.inFunc = false) : Load (s.setPayment p pay) where
  posts := hl.posts
  posted := hl.posted
  settling q pay' call outcome hpay hprogress := by
    rcases setPayment_eq_some hpay with ⟨-, rfl⟩ | ⟨-, h⟩
    · exact hsettling call outcome hprogress
    · exact hl.settling q pay' call outcome h hprogress
  held i c hc hflight := by
    obtain ⟨q, hq⟩ := hl.held i c hc hflight
    refine ⟨q, ?_⟩
    rw [setPayment_callOf]
    split
    · rename_i hqp
      rw [hqp] at hq
      exact hleft i c hq hc hflight
    · exact hq
  failing := hl.failing

/-- Calls that stay where they are, or move on towards their end. -/
theorem Load.calls (hl : Load s) (breaker : Breaker.Sys) {i : Nat} {a : Breaker.Admission} {q r : Breaker.Phase}
    (hi : s.breaker.calls[i]? = some (.admitted a q)) (hcalls : breaker.calls = s.breaker.calls.set i (.admitted a r))
    (hfunc : r ≠ .func) (hsuccess : r ≠ .onSuccess) (hflight : r ≠ .ended → q ≠ .ended) :
    Load { s with breaker } := by
  have hget : ∀ {k c}, breaker.calls[k]? = some c →
      (k = i ∧ c = .admitted a r) ∨ s.breaker.calls[k]? = some c := fun {k c} h => by
    rw [hcalls, List.getElem?_set] at h
    split at h
    · rename_i hik
      split at h
      · cases h
        exact .inl ⟨hik.symm, rfl⟩
      · cases h
    · exact .inr h
  constructor
  case posts =>
    have hcount := countP_set Call.passed (.admitted a r) hi
    change s.posts.length = breaker.calls.countP Call.passed
    rw [hcalls, hl.posts]
    simp only [Call.passed, if_true] at hcount
    omega
  case posted =>
    intro post hpost
    change post.call < breaker.calls.length
    rw [hcalls, List.length_set]
    exact hl.posted post hpost
  case settling =>
    intro p pay call outcome hpay hprogress
    obtain ⟨c, hc, hdone⟩ := hl.settling p pay call outcome hpay hprogress
    change ∃ c, breaker.calls[call]? = some c ∧ c.inFunc = false
    rw [hcalls, List.getElem?_set]
    split
    · exact ⟨.admitted a r, if_pos (List.getElem?_eq_some_iff.1 hi).1, decide_eq_false hfunc⟩
    · exact ⟨c, hc, hdone⟩
  case held =>
    intro k c hc hc'
    change ∃ p, s.callOf p = some k
    rcases hget hc with ⟨rfl, rfl⟩ | h
    · exact hl.held k _ hi (decide_eq_true (hflight (of_decide_eq_true hc')))
    · exact hl.held k c h hc'
  case failing =>
    intro c hc
    obtain ⟨k, hk⟩ := List.mem_iff_getElem?.1 hc
    rcases hget hk with ⟨-, rfl⟩ | h
    · exact decide_eq_false hsuccess
    · exact hl.failing c (List.mem_of_getElem? h)

/-! ## What the breaker does -/

theorem stepCall_tick {d : ℚ} (hd : 0 ≤ d) :
    s.stepCall env (.tick d) = { s with breaker := { s.breaker with now := s.breaker.now + d } } := by
  rw [Sys.stepCall, Breaker.step, if_pos hd]
  rfl

theorem stepCall_none {e : Breaker.Event Exc} (h : Breaker.step env.gatewayBreaker s.breaker e = none) :
    s.stepCall env e = s := by
  rw [Sys.stepCall, h]
  rfl

theorem stepCall_now (env : Settings) (s : Sys) {e : Breaker.Event Exc} (hnot : ∀ d, e ≠ .tick d) :
    (s.stepCall env e).breaker.now = s.breaker.now := by
  unfold Sys.stepCall
  dsimp only
  cases hstep : Breaker.step env.gatewayBreaker s.breaker e with
  | none => rfl
  | some breaker => exact Breaker.step_now (Breaker.step_sound hstep) hnot

/-- **The end of a post**: the call goes on to its `_on_failure`, if its `func` has not ended before. -/
theorem stepCall_finish (env : Settings) (s : Sys) (i : Nat) {exc : Exc} (hexc : exc.isHttpError = true) :
    (∃ a, s.breaker.calls[i]? = some (.admitted a .func) ∧
      (s.stepCall env (.finish i (.raised exc))).breaker = s.breaker.setCall i (.admitted a .onFailure)) ∨
    ((∀ a, s.breaker.calls[i]? ≠ some (.admitted a .func)) ∧ s.stepCall env (.finish i (.raised exc)) = s) := by
  have hafter : Breaker.afterFunc env.gatewayBreaker (.raised exc) = .onFailure := if_pos hexc
  cases hstep : Breaker.step env.gatewayBreaker s.breaker (.finish i (.raised exc)) with
  | none =>
    refine .inr ⟨fun a ha => ?_, stepCall_none hstep⟩
    simp only [Breaker.step, ha] at hstep
    cases hstep
  | some breaker =>
    cases Breaker.step_sound hstep with
    | finish e hi =>
      refine .inl ⟨_, hi, ?_⟩
      rw [Sys.stepCall, hstep, hafter]
      rfl

/-- **The end of an attempt**: the failure is counted, if the call was admitted. -/
theorem stepCall_settle (env : Settings) (hl : Load s) (i : Nat) :
    (∃ a, s.breaker.calls[i]? = some (.admitted a .onFailure) ∧ (s.stepCall env (.settle i)).breaker =
      (s.breaker.assign (Breaker.onFailure env.gatewayBreaker s.breaker.breaker s.breaker.now)).setCall i
        (.admitted a .ended)) ∨
    ((∀ a, s.breaker.calls[i]? ≠ some (.admitted a .onFailure)) ∧ s.stepCall env (.settle i) = s) := by
  cases hstep : Breaker.step env.gatewayBreaker s.breaker (.settle i) with
  | none =>
    refine .inr ⟨fun a ha => ?_, stepCall_none hstep⟩
    simp only [Breaker.step, ha] at hstep
    cases hstep
  | some breaker =>
    cases Breaker.step_sound hstep with
    | succeed hi =>
      have hnot := hl.failing _ (List.mem_of_getElem? hi)
      cases hnot
    | fail hi =>
      refine .inl ⟨_, hi, ?_⟩
      rw [Sys.stepCall, hstep]
      rfl

theorem Load.finish (hl : Load s) (i : Nat) {exc : Exc} (hexc : exc.isHttpError = true) :
    Load (s.stepCall env (.finish i (.raised exc))) := by
  rcases stepCall_finish env s i hexc with ⟨a, hi, hbreaker⟩ | ⟨-, hsame⟩
  · have hcalls := hl.calls (s.breaker.setCall i (.admitted a .onFailure)) hi rfl
      (fun h => nomatch h) (fun h => nomatch h) (fun _ h => nomatch h)
    rw [← hbreaker] at hcalls
    exact hcalls
  · rw [hsame]
    exact hl

/-- After the end of its post no call is in its `func`. -/
theorem Load.finished (hl : Load s) {post : Post} (hpost : post ∈ s.posts) {exc : Exc}
    (hexc : exc.isHttpError = true) :
    ∃ c, (s.stepCall env (.finish post.call (.raised exc))).breaker.calls[post.call]? = some c ∧ c.inFunc = false := by
  have hlt := hl.posted post hpost
  rcases stepCall_finish env s post.call hexc with ⟨a, hi, hbreaker⟩ | ⟨hnot, hsame⟩
  · rw [hbreaker]
    exact ⟨.admitted a .onFailure, List.getElem?_set_self hlt, rfl⟩
  · rw [hsame]
    refine ⟨s.breaker.calls[post.call], List.getElem?_eq_getElem hlt, ?_⟩
    cases hc : s.breaker.calls[post.call] with
    | rejected => rfl
    | admitted a q =>
      refine decide_eq_false fun hq => hnot a ?_
      rw [List.getElem?_eq_getElem hlt, hc, hq]

theorem Load.settle (hl : Load s) (i : Nat) : Load (s.stepCall env (.settle i)) := by
  rcases stepCall_settle env hl i with ⟨a, hi, hbreaker⟩ | ⟨-, hsame⟩
  · have hcalls := hl.calls (s.stepCall env (.settle i)).breaker (r := .ended) hi
      (by rw [hbreaker]; rfl) (fun h => nomatch h) (fun h => nomatch h) (fun h => absurd rfl h)
    exact hcalls
  · rw [hsame]
    exact hl

/-- After the end of an attempt its call is not in flight. -/
theorem Load.settled (hl : Load s) {p call : Nat} {pay : Payment} {outcome : Except Exc Json}
    (hpay : s.payments p = some pay) (hprogress : pay.progress = .settling call outcome) {c : Call}
    (hc : (s.stepCall env (.settle call)).breaker.calls[call]? = some c) : c.inFlight = false := by
  obtain ⟨c', hc', hdone⟩ := hl.settling p pay call outcome hpay hprogress
  rcases stepCall_settle env hl call with ⟨a, hi, hbreaker⟩ | ⟨hnot, hsame⟩
  · rw [hbreaker] at hc
    change (s.breaker.calls.set call _)[call]? = some c at hc
    rw [List.getElem?_set_self (List.getElem?_eq_some_iff.1 hi).1] at hc
    cases hc
    rfl
  · rw [hsame, hc'] at hc
    cases hc
    cases c with
    | rejected => rfl
    | admitted a q =>
      have hsucceeds := hl.failing _ (List.mem_of_getElem? hc')
      cases q with
      | func => cases hdone
      | onSuccess => cases hsucceeds
      | onFailure => exact absurd hc' (hnot a)
      | ended => rfl

/-- **A new attempt**: `call` is its call, and `posts` is its post if that is admitted. -/
theorem Load.begin (hl : Load s) {p : Nat} {pay pay' : Payment} {call : Call} {posts : List Post}
    {breaker : Breaker.Sys} (hpay : s.payments p = some pay) (hprogress : pay.progress = .attempting)
    (hcalls : breaker.calls = s.breaker.calls ++ [call]) (hsucceeds : call.succeeds = false)
    (hlength : posts.length = [call].countP Call.passed) (hposts : ∀ post ∈ posts, post.call = s.breaker.calls.length)
    (hold : ∀ {progress : Progress} {i}, progress.call s.posts = some i → progress.call (s.posts ++ posts) = some i)
    (hcall : pay'.progress.call (s.posts ++ posts) = some s.breaker.calls.length)
    (hsettling : ∀ i outcome, pay'.progress = .settling i outcome → call.inFunc = false) :
    Load { s.setPayment p pay' with breaker, posts := s.posts ++ posts } := by
  have hlast : (s.breaker.calls ++ [call])[s.breaker.calls.length]? = some call := List.getElem?_concat_length
  have hnew : ∀ q, Sys.callOf { s.setPayment p pay' with breaker, posts := s.posts ++ posts } q =
      if q = p then some s.breaker.calls.length
      else (s.payments q).bind fun pay => pay.progress.call (s.posts ++ posts) :=
    fun q => by
      unfold Sys.callOf
      change (if q = p then some pay' else s.payments q).bind (fun pay => pay.progress.call (s.posts ++ posts)) = _
      split
      · exact hcall
      · rfl
  constructor
  case posts =>
    change (s.posts ++ posts).length = breaker.calls.countP Call.passed
    rw [hcalls, List.length_append, List.countP_append, hl.posts, hlength]
  case posted =>
    intro post hpost
    change post.call < breaker.calls.length
    rw [hcalls, List.length_append, List.length_singleton]
    rcases List.mem_append.1 hpost with h | h
    · have hlt := hl.posted post h
      omega
    · rw [hposts post h]
      omega
  case settling =>
    intro q pay₁ i outcome h hsettle
    change ∃ c, breaker.calls[i]? = some c ∧ c.inFunc = false
    rw [hcalls]
    rcases setPayment_eq_some (s := s) h with ⟨-, rfl⟩ | ⟨-, h⟩
    · rw [hsettle] at hcall
      cases hcall
      exact ⟨call, hlast, hsettling _ outcome hsettle⟩
    · obtain ⟨c, hc, hdone⟩ := hl.settling q pay₁ i outcome h hsettle
      exact ⟨c, append_get hc, hdone⟩
  case held =>
    intro i c hc hflight
    change breaker.calls[i]? = some c at hc
    rw [hcalls] at hc
    rcases get_append hc with h | ⟨rfl, -⟩
    · obtain ⟨q, hq⟩ := hl.held i c h hflight
      refine ⟨q, ?_⟩
      rw [hnew]
      obtain ⟨pay₁, hpay₁, hcall₁⟩ := Option.bind_eq_some_iff.1 hq
      split
      · rename_i hqp
        subst hqp
        rw [hpay] at hpay₁
        cases hpay₁
        rw [hprogress] at hcall₁
        cases hcall₁
      · rw [hpay₁]
        exact hold hcall₁
    · exact ⟨p, (hnew p).trans (if_pos rfl)⟩
  case failing =>
    intro c hc
    change c ∈ breaker.calls at hc
    rw [hcalls] at hc
    rcases List.mem_append.1 hc with h | h
    · exact hl.failing c h
    · rw [List.mem_singleton.1 h]
      exact hsucceeds

theorem attempt_rejected {p : Nat} {pay : Payment} {e : Breaker.CircuitBreakerOpenError}
    (h : Breaker.beforeCall env.gatewayBreaker s.breaker.breaker s.breaker.now = .error e) :
    s.attempt env p pay = { s.setPayment p { pay with
        attempt := pay.attempt + 1
        progress := .settling s.breaker.calls.length (.error (.circuitBreakerOpenError e)) } with
      breaker := { s.breaker with calls := s.breaker.calls ++ [.rejected] }, posts := s.posts ++ [] } := by
  simp only [Sys.attempt, h, Sys.stepCall, Breaker.step, Option.getD_some, List.append_nil]
  rfl

theorem attempt_posted {p : Nat} {pay : Payment} {cb : Breaker.CircuitBreaker}
    (h : Breaker.beforeCall env.gatewayBreaker s.breaker.breaker s.breaker.now = .ok cb) :
    s.attempt env p pay = { s.setPayment p { pay with
        attempt := pay.attempt + 1, progress := .posting s.posts.length } with
      breaker := s.breaker.pass cb
      posts := s.posts ++ [⟨p, s.breaker.calls.length, pay.orderId, pay.amount, .wire, .waiting⟩] } := by
  simp only [Sys.attempt, h, Sys.stepCall, Breaker.step, Option.getD_some]
  rfl

theorem Load.attempt (hl : Load s) {p : Nat} {pay : Payment} (hpay : s.payments p = some pay)
    (hprogress : pay.progress = .attempting) : Load (s.attempt env p pay) := by
  cases hbefore : Breaker.beforeCall env.gatewayBreaker s.breaker.breaker s.breaker.now with
  | error e =>
    rw [attempt_rejected hbefore]
    refine hl.begin hpay hprogress rfl rfl rfl (fun _ h => nomatch h) ?_ rfl (fun _ _ _ => rfl)
    intro progress i h
    rw [List.append_nil]
    exact h
  | ok cb =>
    rw [attempt_posted hbefore]
    refine hl.begin hpay hprogress rfl rfl rfl ?_ (fun h => call_append h _) ?_ (fun _ _ h => nomatch h)
    · intro post hpost
      rw [List.mem_singleton.1 hpost]
    · change (s.posts ++ [_])[s.posts.length]?.map Post.call = _
      rw [List.getElem?_concat_length]
      rfl

/-- The client's wait for a post ends with an `httpx.HTTPError`. -/
theorem Load.conclude (hi : Inv env s) (hl : Load s) {j : Nat} {post : Post} {pay : Payment} {exc : Exc} (view : View)
    (hpost : s.posts[j]? = some post) (hview : post.view = .waiting) (hpay : s.payments post.payment = some pay)
    (hexc : exc.isHttpError = true) : Load (s.conclude env j post pay view (.error exc)) := by
  have hmem := List.mem_of_getElem? hpost
  have hprogress := hi.posting hpost hview hpay
  have hset : Load ((s.stepCall env (.finish post.call (.raised exc))).setPost j { post with view }) :=
    (hl.finish post.call hexc).setPost hpost rfl
  refine hset.setPayment ?_ ?_
  · intro i c hcall hc hflight
    obtain ⟨pay', hpay', hcall'⟩ := Option.bind_eq_some_iff.1 hcall
    change s.payments post.payment = some pay' at hpay'
    rw [hpay] at hpay'
    cases hpay'
    have hsame : pay.progress.call (s.posts.set j { post with view }) = pay.progress.call s.posts :=
      call_set { post with view } hpost rfl _
    replace hcall' := hsame.symm.trans hcall'
    rw [hprogress] at hcall'
    change s.posts[j]?.map Post.call = some i at hcall'
    rw [hpost] at hcall'
    exact hcall'
  · intro call outcome h
    cases h
    exact hl.finished hmem hexc

theorem Load.settlePayment (hl : Load s) {p call : Nat} {pay pay' : Payment} {outcome : Except Exc Json}
    (hpay : s.payments p = some pay) (hprogress : pay.progress = .settling call outcome)
    (hnot : ∀ call outcome, pay'.progress ≠ .settling call outcome) :
    Load ((s.stepCall env (.settle call)).setPayment p pay') := by
  refine (hl.settle call).setPayment ?_ (fun call outcome h => absurd h (hnot call outcome))
  intro i c hcall hc hflight
  obtain ⟨pay₁, hpay₁, hcall₁⟩ := Option.bind_eq_some_iff.1 hcall
  change s.payments p = some pay₁ at hpay₁
  rw [hpay] at hpay₁
  cases hpay₁
  rw [hprogress] at hcall₁
  cases hcall₁
  rw [hl.settled hpay hprogress hc] at hflight
  cases hflight

/-- A payment that is in no call. -/
theorem Load.idle (hl : Load s) {p : Nat} {pay : Payment} (hcall : s.callOf p = none)
    (hnot : ∀ call outcome, pay.progress ≠ .settling call outcome) : Load (s.setPayment p pay) := by
  refine hl.setPayment ?_ (fun call outcome h => absurd h (hnot call outcome))
  intro i c h
  rw [hcall] at h
  cases h

theorem httpCall_error {j : Nat} {post : Post} {r : Response} (hdead : s.Dead (.answer j))
    (hpost : s.posts[j]? = some post) (hresponse : post.response = some r) :
    ∃ exc, httpCall r = .error exc ∧ exc.isHttpError = true := by
  change ((s.posts[j]?.bind Post.response).map httpCall).all endsInHttpError = true at hdead
  rw [hpost, Option.bind_some, hresponse, Option.map_some, Option.all_some] at hdead
  cases hcall : httpCall r with
  | ok v =>
    rw [hcall] at hdead
    cases hdead
  | error exc =>
    rw [hcall] at hdead
    exact ⟨exc, rfl, hdead⟩

theorem afterAttempt_progress (pay : Payment) (now random : ℚ) (outcome : Except Exc Json) (call : Nat)
    (outcome' : Except Exc Json) : (pay.afterAttempt env now random outcome).progress ≠ .settling call outcome' := by
  unfold Payment.afterAttempt
  cases outcome with
  | ok v => exact fun h => nomatch h
  | error exc =>
    dsimp only
    split
    · exact fun h => nomatch h
    · exact fun h => nomatch h

theorem load_step {s' : Sys} {a : Action} (hi : Inv env s) (hl : Load s) (hdead : s.Dead a) (h : Step env s a s') :
    Load s' := by
  cases h with
  | tick hd =>
    rw [stepCall_tick hd]
    exact ⟨hl.posts, hl.posted, hl.settling, hl.held, hl.failing⟩
  | setMode mode latencyMs => exact ⟨hl.posts, hl.posted, hl.settling, hl.held, hl.failing⟩
  | payment hnew => exact hl.idle (by rw [Sys.callOf, hnew]; rfl) (fun _ _ h => nomatch h)
  | attempt hpay hprogress => exact hl.attempt hpay hprogress
  | arrive random hpost hhandler => exact hl.setPost hpost rfl
  | resume hpost hresume => exact hl.setPost hpost rfl
  | @answer j post r pay hpost hview hresponse hpay =>
    obtain ⟨exc, hcall, hexc⟩ := httpCall_error hdead hpost hresponse
    rw [hcall]
    exact hl.conclude hi .received hpost hview hpay hexc
  | transportError hpost hview hpay => exact hl.conclude hi .gaveUp hpost hview hpay rfl
  | settle random hpay hprogress =>
    exact hl.settlePayment hpay hprogress (afterAttempt_progress _ _ _ _)
  | wakeUp hpay hprogress =>
    refine hl.idle ?_ (fun _ _ h => nomatch h)
    rw [Sys.callOf, hpay, Option.bind_some, hprogress]
    rfl

end Gateway
end KafkaGuide
