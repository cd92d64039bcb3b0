import KafkaGuide.GatewayCalls
/-!
# GatewayOwned — which payment's call it is (`13-resilience-patterns`)

Whatever the posts end in: each payment is in one call of the breaker, which no other payment is in, and the call is
where the payment's progress says (`Owned`).
-/
namespace KafkaGuide
namespace Gateway

open Breaker (Call)
open Count

variable {env : Settings} {s : Sys}

/-! ## Whose call it is -/

/-- The payment and the call of a post. -/
def Post.owner (post : Post) : Nat × Nat := (post.payment, post.call)

/-- **The invariant**: no two posts share a call; a payment that waits for a post is in the `func` of its call, and one
that settles is where the outcome led it. -/
structure Owned (env : Settings) (s : Sys) : Prop where
  calls : (s.posts.map Post.call).Nodup
  posted : ∀ post ∈ s.posts, ∃ a q, s.breaker.calls[post.call]? = some (.admitted a q)
  posting : ∀ p pay j, s.payments p = some pay → pay.progress = .posting j →
    ∃ post a, s.posts[j]? = some post ∧ post.payment = p ∧ post.view = .waiting ∧
      s.breaker.calls[post.call]? = some (.admitted a .func)
  settling : ∀ p pay call outcome, s.payments p = some pay → pay.progress = .settling call outcome →
    (s.breaker.calls[call]? = some .rejected ∧ ∃ e, outcome = .error (.circuitBreakerOpenError e)) ∨
    ((p, call) ∈ s.posts.map Post.owner ∧
      ∃ a, s.breaker.calls[call]? = some (.admitted a (Breaker.afterFunc env.gatewayBreaker (ending outcome))))

theorem owned_init (gateway : State) : Owned env { gateway } where
  calls := List.nodup_nil
  posted _ h := nomatch h
  posting _ _ _ h := nomatch h
  settling _ _ _ _ h := nomatch h

/-- The breaker's own fields and the gateway's settings do not matter. -/
theorem Owned.congr {s' : Sys} (ho : Owned env s) (hpayments : s'.payments = s.payments) (hposts : s'.posts = s.posts)
    (hcalls : s'.breaker.calls = s.breaker.calls) : Owned env s' := by
  obtain ⟨h1, h2, h3, h4⟩ := ho
  constructor
  · rwa [hposts]
  · rwa [hposts, hcalls]
  · rwa [hpayments, hposts, hcalls]
  · rwa [hpayments, hposts, hcalls]

/-- A payment moves on, and is where its new progress says. -/
theorem Owned.setPayment (ho : Owned env s) {p : Nat} {pay : Payment}
    (hposting : ∀ j, pay.progress = .posting j → ∃ post a, s.posts[j]? = some post ∧ post.payment = p ∧
      post.view = .waiting ∧ s.breaker.calls[post.call]? = some (.admitted a .func))
    (hsettling : ∀ call outcome, pay.progress = .settling call outcome →
      s.breaker.calls[call]? = some .rejected ∧ ∃ e, outcome = .error (.circuitBreakerOpenError e)) :
    Owned env (s.setPayment p pay) where
  calls := ho.calls
  posted := ho.posted
  posting q pay' j hpay hprogress := by
    rcases setPayment_eq_some hpay with ⟨rfl, rfl⟩ | ⟨-, hpay⟩
    · exact hposting j hprogress
    · exact ho.posting q pay' j hpay hprogress
  settling q pay' call outcome hpay hprogress := by
    rcases setPayment_eq_some hpay with ⟨-, rfl⟩ | ⟨-, hpay⟩
    · exact .inl (hsettling call outcome hprogress)
    · exact ho.settling q pay' call outcome hpay hprogress

/-- A post moves on in its handler. -/
theorem Owned.setPost (ho : Owned env s) {j : Nat} {post post' : Post} (hpost : s.posts[j]? = some post)
    (hsame : post'.payment = post.payment) (hcall : post'.call = post.call) (hview : post'.view = post.view) :
    Owned env (s.setPost j post') where
  calls := by
    change ((s.posts.set j post').map Post.call).Nodup
    rw [map_set_same hpost hcall]
    exact ho.calls
  posted other hother := by
    rcases List.mem_or_eq_of_mem_set hother with h | rfl
    · exact ho.posted other h
    · rw [hcall]
      exact ho.posted post (List.mem_of_getElem? hpost)
  posting q pay k hpay hprogress := by
    obtain ⟨other, a, hk, hq, hwait, hfunc⟩ := ho.posting q pay k hpay hprogress
    change ∃ other a, (s.posts.set j post')[k]? = some other ∧ _
    by_cases hjk : j = k
    · subst hjk
      rw [hpost, Option.some.injEq] at hk
      subst hk
      refine ⟨post', a, List.getElem?_set_self (List.getElem?_eq_some_iff.1 hpost).1, hsame.trans hq,
        hview.trans hwait, ?_⟩
      rw [hcall]
      exact hfunc
    · rw [List.getElem?_set_ne hjk]
      exact ⟨other, a, hk, hq, hwait, hfunc⟩
  settling q pay call outcome hpay hprogress := by
    change _ ∨ ((q, call) ∈ (s.posts.set j post').map Post.owner ∧ _)
    rw [map_set_same hpost (show post'.owner = post.owner from Prod.ext hsame hcall)]
    exact ho.settling q pay call outcome hpay hprogress

/-- **A new call is nobody's.** -/
theorem Owned.call (ho : Owned env s) (breaker : Breaker.Sys) {call : Call}
    (hcalls : breaker.calls = s.breaker.calls ++ [call]) : Owned env { s with breaker } where
  calls := ho.calls
  posted post hpost := by
    obtain ⟨a, q, hq⟩ := ho.posted post hpost
    change ∃ a q, breaker.calls[post.call]? = _
    rw [hcalls]
    exact ⟨a, q, append_get hq⟩
  posting p pay j hpay hprogress := by
    obtain ⟨post, a, hj, hp, hwait, hfunc⟩ := ho.posting p pay j hpay hprogress
    refine ⟨post, a, hj, hp, hwait, ?_⟩
    change breaker.calls[post.call]? = _
    rw [hcalls]
    exact append_get hfunc
  settling p pay i outcome hpay hprogress := by
    change (breaker.calls[i]? = _ ∧ _) ∨ (_ ∧ ∃ a, breaker.calls[i]? = _)
    rw [hcalls]
    rcases ho.settling p pay i outcome hpay hprogress with ⟨hrejected, he⟩ | ⟨howner, a, hadmitted⟩
    · exact .inl ⟨append_get hrejected, he⟩
    · exact .inr ⟨howner, a, append_get hadmitted⟩

/-- A new post, in a call that no other has. -/
theorem Owned.post (ho : Owned env s) (post : Post) (hnew : post.call ∉ s.posts.map Post.call)
    (hcall : ∃ a q, s.breaker.calls[post.call]? = some (.admitted a q)) :
    Owned env { s with posts := s.posts ++ [post] } where
  calls := by
    change ((s.posts ++ [post]).map Post.call).Nodup
    rw [List.map_append]
    refine ho.calls.append (List.nodup_singleton _) fun i hi hi' => ?_
    rw [List.mem_singleton.1 hi'] at hi
    exact hnew hi
  posted other hother := by
    rcases List.mem_append.1 hother with h | h
    · exact ho.posted other h
    · rw [List.mem_singleton.1 h]
      exact hcall
  posting p pay j hpay hprogress := by
    obtain ⟨other, a, hj, hp, hwait, hfunc⟩ := ho.posting p pay j hpay hprogress
    exact ⟨other, a, append_get hj, hp, hwait, hfunc⟩
  settling p pay i outcome hpay hprogress := by
    refine (ho.settling p pay i outcome hpay hprogress).imp_right fun ⟨howner, hadmitted⟩ => ⟨?_, hadmitted⟩
    change (p, i) ∈ (s.posts ++ [post]).map Post.owner
    rw [List.map_append]
    exact List.mem_append_left _ howner

theorem Owned.owner_unique (ho : Owned env s) {p q i : Nat} (hp : (p, i) ∈ s.posts.map Post.owner)
    (hq : (q, i) ∈ s.posts.map Post.owner) : p = q := by
  obtain ⟨post, hpost, howner⟩ := List.mem_map.1 hp
  obtain ⟨post', hpost', howner'⟩ := List.mem_map.1 hq
  cases howner
  have hcall : post.call = post'.call := (congrArg Prod.snd howner').symm
  rw [List.inj_on_of_nodup_map ho.calls hpost hpost' hcall]
  exact congrArg Prod.fst howner'

/-- **A payment and its call move on together**, and no other payment is touched. -/
theorem Owned.move (ho : Owned env s) {s' : Sys} {p i : Nat} (hp : (p, i) ∈ s.posts.map Post.owner)
    (howners : s'.posts.map Post.owner = s.posts.map Post.owner)
    (hposts : ∀ (j : Nat) (post : Post), s.posts[j]? = some post → post.payment ≠ p → s'.posts[j]? = some post)
    (hcalls : ∀ k, k ≠ i → s'.breaker.calls[k]? = s.breaker.calls[k]?)
    (hcall : ∃ a q, s'.breaker.calls[i]? = some (.admitted a q)) (hpayments : ∀ q, q ≠ p → s'.payments q = s.payments q)
    (hposting : ∀ pay j, s'.payments p = some pay → pay.progress ≠ .posting j)
    (hsettling : ∀ pay call outcome, s'.payments p = some pay → pay.progress = .settling call outcome →
      call = i ∧ ∃ a, s'.breaker.calls[i]? =
        some (.admitted a (Breaker.afterFunc env.gatewayBreaker (ending outcome)))) : Owned env s' := by
  have hmine : ∀ q, (q, i) ∈ s.posts.map Post.owner → q = p := fun q hq => ho.owner_unique hq hp
  constructor
  case calls =>
    have hsnd : ∀ posts : List Post, posts.map Post.call = (posts.map Post.owner).map Prod.snd := fun posts => by
      rw [List.map_map]
      rfl
    rw [hsnd, howners, ← hsnd]
    exact ho.calls
  case posted =>
    intro post hpost
    have howner : post.owner ∈ s.posts.map Post.owner := howners ▸ List.mem_map_of_mem hpost
    obtain ⟨post', hpost', hsame⟩ := List.mem_map.1 howner
    have hsamecall : post'.call = post.call := congrArg Prod.snd hsame
    by_cases hi : post.call = i
    · rw [hi]
      exact hcall
    · rw [hcalls _ hi, ← hsamecall]
      exact ho.posted post' hpost'
  case posting =>
    intro q pay j hpay hprogress
    by_cases hq : q = p
    · subst hq
      exact absurd hprogress (hposting pay j hpay)
    · rw [hpayments q hq] at hpay
      obtain ⟨post, a, hj, hpost, hwait, hfunc⟩ := ho.posting q pay j hpay hprogress
      refine ⟨post, a, hposts j post hj (hpost ▸ hq), hpost, hwait, ?_⟩
      rw [hcalls]
      · exact hfunc
      · rintro rfl
        exact hq (hmine q (List.mem_map.2 ⟨post, List.mem_of_getElem? hj, Prod.ext hpost rfl⟩))
  case settling =>
    intro q pay call outcome hpay hprogress
    by_cases hq : q = p
    · subst hq
      obtain ⟨rfl, hadmitted⟩ := hsettling pay call outcome hpay hprogress
      rw [howners]
      exact .inr ⟨hp, hadmitted⟩
    · rw [hpayments q hq] at hpay
      rw [howners]
      have hcase := ho.settling q pay call outcome hpay hprogress
      have hne : call ≠ i := by
        rintro rfl
        rcases hcase with ⟨hrejected, -⟩ | ⟨howner, -⟩
        · obtain ⟨post, hpost, howner⟩ := List.mem_map.1 hp
          obtain ⟨a, r, hr⟩ := ho.posted post hpost
          rw [show post.call = call from congrArg Prod.snd howner, hrejected] at hr
          cases hr
        · exact hq (hmine q howner)
      rw [hcalls call hne]
      exact hcase

/-- The end of a post moves its call on to where the outcome leads it. -/
theorem stepCall_finish_owned (ho : Owned env s) {p j : Nat} {pay : Payment} {post : Post}
    (hpost : s.posts[j]? = some post) (hpay : s.payments p = some pay) (hprogress : pay.progress = .posting j)
    (outcome : Except Exc Json) :
    ∃ a, s.breaker.calls[post.call]? = some (.admitted a .func) ∧
      (s.stepCall env (.finish post.call (ending outcome))).breaker = s.breaker.setCall post.call
        (.admitted a (Breaker.afterFunc env.gatewayBreaker (ending outcome))) := by
  obtain ⟨post', a, hj, -, -, hfunc⟩ := ho.posting p pay j hpay hprogress
  rw [hpost, Option.some.injEq] at hj
  subst hj
  refine ⟨a, hfunc, ?_⟩
  simp only [Sys.stepCall, Breaker.step, hfunc, Option.getD_some]

theorem Owned.conclude (hi : Inv env s) (ho : Owned env s) {j : Nat} {post : Post} {pay : Payment} {view : View}
    {outcome : Except Exc Json} (hpost : s.posts[j]? = some post) (hview : post.view = .waiting)
    (hpay : s.payments post.payment = some pay) : Owned env (s.conclude env j post pay view outcome) := by
  obtain ⟨a, hfunc, hbreaker⟩ := stepCall_finish_owned ho hpost hpay (hi.posting hpost hview hpay) outcome
  have hcalls : ∀ k : Nat, (s.conclude env j post pay view outcome).breaker.calls[k]? =
      (s.breaker.calls.set post.call (.admitted a (Breaker.afterFunc env.gatewayBreaker (ending outcome))))[k]? :=
    fun k => by
      change (s.stepCall env (.finish post.call (ending outcome))).breaker.calls[k]? = _
      rw [hbreaker]
      rfl
  have hself := hcalls post.call
  rw [List.getElem?_set_self (List.getElem?_eq_some_iff.1 hfunc).1] at hself
  refine ho.move (p := post.payment) (i := post.call) (List.mem_map_of_mem (List.mem_of_getElem? hpost)) ?_ ?_ ?_
    ⟨a, _, hself⟩ ?_ ?_ ?_
  · exact map_set_same hpost rfl
  · intro k other hk hother
    change (s.posts.set j { post with view })[k]? = some other
    rw [List.getElem?_set_ne]
    · exact hk
    · rintro rfl
      rw [hpost, Option.some.injEq] at hk
      exact hother (congrArg Post.payment hk.symm)
  · intro k hk
    rw [hcalls k, List.getElem?_set_ne fun h => hk h.symm]
  · exact fun q hq => if_neg hq
  · intro pay' k hpay' hprogress
    rcases setPayment_eq_some hpay' with ⟨-, rfl⟩ | ⟨hne, -⟩
    · cases hprogress
    · exact hne rfl
  · intro pay' call outcome' hpay' hprogress
    rcases setPayment_eq_some hpay' with ⟨-, rfl⟩ | ⟨hne, -⟩
    · cases hprogress
      exact ⟨rfl, a, hself⟩
    · exact absurd rfl hne

theorem Owned.attempt (ho : Owned env s) {p : Nat} (pay : Payment) : Owned env (s.attempt env p pay) := by
  cases hbefore : Breaker.beforeCall env.gatewayBreaker s.breaker.breaker s.breaker.now with
  | error e =>
    rw [attempt_rejected hbefore, List.append_nil]
    refine (ho.call { s.breaker with calls := s.breaker.calls ++ [.rejected] } rfl).setPayment
      (fun j h => by cases h) fun call outcome h => ?_
    cases h
    exact ⟨List.getElem?_concat_length, e, rfl⟩
  | ok cb =>
    rw [attempt_posted hbefore]
    have hlast : (s.breaker.pass cb).calls[s.breaker.calls.length]? = some (.admitted _ .func) :=
      List.getElem?_concat_length
    have hnew : s.breaker.calls.length ∉ s.posts.map Post.call := fun hmem => by
      obtain ⟨post, hpost, hcall⟩ := List.mem_map.1 hmem
      obtain ⟨a, q, hq⟩ := ho.posted post hpost
      have hlt := (List.getElem?_eq_some_iff.1 hq).1
      omega
    have hposted := (ho.call (s.breaker.pass cb) rfl).post
      ⟨p, s.breaker.calls.length, pay.orderId, pay.amount, .wire, .waiting⟩ hnew ⟨_, _, hlast⟩
    refine hposted.setPayment (fun j h => ?_) fun call outcome h => by cases h
    cases h
    exact ⟨_, _, List.getElem?_concat_length, rfl, rfl, hlast⟩

/-- The end of an attempt: the call is over. -/
theorem Owned.settle (ho : Owned env s) {p call : Nat} {pay pay' : Payment} {outcome : Except Exc Json}
    (hpay : s.payments p = some pay) (hprogress : pay.progress = .settling call outcome)
    (hposting : ∀ j, pay'.progress ≠ .posting j) (hsettling : ∀ i outcome, pay'.progress ≠ .settling i outcome) :
    Owned env ((s.stepCall env (.settle call)).setPayment p pay') := by
  cases hstep : Breaker.step env.gatewayBreaker s.breaker (.settle call) with
  | none =>
    rw [stepCall_none hstep]
    exact ho.setPayment (fun j h => absurd h (hposting j)) fun i outcome h => absurd h (hsettling i outcome)
  | some breaker =>
    have hbreaker : (s.stepCall env (.settle call)).breaker = breaker := by
      rw [Sys.stepCall, hstep]
      rfl
    obtain ⟨a, q, hq, hcalls⟩ : ∃ a q, s.breaker.calls[call]? = some (.admitted a q) ∧
        breaker.calls = s.breaker.calls.set call (.admitted a .ended) := by
      cases Breaker.step_sound hstep with
      | succeed hi => exact ⟨_, _, hi, rfl⟩
      | fail hi => exact ⟨_, _, hi, rfl⟩
    have howner : (p, call) ∈ s.posts.map Post.owner := by
      rcases ho.settling p pay call outcome hpay hprogress with ⟨hrejected, -⟩ | ⟨howner, -⟩
      · rw [hq] at hrejected
        cases hrejected
      · exact howner
    refine ho.move howner rfl (fun _ _ h _ => h) ?_ ⟨a, .ended, ?_⟩ (fun q hq => if_neg hq) ?_ ?_
    · intro k hk
      change (s.stepCall env (.settle call)).breaker.calls[k]? = _
      rw [hbreaker, hcalls, List.getElem?_set_ne fun h => hk h.symm]
    · change (s.stepCall env (.settle call)).breaker.calls[call]? = _
      rw [hbreaker, hcalls, List.getElem?_set_self (List.getElem?_eq_some_iff.1 hq).1]
    · intro other j hother
      rcases setPayment_eq_some hother with ⟨-, rfl⟩ | ⟨hne, -⟩
      · exact hposting j
      · exact absurd rfl hne
    · intro other i outcome' hother h
      rcases setPayment_eq_some hother with ⟨-, rfl⟩ | ⟨hne, -⟩
      · exact absurd h (hsettling i outcome')
      · exact absurd rfl hne

theorem owned_step {s' : Sys} {a : Action} (hi : Inv env s) (ho : Owned env s) (h : Step env s a s') :
    Owned env s' := by
  cases h with
  | tick hd =>
    rw [stepCall_tick hd]
    exact ho.congr rfl rfl rfl
  | setMode mode latencyMs => exact ho.congr rfl rfl rfl
  | payment hnew => exact ho.setPayment (fun j h => by cases h) fun call outcome h => by cases h
  | attempt hpay hprogress => exact ho.attempt _
  | arrive random hpost hhandler => exact ho.setPost hpost rfl rfl rfl
  | resume hpost hresume => exact ho.setPost hpost rfl rfl rfl
  | answer hpost hview hresponse hpay => exact ho.conclude hi hpost hview hpay
  | transportError hpost hview hpay => exact ho.conclude hi hpost hview hpay
  | @settle p call outcome pay random hpay hprogress =>
    refine ho.settle hpay hprogress (fun j h => ?_) (afterAttempt_progress pay _ _ outcome)
    unfold Payment.afterAttempt at h
    cases outcome with
    | ok v => cases h
    | error exc =>
      dsimp only at h
      split at h <;> cases h
  | wakeUp hpay hprogress => exact ho.setPayment (fun j h => by cases h) fun call outcome h => by cases h

theorem reachable_owned (gateway : State) (h : (lts env gateway).Reachable s) : Inv env s ∧ Owned env s :=
  (lts env gateway).reachable_inv (I := fun s => Inv env s ∧ Owned env s) ⟨inv_init gateway, owned_init gateway⟩
    (fun _ _ _ hs h => ⟨inv_step hs.1 (step_sound h), owned_step hs.1 hs.2 (step_sound h)⟩) h

end Gateway
end KafkaGuide
