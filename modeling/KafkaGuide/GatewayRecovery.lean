import KafkaGuide.BreakerFields
import KafkaGuide.GatewayLoad
import KafkaGuide.GatewayOwned
/-!
# GatewayRecovery — how an outage ends (`13-resilience-patterns`)

Once the gateway answers again and the failures of the outage are counted, nothing opens the breaker any more, since a
call ends where its payment's outcome leads it.  From `recovery_timeout` on no call is rejected, and a payment that is
made then is posted once and approved (`outage_ends`).
-/
namespace KafkaGuide
namespace Gateway

open Breaker (Call)
open Count

variable {env : Settings} {s : Sys}

/-! ## When the gateway answers again -/

/-- The payment is about to tell the breaker of a failure. -/
def Progress.failing : Progress → Bool
  | .settling _ outcome => endsInHttpError outcome
  | _ => false

/-- Posts are answered, and with approvals, and the failures there were have been counted. -/
def Sys.Well (s : Sys) : Action → Prop
  | .transportError _ => False
  | .answer j => ((s.posts[j]?.bind Post.response).map httpCall).any endsInHttpError = false
  | .settle p _ => (s.payments p).any (fun pay => pay.progress.failing) = false
  | _ => True

instance (s : Sys) : ∀ a, Decidable (s.Well a)
  | .transportError _ => .isFalse id
  | .answer _ => instDecidableEqBool _ _
  | .settle _ _ => instDecidableEqBool _ _
  | .tick _ => .isTrue trivial
  | .setMode _ _ => .isTrue trivial
  | .payment _ _ _ => .isTrue trivial
  | .attempt _ => .isTrue trivial
  | .arrive _ _ => .isTrue trivial
  | .resume _ _ => .isTrue trivial
  | .wakeUp _ => .isTrue trivial

/-- **What the breaker does then**: nothing, or it closes, or lets a probe through. -/
theorem well_breaker (ho : Owned env s) {s' : Sys} {a : Action} (hi : Inv env s) (hwell : s.Well a)
    (h : Step env s a s') :
    s'.breaker.breaker = s.breaker.breaker ∨ s'.breaker.breaker = {} ∨
      (s.breaker.breaker.state = .open_ ∧ s'.breaker.breaker.state = .halfOpen) := by
  cases h with
  | tick hd =>
    rw [stepCall_tick hd]
    exact .inl rfl
  | @attempt p pay hpay hprogress =>
    cases hbefore : Breaker.beforeCall env.gatewayBreaker s.breaker.breaker s.breaker.now with
    | error e =>
      rw [attempt_rejected hbefore]
      exact .inl rfl
    | ok cb =>
      rw [attempt_posted hbefore]
      unfold Breaker.beforeCall at hbefore
      split at hbefore
      · rename_i hopen
        split at hbefore
        · cases hbefore
          exact .inr (.inr ⟨hopen, rfl⟩)
        · cases hbefore
      · cases hbefore
        exact .inl rfl
  | @answer j post r pay hpost hview hresponse hpay =>
    obtain ⟨a, -, hbreaker⟩ := stepCall_finish_owned ho hpost hpay (hi.posting hpost hview hpay) (httpCall r)
    have hsame := congrArg Breaker.Sys.breaker hbreaker
    exact .inl hsame
  | transportError hpost hview hpay => exact hwell.elim
  | @settle p call outcome pay random hpay hprogress =>
    cases hstep : Breaker.step env.gatewayBreaker s.breaker (.settle call) with
    | none =>
      rw [stepCall_none hstep]
      exact .inl rfl
    | some breaker =>
      have hbreaker : (s.stepCall env (.settle call)).breaker = breaker := by
        rw [Sys.stepCall, hstep]
        rfl
      change (s.stepCall env (.settle call)).breaker.breaker = _ ∨
        (s.stepCall env (.settle call)).breaker.breaker = _ ∨ _
      rw [hbreaker]
      cases Breaker.step_sound hstep with
      | succeed hcall => exact .inr (.inl rfl)
      | fail hcall =>
        -- the outcome is no failure, so its call is not to run `_on_failure`
        have hfine : endsInHttpError outcome = false := by
          simp only [Sys.Well, hpay, Option.any_some, hprogress, Progress.failing] at hwell
          exact hwell
        rcases ho.settling p pay call outcome hpay hprogress with ⟨hrejected, -⟩ | ⟨-, a, hadmitted⟩
        · rw [hcall] at hrejected
          cases hrejected
        · rw [hcall, Option.some.injEq, Call.admitted.injEq] at hadmitted
          cases outcome with
          | ok v => cases hadmitted.2
          | error exc =>
            have hafter : Breaker.afterFunc env.gatewayBreaker (.raised exc) = .ended :=
              if_neg (Bool.eq_false_iff.1 hfine)
            rw [show ending (.error exc) = .raised exc from rfl, hafter] at hadmitted
            cases hadmitted.2
  | _ => exact .inl rfl

/-- A breaker that is OPEN was opened by `limit`. -/
def Sys.Calm (limit : ℚ) (s : Sys) : Prop :=
  s.breaker.breaker.state = .open_ → ∃ o, s.breaker.breaker.openedAt = some o ∧ o ≤ limit

theorem calm_step {limit : ℚ} {s' : Sys} {a : Action} (hi : Inv env s) (ho : Owned env s) (hcalm : s.Calm limit)
    (hwell : s.Well a) (h : Step env s a s') : s'.Calm limit := by
  intro hopen
  rcases well_breaker ho hi hwell h with hsame | hclosed | ⟨-, hhalf⟩
  · rw [hsame] at hopen ⊢
    exact hcalm hopen
  · rw [hclosed] at hopen
    cases hopen
  · rw [hhalf] at hopen
    cases hopen

/-- **No call is rejected** once `recovery_timeout` has passed. -/
theorem Sys.Calm.admits {limit : ℚ} (hcalm : s.Calm limit) (hlate : limit + env.cbRecoveryTimeoutSec ≤ s.breaker.now) :
    ∃ cb, Breaker.beforeCall env.gatewayBreaker s.breaker.breaker s.breaker.now = .ok cb := by
  unfold Breaker.beforeCall
  by_cases hopen : s.breaker.breaker.state = .open_
  · obtain ⟨o, ho, hle⟩ := hcalm hopen
    have hrecovered : Breaker.shouldAttemptRecovery env.gatewayBreaker s.breaker.breaker s.breaker.now = true := by
      rw [Breaker.shouldAttemptRecovery, ho]
      refine decide_eq_true ?_
      change env.cbRecoveryTimeoutSec ≤ _
      linarith
    rw [if_pos hopen, if_pos hrecovered]
    exact ⟨_, rfl⟩
  · rw [if_neg hopen]
    exact ⟨_, rfl⟩

/-- The breaker was not opened later than now. -/
theorem opened_le_now {cfg : Breaker.Config Exc} {b : Breaker.Sys} (h : (Breaker.lts cfg 0).Reachable b) :
    ∀ o, b.breaker.openedAt = some o → o ≤ b.now := by
  refine (Breaker.lts cfg 0).reachable_inv (I := fun b => ∀ o, b.breaker.openedAt = some o → o ≤ b.now)
    (fun o ho => by cases ho) (fun b e b' hb hstep => ?_) h
  intro o ho
  cases Breaker.step_sound hstep with
  | tick hd => exact (hb o ho).trans (le_add_of_nonneg_right hd)
  | succeed hcall => cases ho
  | fail hcall =>
    rcases Breaker.onFailure_openedAt cfg b.breaker b.now with hsame | hnow
    · exact hb o (hsame ▸ ho)
    · change (Breaker.onFailure cfg b.breaker b.now).openedAt = some o at ho
      rw [hnow, Option.some.injEq] at ho
      exact ho.ge
  | _ => exact hb o ho

theorem reachable_calm (gateway : State) (h : (lts env gateway).Reachable s) : s.Calm s.breaker.now := by
  intro hopen
  have hreach := breaker_reachable env gateway h
  have hinv := (Breaker.lts env.gatewayBreaker 0).reachable_inv (Breaker.inv_init env.gatewayBreaker 0)
    (Breaker.inv_step env.gatewayBreaker) hreach
  cases ho : s.breaker.breaker.openedAt with
  | none =>
    rw [hinv.closed_iff.2 ho] at hopen
    cases hopen
  | some o => exact ⟨o, rfl, opened_le_now hreach o ho⟩

/-! ## A payment made after the outage -/

/-- The only posts of the payment are approved, and the outcome is what the gateway returned. -/
def Sys.Approved (s : Sys) (p : Nat) (orderId : String) (amount : WithTop ℚ) (outcome : Except Exc Json) : Prop :=
  (∀ post ∈ s.posts, post.payment = p → post.handler.isApproved = true) ∧
    ∃ (a : ℚ) (transactionId : String), amount = a ∧ outcome = .ok (approval orderId a transactionId)

/-- Where a payment is that nothing goes wrong for. -/
def Sys.Straight (s : Sys) (p : Nat) (orderId : String) (amount : WithTop ℚ) (pay : Payment) : Prop :=
  match pay.progress with
  | .attempting => pay.attempt = 0
  | .posting j => pay.attempt = 1 ∧ ∀ i post, s.posts[i]? = some post → post.payment = p → i = j
  | .settling _ outcome => pay.attempt = 1 ∧ s.Approved p orderId amount outcome
  | .sleeping _ => False
  | .ended outcome => pay.attempt = 1 ∧ s.Approved p orderId amount outcome ∧ s.breaker.breaker = {}

structure Served (s : Sys) (p : Nat) (orderId : String) (amount : WithTop ℚ) : Prop where
  posts : ∀ post ∈ s.posts, post.payment = p → post.orderId = orderId ∧ post.amount = amount
  pay : ∃ pay, s.payments p = some pay ∧ pay.orderId = orderId ∧ pay.amount = amount ∧
    pay.attempt = s.count p (fun _ => true) ∧ s.Straight p orderId amount pay

/-- The answer to a post that is no failure is an approval. -/
theorem approved_of_well {j : Nat} {post : Post} {r : Response} (hpost : s.posts[j]? = some post)
    (hresponse : post.response = some r) (hwell : s.Well (.answer j)) :
    post.handler.isApproved = true ∧ ∃ (a : ℚ) (tx : String), post.amount = a ∧
      httpCall r = .ok (approval post.orderId a tx) := by
  simp only [Sys.Well, hpost, Option.bind_some, hresponse, Option.map_some, Option.any_some] at hwell
  unfold Post.response at hresponse
  split at hresponse
  · cases hresponse
    cases hwell
  · rename_i tx happroved
    cases hresponse
    cases hamount : post.amount with
    | top =>
      rw [hamount] at hwell
      cases hwell
    | coe a => exact ⟨by rw [happroved]; rfl, a, tx, rfl, rfl⟩
  · cases hresponse

/-- The post at each index is the payment's as before, approved if it was. -/
def Sys.PostsKept (s s' : Sys) (p : Nat) : Prop :=
  ∀ (i : Nat) (post' : Post), s'.posts[i]? = some post' → post'.payment = p →
    ∃ post, s.posts[i]? = some post ∧ post.payment = p ∧ post'.orderId = post.orderId ∧ post'.amount = post.amount ∧
      (post.handler.isApproved = true → post'.handler.isApproved = true)

theorem postsKept_same {s' : Sys} (p : Nat) (h : s'.posts = s.posts) : s.PostsKept s' p := by
  intro i post' hi hp
  rw [h] at hi
  exact ⟨post', hi, hp, rfl, rfl, fun h => h⟩

theorem postsKept_append {s' : Sys} {p q : Nat} {post : Post} (hq : q ≠ p) (hpost : post.payment = q)
    (h : s'.posts = s.posts ++ [post]) : s.PostsKept s' p := by
  intro i post' hi hp
  rw [h] at hi
  rcases get_append hi with hi | ⟨-, rfl⟩
  · exact ⟨post', hi, hp, rfl, rfl, fun h => h⟩
  · exact absurd (hpost.symm.trans hp) hq

theorem postsKept_setPost {j : Nat} {post post' : Post} (p : Nat) (hpost : s.posts[j]? = some post)
    (hsame : post'.payment = post.payment) (hid : post'.orderId = post.orderId) (hamount : post'.amount = post.amount)
    (happroved : post.handler.isApproved = true → post'.handler.isApproved = true) :
    s.PostsKept (s.setPost j post') p := by
  intro i other hi hp
  rcases set_get hi with ⟨rfl, rfl⟩ | ⟨-, hi⟩
  · exact ⟨post, hpost, hsame.symm.trans hp, hid, hamount, happroved⟩
  · exact ⟨other, hi, hp, rfl, rfl, fun h => h⟩

theorem count_setPost_all {j : Nat} {post : Post} (post' : Post) (hpost : s.posts[j]? = some post)
    (hsame : post'.payment = post.payment) (p : Nat) :
    (s.setPost j post').count p (fun _ => true) = s.count p (fun _ => true) :=
  Nat.add_right_cancel (count_setPost post' hpost hsame p (fun _ => true))

/-- **What the others do** leaves a payment where it is. -/
theorem Served.frame {s' : Sys} {p : Nat} {orderId : String} {amount : WithTop ℚ} (h : Served s p orderId amount)
    (hpay : s'.payments p = s.payments p) (hposts : s.PostsKept s' p)
    (hcount : s'.count p (fun _ => true) = s.count p (fun _ => true))
    (hbreaker : s.breaker.breaker = {} → s'.breaker.breaker = {}) : Served s' p orderId amount := by
  have happroved : ∀ outcome, s.Approved p orderId amount outcome → s'.Approved p orderId amount outcome := by
    rintro outcome ⟨hall, htx⟩
    refine ⟨fun post' hmem hp => ?_, htx⟩
    obtain ⟨i, hi⟩ := List.mem_iff_getElem?.1 hmem
    obtain ⟨post, hpost, hp', -, -, hkept⟩ := hposts i post' hi hp
    exact hkept (hall post (List.mem_of_getElem? hpost) hp')
  constructor
  case posts =>
    intro post' hmem hp
    obtain ⟨i, hi⟩ := List.mem_iff_getElem?.1 hmem
    obtain ⟨post, hpost, hp', hid, hamount, -⟩ := hposts i post' hi hp
    rw [hid, hamount]
    exact h.posts post (List.mem_of_getElem? hpost) hp'
  case pay =>
    obtain ⟨pay, hsome, hid, hamount, hattempt, hstraight⟩ := h.pay
    refine ⟨pay, hpay.trans hsome, hid, hamount, hattempt.trans hcount.symm, ?_⟩
    unfold Sys.Straight at hstraight ⊢
    split at hstraight
    · exact hstraight
    · refine ⟨hstraight.1, fun i post' hi hp => ?_⟩
      obtain ⟨post, hpost, hp', -⟩ := hposts i post' hi hp
      exact hstraight.2 i post hpost hp'
    · exact ⟨hstraight.1, happroved _ hstraight.2⟩
    · exact hstraight
    · exact ⟨hstraight.1, happroved _ hstraight.2.1, hbreaker hstraight.2.2⟩

theorem well_reset (hi : Inv env s) (ho : Owned env s) {s' : Sys} {a : Action} (hwell : s.Well a)
    (h : Step env s a s') (hreset : s.breaker.breaker = {}) : s'.breaker.breaker = {} := by
  rcases well_breaker ho hi hwell h with hsame | hclosed | ⟨hopen, -⟩
  · rw [hsame, hreset]
  · exact hclosed
  · rw [hreset] at hopen
    cases hopen

/-- **Its own attempt**: the call is admitted. -/
theorem Served.attempt {p : Nat} {orderId : String} {amount : WithTop ℚ} (h : Served s p orderId amount) {pay : Payment}
    (hpay : s.payments p = some pay) (hprogress : pay.progress = .attempting)
    (hadmits : ∃ cb, Breaker.beforeCall env.gatewayBreaker s.breaker.breaker s.breaker.now = .ok cb) :
    Served (s.attempt env p pay) p orderId amount := by
  obtain ⟨cb, hcb⟩ := hadmits
  obtain ⟨pay', hpay', hid, hamount, hattempt, hstraight⟩ := h.pay
  rw [hpay, Option.some.injEq] at hpay'
  subst hpay'
  simp only [Sys.Straight, hprogress] at hstraight
  have hnone : ∀ post ∈ s.posts, post.payment ≠ p := by
    intro post hpost hp
    have hzero : s.count p (fun _ => true) = 0 := hattempt.symm.trans hstraight
    refine absurd (List.countP_eq_zero.1 hzero post hpost) ?_
    simp [hp]
  rw [attempt_posted hcb]
  constructor
  case posts =>
    intro post hpost hp
    rcases List.mem_append.1 hpost with hpost | hpost
    · exact absurd hp (hnone post hpost)
    · rw [List.mem_singleton.1 hpost]
      exact ⟨hid, hamount⟩
  case pay =>
    refine ⟨_, if_pos rfl, hid, hamount, ?_, ?_⟩
    · change pay.attempt + 1 = (s.posts ++ [_]).countP _
      rw [@count_append s p ⟨p, s.breaker.calls.length, pay.orderId, pay.amount, .wire, .waiting⟩ rfl p fun _ => true,
        if_pos ⟨rfl, rfl⟩, hattempt]
    · refine ⟨by change pay.attempt + 1 = 1; rw [hstraight], fun i post hi hp => ?_⟩
      rcases get_append hi with hi | ⟨hlast, -⟩
      · exact absurd hp (hnone post (List.mem_of_getElem? hi))
      · exact hlast

/-- **Its own answer**: the approval. -/
theorem Served.answer {orderId : String} {amount : WithTop ℚ} {j : Nat} {post : Post} {r : Response} {pay : Payment}
    (h : Served s post.payment orderId amount) (hpost : s.posts[j]? = some post) (hresponse : post.response = some r)
    (hpay : s.payments post.payment = some pay) (hprogress : pay.progress = .posting j) (hwell : s.Well (.answer j)) :
    Served (s.conclude env j post pay .received (httpCall r)) post.payment orderId amount := by
  obtain ⟨pay', hpay', hid, hamount, hattempt, hstraight⟩ := h.pay
  rw [hpay, Option.some.injEq] at hpay'
  subst hpay'
  simp only [Sys.Straight, hprogress] at hstraight
  obtain ⟨happroved, a, tx, ha, htx⟩ := approved_of_well hpost hresponse hwell
  obtain ⟨hpostId, hpostAmount⟩ := h.posts post (List.mem_of_getElem? hpost) rfl
  have hkept : s.PostsKept (s.setPost j { post with view := .received }) post.payment :=
    postsKept_setPost post.payment hpost rfl rfl rfl (fun h => h)
  have hcount : (s.setPost j { post with view := .received }).count post.payment (fun _ => true) = _ :=
    count_setPost_all { post with view := .received } hpost rfl post.payment
  constructor
  case posts =>
    intro other hother hp
    obtain ⟨i, hi⟩ := List.mem_iff_getElem?.1 hother
    obtain ⟨old, hold, hp', hsameId, hsameAmount, -⟩ := hkept i other hi hp
    rw [hsameId, hsameAmount]
    exact h.posts old (List.mem_of_getElem? hold) hp'
  case pay =>
    refine ⟨_, if_pos rfl, hid, hamount, hattempt.trans hcount.symm, hstraight.1, fun other hother hp => ?_, a, tx,
      hpostAmount.symm.trans ha, by rw [htx, hpostId]⟩
    obtain ⟨i, hi⟩ := List.mem_iff_getElem?.1 hother
    rcases set_get hi with ⟨-, rfl⟩ | ⟨hne, hi⟩
    · exact happroved
    · exact absurd (hstraight.2 i other hi hp) hne

/-- **Its own end**: the success closes the breaker. -/
theorem Served.settle {p call : Nat} {orderId : String} {amount : WithTop ℚ} {pay : Payment} {outcome : Except Exc Json}
    (h : Served s p orderId amount) (ho : Owned env s) (hpay : s.payments p = some pay)
    (hprogress : pay.progress = .settling call outcome) (random : ℚ) :
    Served ((s.stepCall env (.settle call)).setPayment p (pay.afterAttempt env s.breaker.now random outcome)) p orderId
      amount := by
  obtain ⟨pay', hpay', hid, hamount, hattempt, hstraight⟩ := h.pay
  rw [hpay, Option.some.injEq] at hpay'
  subst hpay'
  simp only [Sys.Straight, hprogress] at hstraight
  obtain ⟨hone, hall, rational, tx, hrational, rfl⟩ := hstraight
  have hcall : ∃ a, s.breaker.calls[call]? = some (.admitted a .onSuccess) := by
    rcases ho.settling p pay call _ hpay hprogress with ⟨-, e, he⟩ | ⟨-, a, hadmitted⟩
    · cases he
    · exact ⟨a, hadmitted⟩
  obtain ⟨a, ha⟩ := hcall
  have hreset : (s.stepCall env (.settle call)).breaker.breaker = {} := by
    simp only [Sys.stepCall, Breaker.step, ha, Option.getD_some]
    rfl
  refine ⟨h.posts, _, if_pos rfl, hid, hamount, hattempt, hone, ⟨hall, rational, tx, hrational, rfl⟩, hreset⟩

/-- **One step**, late enough for every call to be admitted. -/
theorem served_step {limit : ℚ} {s' : Sys} {a : Action} {p : Nat} {orderId : String} {amount : WithTop ℚ}
    (hi : Inv env s) (ho : Owned env s) (hcalm : s.Calm limit)
    (hlate : limit + env.cbRecoveryTimeoutSec ≤ s.breaker.now) (hwell : s.Well a)
    (hs : Served s p orderId amount) (h : Step env s a s') : Served s' p orderId amount := by
  have hreset := well_reset hi ho hwell h
  obtain ⟨mine, hmine, -, -, -, hstraight⟩ := hs.pay
  cases h with
  | tick hd =>
    rw [stepCall_tick hd]
    exact hs.frame rfl (postsKept_same p rfl) rfl fun h => h
  | setMode mode latencyMs => exact hs.frame rfl (postsKept_same p rfl) rfl hreset
  | @payment q id price hnew =>
    have hq : p ≠ q := by
      rintro rfl
      rw [hnew] at hmine
      cases hmine
    exact hs.frame (if_neg hq) (postsKept_same p rfl) rfl hreset
  | @attempt q pay hpay hprogress =>
    by_cases hq : p = q
    · subst hq
      exact hs.attempt hpay hprogress (hcalm.admits hlate)
    · cases hbefore : Breaker.beforeCall env.gatewayBreaker s.breaker.breaker s.breaker.now with
      | error e =>
        rw [attempt_rejected hbefore] at hreset ⊢
        refine hs.frame (if_neg hq) (postsKept_same p (List.append_nil s.posts)) ?_ hreset
        change (s.posts ++ []).countP _ = _
        rw [List.append_nil]
        rfl
      | ok cb =>
        rw [attempt_posted hbefore] at hreset ⊢
        refine hs.frame (if_neg hq) (postsKept_append (fun h => hq h.symm) rfl rfl) ?_ hreset
        change (s.posts ++ [_]).countP _ = _
        rw [@count_append s q ⟨q, s.breaker.calls.length, pay.orderId, pay.amount, .wire, .waiting⟩ rfl p fun _ => true,
          if_neg fun h => hq h.1.symm, Nat.add_zero]
  | @arrive j post random hpost hhandler =>
    refine hs.frame rfl (postsKept_setPost p hpost rfl rfl rfl fun happroved => ?_)
      (count_setPost_all { post with handler := chargeStart s.gateway s.breaker.now random } hpost rfl p) hreset
    rw [hhandler] at happroved
    cases happroved
  | @resume j random post handler hpost hresume =>
    refine hs.frame rfl (postsKept_setPost p hpost rfl rfl rfl fun happroved => ?_)
      (count_setPost_all { post with handler } hpost rfl p) hreset
    unfold Handler.isApproved at happroved
    split at happroved
    · rename_i hhandler
      rw [hhandler] at hresume
      cases hresume
    · cases happroved
  | @answer j post r pay hpost hview hresponse hpay =>
    by_cases hq : p = post.payment
    · subst hq
      exact hs.answer hpost hresponse hpay (hi.posting hpost hview hpay) hwell
    · exact hs.frame (if_neg hq) (postsKept_setPost p hpost rfl rfl rfl fun h => h)
        (count_setPost_all { post with view := .received } hpost rfl p) hreset
  | transportError hpost hview hpay => exact hwell.elim
  | @settle q call outcome pay random hpay hprogress =>
    by_cases hq : p = q
    · subst hq
      exact hs.settle ho hpay hprogress random
    · exact hs.frame (if_neg hq) (postsKept_same p rfl) rfl hreset
  | @wakeUp q due pay hpay hprogress =>
    have hq : p ≠ q := by
      rintro rfl
      rw [hpay, Option.some.injEq] at hmine
      subst hmine
      rw [Sys.Straight, hprogress] at hstraight
      exact hstraight
    exact hs.frame (if_neg hq) (postsKept_same p rfl) rfl hreset

/-- **An outage ends.**  Let the gateway answer with approvals again and the last failure be counted, after any run at
all.  A payment that is made `recovery_timeout` later has no call rejected: it is posted at most once, and ends with the
gateway's approval, charged once and with the breaker as new. -/
theorem outage_ends (env : Settings) (gateway : State) {m t : Sys} {es fs : List Action} {p : Nat} {orderId : String}
    {amount : WithTop ℚ} (hs : (lts env gateway).Reachable s) (hm : (lts env gateway).run s es = some m)
    (ht : (lts env gateway).run m (.payment p orderId amount :: fs) = some t)
    (hwell : (lts env gateway).Along (fun s a _ => s.Well a) s (es ++ .payment p orderId amount :: fs))
    (hlate : s.breaker.now + env.cbRecoveryTimeoutSec ≤ m.breaker.now) :
    ∃ pay, t.payments p = some pay ∧ pay.attempt = t.count p (fun _ => true) ∧ pay.attempt ≤ 1 ∧
      ∀ outcome, pay.progress = .ended outcome →
        (∃ (a : ℚ) (tx : String), amount = a ∧ outcome = .ok (approval orderId a tx)) ∧
        t.approvals p = 1 ∧ t.breaker.breaker = {} := by
  obtain ⟨hwellm, hwellt⟩ := ((lts env gateway).along_append hm).1 hwell
  obtain ⟨hi, ho⟩ := reachable_owned gateway hs
  let I (limit : ℚ) (s : Sys) : Prop := Inv env s ∧ Owned env s ∧ s.Calm limit
  have hkeep : ∀ s' a s'', I s.breaker.now s' → (lts env gateway).step s' a = some s'' → s'.Well a →
      I s.breaker.now s'' := fun s' a s'' ⟨hi, ho, hcalm⟩ hstep hwell =>
    ⟨inv_step hi (step_sound hstep), owned_step hi ho (step_sound hstep),
      calm_step hi ho hcalm hwell (step_sound hstep)⟩
  obtain ⟨him, hom, hcalm⟩ := (lts env gateway).run_inv_along hkeep ⟨hi, ho, reachable_calm gateway hs⟩ hwellm hm
  obtain ⟨m', hnew, hrest⟩ := (lts env gateway).run_cons.1 ht
  obtain ⟨hwellp, hwellr⟩ := ((lts env gateway).along_cons hnew).1 hwellt
  have hm' : I s.breaker.now m' := hkeep m _ m' ⟨him, hom, hcalm⟩ hnew hwellp
  have hserved : Served m' p orderId amount ∧ s.breaker.now + env.cbRecoveryTimeoutSec ≤ m'.breaker.now := by
    cases step_sound (show step env m (.payment p orderId amount) = some m' from hnew) with
    | payment hnone =>
      have hzero := him.count_unknown hnone fun _ => true
      refine ⟨⟨fun post hpost hp => ?_, _, if_pos rfl, rfl, rfl, hzero.symm, rfl⟩, hlate⟩
      obtain ⟨pay, hpay, -⟩ := him.owner post hpost
      rw [hp, hnone] at hpay
      cases hpay
  have hend := (lts env gateway).run_inv_along
    (I := fun s' => I s.breaker.now s' ∧ Served s' p orderId amount ∧
      s.breaker.now + env.cbRecoveryTimeoutSec ≤ s'.breaker.now)
    (fun s' a s'' ⟨hI, hserved, hlate⟩ hstep hwell => ⟨hkeep s' a s'' hI hstep hwell,
      served_step hI.1 hI.2.1 hI.2.2 hlate hwell hserved (step_sound hstep),
      hlate.trans (now_le (step_sound hstep))⟩) ⟨hm', hserved⟩ hwellr hrest
  obtain ⟨-, ⟨-, pay, hpay, -, -, hattempt, hstraight⟩, -⟩ := hend
  refine ⟨pay, hpay, hattempt, ?_, fun outcome hended => ?_⟩
  · unfold Sys.Straight at hstraight
    split at hstraight
    · exact hstraight.le.trans (Nat.zero_le 1)
    · exact hstraight.1.le
    · exact hstraight.1.le
    · exact hstraight.elim
    · exact hstraight.1.le
  · simp only [Sys.Straight, hended] at hstraight
    obtain ⟨hone, ⟨hall, htx⟩, hbreaker⟩ := hstraight
    refine ⟨htx, ?_, hbreaker⟩
    rw [← hone, hattempt]
    refine List.countP_congr fun post hpost => ?_
    change (decide (post.payment = p) && post.handler.isApproved) = true ↔ _
    by_cases hp : post.payment = p
    · rw [hall post hpost hp]
    · rw [decide_eq_false hp]
      rfl

/-- A dead gateway answers the first payment with 500, which opens a breaker of threshold 1. -/
def outage : List Action := [.payment 0 "abc-1" (4900 : ℚ), .attempt 0, .arrive 0 0, .answer 0, .settle 0 0]

def recovery : List Action := [.setMode .healthy none, .tick 10]

/-- The second payment is made after the outage. -/
def afterOutage : List Action := [.attempt 1, .arrive 1 0, .tick 1, .resume 1 123456, .answer 1, .settle 1 0]

def Progress.isEnded : Progress → Bool
  | .ended _ => true
  | _ => false

theorem outage_run : ((lts { cbFailureThreshold := 1 } ⟨.dead, 50⟩).run { gateway := ⟨.dead, 50⟩ } outage).any
    (fun s => ((lts { cbFailureThreshold := 1 } ⟨.dead, 50⟩).run s recovery).any fun m =>
      ((lts { cbFailureThreshold := 1 } ⟨.dead, 50⟩).run m (.payment 1 "abc-2" 1200 :: afterOutage)).any fun t =>
        decide (s.breaker.breaker.state = .open_ ∧ s.breaker.now + 10 ≤ m.breaker.now ∧
          (lts { cbFailureThreshold := 1 } ⟨.dead, 50⟩).Along (fun s a _ => s.Well a) s
            (recovery ++ .payment 1 "abc-2" 1200 :: afterOutage) ∧
          (t.payments 1).any (fun pay => pay.progress.isEnded) = true)) = true := by decide +kernel

theorem outage_ends_dead : ∃ (s t : Sys) (pay : Payment) (tx : String),
    (lts { cbFailureThreshold := 1 } ⟨.dead, 50⟩).Reachable s ∧ s.breaker.breaker.state = .open_ ∧
    t.payments 1 = some pay ∧ pay.progress = .ended (.ok (approval "abc-2" 1200 tx)) ∧ t.approvals 1 = 1 ∧
    t.breaker.breaker = {} := by
  obtain ⟨s, hs, hrun⟩ := (Option.any_eq_true ..).1 outage_run
  obtain ⟨m, hm, hrun⟩ := (Option.any_eq_true ..).1 hrun
  obtain ⟨t, ht, hrun⟩ := (Option.any_eq_true ..).1 hrun
  obtain ⟨hopen, hlate, hwell, hended⟩ := of_decide_eq_true hrun
  obtain ⟨pay, hpay, -, -, hend⟩ := outage_ends _ _ ⟨outage, hs⟩ hm ht hwell hlate
  rw [hpay, Option.any_some] at hended
  cases hprogress : pay.progress with
  | ended outcome =>
    obtain ⟨⟨a, tx, ha, rfl⟩, happrovals, hbreaker⟩ := hend outcome hprogress
    have hamount : a = 1200 := WithTop.coe_injective ha.symm
    subst hamount
    exact ⟨s, t, pay, tx, ⟨outage, hs⟩, hopen, hpay, hprogress, happrovals, hbreaker⟩
  | _ =>
    rw [hprogress] at hended
    cases hended

end Gateway
end KafkaGuide
