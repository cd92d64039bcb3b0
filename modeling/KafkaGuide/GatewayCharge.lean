import KafkaGuide.Gateway
import KafkaGuide.Lib.Count
/-!
# GatewayCharge — how often a payment is charged

A post is live while its client waits for it, and once the client has read a success.  A payment has a live post only
while it waits or has been paid: an attempt follows another only when nothing is live.  What the client gave up on may
be approved all the same, so a payment of a finite amount is charged at most once more than it has posts given up; the
approval of an infinite one is a 500 to its client.
-/
namespace KafkaGuide
namespace Gateway

open Count

variable {env : Settings}

/-! ## Steps -/

inductive Step (env : Settings) (s : Sys) : Action → Sys → Prop
  | tick {d : ℚ} (hd : 0 ≤ d) : Step env s (.tick d) (s.stepCall env (.tick d))
  | setMode (mode : Mode) (latencyMs : Option Int) :
    Step env s (.setMode mode latencyMs) { s with gateway := ⟨mode, latencyMs.getD s.gateway.latencyMs⟩ }
  | payment {p : Nat} {orderId : String} {amount : WithTop ℚ} (hnew : s.payments p = none) :
    Step env s (.payment p orderId amount) (s.setPayment p { orderId, amount })
  | attempt {p : Nat} {pay : Payment} (hpay : s.payments p = some pay) (hprogress : pay.progress = .attempting) :
    Step env s (.attempt p) (s.attempt env p pay)
  | arrive {j : Nat} {post : Post} (random : ℚ) (hpost : s.posts[j]? = some post) (hhandler : post.handler = .wire) :
    Step env s (.arrive j random) (s.setPost j { post with handler := chargeStart s.gateway s.breaker.now random })
  | resume {j random : Nat} {post : Post} {handler : Handler} (hpost : s.posts[j]? = some post)
    (hresume : chargeResume s.gateway s.breaker.now random post.handler = some handler) :
    Step env s (.resume j random) (s.setPost j { post with handler })
  | answer {j : Nat} {post : Post} {r : Response} {pay : Payment} (hpost : s.posts[j]? = some post)
    (hview : post.view = .waiting) (hresponse : post.response = some r) (hpay : s.payments post.payment = some pay) :
    Step env s (.answer j) (s.conclude env j post pay .received (httpCall r))
  | transportError {j : Nat} {post : Post} {pay : Payment} (hpost : s.posts[j]? = some post)
    (hview : post.view = .waiting) (hpay : s.payments post.payment = some pay) :
    Step env s (.transportError j) (s.conclude env j post pay .gaveUp (.error .transportError))
  | settle {p call : Nat} {outcome : Except Exc Json} {pay : Payment} (random : ℚ) (hpay : s.payments p = some pay)
    (hprogress : pay.progress = .settling call outcome) : Step env s (.settle p random)
    ((s.stepCall env (.settle call)).setPayment p (pay.afterAttempt env s.breaker.now random outcome))
  | wakeUp {p : Nat} {due : ℚ} {pay : Payment} (hpay : s.payments p = some pay)
    (hprogress : pay.progress = .sleeping due) :
    Step env s (.wakeUp p) (s.setPayment p { pay with progress := .attempting })

theorem step_sound {s s' : Sys} {a : Action} (h : step env s a = some s') : Step env s a s' := by
  unfold step at h
  split at h
  · split at h
    · rename_i hd
      cases h
      exact .tick hd
    · cases h
  · cases h
    exact .setMode ..
  · split at h
    · rename_i hnew
      split at h
      · cases h
        exact .payment hnew
      · cases h
    · cases h
  · split at h
    · rename_i hpay
      split at h
      · rename_i hprogress
        cases h
        exact .attempt hpay hprogress
      · cases h
    · cases h
  · split at h
    · rename_i hpost
      split at h
      · rename_i hhandler
        cases h
        exact .arrive _ hpost hhandler
      · cases h
    · cases h
  · split at h
    · rename_i hpost
      obtain ⟨handler, hresume, rfl⟩ := Option.map_eq_some_iff.1 h
      exact .resume hpost hresume
    · cases h
  · split at h
    · rename_i hpost
      split at h
      · rename_i hview hresponse hpay
        cases h
        exact .answer hpost hview hresponse hpay
      · cases h
    · cases h
  · split at h
    · rename_i hpost
      split at h
      · rename_i hview hpay
        cases h
        exact .transportError hpost hview hpay
      · cases h
    · cases h
  · split at h
    · rename_i hpay
      split at h
      · rename_i hprogress
        cases h
        exact .settle _ hpay hprogress
      · cases h
    · cases h
  · split at h
    · rename_i hpay
      split at h
      · rename_i hprogress
        split at h
        · cases h
          exact .wakeUp hpay hprogress
        · cases h
      · cases h
    · cases h

/-! ## The breaker in the system -/

theorem stepCall_reachable {s : Sys} (h : (Breaker.lts env.gatewayBreaker 0).Reachable s.breaker)
    (e : Breaker.Event Exc) : (Breaker.lts env.gatewayBreaker 0).Reachable (s.stepCall env e).breaker := by
  unfold Sys.stepCall
  dsimp only
  cases hstep : Breaker.step env.gatewayBreaker s.breaker e with
  | none => exact h
  | some breaker => exact (Breaker.lts env.gatewayBreaker 0).reachable_step h hstep

theorem attempt_breaker (s : Sys) (p : Nat) (pay : Payment) :
    (s.attempt env p pay).breaker = (s.stepCall env .beforeCall).breaker := by
  unfold Sys.attempt
  dsimp only
  split <;> rfl

/-- **The payments' attempts are calls on one breaker**: what holds of every run of the calls holds of it here. -/
theorem breaker_reachable (env : Settings) (gateway : State) {s : Sys} (h : (lts env gateway).Reachable s) :
    (Breaker.lts env.gatewayBreaker 0).Reachable s.breaker := by
  have hinit : (Breaker.lts env.gatewayBreaker 0).Reachable (lts env gateway).init.breaker := ⟨[], rfl⟩
  refine (lts env gateway).reachable_inv (I := fun s => (Breaker.lts env.gatewayBreaker 0).Reachable s.breaker) hinit
    (fun s a s' hs hstep => ?_) h
  cases step_sound hstep with
  | tick hd => exact stepCall_reachable hs _
  | attempt hpay hprogress =>
    rw [attempt_breaker]
    exact stepCall_reachable hs _
  | answer hpost hview hresponse hpay => exact stepCall_reachable hs _
  | transportError hpost hview hpay => exact stepCall_reachable hs _
  | settle random hpay hprogress => exact stepCall_reachable hs _
  | _ => exact hs

/-! ## Counting the posts of a payment -/

/-- The posts of a payment that satisfy `f`. -/
def Sys.count (s : Sys) (p : Nat) (f : Post → Bool) : Nat :=
  s.posts.countP (fun post => decide (post.payment = p) && f post)

/-- How often the gateway's `charge` reached its `return` for a payment. -/
def Sys.approvals (s : Sys) (p : Nat) : Nat := s.count p (fun post => post.handler.isApproved)

/-- The posts of a payment that its client gave up on. -/
def Sys.gaveUps (s : Sys) (p : Nat) : Nat := s.count p (fun post => decide (post.view = .gaveUp))

/-- The client waits for the post, or has read a success. -/
def Post.live (post : Post) : Bool :=
  match post.view with
  | .waiting => true
  | .received => (post.response.map httpCall).any Except.isOk
  | .gaveUp => false

/-- **The approval of a finite amount is a success.** -/
theorem approved_isOk {post : Post} (h : post.handler.isApproved = true) (hfinite : post.amount ≠ ⊤) :
    (post.response.map httpCall).any Except.isOk = true := by
  unfold Post.response
  split
  · rename_i hfailed
    rw [hfailed] at h
    cases h
  · cases hamount : post.amount with
    | top => exact absurd hamount hfinite
    | coe amount => rfl
  · rename_i hnone
    cases hhandler : post.handler with
    | approved tx => exact absurd hhandler (hnone tx)
    | _ =>
      rw [hhandler] at h
      cases h

theorem count_le {s : Sys} {p : Nat} {f g : Post → Bool} (h : ∀ post, f post = true → g post = true) :
    s.count p f ≤ s.count p g := by
  unfold Sys.count
  refine List.countP_mono_left fun post _ hf => ?_
  rw [Bool.and_eq_true] at hf ⊢
  exact ⟨hf.1, h post hf.2⟩

/-- **An approved post of a finite amount is live or given up.** -/
theorem approvals_le_live {s : Sys} {p : Nat} (hfinite : ∀ post ∈ s.posts, post.payment = p → post.amount ≠ ⊤) :
    s.approvals p ≤ s.count p Post.live + s.gaveUps p := by
  unfold Sys.approvals Sys.gaveUps Sys.count
  refine countP_le_add fun post hpost h => ?_
  rw [Bool.and_eq_true] at h
  rw [Bool.and_eq_true, Bool.and_eq_true]
  cases hview : post.view with
  | waiting => exact .inl ⟨h.1, by rw [Post.live, hview]⟩
  | received =>
    have hok := approved_isOk h.2 (hfinite post hpost (of_decide_eq_true h.1))
    exact .inl ⟨h.1, by rw [Post.live, hview]; exact hok⟩
  | gaveUp => exact .inr ⟨h.1, decide_eq_true hview⟩

/-- A post that changes counts for its own payment only. -/
theorem count_setPost {s : Sys} {j : Nat} {post : Post} (post' : Post) (hpost : s.posts[j]? = some post)
    (hsame : post'.payment = post.payment) (p : Nat) (f : Post → Bool) :
    (s.setPost j post').count p f + (if post.payment = p ∧ f post = true then 1 else 0) =
      s.count p f + (if post.payment = p ∧ f post' = true then 1 else 0) := by
  have h := countP_set (fun post => decide (post.payment = p) && f post) post' hpost
  simp only [Bool.and_eq_true, decide_eq_true_eq, hsame] at h
  exact h

/-! ## The invariant -/

/-- How many live posts a payment may have. -/
def Progress.allowance : Progress → Nat
  | .attempting => 0
  | .posting _ => 1
  | .settling _ (.ok _) => 1
  | .settling _ (.error _) => 0
  | .sleeping _ => 0
  | .ended _ => 1

/-- A further attempt is to come. -/
def Progress.pending : Progress → Bool
  | .attempting => true
  | .sleeping _ => true
  | _ => false

structure Inv (env : Settings) (s : Sys) : Prop where
  owner : ∀ post ∈ s.posts, ∃ pay, s.payments post.payment = some pay ∧ post.amount = pay.amount
  answered : ∀ post ∈ s.posts, post.view = .received → post.response.isSome = true
  waiting : ∀ j post, s.posts[j]? = some post → post.view = .waiting →
    ∃ pay, s.payments post.payment = some pay ∧ pay.progress = .posting j
  posts : ∀ p pay, s.payments p = some pay → s.count p (fun _ => true) ≤ pay.attempt
  budget : ∀ p pay, s.payments p = some pay → (pay.attempt : Int) ≤ max 1 env.retryMaxAttempts
  next : ∀ p pay, s.payments p = some pay → pay.progress.pending = true →
    (pay.attempt : Int) < max 1 env.retryMaxAttempts
  live : ∀ p pay, s.payments p = some pay → s.count p Post.live ≤ pay.progress.allowance

theorem inv_init (gateway : State) : Inv env { gateway } where
  owner _ h := nomatch h
  answered _ h := nomatch h
  waiting _ _ h := nomatch h
  posts _ _ h := nomatch h
  budget _ _ h := nomatch h
  next _ _ h := nomatch h
  live _ _ h := nomatch h

/-- What the breaker and the gateway's settings are does not matter. -/
theorem Inv.congr {s s' : Sys} (hi : Inv env s) (hpayments : s'.payments = s.payments) (hposts : s'.posts = s.posts) :
    Inv env s' := by
  have hcount : ∀ p f, s'.count p f = s.count p f := fun p f => by
    unfold Sys.count
    rw [hposts]
  constructor
  case owner =>
    rw [hposts, hpayments]
    exact hi.owner
  case answered =>
    rw [hposts]
    exact hi.answered
  case waiting =>
    rw [hposts, hpayments]
    exact hi.waiting
  case posts =>
    intro p
    rw [hpayments, hcount]
    exact hi.posts p
  case budget =>
    rw [hpayments]
    exact hi.budget
  case next =>
    rw [hpayments]
    exact hi.next
  case live =>
    intro p
    rw [hpayments, hcount]
    exact hi.live p

theorem Inv.stepCall {s : Sys} (hi : Inv env s) (e : Breaker.Event Exc) : Inv env (s.stepCall env e) := hi.congr rfl rfl

theorem setPayment_payments (s : Sys) (p p' : Nat) (pay : Payment) :
    (s.setPayment p pay).payments p' = if p' = p then some pay else s.payments p' := rfl

theorem setPayment_eq_some {s : Sys} {p p' : Nat} {pay pay' : Payment}
    (h : (s.setPayment p pay).payments p' = some pay') :
    (p' = p ∧ pay' = pay) ∨ (p' ≠ p ∧ s.payments p' = some pay') := by
  rw [setPayment_payments] at h
  split at h
  · rename_i hp
    cases h
    exact .inl ⟨hp, rfl⟩
  · rename_i hp
    exact .inr ⟨hp, h⟩

/-- **A payment that moves on with its posts as they are**: none of them may still be waited for. -/
theorem Inv.setPayment {s : Sys} (hi : Inv env s) {p : Nat} {pay : Payment}
    (hamount : ∀ post ∈ s.posts, post.payment = p → post.amount = pay.amount)
    (hwaiting : ∀ post ∈ s.posts, post.payment = p → post.view ≠ .waiting)
    (hposts : s.count p (fun _ => true) ≤ pay.attempt) (hbudget : (pay.attempt : Int) ≤ max 1 env.retryMaxAttempts)
    (hnext : pay.progress.pending = true → (pay.attempt : Int) < max 1 env.retryMaxAttempts)
    (hlive : s.count p Post.live ≤ pay.progress.allowance) : Inv env (s.setPayment p pay) := by
  constructor
  case owner =>
    intro post hpost
    rw [setPayment_payments]
    split
    · rename_i hp
      exact ⟨pay, rfl, hamount post hpost hp⟩
    · exact hi.owner post hpost
  case answered => exact hi.answered
  case waiting =>
    intro j post hpost hview
    obtain ⟨pay', hpay', hprogress⟩ := hi.waiting j post hpost hview
    rw [setPayment_payments, if_neg fun hp => hwaiting post (List.mem_of_getElem? hpost) hp hview]
    exact ⟨pay', hpay', hprogress⟩
  case posts =>
    intro p' pay' h
    rcases setPayment_eq_some h with ⟨rfl, rfl⟩ | ⟨-, h⟩
    · exact hposts
    · exact hi.posts p' pay' h
  case budget =>
    intro p' pay' h
    rcases setPayment_eq_some h with ⟨-, rfl⟩ | ⟨-, h⟩
    · exact hbudget
    · exact hi.budget p' pay' h
  case next =>
    intro p' pay' h hpending
    rcases setPayment_eq_some h with ⟨-, rfl⟩ | ⟨-, h⟩
    · exact hnext hpending
    · exact hi.next p' pay' h hpending
  case live =>
    intro p' pay' h
    rcases setPayment_eq_some h with ⟨rfl, rfl⟩ | ⟨-, h⟩
    · exact hlive
    · exact hi.live p' pay' h

/-- The posts of a payment are of its amount. -/
theorem Inv.amount {s : Sys} (hi : Inv env s) {p : Nat} {pay : Payment} (hpay : s.payments p = some pay) :
    ∀ post ∈ s.posts, post.payment = p → post.amount = pay.amount := by
  rintro post hpost rfl
  obtain ⟨pay', hpay', hamount⟩ := hi.owner post hpost
  rw [hpay] at hpay'
  cases hpay'
  exact hamount

theorem Inv.posting {s : Sys} (hi : Inv env s) {j : Nat} {post : Post} {pay : Payment} (hpost : s.posts[j]? = some post)
    (hview : post.view = .waiting) (hpay : s.payments post.payment = some pay) : pay.progress = .posting j := by
  obtain ⟨pay', hpay', hprogress⟩ := hi.waiting j post hpost hview
  rw [hpay] at hpay'
  cases hpay'
  exact hprogress

/-- A payment that is not posting has no post to wait for. -/
theorem Inv.not_waiting {s : Sys} (hi : Inv env s) {p : Nat} {pay : Payment} (hpay : s.payments p = some pay)
    (hprogress : ∀ j, pay.progress ≠ .posting j) : ∀ post ∈ s.posts, post.payment = p → post.view ≠ .waiting := by
  rintro post hpost rfl hview
  obtain ⟨j, hj⟩ := List.mem_iff_getElem?.1 hpost
  exact hprogress j (hi.posting hj hview hpay)

theorem Inv.count_unknown {s : Sys} (hi : Inv env s) {p : Nat} (hnew : s.payments p = none) (f : Post → Bool) :
    s.count p f = 0 := by
  unfold Sys.count
  refine List.countP_eq_zero.2 fun post hpost h => ?_
  rw [Bool.and_eq_true, decide_eq_true_eq] at h
  obtain ⟨pay, hpay, -⟩ := hi.owner post hpost
  rw [h.1, hnew] at hpay
  cases hpay

/-- **A post that moves on**, to no more than it was. -/
theorem Inv.setPost {s : Sys} (hi : Inv env s) {j : Nat} {post post' : Post} (hpost : s.posts[j]? = some post)
    (hsame : post'.payment = post.payment) (hamount : post'.amount = post.amount)
    (hanswered : post'.view = .received → post'.response.isSome = true)
    (hwaiting : post'.view = .waiting → post.view = .waiting) (hlive : post'.live = true → post.live = true) :
    Inv env (s.setPost j post') := by
  have hget : ∀ {i other}, (s.posts.set j post')[i]? = some other →
      (i = j ∧ other = post') ∨ s.posts[i]? = some other := fun {i other} h => by
    rw [List.getElem?_set] at h
    split at h
    · rename_i hij
      split at h
      · cases h
        exact .inl ⟨hij.symm, rfl⟩
      · cases h
    · exact .inr h
  have hmem : ∀ other ∈ s.posts.set j post', other = post' ∨ other ∈ s.posts := fun other h => by
    obtain ⟨i, hi⟩ := List.mem_iff_getElem?.1 h
    exact (hget hi).imp (fun h => h.2) List.mem_of_getElem?
  have hcount : ∀ p f, (f post' = true → f post = true) →
      (s.setPost j post').count p f ≤ s.count p f := fun p f hf => by
    have h := count_setPost post' hpost hsame p f
    by_cases hnew : post.payment = p ∧ f post' = true
    · rw [if_pos hnew, if_pos ⟨hnew.1, hf hnew.2⟩] at h
      omega
    · rw [if_neg hnew] at h
      omega
  constructor
  case owner =>
    intro other h
    rcases hmem other h with rfl | h
    · rw [hsame, hamount]
      exact hi.owner post (List.mem_of_getElem? hpost)
    · exact hi.owner other h
  case answered =>
    intro other h
    rcases hmem other h with rfl | h
    · exact hanswered
    · exact hi.answered other h
  case waiting =>
    intro i other h hview
    rcases hget h with ⟨rfl, rfl⟩ | h
    · rw [hsame]
      exact hi.waiting i post hpost (hwaiting hview)
    · exact hi.waiting i other h hview
  case posts => exact fun p pay hpay => (hcount p (fun _ => true) (fun _ => rfl)).trans (hi.posts p pay hpay)
  case budget => exact hi.budget
  case next => exact hi.next
  case live => exact fun p pay hpay => (hcount p _ hlive).trans (hi.live p pay hpay)

/-- A handler that has not answered moves on. -/
theorem Inv.handler {s : Sys} (hi : Inv env s) {j : Nat} {post : Post} (hpost : s.posts[j]? = some post)
    (hnone : post.response = none) (handler : Handler) : Inv env (s.setPost j { post with handler }) := by
  have hview : post.view ≠ .received := fun h => by
    have hsome := hi.answered post (List.mem_of_getElem? hpost) h
    rw [hnone] at hsome
    cases hsome
  refine hi.setPost hpost rfl rfl (fun h => absurd h hview) (fun h => h) fun h => ?_
  unfold Post.live at h ⊢
  split at h
  · rename_i hwait
    rw [show post.view = .waiting from hwait]
  · rename_i hrec
    exact absurd hrec hview
  · cases h

/-- **The client's wait ends**: with an error only when nothing of the post is live. -/
theorem Inv.conclude {s : Sys} (hi : Inv env s) {j : Nat} {post : Post} {pay : Payment} {view : View}
    {outcome : Except Exc Json} (hpost : s.posts[j]? = some post) (hview : post.view = .waiting)
    (hpay : s.payments post.payment = some pay) (hended : view ≠ .waiting)
    (hanswered : view = .received → post.response.isSome = true)
    (hdead : ∀ exc, outcome = .error exc → Post.live { post with view } = false) :
    Inv env (s.conclude env j post pay view outcome) := by
  have hlive : post.live = true := by rw [Post.live, hview]
  have hprogress := hi.posting hpost hview hpay
  have hset : Inv env ((s.stepCall env (.finish post.call (ending outcome))).setPost j { post with view }) :=
    (hi.stepCall _).setPost hpost rfl rfl hanswered (fun h => absurd h hended) (fun _ => hlive)
  have hone : s.count post.payment Post.live ≤ 1 := by
    have h := hi.live post.payment pay hpay
    rw [hprogress] at h
    exact h
  have hcount := count_setPost { post with view } hpost rfl post.payment Post.live
  rw [if_pos ⟨rfl, hlive⟩] at hcount
  have hpay' : ((s.stepCall env (.finish post.call (ending outcome))).setPost j { post with view }).payments
      post.payment = some pay := hpay
  have hamount := hset.amount hpay'
  refine hset.setPayment hamount ?_ (hset.posts _ pay hpay) (hset.budget _ pay hpay) (fun h => nomatch h) ?_
  · intro other hother hsame hwait
    obtain ⟨i, hget⟩ := List.mem_iff_getElem?.1 hother
    obtain ⟨pay', hpay', hposting⟩ := hset.waiting i other hget hwait
    change s.payments other.payment = some pay' at hpay'
    rw [hsame, hpay] at hpay'
    cases hpay'
    rw [hprogress] at hposting
    cases hposting
    change (s.posts.set j { post with view })[j]? = some other at hget
    rw [List.getElem?_set_self (List.getElem?_eq_some_iff.1 hpost).1] at hget
    cases hget
    exact hended hwait
  · change (s.setPost j { post with view }).count post.payment Post.live ≤ _
    cases outcome with
    | ok v =>
      change _ ≤ 1
      split at hcount <;> omega
    | error exc =>
      change _ ≤ 0
      rw [if_neg (by rw [hdead exc rfl]; exact fun h => nomatch h.2)] at hcount
      omega

/-- Between two attempts a payment has no live post. -/
theorem Inv.no_live {s : Sys} (hi : Inv env s) {p : Nat} {pay : Payment} (hpay : s.payments p = some pay)
    (hprogress : pay.progress = .attempting) : s.count p Post.live = 0 := by
  have h := hi.live p pay hpay
  rw [hprogress] at h
  exact Nat.le_zero.1 h

/-- An attempt that the breaker rejects. -/
theorem Inv.rejected {s : Sys} (hi : Inv env s) {p : Nat} {pay : Payment} (hpay : s.payments p = some pay)
    (hprogress : pay.progress = .attempting) (call : Nat) (exc : Exc) :
    Inv env (s.setPayment p { pay with attempt := pay.attempt + 1, progress := .settling call (.error exc) }) := by
  have hlt := hi.next p pay hpay (by rw [hprogress]; rfl)
  have hamount := hi.amount hpay
  refine hi.setPayment hamount ?_ ?_ ?_ (fun h => (by cases h)) (hi.no_live hpay hprogress).le
  · exact hi.not_waiting hpay fun j h => by rw [hprogress] at h; cases h
  · exact Nat.le_succ_of_le (hi.posts p pay hpay)
  · push_cast
    omega

theorem count_append {s : Sys} {p : Nat} {post : Post} (hpost : post.payment = p) (p' : Nat) (f : Post → Bool) :
    (s.posts ++ [post]).countP (fun post => decide (post.payment = p') && f post) =
      s.count p' f + if p = p' ∧ f post = true then 1 else 0 := by
  rw [List.countP_append, List.countP_singleton]
  simp only [Bool.and_eq_true, decide_eq_true_eq, hpost]
  rfl

/-- **An attempt that is posted**: its post is the payment's only live one. -/
theorem Inv.posted {s : Sys} (hi : Inv env s) {p : Nat} {pay : Payment} (hpay : s.payments p = some pay)
    (hprogress : pay.progress = .attempting) {post : Post} (hpost : post.payment = p)
    (hamount : post.amount = pay.amount) (hview : post.view = .waiting) :
    Inv env { s.setPayment p { pay with attempt := pay.attempt + 1, progress := .posting s.posts.length } with
      posts := s.posts ++ [post] } := by
  have hnone := hi.not_waiting hpay fun j h => by rw [hprogress] at h; cases h
  have hlt := hi.next p pay hpay (by rw [hprogress]; rfl)
  have hmem : ∀ other ∈ s.posts ++ [post], other ∈ s.posts ∨ other = post := fun other h =>
    (List.mem_append.1 h).imp_right List.mem_singleton.1
  constructor
  case owner =>
    intro other h
    change ∃ pay', (s.setPayment p _).payments other.payment = some pay' ∧ other.amount = pay'.amount
    rw [setPayment_payments]
    split
    · rename_i hp
      rcases hmem other h with h | rfl
      · exact ⟨_, rfl, hi.amount hpay other h hp⟩
      · exact ⟨_, rfl, hamount⟩
    · rename_i hne
      rcases hmem other h with h | rfl
      · exact hi.owner other h
      · exact absurd hpost hne
  case answered =>
    intro other h hrec
    rcases hmem other h with h | rfl
    · exact hi.answered other h hrec
    · rw [hview] at hrec
      cases hrec
  case waiting =>
    intro j other h hwait
    change ∃ pay', (s.setPayment p _).payments other.payment = some pay' ∧ _
    rcases get_append h with h | ⟨rfl, rfl⟩
    · obtain ⟨pay', hpay', hposting⟩ := hi.waiting j other h hwait
      rw [setPayment_payments, if_neg fun hp => hnone other (List.mem_of_getElem? h) hp hwait]
      exact ⟨pay', hpay', hposting⟩
    · rw [hpost, setPayment_payments, if_pos rfl]
      exact ⟨_, rfl, rfl⟩
  case posts =>
    intro p' pay' h
    change (s.posts ++ [post]).countP _ ≤ _
    rw [count_append hpost p' (fun _ => true)]
    rcases setPayment_eq_some h with ⟨rfl, rfl⟩ | ⟨hne, h⟩
    · rw [if_pos ⟨rfl, rfl⟩]
      exact Nat.succ_le_succ (hi.posts p' pay hpay)
    · rw [if_neg fun h => hne h.1.symm]
      exact hi.posts p' pay' h
  case budget =>
    intro p' pay' h
    rcases setPayment_eq_some h with ⟨-, rfl⟩ | ⟨-, h⟩
    · push_cast
      omega
    · exact hi.budget p' pay' h
  case next =>
    intro p' pay' h hpending
    rcases setPayment_eq_some h with ⟨-, rfl⟩ | ⟨-, h⟩
    · cases hpending
    · exact hi.next p' pay' h hpending
  case live =>
    intro p' pay' h
    change (s.posts ++ [post]).countP _ ≤ _
    rw [count_append hpost p' Post.live]
    rcases setPayment_eq_some h with ⟨rfl, rfl⟩ | ⟨hne, h⟩
    · rw [hi.no_live hpay hprogress]
      change _ ≤ 1
      split <;> decide
    · rw [if_neg fun h => hne h.1.symm]
      exact hi.live p' pay' h

theorem Inv.attempt {s : Sys} (hi : Inv env s) {p : Nat} {pay : Payment} (hpay : s.payments p = some pay)
    (hprogress : pay.progress = .attempting) : Inv env (s.attempt env p pay) := by
  unfold Sys.attempt
  dsimp only
  split
  · exact (hi.stepCall .beforeCall).rejected hpay hprogress _ _
  · exact (hi.stepCall .beforeCall).posted hpay hprogress rfl rfl rfl

/-- A payment is retried only below the maximum, after an error. -/
theorem Inv.settle {s : Sys} (hi : Inv env s) {p call : Nat} {pay : Payment} {outcome : Except Exc Json}
    (hpay : s.payments p = some pay) (hprogress : pay.progress = .settling call outcome) (now random : ℚ) :
    Inv env (s.setPayment p (pay.afterAttempt env now random outcome)) := by
  have hnone := hi.not_waiting hpay fun j h => by rw [hprogress] at h; cases h
  have hamount := hi.amount hpay
  have hposts := hi.posts p pay hpay
  have hbudget := hi.budget p pay hpay
  have hlive := hi.live p pay hpay
  rw [hprogress] at hlive
  unfold Payment.afterAttempt
  cases outcome with
  | ok v => exact hi.setPayment hamount hnone hposts hbudget (fun h => nomatch h) hlive
  | error exc =>
    dsimp only
    split
    · exact hi.setPayment hamount hnone hposts hbudget (fun h => nomatch h) (hlive.trans (Nat.zero_le 1))
    · rename_i delay hsome
      obtain ⟨-, -, hlt, -⟩ := Retry.handle_eq_some.1 hsome
      refine hi.setPayment hamount hnone hposts hbudget (fun _ => ?_) hlive
      exact lt_max_of_lt_right hlt

theorem inv_step {s s' : Sys} {a : Action} (hi : Inv env s) (h : Step env s a s') : Inv env s' := by
  cases h with
  | tick hd => exact hi.congr rfl rfl
  | setMode mode latencyMs => exact hi.congr rfl rfl
  | @payment p orderId amount hnew =>
    have hnone : ∀ post ∈ s.posts, post.payment ≠ p := by
      rintro post hpost rfl
      obtain ⟨pay, hpay, -⟩ := hi.owner post hpost
      rw [hnew] at hpay
      cases hpay
    refine hi.setPayment (fun post hpost hp => absurd hp (hnone post hpost))
      (fun post hpost hp => absurd hp (hnone post hpost)) (hi.count_unknown hnew _).le ?_ (fun _ => ?_)
      (hi.count_unknown hnew _).le
    · change (0 : Int) ≤ _
      omega
    · change (0 : Int) < _
      omega
  | attempt hpay hprogress => exact hi.attempt hpay hprogress
  | arrive random hpost hhandler => exact hi.handler hpost (by rw [Post.response, hhandler]) _
  | @resume j random post handler hpost hresume =>
    refine hi.handler hpost ?_ handler
    unfold chargeResume at hresume
    unfold Post.response
    split at hresume
    · rename_i hslow
      rw [hslow]
    · rename_i hlatency
      rw [hlatency]
    · cases hresume
  | @answer j post r pay hpost hview hresponse hpay =>
    refine hi.conclude hpost hview hpay (fun h => nomatch h) (fun _ => by rw [hresponse]; rfl) fun exc hexc => ?_
    change (post.response.map httpCall).any Except.isOk = false
    rw [hresponse, Option.map_some, hexc]
    rfl
  | transportError hpost hview hpay =>
    exact hi.conclude hpost hview hpay (fun h => nomatch h) (fun h => nomatch h) (fun _ _ => rfl)
  | @settle p call outcome pay random hpay hprogress =>
    exact Inv.settle (s := s.stepCall env (.settle call)) (hi.stepCall _) hpay hprogress s.breaker.now random
  | @wakeUp p due pay hpay hprogress =>
    have hlive := hi.live p pay hpay
    rw [hprogress] at hlive
    have hamount := hi.amount hpay
    refine hi.setPayment hamount (hi.not_waiting hpay fun j h => ?_) (hi.posts p pay hpay) (hi.budget p pay hpay)
      (fun _ => hi.next p pay hpay (by rw [hprogress]; rfl)) hlive
    rw [hprogress] at h
    cases h

/-- **A payment of a finite amount is charged at most once more than its client gave up on posts**, and none more often
than there are attempts: whatever the gateway's modes and latencies, and whichever posts of whichever payments time
out. -/
theorem approvals_le (env : Settings) (gateway : State) {s : Sys} (h : (lts env gateway).Reachable s) (p : Nat) :
    ((∀ pay, s.payments p = some pay → pay.amount ≠ ⊤) → s.approvals p ≤ 1 + s.gaveUps p) ∧
      (s.approvals p : Int) ≤ max 1 env.retryMaxAttempts := by
  have hi : Inv env s :=
    (lts env gateway).reachable_inv (inv_init gateway) (fun _ _ _ hi h => inv_step hi (step_sound h)) h
  have hposts : s.approvals p ≤ s.count p (fun _ => true) := count_le fun _ _ => rfl
  cases hpay : s.payments p with
  | none =>
    have hzero := hi.count_unknown hpay (fun _ => true)
    constructor <;> omega
  | some pay =>
    have hone : s.count p Post.live ≤ 1 := by
      refine (hi.live p pay hpay).trans ?_
      unfold Progress.allowance
      split <;> decide
    have hattempt := hi.posts p pay hpay
    have hbudget := hi.budget p pay hpay
    refine ⟨fun hfinite => ?_, by omega⟩
    have hlive : s.approvals p ≤ s.count p Post.live + s.gaveUps p := approvals_le_live fun post hpost hp => by
      rw [hi.amount hpay post hpost hp]
      exact hfinite pay rfl
    omega

/-- Three attempts at an amount of `inf`: each is approved, answered and retried. -/
def infiniteAmount : List Action :=
  [.payment 0 "abc-1" ⊤, .attempt 0, .arrive 0 0, .tick 1, .resume 0 123456, .answer 0, .settle 0 0, .tick 1, .wakeUp 0,
    .attempt 0, .arrive 1 0, .tick 1, .resume 1 234567, .answer 1, .settle 0 0, .tick 1, .wakeUp 0,
    .attempt 0, .arrive 2 0, .tick 1, .resume 2 345678, .answer 2, .settle 0 0]

example : ((lts {} {}).run {} infiniteAmount).any (fun s => decide (s.approvals 0 = 3 ∧ s.gaveUps 0 = 0)) = true := by
  decide +kernel

/-- The gateway sleeps through the first post, which times out, and answers the second. -/
def lateAnswer : List Action :=
  [.payment 0 "abc-1" 4900, .attempt 0, .arrive 0 0, .tick 2, .transportError 0, .settle 0 0,
    .setMode .healthy none, .tick 1, .wakeUp 0, .attempt 0, .arrive 1 0, .tick 1, .resume 1 123456, .answer 1,
    .settle 0 0, .tick 1, .resume 0 0, .tick 1, .resume 0 654321]

theorem lateAnswer_run : ∃ s, (lts {} ⟨.slow, 50⟩).run { gateway := ⟨.slow, 50⟩ } lateAnswer = some s ∧
    s.approvals 0 = 2 ∧ s.gaveUps 0 = 1 ∧ (s.payments 0).map Payment.amount = some 4900 := by
  have hrun : ((lts {} ⟨.slow, 50⟩).run { gateway := ⟨.slow, 50⟩ } lateAnswer).any
      (fun s => decide (s.approvals 0 = 2 ∧ s.gaveUps 0 = 1 ∧ (s.payments 0).map Payment.amount = some 4900)) =
        true := by
    decide +kernel
  obtain ⟨s, hs, hcounts⟩ := (Option.any_eq_true ..).1 hrun
  exact ⟨s, hs, of_decide_eq_true hcounts⟩

/-- Both handlers return their approval: the payment that was made is charged twice. -/
theorem lateAnswer_charged_twice : ∃ s, (lts {} ⟨.slow, 50⟩).Reachable s ∧ 1 < s.approvals 0 := by
  obtain ⟨s, hs, htwo, -⟩ := lateAnswer_run
  exact ⟨s, ⟨lateAnswer, hs⟩, by omega⟩

theorem approvals_le_lateAnswer : ∃ s, (lts {} ⟨.slow, 50⟩).Reachable s ∧ s.approvals 0 = 2 ∧
    s.approvals 0 ≤ 1 + s.gaveUps 0 ∧ (s.approvals 0 : Int) ≤ max 1 3 := by
  obtain ⟨s, hs, htwo, -, hamount⟩ := lateAnswer_run
  obtain ⟨hle, hmax⟩ := approvals_le {} ⟨.slow, 50⟩ ⟨lateAnswer, hs⟩ 0
  refine ⟨s, ⟨lateAnswer, hs⟩, htwo, hle fun pay hpay => ?_, hmax⟩
  rw [hpay, Option.map_some, Option.some.injEq] at hamount
  rw [hamount]
  exact WithTop.natCast_ne_top 4900

end Gateway
end KafkaGuide
