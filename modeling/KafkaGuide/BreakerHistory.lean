import KafkaGuide.BreakerFields
import KafkaGuide.BreakerCount
/-!
# BreakerHistory — calls one after another, and what their history says of the breaker

`call` on a breaker that nobody else uses.  Between such calls the breaker's three fields are a function of what the
calls so far did: the failures since the last success decide its state, the last failure dates it.
-/
namespace KafkaGuide
namespace Breaker

variable {χ : Type} (cfg : Config χ)

/-- One call: the clock at its `_before_call`, the clock when its `func` has ended, and how `func` ends if it is
invoked. -/
structure Made (χ : Type) where
  arrived : ℚ
  ended : ℚ
  ending : Ending χ

/-- How `call` leaves: by `CircuitBreakerOpenError` before `func` is invoked, else as `func` ended. -/
inductive Result (χ : Type) where
  | rejected (exc : CircuitBreakerOpenError)
  | ended (e : Ending χ)

def Result.invoked : Result χ → Bool
  | .rejected _ => false
  | .ended _ => true

/-- `call`. -/
def call (cb : CircuitBreaker) (c : Made χ) : CircuitBreaker × Result χ :=
  match beforeCall cfg cb c.arrived with
  | .error exc => (cb, .rejected exc)
  | .ok cb' =>
    match afterFunc cfg c.ending with
    | .onSuccess => (onSuccess cb', .ended c.ending)
    | .onFailure => (onFailure cfg cb' c.ended, .ended c.ending)
    | _ => (cb', .ended c.ending)

/-- The calls made one after another, each with its result. -/
def calls : CircuitBreaker → List (Made χ) → CircuitBreaker × List (Made χ × Result χ)
  | cb, [] => (cb, [])
  | cb, c :: cs =>
    let (cb', r) := call cfg cb c
    let (cb'', h) := calls cb' cs
    (cb'', (c, r) :: h)

/-! ## What a history says -/

/-- The call's `func` returned. -/
def succeeded : Made χ × Result χ → Bool
  | (_, .ended .returned) => true
  | _ => false

/-- The time at which the call's `func` raised an expected exception. -/
def failedAt : Made χ × Result χ → Option ℚ
  | (c, .ended (.raised exc)) => if cfg.expectedException exc then some c.ended else none
  | _ => none

/-- How many admitted calls have failed since the last one that succeeded. -/
def failuresSinceSuccess (h : List (Made χ × Result χ)) : Nat :=
  (h.reverse.takeWhile (fun x => !succeeded x)).countP (fun x => (failedAt cfg x).isSome)

/-- The time of the most recent failure. -/
def lastFailure (h : List (Made χ × Result χ)) : Option ℚ := h.reverse.findSome? (failedAt cfg)

/-- `func` succeeds or raises what `expected_exception` catches. -/
def Ending.Handled : Ending χ → Prop
  | .returned => True
  | .raised exc => cfg.expectedException exc = true
  | .cancelled => False

variable {cfg}

theorem failuresSinceSuccess_append (h : List (Made χ × Result χ)) (x : Made χ × Result χ) :
    failuresSinceSuccess cfg (h ++ [x]) = if succeeded x then 0
      else failuresSinceSuccess cfg h + if (failedAt cfg x).isSome then 1 else 0 := by
  unfold failuresSinceSuccess
  rw [List.reverse_append, List.reverse_singleton, List.singleton_append, List.takeWhile_cons]
  cases hs : succeeded x with
  | true => simp
  | false =>
    simp only [Bool.not_false, if_true]
    rw [List.countP_cons]
    simp

theorem lastFailure_append (h : List (Made χ × Result χ)) (x : Made χ × Result χ) :
    lastFailure cfg (h ++ [x]) = (failedAt cfg x).or (lastFailure cfg h) := by
  unfold lastFailure
  rw [List.reverse_append, List.reverse_singleton, List.singleton_append, List.findSome?_cons]
  cases failedAt cfg x <;> rfl

/-! ## One call -/

theorem call_rejected {cb : CircuitBreaker} {c : Made χ} (ho : cb.state = .open_)
    (hr : shouldAttemptRecovery cfg cb c.arrived = false) : call cfg cb c = (cb, .rejected ⟨cfg.name⟩) := by
  simp [call, beforeCall, ho, hr]

theorem call_of_beforeCall {cb cb' : CircuitBreaker} {c : Made χ} (hb : beforeCall cfg cb c.arrived = .ok cb') :
    (call cfg cb c).2 = .ended c.ending ∧ (call cfg cb c).1 = match afterFunc cfg c.ending with
      | .onSuccess => onSuccess cb'
      | .onFailure => onFailure cfg cb' c.ended
      | _ => cb' := by
  unfold call
  rw [hb]
  cases afterFunc cfg c.ending <;> exact ⟨rfl, rfl⟩

/-- **What `_before_call` can do**: reject, admit a probe, or let the call pass. -/
theorem beforeCall_cases (cfg : Config χ) (cb : CircuitBreaker) (now : ℚ) :
    (cb.state = .open_ ∧ shouldAttemptRecovery cfg cb now = false ∧ beforeCall cfg cb now = .error ⟨cfg.name⟩) ∨
    (cb.state = .open_ ∧ shouldAttemptRecovery cfg cb now = true ∧
      beforeCall cfg cb now = .ok { cb with state := .halfOpen }) ∨
    (cb.state ≠ .open_ ∧ beforeCall cfg cb now = .ok cb) := by
  by_cases ho : cb.state = .open_
  · cases hr : shouldAttemptRecovery cfg cb now with
    | false => exact .inl ⟨ho, rfl, by simp [beforeCall, ho, hr]⟩
    | true => exact .inr (.inl ⟨ho, rfl, by simp [beforeCall, ho, hr]⟩)
  · exact .inr (.inr ⟨ho, by simp [beforeCall, ho]⟩)

/-- A call is rejected exactly while the breaker is OPEN and `recovery_timeout` has not passed since `opened_at`. -/
theorem call_rejected_iff (cb : CircuitBreaker) (c : Made χ) : (call cfg cb c).2.invoked = false ↔
    cb.state = .open_ ∧ ∃ t, cb.openedAt = some t ∧ c.arrived - t < cfg.recoveryTimeout := by
  have hrecovery : shouldAttemptRecovery cfg cb c.arrived = false ↔
      ∃ t, cb.openedAt = some t ∧ c.arrived - t < cfg.recoveryTimeout := by
    unfold shouldAttemptRecovery
    cases cb.openedAt with
    | none => simp
    | some t => simp
  rcases beforeCall_cases cfg cb c.arrived with ⟨ho, hr, -⟩ | ⟨ho, hr, hb⟩ | ⟨ho, hb⟩
  · rw [call_rejected ho hr]
    exact iff_of_true rfl ⟨ho, hrecovery.1 hr⟩
  · rw [(call_of_beforeCall hb).1]
    refine iff_of_false (by simp [Result.invoked]) ?_
    rintro ⟨-, h⟩
    rw [hrecovery.2 h] at hr
    cases hr
  · rw [(call_of_beforeCall hb).1]
    exact iff_of_false (by simp [Result.invoked]) (fun h => ho h.1)

/-! ## The breaker agrees with its history -/

/-- What the breaker is between two calls, by the history of the calls so far. -/
structure Agrees (cfg : Config χ) (cb : CircuitBreaker) (h : List (Made χ × Result χ)) : Prop where
  fields : Fields cfg cb
  settled : cb.state ≠ .halfOpen
  counted : cb.state = .closed → cb.failureCount = failuresSinceSuccess cfg h
  reached : cb.state = .open_ → cfg.failureThreshold ≤ (failuresSinceSuccess cfg h : Int)
  dated : cb.state = .open_ → cb.openedAt = lastFailure cfg h

theorem Agrees.closed {cb : CircuitBreaker} {h : List (Made χ × Result χ)} (ha : Agrees cfg cb h)
    (ho : cb.state ≠ .open_) : cb.state = .closed := by
  have hsettled := ha.settled
  cases hst : cb.state with
  | closed => rfl
  | open_ => exact absurd hst ho
  | halfOpen => exact absurd hst hsettled

/-- A success closes the breaker and starts the history anew. -/
theorem Agrees.succeed (hT : 1 ≤ cfg.failureThreshold) (cb : CircuitBreaker) (h : List (Made χ × Result χ))
    {x : Made χ × Result χ} (hx : succeeded x = true) : Agrees cfg (onSuccess cb) (h ++ [x]) where
  fields := fields_new hT
  settled := by simp [onSuccess]
  counted := by
    intro _
    rw [failuresSinceSuccess_append, if_pos hx]
    rfl
  reached := by simp [onSuccess]
  dated := by simp [onSuccess]

/-- A failed probe opens the breaker again. -/
theorem Agrees.reopen {cb : CircuitBreaker} {h : List (Made χ × Result χ)} (ha : Agrees cfg cb h)
    (ho : cb.state = .open_) {x : Made χ × Result χ} {t : ℚ} (hs : succeeded x = false)
    (hx : failedAt cfg x = some t) :
    Agrees cfg (onFailure cfg { cb with state := .halfOpen } t) (h ++ [x]) := by
  have hre : onFailure cfg { cb with state := .halfOpen } t = doOpen { cb with state := .halfOpen } t := by
    simp [onFailure]
  have hreached := ha.reached ho
  constructor
  case fields => exact (ha.fields.halfOpen ho).onFailure t
  case settled => simp [hre, doOpen]
  case counted => simp [hre, doOpen]
  case reached =>
    intro _
    rw [failuresSinceSuccess_append, hs, hx]
    simp
    omega
  case dated =>
    intro _
    rw [lastFailure_append, hx, hre]
    rfl

/-- A failure in CLOSED is one more failure since the last success, and opens the breaker at the threshold. -/
theorem Agrees.fail {cb : CircuitBreaker} {h : List (Made χ × Result χ)} (ha : Agrees cfg cb h)
    (hc : cb.state = .closed) {x : Made χ × Result χ} {t : ℚ} (hs : succeeded x = false)
    (hx : failedAt cfg x = some t) : Agrees cfg (onFailure cfg cb t) (h ++ [x]) := by
  have hsince : failuresSinceSuccess cfg (h ++ [x]) = cb.failureCount + 1 := by
    rw [failuresSinceSuccess_append, hs, hx, ha.counted hc]
    simp
  have hfields := ha.fields.onFailure t
  rcases onFailure_cases cfg cb t with ⟨hh, -⟩ | ⟨-, hlt, he⟩ | ⟨-, hle, he⟩
  · rw [hc] at hh
    cases hh
  · rw [he] at hfields ⊢
    refine ⟨hfields, by simp [hc], fun _ => hsince.symm, fun ho => ?_, fun ho => ?_⟩
    · simp [hc] at ho
    · simp [hc] at ho
  · rw [he] at hfields ⊢
    refine ⟨hfields, by simp [doOpen], fun ho => ?_, fun _ => ?_, fun _ => ?_⟩
    · simp [doOpen] at ho
    · rw [hsince]
      simpa using hle
    · rw [lastFailure_append, hx]
      rfl

/-- A rejected call changes neither side. -/
theorem Agrees.reject {cb : CircuitBreaker} {h : List (Made χ × Result χ)} (ha : Agrees cfg cb h) (c : Made χ)
    (exc : CircuitBreakerOpenError) : Agrees cfg cb (h ++ [(c, .rejected exc)]) := by
  have hsince : failuresSinceSuccess cfg (h ++ [(c, .rejected exc)]) = failuresSinceSuccess cfg h := by
    rw [failuresSinceSuccess_append]
    simp [succeeded, failedAt]
  have hlast : lastFailure cfg (h ++ [(c, .rejected exc)]) = lastFailure cfg h := by
    rw [lastFailure_append]
    rfl
  obtain ⟨h1, h2, h3, h4, h5⟩ := ha
  exact ⟨h1, h2, by rwa [hsince], by rwa [hsince], by rwa [hlast]⟩

/-- An admitted call agrees however its `func` ends, when it does so for a failure. -/
theorem agrees_admitted (hT : 1 ≤ cfg.failureThreshold) {cb cb' : CircuitBreaker} {h : List (Made χ × Result χ)}
    {c : Made χ} (hb : beforeCall cfg cb c.arrived = .ok cb')
    (hfail : ∀ x t, succeeded x = false → failedAt cfg x = some t → Agrees cfg (onFailure cfg cb' t) (h ++ [x]))
    (hc : c.ending.Handled cfg) : Agrees cfg (call cfg cb c).1 (h ++ [(c, (call cfg cb c).2)]) := by
  obtain ⟨hresult, hcb⟩ := call_of_beforeCall hb
  rw [hresult, hcb]
  cases hend : c.ending with
  | returned => exact Agrees.succeed hT _ h rfl
  | raised exc =>
    rw [hend] at hc
    have hexpected : cfg.expectedException exc = true := hc
    simp only [afterFunc, hexpected, if_true]
    apply hfail
    · rfl
    · simp [failedAt, hexpected]
  | cancelled =>
    rw [hend] at hc
    exact hc.elim

/-- **A call keeps the breaker in step with its history.** -/
theorem agrees_call (hT : 1 ≤ cfg.failureThreshold) {cb : CircuitBreaker} {h : List (Made χ × Result χ)}
    (ha : Agrees cfg cb h) {c : Made χ} (hc : c.ending.Handled cfg) :
    Agrees cfg (call cfg cb c).1 (h ++ [(c, (call cfg cb c).2)]) := by
  rcases beforeCall_cases cfg cb c.arrived with ⟨ho, hr, -⟩ | ⟨ho, -, hb⟩ | ⟨ho, hb⟩
  · rw [call_rejected ho hr]
    exact ha.reject c _
  · exact agrees_admitted hT hb (fun x t hs hx => ha.reopen ho hs hx) hc
  · exact agrees_admitted hT hb (fun x t hs hx => ha.fail (ha.closed ho) hs hx) hc

theorem agrees_calls (hT : 1 ≤ cfg.failureThreshold) : ∀ {cs : List (Made χ)} {cb : CircuitBreaker}
    {h : List (Made χ × Result χ)}, Agrees cfg cb h → (∀ c ∈ cs, c.ending.Handled cfg) →
      Agrees cfg (calls cfg cb cs).1 (h ++ (calls cfg cb cs).2)
  | [], cb, h, ha, _ => by
    rw [calls, List.append_nil]
    exact ha
  | c :: cs, cb, h, ha, hcs => by
    have hcall := agrees_call hT ha (hcs c List.mem_cons_self)
    have htail := agrees_calls hT hcall (fun d hd => hcs d (List.mem_cons_of_mem _ hd))
    rw [List.append_assoc, List.singleton_append] at htail
    exact htail

theorem agrees_new (hT : 1 ≤ cfg.failureThreshold) : Agrees cfg {} [] where
  fields := fields_new hT
  settled := by simp
  counted := fun _ => rfl
  reached := by simp
  dated := by simp

/-- While the threshold is positive, a history that reaches it has a last failure. -/
theorem lastFailure_isSome {h : List (Made χ × Result χ)} (hpos : 0 < failuresSinceSuccess cfg h) :
    ∃ t, lastFailure cfg h = some t := by
  obtain ⟨x, hx, hsome⟩ := List.countP_pos_iff.1 hpos
  obtain ⟨t, ht⟩ := Option.isSome_iff_exists.1 hsome
  have hmem : x ∈ h.reverse := (List.takeWhile_sublist _).subset hx
  apply Option.isSome_iff_exists.1
  rw [lastFailure, List.findSome?_isSome_iff]
  exact ⟨x, hmem, hsome⟩

/-- **The breaker between calls is a function of their history**: it is OPEN or CLOSED, OPEN exactly from
`failure_threshold` failures since the last success on, dated then by the most recent failure, and the next call is
rejected exactly while it is OPEN and `recovery_timeout` has not passed since. -/
theorem sequential_history (cfg : Config χ) (hT : 1 ≤ cfg.failureThreshold) (cs : List (Made χ))
    (hcs : ∀ c ∈ cs, c.ending.Handled cfg) :
    (calls cfg {} cs).1.state ≠ .halfOpen ∧
    ((calls cfg {} cs).1.state = .open_ ↔
      cfg.failureThreshold ≤ (failuresSinceSuccess cfg (calls cfg {} cs).2 : Int)) ∧
    ((calls cfg {} cs).1.state = .open_ → ∃ t, lastFailure cfg (calls cfg {} cs).2 = some t ∧
      (calls cfg {} cs).1.openedAt = some t) ∧
    ∀ c, (call cfg (calls cfg {} cs).1 c).2.invoked = false ↔ (calls cfg {} cs).1.state = .open_ ∧
      ∃ t, (calls cfg {} cs).1.openedAt = some t ∧ c.arrived - t < cfg.recoveryTimeout := by
  have ha : Agrees cfg (calls cfg {} cs).1 (calls cfg {} cs).2 := agrees_calls hT (agrees_new hT) hcs
  refine ⟨ha.settled, ⟨ha.reached, fun hle => ?_⟩, fun ho => ?_, fun c => call_rejected_iff _ c⟩
  · by_contra ho
    have hbelow := ha.fields.below (ha.closed ho)
    rw [ha.counted (ha.closed ho)] at hbelow
    omega
  · have hreached := ha.reached ho
    obtain ⟨t, ht⟩ := lastFailure_isSome (show 0 < failuresSinceSuccess cfg (calls cfg {} cs).2 by omega)
    exact ⟨t, ht, by rw [ha.dated ho, ht]⟩

/-- Two failures open the breaker of `twoFailures`, the call at 5 is rejected, the probe at 13 fails and the one at 30
succeeds. -/
def cycle : List (Made Unit) :=
  [⟨0, 1, .raised ()⟩, ⟨1, 3, .raised ()⟩, ⟨5, 5, .returned⟩, ⟨13, 14, .raised ()⟩, ⟨30, 31, .returned⟩]

theorem sequential_history_cycle :
    (calls twoFailures {} (cycle.take 4)).1.state ≠ .halfOpen ∧
    ((calls twoFailures {} (cycle.take 4)).1.state = .open_ ↔
      2 ≤ (failuresSinceSuccess twoFailures (calls twoFailures {} (cycle.take 4)).2 : Int)) ∧
    ((calls twoFailures {} (cycle.take 4)).1.state = .open_ →
      ∃ t, lastFailure twoFailures (calls twoFailures {} (cycle.take 4)).2 = some t ∧
        (calls twoFailures {} (cycle.take 4)).1.openedAt = some t) ∧
    ∀ c, (call twoFailures (calls twoFailures {} (cycle.take 4)).1 c).2.invoked = false ↔
      (calls twoFailures {} (cycle.take 4)).1.state = .open_ ∧
        ∃ t, (calls twoFailures {} (cycle.take 4)).1.openedAt = some t ∧ c.arrived - t < 10 :=
  sequential_history twoFailures (by decide) (cycle.take 4) (by
    intro c hc
    simp only [cycle, List.take, List.mem_cons, List.not_mem_nil, or_false] at hc
    rcases hc with rfl | rfl | rfl | rfl <;> trivial)

example : (calls twoFailures {} cycle).1 = {} ∧
    (calls twoFailures {} (cycle.take 4)).1 = ⟨.open_, 2, some 14⟩ := by decide +kernel

/-! ## One after another in the system of all calls -/

/-- Readings of a clock that never goes back, from `now` on. -/
def Ordered : ℚ → List (Made χ) → Prop
  | _, [] => True
  | now, c :: cs => now ≤ c.arrived ∧ c.arrived ≤ c.ended ∧ Ordered c.ended cs

theorem step_tick_to (cfg : Config χ) (t₀ : ℚ) {t : ℚ} {s : Sys} (h : s.now ≤ t) :
    (lts cfg t₀).step s (.tick (t - s.now)) = some { s with now := t } := by
  simp only [lts, step]
  rw [if_pos (sub_nonneg.2 h), add_sub_cancel]

theorem setCall_last {s : Sys} {l : List Call} {c : Call} (hs : s.calls = l ++ [c]) (d : Call) :
    (s.setCall l.length d).calls = l ++ [d] := by
  rw [Sys.setCall, hs, List.set_append_right _ _ (le_refl _)]
  simp

theorem step_finish_last (cfg : Config χ) (t₀ : ℚ) {s : Sys} {l : List Call} {a : Admission}
    (hs : s.calls = l ++ [.admitted a .func]) (e : Ending χ) :
    (lts cfg t₀).step s (.finish l.length e) = some (s.setCall l.length (.admitted a (afterFunc cfg e))) := by
  have hlast : s.calls[l.length]? = some (.admitted a .func) := by simp [hs]
  simp [lts, step, hlast]

theorem step_succeed_last {t₀ : ℚ} {s : Sys} {l : List Call} {a : Admission}
    (hs : s.calls = l ++ [.admitted a .onSuccess]) : (lts cfg t₀).step s (.settle l.length) =
      some ((s.assign (onSuccess s.breaker)).setCall l.length (.admitted a .ended)) := by
  have hlast : s.calls[l.length]? = some (.admitted a .onSuccess) := by simp [hs]
  simp [lts, step, hlast]

theorem step_fail_last {t₀ : ℚ} {s : Sys} {l : List Call} {a : Admission}
    (hs : s.calls = l ++ [.admitted a .onFailure]) : (lts cfg t₀).step s (.settle l.length) =
      some ((s.assign (onFailure cfg s.breaker s.now)).setCall l.length (.admitted a .ended)) := by
  have hlast : s.calls[l.length]? = some (.admitted a .onFailure) := by simp [hs]
  simp [lts, step, hlast]

/-- The end of the last call's `func` and the handler it leads to, with no other step between. -/
theorem handled_run (t₀ : ℚ) {s : Sys} {l : List Call} {a : Admission} {e : Ending χ} (he : e.Handled cfg)
    (hs : s.calls = l ++ [.admitted a .func]) :
    ∃ s', (lts cfg t₀).run s [.finish l.length e, .settle l.length] = some s' ∧ s'.now = s.now ∧
      s'.calls = l ++ [.admitted a .ended] ∧ s'.breaker = match afterFunc cfg e with
        | .onSuccess => onSuccess s.breaker
        | .onFailure => onFailure cfg s.breaker s.now
        | _ => s.breaker := by
  have hfinish := step_finish_last cfg t₀ hs e
  have hcalls := setCall_last hs (.admitted a (afterFunc cfg e))
  have two : ∀ {s'}, (lts cfg t₀).step (s.setCall l.length (.admitted a (afterFunc cfg e))) (.settle l.length) =
      some s' → (lts cfg t₀).run s [.finish l.length e, .settle l.length] = some s' := fun hsettle =>
    ((lts cfg t₀).run_cons).2 ⟨_, hfinish, ((lts cfg t₀).run_cons).2 ⟨_, hsettle, rfl⟩⟩
  cases e with
  | returned => exact ⟨_, two (step_succeed_last hcalls), rfl, setCall_last hcalls _, rfl⟩
  | raised exc =>
    have hfailed : afterFunc cfg (.raised exc) = .onFailure := if_pos he
    rw [hfailed] at hcalls two ⊢
    exact ⟨_, two (step_fail_last hcalls), rfl, setCall_last hcalls _, rfl⟩
  | cancelled => exact he.elim

/-- **`call` is a run of the system** in which nobody else moves. -/
theorem call_run (t₀ : ℚ) {s : Sys} {c : Made χ} (hc : c.ending.Handled cfg) (harrived : s.now ≤ c.arrived)
    (hended : c.arrived ≤ c.ended) :
    ∃ es s' k, (lts cfg t₀).run s es = some s' ∧ s'.now ≤ c.ended ∧ s'.breaker = (call cfg s.breaker c).1 ∧
      s'.calls = s.calls ++ [k] ∧ k.inFlight = false ∧ k.passed = (call cfg s.breaker c).2.invoked := by
  have htick := step_tick_to cfg t₀ harrived
  rcases beforeCall_cases cfg s.breaker c.arrived with ⟨ho, hr, hb⟩ | hadmitted
  · rw [call_rejected ho hr]
    refine ⟨[.tick (c.arrived - s.now), .beforeCall], { s with now := c.arrived, calls := s.calls ++ [.rejected] },
      .rejected, ?_, hended, rfl, rfl, rfl, rfl⟩
    exact ((lts cfg t₀).run_cons).2 ⟨_, htick, by simp [lts, step, hb, Lts.run]⟩
  · obtain ⟨cb, hb⟩ : ∃ cb, beforeCall cfg s.breaker c.arrived = .ok cb := by
      rcases hadmitted with ⟨-, -, hb⟩ | ⟨-, hb⟩ <;> exact ⟨_, hb⟩
    obtain ⟨hresult, hcb⟩ := call_of_beforeCall hb
    set m : Sys := Sys.pass { s with now := c.arrived } cb with hm
    have hpass : (lts cfg t₀).step { s with now := c.arrived } .beforeCall = some m := by simp [lts, step, hb, hm]
    have hwait := step_tick_to cfg t₀ (s := m) hended
    obtain ⟨s', hrun, hnow, hcalls, hbreaker⟩ :=
      handled_run t₀ hc (s := { m with now := c.ended }) (l := s.calls) rfl
    have hwhole := ((lts cfg t₀).run_cons).2 ⟨_, htick, ((lts cfg t₀).run_cons).2 ⟨_, hpass,
      ((lts cfg t₀).run_cons).2 ⟨_, hwait, hrun⟩⟩⟩
    refine ⟨_, s', _, hwhole, le_of_eq hnow, ?_, hcalls, rfl, ?_⟩
    · rw [hbreaker, hcb]
      rfl
    · rw [hresult]
      rfl

/-- **A sequence of calls is a run of the system of overlapping ones**, with the same breaker and the same calls let
through. -/
theorem calls_run (t₀ : ℚ) : ∀ {cs : List (Made χ)} {s : Sys}, (∀ c ∈ cs, c.ending.Handled cfg) → Ordered s.now cs →
    ∃ es s' ks, (lts cfg t₀).run s es = some s' ∧ s'.breaker = (calls cfg s.breaker cs).1 ∧
      s'.calls = s.calls ++ ks ∧ (∀ k ∈ ks, k.inFlight = false) ∧
      ks.map Call.passed = (calls cfg s.breaker cs).2.map (fun x => x.2.invoked)
  | [], s, _, _ => ⟨[], s, [], rfl, rfl, (List.append_nil _).symm, by simp, rfl⟩
  | c :: cs, s, hcs, ⟨harrived, hended, ho⟩ => by
    obtain ⟨es, m, k, hrun, hnow, hbreaker, hcalls, hk, hpassed⟩ :=
      call_run t₀ (hcs c List.mem_cons_self) harrived hended
    have hom : Ordered m.now cs := by
      cases cs with
      | nil => trivial
      | cons d ds => exact ⟨le_trans hnow ho.1, ho.2⟩
    obtain ⟨fs, s', ks, hrun', hbreaker', hcalls', hks, hpassed'⟩ :=
      calls_run t₀ (fun d hd => hcs d (List.mem_cons_of_mem _ hd)) hom
    refine ⟨es ++ fs, s', k :: ks, (lts cfg t₀).run_append.2 ⟨m, hrun, hrun'⟩, ?_, ?_, ?_, ?_⟩
    · rw [hbreaker', hbreaker]
      rfl
    · rw [hcalls', hcalls, List.append_assoc, List.singleton_append]
    · intro x hx
      rcases List.mem_cons.1 hx with rfl | hx
      · exact hk
      · exact hks x hx
    · rw [List.map_cons, hpassed, hpassed', hbreaker]
      rfl

end Breaker
end KafkaGuide
