import KafkaGuide.BreakerInv
/-!
# BreakerProbe — one probe per HALF_OPEN episode, and an episode that ends

`_before_call` rejects in OPEN only, so an episode has one probe exactly in the runs where no call arrives during it
(`single_probe_iff`).  `call` answers a `func` that ended by an exception outside `expected_exception`, or by
cancellation, with nothing: the breaker is never left HALF_OPEN with no call in flight exactly in the runs where the
last call in flight does not end so (`resolved_iff`).
-/
namespace KafkaGuide
namespace Breaker

variable {χ : Type} {cfg : Config χ}

/-! ## One probe -/

def inEpisode (k : Nat) : Option Admission → Bool
  | none => false
  | some a => decide (a.state = .halfOpen ∧ a.episode = k)

/-- How many calls the `k`-th episode admitted. -/
def Sys.probes (s : Sys) (k : Nat) : Nat := s.admissions.countP (inEpisode k)

/-- At most one call is admitted from each OPEN → HALF_OPEN to the end of its episode. -/
def SingleProbe (s : Sys) : Prop := ∀ k, s.probes k ≤ 1

/-- A call that arrives in HALF_OPEN raises `CircuitBreakerOpenError`. -/
def RejectsInHalfOpen (s : Sys) (e : Event χ) (s' : Sys) : Prop :=
  e = .beforeCall → s.breaker.state = .halfOpen → s'.calls = s.calls ++ [.rejected]

def ArrivesInHalfOpen (s : Sys) (e : Event χ) : Prop := e = .beforeCall ∧ s.breaker.state = .halfOpen

theorem probes_pass (s : Sys) (cb : CircuitBreaker) (k : Nat) : (s.pass cb).probes k =
    s.probes k + if cb.state = .halfOpen ∧ (s.assign cb).episodes = k then 1 else 0 := by
  unfold Sys.probes
  rw [pass_admissions, List.countP_append, List.countP_singleton]
  simp [inEpisode]

theorem probes_eq_zero {s : Sys} (h : Inv cfg s) {k : Nat} (hk : s.episodes < k) : s.probes k = 0 := by
  refine List.countP_eq_zero.2 (fun o ho hin => ?_)
  cases o with
  | none => cases hin
  | some a =>
    have := (h.dated a ho).2
    simp only [inEpisode, decide_eq_true_eq] at hin
    omega

theorem probes_pos {s : Sys} (h : Inv cfg s) (hs : s.breaker.state = .halfOpen) : 0 < s.probes s.episodes := by
  obtain ⟨a, ha, hst, hep⟩ := h.probed hs
  exact List.countP_pos_iff.2 ⟨some a, ha, by simp [inEpisode, hst, hep]⟩

/-- **A step adds a second probe exactly when it is an arrival in HALF_OPEN.** -/
theorem singleProbe_step (s : Sys) (e : Event χ) (s' : Sys) (h : Inv cfg s) (hst : step cfg s e = some s') :
    SingleProbe s' ↔ SingleProbe s ∧ ¬ ArrivesInHalfOpen s e := by
  have same : s'.admissions = s.admissions → ¬ ArrivesInHalfOpen s e →
      (SingleProbe s' ↔ SingleProbe s ∧ ¬ ArrivesInHalfOpen s e) := by
    intro ha hn
    simp [SingleProbe, Sys.probes, ha, hn]
  cases step_sound hst with
  | tick hd => exact same rfl (by simp [ArrivesInHalfOpen])
  | reject ho hr =>
    have hn : ¬ ArrivesInHalfOpen s (.beforeCall : Event χ) := by simp [ArrivesInHalfOpen, ho]
    simp [SingleProbe, Sys.probes, Sys.admissions, Call.admission, inEpisode, hn]
  | probe ho hr =>
    have hn : ¬ ArrivesInHalfOpen s (.beforeCall : Event χ) := by simp [ArrivesInHalfOpen, ho]
    have hnew := probes_eq_zero h (Nat.lt_succ_self s.episodes)
    have hep : (s.assign { s.breaker with state := .halfOpen }).episodes = s.episodes + 1 := by simp [Sys.assign, ho]
    simp only [hn, not_false_eq_true, and_true, SingleProbe, probes_pass, hep, true_and]
    refine forall_congr' (fun k => ?_)
    by_cases hk : s.episodes + 1 = k
    · subst hk
      simp [hnew]
    · simp [hk]
  | pass ho =>
    have hep : (s.assign s.breaker).episodes = s.episodes := by simp [Sys.assign, ho]
    by_cases hh : s.breaker.state = .halfOpen
    · have hpos := probes_pos h hh
      have hn : ¬ SingleProbe (s.pass s.breaker) := by
        intro hall
        have := hall s.episodes
        rw [probes_pass, hep, if_pos ⟨hh, rfl⟩] at this
        omega
      simp [hn, ArrivesInHalfOpen, hh]
    · simp [SingleProbe, probes_pass, hh, ArrivesInHalfOpen]
  | finish e hi => exact same (setCall_admissions hi) (by simp [ArrivesInHalfOpen])
  | succeed hi => exact same (by rw [setCall_admissions (by simpa using hi)]; rfl) (by simp [ArrivesInHalfOpen])
  | fail hi => exact same (by rw [setCall_admissions (by simpa using hi)]; rfl) (by simp [ArrivesInHalfOpen])

/-- **An episode admits its probe only, and rejects every other call, exactly when no call arrives during it.** -/
theorem single_probe_iff (cfg : Config χ) (t₀ : ℚ) (es : List (Event χ)) (s : Sys)
    (h : (lts cfg t₀).run (lts cfg t₀).init es = some s) :
    (SingleProbe s ∧ (lts cfg t₀).Along RejectsInHalfOpen (lts cfg t₀).init es) ↔
      (lts cfg t₀).Along (fun s e _ => ¬ ArrivesInHalfOpen s e) (lts cfg t₀).init es := by
  have h0 : SingleProbe (lts cfg t₀).init := fun k => by simp [lts, Sys.probes, Sys.admissions]
  rw [(lts cfg t₀).good_iff_along (inv_step cfg) singleProbe_step (inv_init cfg t₀) h]
  constructor
  · exact fun hs => hs.1.2
  · intro hs
    refine ⟨⟨h0, hs⟩, (lts cfg t₀).along_mono (fun s e s' _ hn he hh => ?_) hs⟩
    exact absurd ⟨he, hh⟩ hn

/-- A breaker with `CB_FAILURE_THRESHOLD=1` and the default recovery timeout; of the exceptions `true` is the expected
one. -/
def oneFailure : Config Bool where
  name := "payment-gateway"
  failureThreshold := 1
  expectedException := id

/-- A failure opens the breaker; ten seconds later two calls arrive before the first of them has an answer. -/
def overlapping : List (Event Bool) :=
  [.beforeCall, .finish 0 (.raised true), .settle 0, .tick 10, .beforeCall, .beforeCall]

/-- The two calls of `overlapping` are both let through, in one episode. -/
theorem overlapping_probes : ¬ ∀ s, (lts oneFailure 0).run (lts oneFailure 0).init overlapping = some s →
    SingleProbe s ∧ (lts oneFailure 0).Along RejectsInHalfOpen (lts oneFailure 0).init overlapping := by
  intro h
  have hs := (h ⟨⟨.halfOpen, 1, some 0⟩, 10, [.admitted ⟨.closed, 0, 0⟩ .ended, .admitted ⟨.halfOpen, 1, 1⟩ .func,
    .admitted ⟨.halfOpen, 1, 1⟩ .func], 1, 1⟩ (by decide +kernel)).1 1
  exact absurd hs (by decide +kernel)

def probing : Sys :=
  ⟨⟨.halfOpen, 1, some 0⟩, 10, [.admitted ⟨.closed, 0, 0⟩ .ended, .admitted ⟨.halfOpen, 1, 1⟩ .func], 1, 1⟩

theorem single_probe_iff_probing : (lts oneFailure 0).run (lts oneFailure 0).init (overlapping.take 5) = some probing ∧
    ((SingleProbe probing ∧ (lts oneFailure 0).Along RejectsInHalfOpen (lts oneFailure 0).init (overlapping.take 5)) ↔
      (lts oneFailure 0).Along (fun s e _ => ¬ ArrivesInHalfOpen s e) (lts oneFailure 0).init (overlapping.take 5)) :=
  ⟨by decide +kernel, single_probe_iff oneFailure 0 _ _ (by decide +kernel)⟩

/-! ## An episode that ends -/

/-- HALF_OPEN only while an admitted call is in flight. -/
def Resolved (s : Sys) : Prop := s.breaker.state = .halfOpen → ∃ c ∈ s.calls, c.inFlight = true

/-- An end of `func` that no clause of `call` handles: an exception that is not expected, or cancellation. -/
def Ending.Uncaught (cfg : Config χ) : Ending χ → Prop
  | .returned => False
  | .raised exc => cfg.expectedException exc = false
  | .cancelled => True

/-- The only call in flight ends uncaught while the breaker is HALF_OPEN. -/
def LosesProbe (cfg : Config χ) (s : Sys) (e : Event χ) : Prop :=
  ∃ i x, e = .finish i x ∧ s.breaker.state = .halfOpen ∧ x.Uncaught cfg ∧
    ∀ j c, s.calls[j]? = some c → c.inFlight = true → j = i

theorem afterFunc_eq_ended {x : Ending χ} : afterFunc cfg x = .ended ↔ x.Uncaught cfg := by
  cases x with
  | returned => simp [afterFunc, Ending.Uncaught]
  | raised exc => cases h : cfg.expectedException exc <;> simp [afterFunc, Ending.Uncaught, h]
  | cancelled => simp [afterFunc, Ending.Uncaught]

theorem onFailure_ne_halfOpen (cb : CircuitBreaker) (now : ℚ) : (onFailure cfg cb now).state ≠ .halfOpen := by
  rcases onFailure_cases cfg cb now with ⟨-, he⟩ | ⟨hs, -, he⟩ | ⟨-, -, he⟩
  · simp [he, doOpen]
  · simpa [he] using hs
  · simp [he, doOpen]

theorem inFlight_setCall {s : Sys} {i : Nat} {a : Admission} {q : Phase}
    (hi : s.calls[i]? = some (.admitted a .func)) :
    (∃ c ∈ (s.setCall i (.admitted a q)).calls, c.inFlight = true) ↔
      q ≠ .ended ∨ ∃ j c, j ≠ i ∧ s.calls[j]? = some c ∧ c.inFlight = true := by
  have hlt : i < s.calls.length := (List.getElem?_eq_some_iff.1 hi).1
  simp only [Sys.setCall, List.mem_iff_getElem?]
  constructor
  · rintro ⟨c, ⟨j, hj⟩, hc⟩
    rw [List.getElem?_set] at hj
    split at hj
    · cases hj
      exact .inl (by simpa [Call.inFlight] using hc)
    · exact .inr ⟨j, c, fun h => absurd h.symm ‹_›, hj, hc⟩
  · rintro (hq | ⟨j, c, hne, hj, hc⟩)
    · exact ⟨.admitted a q, ⟨i, by rw [List.getElem?_set_self hlt]⟩, by simpa [Call.inFlight] using hq⟩
    · exact ⟨c, ⟨j, by rw [List.getElem?_set_ne (Ne.symm hne)]; exact hj⟩, hc⟩

/-- **From a resolved state, a step loses the probe or leads to a resolved state.** -/
theorem resolved_step (s : Sys) (e : Event χ) (s' : Sys) (hg : Resolved s) (hst : step cfg s e = some s') :
    Resolved s' ↔ ¬ LosesProbe cfg s e := by
  cases step_sound hst with
  | tick hd => exact iff_of_true hg (by simp [LosesProbe])
  | reject ho hr =>
    refine iff_of_true (fun hs => ?_) (by simp [LosesProbe])
    rw [ho] at hs
    cases hs
  | probe ho hr => exact iff_of_true (fun _ => by simp [Sys.pass, Call.inFlight]) (by simp [LosesProbe])
  | pass ho => exact iff_of_true (fun _ => by simp [Sys.pass, Call.inFlight]) (by simp [LosesProbe])
  | @finish i a x hi =>
    rw [Resolved, inFlight_setCall hi, setCall_breaker, Ne, afterFunc_eq_ended]
    constructor
    · rintro h ⟨i', x', he, hs, hu, hall⟩
      cases he
      rcases h hs with h | ⟨j, c, hne, hj, hc⟩
      · exact h hu
      · exact hne (hall j c hj hc)
    · intro hn hs
      by_contra hcon
      simp only [not_or, not_not, not_exists, not_and] at hcon
      refine hn ⟨i, x, rfl, hs, hcon.1, fun j c hj hc => ?_⟩
      by_contra hne
      exact hcon.2 j c hne hj hc
  | succeed hi =>
    refine iff_of_true (fun hs => ?_) (by simp [LosesProbe])
    cases hs
  | fail hi => exact iff_of_true (fun hs => absurd hs (onFailure_ne_halfOpen _ _)) (by simp [LosesProbe])

/-- **Every state of a run is resolved exactly when no step of it loses the probe.** -/
theorem resolved_iff (cfg : Config χ) (t₀ : ℚ) (es : List (Event χ)) :
    (lts cfg t₀).Along (fun _ _ s' => Resolved s') (lts cfg t₀).init es ↔
      (lts cfg t₀).Along (fun s e _ => ¬ LosesProbe cfg s e) (lts cfg t₀).init es :=
  (lts cfg t₀).always_iff_along (I := fun _ => True) (fun _ _ _ _ _ _ _ => trivial)
    (fun s e s' _ hg hst => resolved_step s e s' hg hst) trivial (by intro hs; cases hs)

/-- The probe of `overlapping` is alone and its `func` raises what the breaker does not expect. -/
def lostProbe : List (Event Bool) := overlapping.take 5 ++ [.finish 1 (.raised false)]

/-- After `lostProbe` no call is in flight and the breaker is still HALF_OPEN. -/
theorem lostProbe_unresolved : ¬ ∀ s, (lts oneFailure 0).run (lts oneFailure 0).init lostProbe = some s →
    Resolved s := by
  intro h
  obtain ⟨c, hc, hf⟩ := h ⟨⟨.halfOpen, 1, some 0⟩, 10, [.admitted ⟨.closed, 0, 0⟩ .ended,
    .admitted ⟨.halfOpen, 1, 1⟩ .ended], 1, 1⟩ (by decide +kernel) rfl
  simp only [List.mem_cons, List.not_mem_nil, or_false] at hc
  rcases hc with rfl | rfl <;> cases hf

end Breaker
end KafkaGuide
