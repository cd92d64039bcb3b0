import KafkaGuide.Breaker
/-!
# BreakerFields — the representation invariant of a breaker

Each method keeps the three fields in step with one another, from each of the three states: a call may end long after
the state that admitted it is gone.  The clock may do anything here, even go back.
-/
namespace KafkaGuide
namespace Breaker

variable {χ : Type} {cfg : Config χ}

/-- **The three fields agree**: `opened_at` is set while the breaker is not CLOSED, and `failure_count` is then at the
threshold, below it otherwise. -/
structure Fields (cfg : Config χ) (cb : CircuitBreaker) : Prop where
  closed_iff : cb.state = .closed ↔ cb.openedAt = none
  below : cb.state = .closed → (cb.failureCount : Int) < cfg.failureThreshold
  tripped : cb.state ≠ .closed → cfg.failureThreshold ≤ (cb.failureCount : Int)

theorem fields_new (hT : 1 ≤ cfg.failureThreshold) : Fields cfg {} where
  closed_iff := by simp
  below := by
    intro _
    exact Int.lt_of_lt_of_le Int.zero_lt_one hT
  tripped := by
    intro hne
    exact absurd rfl hne

theorem fields_doOpen {cb : CircuitBreaker} (hcount : cfg.failureThreshold ≤ (cb.failureCount : Int)) (now : ℚ) :
    Fields cfg (doOpen cb now) where
  closed_iff := by simp [doOpen]
  below := by simp [doOpen]
  tripped := fun _ => hcount

theorem Fields.halfOpen {cb : CircuitBreaker} (h : Fields cfg cb) (ho : cb.state = .open_) :
    Fields cfg { cb with state := .halfOpen } := by
  have hopened : cb.openedAt ≠ none := by
    intro hn
    have hclosed := h.closed_iff.2 hn
    rw [ho] at hclosed
    cases hclosed
  constructor
  · simpa using hopened
  · simp
  · intro _
    apply h.tripped
    simp [ho]

theorem Fields.onFailure {cb : CircuitBreaker} (h : Fields cfg cb) (now : ℚ) : Fields cfg (onFailure cfg cb now) := by
  rcases onFailure_cases cfg cb now with ⟨hs, he⟩ | ⟨-, hlt, he⟩ | ⟨-, hle, he⟩
  · rw [he]
    apply fields_doOpen
    exact h.tripped (by simp [hs])
  · have hclosed : cb.state = .closed := by
      by_contra hne
      have := h.tripped hne
      omega
    rw [he]
    exact ⟨h.closed_iff, fun _ => by simpa using hlt, fun hne => absurd hclosed hne⟩
  · rw [he]
    apply fields_doOpen
    simpa using hle

/-! ## Runs under any clock -/

/-- The calls on a new breaker when a tick may move the clock by any amount, forth or back. -/
def anyClock (cfg : Config χ) (t₀ : ℚ) : Lts Sys (Event χ) where
  init := { now := t₀ }
  step s e := match e with
    | .tick d => some { s with now := s.now + d }
    | e => step cfg s e

theorem anyClock_of_lts {t₀ : ℚ} {s s' : Sys} {e : Event χ} (h : (lts cfg t₀).step s e = some s') :
    (anyClock cfg t₀).step s e = some s' := by
  cases e with
  | tick d =>
    simp only [lts, step] at h
    split at h
    · exact h
    · cases h
  | beforeCall => exact h
  | finish i e => exact h
  | settle i => exact h

/-- **What a step does to the fields**: they stay, a probe turns them HALF_OPEN, a call succeeds or fails. -/
theorem anyClock_breaker {t₀ : ℚ} {s s' : Sys} {e : Event χ} (h : (anyClock cfg t₀).step s e = some s') :
    s'.breaker = s.breaker ∨
    (s.breaker.state = .open_ ∧ s'.breaker = { s.breaker with state := .halfOpen }) ∨
    s'.breaker = onSuccess s.breaker ∨
    s'.now = s.now ∧ s'.breaker = onFailure cfg s.breaker s.now := by
  cases e with
  | tick d =>
    cases h
    exact .inl rfl
  | beforeCall =>
    cases step_sound (show step cfg s .beforeCall = some s' from h) with
    | reject ho hr => exact .inl rfl
    | probe ho hr => exact .inr (.inl ⟨ho, rfl⟩)
    | pass ho => exact .inl rfl
  | finish i e =>
    cases step_sound (show step cfg s (.finish i e) = some s' from h) with
    | finish e hi => exact .inl rfl
  | settle i =>
    cases step_sound (show step cfg s (.settle i) = some s' from h) with
    | succeed hi => exact .inr (.inr (.inl rfl))
    | fail hi => exact .inr (.inr (.inr ⟨rfl, rfl⟩))

/-- `_on_failure` leaves `opened_at` or sets it to the reading of the clock. -/
theorem onFailure_openedAt (cfg : Config χ) (cb : CircuitBreaker) (now : ℚ) :
    (onFailure cfg cb now).openedAt = cb.openedAt ∨ (onFailure cfg cb now).openedAt = some now := by
  rcases onFailure_cases cfg cb now with ⟨-, he⟩ | ⟨-, -, he⟩ | ⟨-, -, he⟩
  · exact .inr (by rw [he]; rfl)
  · exact .inl (by rw [he])
  · exact .inr (by rw [he]; rfl)

/-- The fields agree, and `opened_at` is a reading the clock had on the way. -/
structure Dated (cfg : Config χ) (t₀ : ℚ) (es : List (Event χ)) (s : Sys) : Prop where
  fields : Fields cfg s.breaker
  read : ∀ t, s.breaker.openedAt = some t → (anyClock cfg t₀).Met (fun m => m.now = t) es

theorem dated_step {t₀ : ℚ} (es : List (Event χ)) (s : Sys) (e : Event χ) (s' : Sys) (h : Dated cfg t₀ es s)
    (hT : 1 ≤ cfg.failureThreshold) (hrun : (anyClock cfg t₀).run (anyClock cfg t₀).init es = some s)
    (hst : (anyClock cfg t₀).step s e = some s') : Dated cfg t₀ (es ++ [e]) s' := by
  have kept : s'.breaker.openedAt = s.breaker.openedAt →
      ∀ t, s'.breaker.openedAt = some t → (anyClock cfg t₀).Met (fun m => m.now = t) (es ++ [e]) := by
    intro heq t ht
    rw [heq] at ht
    exact (h.read t ht).append [e]
  rcases anyClock_breaker hst with hb | ⟨ho, hb⟩ | hb | ⟨hnow, hb⟩
  · exact ⟨by rw [hb]; exact h.fields, kept (by rw [hb])⟩
  · exact ⟨by rw [hb]; exact h.fields.halfOpen ho, kept (by rw [hb])⟩
  · refine ⟨by rw [hb]; exact fields_new hT, fun t ht => ?_⟩
    rw [hb] at ht
    cases ht
  · refine ⟨by rw [hb]; exact h.fields.onFailure s.now, fun t ht => ?_⟩
    rcases onFailure_openedAt cfg s.breaker s.now with hsame | hset
    · exact kept (by rw [hb, hsame]) t ht
    · rw [hb, hset] at ht
      cases ht
      exact (anyClock cfg t₀).met_of_run ((anyClock cfg t₀).run_append.2
        ⟨s, hrun, ((anyClock cfg t₀).run_cons).2 ⟨s', hst, rfl⟩⟩) hnow

/-- A clock that never goes back. -/
def Forward (es : List (Event χ)) : Prop := ∀ d, .tick d ∈ es → 0 ≤ d

theorem now_le_of_forward {t₀ : ℚ} : ∀ {es : List (Event χ)} {s s' : Sys}, Forward es →
    (anyClock cfg t₀).run s es = some s' → s.now ≤ s'.now
  | [], s, s', _, h => by
    cases h
    exact le_refl s.now
  | e :: es, s, s', hf, h => by
    obtain ⟨m, hst, h'⟩ := (anyClock cfg t₀).run_cons.1 h
    have htail := now_le_of_forward (fun d hd => hf d (List.mem_cons_of_mem _ hd)) h'
    refine le_trans ?_ htail
    cases e with
    | tick d =>
      cases hst
      exact le_add_of_nonneg_right (hf d List.mem_cons_self)
    | beforeCall =>
      cases step_sound (show step cfg s .beforeCall = some m from hst) <;> exact le_refl s.now
    | finish i e =>
      cases step_sound (show step cfg s (.finish i e) = some m from hst)
      exact le_refl s.now
    | settle i =>
      cases step_sound (show step cfg s (.settle i) = some m from hst) <;> exact le_refl s.now

/-- **The representation invariant**: in every reachable state, `opened_at` is unset exactly in CLOSED, where
`failure_count` is below the threshold; otherwise `failure_count` has reached it, and `opened_at` is a reading the clock
had on the way, so one that is past when the clock never goes back. -/
theorem representation (cfg : Config χ) (hT : 1 ≤ cfg.failureThreshold) (t₀ : ℚ) (es : List (Event χ)) (s : Sys)
    (h : (anyClock cfg t₀).run (anyClock cfg t₀).init es = some s) :
    (s.breaker.state = .closed ↔ s.breaker.openedAt = none) ∧
    (s.breaker.state = .closed →
      0 ≤ (s.breaker.failureCount : Int) ∧ (s.breaker.failureCount : Int) < cfg.failureThreshold) ∧
    (s.breaker.state = .open_ ∨ s.breaker.state = .halfOpen →
      cfg.failureThreshold ≤ (s.breaker.failureCount : Int) ∧
      ∃ t, s.breaker.openedAt = some t ∧ (anyClock cfg t₀).Met (fun m => m.now = t) es ∧
        (Forward es → t ≤ s.now)) := by
  have hd : Dated cfg t₀ es s := by
    apply (anyClock cfg t₀).history_inv (I := Dated cfg t₀) ?_ ?_ h
    · exact ⟨fields_new hT, fun t ht => by cases ht⟩
    · intro es s e s' hd hrun hst
      exact dated_step es s e s' hd hT hrun hst
  refine ⟨hd.fields.closed_iff, fun hc => ⟨Int.natCast_nonneg _, hd.fields.below hc⟩, fun hs => ?_⟩
  have hne : s.breaker.state ≠ .closed := by
    rcases hs with hs | hs <;> simp [hs]
  refine ⟨hd.fields.tripped hne, ?_⟩
  obtain ⟨t, ht⟩ : ∃ t, s.breaker.openedAt = some t := by
    cases ho : s.breaker.openedAt with
    | none => exact absurd (hd.fields.closed_iff.2 ho) hne
    | some t => exact ⟨t, rfl⟩
  refine ⟨t, ht, hd.read t ht, fun hf => ?_⟩
  obtain ⟨fs, gs, m, rfl, hm, rfl⟩ := hd.read t ht
  obtain ⟨m', hm', hgs⟩ := (anyClock cfg t₀).run_append.1 h
  rw [hm] at hm'
  cases hm'
  exact now_le_of_forward (fun d hd => hf d (List.mem_append_right _ hd)) hgs

/-- A breaker that opens at its second failure and expects any exception. -/
def twoFailures : Config Unit where
  name := "payment-gateway"
  failureThreshold := 2

/-- Three calls overlap: the second failure opens the breaker at 4, the third finds it OPEN at 6. -/
def staleFailure : List (Event Unit) :=
  [.beforeCall, .beforeCall, .beforeCall, .finish 0 (.raised ()), .settle 0, .tick 4, .finish 1 (.raised ()), .settle 1,
    .tick 2, .finish 2 (.raised ()), .settle 2]

def staleFailed : Sys :=
  ⟨⟨.open_, 3, some 6⟩, 6, [.admitted ⟨.closed, 0, 0⟩ .ended, .admitted ⟨.closed, 0, 0⟩ .ended,
    .admitted ⟨.closed, 0, 0⟩ .ended], 1, 0⟩

theorem representation_staleFailure : (staleFailed.breaker.state = .closed ↔ staleFailed.breaker.openedAt = none) ∧
    (staleFailed.breaker.state = .closed →
      0 ≤ (staleFailed.breaker.failureCount : Int) ∧ (staleFailed.breaker.failureCount : Int) < 2) ∧
    (staleFailed.breaker.state = .open_ ∨ staleFailed.breaker.state = .halfOpen →
      2 ≤ (staleFailed.breaker.failureCount : Int) ∧
      ∃ t, staleFailed.breaker.openedAt = some t ∧ (anyClock twoFailures 0).Met (fun m => m.now = t) staleFailure ∧
        (Forward staleFailure → t ≤ staleFailed.now)) :=
  representation twoFailures (by decide) 0 staleFailure staleFailed (by decide +kernel)

end Breaker
end KafkaGuide
