import KafkaGuide.BreakerInv
/-!
# BreakerEdges — the breaker's transitions against its state diagram

`_on_success` and `_on_failure` act on the breaker as they find it, whenever their call was admitted.  So the breaker
keeps to the four edges of its diagram, and is left alone by the calls it outlived, exactly in the runs where no call
admitted before the breaker opened completes to an effect (`disciplined_iff`).
-/
namespace KafkaGuide
namespace Breaker

variable {χ : Type} {cfg : Config χ}

/-- `(state, opened_at)`. -/
def Sys.pair (s : Sys) : CircuitState × Option ℚ := (s.breaker.state, s.breaker.openedAt)

/-- **The four edges of the state diagram**, as a step of the system takes them. -/
inductive Edge (cfg : Config χ) (s : Sys) (e : Event χ) (s' : Sys) : Prop where
  | trip (hs : s.breaker.state = .closed) (hs' : s'.breaker.state = .open_)
  | recover (t : ℚ) (hs : s.breaker.state = .open_) (ht : s.breaker.openedAt = some t)
      (hr : cfg.recoveryTimeout ≤ s.now - t) (hs' : s'.breaker.state = .halfOpen)
  | heal (i : Nat) (a : Admission) (he : e = .settle i) (hi : s.calls[i]? = some (.admitted a .onSuccess))
      (hs : s.breaker.state = .halfOpen) (ha : a.state = .halfOpen ∧ a.episode = s.episodes)
      (hs' : s'.breaker.state = .closed)
  | relapse (i : Nat) (a : Admission) (he : e = .settle i) (hi : s.calls[i]? = some (.admitted a .onFailure))
      (hs : s.breaker.state = .halfOpen) (ha : a.state = .halfOpen ∧ a.episode = s.episodes)
      (hs' : s'.breaker.state = .open_)

/-- A step changes the pair along an edge only, and the completion of a call admitted before the breaker opened does
not change it. -/
def Disciplined (cfg : Config χ) (s : Sys) (e : Event χ) (s' : Sys) : Prop :=
  (s'.pair = s.pair ∨ Edge cfg s e s') ∧
  ∀ i a p, e = .settle i → s.calls[i]? = some (.admitted a p) → a.opens < s.opens → s'.pair = s.pair

/-- A completion that finds nothing to change: a success in CLOSED; a failure in CLOSED short of the threshold, or in
OPEN at the very reading `opened_at`. -/
def Harmless (cfg : Config χ) (s : Sys) : Phase → Prop
  | .onSuccess => s.breaker.state = .closed
  | .onFailure => (s.breaker.state = .closed ∧ (s.breaker.failureCount : Int) + 1 < cfg.failureThreshold) ∨
      (s.breaker.state = .open_ ∧ s.breaker.openedAt = some s.now)
  | _ => True

def Timely (cfg : Config χ) (s : Sys) (e : Event χ) : Prop :=
  ∀ i a p, e = .settle i → s.calls[i]? = some (.admitted a p) → a.opens < s.opens → Harmless cfg s p

theorem timely_of_ne {s : Sys} {e : Event χ} (he : ∀ i, e ≠ .settle i) : Timely cfg s e :=
  fun i _ _ h => absurd h (he i)

theorem disciplined_of_ne {s s' : Sys} {e : Event χ} (he : ∀ i, e ≠ .settle i)
    (h : s'.pair = s.pair ∨ Edge cfg s e s') : Disciplined cfg s e s' :=
  ⟨h, fun i _ _ hi => absurd hi (he i)⟩

/-- **The completion of a call the breaker outlived** is disciplined exactly when it changes nothing. -/
theorem disciplined_stale {s s' : Sys} {i : Nat} {a : Admission} {p : Phase}
    (hi : s.calls[i]? = some (.admitted a p)) (ha : a.opens < s.opens) :
    Disciplined cfg s (.settle i) s' ↔ s'.pair = s.pair := by
  constructor
  · intro h
    exact h.2 i a p rfl hi ha
  · intro h
    exact ⟨.inl h, fun _ _ _ _ _ _ => h⟩

theorem timely_stale {s : Sys} {i : Nat} {a : Admission} {p : Phase} (hi : s.calls[i]? = some (.admitted a p))
    (ha : a.opens < s.opens) : Timely cfg s (.settle i) ↔ Harmless cfg s p := by
  constructor
  · intro h
    exact h i a p rfl hi ha
  · intro h j b q he hj _
    cases he
    rw [hi] at hj
    cases hj
    exact h

theorem settle_fresh {s s' : Sys} {i : Nat} {a : Admission} {p : Phase} (hi : s.calls[i]? = some (.admitted a p))
    (ha : ¬ a.opens < s.opens) (h : s'.pair = s.pair ∨ Edge cfg s (.settle i) s') :
    Disciplined cfg s (.settle i) s' ↔ Timely cfg s (.settle i) := by
  have no : ∀ {j b q}, (.settle i : Event χ) = .settle j → s.calls[j]? = some (.admitted b q) →
      ¬ b.opens < s.opens := by
    intro j b q he hj
    cases he
    rw [hi] at hj
    cases hj
    exact ha
  exact iff_of_true ⟨h, fun j b q he hj hb => absurd hb (no he hj)⟩ (fun j b q he hj hb => absurd hb (no he hj))

/-- A fresh call completes in CLOSED, or in the HALF_OPEN episode that admitted it. -/
theorem fresh_cases {s : Sys} (h : Inv cfg s) {i : Nat} {a : Admission} {p : Phase}
    (hi : s.calls[i]? = some (.admitted a p)) (ha : ¬ a.opens < s.opens) : s.breaker.state = .closed ∨
      s.breaker.state = .halfOpen ∧ a.state = .halfOpen ∧ a.episode = s.episodes := by
  have hm := mem_admissions hi
  have hle := (h.dated a hm).1
  cases hs : s.breaker.state with
  | closed => exact .inl rfl
  | open_ => exact absurd (h.stale hs a hm) ha
  | halfOpen => exact .inr ⟨rfl, (h.current hs a hm).1 (by omega)⟩

theorem closed_pair {s : Sys} (h : Inv cfg s) : s.pair = (.closed, none) ↔ s.breaker.state = .closed := by
  simp only [Sys.pair, Prod.mk.injEq]
  exact ⟨fun hp => hp.1, fun hs => ⟨hs, h.closed_iff.1 hs⟩⟩

/-- **`_on_failure` keeps the pair exactly when it is harmless.** -/
theorem onFailure_pair {s : Sys} (h : Inv cfg s) :
    ((onFailure cfg s.breaker s.now).state, (onFailure cfg s.breaker s.now).openedAt) = s.pair ↔
      Harmless cfg s .onFailure := by
  rcases onFailure_cases cfg s.breaker s.now with ⟨hs, he⟩ | ⟨hs, ht, he⟩ | ⟨hs, ht, he⟩
  · simp [he, Sys.pair, Harmless, doOpen, hs]
  · have hc : s.breaker.state = .closed := by
      by_contra hne
      have := h.tripped hne
      omega
    simp [he, Sys.pair, Harmless, hc, ht]
  · have hn : ¬ (s.breaker.failureCount : Int) + 1 < cfg.failureThreshold := by omega
    cases hst : s.breaker.state with
    | closed => simp [he, Sys.pair, Harmless, doOpen, hst, hn]
    | open_ => simp [he, Sys.pair, Harmless, doOpen, hst, eq_comm]
    | halfOpen => exact absurd hst hs

/-- **A step is disciplined exactly when it is timely.** -/
theorem disciplined_step (s : Sys) (e : Event χ) (s' : Sys) (h : Inv cfg s) (hst : step cfg s e = some s') :
    Disciplined cfg s e s' ↔ Timely cfg s e := by
  cases step_sound hst with
  | tick hd => exact iff_of_true (disciplined_of_ne (by simp) (.inl rfl)) (timely_of_ne (by simp))
  | reject ho hr => exact iff_of_true (disciplined_of_ne (by simp) (.inl rfl)) (timely_of_ne (by simp))
  | probe ho hr =>
    refine iff_of_true (disciplined_of_ne (by simp) (.inr ?_)) (timely_of_ne (by simp))
    cases ht : s.breaker.openedAt with
    | none =>
      have := h.closed_iff.2 ht
      rw [ho] at this
      cases this
    | some t => exact .recover t ho ht (by simpa [shouldAttemptRecovery, ht] using hr) rfl
  | pass ho => exact iff_of_true (disciplined_of_ne (by simp) (.inl rfl)) (timely_of_ne (by simp))
  | finish e hi => exact iff_of_true (disciplined_of_ne (by simp) (.inl rfl)) (timely_of_ne (by simp))
  | @succeed i a hi =>
    by_cases ha : a.opens < s.opens
    · rw [disciplined_stale hi ha, timely_stale hi ha]
      exact eq_comm.trans (closed_pair h)
    · refine settle_fresh hi ha ?_
      rcases fresh_cases h hi ha with hs | ⟨hs, hep⟩
      · exact .inl ((closed_pair h).2 hs).symm
      · exact .inr (.heal i a rfl hi hs hep rfl)
  | @fail i a hi =>
    by_cases ha : a.opens < s.opens
    · rw [disciplined_stale hi ha, timely_stale hi ha]
      exact onFailure_pair h
    · refine settle_fresh hi ha ?_
      rcases fresh_cases h hi ha with hs | ⟨hs, hep⟩
      · rcases onFailure_cases cfg s.breaker s.now with ⟨hs', -⟩ | ⟨-, -, he⟩ | ⟨-, -, he⟩
        · rw [hs] at hs'
          cases hs'
        · exact .inl (by simp [Sys.pair, he])
        · exact .inr (.trip hs (by simp [he, doOpen]))
      · exact .inr (.relapse i a rfl hi hs hep (by simp [onFailure, hs, doOpen]))

/-- **The breaker keeps to its diagram, untouched by the calls it outlived, exactly when every completion of such a
call is harmless.** -/
theorem disciplined_iff (cfg : Config χ) (t₀ : ℚ) (es : List (Event χ)) :
    (lts cfg t₀).Along (Disciplined cfg) (lts cfg t₀).init es ↔
      (lts cfg t₀).Along (fun s e _ => Timely cfg s e) (lts cfg t₀).init es :=
  (lts cfg t₀).along_iff (inv_step cfg) disciplined_step (inv_init cfg t₀)

def tripsAtOnce : Config Unit where
  name := "payment-gateway"
  failureThreshold := 1

/-- Two calls overlap: the first fails and opens the breaker, the second then succeeds. -/
def lateSuccess : List (Event Unit) :=
  [.beforeCall, .beforeCall, .finish 0 (.raised ()), .settle 0, .tick 1, .finish 1 .returned, .settle 1]

/-- The late success closes the breaker it was admitted before the opening of, one second into its ten. -/
theorem lateSuccess_undisciplined :
    ¬ (lts tripsAtOnce 0).Along (Disciplined tripsAtOnce) (lts tripsAtOnce 0).init lateSuccess := by
  intro h
  have hrun : (lts tripsAtOnce 0).run (lts tripsAtOnce 0).init (lateSuccess.take 6) = some ⟨⟨.open_, 1, some 0⟩, 1,
      [.admitted ⟨.closed, 0, 0⟩ .ended, .admitted ⟨.closed, 0, 0⟩ .onSuccess], 1, 0⟩ := by decide +kernel
  have hsplit : lateSuccess = lateSuccess.take 6 ++ [.settle 1] := rfl
  rw [hsplit, (lts tripsAtOnce 0).along_append hrun] at h
  have hlast := h.2
  have hpair := ((lts tripsAtOnce 0).along_cons rfl).1 hlast |>.1.2 1 _ _ rfl rfl (by decide)
  cases congrArg Prod.fst hpair

end Breaker
end KafkaGuide
