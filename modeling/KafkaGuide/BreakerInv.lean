import KafkaGuide.Breaker
/-!
# BreakerInv — what every reachable state of the calls on a breaker satisfies

Only a `_before_call` dates a call, so an invariant about the dates is one about the list `Sys.admissions`, which every
other step leaves as it was.
-/
namespace KafkaGuide
namespace Breaker

variable {χ : Type} {cfg : Config χ}

def Call.admission : Call → Option Admission
  | .rejected => none
  | .admitted a _ => some a

def Sys.admissions (s : Sys) : List (Option Admission) := s.calls.map Call.admission

/-- A call whose `func`, `_on_success` or `_on_failure` is still to end. -/
def Call.inFlight : Call → Bool
  | .rejected => false
  | .admitted _ p => decide (p ≠ .ended)

@[simp] theorem assign_calls (s : Sys) (cb : CircuitBreaker) : (s.assign cb).calls = s.calls := rfl
@[simp] theorem assign_breaker (s : Sys) (cb : CircuitBreaker) : (s.assign cb).breaker = cb := rfl
@[simp] theorem setCall_breaker (s : Sys) (i : Nat) (c : Call) : (s.setCall i c).breaker = s.breaker := rfl
@[simp] theorem pass_breaker (s : Sys) (cb : CircuitBreaker) : (s.pass cb).breaker = cb := rfl
@[simp] theorem pass_opens (s : Sys) (cb : CircuitBreaker) : (s.pass cb).opens = (s.assign cb).opens := rfl
@[simp] theorem pass_episodes (s : Sys) (cb : CircuitBreaker) : (s.pass cb).episodes = (s.assign cb).episodes := rfl

@[simp] theorem pass_admissions (s : Sys) (cb : CircuitBreaker) : (s.pass cb).admissions =
    s.admissions ++ [some ⟨cb.state, (s.assign cb).opens, (s.assign cb).episodes⟩] := by
  simp [Sys.pass, Sys.admissions, Call.admission]

theorem setCall_admissions {s : Sys} {i : Nat} {a : Admission} {p q : Phase}
    (h : s.calls[i]? = some (.admitted a p)) : (s.setCall i (.admitted a q)).admissions = s.admissions := by
  unfold Sys.admissions Sys.setCall
  rw [List.map_set]
  apply List.ext_getElem?
  intro j
  rw [List.getElem?_set]
  split
  · rename_i hij
    subst hij
    obtain ⟨hi, hc⟩ := List.getElem?_eq_some_iff.1 h
    simp [hi, hc, Call.admission]
  · rfl

theorem mem_admissions {s : Sys} {i : Nat} {a : Admission} {p : Phase} (h : s.calls[i]? = some (.admitted a p)) :
    some a ∈ s.admissions :=
  List.mem_map.2 ⟨_, List.mem_of_getElem? h, rfl⟩

/-- **The inductive invariant.**  The first two parts are about the breaker's own fields; the others say when a call of
each age can have been admitted. -/
structure Inv (cfg : Config χ) (s : Sys) : Prop where
  closed_iff : s.breaker.state = .closed ↔ s.breaker.openedAt = none
  tripped : s.breaker.state ≠ .closed → cfg.failureThreshold ≤ (s.breaker.failureCount : Int)
  dated : ∀ a, some a ∈ s.admissions → a.opens ≤ s.opens ∧ a.episode ≤ s.episodes
  stale : s.breaker.state = .open_ → ∀ a, some a ∈ s.admissions → a.opens < s.opens
  current : s.breaker.state = .halfOpen → ∀ a, some a ∈ s.admissions →
    (a.opens = s.opens ↔ a.state = .halfOpen ∧ a.episode = s.episodes)
  probed : s.breaker.state = .halfOpen → ∃ a, some a ∈ s.admissions ∧ a.state = .halfOpen ∧ a.episode = s.episodes

theorem inv_init (cfg : Config χ) (t₀ : ℚ) : Inv cfg (lts cfg t₀).init := by
  constructor <;> simp [lts, Sys.admissions]

theorem Inv.congr {s s' : Sys} (h : Inv cfg s) (hb : s'.breaker = s.breaker) (ho : s'.opens = s.opens)
    (he : s'.episodes = s.episodes) (ha : ∀ a, some a ∈ s'.admissions ↔ some a ∈ s.admissions) : Inv cfg s' := by
  obtain ⟨h1, h2, h3, h4, h5, h6⟩ := h
  constructor
  case closed_iff => rwa [hb]
  case tripped => rwa [hb]
  case dated =>
    intro a hm
    rw [ho, he]
    exact h3 a ((ha a).1 hm)
  case stale =>
    intro hs a hm
    rw [ho]
    exact h4 (hb ▸ hs) a ((ha a).1 hm)
  case current =>
    intro hs a hm
    rw [ho, he]
    exact h5 (hb ▸ hs) a ((ha a).1 hm)
  case probed =>
    intro hs
    obtain ⟨a, hm, h⟩ := h6 (hb ▸ hs)
    exact ⟨a, (ha a).2 hm, by rwa [he]⟩

theorem Inv.probe {s : Sys} (h : Inv cfg s) (ho : s.breaker.state = .open_) :
    Inv cfg (s.pass { s.breaker with state := .halfOpen }) := by
  have hclosed : s.breaker.openedAt ≠ none := fun hn => by
    have := h.closed_iff.2 hn
    rw [ho] at this
    cases this
  constructor
  case closed_iff => simpa using hclosed
  case tripped =>
    intro _
    exact h.tripped (by simp [ho])
  case dated =>
    intro a ha
    rw [pass_admissions, List.mem_append] at ha
    rcases ha with ha | ha
    · have := h.dated a ha
      simp only [pass_opens, pass_episodes, Sys.assign, ho]
      simp
      omega
    · simp only [List.mem_singleton, Option.some.injEq] at ha
      subst ha
      exact ⟨le_refl _, le_refl _⟩
  case stale =>
    intro hs
    cases hs
  case current =>
    intro _ a ha
    rw [pass_admissions, List.mem_append] at ha
    rcases ha with ha | ha
    · have h1 := h.stale ho a ha
      have h2 := (h.dated a ha).2
      simp only [pass_opens, pass_episodes, Sys.assign, ho]
      simp
      omega
    · simp only [List.mem_singleton, Option.some.injEq] at ha
      subst ha
      simp
  case probed =>
    intro _
    exact ⟨_, by rw [pass_admissions]; exact List.mem_append_right _ (List.mem_singleton.2 rfl), rfl, rfl⟩

theorem Inv.pass {s : Sys} (h : Inv cfg s) (ho : s.breaker.state ≠ .open_) : Inv cfg (s.pass s.breaker) := by
  have hopens : (s.assign s.breaker).opens = s.opens := by simp [Sys.assign]
  have hepis : (s.assign s.breaker).episodes = s.episodes := by simp [Sys.assign, ho]
  have hmem : ∀ a, some a ∈ (s.pass s.breaker).admissions →
      some a ∈ s.admissions ∨ a = ⟨s.breaker.state, s.opens, s.episodes⟩ := by
    intro a ha
    rw [pass_admissions, List.mem_append, hopens, hepis] at ha
    rcases ha with ha | ha
    · exact .inl ha
    · exact .inr (Option.some.inj (List.mem_singleton.1 ha))
  constructor
  case closed_iff => exact h.closed_iff
  case tripped => exact h.tripped
  case dated =>
    intro a ha
    rw [pass_opens, pass_episodes, hopens, hepis]
    rcases hmem a ha with ha | rfl
    · exact h.dated a ha
    · exact ⟨le_refl _, le_refl _⟩
  case stale =>
    intro hs
    exact absurd hs ho
  case current =>
    intro hs a ha
    rw [pass_opens, pass_episodes, hopens, hepis]
    rcases hmem a ha with ha | rfl
    · exact h.current hs a ha
    · simpa using hs
  case probed =>
    intro hs
    obtain ⟨a, ha, h⟩ := h.probed hs
    refine ⟨a, ?_, by rwa [pass_episodes, hepis]⟩
    rw [pass_admissions]
    exact List.mem_append_left _ ha

theorem Inv.close {s : Sys} (h : Inv cfg s) {cb : CircuitBreaker} (hs : cb.state = .closed) (ho : cb.openedAt = none) :
    Inv cfg (s.assign cb) := by
  constructor
  case closed_iff => simp [hs, ho]
  case tripped =>
    intro hne
    exact absurd hs hne
  case dated =>
    intro a ha
    have := h.dated a ha
    simp only [Sys.assign, hs]
    simpa using this
  case stale =>
    intro hs'
    simp [hs] at hs'
  case current =>
    intro hs'
    simp [hs] at hs'
  case probed =>
    intro hs'
    simp [hs] at hs'

theorem Inv.opened {s : Sys} (h : Inv cfg s) {cb : CircuitBreaker} (hs : cb.state = .open_) (ho : cb.openedAt ≠ none)
    (ht : cfg.failureThreshold ≤ (cb.failureCount : Int)) : Inv cfg (s.assign cb) := by
  constructor
  case closed_iff => simp [hs, ho]
  case tripped => exact fun _ => ht
  case dated =>
    intro a ha
    have := h.dated a ha
    simp only [Sys.assign, hs]
    split <;> simp <;> omega
  case stale =>
    intro _ a ha
    have h1 := (h.dated a ha).1
    simp only [Sys.assign, hs]
    by_cases hopen : s.breaker.state = .open_
    · have := h.stale hopen a ha
      simpa [hopen] using this
    · simp only [ne_eq, hopen, not_false_eq_true, and_self, if_true]
      omega
  case current =>
    intro hs'
    simp [hs] at hs'
  case probed =>
    intro hs'
    simp [hs] at hs'

theorem Inv.onFailure {s : Sys} (h : Inv cfg s) : Inv cfg (s.assign (onFailure cfg s.breaker s.now)) := by
  rcases onFailure_cases cfg s.breaker s.now with ⟨hs, he⟩ | ⟨hs, ht, he⟩ | ⟨-, ht, he⟩
  · rw [he]
    exact h.opened rfl (by simp [doOpen]) (h.tripped (by simp [hs]))
  · have hc : s.breaker.state = .closed := by
      by_contra hne
      have := h.tripped hne
      omega
    rw [he]
    exact h.close hc (h.closed_iff.1 hc)
  · rw [he]
    exact h.opened rfl (by simp [doOpen]) (by simpa [doOpen] using ht)

theorem Inv.setCall {s : Sys} (h : Inv cfg s) {i : Nat} {a : Admission} {p q : Phase}
    (hi : s.calls[i]? = some (.admitted a p)) : Inv cfg (s.setCall i (.admitted a q)) :=
  h.congr rfl rfl rfl (fun b => by rw [setCall_admissions hi])

theorem inv_step (cfg : Config χ) (s : Sys) (e : Event χ) (s' : Sys) (h : Inv cfg s) (hst : step cfg s e = some s') :
    Inv cfg s' := by
  cases step_sound hst with
  | tick hd => exact h.congr rfl rfl rfl (fun _ => Iff.rfl)
  | reject ho hr => exact h.congr rfl rfl rfl (fun a => by simp [Sys.admissions, Call.admission])
  | probe ho hr => exact h.probe ho
  | pass ho => exact h.pass ho
  | finish e hi => exact h.setCall hi
  | succeed hi => exact (h.close rfl rfl).setCall (by simpa using hi)
  | fail hi => exact h.onFailure.setCall (by simpa using hi)

end Breaker
end KafkaGuide
