import Mathlib.Algebra.Ring.Nat
import Mathlib.Data.Option.Basic
/-!
# Lts — labelled transition systems by an executable step

A system is its start and a step function, `none` where an event is not enabled.  A run is a list of events; what
holds of a run is read off its states (`run_inv`, with the events behind them `history_inv`), off its steps (`Along`),
or off both at once: a property that one step breaks exactly when a condition fails holds at the end of a run exactly
when every step met the condition (`good_iff_along`), and in every state of it likewise (`always_iff_along`); a
condition may read the events before a step (`recorded`).
Where a measure can always drop, steps lead to the goal (`leads_of_measure`); where each step costs some of a
potential, runs are short (`run_length_le`).
-/

structure Lts (σ ε : Type*) where
  init : σ
  step : σ → ε → Option σ

namespace Lts

variable {σ ε : Type*} (L : Lts σ ε)

/-- The state a run of events reaches, `none` when one of them is not enabled. -/
def run : σ → List ε → Option σ
  | s, [] => some s
  | s, e :: es => (L.step s e).bind (fun s' => run s' es)

def Reachable (s : σ) : Prop := ∃ es, L.run L.init es = some s

@[simp] theorem run_nil (s : σ) : L.run s [] = some s := rfl

theorem run_cons {s t : σ} {e : ε} {es : List ε} :
    L.run s (e :: es) = some t ↔ ∃ s', L.step s e = some s' ∧ L.run s' es = some t := by
  rw [run, Option.bind_eq_some_iff]

theorem run_append : ∀ {es fs : List ε} {s t : σ},
    L.run s (es ++ fs) = some t ↔ ∃ m, L.run s es = some m ∧ L.run m fs = some t
  | [], fs, s, t => by simp
  | e :: es, fs, s, t => by
    rw [List.cons_append, run_cons]
    constructor
    · rintro ⟨s', hs, h⟩
      obtain ⟨m, hm, ht⟩ := run_append.1 h
      exact ⟨m, L.run_cons.2 ⟨s', hs, hm⟩, ht⟩
    · rintro ⟨m, hm, ht⟩
      obtain ⟨s', hs, h⟩ := L.run_cons.1 hm
      exact ⟨s', hs, run_append.2 ⟨m, h, ht⟩⟩

theorem reachable_step {s s' : σ} {e : ε} (h : L.Reachable s) (hs : L.step s e = some s') : L.Reachable s' := by
  obtain ⟨es, hes⟩ := h
  exact ⟨es ++ [e], L.run_append.2 ⟨s, hes, L.run_cons.2 ⟨s', hs, rfl⟩⟩⟩

/-! ## Invariants -/

/-- **What every step keeps, every run keeps.** -/
theorem run_inv {I : σ → Prop} (hstep : ∀ s e s', I s → L.step s e = some s' → I s') :
    ∀ {es : List ε} {s t : σ}, I s → L.run s es = some t → I t
  | [], s, t, hs, h => by
    rw [run_nil, Option.some.injEq] at h
    rwa [← h]
  | e :: es, s, t, hs, h => by
    obtain ⟨s', he, h'⟩ := L.run_cons.1 h
    exact run_inv hstep (hstep s e s' hs he) h'

theorem reachable_inv {I : σ → Prop} (h0 : I L.init) (hstep : ∀ s e s', I s → L.step s e = some s' → I s') {s : σ}
    (h : L.Reachable s) : I s := by
  obtain ⟨es, hes⟩ := h
  exact L.run_inv hstep h0 hes

/-- **What every step keeps, read beside the run that led to the state.** -/
theorem history_inv {I : List ε → σ → Prop} (h0 : I [] L.init)
    (hstep : ∀ es s e s', I es s → L.run L.init es = some s → L.step s e = some s' → I (es ++ [e]) s') :
    ∀ {es : List ε} {s : σ}, L.run L.init es = some s → I es s := by
  have hrun : ∀ (fs es : List ε) (m s : σ), I es m → L.run L.init es = some m → L.run m fs = some s →
      I (es ++ fs) s := by
    intro fs
    induction fs with
    | nil =>
      intro es m s hm _ h
      rw [run_nil, Option.some.injEq] at h
      rwa [← h, List.append_nil]
    | cons e fs ih =>
      intro es m s hm hes h
      obtain ⟨m', he, h'⟩ := L.run_cons.1 h
      have hes' : L.run L.init (es ++ [e]) = some m' := L.run_append.2 ⟨m, hes, L.run_cons.2 ⟨m', he, rfl⟩⟩
      rw [List.append_cons]
      exact ih (es ++ [e]) m' s (hstep es m e m' hm hes he) hes' h'
  intro es s h
  exact hrun es [] L.init s h0 rfl h

/-- Some state on the way to the end of the run, the end included, satisfies `P`. -/
def Met (P : σ → Prop) (es : List ε) : Prop := ∃ fs gs m, es = fs ++ gs ∧ L.run L.init fs = some m ∧ P m

theorem met_of_run {P : σ → Prop} {es : List ε} {s : σ} (h : L.run L.init es = some s) (hP : P s) : L.Met P es :=
  ⟨es, [], s, (List.append_nil es).symm, h, hP⟩

variable {L} in
theorem Met.append {P : σ → Prop} {es : List ε} (h : L.Met P es) (fs : List ε) : L.Met P (es ++ fs) := by
  obtain ⟨as, bs, m, rfl, hm, hP⟩ := h
  exact ⟨as, bs ++ fs, m, List.append_assoc as bs fs, hm, hP⟩

/-- **What appears at a step only, and shows there, has shown.** -/
theorem met_of_appears {P Q : σ → Prop} (h0 : ¬ Q L.init)
    (hstep : ∀ s e s', L.step s e = some s' → Q s' → Q s ∨ P s') {es : List ε} {s : σ} (h : L.run L.init es = some s)
    (hQ : Q s) : L.Met P es := by
  refine L.history_inv (I := fun es s => Q s → L.Met P es) (fun hQ => absurd hQ h0)
    (fun es s e s' hi hes he hQ' => ?_) h hQ
  rcases hstep s e s' he hQ' with hQ | hP
  · exact (hi hQ).append [e]
  · exact L.met_of_run (L.run_append.2 ⟨s, hes, L.run_cons.2 ⟨s', he, rfl⟩⟩) hP

/-! ## Along a run -/

/-- Every step of a run satisfies `P`, read at the state before it, its event and the state after it. -/
def Along (P : σ → ε → σ → Prop) : σ → List ε → Prop
  | _, [] => True
  | s, e :: es => match L.step s e with
    | none => True
    | some s' => P s e s' ∧ Along P s' es

instance decidableAlong (P : σ → ε → σ → Prop) [∀ s e s', Decidable (P s e s')] :
    ∀ s es, Decidable (L.Along P s es)
  | _, [] => isTrue trivial
  | s, e :: es => by
    unfold Along
    cases L.step s e with
    | none => exact isTrue trivial
    | some s' =>
      have := decidableAlong P s' es
      exact inferInstanceAs (Decidable (_ ∧ _))

theorem along_cons {P : σ → ε → σ → Prop} {s s' : σ} {e : ε} {es : List ε} (h : L.step s e = some s') :
    L.Along P s (e :: es) ↔ P s e s' ∧ L.Along P s' es := by
  rw [Along, h]

theorem along_stuck {P : σ → ε → σ → Prop} {s : σ} {e : ε} {es : List ε} (h : L.step s e = none) :
    L.Along P s (e :: es) := by
  rw [Along, h]
  trivial

theorem along_append {P : σ → ε → σ → Prop} : ∀ {es fs : List ε} {s m : σ}, L.run s es = some m →
    (L.Along P s (es ++ fs) ↔ L.Along P s es ∧ L.Along P m fs)
  | [], fs, s, m, h => by
    rw [run_nil, Option.some.injEq] at h
    rw [← h, List.nil_append]
    exact ⟨fun hf => ⟨trivial, hf⟩, fun hf => hf.2⟩
  | e :: es, fs, s, m, h => by
    obtain ⟨s', hs, h'⟩ := L.run_cons.1 h
    rw [List.cons_append, L.along_cons hs, L.along_cons hs, along_append h', and_assoc]

/-- What every event of a run satisfies. -/
theorem along_of_events {P : ε → Prop} : ∀ {es : List ε} {s : σ}, (∀ e ∈ es, P e) → L.Along (fun _ e _ => P e) s es
  | [], _, _ => trivial
  | e :: es, s, hP => by
    cases he : L.step s e with
    | none => exact L.along_stuck he
    | some s' =>
      exact (L.along_cons he).2 ⟨hP e List.mem_cons_self, along_of_events fun e h => hP e (List.mem_cons_of_mem _ h)⟩

/-- Every state along a run reaches its end. -/
theorem along_reaches : ∀ {es : List ε} {s t : σ}, L.run s es = some t →
    L.Along (fun _ _ s' => ∃ fs, L.run s' fs = some t) s es
  | [], _, _, _ => trivial
  | e :: es, s, t, h => by
    obtain ⟨s', he, h'⟩ := L.run_cons.1 h
    exact (L.along_cons he).2 ⟨⟨es, h'⟩, along_reaches h'⟩

/-- What holds at the start and after each step of a run holds at its end. -/
theorem along_end {G : σ → Prop} : ∀ {es : List ε} {s t : σ}, L.run s es = some t → G s →
    L.Along (fun _ _ s' => G s') s es → G t
  | [], s, t, h, hs, _ => by
    rw [run_nil, Option.some.injEq] at h
    rwa [← h]
  | e :: es, s, t, h, _, hG => by
    obtain ⟨s', he, h'⟩ := L.run_cons.1 h
    obtain ⟨hs', hG'⟩ := (L.along_cons he).1 hG
    exact along_end h' hs' hG'

theorem along_and {P Q : σ → ε → σ → Prop} : ∀ {es : List ε} {s : σ},
    L.Along P s es → L.Along Q s es → L.Along (fun s e s' => P s e s' ∧ Q s e s') s es
  | [], _, _, _ => trivial
  | e :: es, s, hP, hQ => by
    cases he : L.step s e with
    | none => exact L.along_stuck he
    | some s' =>
      obtain ⟨hp, hP'⟩ := (L.along_cons he).1 hP
      obtain ⟨hq, hQ'⟩ := (L.along_cons he).1 hQ
      exact (L.along_cons he).2 ⟨⟨hp, hq⟩, along_and hP' hQ'⟩

theorem along_mono {P Q : σ → ε → σ → Prop} (hPQ : ∀ s e s', L.step s e = some s' → P s e s' → Q s e s') :
    ∀ {es : List ε} {s : σ}, L.Along P s es → L.Along Q s es
  | [], _, _ => trivial
  | e :: es, s, h => by
    cases he : L.step s e with
    | none => exact L.along_stuck he
    | some s' =>
      obtain ⟨hp, h'⟩ := (L.along_cons he).1 h
      exact (L.along_cons he).2 ⟨hPQ s e s' he hp, along_mono hPQ h'⟩

/-- **Under an invariant, what each step satisfies may be restated step by step.** -/
theorem along_iff {I : σ → Prop} {P Q : σ → ε → σ → Prop} (hstep : ∀ s e s', I s → L.step s e = some s' → I s')
    (hPQ : ∀ s e s', I s → L.step s e = some s' → (P s e s' ↔ Q s e s')) :
    ∀ {es : List ε} {s : σ}, I s → (L.Along P s es ↔ L.Along Q s es)
  | [], _, _ => Iff.rfl
  | e :: es, s, hs => by
    cases he : L.step s e with
    | none => exact iff_of_true (L.along_stuck he) (L.along_stuck he)
    | some s' =>
      rw [L.along_cons he, L.along_cons he, hPQ s e s' hs he, along_iff hstep hPQ (hstep s e s' hs he)]

/-- **An invariant that a step keeps under a condition** is kept by a run whose steps meet it. -/
theorem run_inv_along {I : σ → Prop} {C : σ → ε → σ → Prop}
    (hstep : ∀ s e s', I s → L.step s e = some s' → C s e s' → I s') :
    ∀ {es : List ε} {s t : σ}, I s → L.Along C s es → L.run s es = some t → I t
  | [], s, t, hs, _, h => by
    rw [run_nil, Option.some.injEq] at h
    rwa [← h]
  | e :: es, s, t, hs, hC, h => by
    obtain ⟨s', he, h'⟩ := L.run_cons.1 h
    obtain ⟨hc, hC'⟩ := (L.along_cons he).1 hC
    exact run_inv_along hstep (hstep s e s' hs he hc) hC' h'

/-- **What a step does under such an invariant** it does at every step of a run. -/
theorem along_of_inv {I : σ → Prop} {C P : σ → ε → σ → Prop}
    (hstep : ∀ s e s', I s → L.step s e = some s' → C s e s' → I s' ∧ P s e s') :
    ∀ {es : List ε} {s : σ}, I s → L.Along C s es → L.Along P s es
  | [], _, _, _ => trivial
  | e :: es, s, hs, hC => by
    cases he : L.step s e with
    | none => exact L.along_stuck he
    | some s' =>
      obtain ⟨hc, hC'⟩ := (L.along_cons he).1 hC
      obtain ⟨hs', hp⟩ := hstep s e s' hs he hc
      exact (L.along_cons he).2 ⟨hp, along_of_inv hstep hs' hC'⟩

/-- **What a step breaks for good exactly when `C` fails** holds at the end of a run exactly when every step met
`C`. -/
theorem good_iff_along {I G : σ → Prop} {C : σ → ε → Prop} (hstep : ∀ s e s', I s → L.step s e = some s' → I s')
    (hG : ∀ s e s', I s → L.step s e = some s' → (G s' ↔ G s ∧ C s e)) :
    ∀ {es : List ε} {s t : σ}, I s → L.run s es = some t → (G t ↔ G s ∧ L.Along (fun s e _ => C s e) s es)
  | [], s, t, _, h => by
    rw [run_nil, Option.some.injEq] at h
    rw [← h]
    exact ⟨fun hg => ⟨hg, trivial⟩, fun hg => hg.1⟩
  | e :: es, s, t, hs, h => by
    obtain ⟨s', he, h'⟩ := L.run_cons.1 h
    rw [good_iff_along hstep hG (hstep s e s' hs he) h', hG s e s' hs he, L.along_cons he, and_assoc]

/-- **What a step from a good state breaks exactly when `C` fails** holds in every state of a run exactly when every
step met `C`; what the steps keep need be kept only as long as the states are good. -/
theorem always_iff_along {I G : σ → Prop} {C : σ → ε → Prop}
    (hstep : ∀ s e s', I s → G s → L.step s e = some s' → G s' → I s')
    (hG : ∀ s e s', I s → G s → L.step s e = some s' → (G s' ↔ C s e)) :
    ∀ {es : List ε} {s : σ}, I s → G s →
      (L.Along (fun _ _ s' => G s') s es ↔ L.Along (fun s e _ => C s e) s es)
  | [], _, _, _ => Iff.rfl
  | e :: es, s, hs, hg => by
    cases he : L.step s e with
    | none => exact iff_of_true (L.along_stuck he) (L.along_stuck he)
    | some s' =>
      have hiff := hG s e s' hs hg he
      have ih (hg' : G s') : L.Along (fun _ _ s' => G s') s' es ↔ L.Along (fun s e _ => C s e) s' es :=
        always_iff_along hstep hG (hstep s e s' hs hg he hg') hg'
      rw [L.along_cons he, L.along_cons he, hiff]
      constructor
      · rintro ⟨hc, h⟩
        exact ⟨hc, (ih (hiff.2 hc)).1 h⟩
      · rintro ⟨hc, h⟩
        exact ⟨hc, (ih (hiff.2 hc)).2 h⟩

/-! ## The run so far -/

/-- The system beside the events of its run so far. -/
def recorded : Lts (List ε × σ) ε where
  init := ([], L.init)
  step t e := (L.step t.2 e).map (fun s' => (t.1 ++ [e], s'))

theorem recorded_step {t t' : List ε × σ} {e : ε} :
    L.recorded.step t e = some t' ↔ L.step t.2 e = some t'.2 ∧ t'.1 = t.1 ++ [e] := by
  change (L.step t.2 e).map _ = some t' ↔ _
  rw [Option.map_eq_some_iff]
  constructor
  · rintro ⟨s', hs, rfl⟩
    exact ⟨hs, rfl⟩
  · rintro ⟨hs, hpast⟩
    exact ⟨t'.2, hs, Prod.ext hpast.symm rfl⟩

/-- **What is read off the system's own states and events** is so of the runs as of the recorded ones. -/
theorem recorded_along {P : σ → ε → σ → Prop} : ∀ {es : List ε} {t : List ε × σ},
    L.recorded.Along (fun t e t' => P t.2 e t'.2) t es ↔ L.Along P t.2 es
  | [], _ => Iff.rfl
  | e :: es, t => by
    cases he : L.step t.2 e with
    | none =>
      have hstuck : L.recorded.step t e = none := Option.map_eq_none_iff.2 he
      exact iff_of_true (L.recorded.along_stuck hstuck) (L.along_stuck he)
    | some s' =>
      have hgo : L.recorded.step t e = some (t.1 ++ [e], s') := L.recorded_step.2 ⟨he, rfl⟩
      rw [L.recorded.along_cons hgo, L.along_cons he, recorded_along]

/-! ## Leading on -/

/-- Events that `P` allows lead from one state to another. -/
def Leads (P : ε → Prop) (s t : σ) : Prop := ∃ es, (∀ e ∈ es, P e) ∧ L.run s es = some t

variable {L}

theorem Leads.refl (P : ε → Prop) (s : σ) : L.Leads P s s := ⟨[], fun _ h => (nomatch h), rfl⟩

theorem Leads.trans {P : ε → Prop} {s t u : σ} (h : L.Leads P s t) (h' : L.Leads P t u) : L.Leads P s u := by
  obtain ⟨es, hes, hrun⟩ := h
  obtain ⟨fs, hfs, hrun'⟩ := h'
  refine ⟨es ++ fs, fun e he => ?_, L.run_append.2 ⟨t, hrun, hrun'⟩⟩
  rcases List.mem_append.1 he with he | he
  · exact hes e he
  · exact hfs e he

theorem Leads.of_step {P : ε → Prop} {s t : σ} {e : ε} (he : P e) (h : L.step s e = some t) : L.Leads P s t :=
  ⟨[e], fun _ hmem => List.mem_singleton.1 hmem ▸ he, L.run_cons.2 ⟨t, h, rfl⟩⟩

theorem Leads.mono {P Q : ε → Prop} (hPQ : ∀ e, P e → Q e) {s t : σ} (h : L.Leads P s t) : L.Leads Q s t := by
  obtain ⟨es, hes, hrun⟩ := h
  exact ⟨es, fun e he => hPQ e (hes e he), hrun⟩

/-- What every allowed step keeps holds wherever they lead. -/
theorem Leads.inv {P : ε → Prop} {I : σ → Prop} (hstep : ∀ s e s', I s → P e → L.step s e = some s' → I s') {s t : σ}
    (h : L.Leads P s t) (hs : I s) : I t := by
  obtain ⟨es, hes, hrun⟩ := h
  exact L.run_inv_along (fun s e s' hi he hp => hstep s e s' hi hp he) hs (L.along_of_events hes) hrun

theorem Leads.reachable {P : ε → Prop} {s t : σ} (h : L.Leads P s t) (hs : L.Reachable s) : L.Reachable t := by
  obtain ⟨es, -, hrun⟩ := h
  obtain ⟨fs, hfs⟩ := hs
  exact ⟨fs ++ es, L.run_append.2 ⟨s, hfs, hrun⟩⟩

/-- **What leads in one system leads in another** that matches each of its steps. -/
theorem Leads.sim {σ' ε' : Type*} {L' : Lts σ' ε'} {P : ε → Prop} {Q : ε' → Prop} {R : σ → σ' → Prop}
    (hsim : ∀ s s' e t, R s s' → P e → L.step s e = some t → ∃ e' t', Q e' ∧ L'.step s' e' = some t' ∧ R t t')
    {s t : σ} {s' : σ'} (h : L.Leads P s t) (hR : R s s') : ∃ t', L'.Leads Q s' t' ∧ R t t' := by
  obtain ⟨es, hes, hrun⟩ := h
  induction es generalizing s s' with
  | nil =>
    cases hrun
    exact ⟨s', .refl Q s', hR⟩
  | cons e es ih =>
    obtain ⟨m, hstep, hrest⟩ := L.run_cons.1 hrun
    obtain ⟨e', m', hQ, hstep', hm⟩ := hsim s s' e m hR (hes e List.mem_cons_self) hstep
    obtain ⟨t', hlead, ht⟩ := ih hm (fun e he => hes e (List.mem_cons_of_mem _ he)) hrest
    exact ⟨t', (Leads.of_step hQ hstep').trans hlead, ht⟩

/-- **A measure that can always drop leads to the goal.** -/
theorem leads_of_measure {I G : σ → Prop} {P : ε → Prop} (m : σ → Nat)
    (hdrop : ∀ s, I s → ¬ G s → ∃ t, L.Leads P s t ∧ I t ∧ m t < m s) {s : σ} (hs : I s) :
    ∃ t, L.Leads P s t ∧ I t ∧ G t := by
  induction hm : m s using Nat.strongRecOn generalizing s with
  | ind n ih =>
    by_cases hg : G s
    · exact ⟨s, .refl P s, hs, hg⟩
    · obtain ⟨t, hst, ht, hlt⟩ := hdrop s hs hg
      obtain ⟨u, htu, hu, hgu⟩ := ih (m t) (hm ▸ hlt) ht rfl
      exact ⟨u, hst.trans htu, hu, hgu⟩

/-- **A potential bounds the length of a run**: each step costs one, and an event may add `gain` first. -/
theorem run_length_le {I : σ → Prop} {P : ε → Prop} (Φ : σ → Nat) (gain : ε → Nat)
    (hstep : ∀ s e s', I s → P e → L.step s e = some s' → I s' ∧ Φ s' + 1 ≤ Φ s + gain e) :
    ∀ {es : List ε} {s t : σ}, I s → (∀ e ∈ es, P e) → L.run s es = some t →
      es.length + Φ t ≤ Φ s + (es.map gain).sum
  | [], s, t, _, _, h => by
    cases h
    simp
  | e :: es, s, t, hs, hP, h => by
    obtain ⟨m, hm, hrest⟩ := L.run_cons.1 h
    obtain ⟨hm', hcost⟩ := hstep s e m hs (hP e List.mem_cons_self) hm
    have ih := run_length_le Φ gain hstep hm' (fun e he => hP e (List.mem_cons_of_mem _ he)) hrest
    rw [List.length_cons, List.map_cons, List.sum_cons]
    omega

end Lts
