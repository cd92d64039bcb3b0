import KafkaGuide.Lib.Lts
/-!
# ConsumerLoop — the loop of an asynchronous consumer

`async for message in consumer: body`, with a handler for cancellation outside the loop and none for anything else.
The consumer decodes a record as it fetches it, and what the decoder raises comes out of the iteration.  The body is cut
at its awaits: a stretch of it ends with the message, at the next await, or with an exception that leaves it.
-/

/-- How a stretch of the body ends. -/
inductive Stretch (κ : Type*) where
  | done
  | await (k : κ)
  | raised
deriving DecidableEq

/-- A loop over records `β` decoded to values `ν`: its store, its awaits `κ`, what a message comes with besides its
value (`ρ`), and what may happen at an await (`ι`); `none` where it cannot happen at that one. -/
structure ConsumerLoop (β ν σ κ ρ ι : Type*) where
  decode : β → Option ν
  init : σ
  receive : σ → ν → ρ → σ × Stretch κ
  advance : σ → κ → ι → Option (σ × Stretch κ)

namespace ConsumerLoop

variable {β ν σ κ ρ ι : Type*} (L : ConsumerLoop β ν σ κ ρ ι)

inductive Position (κ : Type*) where
  | fetching
  | awaiting (k : κ)
  | cancelled
  | raised
deriving DecidableEq

structure State (σ κ : Type*) where
  store : σ
  position : Position κ

inductive Event (β ρ ι : Type*) where
  | receive (rec : β) (r : ρ)
  | advance (i : ι)
  | cancel

def Stretch.position : Stretch κ → Position κ
  | .done => .fetching
  | .await k => .awaiting k
  | .raised => .raised

/-- The loop after a stretch of the body. -/
def after (p : σ × Stretch κ) : State σ κ := ⟨p.1, Stretch.position p.2⟩

def step (s : State σ κ) : Event β ρ ι → Option (State σ κ)
  | .receive rec r =>
    match s.position with
    | .fetching => match L.decode rec with
      | some v => some (after (L.receive s.store v r))
      | none => some { s with position := .raised }
    | _ => none
  | .advance i =>
    match s.position with
    | .awaiting k => (L.advance s.store k i).map after
    | _ => none
  | .cancel =>
    match s.position with
    | .fetching => some { s with position := .cancelled }
    | .awaiting _ => some { s with position := .cancelled }
    | _ => none

def lts : Lts (State σ κ) (Event β ρ ι) where
  init := ⟨L.init, .fetching⟩
  step := L.step

/-! ## What a step can do -/

inductive Step (s : State σ κ) : Event β ρ ι → State σ κ → Prop
  | undecoded {rec : β} (r : ρ) (hposition : s.position = .fetching) (hdecode : L.decode rec = none) :
    Step s (.receive rec r) { s with position := .raised }
  | receive {rec : β} {v : ν} (r : ρ) (hposition : s.position = .fetching) (hdecode : L.decode rec = some v) :
    Step s (.receive rec r) (after (L.receive s.store v r))
  | advance {k : κ} {i : ι} {p : σ × Stretch κ} (hposition : s.position = .awaiting k)
    (hadvance : L.advance s.store k i = some p) : Step s (.advance i) (after p)
  | cancel : Step s .cancel { s with position := .cancelled }

variable {L}

theorem step_sound {s s' : State σ κ} {e : Event β ρ ι} (h : L.step s e = some s') : Step L s e s' := by
  cases e with
  | receive rec r =>
    simp only [step] at h
    split at h
    · rename_i hposition
      split at h
      · rename_i hdecode
        cases h
        exact .receive r hposition hdecode
      · rename_i hdecode
        cases h
        exact .undecoded r hposition hdecode
    · cases h
  | advance i =>
    simp only [step] at h
    split at h
    · rename_i hposition
      obtain ⟨p, hadvance, rfl⟩ := Option.map_eq_some_iff.1 h
      exact .advance hposition hadvance
    · cases h
  | cancel =>
    simp only [step] at h
    split at h
    · cases h
      exact .cancel
    · cases h
      exact .cancel
    · cases h

variable (L)

/-! ## Going on -/

/-- The loop was cancelled, or is at the next message once its awaits have returned. -/
def GoesOn (s : State σ κ) : Prop :=
  s.position = .cancelled ∨
    ∃ (is : List ι) (t : State σ κ), L.lts.run s (is.map .advance) = some t ∧ t.position = .fetching

/-- The loop goes on after each step of a run from its start. -/
def GoesOnAlong (es : List (Event β ρ ι)) : Prop := L.lts.Along (fun _ _ s' => L.GoesOn s') L.lts.init es

/-- Each await may return, to the end of the body or to one of a smaller rank. -/
def Ranked (rank : κ → Nat) : Prop := ∀ store k, ∃ i store' next, L.advance store k i = some (store', next) ∧
  (next = .done ∨ ∃ k', next = .await k' ∧ rank k' < rank k)

theorem ranked_of_isEmpty [IsEmpty κ] (rank : κ → Nat) : L.Ranked rank := fun _ k => isEmptyElim k

variable {L}

theorem goesOn_of_awaiting {rank : κ → Nat} (hranked : L.Ranked rank) : ∀ (n : Nat) (store : σ) (k : κ), rank k ≤ n →
    ∃ (is : List ι) (t : State σ κ),
      L.lts.run ⟨store, .awaiting k⟩ (is.map .advance) = some t ∧ t.position = .fetching
  | n, store, k, hk => by
    obtain ⟨i, store', next, hadvance, hnext⟩ := hranked store k
    have hstep : L.step ⟨store, .awaiting k⟩ (.advance i) = some (after (store', next)) := by
      simp only [step, hadvance, Option.map_some]
    rcases hnext with rfl | ⟨k', rfl, hlt⟩
    · exact ⟨[i], ⟨store', .fetching⟩, L.lts.run_cons.2 ⟨_, hstep, rfl⟩, rfl⟩
    · cases n with
      | zero => omega
      | succ n =>
        obtain ⟨is, t, hrun, ht⟩ := goesOn_of_awaiting hranked n store' k' (by omega)
        exact ⟨i :: is, t, L.lts.run_cons.2 ⟨_, hstep, hrun⟩, ht⟩

theorem not_goesOn_of_raised {s : State σ κ} (hraised : s.position = .raised) : ¬ L.GoesOn s := by
  rintro (hcancelled | ⟨is, t, hrun, ht⟩)
  · rw [hraised] at hcancelled
    cases hcancelled
  · cases is with
    | nil =>
      cases hrun
      rw [hraised] at ht
      cases ht
    | cons i is =>
      obtain ⟨s', hstep, -⟩ := L.lts.run_cons.1 hrun
      change L.step s (.advance i) = some s' at hstep
      simp only [step, hraised] at hstep
      cases hstep

/-- **A loop whose awaits return goes on exactly as long as no exception has left its body.** -/
theorem goesOn_iff {rank : κ → Nat} (hranked : L.Ranked rank) (s : State σ κ) :
    L.GoesOn s ↔ s.position ≠ .raised := by
  refine ⟨fun h hraised => not_goesOn_of_raised hraised h, fun h => ?_⟩
  obtain ⟨store, position⟩ := s
  cases position with
  | fetching => exact .inr ⟨[], ⟨store, .fetching⟩, rfl, rfl⟩
  | awaiting k => exact .inr (goesOn_of_awaiting hranked (rank k) store k (Nat.le_refl _))
  | cancelled => exact .inl rfl
  | raised => exact absurd rfl h

/-- The step ends the loop with an exception: the record has no value, or the body raises. -/
def Raises (L : ConsumerLoop β ν σ κ ρ ι) (s : State σ κ) : Event β ρ ι → Prop
  | .receive rec r => ∀ v, L.decode rec = some v → (L.receive s.store v r).2 = .raised
  | .advance i => ∃ k store, s.position = .awaiting k ∧ L.advance s.store k i = some (store, .raised)
  | .cancel => False

theorem position_raised {next : Stretch κ} : Stretch.position next = .raised ↔ next = .raised := by
  cases next with
  | raised => exact iff_of_true rfl rfl
  | _ => exact iff_of_false (fun h => nomatch h) (fun h => nomatch h)

theorem position_awaiting {next : Stretch κ} {k : κ} : Stretch.position next = .awaiting k ↔ next = .await k := by
  cases next with
  | await k' => exact ⟨fun h => by cases h; rfl, fun h => by cases h; rfl⟩
  | _ => exact iff_of_false (fun h => nomatch h) (fun h => nomatch h)

theorem raises_advance_iff {s : State σ κ} {k : κ} {i : ι} {p : σ × Stretch κ} (hposition : s.position = .awaiting k)
    (hadvance : L.advance s.store k i = some p) :
    L.Raises s (.advance i : Event β ρ ι) ↔ p.2 = .raised := by
  constructor
  · rintro ⟨k', store, hk, hraised⟩
    rw [hposition] at hk
    cases hk
    rw [hadvance] at hraised
    cases hraised
    rfl
  · exact fun hraised => ⟨k, p.1, hposition, hraised ▸ hadvance⟩

theorem raised_iff {s s' : State σ κ} {e : Event β ρ ι} (h : L.step s e = some s') :
    s'.position = .raised ↔ L.Raises s e := by
  cases step_sound h with
  | undecoded r hposition hdecode =>
    refine iff_of_true rfl fun v hv => ?_
    rw [hdecode] at hv
    cases hv
  | receive r hposition hdecode =>
    change Stretch.position _ = .raised ↔ _
    rw [position_raised]
    constructor
    · intro hraised v hv
      rw [hdecode] at hv
      cases hv
      exact hraised
    · exact fun h => h _ hdecode
  | advance hposition hadvance =>
    change Stretch.position _ = .raised ↔ _
    rw [position_raised]
    exact (raises_advance_iff hposition hadvance).symm
  | cancel => exact iff_of_false (fun h => nomatch h) fun h => h

/-- **A loop goes on all through a run exactly when no step of it raises.** -/
theorem goesOn_along_iff {rank : κ → Nat} (hranked : L.Ranked rank) {C : State σ κ → Event β ρ ι → Prop}
    (hC : ∀ s e s', L.step s e = some s' → (C s e ↔ ¬ L.Raises s e)) (es : List (Event β ρ ι)) :
    L.GoesOnAlong es ↔ L.lts.Along (fun s e _ => C s e) L.lts.init es := by
  refine L.lts.along_iff (I := fun _ => True) (fun _ _ _ _ _ => trivial) (fun s e s' _ hstep => ?_) trivial
  rw [goesOn_iff hranked, ne_eq, raised_iff hstep, hC s e s' hstep]

/-- A record without a value stops the loop. -/
theorem not_goesOn_undecoded {rec : β} (hdecode : L.decode rec = none) (r : ρ) :
    ¬ L.GoesOnAlong [.receive rec r] := by
  intro h
  have hstep : L.lts.step L.lts.init (.receive rec r) = some ⟨L.init, .raised⟩ := by
    change L.step ⟨L.init, .fetching⟩ (.receive rec r) = _
    simp only [step, hdecode]
  have hgoes := ((L.lts.along_cons hstep).1 h).1
  exact not_goesOn_of_raised rfl hgoes

variable (L) in
/-- No exception leaves the body. -/
structure Guarded : Prop where
  receive : ∀ store v r, (L.receive store v r).2 ≠ .raised
  advance : ∀ store k i p, L.advance store k i = some p → p.2 ≠ .raised

variable (L) in
/-- If the step fetches a record, it has a value. -/
def Decodes : Event β ρ ι → Prop
  | .receive rec _ => (L.decode rec).isSome = true
  | _ => True

/-- **A guarded loop goes on all through a run exactly when every record it fetches has a value.** -/
theorem goesOn_guarded_iff {rank : κ → Nat} (hranked : L.Ranked rank) (hguarded : L.Guarded)
    (es : List (Event β ρ ι)) : L.GoesOnAlong es ↔ L.lts.Along (fun _ e _ => L.Decodes e) L.lts.init es := by
  refine goesOn_along_iff hranked (C := fun _ e => L.Decodes e) (fun s e s' hstep => ?_) es
  cases step_sound hstep with
  | undecoded r hposition hdecode =>
    refine iff_of_false (fun h => ?_) (fun h => h fun v hv => ?_)
    · change (L.decode _).isSome = true at h
      rw [hdecode] at h
      cases h
    · rw [hdecode] at hv
      cases hv
  | receive r hposition hdecode =>
    refine iff_of_true ?_ (fun h => hguarded.receive _ _ _ (h _ hdecode))
    change (L.decode _).isSome = true
    rw [hdecode]
    rfl
  | advance hposition hadvance =>
    refine iff_of_true trivial ?_
    rintro ⟨k, store, -, hraised⟩
    exact hguarded.advance _ _ _ _ hraised rfl
  | cancel => exact iff_of_true trivial fun h => h

end ConsumerLoop
