import KafkaGuide.CqrsOrder
import KafkaGuide.CqrsPayment
import KafkaGuide.CqrsInventory
/-!
# CqrsResults — one result for each order that a service has handled

The payment and the inventory service have one loop: it works on an order, writes a record of the outcome, and publishes
the outcome.  `Answering` says what of it the two have in common, and `answered_iff` what follows: each order gets
exactly one result exactly in the runs where no publication raises before its event is on the topic.
-/
namespace KafkaGuide
namespace Cqrs

open ConsumerLoop (State Position)

variable {β σ κ ρ ι R : Type}

/-! ## A loop over the orders of `create_order` -/

/-- The value of an order's record on `order.created`, as the loop decodes it. -/
def createdValue (u : Uuid) (request : CreateOrderRequest) (now : String) : Json :=
  .obj (createOrder .empty u request now).2

/-- A loop given the values themselves. -/
def valued (L : ConsumerLoop β Json σ κ ρ ι) : ConsumerLoop Json Json σ κ ρ ι :=
  { L with decode := some }

/-- The loop, the orders it was given so far, and those of them it has moved past: it is at the next message. -/
structure Stream (σ κ : Type) where
  loop : State σ κ
  given : List Uuid := []
  past : List Uuid := []

/-- The stream once its loop has made a step. -/
def Stream.moved (s : Stream σ κ) (given : List Uuid) (loop : State σ κ) : Stream σ κ where
  loop := loop
  given := given
  past := match loop.position with
    | .fetching => given
    | _ => s.past

inductive StreamEvent (ρ ι : Type) where
  | give (u : Uuid) (request : CreateOrderRequest) (now : String) (r : ρ)
  | advance (i : ι)
  | cancel

/-- Each order's record is delivered once. -/
def streamStep (L : ConsumerLoop β Json σ κ ρ ι) (s : Stream σ κ) : StreamEvent ρ ι → Option (Stream σ κ)
  | .give u request now r =>
    if u ∈ s.given then none
    else ((valued L).step s.loop (.receive (createdValue u request now) r)).map (s.moved (s.given ++ [u]))
  | .advance i => ((valued L).step s.loop (.advance i)).map (s.moved s.given)
  | .cancel => ((valued L).step s.loop .cancel).map (s.moved s.given)

def stream (L : ConsumerLoop β Json σ κ ρ ι) : Lts (Stream σ κ) (StreamEvent ρ ι) where
  init := { loop := ⟨L.init, .fetching⟩ }
  step := streamStep L

inductive StreamStep (L : ConsumerLoop β Json σ κ ρ ι) (s : Stream σ κ) : StreamEvent ρ ι → Stream σ κ → Prop
  | give {u : Uuid} (request : CreateOrderRequest) (now : String) (r : ρ) (hnew : u ∉ s.given)
    (hposition : s.loop.position = .fetching) :
    StreamStep L s (.give u request now r) (s.moved (s.given ++ [u])
      (ConsumerLoop.after (L.receive s.loop.store (createdValue u request now) r)))
  | advance {k : κ} {i : ι} {p : σ × Stretch κ} (hposition : s.loop.position = .awaiting k)
    (hadvance : L.advance s.loop.store k i = some p) :
    StreamStep L s (.advance i) (s.moved s.given (ConsumerLoop.after p))
  | cancel : StreamStep L s .cancel (s.moved s.given { s.loop with position := .cancelled })

theorem streamStep_sound {L : ConsumerLoop β Json σ κ ρ ι} {s s' : Stream σ κ} {e : StreamEvent ρ ι}
    (h : streamStep L s e = some s') : StreamStep L s e s' := by
  cases e with
  | give u request now r =>
    simp only [streamStep] at h
    split at h
    · cases h
    · rename_i hnew
      obtain ⟨loop, hstep, rfl⟩ := Option.map_eq_some_iff.1 h
      cases ConsumerLoop.step_sound hstep with
      | undecoded r hposition hdecode => cases hdecode
      | receive r hposition hdecode =>
        cases hdecode
        exact .give request now r hnew hposition
  | advance i =>
    obtain ⟨loop, hstep, rfl⟩ := Option.map_eq_some_iff.1 h
    cases ConsumerLoop.step_sound hstep with
    | advance hposition hadvance => exact .advance hposition hadvance
  | cancel =>
    obtain ⟨loop, hstep, rfl⟩ := Option.map_eq_some_iff.1 h
    cases ConsumerLoop.step_sound hstep with
    | cancel => exact .cancel

/-! ## A loop that answers each order -/

/-- The results of an order among those on a topic. -/
def resultsFor (u : Uuid) (results : List (Option String × Json.Members)) : List (Option String × Json.Members) :=
  results.filter (fun x => (Json.get x.2 "order_id" (.str "")).isStr u.str)

/-- **What the two loops have in common**: a topic for the results, a record of each order, the record that a result
tells of, and two kinds of awaits. -/
structure Answering (L : ConsumerLoop β Json σ κ ρ ι) (R : Type) where
  results : σ → List (Option String × Json.Members)
  record : σ → Uuid → Option R
  told : Json.Members → Option R
  Working : Uuid → κ → Prop
  Publishing : Json.Members → Bool → κ → Prop
  Loses : κ → ι → Prop
  start : results L.init = []
  receive : ∀ st u request now r, ∃ k, L.receive st (createdValue u request now) r = (st, .await k) ∧ Working u k
  work : ∀ {st u k i p}, Working u k → L.advance st k i = some p → ¬ Loses k i ∧ ∃ event k' r,
    p.2 = .await k' ∧ Publishing event false k' ∧ Json.get event "order_id" (.str "") = .str u.str ∧
    results p.1 = results st ∧ told event = some r ∧ record p.1 u = some r ∧
    ∀ u', u' ≠ u → record p.1 u' = record st u'
  publish : ∀ {st event landed k i p}, Publishing event landed k → L.advance st k i = some p →
    (∀ u, record p.1 u = record st u) ∧
    ((landed = false ∧ ¬ Loses k i ∧ ∃ key k', p.2 = .await k' ∧ Publishing event true k' ∧
        results p.1 = results st ++ [(key, event)]) ∨
      p.2 = .done ∧ results p.1 = results st ∧ (Loses k i ↔ landed = false))

/-- Each of the orders has exactly one result, and the record the result tells of. -/
def AllAnswered (results : List (Option String × Json.Members)) (record : Uuid → Option R)
    (told : Json.Members → Option R) (past : List Uuid) : Prop :=
  ∀ u ∈ past, ∃ entry r, resultsFor u results = [entry] ∧ told entry.2 = some r ∧ record u = some r

namespace Answering

variable {L : ConsumerLoop β Json σ κ ρ ι} (A : Answering L R)

/-- Every order the loop has moved past is answered. -/
def Answered (s : Stream σ κ) : Prop := AllAnswered (A.results s.loop.store) (A.record s.loop.store) A.told s.past

/-- The publication of a result raises before its event is on the topic. -/
def LosesAt (s : Stream σ κ) (e : StreamEvent ρ ι) : Prop :=
  ∃ k i, e = .advance i ∧ s.loop.position = .awaiting k ∧ A.Loses k i

/-- Where the loop stands with the order `u`: it works on it, or it publishes its result, which is on the topic or
not. -/
def Handles (s : Stream σ κ) (u : Uuid) (k : κ) : Prop :=
  (A.Working u k ∧ resultsFor u (A.results s.loop.store) = []) ∨
  ∃ event landed r, A.Publishing event landed k ∧ Json.get event "order_id" (.str "") = .str u.str ∧
    A.told event = some r ∧ A.record s.loop.store u = some r ∧
    (landed = false ∧ resultsFor u (A.results s.loop.store) = [] ∨
      landed = true ∧ ∃ key, resultsFor u (A.results s.loop.store) = [(key, event)])

/-- **The invariant**: an order not given has no result, and the loop handles the last order given, or has moved past
all of them. -/
structure Inv (s : Stream σ κ) : Prop where
  unseen : ∀ u, u ∉ s.given → resultsFor u (A.results s.loop.store) = []
  idle : s.loop.position = .fetching → s.past = s.given
  handles : ∀ k, s.loop.position = .awaiting k → ∃ u, s.given = s.past ++ [u] ∧ u ∉ s.past ∧ A.Handles s u k

theorem inv_init : A.Inv (stream L).init where
  unseen u _ := by
    change resultsFor u (A.results L.init) = []
    rw [A.start]
    rfl
  idle _ := rfl
  handles k h := by cases h

theorem resultsFor_append (u : Uuid) (results : List (Option String × Json.Members))
    (entry : Option String × Json.Members) : resultsFor u (results ++ [entry]) =
      resultsFor u results ++ if (Json.get entry.2 "order_id" (.str "")).isStr u.str then [entry] else [] := by
  unfold resultsFor
  rw [List.filter_append, List.filter_singleton, Bool.cond_eq_ite]

theorem resultsFor_other {u u' : Uuid} {event : Json.Members}
    (h : Json.get event "order_id" (.str "") = .str u.str) (hne : u' ≠ u)
    (results : List (Option String × Json.Members)) (key : Option String) :
    resultsFor u' (results ++ [(key, event)]) = resultsFor u' results := by
  have hstr : ¬ (u.str = u'.str) := fun heq => hne (Uuid.ext heq.symm)
  rw [resultsFor_append, h]
  simp [hstr]

/-- The orders moved past keep their results and records. -/
theorem Answered.frame {s t : Stream σ κ} (hg : A.Answered s)
    (hresults : ∀ u ∈ s.past, resultsFor u (A.results t.loop.store) = resultsFor u (A.results s.loop.store))
    (hrecord : ∀ u ∈ s.past, A.record t.loop.store u = A.record s.loop.store u) :
    AllAnswered (A.results t.loop.store) (A.record t.loop.store) A.told s.past := by
  intro u hu
  obtain ⟨entry, r, hentry, htold, hr⟩ := hg u hu
  exact ⟨entry, r, (hresults u hu).trans hentry, htold, (hrecord u hu).trans hr⟩

theorem losesAt_advance {s : Stream σ κ} {k : κ} (hposition : s.loop.position = .awaiting k) (i : ι) :
    A.LosesAt s (.advance i : StreamEvent ρ ι) ↔ A.Loses k i := by
  constructor
  · rintro ⟨k', i', he, hk', h⟩
    cases he
    rw [hposition] at hk'
    cases hk'
    exact h
  · exact fun h => ⟨k, i, rfl, hposition, h⟩

/-- Where a publication loses its result by one kind of return only. -/
theorem losesAt_iff {failed : ι} {publish : Json.Members → Bool → κ}
    (h : ∀ k i, A.Loses k i ↔ i = failed ∧ ∃ event, k = publish event false) (s : Stream σ κ) (e : StreamEvent ρ ι) :
    A.LosesAt s e ↔ e = .advance failed ∧ ∃ event, s.loop.position = .awaiting (publish event false) := by
  constructor
  · rintro ⟨k, i, rfl, hposition, hloses⟩
    obtain ⟨rfl, event, rfl⟩ := (h k i).1 hloses
    exact ⟨rfl, event, hposition⟩
  · rintro ⟨rfl, event, hposition⟩
    exact ⟨_, _, rfl, hposition, (h _ _).2 ⟨rfl, event, rfl⟩⟩

/-- What a step does: it keeps the invariant, and from an answered state it loses a result or leads to an answered
state. -/
def Good (s : Stream σ κ) (e : StreamEvent ρ ι) (s' : Stream σ κ) : Prop :=
  A.Inv s' ∧ (A.Answered s → (A.Answered s' ↔ ¬ A.LosesAt s e))

theorem good_give {s : Stream σ κ} (hi : A.Inv s) {u : Uuid} (request : CreateOrderRequest) (now : String) (r : ρ)
    (hnew : u ∉ s.given) (hposition : s.loop.position = .fetching) :
    A.Good s (.give u request now r) (s.moved (s.given ++ [u])
      (ConsumerLoop.after (L.receive s.loop.store (createdValue u request now) r))) := by
  obtain ⟨k, hreceive, hworking⟩ := A.receive s.loop.store u request now r
  rw [hreceive]
  have hpast := hi.idle hposition
  refine ⟨⟨?_, ?_, ?_⟩, fun hg => iff_of_true hg ?_⟩
  · intro u' hu'
    exact hi.unseen u' fun hmem => hu' (List.mem_append_left _ hmem)
  · intro h
    cases h
  · intro k' hk'
    cases hk'
    refine ⟨u, ?_, ?_, .inl ⟨hworking, hi.unseen u hnew⟩⟩
    · change s.given ++ [u] = s.past ++ [u]
      rw [hpast]
    · change u ∉ s.past
      rwa [hpast]
  · rintro ⟨k', i, he, -, -⟩
    cases he

section Advance

variable {s : Stream σ κ} {u : Uuid} {k : κ} {i : ι} {p : σ × Stretch κ}

/-- **The outcome is drawn**: the record is written, and the publication starts. -/
theorem good_work (hi : A.Inv s) (hposition : s.loop.position = .awaiting k) (hgiven : s.given = s.past ++ [u])
    (hu : u ∉ s.past) (hworking : A.Working u k) (hnone : resultsFor u (A.results s.loop.store) = [])
    (hadvance : L.advance s.loop.store k i = some p) :
    A.Good s (.advance i : StreamEvent ρ ι) (s.moved s.given (ConsumerLoop.after p)) := by
  obtain ⟨hkeeps, event, k', r, hstretch, hpublishing, hid, hresults, htold, hrecord, hother⟩ :=
    A.work hworking hadvance
  obtain ⟨st, stretch⟩ := p
  dsimp only at hstretch hresults hrecord hother
  subst hstretch
  have hsame : ∀ u', resultsFor u' (A.results st) = resultsFor u' (A.results s.loop.store) := by
    intro u'
    rw [hresults]
  refine ⟨⟨?_, ?_, ?_⟩, fun hg => iff_of_true ?_ ?_⟩
  · intro u' hu'
    exact (hsame u').trans (hi.unseen u' hu')
  · intro h
    cases h
  · intro k'' hk''
    cases hk''
    exact ⟨u, hgiven, hu, .inr ⟨event, false, r, hpublishing, hid, htold, hrecord, .inl ⟨rfl, (hsame u).trans hnone⟩⟩⟩
  · apply Answered.frame A hg (t := s.moved s.given (ConsumerLoop.after (st, .await k')))
    · exact fun u' _ => hsame u'
    · rintro u' hu'
      apply hother
      rintro rfl
      exact hu hu'
  · rwa [A.losesAt_advance hposition]

/-- **The result lands on its topic.** -/
theorem good_land (hi : A.Inv s) (hposition : s.loop.position = .awaiting k) (hgiven : s.given = s.past ++ [u])
    (hu : u ∉ s.past) {event : Json.Members} {r : R} (hid : Json.get event "order_id" (.str "") = .str u.str)
    (htold : A.told event = some r) (hrecord : A.record s.loop.store u = some r)
    (hnone : resultsFor u (A.results s.loop.store) = []) {st : σ} {k' : κ} {key : Option String}
    (hpublishing : A.Publishing event true k') (hkeeps : ¬ A.Loses k i)
    (hsame : ∀ u, A.record st u = A.record s.loop.store u)
    (hresults : A.results st = A.results s.loop.store ++ [(key, event)]) :
    A.Good s (.advance i : StreamEvent ρ ι) (s.moved s.given (ConsumerLoop.after (st, .await k'))) := by
  have hothers : ∀ u', u' ≠ u → resultsFor u' (A.results st) = resultsFor u' (A.results s.loop.store) := by
    intro u' hne
    rw [hresults, resultsFor_other hid hne]
  refine ⟨⟨?_, ?_, ?_⟩, fun hg => iff_of_true ?_ ?_⟩
  · intro u' hu'
    refine (hothers u' ?_).trans (hi.unseen u' hu')
    rintro rfl
    exact hu' (by rw [Stream.moved, hgiven]; simp)
  · intro h
    cases h
  · intro k'' hk''
    cases hk''
    refine ⟨u, hgiven, hu, .inr ⟨event, true, r, hpublishing, hid, htold, (hsame u).trans hrecord,
      .inr ⟨rfl, key, ?_⟩⟩⟩
    change resultsFor u (A.results st) = [(key, event)]
    rw [hresults, resultsFor_append, hnone, hid]
    simp
  · apply Answered.frame A hg (t := s.moved s.given (ConsumerLoop.after (st, .await k')))
    · rintro u' hu'
      apply hothers
      rintro rfl
      exact hu hu'
    · exact fun u' _ => hsame u'
  · rwa [A.losesAt_advance hposition]

/-- **The publication ends**: the order is answered exactly when its result is on the topic. -/
theorem good_done (hi : A.Inv s) (hposition : s.loop.position = .awaiting k) (hgiven : s.given = s.past ++ [u])
    {event : Json.Members} {r : R} {landed : Bool} (htold : A.told event = some r)
    (hrecord : A.record s.loop.store u = some r)
    (hlanded : landed = false ∧ resultsFor u (A.results s.loop.store) = [] ∨
      landed = true ∧ ∃ key, resultsFor u (A.results s.loop.store) = [(key, event)]) {st : σ}
    (hsame : ∀ u, A.record st u = A.record s.loop.store u) (hresults : A.results st = A.results s.loop.store)
    (hloses : A.Loses k i ↔ landed = false) :
    A.Good s (.advance i : StreamEvent ρ ι) (s.moved s.given (ConsumerLoop.after (st, .done))) := by
  have hpast : (s.moved s.given (ConsumerLoop.after (st, .done))).past = s.past ++ [u] := hgiven
  refine ⟨⟨?_, fun _ => rfl, ?_⟩, fun hg => ?_⟩
  · intro u' hu'
    change resultsFor u' (A.results st) = []
    rw [hresults]
    exact hi.unseen u' hu'
  · intro k'' hk''
    cases hk''
  · rw [A.losesAt_advance hposition, hloses]
    have hold : AllAnswered (A.results st) (A.record st) A.told s.past := by
      apply Answered.frame A hg (t := s.moved s.given (ConsumerLoop.after (st, .done)))
      · intro u' _
        exact congrArg (resultsFor u') hresults
      · exact fun u' _ => hsame u'
    change AllAnswered (A.results st) (A.record st) A.told (s.moved s.given (ConsumerLoop.after (st, .done))).past ↔ _
    rw [hpast]
    constructor
    · intro hg' hl
      obtain ⟨entry, -, hentry, -, -⟩ := hg' u (by simp)
      rw [hresults] at hentry
      rcases hlanded with ⟨-, hnone⟩ | ⟨h, -⟩
      · rw [hnone] at hentry
        cases hentry
      · rw [hl] at h
        cases h
    · intro hl u' hu'
      rw [List.mem_append, List.mem_singleton] at hu'
      rcases hu' with hu' | rfl
      · exact hold u' hu'
      · rcases hlanded with ⟨h, -⟩ | ⟨-, key, hentry⟩
        · exact absurd h hl
        · exact ⟨(key, event), r, by rw [hresults, hentry], htold, (hsame u').trans hrecord⟩

end Advance

/-- **Every step is good.** -/
theorem good_step (s : Stream σ κ) (e : StreamEvent ρ ι) (s' : Stream σ κ) (hi : A.Inv s)
    (hst : (stream L).step s e = some s') : A.Good s e s' := by
  cases streamStep_sound hst with
  | give request now r hnew hposition => exact A.good_give hi request now r hnew hposition
  | @advance k i p hposition hadvance =>
    obtain ⟨u, hgiven, hu, ⟨hworking, hnone⟩ | ⟨event, landed, r, hpublishing, hid, htold, hrecord, hlanded⟩⟩ :=
      hi.handles k hposition
    · exact A.good_work hi hposition hgiven hu hworking hnone hadvance
    · obtain ⟨st, stretch⟩ := p
      obtain ⟨hsame, ⟨rfl, hkeeps, key, k', rfl, hpublishing', hresults⟩ | ⟨rfl, hresults, hloses⟩⟩ :=
        A.publish hpublishing hadvance
      · have hnone : resultsFor u (A.results s.loop.store) = [] := by
          rcases hlanded with ⟨-, hnone⟩ | ⟨h, -⟩
          · exact hnone
          · cases h
        exact A.good_land hi hposition hgiven hu hid htold hrecord hnone hpublishing' hkeeps hsame hresults
      · exact A.good_done hi hposition hgiven htold hrecord hlanded hsame hresults hloses
  | cancel =>
    refine ⟨⟨hi.unseen, ?_, ?_⟩, fun hg => iff_of_true hg ?_⟩
    · intro h
      cases h
    · intro k h
      cases h
    · rintro ⟨k', i, he, -, -⟩
      cases he

/-- **Every order is answered, in every state of a run, exactly when no publication raises before its event is on the
topic.** -/
theorem answered_iff (es : List (StreamEvent ρ ι)) :
    (stream L).Along (fun _ _ s' => A.Answered s') (stream L).init es ↔
      (stream L).Along (fun s e _ => ¬ A.LosesAt s e) (stream L).init es := by
  apply (stream L).always_iff_along (I := A.Inv)
  · exact fun s e s' hi _ hst _ => (A.good_step s e s' hi hst).1
  · exact fun s e s' hi hg hst => (A.good_step s e s' hi hst).2 hg
  · exact A.inv_init
  · intro u hu
    cases hu

/-- A loop that has moved past an order without any result has not answered it. -/
theorem not_answered_of_lost {u : Uuid} {es : List (StreamEvent ρ ι)} (hlost : ((stream L).run (stream L).init es).any
      (fun s => decide (s.past = [u] ∧ (A.results s.loop.store).length = 0)) = true) :
    ¬ (stream L).Along (fun _ _ s' => A.Answered s') (stream L).init es := by
  intro h
  obtain ⟨s, hrun, hs⟩ := (Option.any_eq_true ..).1 hlost
  obtain ⟨hpast, hresults⟩ := of_decide_eq_true hs
  have hend := Lts.along_end _ hrun (fun u hu => by cases hu) h
  obtain ⟨entry, r, hentry, -, -⟩ := hend u (by rw [hpast]; exact List.mem_singleton.2 rfl)
  rw [List.length_eq_zero_iff.1 hresults] at hentry
  cases hentry

end Answering

/-! ## The two services -/

theorem created_orderId (u : Uuid) (request : CreateOrderRequest) (now : String) :
    Json.get (createOrder .empty u request now).2 "order_id" (.str "") = .str u.str := by
  simp [createOrder, Json.get, Dict.find]

theorem created_items (u : Uuid) (request : CreateOrderRequest) (now : String) :
    Json.get (createOrder .empty u request now).2 "items" (.arr []) = .arr (request.items.map OrderItem.dump) := by
  simp [createOrder, Json.get, Dict.find]

/-- A publication that ends loses its event exactly when the event is not on the topic: only a raise ends it before
that. -/
theorem loses_iff {κ ι : Type} (publish : Json.Members → Bool → κ)
    (hinj : ∀ {e e' : Json.Members} {b b' : Bool}, publish e b = publish e' b' → b = b') {raised published i : ι}
    {event : Json.Members} {landed : Bool} (hover : i = raised ∨ landed = true ∧ i = published) :
    (i = raised ∧ ∃ event', publish event landed = publish event' false) ↔ landed = false := by
  constructor
  · rintro ⟨-, event', h⟩
    exact hinj h
  · rintro rfl
    rcases hover with hraised | ⟨hlanded, -⟩
    · exact ⟨hraised, event, rfl⟩
    · cases hlanded

/-- The record that a PAYMENT_COMPLETED or a PAYMENT_FAILED tells of. -/
def paymentTold (event : Json.Members) : Option PaymentRecord :=
  if (Json.get event "event_type").isStr "PAYMENT_COMPLETED" then
    match Json.get event "transaction_id" with
    | .str transactionId => some (.completed (Json.get event "amount") transactionId)
    | _ => none
  else if (Json.get event "event_type").isStr "PAYMENT_FAILED" then
    match Json.get event "reason" with
    | .str reason => some (.failed reason)
    | _ => none
  else none

theorem paymentResult_told (failureRate : ℚ) (orderId totalPrice : Json) (random : ℚ) (transactionId : String)
    (choice : Fin reasons.length) (now : String) :
    let p := paymentResult failureRate orderId totalPrice random transactionId choice now
    paymentTold p.1 = some p.2 ∧ Json.get p.1 "order_id" (.str "") = orderId := by
  unfold paymentResult
  split <;> simp [paymentTold, Json.get, Dict.find]

/-- **The payment service answers.** -/
def paymentAnswering (loads : String → Option Json) (failureRate : ℚ) :
    Answering (paymentLoop loads failureRate) PaymentRecord where
  results st := st.results
  record st u := st.paymentRecords.get? (.str u.str)
  told := paymentTold
  Working u k := ∃ totalPrice, k = .process (.str u.str) totalPrice
  Publishing event landed k := k = .publish event landed ∧ ∃ u : Uuid, Json.get event "order_id" (.str "") = .str u.str
  Loses k i := i = .publishFailed ∧ ∃ event, k = .publish event false
  start := rfl
  receive st u request now r := by
    refine ⟨.process (.str u.str) (Json.get (createOrder .empty u request now).2 "total_price" (.num 0)), ?_, _, rfl⟩
    change receiveOrder st (createdValue u request now) = _
    simp only [receiveOrder, createdValue, created_orderId]
  work := by
    rintro st u k i p ⟨totalPrice, rfl⟩ hadvance
    change advancePayment failureRate st _ i = some p at hadvance
    cases i with
    | process random transactionId choice now =>
      have htold := paymentResult_told failureRate (.str u.str) totalPrice random transactionId choice now
      simp only [advancePayment, Json.key?_str, Option.some.injEq] at hadvance
      subst hadvance
      refine ⟨?_, _, _, _, rfl, ⟨rfl, u, htold.2⟩, htold.2, rfl, htold.1, Dict.get?_set_self .., ?_⟩
      · rintro ⟨h, -⟩
        cases h
      · intro u' hne
        apply Dict.get?_set_ne
        intro h
        exact hne (Uuid.ext (Json.Key.str.inj h))
    | _ => cases hadvance
  publish := by
    rintro st event landed k i p ⟨rfl, u, hid⟩ hadvance
    rcases advancePayment_publish hadvance with ⟨rfl, rfl, key, rfl⟩ | ⟨rfl, hover⟩
    · refine ⟨fun _ => rfl, .inl ⟨rfl, ?_, key, _, rfl, ⟨rfl, u, hid⟩, rfl⟩⟩
      rintro ⟨h, -⟩
      cases h
    · refine ⟨fun _ => rfl, .inr ⟨rfl, rfl, ?_⟩⟩
      exact loses_iff PaymentAwait.publish (fun h => (PaymentAwait.publish.inj h).2) hover

/-- The record that an INVENTORY_RESERVED or an INVENTORY_FAILED tells of. -/
def inventoryTold (event : Json.Members) : Option ReservationRecord :=
  if (Json.get event "event_type").isStr "INVENTORY_RESERVED" then some (.reserved (Json.get event "items"))
  else if (Json.get event "event_type").isStr "INVENTORY_FAILED" then
    match Json.get event "reason" with
    | .str reason => some (.failed reason)
    | _ => none
  else none

/-- `random.choice` finds an item of the order, or there is none to find. -/
theorem failedItem_created {items : List OrderItem} {choice : Nat} (h : choice < max items.length 1) :
    ∃ item, failedItem (.arr (items.map OrderItem.dump)) choice = some item := by
  cases items with
  | nil => exact ⟨[], rfl⟩
  | cons i items =>
    have hlt : choice < (i :: items).length := by simpa using h
    have htruthy : ¬ (Json.truthy (.arr ((i :: items).map OrderItem.dump)) = false) := by simp [Json.truthy]
    unfold failedItem
    rw [if_neg htruthy]
    simp only [List.getElem?_map, List.getElem?_eq_getElem hlt, Option.map_some]
    exact ⟨_, rfl⟩

theorem inventoryResult_told (env : InventoryEnv) (orderId : Json) {items : List OrderItem} (random : ℚ)
    (warehouse : Fin 5) {choice : Nat} (h : choice < max items.length 1) (now : String) :
    ∃ event record, inventoryResult env orderId (.arr (items.map OrderItem.dump)) random warehouse choice now =
      some (event, record) ∧ inventoryTold event = some record ∧ Json.get event "order_id" (.str "") = orderId := by
  unfold inventoryResult
  split
  · exact ⟨_, _, rfl, by simp [inventoryTold, Json.get, Dict.find], by simp [Json.get, Dict.find]⟩
  · obtain ⟨item, hitem⟩ := failedItem_created h
    rw [hitem]
    exact ⟨_, _, rfl, by simp [inventoryTold, Json.get, Dict.find], by simp [Json.get, Dict.find]⟩

/-- **The inventory service answers.** -/
def inventoryAnswering (env : InventoryEnv) : Answering (inventoryLoop env) ReservationRecord where
  results st := st.results
  record st u := st.reservationRecords.get? (.str u.str)
  told := inventoryTold
  Working u k := ∃ items : List OrderItem, k = .check (.str u.str) (.arr (items.map OrderItem.dump))
  Publishing event landed k := k = .publish event landed ∧ ∃ u : Uuid, Json.get event "order_id" (.str "") = .str u.str
  Loses k i := i = .publishFailed ∧ ∃ event, k = .publish event false
  start := rfl
  receive st u request now r := by
    refine ⟨.check (.str u.str) (.arr (request.items.map OrderItem.dump)), ?_, _, rfl⟩
    change receiveForStock st (createdValue u request now) = _
    simp only [receiveForStock, createdValue, created_orderId, created_items, sized, if_true]
  work := by
    rintro st u k i p ⟨items, rfl⟩ hadvance
    change advanceInventory env st _ i = some p at hadvance
    cases i with
    | check random warehouse choice now =>
      dsimp only [advanceInventory] at hadvance
      split at hadvance
      · rename_i hchoice
        rw [List.length_map] at hchoice
        obtain ⟨event, record, hresult, htold, hid⟩ :=
          inventoryResult_told env (.str u.str) random warehouse hchoice now
        simp only [advanceInventory.reserve, hresult, Json.key?_str, Option.some.injEq] at hadvance
        subst hadvance
        refine ⟨?_, event, _, record, rfl, ⟨rfl, u, hid⟩, hid, rfl, htold, Dict.get?_set_self .., ?_⟩
        · rintro ⟨h, -⟩
          cases h
        · intro u' hne
          apply Dict.get?_set_ne
          intro h
          exact hne (Uuid.ext (Json.Key.str.inj h))
      · cases hadvance
    | _ => cases hadvance
  publish := by
    rintro st event landed k i p ⟨rfl, u, hid⟩ hadvance
    rcases advanceInventory_publish hadvance with ⟨rfl, rfl, key, rfl⟩ | ⟨rfl, hover⟩
    · refine ⟨fun _ => rfl, .inl ⟨rfl, ?_, key, _, rfl, ⟨rfl, u, hid⟩, rfl⟩⟩
      rintro ⟨h, -⟩
      cases h
    · refine ⟨fun _ => rfl, .inr ⟨rfl, rfl, ?_⟩⟩
      exact loses_iff InventoryAwait.publish (fun h => (InventoryAwait.publish.inj h).2) hover

/-- `publish_payment_result` raises, and the result is not on `payment.result`. -/
def LosesPayment (s : Stream PaymentStore PaymentAwait) (e : StreamEvent Unit PaymentReturn) : Prop :=
  e = .advance .publishFailed ∧ ∃ resultEvent, s.loop.position = .awaiting (.publish resultEvent false)

/-- `publish_inventory_result` raises, and the result is not on `inventory.result`. -/
def LosesReservation (s : Stream InventoryStore InventoryAwait) (e : StreamEvent Unit InventoryReturn) : Prop :=
  e = .advance .publishFailed ∧ ∃ resultEvent, s.loop.position = .awaiting (.publish resultEvent false)

/-- Each order the payment service has moved past has exactly one result on `payment.result`, and its entry in
`payment_records` is what the result tells of. -/
def PaymentsAnswered (s : Stream PaymentStore PaymentAwait) : Prop :=
  AllAnswered s.loop.store.results (fun u => s.loop.store.paymentRecords.get? (.str u.str)) paymentTold s.past

/-- Each order the inventory service has moved past has exactly one result on `inventory.result`, and its entry in
`reservation_records` is what the result tells of. -/
def ReservationsAnswered (s : Stream InventoryStore InventoryAwait) : Prop :=
  AllAnswered s.loop.store.results (fun u => s.loop.store.reservationRecords.get? (.str u.str)) inventoryTold s.past

/-- **Every order is answered once, in every state of a run of either service, exactly when no publication raises
before its event is on the topic.** -/
theorem one_result_iff (loads : String → Option Json) (failureRate : ℚ) (env : InventoryEnv)
    (payments : List (StreamEvent Unit PaymentReturn)) (reservations : List (StreamEvent Unit InventoryReturn)) :
    ((stream (paymentLoop loads failureRate)).Along (fun _ _ s' => PaymentsAnswered s')
        (stream (paymentLoop loads failureRate)).init payments ↔
      (stream (paymentLoop loads failureRate)).Along (fun s e _ => ¬ LosesPayment s e)
        (stream (paymentLoop loads failureRate)).init payments) ∧
    ((stream (inventoryLoop env)).Along (fun _ _ s' => ReservationsAnswered s') (stream (inventoryLoop env)).init
        reservations ↔
      (stream (inventoryLoop env)).Along (fun s e _ => ¬ LosesReservation s e) (stream (inventoryLoop env)).init
        reservations) := by
  constructor
  · refine ((paymentAnswering loads failureRate).answered_iff payments).trans ?_
    have hloses : ∀ s e, (paymentAnswering loads failureRate).LosesAt s e ↔ LosesPayment s e :=
      (paymentAnswering loads failureRate).losesAt_iff fun _ _ => Iff.rfl
    simp only [hloses]
  · refine ((inventoryAnswering env).answered_iff reservations).trans ?_
    have hloses : ∀ s e, (inventoryAnswering env).LosesAt s e ↔ LosesReservation s e :=
      (inventoryAnswering env).losesAt_iff fun _ _ => Iff.rfl
    simp only [hloses]

def unansweredOrder : Uuid := ⟨"f06a3d81-c9e4-4b27-8d15-72b8e3f0a9c6", by decide⟩

def unansweredRequest : CreateOrderRequest := { userId := "user-001", items := [] }

/-- The payment of an order completes, and `publish_payment_result` raises at once. -/
def paidUnpublished : List (StreamEvent Unit PaymentReturn) :=
  [.give unansweredOrder unansweredRequest "2025-01-01T00:00:00" (),
    .advance (.process 1 "1a2b3c4d" ⟨0, by decide⟩ "2025-01-01T00:00:01"), .advance .publishFailed]

/-- Its items are reserved, and `publish_inventory_result` raises at once. -/
def reservedUnpublished : List (StreamEvent Unit InventoryReturn) :=
  [.give unansweredOrder unansweredRequest "2025-01-01T00:00:00" (),
    .advance (.check 1 0 0 "2025-01-01T00:00:01"), .advance .publishFailed]

/-- Both loops have moved past the order, and neither topic has a result. -/
theorem unpublished_not_answered :
    ¬ (stream (paymentLoop (fun _ => none) (1 / 5))).Along (fun _ _ s' => PaymentsAnswered s')
      (stream (paymentLoop (fun _ => none) (1 / 5))).init paidUnpublished ∧
    ¬ (stream (inventoryLoop ⟨fun _ => none, fun _ => "", 3 / 20⟩)).Along (fun _ _ s' => ReservationsAnswered s')
      (stream (inventoryLoop ⟨fun _ => none, fun _ => "", 3 / 20⟩)).init reservedUnpublished := by
  constructor
  · exact (paymentAnswering _ _).not_answered_of_lost (u := unansweredOrder) (by decide +kernel)
  · exact (inventoryAnswering _).not_answered_of_lost (u := unansweredOrder) (by decide +kernel)

end Cqrs
end KafkaGuide
