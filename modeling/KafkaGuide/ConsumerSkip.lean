import KafkaGuide.Consumer
/-!
# ConsumerSkip — when no record is passed over

An offset is covered once its event is in `processed_events`, which happens before the business step.  The items a
process has still to do are `Safe`: each commit among them comes after the messages that cover all offsets below it.  So
a committed offset never passes an offset that is not covered, and it passes no record whose business step has not run
as long as no crash falls between a mark and its business step.
-/
namespace KafkaGuide
namespace Consumer

open Outbox (Record)

/-! ## Safe items -/

/-- Done in order, the items commit only offsets below which all is in `C`, and end with all below the positions in
`C`: a message adds its own offset. -/
def Safe (position : Nat → Nat) : (Nat → Nat → Prop) → List Item → Prop
  | C, [] => ∀ tp, ∀ o < position tp, C tp o
  | C, .msg tp o :: todo => Safe position (fun tp' o' => C tp' o' ∨ tp' = tp ∧ o' = o) todo
  | C, .commit tp next :: todo => (∀ o < next, C tp o) ∧ Safe position C todo

theorem Safe.mono {position : Nat → Nat} : ∀ {todo : List Item} {C D : Nat → Nat → Prop},
    (∀ tp o, C tp o → D tp o) → Safe position C todo → Safe position D todo
  | [], _, _, hCD, h => fun tp o ho => hCD tp o (h tp o ho)
  | .msg _ _ :: todo, _, _, hCD, h => @Safe.mono position todo _ _ (fun tp o => Or.imp_left (hCD tp o)) h
  | .commit tp _ :: _, _, _, hCD, h => ⟨fun o ho => hCD tp o (h.1 o ho), h.2.mono hCD⟩

/-- Positions may move to offsets below which all is in `C`. -/
theorem Safe.move {position position' : Nat → Nat} : ∀ {todo : List Item} {C : Nat → Nat → Prop},
    (∀ tp, ∀ o < position' tp, o < position tp ∨ C tp o) → Safe position C todo → Safe position' C todo
  | [], _, hmove, h => fun tp o ho => (hmove tp o ho).elim (h tp o) id
  | .msg _ _ :: todo, _, hmove, h =>
    @Safe.move position position' todo _ (fun tp o ho => (hmove tp o ho).imp_right .inl) h
  | .commit _ _ :: _, _, hmove, h => ⟨h.1, h.2.move hmove⟩

theorem safe_msgs {position : Nat → Nat} (tp : Nat) : ∀ (n p : Nat) {todo : List Item} {C : Nat → Nat → Prop},
    Safe position (fun tp' o => C tp' o ∨ tp' = tp ∧ p ≤ o ∧ o < p + n) todo →
    Safe position C ((List.range' p n).map (.msg tp) ++ todo)
  | 0, p, todo, C, h => by
    refine h.mono fun tp' o hC => ?_
    rcases hC with hC | ⟨-, hle, hlt⟩
    · exact hC
    · omega
  | n + 1, p, todo, C, h => by
    refine safe_msgs tp n (p + 1) (h.mono fun tp' o hC => ?_)
    rcases hC with hC | ⟨rfl, hle, hlt⟩
    · exact .inl (.inl hC)
    · by_cases ho : o = p
      · exact .inl (.inr ⟨rfl, ho⟩)
      · exact .inr ⟨rfl, by omega, by omega⟩

/-- One partition's loop, from an offset below which all is in `C`. -/
theorem safe_messages {position : Nat → Nat} {tp p n : Nat} {todo : List Item} {C : Nat → Nat → Prop}
    (hp : ∀ o < p, C tp o) (h : Safe position (fun tp' o => C tp' o ∨ tp' = tp ∧ p ≤ o ∧ o < p + n) todo) :
    Safe position C (messages tp p n ++ todo) := by
  unfold messages
  rw [List.append_assoc]
  refine safe_msgs tp n p ?_
  split
  · exact h
  · refine ⟨fun o ho => ?_, h⟩
    by_cases hlt : o < p
    · exact .inl (hp o hlt)
    · exact .inr ⟨rfl, by omega, ho⟩

/-- **A batch fetched from positions below which all is in `C` is safe.** -/
theorem safe_batch (position : Nat → Nat) : ∀ (batch : List (Nat × Nat)) {C : Nat → Nat → Prop},
    (∀ tp, ∀ o < position tp, C tp o) →
    Safe (fun tp => position tp + (Dict.find tp batch).getD 0) C
      (batch.flatMap (fun b => messages b.1 (position b.1) b.2))
  | [], _, hpos => hpos
  | b :: batch, C, hpos => by
    rw [List.flatMap_cons]
    refine safe_messages (hpos b.1) (Safe.move (fun tp o ho => ?_)
      (safe_batch position batch (fun tp o ho => .inl (hpos tp o ho))))
    rw [Dict.find] at ho
    split at ho
    · rename_i htp
      subst htp
      by_cases hlt : o < position b.1
      · exact .inr (.inl (hpos b.1 o hlt))
      · exact .inr (.inr ⟨rfl, by omega, ho⟩)
    · exact .inl ho

/-! ## The invariant -/

variable {parse : String → Option Uuid}

/-- The record at an offset exists, and its event, if it has one, is in `P`. -/
def Covered (parse : String → Option Uuid) (log : Nat → List Record) (P : Uuid → Prop) (tp o : Nat) : Prop :=
  ∃ rec, (log tp)[o]? = some rec ∧
    ∀ text, header rec "event_id" = some text → ∃ eventId, parse text = some eventId ∧ P eventId

theorem Covered.mono {log log' : Nat → List Record} {P Q : Uuid → Prop}
    (hlog : ∀ (tp o : Nat) (rec : Record), (log tp)[o]? = some rec → (log' tp)[o]? = some rec) (hPQ : ∀ e, P e → Q e)
    {tp o : Nat} (h : Covered parse log P tp o) : Covered parse log' Q tp o := by
  obtain ⟨rec, hrec, hevent⟩ := h
  refine ⟨rec, hlog tp o rec hrec, fun text ht => ?_⟩
  obtain ⟨eventId, hparse, hP⟩ := hevent text ht
  exact ⟨eventId, hparse, hPQ eventId hP⟩

def Group.Executed (g : Group) (eventId : Uuid) : Prop := ∃ rec, (eventId, rec) ∈ g.executed

structure Inv (parse : String → Option Uuid) (s : Sys) : Prop where
  executed : ∀ e, s.group.Executed e → e ∈ s.group.processed
  processed : ∀ e ∈ s.group.processed, s.group.Executed e ∨ ∃ c rec, s.process = some c ∧ c.marked = some (e, rec)
  marked : ∀ c p, s.process = some c → c.marked = some p → p.1 ∈ s.group.processed
  committed : ∀ tp, ∀ o < s.group.committed tp, Covered parse s.log s.group.Executed tp o
  safe : ∀ c, s.process = some c →
    Safe c.position (Covered parse s.log (fun e => e ∈ s.group.processed)) c.todo

/-- The process dies between a mark and the business step of the event. -/
def LosesMark (s : Sys) : Event → Prop
  | .consumer .crash => s.process.any (fun c => c.marked.isSome) = true
  | _ => False

instance (s : Sys) (e : Event) : Decidable (LosesMark s e) := by
  unfold LosesMark
  split <;> infer_instance

theorem inv_init : Inv parse {} where
  executed _ h := by
    obtain ⟨_, h⟩ := h
    cases h
  processed _ h := nomatch h
  marked _ _ h := nomatch h
  committed _ _ h := nomatch h
  safe _ h := nomatch h

theorem Inv.append {s : Sys} (hi : Inv parse s) (tp : Nat) (rec : Record) :
    Inv parse { s with log := fun tp' => if tp' = tp then s.log tp' ++ [rec] else s.log tp' } := by
  have hlog : ∀ (tp' o : Nat) (rec' : Record), (s.log tp')[o]? = some rec' →
      (if tp' = tp then s.log tp' ++ [rec] else s.log tp')[o]? = some rec' := fun tp' o rec' h => by
    split
    · exact List.getElem?_append_left (List.getElem?_eq_some_iff.1 h).1 ▸ h
    · exact h
  constructor
  case executed => exact hi.executed
  case processed => exact hi.processed
  case marked => exact hi.marked
  case committed => exact fun tp' o ho => (hi.committed tp' o ho).mono hlog (fun _ h => h)
  case safe => exact fun c hc => (hi.safe c hc).mono (fun tp' o h => h.mono hlog (fun _ h => h))

/-- Below the committed offsets all is covered. -/
theorem Inv.covered {s : Sys} (hi : Inv parse s) (tp o : Nat) (ho : o < s.group.committed tp) :
    Covered parse s.log (fun e => e ∈ s.group.processed) tp o :=
  (hi.committed tp o ho).mono (fun _ _ _ h => h) hi.executed

theorem unmarked_of {s : Sys} {c : Process} (hp : s.process = some c) (hmarked : c.marked = none) :
    ∀ c', s.process = some c' → c'.marked = none := by
  intro c' hc
  rw [hp] at hc
  cases hc
  exact hmarked

/-- **Where no mark waits for its business step**, what is processed has been executed. -/
theorem Inv.executed_of_unmarked {s : Sys} (hi : Inv parse s) (hnone : ∀ c, s.process = some c → c.marked = none) :
    ∀ e ∈ s.group.processed, s.group.Executed e := by
  intro e he
  refine (hi.processed e he).resolve_right ?_
  rintro ⟨c, rec, hc, hmarked⟩
  rw [hnone c hc] at hmarked
  cases hmarked

/-- A process with no mark, over a group whose tables are as they were. -/
theorem Inv.unmarked {s : Sys} (hi : Inv parse s) (hnone : ∀ c, s.process = some c → c.marked = none)
    {c : Process} (hmarked : c.marked = none)
    (hsafe : Safe c.position (Covered parse s.log (fun e => e ∈ s.group.processed)) c.todo) :
    Inv parse { s with process := some c } where
  executed := hi.executed
  processed e he := .inl (hi.executed_of_unmarked hnone e he)
  marked c' p hc hm := by
    cases hc
    rw [hmarked] at hm
    cases hm
  committed := hi.committed
  safe c' hc := by
    cases hc
    exact hsafe

/-- The process is gone; it had no mark. -/
theorem Inv.gone {s : Sys} (hi : Inv parse s) (hnone : ∀ c, s.process = some c → c.marked = none) :
    Inv parse { s with process := none } where
  executed := hi.executed
  processed e he := .inl (hi.executed_of_unmarked hnone e he)
  marked _ _ h := nomatch h
  committed := hi.committed
  safe _ h := nomatch h

/-- The rebalance takes a position back to the committed offset, below which all is covered. -/
theorem Inv.seek {s : Sys} (hi : Inv parse s) {c : Process} (hp : s.process = some c) (tp : Nat) :
    Inv parse { s with process := some { c with
      position := fun tp' => if tp' = tp then s.group.committed tp else c.position tp' } } where
  executed := hi.executed
  processed e he := (hi.processed e he).imp_right fun ⟨c', rec, hc, hmarked⟩ => by
    rw [hp] at hc
    cases hc
    exact ⟨_, rec, rfl, hmarked⟩
  marked c' p hc hm := by
    cases hc
    exact hi.marked c p hp hm
  committed := hi.committed
  safe c' hc := by
    cases hc
    refine (hi.safe c hp).move fun tp' o ho => ?_
    dsimp only at ho
    split at ho
    · rename_i htp
      subst htp
      exact .inr (hi.covered tp' o ho)
    · exact .inl ho

/-- **`_mark_processed`**: what is skipped is covered already, and a mark covers its record. -/
theorem Inv.mark {s : Sys} (hi : Inv parse s) {c : Process} (hp : s.process = some c) {tp offset : Nat}
    {todo : List Item} {rec : Record} (hmarked : c.marked = none) (htodo : c.todo = .msg tp offset :: todo)
    (hget : (s.log tp)[offset]? = some rec) :
    Inv parse { s with
      group := (markNext parse s.group c todo rec).1
      process := (markNext parse s.group c todo rec).2 } := by
  have hnone := unmarked_of hp hmarked
  have hnext := hi.safe c hp
  rw [htodo] at hnext
  rcases markNext_cases parse s.group c todo rec with ⟨heq, hskip⟩ | heq | ⟨text, eventId, htext, hparse, hnew, heq⟩
  · rw [heq]
    refine hi.unmarked (c := { c with todo }) hnone hmarked (hnext.mono fun tp' o ho => ho.elim id ?_)
    rintro ⟨rfl, rfl⟩
    exact ⟨rec, hget, hskip⟩
  · rw [heq]
    exact hi.gone hnone
  · rw [heq]
    constructor
    case executed => exact fun e he => List.mem_append_left _ (hi.executed e he)
    case processed =>
      intro e he
      rcases List.mem_append.1 he with he | he
      · exact .inl (hi.executed_of_unmarked hnone e he)
      · rw [List.mem_singleton.1 he]
        exact .inr ⟨_, rec, rfl, rfl⟩
    case marked =>
      intro c' p hc hm
      cases hc
      cases hm
      exact List.mem_append_right _ List.mem_cons_self
    case committed => exact hi.committed
    case safe =>
      intro c' hc
      cases hc
      refine hnext.mono fun tp' o ho => ?_
      rcases ho with ho | ⟨rfl, rfl⟩
      · exact ho.mono (fun _ _ _ h => h) (fun e he => List.mem_append_left _ he)
      · refine ⟨rec, hget, fun text' ht => ?_⟩
        rw [htext] at ht
        cases ht
        exact ⟨eventId, hparse, List.mem_append_right _ List.mem_cons_self⟩

/-- The business step of the marked event. -/
theorem Inv.business {s : Sys} (hi : Inv parse s) {c : Process} (hp : s.process = some c) {p : Uuid × Record}
    (hmarked : c.marked = some p) :
    Inv parse { s with
      group := { s.group with executed := s.group.executed ++ [p] }
      process := some { c with marked := none } } := by
  have hgrow : ∀ e, s.group.Executed e → Group.Executed { s.group with executed := s.group.executed ++ [p] } e :=
    fun e ⟨rec, h⟩ => ⟨rec, List.mem_append_left _ h⟩
  constructor
  case executed =>
    rintro e ⟨rec, he⟩
    rcases List.mem_append.1 he with he | he
    · exact hi.executed e ⟨rec, he⟩
    · rw [List.mem_singleton] at he
      have hmem := hi.marked c p hp hmarked
      rw [← he] at hmem
      exact hmem
  case processed =>
    intro e he
    rcases hi.processed e he with hdone | ⟨c', rec, hc, hmarked'⟩
    · exact .inl (hgrow e hdone)
    · rw [hp] at hc
      cases hc
      rw [hmarked] at hmarked'
      cases hmarked'
      exact .inl ⟨rec, List.mem_append_right _ List.mem_cons_self⟩
  case marked =>
    intro c' p' hc hm
    cases hc
    cases hm
  case committed => exact fun tp o ho => (hi.committed tp o ho).mono (fun _ _ _ h => h) hgrow
  case safe =>
    intro c' hc
    cases hc
    exact hi.safe c hp

/-- **The commit of a partition's offset** comes after the messages that cover all below it. -/
theorem Inv.commit {s : Sys} (hi : Inv parse s) {c : Process} (hp : s.process = some c) {tp next : Nat}
    {todo : List Item} (hmarked : c.marked = none) (htodo : c.todo = .commit tp next :: todo) :
    Inv parse { s with
      group := { s.group with committed := fun tp' => if tp' = tp then next else s.group.committed tp' }
      process := some { c with todo } } := by
  have hnone := unmarked_of hp hmarked
  have hnext := hi.safe c hp
  rw [htodo] at hnext
  have hcommit : Inv parse { s with
      group := { s.group with committed := fun tp' => if tp' = tp then next else s.group.committed tp' } } := by
    refine ⟨hi.executed, hi.processed, hi.marked, fun tp' o ho => ?_, hi.safe⟩
    dsimp only at ho
    split at ho
    · rename_i htp
      subst htp
      exact (hnext.1 o ho).mono (fun _ _ _ h => h) (hi.executed_of_unmarked hnone)
    · exact hi.committed tp' o ho
  exact hcommit.unmarked (c := { c with todo }) hnone hmarked hnext.2

/-- **A step keeps the invariant unless it loses a mark.** -/
theorem inv_step {s s' : Sys} {e : Event} (hi : Inv parse s) (h : (lts parse).step s e = some s')
    (hkeep : ¬ LosesMark s e) : Inv parse s' := by
  cases e with
  | append tp rec =>
    cases h
    exact hi.append tp rec
  | consumer a =>
    obtain ⟨r, hr, rfl⟩ := Option.map_eq_some_iff.1 h
    have hstep := step_sound parse s.log hr
    generalize hp : s.process = p at hstep
    cases hstep with
    | start =>
      refine hi.unmarked (c := { position := s.group.committed }) (fun c hc => ?_) rfl hi.covered
      rw [hp] at hc
      cases hc
    | seek c tp => exact hi.seek hp tp
    | @getmany c batch htodo hmarked hlen =>
      have hpos := hi.safe c hp
      rw [htodo] at hpos
      exact hi.unmarked (c := { c with position := _, todo := _ }) (unmarked_of hp hmarked) hmarked
        (safe_batch c.position batch hpos)
    | mark hmarked htodo hget => exact hi.mark hp hmarked htodo hget
    | business hmarked => exact hi.business hp hmarked
    | commit hmarked htodo => exact hi.commit hp hmarked htodo
    | crash c =>
      refine hi.gone fun c' hc => ?_
      rw [hp] at hc
      cases hc
      by_contra hne
      refine hkeep ?_
      change s.process.any (fun c => c.marked.isSome) = true
      rw [hp, Option.any_some, Option.isSome_iff_ne_none]
      exact hne

/-- **No record is passed over when no mark is lost**: in every run without a crash between a mark and its business
step, each record below a committed offset that carries an event id has had the business step of its event executed. -/
theorem nothing_skipped (parse : String → Option Uuid) (events : List Event) {s : Sys}
    (hrun : (lts parse).run {} events = some s)
    (hkeep : (lts parse).Along (fun s e _ => ¬ LosesMark s e) {} events) (tp o : Nat) {rec : Record} {text : String}
    (ho : o < s.group.committed tp) (hrec : (s.log tp)[o]? = some rec) (htext : header rec "event_id" = some text) :
    ∃ eventId, parse text = some eventId ∧ s.group.Executed eventId := by
  have hinv := (lts parse).run_inv_along (fun s e s' hi h hc => inv_step hi h hc) inv_init hkeep hrun
  obtain ⟨rec', hrec', hevent⟩ := hinv.committed tp o ho
  rw [hrec] at hrec'
  cases hrec'
  exact hevent text htext

def aRecord : Record where
  row := 1
  topic := "order.events"
  key := "7c9e6679-7425-40de-944b-e07fc1f90ae7"
  value := [("order_id", .str "7c9e6679-7425-40de-944b-e07fc1f90ae7")]
  headers := [("event_id", "3f2504e0-4f89-41d3-9a0c-0305e82c3301"), ("event_type", "OrderCreated")]

/-- One record, marked, executed and committed. -/
def handled : List Event :=
  [.append 0 aRecord, .consumer .start, .consumer (.getmany [(0, 1)]), .consumer .mark, .consumer .business,
    .consumer .commit]

theorem nothing_skipped_handled : ∃ s, (lts Uuid.ofText).run {} handled = some s ∧
    ∃ eventId, Uuid.ofText "3f2504e0-4f89-41d3-9a0c-0305e82c3301" = some eventId ∧ s.group.Executed eventId :=
  ⟨_, rfl, nothing_skipped Uuid.ofText handled rfl (by decide +kernel) 0 0 Nat.zero_lt_one rfl rfl⟩

/-- The process dies after the mark; the next one finds the event processed, skips it and commits. -/
def lostMark : List Event :=
  [.append 0 aRecord, .consumer .start, .consumer (.getmany [(0, 1)]), .consumer .mark, .consumer .crash,
    .consumer .start, .consumer (.getmany [(0, 1)]), .consumer .mark, .consumer .commit]

theorem lostMark_skipped : ∃ s, (lts Uuid.ofText).run {} lostMark = some s ∧ 0 < s.group.committed 0 ∧
    (s.log 0)[0]? = some aRecord ∧ header aRecord "event_id" = some "3f2504e0-4f89-41d3-9a0c-0305e82c3301" ∧
    ∀ eventId, ¬ s.group.Executed eventId := by
  refine ⟨_, rfl, ?_, rfl, rfl, ?_⟩
  · decide
  · rintro eventId ⟨rec, h⟩
    cases h

end Consumer
end KafkaGuide
