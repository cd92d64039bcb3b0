import KafkaGuide.ConsumerOnce
import KafkaGuide.ConsumerSkip
/-!
# ConsumerDrain — a new process can always catch up

Whatever the processes of a group have committed or hold is covered (`Covers`), also when some of them died between a
mark and its business step.  So one more process, which starts at the committed offsets, can read every partition to
its end: each event is then in `processed_events`, and those that were not before have been executed (`catches_up`).
-/
namespace KafkaGuide
namespace Consumer

open Outbox (Record)

variable {parse : String → Option Uuid} {log : Nat → List Record}

/-! ## Any number of processes -/

/-- Below the committed offsets all is covered, and what the processes have to do is safe. -/
structure Covers (parse : String → Option Uuid) (log : Nat → List Record) (g : Group) (ps : Nat → Option Process) :
    Prop where
  committed : ∀ tp, ∀ o < g.committed tp, Covered parse log (fun e => e ∈ g.processed) tp o
  safe : ∀ c p, ps c = some p → Safe p.position (Covered parse log (fun e => e ∈ g.processed)) p.todo

theorem covers_init : Covers parse log {} (fun _ => none) where
  committed _ _ h := nomatch h
  safe _ _ h := nomatch h

theorem Covers.log_mono {log' : Nat → List Record} {g : Group} {ps : Nat → Option Process} (h : Covers parse log g ps)
    (hlog : ∀ (tp o : Nat) (rec : Record), (log tp)[o]? = some rec → (log' tp)[o]? = some rec) :
    Covers parse log' g ps where
  committed tp o ho := (h.committed tp o ho).mono hlog (fun _ he => he)
  safe c p hp := (h.safe c p hp).mono fun _ _ ho => ho.mono hlog (fun _ he => he)

/-- One process goes on, and no event is forgotten. -/
theorem Covers.set {g g' : Group} {ps : Nat → Option Process} (h : Covers parse log g ps) {c : Nat} {p : Option Process}
    (hproc : ∀ e ∈ g.processed, e ∈ g'.processed)
    (hcom : ∀ tp, ∀ o < g'.committed tp, Covered parse log (fun e => e ∈ g'.processed) tp o)
    (hp : ∀ p', p = some p' → Safe p'.position (Covered parse log (fun e => e ∈ g'.processed)) p'.todo) :
    Covers parse log g' (setProcess ps c p) where
  committed := hcom
  safe c' p' hp' := by
    unfold setProcess at hp'
    split at hp'
    · exact hp p' hp'
    · exact (h.safe c' p' hp').mono fun _ _ ho => ho.mono (fun _ _ _ hr => hr) hproc

/-- **A message is covered by what follows from it**: a skip finds it covered, and a mark covers it. -/
theorem Covers.mark {g : Group} {ps : Nat → Option Process} (h : Covers parse log g ps) {c : Nat} {p : Process}
    (hp : ps c = some p) {tp offset : Nat} {todo : List Item} {rec : Record} (htodo : p.todo = .msg tp offset :: todo)
    (hget : (log tp)[offset]? = some rec) :
    Covers parse log (markNext parse g p todo rec).1 (setProcess ps c (markNext parse g p todo rec).2) := by
  have hnext := h.safe c p hp
  rw [htodo] at hnext
  rcases markNext_cases parse g p todo rec with ⟨heq, hskip⟩ | heq | ⟨text, eventId, htext, hparse, hnew, heq⟩
  · rw [heq]
    refine h.set (fun _ he => he) h.committed fun p' hp' => ?_
    cases hp'
    refine hnext.mono fun tp' o ho => ho.elim id ?_
    rintro ⟨rfl, rfl⟩
    exact ⟨rec, hget, hskip⟩
  · rw [heq]
    exact h.set (fun _ he => he) h.committed fun _ hp' => nomatch hp'
  · rw [heq]
    have hgrow : ∀ tp o, Covered parse log (fun e => e ∈ g.processed) tp o →
        Covered parse log (fun e => e ∈ g.processed ++ [eventId]) tp o := fun tp o ho =>
      ho.mono (fun _ _ _ hr => hr) fun _ he => List.mem_append_left _ he
    refine h.set (fun _ he => List.mem_append_left _ he) (fun tp' o ho => hgrow tp' o (h.committed tp' o ho))
      fun p' hp' => ?_
    cases hp'
    refine hnext.mono fun tp' o ho => ho.elim (hgrow tp' o) ?_
    rintro ⟨rfl, rfl⟩
    refine ⟨rec, hget, fun text' ht => ?_⟩
    rw [htext] at ht
    cases ht
    exact ⟨eventId, hparse, List.mem_append_right _ List.mem_cons_self⟩

/-- **Every step of every process keeps the group covered**, a crash at any point included. -/
theorem Covers.step {g : Group} {ps : Nat → Option Process} (h : Covers parse log g ps) {c : Nat} {a : Action}
    {r : Group × Option Process} (hstep : Step parse log g (ps c) a r) :
    Covers parse log r.1 (setProcess ps c r.2) := by
  generalize hp : ps c = p at hstep
  cases hstep with
  | start =>
    refine h.set (fun _ he => he) h.committed fun p' hp' => ?_
    cases hp'
    exact h.committed
  | seek p tp =>
    refine h.set (fun _ he => he) h.committed fun p' hp' => ?_
    cases hp'
    refine (h.safe c p hp).move fun tp' o ho => ?_
    dsimp only at ho
    split at ho
    · rename_i htp
      subst htp
      exact .inr (h.committed tp' o ho)
    · exact .inl ho
  | @getmany p batch htodo hmarked hlen =>
    refine h.set (fun _ he => he) h.committed fun p' hp' => ?_
    cases hp'
    have hpos := h.safe c p hp
    rw [htodo] at hpos
    exact safe_batch p.position batch hpos
  | mark hmarked htodo hget => exact h.mark hp htodo hget
  | @business p e hmarked =>
    refine h.set (fun _ he => he) h.committed fun p' hp' => ?_
    cases hp'
    exact h.safe c p hp
  | @commit p tp next todo hmarked htodo =>
    have hnext := h.safe c p hp
    rw [htodo] at hnext
    refine h.set (fun _ he => he) (fun tp' o ho => ?_) fun p' hp' => ?_
    · dsimp only at ho
      split at ho
      · rename_i htp
        subst htp
        exact hnext.1 o ho
      · exact h.committed tp' o ho
    · cases hp'
      exact hnext.2
  | crash p => exact h.set (fun _ he => he) h.committed fun _ hp' => nomatch hp'

/-! ## One more process -/

/-- The steps of a consumer that goes well, over a log that stands. -/
def Event.IsWork : Event → Prop
  | .append _ _ => False
  | .consumer a => a ≠ .crash

/-- Every record of the log tells its event. -/
def Readable (parse : String → Option Uuid) (log : Nat → List Record) : Prop :=
  ∀ tp, ∀ rec ∈ log tp, ∃ text eventId, header rec "event_id" = some text ∧ parse text = some eventId

/-- The positions after one more record of a partition. -/
def advance (position : Nat → Nat) (tp tp' : Nat) : Nat := if tp' = tp then position tp + 1 else position tp'

/-- The process is between two batches.  It has read all up to its positions, and executed what was not processed in
`s₀`. -/
structure Ready (parse : String → Option Uuid) (s₀ s : Sys) (position : Nat → Nat) : Prop where
  log : s.log = s₀.log
  process : s.process = some { position }
  covered : ∀ tp, ∀ o < position tp, Covered parse s₀.log (fun e => e ∈ s.group.processed) tp o
  executed : ∀ e ∈ s.group.processed, e ∈ s₀.group.processed ∨ s.group.Executed e

/-- The batch of one record is fetched. -/
theorem Ready.getmany {s₀ s : Sys} {position : Nat → Nat} (h : Ready parse s₀ s position) {tp : Nat}
    (hlt : position tp < (s₀.log tp).length) :
    (lts parse).step s (.consumer (.getmany [(tp, 1)])) = some { s with
      process := some {
        position := advance position tp
        todo := [.msg tp (position tp), .commit tp (position tp + 1)] } } := by
  have hok : ∀ b ∈ [(tp, 1)], position b.1 + b.2 ≤ (s.log b.1).length := by
    intro b hb
    rw [List.mem_singleton.1 hb, h.log]
    exact hlt
  have hpos : (fun tp' => position tp' + (Dict.find tp' [(tp, 1)]).getD 0) = advance position tp := by
    funext tp'
    rw [Dict.find, advance]
    by_cases htp : tp = tp'
    · subst htp
      simp
    · simp [htp, Ne.symm htp, Dict.find]
  have hstep : step parse s.log s.group s.process (.getmany [(tp, 1)]) = some (s.group, some {
      position := advance position tp
      todo := [.msg tp (position tp), .commit tp (position tp + 1)] }) := by
    rw [h.process, ← hpos]
    exact if_pos ⟨rfl, rfl, by simp, by simp, hok⟩
  change (step parse s.log s.group s.process _).map _ = _
  rw [hstep]
  rfl

/-- What is covered after one more record. -/
theorem covered_next {P Q : Uuid → Prop} {position : Nat → Nat} {tp : Nat} {rec : Record} {text : String}
    {eventId : Uuid} (hcov : ∀ tp, ∀ o < position tp, Covered parse log P tp o) (hPQ : ∀ e, P e → Q e)
    (hget : (log tp)[position tp]? = some rec) (htext : header rec "event_id" = some text)
    (hparse : parse text = some eventId) (hQ : Q eventId) :
    ∀ tp', ∀ o < advance position tp tp', Covered parse log Q tp' o := by
  intro tp' o ho
  unfold advance at ho
  by_cases hold : o < position tp'
  · exact (hcov tp' o hold).mono (fun _ _ _ hr => hr) hPQ
  · split at ho
    · rename_i htp
      subst htp
      have heq : o = position tp' := by omega
      subst heq
      refine ⟨rec, hget, fun text' ht => ?_⟩
      rw [htext] at ht
      cases ht
      exact ⟨eventId, hparse, hQ⟩
    · exact absurd ho hold

/-- **The next record of a partition can be handled**: skipped where its event is processed, else marked and executed,
and committed either way. -/
theorem Ready.next {s₀ s : Sys} {position : Nat → Nat} (h : Ready parse s₀ s position) (hread : Readable parse s₀.log)
    {tp : Nat} (hlt : position tp < (s₀.log tp).length) :
    ∃ t, (lts parse).Leads Event.IsWork s t ∧ (∀ e ∈ s.group.processed, e ∈ t.group.processed) ∧
      Ready parse s₀ t (advance position tp) := by
  have hget : (s₀.log tp)[position tp]? = some (s₀.log tp)[position tp] := List.getElem?_eq_getElem hlt
  generalize (s₀.log tp)[position tp] = rec at hget
  obtain ⟨text, eventId, htext, hparse⟩ := hread tp rec (List.mem_of_getElem? hget)
  have hget' : (s.log tp)[position tp]? = some rec := by rw [h.log, hget]
  have hfetch := Lts.Leads.of_step (P := Event.IsWork) (e := .consumer (.getmany [(tp, 1)])) nofun (h.getmany hlt)
  by_cases hnew : eventId ∈ s.group.processed
  · have hmark : (lts parse).step { s with
        process := some {
          position := advance position tp
          todo := [.msg tp (position tp), .commit tp (position tp + 1)] } } (.consumer .mark) = some { s with
        process := some { position := advance position tp, todo := [.commit tp (position tp + 1)] } } := by
      simp only [lts, step, hget', Option.map_some, markNext, htext, hparse, if_pos hnew]
    refine ⟨{ s with
      group := { s.group with committed := fun tp' => if tp' = tp then position tp + 1 else s.group.committed tp' }
      process := some { position := advance position tp } }, ?_, fun _ he => he, h.log, rfl,
      covered_next h.covered (fun _ he => he) hget htext hparse hnew, h.executed⟩
    exact hfetch.trans ((Lts.Leads.of_step (e := .consumer .mark) nofun hmark).trans
      (Lts.Leads.of_step (e := .consumer .commit) nofun rfl))
  · have hmark : (lts parse).step { s with
        process := some {
          position := advance position tp
          todo := [.msg tp (position tp), .commit tp (position tp + 1)] } } (.consumer .mark) = some { s with
        group := { s.group with processed := s.group.processed ++ [eventId] }
        process := some {
          position := advance position tp
          todo := [.commit tp (position tp + 1)]
          marked := some (eventId, rec) } } := by
      simp only [lts, step, hget', Option.map_some, markNext, htext, hparse, if_neg hnew]
    refine ⟨{ s with
      group := {
        processed := s.group.processed ++ [eventId]
        executed := s.group.executed ++ [(eventId, rec)]
        committed := fun tp' => if tp' = tp then position tp + 1 else s.group.committed tp' }
      process := some { position := advance position tp } }, ?_, fun _ he => List.mem_append_left _ he, h.log, rfl,
      ?_, fun e he => ?_⟩
    · exact hfetch.trans ((Lts.Leads.of_step (e := .consumer .mark) nofun hmark).trans
        ((Lts.Leads.of_step (e := .consumer .business) nofun rfl).trans
          (Lts.Leads.of_step (e := .consumer .commit) nofun rfl)))
    · exact covered_next h.covered (fun _ he => List.mem_append_left _ he) hget htext hparse
        (List.mem_append_right _ List.mem_cons_self)
    · rcases List.mem_append.1 he with he | he
      · exact (h.executed e he).imp_right fun ⟨rec', hrec'⟩ => ⟨rec', List.mem_append_left _ hrec'⟩
      · rw [List.mem_singleton.1 he]
        exact .inr ⟨rec, List.mem_append_right _ List.mem_cons_self⟩

/-- What the process has not read of a partition. -/
def Sys.unread (s : Sys) (tp : Nat) : Nat := (s.process.map fun p => (s.log tp).length - p.position tp).getD 0

theorem Ready.unread {s₀ s : Sys} {position : Nat → Nat} (h : Ready parse s₀ s position) (tp : Nat) :
    s.unread tp = (s₀.log tp).length - position tp := by
  rw [Sys.unread, h.process, h.log]
  rfl

/-- The partition is read to its end. -/
theorem Ready.partition {s₀ s : Sys} {position : Nat → Nat} (h : Ready parse s₀ s position)
    (hread : Readable parse s₀.log) (tp : Nat) : ∃ t position', (lts parse).Leads Event.IsWork s t ∧
      (∀ e ∈ s.group.processed, e ∈ t.group.processed) ∧ Ready parse s₀ t position' ∧
      (s₀.log tp).length ≤ position' tp := by
  have hdrop : ∀ t, ((∀ e ∈ s.group.processed, e ∈ t.group.processed) ∧ ∃ position, Ready parse s₀ t position) →
      ¬ t.unread tp = 0 → ∃ u, (lts parse).Leads Event.IsWork t u ∧
        ((∀ e ∈ s.group.processed, e ∈ u.group.processed) ∧ ∃ position, Ready parse s₀ u position) ∧
        u.unread tp < t.unread tp := by
    rintro t ⟨hmono, position, hready⟩ hbusy
    rw [hready.unread] at hbusy ⊢
    obtain ⟨u, hlead, hmono', hu⟩ := hready.next hread (show position tp < (s₀.log tp).length by omega)
    refine ⟨u, hlead, ⟨fun e he => hmono' e (hmono e he), _, hu⟩, ?_⟩
    rw [hu.unread, advance, if_pos rfl]
    omega
  obtain ⟨t, hlead, ⟨hmono, position', hready⟩, hend⟩ :=
    Lts.leads_of_measure (fun t : Sys => t.unread tp) hdrop ⟨fun _ he => he, position, h⟩
  refine ⟨t, position', hlead, hmono, hready, ?_⟩
  rw [hready.unread] at hend
  omega

/-- All the records of a partition have their event processed. -/
def CaughtUp (parse : String → Option Uuid) (log : Nat → List Record) (g : Group) (tp : Nat) : Prop :=
  ∀ rec ∈ log tp, ∀ text, header rec "event_id" = some text → ∃ eventId, parse text = some eventId ∧
    eventId ∈ g.processed

theorem Ready.caughtUp {s₀ s : Sys} {position : Nat → Nat} (h : Ready parse s₀ s position) {tp : Nat}
    (hend : (s₀.log tp).length ≤ position tp) : CaughtUp parse s₀.log s.group tp := by
  intro rec hrec text htext
  obtain ⟨o, ho, hget⟩ := List.getElem_of_mem hrec
  obtain ⟨rec', hget', hevent⟩ := h.covered tp o (Nat.lt_of_lt_of_le ho hend)
  rw [List.getElem?_eq_getElem ho, hget] at hget'
  cases hget'
  exact hevent text htext

/-- **A new process catches up** on any partitions, and executes each event that was not processed before. -/
theorem catches_up (s₀ : Sys) (hread : Readable parse s₀.log)
    (hcov : ∀ tp, ∀ o < s₀.group.committed tp, Covered parse s₀.log (fun e => e ∈ s₀.group.processed) tp o)
    (hnone : s₀.process = none) (tps : List Nat) :
    ∃ t position, (lts parse).Leads Event.IsWork s₀ t ∧ Ready parse s₀ t position ∧
      (∀ e ∈ s₀.group.processed, e ∈ t.group.processed) ∧ ∀ tp ∈ tps, CaughtUp parse s₀.log t.group tp := by
  induction tps with
  | nil =>
    refine ⟨{ s₀ with process := some { position := s₀.group.committed } }, s₀.group.committed, ?_,
      ⟨rfl, rfl, hcov, fun _ he => .inl he⟩, fun _ he => he, fun _ h => nomatch h⟩
    refine Lts.Leads.of_step (e := .consumer .start) nofun ?_
    simp only [lts, hnone, step, Option.map_some]
  | cons tp tps ih =>
    obtain ⟨t, position, hlead, hready, hmono, hdone⟩ := ih
    obtain ⟨u, position', hlead', hmono', hready', hend⟩ := hready.partition hread tp
    refine ⟨u, position', hlead.trans hlead', hready', fun e he => hmono' e (hmono e he), fun tp' htp' => ?_⟩
    rcases List.mem_cons.1 htp' with rfl | htp'
    · exact hready'.caughtUp hend
    · intro rec hrec text htext
      obtain ⟨eventId, hparse, hmem⟩ := hdone tp' htp' rec hrec text htext
      exact ⟨eventId, hparse, hmono' eventId hmem⟩

end Consumer
end KafkaGuide
