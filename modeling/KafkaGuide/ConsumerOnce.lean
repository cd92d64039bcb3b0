import Mathlib.Data.List.Nodup
import KafkaGuide.Consumer
/-!
# ConsumerOnce — one business step an event, whatever the consumers do

Any number of processes share the group, each at a step of its own: they may hold the same partitions, read the same
records again and die anywhere.  `processed_events` has each event id once, so at most one mark ever returned True for
it, and the process that got it runs the business step at most once.
-/
namespace KafkaGuide
namespace Consumer

open Outbox (Record)

variable {parse : String → Option Uuid} {log : Nat → List Record}

/-- The event a process is about to execute. -/
def pending (p : Option Process) : Option (Uuid × Record) := p.bind Process.marked

/-- The event of a record of the log, by its header. -/
def Read (parse : String → Option Uuid) (log : Nat → List Record) (p : Uuid × Record) : Prop :=
  (∃ tp, p.2 ∈ log tp) ∧ ∃ text, header p.2 "event_id" = some text ∧ parse text = some p.1

/-- **What one step of a process does to the marks**: it leaves them alone, but may forget its own; or inserts an event
id that was not there; or executes the event it had marked. -/
theorem step_effect {g : Group} {p : Option Process} {a : Action} {r : Group × Option Process}
    (h : Step parse log g p a r) :
    (r.1.processed = g.processed ∧ r.1.executed = g.executed ∧ ∀ e, pending r.2 = some e → pending p = some e) ∨
    (∃ e, e.1 ∉ g.processed ∧ Read parse log e ∧ r.1.processed = g.processed ++ [e.1] ∧
      r.1.executed = g.executed ∧ pending r.2 = some e) ∨
    (∃ e, pending p = some e ∧ r.1.processed = g.processed ∧ r.1.executed = g.executed ++ [e] ∧
      pending r.2 = none) := by
  cases h with
  | start => exact .inl ⟨rfl, rfl, fun _ h => nomatch h⟩
  | seek c tp => exact .inl ⟨rfl, rfl, fun _ h => h⟩
  | getmany htodo hmarked hlen => exact .inl ⟨rfl, rfl, fun _ h => h⟩
  | @mark c tp offset todo rec hmarked htodo hget =>
    rcases markNext_cases parse g c todo rec with ⟨heq, -⟩ | heq | ⟨text, eventId, htext, hparse, hnew, heq⟩
    · rw [heq]
      exact .inl ⟨rfl, rfl, fun _ h => h⟩
    · rw [heq]
      exact .inl ⟨rfl, rfl, fun _ h => nomatch h⟩
    · rw [heq]
      refine .inr (.inl ⟨(eventId, rec), hnew, ⟨⟨tp, ?_⟩, text, htext, hparse⟩, rfl, rfl, rfl⟩)
      exact List.mem_of_getElem? hget
  | @business c p hmarked => exact .inr (.inr ⟨p, hmarked, rfl, rfl, rfl⟩)
  | commit hmarked htodo => exact .inl ⟨rfl, rfl, fun _ h => h⟩
  | crash c => exact .inl ⟨rfl, rfl, fun _ h => nomatch h⟩

/-- What the processes of a group keep: an event id is executed at most once, and pending in at most one process, not
executed before. -/
structure Once (parse : String → Option Uuid) (log : Nat → List Record) (g : Group) (ps : Nat → Option Process) :
    Prop where
  nodup : (g.executed.map Prod.fst).Nodup
  processed : ∀ e ∈ g.executed, e.1 ∈ g.processed
  waiting : ∀ c e, pending (ps c) = some e → e.1 ∈ g.processed ∧ e.1 ∉ g.executed.map Prod.fst
  holder : ∀ c c' e e', pending (ps c) = some e → pending (ps c') = some e' → e.1 = e'.1 → c = c'
  executedRead : ∀ e ∈ g.executed, Read parse log e
  pendingRead : ∀ c e, pending (ps c) = some e → Read parse log e

theorem once_init : Once parse log {} (fun _ => none) where
  nodup := List.nodup_nil
  processed _ h := nomatch h
  waiting _ _ h := nomatch h
  holder _ _ _ _ h := nomatch h
  executedRead _ h := nomatch h
  pendingRead _ _ h := nomatch h

theorem Once.log_mono {log' : Nat → List Record} {g : Group} {ps : Nat → Option Process} (ho : Once parse log g ps)
    (hlog : ∀ tp, ∀ rec ∈ log tp, rec ∈ log' tp) : Once parse log' g ps := by
  have hread : ∀ e, Read parse log e → Read parse log' e := fun e h => by
    obtain ⟨⟨tp, hmem⟩, hevent⟩ := h
    exact ⟨⟨tp, hlog tp _ hmem⟩, hevent⟩
  exact ⟨ho.nodup, ho.processed, ho.waiting, ho.holder, fun e he => hread e (ho.executedRead e he),
    fun c e he => hread e (ho.pendingRead c e he)⟩

/-- Process `c` becomes `p`. -/
def setProcess (ps : Nat → Option Process) (c : Nat) (p : Option Process) (c' : Nat) : Option Process :=
  if c' = c then p else ps c'

theorem pending_setProcess {ps : Nat → Option Process} {c c' : Nat} {p : Option Process} {e : Uuid × Record}
    (h : pending (setProcess ps c p c') = some e) :
    (c' = c ∧ pending p = some e) ∨ (c' ≠ c ∧ pending (ps c') = some e) := by
  unfold setProcess at h
  split at h
  · rename_i hc
    exact .inl ⟨hc, h⟩
  · rename_i hc
    exact .inr ⟨hc, h⟩

/-- The marks stay, but a process may forget its own. -/
theorem Once.forget {g g' : Group} {ps : Nat → Option Process} (ho : Once parse log g ps) {c : Nat} {p : Option Process}
    (hproc : g'.processed = g.processed) (hexec : g'.executed = g.executed)
    (hpend : ∀ e, pending p = some e → pending (ps c) = some e) : Once parse log g' (setProcess ps c p) := by
  have hback : ∀ {c' e}, pending (setProcess ps c p c') = some e → pending (ps c') = some e := fun {c' e} he => by
    rcases pending_setProcess he with ⟨hc, hnext⟩ | ⟨-, hsame⟩
    · rw [hc]
      exact hpend e hnext
    · exact hsame
  constructor
  case nodup =>
    rw [hexec]
    exact ho.nodup
  case processed =>
    rw [hexec, hproc]
    exact ho.processed
  case waiting =>
    rw [hexec, hproc]
    exact fun c' e he => ho.waiting c' e (hback he)
  case holder => exact fun c1 c2 e1 e2 h1 h2 => ho.holder c1 c2 e1 e2 (hback h1) (hback h2)
  case executedRead =>
    rw [hexec]
    exact ho.executedRead
  case pendingRead => exact fun c' e he => ho.pendingRead c' e (hback he)

/-- **An INSERT that returned a row**: no process held the event, and none had executed it. -/
theorem Once.insert {g g' : Group} {ps : Nat → Option Process} (ho : Once parse log g ps) {c : Nat} {p : Option Process}
    {e : Uuid × Record} (hnew : e.1 ∉ g.processed) (hread : Read parse log e)
    (hproc : g'.processed = g.processed ++ [e.1]) (hexec : g'.executed = g.executed) (hpend : pending p = some e) :
    Once parse log g' (setProcess ps c p) := by
  have hfresh : ∀ {c' e'}, pending (ps c') = some e' → e'.1 ≠ e.1 := fun {c' e'} he heq =>
    hnew (heq ▸ (ho.waiting c' e' he).1)
  have hcases : ∀ {c' e'}, pending (setProcess ps c p c') = some e' →
      (c' = c ∧ e' = e) ∨ pending (ps c') = some e' := fun {c' e'} he => by
    rcases pending_setProcess he with ⟨hc, he⟩ | ⟨-, he⟩
    · rw [hpend] at he
      exact .inl ⟨hc, (Option.some.inj he).symm⟩
    · exact .inr he
  constructor
  case nodup =>
    rw [hexec]
    exact ho.nodup
  case processed =>
    rw [hexec, hproc]
    exact fun e' he => List.mem_append_left _ (ho.processed e' he)
  case waiting =>
    intro c' e' he
    rw [hexec, hproc]
    rcases hcases he with ⟨-, rfl⟩ | he
    · refine ⟨List.mem_append_right _ List.mem_cons_self, fun hmem => ?_⟩
      obtain ⟨e'', he'', heq⟩ := List.mem_map.1 hmem
      exact hnew (heq ▸ ho.processed e'' he'')
    · exact ⟨List.mem_append_left _ (ho.waiting c' e' he).1, (ho.waiting c' e' he).2⟩
  case holder =>
    intro c1 c2 e1 e2 h1 h2 heq
    rcases hcases h1 with ⟨hc1, rfl⟩ | h1 <;> rcases hcases h2 with ⟨hc2, rfl⟩ | h2
    · rw [hc1, hc2]
    · exact absurd heq.symm (hfresh h2)
    · exact absurd heq (hfresh h1)
    · exact ho.holder c1 c2 e1 e2 h1 h2 heq
  case executedRead =>
    rw [hexec]
    exact ho.executedRead
  case pendingRead =>
    intro c' e' he
    rcases hcases he with ⟨-, rfl⟩ | he
    · exact hread
    · exact ho.pendingRead c' e' he

/-- **A business step**: the process held the event, and holds it no longer. -/
theorem Once.execute {g g' : Group} {ps : Nat → Option Process} (ho : Once parse log g ps) {c : Nat}
    {p : Option Process} {e : Uuid × Record} (hold : pending (ps c) = some e) (hproc : g'.processed = g.processed)
    (hexec : g'.executed = g.executed ++ [e]) (hpend : pending p = none) : Once parse log g' (setProcess ps c p) := by
  have hback : ∀ {c' e'}, pending (setProcess ps c p c') = some e' → c' ≠ c ∧ pending (ps c') = some e' :=
    fun {c' e'} he => by
      rcases pending_setProcess he with ⟨-, he⟩ | he
      · rw [hpend] at he
        cases he
      · exact he
  constructor
  case nodup =>
    rw [hexec, List.map_append, List.map_singleton]
    refine List.Nodup.append ho.nodup (List.nodup_singleton e.1) ?_
    rw [List.disjoint_singleton]
    exact (ho.waiting c e hold).2
  case processed =>
    intro e' he
    rw [hexec] at he
    rw [hproc]
    rcases List.mem_append.1 he with he | he
    · exact ho.processed e' he
    · rw [List.mem_singleton.1 he]
      exact (ho.waiting c e hold).1
  case waiting =>
    intro c' e' he
    obtain ⟨hne, he⟩ := hback he
    rw [hproc, hexec, List.map_append, List.mem_append, List.map_singleton, List.mem_singleton]
    refine ⟨(ho.waiting c' e' he).1, ?_⟩
    rintro (hmem | heq)
    · exact (ho.waiting c' e' he).2 hmem
    · exact hne (ho.holder c' c e' e he hold heq)
  case holder => exact fun c1 c2 e1 e2 h1 h2 => ho.holder c1 c2 e1 e2 (hback h1).2 (hback h2).2
  case executedRead =>
    intro e' he
    rw [hexec] at he
    rcases List.mem_append.1 he with he | he
    · exact ho.executedRead e' he
    · rw [List.mem_singleton.1 he]
      exact ho.pendingRead c e hold
  case pendingRead => exact fun c' e' he => ho.pendingRead c' e' (hback he).2

/-- **One step of any process keeps it.** -/
theorem Once.step {g : Group} {ps : Nat → Option Process} (ho : Once parse log g ps) {c : Nat} {a : Action}
    {r : Group × Option Process} (h : Step parse log g (ps c) a r) : Once parse log r.1 (setProcess ps c r.2) := by
  rcases step_effect h with ⟨hproc, hexec, hpend⟩ | ⟨e, hnew, hread, hproc, hexec, hpend⟩ |
    ⟨e, hold, hproc, hexec, hpend⟩
  · exact ho.forget hproc hexec hpend
  · exact ho.insert hnew hread hproc hexec hpend
  · exact ho.execute hold hproc hexec hpend

end Consumer
end KafkaGuide
