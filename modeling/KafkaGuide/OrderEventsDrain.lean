import KafkaGuide.ConsumerDrain
import KafkaGuide.OrderEventsSafe
import KafkaGuide.RelayDrain
/-!
# OrderEventsDrain — every committed order is handled in the end

The two halves of the pipeline, one after the other: the relays empty the outbox, and a new consumer process catches up
with `order.events`.  Both are runs of their own systems, which the whole system follows step by step.
-/
namespace KafkaGuide
namespace OrderEvents

variable {cfg : Config}

/-! ## The group, over any run -/

/-- The group is covered, and there is always a process to start. -/
structure Able (cfg : Config) (s : Sys) : Prop where
  covers : Consumer.Covers cfg.parse (s.partitions cfg) s.group s.consumers
  spare : ∃ n, ∀ c, n ≤ c → s.consumers c = none

/-- The records of a partition keep their offsets. -/
theorem partitions_get {s : Sys} {db : Outbox.Sys} {a : Outbox.Action} (h : Outbox.Step cfg.relay s.db a db)
    (p o : Nat) (rec : Outbox.Record) (hget : (s.partitions cfg p)[o]? = some rec) :
    (Outbox.partitionLog cfg.part db.log "order.events" p)[o]? = some rec := by
  obtain ⟨recs, hlog, -⟩ := Outbox.log_step h
  have happend : Outbox.partitionLog cfg.part db.log "order.events" p =
      s.partitions cfg p ++ Outbox.partitionLog cfg.part recs "order.events" p := by
    unfold Sys.partitions Outbox.partitionLog
    rw [hlog, List.filter_append]
  rw [happend, List.getElem?_append_left (List.getElem?_eq_some_iff.1 hget).1, hget]

theorem able_step {s s' : Sys} {a : Action} (hi : Able cfg s) (h : step cfg s a = some s') : Able cfg s' := by
  cases a with
  | addOrder txn order =>
    unfold step at h
    dsimp only at h
    split at h
    · split at h
      · cases h
        exact ⟨hi.covers, hi.spare⟩
      · cases h
    · cases h
  | enqueue txn uuid4 =>
    unfold step at h
    dsimp only at h
    split at h
    · obtain ⟨db, hdb, rfl⟩ := Option.map_eq_some_iff.1 h
      exact ⟨hi.covers.log_mono (partitions_get (Outbox.step_sound hdb)), hi.spare⟩
    · cases h
  | db a =>
    unfold step at h
    dsimp only at h
    split at h
    · obtain ⟨db, hdb, rfl⟩ := Option.map_eq_some_iff.1 h
      exact ⟨hi.covers.log_mono (partitions_get (Outbox.step_sound hdb)), hi.spare⟩
    · cases h
  | consumer c a =>
    obtain ⟨r, hr, rfl⟩ := Option.map_eq_some_iff.1 h
    refine ⟨hi.covers.step (Consumer.step_sound _ _ hr), ?_⟩
    obtain ⟨n, hn⟩ := hi.spare
    refine ⟨max n (c + 1), fun c' hc' => ?_⟩
    dsimp only
    rw [if_neg (by omega)]
    exact hn c' (by omega)

theorem reachable_able {s : Sys} (h : (lts cfg).Reachable s) : Able cfg s :=
  (lts cfg).reachable_inv ⟨Consumer.covers_init, 0, fun _ _ => rfl⟩ (fun _ _ _ hi h => able_step hi h) h

/-! ## The whole system follows its parts -/

/-- The steps of ticks and consumers that go well. -/
def Action.IsWork : Action → Prop
  | .addOrder _ _ | .enqueue _ _ => False
  | .db a => a.IsWork
  | .consumer _ a => a ≠ .crash

/-- What the relays can do to the outbox they can do here. -/
theorem follows_relays {s : Sys} {db : Outbox.Sys} (h : (Outbox.lts cfg.relay).Leads Outbox.Action.IsWork s.db db) :
    (lts cfg).Leads Action.IsWork s { s with db } := by
  have hsim : ∀ db₁ s₁ a db₂, s₁ = { s with db := db₁ } → a.IsWork → (Outbox.lts cfg.relay).step db₁ a = some db₂ →
      ∃ a' s₂, Action.IsWork a' ∧ (lts cfg).step s₁ a' = some s₂ ∧ s₂ = { s with db := db₂ } := by
    rintro db₁ s₁ a db₂ rfl ha hstep
    have hallow : Sys.allows { s with db := db₁ } a = true := by
      cases a with
      | enqueue | commit => exact absurd ha id
      | _ => rfl
    refine ⟨.db a, _, ha, ?_, rfl⟩
    change (if Sys.allows { s with db := db₁ } a then
      (Outbox.step cfg.relay db₁ a).map (fun db => { s with db := db }) else none) = _
    rw [if_pos hallow]
    exact Option.map_eq_some_iff.2 ⟨db₂, hstep, rfl⟩
  obtain ⟨t, hlead, rfl⟩ := h.sim hsim rfl
  exact hlead

/-- What one process can do to the group it can do here. -/
theorem follows_consumer {s : Sys} {c : Nat} {t : Consumer.Sys}
    (h : (Consumer.lts cfg.parse).Leads Consumer.Event.IsWork ⟨s.partitions cfg, s.group, s.consumers c⟩ t) :
    ∃ u, (lts cfg).Leads Action.IsWork s u ∧ u.db = s.db ∧ u.orders = s.orders ∧ u.group = t.group := by
  have hsim : ∀ (t₁ : Consumer.Sys) (u₁ : Sys) e (t₂ : Consumer.Sys),
      (t₁.log = s.partitions cfg ∧ u₁.db = s.db ∧ u₁.orders = s.orders ∧ u₁.group = t₁.group ∧
        u₁.consumers c = t₁.process) → e.IsWork → (Consumer.lts cfg.parse).step t₁ e = some t₂ →
      ∃ a u₂, Action.IsWork a ∧ (lts cfg).step u₁ a = some u₂ ∧ t₂.log = s.partitions cfg ∧ u₂.db = s.db ∧
        u₂.orders = s.orders ∧ u₂.group = t₂.group ∧ u₂.consumers c = t₂.process := by
    rintro t₁ u₁ e t₂ ⟨hlog, hdb, horders, hgroup, hprocess⟩ he hstep
    cases e with
    | append tp rec => exact absurd he id
    | consumer a =>
      obtain ⟨r, hr, rfl⟩ := Option.map_eq_some_iff.1 hstep
      refine ⟨.consumer c a, { u₁ with
        group := r.1, consumers := fun c' => if c' = c then r.2 else u₁.consumers c' }, he, ?_, hlog, hdb, horders,
        rfl, if_pos rfl⟩
      have hlogs : u₁.partitions cfg = t₁.log := by
        rw [hlog]
        unfold Sys.partitions
        rw [hdb]
      change (Consumer.step cfg.parse (u₁.partitions cfg) u₁.group (u₁.consumers c) a).map _ = _
      rw [hlogs, hgroup, hprocess, hr]
      rfl
  obtain ⟨u, hlead, -, hdb, horders, hgroup, -⟩ := h.sim hsim ⟨rfl, rfl, rfl, rfl, rfl⟩
  exact ⟨u, hlead, hdb, horders, hgroup⟩

/-! ## What every record tells -/

theorem header_orderCreated (str : Json → String) (n : Nat) (order : NewOrder) (uuid4 : Uuid) :
    Consumer.header (Outbox.record str n (orderCreated order uuid4)) "event_id" = some uuid4.str := rfl

theorem Sys.written_of {s : Sys} {n : Nat} {out : Outbox.Row} (h : s.db.outbox n = some out) :
    s.db.written n = some (out.event, out.txn) := by
  unfold Outbox.Sys.written
  rw [h]
  rfl

theorem Inv.header {s : Sys} (hi : Inv cfg s) {rec : Outbox.Record} (hrec : rec ∈ s.db.log) :
    ∃ out, s.db.outbox rec.row = some out ∧ rec.topic = "order.events" ∧
      Consumer.header rec "event_id" = some out.event.eventId.str := by
  obtain ⟨out, hout, -, hbuilt⟩ := (Outbox.reachable_inv hi.db).built rec (List.mem_append_left _ hrec)
  obtain ⟨-, order, uuid4, -, hevent⟩ := hi.tables.written _ _ _ (Sys.written_of hout)
  refine ⟨out, hout, ?_, ?_⟩
  · rw [hbuilt, hevent]
    rfl
  · rw [hbuilt, hevent]
    exact header_orderCreated ..

/-! ## The pipeline empties -/

/-- The event of a committed order is published and processed in `t`, and executed if it was not processed in `s`. -/
def Handled (s t : Sys) (row : OrderRow) : Prop :=
  ∃ n out, t.db.outbox n = some out ∧ out.txn = row.txn ∧ out.event.aggregateId = row.order.orderId.str ∧
    out.published = true ∧ out.event.eventId ∈ t.group.processed ∧
    (out.event.eventId ∈ s.group.processed ∨ t.group.Executed out.event.eventId)

/-- A committed order has its outbox row. -/
theorem Tables.outbox_row {s : Sys} (ht : Tables s) {row : OrderRow} (hrow : row ∈ s.orders)
    (hcom : s.db.txns row.txn = .committed) : ∃ n event, s.db.written n = some (event, row.txn) ∧
      event.aggregateId = row.order.orderId.str ∧ s.db.Committed n := by
  obtain ⟨n, event, hn⟩ := ht.enqueued row.txn (ht.committed row.txn hcom)
  obtain ⟨-, order, uuid4, horder, hevent⟩ := ht.written n event row.txn hn
  have heq : (⟨order, row.txn⟩ : OrderRow) = row := ht.oneOrder _ horder row hrow rfl
  obtain ⟨out, hout, hpair⟩ := Option.map_eq_some_iff.1 hn
  refine ⟨n, event, hn, ?_, out, hout, ?_⟩
  · rw [hevent, ← heq]
    rfl
  · rw [(Prod.mk.inj hpair).2, hcom]

/-- **Every committed order is handled in the end**: from every reachable state, whatever was rolled back, aborted or
crashed before, steps of ticks and consumers that go well lead to a state in which the event of each committed order is
published and processed, and its business step executed unless the event was processed already. -/
theorem all_handled (hbatch : 0 < cfg.relay.batchSize) (hparse : ∀ u : Uuid, cfg.parse u.str = some u) {s : Sys}
    (h : (lts cfg).Reachable s) : ∃ t, (lts cfg).Leads Action.IsWork s t ∧ t.orders = s.orders ∧
      ∀ row ∈ s.orders, s.db.txns row.txn = .committed → Handled s t row := by
  have hi := reachable_inv h
  -- the relays empty the outbox
  obtain ⟨db, hdrain, hway, hempty⟩ := Outbox.empties hbatch hi.db
  have hwritten : db.written = s.db.written := by
    refine hdrain.inv (I := fun db => db.written = s.db.written) (fun db₁ a db₂ hw ha hstep => ?_) rfl
    rw [Outbox.written_step (Outbox.step_sound hstep), hw]
    rintro txn event rfl
    exact ha
  have hrelays := follows_relays hdrain
  generalize hs₁ : ({ s with db } : Sys) = s₁ at hrelays
  have h₁ := hrelays.reachable h
  have hi₁ := reachable_inv h₁
  -- a new process catches up with the log
  obtain ⟨c, hspare⟩ := (reachable_able h₁).spare
  have hread : Consumer.Readable cfg.parse (s₁.partitions cfg) := by
    intro p rec hrec
    obtain ⟨out, -, -, hheader⟩ := hi₁.header (List.mem_filter.1 hrec).1
    exact ⟨_, _, hheader, hparse _⟩
  obtain ⟨t, position, hcatch, hready, -, hdone⟩ := Consumer.catches_up
    ⟨s₁.partitions cfg, s₁.group, s₁.consumers c⟩ hread (reachable_able h₁).covers.committed
    (hspare c (Nat.le_refl _)) (s₁.db.log.map fun rec => cfg.part rec.key)
  obtain ⟨u, hconsumer, hdb, horders, hgroup⟩ := follows_consumer hcatch
  subst hs₁
  refine ⟨u, hrelays.trans hconsumer, horders, fun row hrow hcom => ?_⟩
  obtain ⟨n, event, hn, hagg, hcommitted⟩ := hi.tables.outbox_row hrow hcom
  obtain ⟨⟨out, hout, hpublished⟩, hlog⟩ := hway.published hempty hcommitted
  have hpair : (out.event, out.txn) = (event, row.txn) := by
    rw [← hwritten, show db.written n = _ from Sys.written_of (s := { s with db }) hout] at hn
    exact Option.some.inj hn
  obtain ⟨rfl, htxn⟩ := Prod.mk.inj hpair
  obtain ⟨rec, hrec, rfl⟩ := List.mem_map.1 hlog
  obtain ⟨out', hout', htopic, hheader⟩ := hi₁.header hrec
  change db.outbox rec.row = some out' at hout'
  rw [hout] at hout'
  cases hout'
  obtain ⟨eventId, hevent, hprocessed⟩ := hdone _ (List.mem_map_of_mem hrec) rec
    (List.mem_filter.2 ⟨hrec, decide_eq_true ⟨htopic, rfl⟩⟩) _ hheader
  rw [hparse] at hevent
  cases hevent
  refine ⟨rec.row, out, by rw [hdb]; exact hout, htxn, hagg, hpublished, by rw [hgroup]; exact hprocessed, ?_⟩
  rw [hgroup]
  exact hready.executed _ hprocessed

/-- Two orders: the event of the first was read and marked by a process that died, the tick that sends the second was
aborted. -/
def interrupted : List Action :=
  [.addOrder 0 anOrder, .enqueue 0 ⟨"62f0d4a3-91be-4c58-8e7d-b05a3c19f7d2", by decide⟩, .db (.commit 0),
    .db (.select 0), .db (.visit 0), .db (.selected 0), .db (.send 0), .db (.land 0),
    .consumer 0 .start, .consumer 0 (.getmany [(0, 1)]), .consumer 0 .mark, .consumer 0 .crash,
    .addOrder 1 { anOrder with orderId := ⟨"9b2f1c36-0e4d-4a57-b1c8-6d3a5e7f9012", by decide⟩ },
    .enqueue 1 ⟨"5a6b7c8d-9e0f-4a1b-8c2d-3e4f5a6b7c8d", by decide⟩, .db (.commit 1), .db (.abort 0)]

theorem all_handled_interrupted :
    ∃ s, (lts ⟨⟨100, textOf⟩, fun _ => 0, Uuid.ofText⟩).run {} interrupted = some s ∧ s.group.executed.length = 0 ∧
      ∃ t, (lts ⟨⟨100, textOf⟩, fun _ => 0, Uuid.ofText⟩).Leads Action.IsWork s t ∧ t.orders = s.orders ∧
        ∀ row ∈ s.orders, s.db.txns row.txn = .committed → Handled s t row :=
  ⟨_, rfl, rfl, all_handled (by decide) (fun u => dif_pos u.length_eq) ⟨interrupted, rfl⟩⟩

end OrderEvents
end KafkaGuide
