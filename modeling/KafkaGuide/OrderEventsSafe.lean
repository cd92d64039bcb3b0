import KafkaGuide.ConsumerOnce
import KafkaGuide.OrderEvents
import KafkaGuide.RelayOrder
/-!
# OrderEventsSafe — every business step has its order

An outbox row and its `orders` row are of one transaction, which holds no other rows: so both are committed or neither
is (`Tables`).  The relays leave what a row says alone and send committed rows only; what a consumer executes, it has
read from the log.  The chain is closed by `Outbox.Inv` for the log and `Consumer.Once` for the group.
-/
namespace KafkaGuide
namespace Outbox

variable {cfg : Config}

/-- What an INSERT wrote of a row: no later statement changes it. -/
def Sys.written (s : Sys) (n : Nat) : Option (OutboxEvent × Nat) := (s.outbox n).map (fun row => (row.event, row.txn))

theorem mapRows_written (s : Sys) {f : Nat → Row → Row} (hevent : ∀ n row, (f n row).event = row.event)
    (htxn : ∀ n row, (f n row).txn = row.txn) : (s.mapRows f).written = s.written := by
  funext n
  unfold Sys.written Sys.mapRows
  rw [Option.map_map]
  exact Option.map_congr fun row _ => Prod.ext (hevent n row) (htxn n row)

theorem lock_written (s : Sys) (n r : Nat) : (s.lock n r).written = s.written :=
  mapRows_written s (fun _ _ => by split <;> rfl) (fun _ _ => by split <;> rfl)

theorem unlock_written (s : Sys) (r : Nat) : (s.unlock r).written = s.written :=
  mapRows_written s (fun _ _ => by split <;> rfl) (fun _ _ => by split <;> rfl)

theorem publish_written (s : Sys) (ids : List Nat) : (s.publish ids).written = s.written := by
  unfold Sys.publish
  exact mapRows_written s (by intros; rfl) (by intros; rfl)

/-- **No step but an INSERT changes what was written.** -/
theorem written_step {s s' : Sys} {a : Action} (h : Step cfg s a s') (ha : ∀ txn event, a ≠ .enqueue txn event) :
    s'.written = s.written := by
  cases h with
  | @enqueue txn event htxn hid => exact absurd rfl (ha txn event)
  | @visit r n snapshot rows htick hlimit =>
    unfold Sys.visit
    split
    · split
      · exact lock_written s n r
      · rfl
    · rfl
  | @commitTick r publishedIds htick =>
    have hunlock := unlock_written (s.publish publishedIds) r
    rw [publish_written] at hunlock
    exact hunlock
  | abort htick => exact unlock_written { s with wire := _, aborted := _ } _
  | _ => rfl

theorem enqueue_written {s s' : Sys} {txn : Nat} {event : OutboxEvent} (h : Step cfg s (.enqueue txn event) s')
    (n : Nat) : s'.written n = if n = s.nextId then some (event, txn) else s.written n := by
  cases h with
  | enqueue htxn hid =>
    unfold Sys.written
    dsimp only
    split <;> rfl

/-- A transaction changes state only by its own COMMIT or ROLLBACK. -/
theorem txns_step {s s' : Sys} {a : Action} (h : Step cfg s a s') (txn : Nat) :
    s'.txns txn = s.txns txn ∨ s.txns txn = .active ∧ (a = .commit txn ∨ s'.txns txn = .rolledBack) := by
  cases h with
  | @commit t htxn =>
    dsimp only
    split
    · rename_i heq
      rw [heq]
      exact .inr ⟨htxn, .inl rfl⟩
    · exact .inl rfl
  | @rollback t htxn =>
    dsimp only
    split
    · rename_i heq
      rw [heq]
      exact .inr ⟨htxn, .inr rfl⟩
    · exact .inl rfl
  | @visit r n snapshot rows htick hlimit =>
    unfold Sys.visit
    split
    · split <;> exact .inl rfl
    · exact .inl rfl
  | _ => exact .inl rfl

end Outbox

namespace OrderEvents

variable {cfg : Config}

/-- The two tables, a transaction at a time. -/
structure Tables (s : Sys) : Prop where
  begun : ∀ row ∈ s.orders, ∀ txn, s.creations txn = .begun → row.txn ≠ txn
  added : ∀ txn order, s.creations txn = .added order → ⟨order, txn⟩ ∈ s.orders
  enqueued : ∀ txn, s.creations txn = .enqueued → ∃ n event, s.db.written n = some (event, txn)
  committed : ∀ txn, s.db.txns txn = .committed → s.creations txn = .enqueued
  written : ∀ n event txn, s.db.written n = some (event, txn) → s.creations txn = .enqueued ∧
    ∃ order uuid4, ⟨order, txn⟩ ∈ s.orders ∧ event = orderCreated order uuid4
  oneRow : ∀ n m event event' txn, s.db.written n = some (event, txn) → s.db.written m = some (event', txn) → n = m
  oneOrder : ∀ row ∈ s.orders, ∀ row' ∈ s.orders, row.txn = row'.txn → row = row'
  key : ∀ row ∈ s.orders, ∀ row' ∈ s.orders, s.db.txns row.txn ≠ .rolledBack → s.db.txns row'.txn ≠ .rolledBack →
    row.order.orderId = row'.order.orderId → row = row'

theorem tables_init : Tables {} where
  begun _ h := nomatch h
  added _ _ h := nomatch h
  enqueued _ h := nomatch h
  committed _ h := nomatch h
  written _ _ _ h := nomatch h
  oneRow _ _ _ _ _ h := nomatch h
  oneOrder _ h := nomatch h
  key _ h := nomatch h

theorem setCreation_creations (s : Sys) (txn txn' : Nat) (creation : Creation) :
    (s.setCreation txn creation).creations txn' = if txn' = txn then creation else s.creations txn' := rfl

theorem hasOrderId_false {s : Sys} {orderId : Uuid} (h : s.hasOrderId orderId = false) :
    ∀ row ∈ s.orders, s.db.txns row.txn ≠ .rolledBack → row.order.orderId ≠ orderId := by
  intro row hrow hlive heq
  unfold Sys.hasOrderId at h
  rw [List.any_eq_false] at h
  exact h row hrow (decide_eq_true ⟨heq, hlive⟩)

/-- Rows that agree are one row, also with one more that agrees with none. -/
theorem unique_append (agree : OrderRow → OrderRow → Prop) (hsymm : ∀ {row row'}, agree row row' → agree row' row)
    {rows : List OrderRow} {new : OrderRow} (hold : ∀ row ∈ rows, ∀ row' ∈ rows, agree row row' → row = row')
    (hnew : ∀ row ∈ rows, ¬ agree row new) :
    ∀ row ∈ rows ++ [new], ∀ row' ∈ rows ++ [new], agree row row' → row = row' := by
  intro row hrow row' hrow' hagree
  rcases List.mem_append.1 hrow with hrow | hrow <;> rcases List.mem_append.1 hrow' with hrow' | hrow'
  · exact hold row hrow row' hrow' hagree
  · rw [List.mem_singleton.1 hrow'] at hagree
    exact absurd hagree (hnew row hrow)
  · rw [List.mem_singleton.1 hrow] at hagree
    exact absurd (hsymm hagree) (hnew row' hrow')
  · rw [List.mem_singleton.1 hrow, List.mem_singleton.1 hrow']

theorem Tables.addOrder {s : Sys} (ht : Tables s) {txn : Nat} {order : NewOrder} (hbegun : s.creations txn = .begun)
    (hid : s.hasOrderId order.orderId = false) :
    Tables ((s.insertOrder ⟨order, txn⟩).setCreation txn (.added order)) := by
  have hne : ∀ {txn'}, s.creations txn' = .enqueued → txn' ≠ txn := fun {txn'} h heq => by
    rw [heq, hbegun] at h
    cases h
  have hkeep : ∀ {txn'}, s.creations txn' = .enqueued →
      (if txn' = txn then Creation.added order else s.creations txn') = .enqueued := fun {txn'} h => by
    rw [if_neg (hne h), h]
  constructor
  case begun =>
    intro row hrow txn' h
    rw [setCreation_creations] at h
    split at h
    · cases h
    · rename_i hne'
      rcases List.mem_append.1 hrow with hrow | hrow
      · exact ht.begun row hrow txn' h
      · rw [List.mem_singleton.1 hrow]
        exact Ne.symm hne'
  case added =>
    intro txn' order' h
    rw [setCreation_creations] at h
    split at h
    · rename_i heq
      cases h
      rw [heq]
      exact List.mem_append_right _ List.mem_cons_self
    · exact List.mem_append_left _ (ht.added txn' order' h)
  case enqueued =>
    intro txn' h
    rw [setCreation_creations] at h
    split at h
    · cases h
    · exact ht.enqueued txn' h
  case committed => exact fun txn' h => hkeep (ht.committed txn' h)
  case written =>
    intro n event txn' h
    obtain ⟨hcreation, order', uuid4, hmem, hevent⟩ := ht.written n event txn' h
    exact ⟨hkeep hcreation, order', uuid4, List.mem_append_left _ hmem, hevent⟩
  case oneRow => exact ht.oneRow
  case oneOrder =>
    exact unique_append (fun row row' => row.txn = row'.txn) Eq.symm ht.oneOrder
      fun row hrow => ht.begun row hrow txn hbegun
  case key =>
    intro row hrow row' hrow' hlive hlive' heq
    refine unique_append (fun row row' => s.db.txns row.txn ≠ .rolledBack ∧
      s.db.txns row'.txn ≠ .rolledBack ∧ row.order.orderId = row'.order.orderId) ?_ ?_ ?_ row hrow row' hrow'
      ⟨hlive, hlive', heq⟩
    · exact fun h => ⟨h.2.1, h.1, h.2.2.symm⟩
    · exact fun row hrow row' hrow' h => ht.key row hrow row' hrow' h.1 h.2.1 h.2.2
    · exact fun row hrow h => hasOrderId_false hid row hrow h.1 h.2.2

theorem Tables.enqueue {s : Sys} (ht : Tables s) {db : Outbox.Sys} {next txn : Nat} {order : NewOrder} {uuid4 : Uuid}
    (hadded : s.creations txn = .added order) (hfresh : s.db.written next = none) (htxns : db.txns = s.db.txns)
    (hwritten : ∀ n, db.written n = if n = next then some (orderCreated order uuid4, txn) else s.db.written n) :
    Tables ({ s with db }.setCreation txn .enqueued) := by
  have hold : ∀ {n event txn'}, s.db.written n = some (event, txn') → n ≠ next ∧ txn' ≠ txn :=
    fun {n event txn'} h => by
      constructor
      · rintro rfl
        rw [hfresh] at h
        cases h
      · rintro rfl
        have hcreation := (ht.written n event _ h).1
        rw [hadded] at hcreation
        cases hcreation
  have hkeep : ∀ {txn'}, s.creations txn' = .enqueued →
      (if txn' = txn then Creation.enqueued else s.creations txn') = .enqueued := fun {txn'} h => by
    split
    · rfl
    · exact h
  constructor
  case begun =>
    intro row hrow txn' h
    rw [setCreation_creations] at h
    split at h
    · cases h
    · exact ht.begun row hrow txn' h
  case added =>
    intro txn' order' h
    rw [setCreation_creations] at h
    split at h
    · cases h
    · exact ht.added txn' order' h
  case enqueued =>
    intro txn' h
    rw [setCreation_creations] at h
    split at h
    · rename_i heq
      refine ⟨next, orderCreated order uuid4, (hwritten next).trans ?_⟩
      rw [if_pos rfl, heq]
    · obtain ⟨n, event, hn⟩ := ht.enqueued txn' h
      exact ⟨n, event, ((hwritten n).trans (if_neg (hold hn).1)).trans hn⟩
  case committed =>
    intro txn' h
    change db.txns txn' = .committed at h
    rw [htxns] at h
    exact hkeep (ht.committed txn' h)
  case written =>
    intro n event txn' h
    change db.written n = _ at h
    rw [hwritten] at h
    split at h
    · cases h
      exact ⟨if_pos rfl, order, uuid4, ht.added txn order hadded, rfl⟩
    · obtain ⟨hcreation, hevent⟩ := ht.written n event txn' h
      exact ⟨hkeep hcreation, hevent⟩
  case oneRow =>
    intro n m event event' txn' hn hm
    change db.written n = _ at hn
    change db.written m = _ at hm
    rw [hwritten] at hn hm
    split at hn <;> split at hm
    · rename_i h1 h2
      rw [h1, h2]
    · cases hn
      exact absurd rfl (hold hm).2
    · cases hm
      exact absurd rfl (hold hn).2
    · exact ht.oneRow n m event event' txn' hn hm
  case oneOrder => exact ht.oneOrder
  case key =>
    intro row hrow row' hrow' hlive hlive'
    change db.txns row.txn ≠ .rolledBack at hlive
    change db.txns row'.txn ≠ .rolledBack at hlive'
    rw [htxns] at hlive hlive'
    exact ht.key row hrow row' hrow' hlive hlive'

/-- A step of the database that is no INSERT, and commits only where the block has ended. -/
theorem Tables.db {s : Sys} (ht : Tables s) {db : Outbox.Sys} {a : Outbox.Action} (hallow : s.allows a = true)
    (h : Outbox.Step cfg.relay s.db a db) : Tables { s with db } := by
  have hwritten : db.written = s.db.written := Outbox.written_step h fun txn event heq => by
    rw [heq] at hallow
    cases hallow
  have hlive : ∀ {txn}, db.txns txn ≠ .rolledBack → s.db.txns txn ≠ .rolledBack := fun {txn} hne heq => by
    rcases Outbox.txns_step h txn with hsame | ⟨hactive, -⟩
    · rw [hsame] at hne
      exact hne heq
    · rw [hactive] at heq
      cases heq
  constructor
  case begun => exact ht.begun
  case added => exact ht.added
  case enqueued =>
    intro txn henq
    rw [hwritten]
    exact ht.enqueued txn henq
  case committed =>
    intro txn hcom
    rcases Outbox.txns_step h txn with hsame | ⟨-, rfl | hroll⟩
    · rw [hsame] at hcom
      exact ht.committed txn hcom
    · unfold Sys.allows at hallow
      dsimp only at hallow
      split at hallow
      · rename_i henq
        exact henq
      · cases hallow
    · rw [hroll] at hcom
      cases hcom
  case written =>
    rw [hwritten]
    exact ht.written
  case oneRow =>
    rw [hwritten]
    exact ht.oneRow
  case oneOrder => exact ht.oneOrder
  case key => exact fun row hrow row' hrow' hl hl' => ht.key row hrow row' hrow' (hlive hl) (hlive hl')

/-! ## Every run -/

/-- The database and the relays go through a run of their own system, so that what holds of every such run holds of
them here. -/
structure Inv (cfg : Config) (s : Sys) : Prop where
  db : (Outbox.lts cfg.relay).Reachable s.db
  tables : Tables s
  once : Consumer.Once cfg.parse (s.partitions cfg) s.group s.consumers

theorem inv_init : Inv cfg {} := ⟨⟨[], rfl⟩, tables_init, Consumer.once_init⟩

/-- The partitions only grow with the log. -/
theorem partitions_mono {s : Sys} {db : Outbox.Sys} {a : Outbox.Action} (h : Outbox.Step cfg.relay s.db a db) :
    ∀ p, ∀ rec ∈ s.partitions cfg p, rec ∈ Outbox.partitionLog cfg.part db.log "order.events" p := by
  intro p rec hrec
  obtain ⟨recs, hlog, -⟩ := Outbox.log_step h
  unfold Outbox.partitionLog
  rw [hlog, List.filter_append]
  exact List.mem_append_left _ hrec

theorem inv_step {s s' : Sys} {a : Action} (hi : Inv cfg s) (h : step cfg s a = some s') : Inv cfg s' := by
  unfold step at h
  split at h
  · split at h
    · rename_i hbegun
      split at h
      · rename_i hok
        cases h
        exact ⟨hi.db, hi.tables.addOrder hbegun hok.2, hi.once⟩
      · cases h
    · cases h
  · split at h
    · rename_i txn uuid4 _ order hadded
      obtain ⟨db, hdb, rfl⟩ := Option.map_eq_some_iff.1 h
      have hstep := Outbox.step_sound hdb
      have hreach : (Outbox.lts cfg.relay).Reachable db :=
        (Outbox.lts cfg.relay).reachable_step (e := .enqueue txn (orderCreated order uuid4)) hi.db hdb
      have hfresh : s.db.written s.db.nextId = none := by
        unfold Outbox.Sys.written
        rw [(Outbox.reachable_inv hi.db).fresh _ (Nat.le_refl _)]
        rfl
      have htxns : db.txns = s.db.txns := by
        cases hstep with
        | enqueue htxn hid => rfl
      exact ⟨hreach, hi.tables.enqueue hadded hfresh htxns (Outbox.enqueue_written hstep),
        hi.once.log_mono (partitions_mono hstep)⟩
    · cases h
  · split at h
    · rename_i hallow
      obtain ⟨db, hdb, rfl⟩ := Option.map_eq_some_iff.1 h
      have hstep := Outbox.step_sound hdb
      exact ⟨(Outbox.lts cfg.relay).reachable_step hi.db hdb, hi.tables.db hallow hstep,
        hi.once.log_mono (partitions_mono hstep)⟩
    · cases h
  · obtain ⟨r, hr, rfl⟩ := Option.map_eq_some_iff.1 h
    exact ⟨hi.db, ⟨hi.tables.begun, hi.tables.added, hi.tables.enqueued, hi.tables.committed, hi.tables.written,
      hi.tables.oneRow, hi.tables.oneOrder, hi.tables.key⟩, hi.once.step (Consumer.step_sound _ _ hr)⟩

theorem reachable_inv {s : Sys} (h : (lts cfg).Reachable s) : Inv cfg s :=
  (lts cfg).reachable_inv inv_init (fun _ _ _ hi h => inv_step hi h) h

/-! ## What was executed -/

/-- A committed outbox row of the order. -/
def Sys.RowOf (s : Sys) (orderId : Uuid) (n : Nat) : Prop :=
  ∃ row, s.db.outbox n = some row ∧ s.db.txns row.txn = .committed ∧ row.event.aggregateId = orderId.str

/-- A committed `orders` row has the `order_id` of the payload, and its order exactly one committed outbox row. -/
def Sys.Backed (s : Sys) (rec : Outbox.Record) : Prop :=
  ∃ row ∈ s.orders, s.db.txns row.txn = .committed ∧
    Json.get rec.value "order_id" = .str row.order.orderId.str ∧ ∃! n, s.RowOf row.order.orderId n

/-- **Both tables or neither**: each committed order has exactly one committed outbox row. -/
theorem Tables.one_row {s : Sys} (ht : Tables s) {row : OrderRow} (hrow : row ∈ s.orders)
    (hcom : s.db.txns row.txn = .committed) : ∃! n, s.RowOf row.order.orderId n := by
  obtain ⟨n, event, hn⟩ := ht.enqueued row.txn (ht.committed row.txn hcom)
  refine ⟨n, ?_, fun m hm => ?_⟩
  · obtain ⟨-, order, uuid4, horder, hevent⟩ := ht.written n event row.txn hn
    have heq : (⟨order, row.txn⟩ : OrderRow) = row := ht.oneOrder _ horder row hrow rfl
    obtain ⟨out, hout, hpair⟩ := Option.map_eq_some_iff.1 hn
    obtain ⟨hev, htxn⟩ := Prod.mk.inj hpair
    refine ⟨out, hout, by rw [htxn, hcom], ?_⟩
    rw [hev, hevent, ← heq]
    rfl
  · obtain ⟨out, hout, hcom', hagg⟩ := hm
    have hm : s.db.written m = some (out.event, out.txn) := by
      unfold Outbox.Sys.written
      rw [hout]
      rfl
    obtain ⟨-, order, uuid4, horder, hevent⟩ := ht.written m out.event out.txn hm
    have hid : order.orderId = row.order.orderId := by
      rw [hevent] at hagg
      exact Uuid.ext hagg
    have heq : (⟨order, out.txn⟩ : OrderRow) = row := by
      refine ht.key _ horder row hrow ?_ ?_ hid
      · rw [hcom']
        decide
      · rw [hcom]
        decide
    have htxn : out.txn = row.txn := congrArg OrderRow.txn heq
    rw [htxn] at hm
    exact ht.oneRow m n out.event event row.txn hm hn

theorem Inv.backed {s : Sys} (hi : Inv cfg s) {rec : Outbox.Record} (hrec : rec ∈ s.db.log) : s.Backed rec := by
  obtain ⟨out, hout, hcom, hbuilt⟩ := (Outbox.reachable_inv hi.db).built rec (List.mem_append_left _ hrec)
  have hwritten : s.db.written rec.row = some (out.event, out.txn) := by
    unfold Outbox.Sys.written
    rw [hout]
    rfl
  obtain ⟨-, order, uuid4, horder, hevent⟩ := hi.tables.written _ _ _ hwritten
  refine ⟨⟨order, out.txn⟩, horder, hcom, ?_, hi.tables.one_row horder hcom⟩
  rw [hbuilt, hevent]
  rfl

/-- **The end of the pipeline is safe**: in every reachable state, whatever rolled back, failed, crashed, was sent again
or was read again, each event id's business step has run at most once, and each that ran is the step of a record with
that event id, whose `order_id` is that of a committed order with exactly one committed outbox row. -/
theorem business_once_and_backed (cfg : Config) {s : Sys} (h : (lts cfg).Reachable s) :
    (∀ eventId, (s.group.executed.map Prod.fst).count eventId ≤ 1) ∧
    ∀ p ∈ s.group.executed,
      (∃ text, Consumer.header p.2 "event_id" = some text ∧ cfg.parse text = some p.1) ∧ s.Backed p.2 := by
  have hi := reachable_inv h
  constructor
  · exact fun eventId => List.nodup_iff_count_le_one.1 hi.once.nodup eventId
  · intro p hp
    obtain ⟨⟨tp, hmem⟩, hevent⟩ := hi.once.executedRead p hp
    exact ⟨hevent, hi.backed (List.mem_filter.1 hmem).1⟩

/-- `str`, on a text. -/
def textOf : Json → String
  | .str s => s
  | _ => ""

def anOrder : NewOrder where
  orderId := ⟨"7c9e6679-7425-40de-944b-e07fc1f90ae7", by decide⟩
  userId := "u1"
  items := .arr [.obj [("product_id", .str "p1"), ("quantity", .num 2), ("price", .str "9.90")]]
  totalPrice := "19.80"

/-- One order, sent twice because its first tick is aborted; the second record reaches another process. -/
def sentTwice : List Action :=
  [.addOrder 0 anOrder, .enqueue 0 ⟨"1e8c7a90-5d24-4b3f-8a16-c97d02f4e6b8", by decide⟩, .db (.commit 0),
    .db (.select 0), .db (.visit 0), .db (.selected 0), .db (.send 0), .db (.land 0), .db (.abort 0),
    .db (.select 1), .db (.visit 1), .db (.selected 1), .db (.send 1), .db (.land 1),
    .consumer 0 .start, .consumer 0 (.getmany [(0, 1)]), .consumer 0 .mark, .consumer 1 .start,
    .consumer 1 (.getmany [(0, 2)]), .consumer 1 .mark, .consumer 0 .business, .consumer 1 .mark]

theorem business_once_and_backed_sentTwice :
    ∃ s, (lts ⟨⟨100, textOf⟩, fun _ => 0, Uuid.ofText⟩).run {} sentTwice = some s ∧ s.group.executed.length = 1 ∧
      (∀ eventId, (s.group.executed.map Prod.fst).count eventId ≤ 1) ∧
      ∀ p ∈ s.group.executed,
        (∃ text, Consumer.header p.2 "event_id" = some text ∧ Uuid.ofText text = some p.1) ∧ s.Backed p.2 :=
  ⟨_, rfl, rfl, business_once_and_backed ⟨⟨100, textOf⟩, fun _ => 0, Uuid.ofText⟩ ⟨sentTwice, rfl⟩⟩

end OrderEvents
end KafkaGuide
