import KafkaGuide.Monitoring
import Mathlib.Algebra.BigOperators.Group.Finset.Basic
import Mathlib.Algebra.Ring.Int.Defs
/-!
# MonitoringLag — `KafkaHealthChecker.get_consumer_lag` (`10-monitoring-and-testing/app/health.py`)

The lag is asked for by a consumer that joins the group for the time of the call, and is that of the partitions it is
assigned.  The partitions that other members have, the service's own consumer among them, are not in it
(`totalLag_add_others`).
-/
namespace KafkaGuide
namespace Monitoring

structure TopicPartition where
  topic : Text
  partition : Nat

/-- The awaited calls of `get_consumer_lag`. -/
inductive Call where
  | start
  | endOffsets (tp : TopicPartition)
  | committed (tp : TopicPartition)
  | stop

/-- The subscribed topic and the group's offsets in it, and what the calls raise. -/
structure Broker where
  partitions : Nat
  endOffset : Nat → Nat
  committed : Nat → Option Nat
  raises : Call → Option Text

/-- The members of a group: each partition has one. -/
structure Group (M : Type) where
  owner : Nat → M

/-- `assignment()` of a member: its own partitions, in the order in which the set is iterated. -/
structure Assignment {M : Type} (settings : Settings) (b : Broker) (g : Group M) (m : M) where
  tps : List TopicPartition
  nodup : tps.Nodup
  mem_iff : ∀ tp, tp ∈ tps ↔ tp.topic = settings.kafkaTopic ∧ tp.partition < b.partitions ∧ g.owner tp.partition = m

structure PartitionLag where
  topic : Text
  partition : Nat
  endOffset : Nat
  committedOffset : Nat
  lag : ℤ

/-- `lag_info`. -/
structure LagInfo where
  groupId : Text
  partitions : List PartitionLag := []
  totalLag : Option ℤ := none
  error : Option Text := none

namespace Broker

def call {α : Type} (b : Broker) (c : Call) (a : α) : Except Text α :=
  match b.raises c with
  | some e => .error e
  | none => .ok a

/-- The body of the loop. -/
def partitionLag (b : Broker) (tp : TopicPartition) : Except Text PartitionLag := do
  let endOffset ← b.call (.endOffsets tp) (b.endOffset tp.partition)
  let committed ← b.call (.committed tp) (b.committed tp.partition)
  let committedOffset := committed.getD 0
  return ⟨tp.topic, tp.partition, endOffset, committedOffset, endOffset - committedOffset⟩

/-- The loop: `lag_info["partitions"]`, `total_lag`, and what was raised. -/
def loop (b : Broker) : List TopicPartition → List PartitionLag → ℤ → List PartitionLag × ℤ × Option Text
  | [], entries, totalLag => (entries, totalLag, none)
  | tp :: tps, entries, totalLag =>
    match b.partitionLag tp with
    | .error e => (entries, totalLag, some e)
    | .ok entry => b.loop tps (entries ++ [entry]) (totalLag + entry.lag)

/-- `get_consumer_lag`; what `stop` raises takes the place of what the loop raised. -/
def getConsumerLag (b : Broker) (settings : Settings) (tps : List TopicPartition) : LagInfo :=
  match b.raises .start with
  | some e => { groupId := settings.kafkaConsumerGroup, error := some e }
  | none =>
    let (entries, totalLag, raised) := b.loop tps [] 0
    match (b.raises .stop).or raised with
    | some e => { groupId := settings.kafkaConsumerGroup, partitions := entries, error := some e }
    | none => { groupId := settings.kafkaConsumerGroup, partitions := entries, totalLag := some totalLag }

/-! ## The group's lag -/

def lag (b : Broker) (p : Nat) : ℤ := b.endOffset p - ((b.committed p).getD 0 : Nat)

def groupLag (b : Broker) : ℤ := ∑ p ∈ Finset.range b.partitions, b.lag p

/-- What is said of one partition. -/
def entry (b : Broker) (tp : TopicPartition) : PartitionLag :=
  ⟨tp.topic, tp.partition, b.endOffset tp.partition, (b.committed tp.partition).getD 0, b.lag tp.partition⟩

/-- **The lag of the group**: one entry for each partition of the topic, and the sum over all of them. -/
structure Reports (b : Broker) (settings : Settings) (info : LagInfo) : Prop where
  entries : info.partitions.Perm ((List.range b.partitions).map fun p => b.entry ⟨settings.kafkaTopic, p⟩)
  total : info.totalLag = some b.groupLag

/-! ## One partition, and the loop -/

/-- Both offsets of a partition are answered. -/
def Reads (b : Broker) (tp : TopicPartition) : Prop :=
  b.raises (.endOffsets tp) = none ∧ b.raises (.committed tp) = none

theorem partitionLag_reads {b : Broker} {tp : TopicPartition} (h : b.Reads tp) :
    b.partitionLag tp = .ok (b.entry tp) := by
  unfold partitionLag call
  rw [h.1, h.2]
  rfl

theorem partitionLag_raises {b : Broker} {tp : TopicPartition} (h : ¬ b.Reads tp) :
    ∃ e, b.partitionLag tp = .error e := by
  unfold partitionLag call
  cases hend : b.raises (.endOffsets tp) with
  | some e => exact ⟨e, rfl⟩
  | none =>
    cases hcommitted : b.raises (.committed tp) with
    | some e => exact ⟨e, rfl⟩
    | none => exact absurd ⟨hend, hcommitted⟩ h

/-- Where all is answered, the loop adds an entry and the lag of each partition. -/
theorem loop_reads {b : Broker} : ∀ {tps : List TopicPartition} (entries : List PartitionLag) (totalLag : ℤ),
    (∀ tp ∈ tps, b.Reads tp) → b.loop tps entries totalLag =
      (entries ++ tps.map b.entry, totalLag + (tps.map fun tp => b.lag tp.partition).sum, none)
  | [], entries, totalLag, _ => by simp [loop]
  | tp :: tps, entries, totalLag, h => by
    obtain ⟨htp, htps⟩ := List.forall_mem_cons.1 h
    rw [loop, partitionLag_reads htp]
    dsimp only
    rw [loop_reads (entries ++ [b.entry tp]) (totalLag + (b.entry tp).lag) htps, List.append_assoc, List.map_cons,
      List.map_cons, List.sum_cons, add_assoc]
    rfl

theorem loop_raises {b : Broker} : ∀ {tps : List TopicPartition} (entries : List PartitionLag) (totalLag : ℤ),
    (b.loop tps entries totalLag).2.2 = none → ∀ tp ∈ tps, b.Reads tp
  | [], _, _, _ => fun _ h => nomatch h
  | tp :: tps, entries, totalLag, h => by
    by_cases htp : b.Reads tp
    · rw [loop, partitionLag_reads htp] at h
      exact List.forall_mem_cons.2 ⟨htp, loop_raises _ _ h⟩
    · obtain ⟨e, he⟩ := partitionLag_raises htp
      rw [loop, he] at h
      cases h

/-! ## What is reported -/

/-- No call of the function raises. -/
structure Answers (b : Broker) (tps : List TopicPartition) : Prop where
  start : b.raises .start = none
  stop : b.raises .stop = none
  reads : ∀ tp ∈ tps, b.Reads tp

theorem getConsumerLag_answers {b : Broker} {tps : List TopicPartition} (h : b.Answers tps) (settings : Settings) :
    b.getConsumerLag settings tps = ⟨settings.kafkaConsumerGroup, tps.map b.entry,
      some (tps.map fun tp => b.lag tp.partition).sum, none⟩ := by
  unfold getConsumerLag
  rw [h.start, loop_reads [] 0 h.reads, h.stop, zero_add]
  rfl

/-- **A total is reported only when everything was answered.** -/
theorem answers_of_total {b : Broker} {tps : List TopicPartition} {settings : Settings} {total : ℤ}
    (h : (b.getConsumerLag settings tps).totalLag = some total) : b.Answers tps := by
  unfold getConsumerLag at h
  cases hstart : b.raises .start with
  | some e =>
    rw [hstart] at h
    cases h
  | none =>
    rw [hstart] at h
    dsimp only at h
    cases hstop : b.raises .stop with
    | some e =>
      rw [hstop] at h
      cases h
    | none =>
      rw [hstop, Option.none_or] at h
      cases hraised : (b.loop tps [] 0).2.2 with
      | some e =>
        rw [hraised] at h
        cases h
      | none => exact ⟨hstart, hstop, loop_raises _ _ hraised⟩

end Broker

variable {M : Type} {settings : Settings} {b : Broker} {g : Group M} {m : M}

namespace Assignment

theorem partition_inj (a : Assignment settings b g m) :
    ∀ tp ∈ a.tps, ∀ tp' ∈ a.tps, tp.partition = tp'.partition → tp = tp' := by
  rintro ⟨t, p⟩ h ⟨t', p'⟩ h' heq
  have ht : t = settings.kafkaTopic := ((a.mem_iff _).1 h).1
  have ht' : t' = settings.kafkaTopic := ((a.mem_iff _).1 h').1
  cases heq
  rw [ht, ht']

/-- The partitions of an assignment are those of its member. -/
theorem sum_lag [DecidableEq M] (a : Assignment settings b g m) : (a.tps.map fun tp => b.lag tp.partition).sum =
    ∑ p ∈ Finset.range b.partitions with g.owner p = m, b.lag p := by
  have hnodup : (a.tps.map TopicPartition.partition).Nodup := a.nodup.map_on a.partition_inj
  have hset : (a.tps.map TopicPartition.partition).toFinset =
      {p ∈ Finset.range b.partitions | g.owner p = m} := by
    ext p
    rw [List.mem_toFinset, List.mem_map, Finset.mem_filter, Finset.mem_range]
    constructor
    · rintro ⟨tp, htp, rfl⟩
      exact ((a.mem_iff tp).1 htp).2
    · exact fun h => ⟨⟨settings.kafkaTopic, p⟩, (a.mem_iff _).2 ⟨rfl, h⟩, rfl⟩
  rw [← hset, List.sum_toFinset _ hnodup, List.map_map]
  rfl

/-- A member that has every partition has the topic. -/
theorem perm_of_all (a : Assignment settings b g m) (h : ∀ p < b.partitions, g.owner p = m) :
    a.tps.Perm ((List.range b.partitions).map fun p => ⟨settings.kafkaTopic, p⟩) := by
  have hinj : Function.Injective fun p => TopicPartition.mk settings.kafkaTopic p :=
    fun _ _ heq => (TopicPartition.mk.inj heq).2
  rw [List.perm_ext_iff_of_nodup a.nodup (List.nodup_range.map hinj)]
  rintro ⟨t, p⟩
  rw [a.mem_iff, List.mem_map]
  constructor
  · rintro ⟨htopic, hp, -⟩
    exact ⟨p, List.mem_range.2 hp, by rw [← htopic]⟩
  · rintro ⟨p', hp', heq⟩
    cases heq
    exact ⟨rfl, List.mem_range.1 hp', h _ (List.mem_range.1 hp')⟩

end Assignment

/-- **What is missing** from a reported total is the lag of the other members' partitions. -/
theorem totalLag_add_others [DecidableEq M] (a : Assignment settings b g m) (h : b.Answers a.tps) :
    ∃ total, (b.getConsumerLag settings a.tps).totalLag = some total ∧
      total + ∑ p ∈ Finset.range b.partitions with g.owner p ≠ m, b.lag p = b.groupLag := by
  refine ⟨_, by rw [Broker.getConsumerLag_answers h], ?_⟩
  rw [a.sum_lag]
  exact Finset.sum_filter_add_sum_filter_not _ _ _

/-- **The reported lag is the group's** exactly when no call raises and no other member has a partition of the topic. -/
theorem lag_reported_iff (settings : Settings) (b : Broker) (g : Group M) (m : M) (a : Assignment settings b g m) :
    b.Reports settings (b.getConsumerLag settings a.tps) ↔
      b.Answers a.tps ∧ ∀ p < b.partitions, g.owner p = m := by
  classical
  constructor
  · intro h
    have hanswers := Broker.answers_of_total h.total
    refine ⟨hanswers, fun p hp => ?_⟩
    have hentries := h.entries
    rw [Broker.getConsumerLag_answers hanswers] at hentries
    have hmem : b.entry ⟨settings.kafkaTopic, p⟩ ∈ a.tps.map b.entry :=
      hentries.mem_iff.2 (List.mem_map.2 ⟨p, List.mem_range.2 hp, rfl⟩)
    obtain ⟨tp, htp, heq⟩ := List.mem_map.1 hmem
    have hpartition : tp.partition = p := congrArg PartitionLag.partition heq
    rw [← hpartition]
    exact ((a.mem_iff tp).1 htp).2.2
  · rintro ⟨hanswers, hall⟩
    obtain ⟨total, htotal, hsum⟩ := totalLag_add_others a hanswers
    refine ⟨?_, ?_⟩
    · rw [Broker.getConsumerLag_answers hanswers]
      have hperm := (a.perm_of_all hall).map b.entry
      rwa [List.map_map] at hperm
    · have hothers : ∑ p ∈ Finset.range b.partitions with g.owner p ≠ m, b.lag p = 0 := by
        apply Finset.sum_eq_zero
        intro p hp
        obtain ⟨hp, hother⟩ := Finset.mem_filter.1 hp
        exact absurd (hall p (Finset.mem_range.1 hp)) hother
      rw [htotal, ← hsum, hothers, add_zero]

/-! ### Two partitions, two members -/

/-- The members of the group while `get_consumer_lag` runs. -/
inductive Member where
  | consumerService
  | lagConsumer
deriving DecidableEq

/-- Ten records in each partition; the service has committed four of the first. -/
def twoPartitions : Broker where
  partitions := 2
  endOffset _ := 10
  committed p := if p = 0 then some 4 else some 10
  raises _ := none

def oneEach : Group Member := ⟨fun p => if p = 0 then .consumerService else .lagConsumer⟩

def secondOnly : Assignment {} twoPartitions oneEach .lagConsumer where
  tps := [⟨({} : Settings).kafkaTopic, 1⟩]
  nodup := List.nodup_singleton _
  mem_iff := by
    rintro ⟨t, p⟩
    rw [List.mem_singleton, TopicPartition.mk.injEq]
    change _ ∧ _ ↔ _ ∧ p < 2 ∧ (if p = 0 then Member.consumerService else .lagConsumer) = .lagConsumer
    constructor
    · rintro ⟨ht, rfl⟩
      exact ⟨ht, by decide, rfl⟩
    · rintro ⟨ht, hp, howner⟩
      refine ⟨ht, ?_⟩
      split at howner
      · cases howner
      · omega

/-- No lag is reported, and the group's is six. -/
theorem lag_missed : (twoPartitions.getConsumerLag {} secondOnly.tps).totalLag = some 0 ∧ twoPartitions.groupLag = 6 ∧
    ¬ twoPartitions.Reports {} (twoPartitions.getConsumerLag {} secondOnly.tps) := by
  have htotal : (twoPartitions.getConsumerLag {} secondOnly.tps).totalLag = some 0 := by decide
  have hgroup : twoPartitions.groupLag = 6 := by decide
  refine ⟨htotal, hgroup, fun h => ?_⟩
  have := h.total
  rw [htotal, hgroup] at this
  exact absurd this (by decide)

end Monitoring
end KafkaGuide
