import KafkaGuide.RelayInv
/-!
# RelayLoss — no row is lost, and every duplicate has an aborted tick to answer for it

The at-least-once promise of the relay, over every run of any number of relays, with transactions that commit or roll
back, failing sends and crashes at any step.
-/
namespace KafkaGuide
namespace Outbox

/-- The records of a row in the Kafka log. -/
def Sys.records (s : Sys) (n : Nat) : Nat := s.log.countP (fun rec => rec.row = n)

theorem records_le_copies (s : Sys) (n : Nat) : s.records n ≤ s.copies n :=
  (List.sublist_append_left s.log s.wire).countP_le

theorem records_pos {s : Sys} {n : Nat} : 0 < s.records n ↔ s.onLog n := by
  unfold Sys.records Sys.onLog
  rw [List.countP_pos_iff, List.mem_map]
  exact exists_congr fun rec => and_congr_right fun _ => decide_eq_true_iff

/-- **Nothing is lost and duplicates are justified**: in every reachable state a published row has a record, and a row
has at most one record more than there are aborted ticks that had sent it, so at most one when no tick was aborted. -/
theorem published_once (cfg : Config) {s : Sys} (h : (lts cfg).Reachable s) (n : Nat) :
    (s.Published n → 1 ≤ s.records n) ∧ s.records n ≤ 1 + s.abortedSends n ∧
      (s.aborted = [] → s.records n ≤ 1) := by
  have hi := reachable_inv h
  have hle : s.records n ≤ 1 + s.abortedSends n := by
    have h1 := records_le_copies s n
    have h2 := hi.once n
    omega
  refine ⟨fun hpub => records_pos.2 (hi.logged n hpub), hle, fun hnone => ?_⟩
  have hzero : s.abortedSends n = 0 := by
    unfold Sys.abortedSends
    rw [hnone]
    rfl
  omega

def anEvent : OutboxEvent :=
  enqueueEvent "Order" "7c9e6679-7425-40de-944b-e07fc1f90ae7" "OrderCreated" "order.events" [] none none
    ⟨"3f2504e0-4f89-41d3-9a0c-0305e82c3301", by decide⟩

/-- One row, whose first send reaches the log and is rolled back, and which a second tick publishes. -/
def twiceSent : List Action :=
  [.enqueue 0 anEvent, .commit 0, .select 0, .visit 0, .selected 0, .send 0, .land 0, .abort 0,
    .select 1, .visit 1, .selected 1, .send 1, .land 1, .ack 1, .mark 1, .commitTick 1]

theorem published_once_twiceSent : ∃ s, (lts ⟨100, fun _ => ""⟩).run {} twiceSent = some s ∧ s.records 0 = 2 ∧
    ((s.Published 0 → 1 ≤ s.records 0) ∧ s.records 0 ≤ 1 + s.abortedSends 0 ∧
      (s.aborted = [] → s.records 0 ≤ 1)) :=
  ⟨_, rfl, rfl, published_once ⟨100, fun _ => ""⟩ ⟨twiceSent, rfl⟩ 0⟩

end Outbox
end KafkaGuide
