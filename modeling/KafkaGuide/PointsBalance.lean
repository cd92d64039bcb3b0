import Mathlib.Data.List.Induction
import KafkaGuide.Points
/-!
# PointsBalance — the balances of a single consumer

Between two messages the credits are the first deliveries of the keys that Redis did not have at the start, in their
order, and Redis has the keys delivered besides: `_process_message` keeps both, through every duplicate, and a loop that
ends in the middle of a message gets no further one.
-/
namespace KafkaGuide
namespace Points

/-- The first message of each key that is not among the `known` ones. -/
def firstDeliveries (known : String → Bool) : List PointEvent → List PointEvent
  | [] => []
  | m :: ms =>
    if known m.idempotencyKey then firstDeliveries known ms
    else m :: firstDeliveries (fun k => known k || decide (k = m.idempotencyKey)) ms

/-- The points of a user in some messages. -/
def pointsOf (u : String) (ms : List PointEvent) : Int :=
  ((ms.filter (fun m => m.userId = u)).map PointEvent.points).sum

/-- The consumer an action is about. -/
def Action.consumer : Action → Option Nat
  | .send _ => none
  | .deliver i _ => some i
  | .serve i => some i
  | .resume i => some i
  | .stop i => some i

/-- The message an action delivers. -/
def Action.delivered : Action → Option PointEvent
  | .deliver _ m => some m
  | _ => none

/-- The messages delivered in a run, in their order. -/
def deliveries (as : List Action) : List PointEvent := as.filterMap Action.delivered

/-- The keys that are known, or have been delivered. -/
def keysAfter (known : String → Bool) (ms : List PointEvent) (k : String) : Bool :=
  known k || ms.any (fun m => m.idempotencyKey = k)

theorem keysAfter_cons (known : String → Bool) (m : PointEvent) (ms : List PointEvent) (k : String) :
    keysAfter known (m :: ms) k = keysAfter (fun k => known k || decide (k = m.idempotencyKey)) ms k := by
  unfold keysAfter
  rw [List.any_cons, Bool.or_assoc, decide_eq_decide.2 eq_comm]

theorem keysAfter_append (known : String → Bool) (ms : List PointEvent) (m : PointEvent) (k : String) :
    keysAfter known (ms ++ [m]) k = (decide (k = m.idempotencyKey) || keysAfter known ms k) := by
  unfold keysAfter
  rw [List.any_append, List.any_cons, List.any_nil, Bool.or_false, ← Bool.or_assoc, Bool.or_comm,
    decide_eq_decide.2 eq_comm]

/-- **One more message** is a first delivery unless its key is known by then. -/
theorem firstDeliveries_append : ∀ (known : String → Bool) (ms : List PointEvent) (m : PointEvent),
    firstDeliveries known (ms ++ [m]) =
      firstDeliveries known ms ++ if keysAfter known ms m.idempotencyKey then [] else [m]
  | known, [], m => by simp only [firstDeliveries, keysAfter, List.nil_append, List.any_nil, Bool.or_false]
  | known, m' :: ms, m => by
    rw [List.cons_append, firstDeliveries, firstDeliveries, keysAfter_cons]
    split
    · rename_i hknown
      have hsame : (fun k => known k || decide (k = m'.idempotencyKey)) = known := by
        funext k
        by_cases hk : k = m'.idempotencyKey
        · rw [hk, hknown, Bool.true_or]
        · rw [decide_eq_false hk, Bool.or_false]
      rw [hsame, firstDeliveries_append known ms m]
    · rw [firstDeliveries_append _ ms m, List.cons_append]

/-! ## The loop -/

/-- The credits of consumer `i` are the first deliveries of `ds`, and the keys of `ds` are in Redis. -/
structure Done (redis : Dict String String) (i : Nat) (ds : List PointEvent) (credits : List (Nat × PointEvent))
    (redis' : Dict String String) : Prop where
  credits : credits = (firstDeliveries (isProcessed redis) ds).map (fun m => (i, m))
  keys : ∀ k, isProcessed redis' k = keysAfter (isProcessed redis) ds k

/-- How far `_process_message` is with the last delivery, `m`, after those of `ds`. -/
def AtStage (redis : Dict String String) (i : Nat) (ds : List PointEvent) (m : PointEvent)
    (credits : List (Nat × PointEvent)) (redis' : Dict String String) : Stage → Prop
  | .isProcessed => Done redis i ds credits redis'
  | .answered found =>
    Done redis i ds credits redis' ∧ found = keysAfter (isProcessed redis) ds m.idempotencyKey
  | .markProcessed => credits = (firstDeliveries (isProcessed redis) (ds ++ [m])).map (fun m => (i, m)) ∧
    ∀ k, isProcessed redis' k = keysAfter (isProcessed redis) ds k
  | _ => Done redis i (ds ++ [m]) credits redis'

/-- **The loop invariant**, after the deliveries `ds`. -/
def LoopInv (redis : Dict String String) (i : Nat) (ds : List PointEvent) (s : Sys) : Prop :=
  match (s.consumers i).message with
  | none => Done redis i ds s.credits s.redis
  | some (m, stage) => ∃ before, ds = before ++ [m] ∧ AtStage redis i before m s.credits s.redis stage

section Loop

variable {redis : Dict String String} {i : Nat} {ds : List PointEvent} {s s' : Sys} {m : PointEvent}

/-- A duplicate adds nothing. -/
theorem Done.duplicate {credits : List (Nat × PointEvent)} {redis' : Dict String String}
    (hd : Done redis i ds credits redis') (hknown : keysAfter (isProcessed redis) ds m.idempotencyKey = true) :
    Done redis i (ds ++ [m]) credits redis' := by
  constructor
  · rw [firstDeliveries_append, if_pos hknown, List.append_nil]
    exact hd.credits
  · intro k
    rw [keysAfter_append, hd.keys]
    by_cases hk : k = m.idempotencyKey
    · rw [hk, hknown, Bool.or_true]
    · rw [decide_eq_false hk, Bool.false_or]

theorem loopInv_some {stage : Stage} (hmessage : (s.consumers i).message = some (m, stage)) :
    LoopInv redis i ds s ↔ ∃ before, ds = before ++ [m] ∧ AtStage redis i before m s.credits s.redis stage := by
  unfold LoopInv
  rw [hmessage]

theorem loopInv_none (hmessage : (s.consumers i).message = none) :
    LoopInv redis i ds s ↔ Done redis i ds s.credits s.redis := by
  unfold LoopInv
  rw [hmessage]

theorem LoopInv.at_stage {c : Consumer} {before : List PointEvent} (stage : Stage)
    (hconsumers : s'.consumers = (s.setConsumer i c).consumers) (hc : c.message = some (m, stage))
    (hds : ds = before ++ [m]) (h : AtStage redis i before m s'.credits s'.redis stage) : LoopInv redis i ds s' := by
  refine (loopInv_some ?_).2 ⟨before, hds, h⟩
  rw [hconsumers, setConsumer_self, hc]

theorem LoopInv.deliver (hi : LoopInv redis i ds s) (hmessage : (s.consumers i).message = none) :
    LoopInv redis i (ds ++ [m]) (s.setStage i m .isProcessed) :=
  .at_stage .isProcessed rfl rfl rfl ((loopInv_none hmessage).1 hi)

/-- **The loop keeps its invariant**, from one call or return to the next. -/
theorem LoopInv.step {a : Action} (hi : LoopInv redis i ds s) (hsingle : ∀ j ∈ a.consumer, j = i) (h : Step s a s')
    (hrunning : (s'.consumers i).running = true) (hdelivered : a.delivered = none) : LoopInv redis i ds s' := by
  cases h with
  | send m => exact hi
  | deliver hrun hmessage => cases hdelivered
  | answer hmessage =>
    obtain rfl := hsingle _ rfl
    obtain ⟨before, hds, hd⟩ := (loopInv_some hmessage).1 hi
    exact .at_stage (.answered _) rfl rfl hds ⟨hd, hd.keys _⟩
  | @mark j m hmessage =>
    obtain rfl := hsingle _ rfl
    obtain ⟨before, hds, hcredits, hkeys⟩ := (loopInv_some hmessage).1 hi
    refine .at_stage .marked rfl rfl hds ⟨hcredits, fun k => ?_⟩
    rw [isProcessed_markProcessed, keysAfter_append, hkeys]
  | @commit j m hmessage =>
    obtain rfl := hsingle _ rfl
    obtain ⟨before, hds, hd⟩ := (loopInv_some hmessage).1 hi
    exact .at_stage .committed rfl rfl hds hd
  | @skip j m hmessage =>
    obtain rfl := hsingle _ rfl
    obtain ⟨before, hds, hd, hfound⟩ := (loopInv_some hmessage).1 hi
    exact .at_stage .commit rfl rfl hds (hd.duplicate hfound.symm)
  | @credit j m hrun hmessage =>
    obtain rfl := hsingle _ rfl
    obtain ⟨before, hds, hd, hfound⟩ := (loopInv_some hmessage).1 hi
    refine .at_stage .markProcessed rfl rfl hds ⟨?_, hd.keys⟩
    change s.credits ++ [(j, m)] = _
    rw [firstDeliveries_append, ← hfound, hd.credits, List.map_append]
    rfl
  | @marked j m hmessage =>
    obtain rfl := hsingle _ rfl
    obtain ⟨before, hds, hd⟩ := (loopInv_some hmessage).1 hi
    exact .at_stage .commit rfl rfl hds hd
  | @next j m hmessage =>
    obtain rfl := hsingle _ rfl
    obtain ⟨before, hds, hd⟩ := (loopInv_some hmessage).1 hi
    refine (loopInv_none (congrArg Consumer.message (setConsumer_self s j _))).2 ?_
    rw [hds]
    exact hd
  | @stop j =>
    obtain rfl := hsingle _ rfl
    rw [setConsumer_self] at hrunning
    cases hrunning

/-- A loop that has ended stays so. -/
theorem running_of_step {a : Action} (h : Step s a s') (hrunning : (s'.consumers i).running = true) :
    (s.consumers i).running = true := by
  have hsame : ∀ {j : Nat} {c : Consumer}, ((s.setConsumer j c).consumers i).running = true →
      (c.running = true → (s.consumers j).running = true) → (s.consumers i).running = true := fun {j c} hrun hc => by
    rw [setConsumer_consumers] at hrun
    split at hrun
    · rename_i hij
      rw [hij]
      exact hc hrun
    · exact hrun
  cases h with
  | send m => exact hrunning
  | stop => exact hsame hrunning fun h => by cases h
  | _ => exact hsame hrunning fun h => h

end Loop

theorem loopInv_run (redis : Dict String String) (i : Nat) (as : List Action) :
    ∀ s, (lts redis).run (lts redis).init as = some s → (∀ a ∈ as, ∀ j ∈ a.consumer, j = i) →
      (s.consumers i).running = true → LoopInv redis i (deliveries as) s := by
  induction as using List.reverseRecOn with
  | nil =>
    intro s hrun _ _
    cases hrun
    exact ⟨rfl, fun k => (Bool.or_false _).symm⟩
  | append_singleton as a ih =>
    intro s hrun hsingle hrunning
    obtain ⟨s₀, hrun₀, hlast⟩ := (lts redis).run_append.1 hrun
    obtain ⟨s₁, hstep, hnil⟩ := (lts redis).run_cons.1 hlast
    cases hnil
    have hs := step_sound hstep
    have hi := ih s₀ hrun₀ (fun b hb => hsingle b (List.mem_append_left _ hb)) (running_of_step hs hrunning)
    have ha := hsingle a (List.mem_append_right _ (List.mem_singleton.2 rfl))
    unfold deliveries at hi ⊢
    rw [List.filterMap_append]
    cases hdelivered : a.delivered with
    | none =>
      rw [List.filterMap_cons_none hdelivered, List.filterMap_nil, List.append_nil]
      exact hi.step ha hs hrunning hdelivered
    | some m =>
      rw [List.filterMap_cons_some hdelivered, List.filterMap_nil]
      cases hs with
      | deliver hrun hmessage =>
        cases hdelivered
        obtain rfl := ha _ rfl
        exact hi.deliver hmessage
      | _ => cases hdelivered

theorem credited_map (i : Nat) (u : String) (ms : List PointEvent) :
    (((ms.map (fun m => (i, m))).filter (fun p => p.1 = i ∧ p.2.userId = u)).map (fun p => p.2.points)).sum =
      pointsOf u ms := by
  unfold pointsOf
  rw [List.filter_map, List.map_map]
  simp only [Function.comp_def, true_and]

/-- **Balances are exact between two messages**: each user has the points of the first delivery of each key that Redis
did not have at the start, and Redis has the keys delivered since, whatever was delivered and how often. -/
theorem balances_exact (redis : Dict String String) (i : Nat) {as : List Action} {s : Sys}
    (hrun : (lts redis).run (lts redis).init as = some s) (hsingle : ∀ a ∈ as, ∀ j ∈ a.consumer, j = i)
    (hrunning : (s.consumers i).running = true) (hbetween : (s.consumers i).message = none) :
    (∀ u, ((s.consumers i).balances.get? u).getD 0 =
      pointsOf u (firstDeliveries (isProcessed redis) (deliveries as))) ∧
    ∀ k, isProcessed s.redis k = true ↔
      isProcessed redis k = true ∨ ∃ m ∈ deliveries as, m.idempotencyKey = k := by
  have hd := (loopInv_none hbetween).1 (loopInv_run redis i as s hrun hsingle hrunning)
  constructor
  · intro u
    rw [balances_eq redis ⟨as, hrun⟩ i u, Sys.credited, hd.credits, credited_map]
  · intro k
    rw [hd.keys, keysAfter, Bool.or_eq_true, List.any_eq_true]
    simp only [decide_eq_true_eq]

/-- What `duplicate_test` sends, between two messages of another user: the key of the first is in Redis already. -/
def duplicateTest : List Action :=
  [.send ⟨"user-002", 100, "tx-abc-123"⟩, .deliver 0 ⟨"user-002", 100, "tx-abc-123"⟩, .serve 0, .resume 0, .serve 0,
    .resume 0, .send ⟨"user-001", 500, "dup-test-001"⟩, .deliver 0 ⟨"user-001", 500, "dup-test-001"⟩, .serve 0,
    .resume 0, .serve 0, .resume 0, .serve 0, .resume 0, .send ⟨"user-001", 500, "dup-test-001"⟩,
    .deliver 0 ⟨"user-001", 500, "dup-test-001"⟩, .serve 0, .resume 0, .serve 0, .resume 0,
    .send ⟨"user-002", 70, "tx-abc-124"⟩, .deliver 0 ⟨"user-002", 70, "tx-abc-124"⟩, .serve 0, .resume 0, .serve 0,
    .resume 0, .serve 0, .resume 0]

theorem balances_exact_duplicateTest :
    ∃ s, (lts (markProcessed Dict.empty "tx-abc-123")).run (lts (markProcessed Dict.empty "tx-abc-123")).init
      duplicateTest = some s ∧ ((s.consumers 0).balances.get? "user-001").getD 0 = 500 ∧
      ((s.consumers 0).balances.get? "user-002").getD 0 = 70 ∧ isProcessed s.redis "dup-test-001" = true := by
  obtain ⟨s, hrun, hrunning, hbetween⟩ : ∃ s, (lts (markProcessed Dict.empty "tx-abc-123")).run
      (lts (markProcessed Dict.empty "tx-abc-123")).init duplicateTest = some s ∧ (s.consumers 0).running = true ∧
      (s.consumers 0).message = none := ⟨_, rfl, rfl, rfl⟩
  obtain ⟨hbalances, hkeys⟩ :=
    balances_exact (markProcessed Dict.empty "tx-abc-123") 0 hrun (by decide) hrunning hbetween
  refine ⟨s, hrun, ?_, ?_, (hkeys "dup-test-001").2 (.inr ?_)⟩
  · rw [hbalances]
    decide +kernel
  · rw [hbalances]
    decide +kernel
  · decide +kernel

end Points
end KafkaGuide
