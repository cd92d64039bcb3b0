import KafkaGuide.Points
/-!
# PointsOnce — how often the points of a key are added

A key whose points were added is in Redis, or is still to be marked by the consumer that added them: until then every
other consumer may find it absent.  So the points of each key are added at most once exactly when none are added while
the key is in Redis by now or still to be marked.
-/
namespace KafkaGuide
namespace Points

/-- The points of the key were added by a `_process_message` whose SET has not been served, running or not. -/
def Sys.Unmarked (s : Sys) (key : String) : Prop :=
  ∃ i m, (s.consumers i).message = some (m, .markProcessed) ∧ m.idempotencyKey = key

def Sys.timesCredited (s : Sys) (key : String) : Nat := s.credits.countP (fun p => p.2.idempotencyKey = key)

/-- The points of each key were added at most once, over all the consumers. -/
def Sys.AtMostOnce (s : Sys) : Prop := ∀ key, s.timesCredited key ≤ 1

/-- If the action adds points, their key is not in Redis at that time, nor is it still to be marked. -/
def Undisturbed (s : Sys) (a : Action) : Prop :=
  ∀ i m, a = .resume i → (s.consumers i).message = some (m, .answered false) →
    isProcessed s.redis m.idempotencyKey = false ∧ ¬ s.Unmarked m.idempotencyKey

theorem timesCredited_pos {s : Sys} {key : String} :
    0 < s.timesCredited key ↔ ∃ p ∈ s.credits, p.2.idempotencyKey = key := by
  unfold Sys.timesCredited
  rw [List.countP_pos_iff]
  simp only [decide_eq_true_eq]

/-! ## The invariant -/

/-- Points that were added are known to Redis, or will be; a key that has got into Redis since it was found absent was
credited by another consumer. -/
structure Traced (s : Sys) : Prop where
  credited : ∀ p ∈ s.credits, isProcessed s.redis p.2.idempotencyKey = true ∨ s.Unmarked p.2.idempotencyKey
  unmarked : ∀ i m, (s.consumers i).message = some (m, .markProcessed) → 0 < s.timesCredited m.idempotencyKey
  answered : ∀ i m, (s.consumers i).message = some (m, .answered false) →
    isProcessed s.redis m.idempotencyKey = true → 0 < s.timesCredited m.idempotencyKey

theorem traced_init (redis : Dict String String) : Traced { redis } where
  credited _ h := nomatch h
  unmarked _ _ h := nomatch h
  answered _ _ h := nomatch h

/-- **One consumer moves on**, Redis gets keys that were credited, and credits are added that it is to mark. -/
theorem Traced.move {s : Sys} (hi : Traced s) {s' : Sys} {i : Nat} {c : Consumer}
    (hconsumers : s'.consumers = (s.setConsumer i c).consumers)
    (hcredits : s'.credits = s.credits ∨ ∃ m, s'.credits = s.credits ++ [(i, m)] ∧ c.message = some (m, .markProcessed))
    (hredis : ∀ k, isProcessed s'.redis k = true → isProcessed s.redis k = true ∨ 0 < s.timesCredited k)
    (hkeep : ∀ k, isProcessed s.redis k = true → isProcessed s'.redis k = true)
    (hleft : ∀ m, (s.consumers i).message = some (m, .markProcessed) →
      c.message = some (m, .markProcessed) ∨ isProcessed s'.redis m.idempotencyKey = true)
    (hmark : ∀ m, c.message = some (m, .markProcessed) → 0 < s'.timesCredited m.idempotencyKey)
    (hanswer : ∀ m, c.message = some (m, .answered false) → isProcessed s'.redis m.idempotencyKey = true →
      0 < s.timesCredited m.idempotencyKey) : Traced s' := by
  have hget : ∀ j, s'.consumers j = if j = i then c else s.consumers j := fun j => by
    rw [hconsumers, setConsumer_consumers]
  have hmono : ∀ k, 0 < s.timesCredited k → 0 < s'.timesCredited k := fun k h => by
    obtain ⟨p, hp, hk⟩ := timesCredited_pos.1 h
    refine timesCredited_pos.2 ⟨p, ?_, hk⟩
    rcases hcredits with he | ⟨m, he, -⟩
    · rwa [he]
    · rw [he]
      exact List.mem_append_left _ hp
  constructor
  · intro p hp
    have hp' : p ∈ s.credits ∨ c.message = some (p.2, .markProcessed) := by
      rcases hcredits with he | ⟨m, he, hm⟩
      · exact .inl (he ▸ hp)
      · rw [he] at hp
        rcases List.mem_append.1 hp with hp | hp
        · exact .inl hp
        · rw [List.mem_singleton.1 hp]
          exact .inr hm
    rcases hp' with hp | hm
    · rcases hi.credited p hp with hk | ⟨j, m, hm, hk⟩
      · exact .inl (hkeep _ hk)
      · by_cases hj : j = i
        · rw [hj] at hm
          rcases hleft m hm with hc | hc
          · exact .inr ⟨i, m, by rw [hget, if_pos rfl, hc], hk⟩
          · exact .inl (hk ▸ hc)
        · exact .inr ⟨j, m, by rw [hget, if_neg hj, hm], hk⟩
    · exact .inr ⟨i, p.2, by rw [hget, if_pos rfl, hm], rfl⟩
  · intro j m hm
    rw [hget] at hm
    split at hm
    · exact hmark m hm
    · exact hmono _ (hi.unmarked j m hm)
  · intro j m hm hk
    refine hmono _ ?_
    rw [hget] at hm
    split at hm
    · exact hanswer m hm hk
    · rcases hredis _ hk with h | h
      · exact hi.answered j m hm h
      · exact h

/-- A consumer that is not at `mark_processed`, before or after. -/
theorem Traced.quiet {s : Sys} (hi : Traced s) {s' : Sys} {i : Nat} {c : Consumer}
    (hconsumers : s'.consumers = (s.setConsumer i c).consumers) (hcredits : s'.credits = s.credits)
    (hredis : s'.redis = s.redis) (hbefore : ∀ m, (s.consumers i).message ≠ some (m, .markProcessed))
    (hafter : ∀ m, c.message ≠ some (m, .markProcessed))
    (hanswer : ∀ m, c.message = some (m, .answered false) → isProcessed s.redis m.idempotencyKey = false) :
    Traced s' := by
  refine hi.move hconsumers (.inl hcredits) (fun k h => .inl ?_) (fun k h => ?_) (fun m h => absurd h (hbefore m))
    (fun m h => absurd h (hafter m)) (fun m hm hk => ?_)
  · rwa [hredis] at h
  · rwa [hredis]
  · rw [hredis, hanswer m hm] at hk
    cases hk

theorem traced_step {s s' : Sys} {a : Action} (hi : Traced s) (h : Step s a s') : Traced s' := by
  have hnot : ∀ {i : Nat} {m : PointEvent} {stage : Stage}, (s.consumers i).message = some (m, stage) →
      stage ≠ .markProcessed → ∀ m', (s.consumers i).message ≠ some (m', .markProcessed) :=
    fun hm hstage m' hm' => by
      rw [hm] at hm'
      cases hm'
      exact hstage rfl
  cases h with
  | send m => exact ⟨hi.credited, hi.unmarked, hi.answered⟩
  | deliver hrunning hmessage =>
    exact hi.quiet rfl rfl rfl (fun m h => by rw [hmessage] at h; cases h) (fun m h => by cases h)
      (fun m h => by cases h)
  | answer hmessage =>
    refine hi.quiet rfl rfl rfl (hnot hmessage (by decide)) (fun m h => by cases h) fun m h => ?_
    rw [Option.some.injEq, Prod.mk.injEq, Stage.answered.injEq] at h
    rw [← h.1]
    exact h.2
  | @mark i m hmessage =>
    refine hi.move rfl (.inl rfl) (fun k h => ?_) (fun k h => ?_) (fun m' h => .inr ?_) (fun m' h => by cases h)
      (fun m' h => by cases h)
    · change isProcessed (markProcessed s.redis m.idempotencyKey) k = true at h
      rw [isProcessed_markProcessed, Bool.or_eq_true, decide_eq_true_eq] at h
      rcases h with rfl | h
      · exact .inr (hi.unmarked i m hmessage)
      · exact .inl h
    · change isProcessed (markProcessed s.redis m.idempotencyKey) k = true
      rw [isProcessed_markProcessed, h, Bool.or_true]
    · rw [hmessage] at h
      cases h
      change isProcessed (markProcessed s.redis m.idempotencyKey) m.idempotencyKey = true
      rw [isProcessed_markProcessed, decide_eq_true rfl]
      rfl
  | commit hmessage =>
    exact hi.quiet rfl rfl rfl (hnot hmessage (by decide)) (fun m h => by cases h) (fun m h => by cases h)
  | skip hmessage =>
    exact hi.quiet rfl rfl rfl (hnot hmessage (by decide)) (fun m h => by cases h) (fun m h => by cases h)
  | @credit i m hrunning hmessage =>
    refine hi.move rfl (.inr ⟨m, rfl, rfl⟩) (fun k h => .inl h) (fun k h => h)
      (fun m' h => absurd h (hnot hmessage (by decide) m')) (fun m' h => ?_) (fun m' h => by cases h)
    cases h
    exact timesCredited_pos.2 ⟨(i, m), List.mem_append_right _ (List.mem_singleton.2 rfl), rfl⟩
  | marked hmessage =>
    exact hi.quiet rfl rfl rfl (hnot hmessage (by decide)) (fun m h => by cases h) (fun m h => by cases h)
  | next hmessage =>
    exact hi.quiet rfl rfl rfl (hnot hmessage (by decide)) (fun m h => by cases h) (fun m h => by cases h)
  | @stop i =>
    exact hi.move rfl (.inl rfl) (fun k h => .inl h) (fun k h => h) (fun m h => .inl h) (hi.unmarked i)
      (hi.answered i)

/-! ## Once -/

/-- A consumer that found a key absent is undisturbed exactly when its points were not added yet. -/
theorem undisturbed_iff {s : Sys} (hi : Traced s) {i : Nat} {m : PointEvent}
    (hmessage : (s.consumers i).message = some (m, .answered false)) :
    Undisturbed s (.resume i) ↔ s.timesCredited m.idempotencyKey = 0 := by
  constructor
  · intro h
    obtain ⟨habsent, hmarked⟩ := h i m rfl hmessage
    by_contra hne
    obtain ⟨p, hp, hk⟩ := timesCredited_pos.1 (Nat.pos_of_ne_zero hne)
    rcases hi.credited p hp with h | h
    · rw [hk, habsent] at h
      cases h
    · exact hmarked (hk ▸ h)
  · intro hzero j m' ha hm'
    cases ha
    rw [hmessage] at hm'
    cases hm'
    constructor
    · rw [Bool.eq_false_iff]
      intro hk
      have hpos := hi.answered i m hmessage hk
      omega
    · rintro ⟨j, m', hm', hk⟩
      have hpos := hi.unmarked j m' hm'
      rw [hk] at hpos
      omega

/-- **Points of a key are added for the first time exactly when the consumer is undisturbed.** -/
theorem atMostOnce_step {s s' : Sys} {a : Action} (hi : Traced s) (h : Step s a s') :
    s'.AtMostOnce ↔ s.AtMostOnce ∧ Undisturbed s a := by
  have hquiet : s'.credits = s.credits → (∀ i m, a = .resume i → (s.consumers i).message ≠ some (m, .answered false)) →
      (s'.AtMostOnce ↔ s.AtMostOnce ∧ Undisturbed s a) := fun hcredits hnot => by
    unfold Sys.AtMostOnce Sys.timesCredited
    rw [hcredits]
    exact ⟨fun h => ⟨h, fun i m ha hm => absurd hm (hnot i m ha)⟩, fun h => h.1⟩
  have hstage : ∀ {i j : Nat} {m m' : PointEvent} {stage : Stage}, (s.consumers i).message = some (m, stage) →
      stage ≠ .answered false → Action.resume i = .resume j → (s.consumers j).message ≠ some (m', .answered false) :=
    fun hm hstage ha hm' => by
      cases ha
      rw [hm] at hm'
      cases hm'
      exact hstage rfl
  cases h with
  | @credit i m hrunning hmessage =>
    rw [undisturbed_iff hi hmessage]
    have hcount : ∀ k, Sys.timesCredited { s.setConsumer i { s.consumers i with
        balances := addPoints (s.consumers i).balances m, message := some (m, .markProcessed) } with
        credits := s.credits ++ [(i, m)] } k = s.timesCredited k + if m.idempotencyKey = k then 1 else 0 := fun k => by
      unfold Sys.timesCredited
      rw [List.countP_append, List.countP_singleton]
      simp only [decide_eq_true_eq]
    constructor
    · refine fun h => ⟨fun k => ?_, ?_⟩
      · have hk := h k
        rw [hcount] at hk
        omega
      · have hk := h m.idempotencyKey
        rw [hcount, if_pos rfl] at hk
        omega
    · rintro ⟨h, hzero⟩ k
      rw [hcount]
      split
      · rename_i hk
        rw [hk] at hzero
        omega
      · exact h k
  | skip hmessage => exact hquiet rfl fun j m' => hstage hmessage (by decide)
  | marked hmessage => exact hquiet rfl fun j m' => hstage hmessage (by decide)
  | next hmessage => exact hquiet rfl fun j m' => hstage hmessage (by decide)
  | _ => exact hquiet rfl fun j m' ha => by cases ha

/-- **The points of each key are added at most once exactly when no consumer adds any while their key is in Redis or
still to be marked**: in any run of any number of consumers. -/
theorem credited_once_iff (redis : Dict String String) {as : List Action} {t : Sys}
    (hrun : (lts redis).run (lts redis).init as = some t) :
    t.AtMostOnce ↔ (lts redis).Along (fun s a _ => Undisturbed s a) (lts redis).init as := by
  rw [(lts redis).good_iff_along (I := Traced) (G := Sys.AtMostOnce) (fun s a s' hi h => traced_step hi (step_sound h))
    (fun s a s' hi h => atMostOnce_step hi (step_sound h)) (traced_init redis) hrun]
  exact and_iff_right fun _ => Nat.zero_le 1

def firstSend : PointEvent := ⟨"user-001", 500, "dup-test-001"⟩

/-- The partition moves while the first consumer waits for Redis: the message is delivered to another one as well, and
each finds the key absent before the other has marked it. -/
def twoAtOnce : List Action :=
  [.send firstSend, .deliver 0 firstSend, .deliver 1 firstSend, .serve 0, .serve 1, .resume 0,
    .resume 1, .serve 0, .resume 0, .serve 0, .resume 0, .serve 1, .resume 1, .serve 1, .resume 1]

theorem twoAtOnce_not_atMostOnce : ∃ s, (lts Dict.empty).Reachable s ∧ ¬ s.AtMostOnce := by
  obtain ⟨s, hrun, hcount⟩ : ∃ s, (lts Dict.empty).run (lts Dict.empty).init twoAtOnce = some s ∧
      s.timesCredited "dup-test-001" = 2 := ⟨_, rfl, by decide +kernel⟩
  exact ⟨s, ⟨twoAtOnce, hrun⟩, fun h => by have hone := h "dup-test-001"; omega⟩

/-- The first consumer dies once the key is marked: the second one finds it. -/
def oneByOne : List Action :=
  [.send firstSend, .send firstSend, .deliver 0 firstSend, .serve 0, .resume 0, .serve 0, .stop 0,
    .deliver 1 firstSend, .serve 1, .resume 1, .serve 1, .resume 1]

theorem credited_once_iff_oneByOne : ∃ s, (lts Dict.empty).run (lts Dict.empty).init oneByOne = some s ∧
    s.timesCredited "dup-test-001" = 1 ∧
    (s.AtMostOnce ↔ (lts Dict.empty).Along (fun s a _ => Undisturbed s a) (lts Dict.empty).init oneByOne) := by
  obtain ⟨s, hrun, hcount⟩ : ∃ s, (lts Dict.empty).run (lts Dict.empty).init oneByOne = some s ∧
      s.timesCredited "dup-test-001" = 1 := ⟨_, rfl, by decide +kernel⟩
  exact ⟨s, hrun, hcount, credited_once_iff Dict.empty hrun⟩

end Points
end KafkaGuide
