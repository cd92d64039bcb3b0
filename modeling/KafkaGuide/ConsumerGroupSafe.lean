import KafkaGuide.ConsumerGroup
/-!
# ConsumerGroupSafe — at-least-once over the members of a group

A commit covers every partition assigned to its caller, not only the one just read.  It is safe because a position never
passes a record that no member has appended: positions start at committed offsets and move with an append only
(`Inv.receive`), and offsets on their way to the broker were positions once.
-/
namespace KafkaGuide
namespace ConsumerGroup

variable {loads : String → Option Json} {consumerId : Nat → String}

/-- The info tells of the record at its offset of its partition. -/
def Tells (loads : String → Option Json) (s : Sys) (info : MessageInfo) : Prop :=
  ∃ rec, (s.log info.partition)[info.offset]? = some rec ∧ keyDeserializer rec.key = some info.key ∧
    valueDeserializer loads rec.value = some info.value ∧ info.timestamp = rec.timestamp

/-- Some member has appended the record at offset `i` of the partition to its `received_messages`. -/
def Appended (loads : String → Option Json) (s : Sys) (p i : Nat) : Prop :=
  ∃ x ∈ s.appends, x.info.partition = p ∧ x.info.offset = i ∧ Tells loads s x.info

/-- All records of the partition below `n` have been appended. -/
def Covered (loads : String → Option Json) (s : Sys) (p n : Nat) : Prop := ∀ i, i < n → Appended loads s p i

def Covers (loads : String → Option Json) (s : Sys) (offsets : Offsets) : Prop :=
  ∀ p n, offsets p = some n → Covered loads s p n

/-- **The invariant**: whatever may become a committed offset is covered. -/
structure Inv (loads : String → Option Json) (s : Sys) : Prop where
  committed : ∀ p, Covered loads s p (s.committed p)
  positions : ∀ m c, s.members m = some c → Covers loads s c.positions
  pending : ∀ m c offsets stored, s.members m = some c → c.phase = .committing offsets stored → Covers loads s offsets
  late : ∀ offsets ∈ s.late, Covers loads s offsets

/-! ## What is appended stays appended -/

/-- The later state has all records and appends of the earlier one. -/
structure Grows (s s' : Sys) : Prop where
  log : ∀ (p i : Nat) (rec : Record), (s.log p)[i]? = some rec → (s'.log p)[i]? = some rec
  appends : ∀ x ∈ s.appends, x ∈ s'.appends

theorem Grows.of_eq {s s' : Sys} (hlog : s'.log = s.log) (happends : s'.appends = s.appends) : Grows s s' where
  log p i rec h := by rwa [hlog]
  appends x h := by rwa [happends]

theorem Covered.mono {s s' : Sys} (hg : Grows s s') {p n : Nat} (h : Covered loads s p n) : Covered loads s' p n := by
  intro i hi
  obtain ⟨x, hx, hp, ho, rec, hrec, htells⟩ := h i hi
  exact ⟨x, hg.appends x hx, hp, ho, rec, hg.log _ _ _ hrec, htells⟩

theorem Covers.mono {s s' : Sys} (hg : Grows s s') {offsets : Offsets} (h : Covers loads s offsets) :
    Covers loads s' offsets := fun p n hn => (h p n hn).mono hg

theorem inv_init : Inv loads {} where
  committed p i hi := absurd hi (Nat.not_lt_zero i)
  positions m c h := by cases h
  pending m c offsets stored h := by cases h
  late offsets h := by cases h

/-- The parts of the invariant that the broker holds. -/
theorem Inv.broker {s : Sys} (hi : Inv loads s) {offsets : Offsets} (ho : Covers loads s offsets) (p : Nat) :
    Covered loads s p ((offsets p).getD (s.committed p)) := by
  cases hp : offsets p with
  | none => exact hi.committed p
  | some n => exact ho p n hp

theorem leaves_covers {s : Sys} (hi : Inv loads s) {m : Nat} {c : Member} (hm : s.members m = some c) :
    ∀ offsets ∈ c.phase.leaves, Covers loads s offsets := by
  intro offsets ho
  unfold Phase.leaves at ho
  split at ho
  · rename_i hphase
    rw [List.mem_singleton] at ho
    subst ho
    exact hi.pending m c offsets false hm hphase
  · cases ho

/-- What a member holds is covered: its positions, and the offsets it is committing. -/
def Holds (loads : String → Option Json) (s : Sys) (c : Member) : Prop :=
  Covers loads s c.positions ∧ ∀ offsets stored, c.phase = .committing offsets stored → Covers loads s offsets

theorem Inv.holds {s : Sys} (hi : Inv loads s) {m : Nat} {c : Member} (hm : s.members m = some c) :
    Holds loads s c := ⟨hi.positions m c hm, fun offsets stored h => hi.pending m c offsets stored hm h⟩

/-- **A step that changes one member** leaves it, the committed offsets and those on their way covered. -/
theorem Inv.member {s s' : Sys} (hi : Inv loads s) (m : Nat) {c' : Option Member} (hg : Grows s s')
    (hmembers : s'.members = (s.setMember m c').members) (hcommitted : ∀ p, Covered loads s' p (s'.committed p))
    (hc : ∀ c, c' = some c → Holds loads s' c) (hlate : ∀ offsets ∈ s'.late, Covers loads s' offsets) :
    Inv loads s' := by
  have hcases : ∀ m' c, s'.members m' = some c → Holds loads s' c := by
    intro m' c hm'
    rw [hmembers] at hm'
    change (if m' = m then c' else s.members m') = some c at hm'
    split at hm'
    · exact hc c hm'
    · obtain ⟨hpositions, hpending⟩ := hi.holds hm'
      exact ⟨hpositions.mono hg, fun offsets stored h => (hpending offsets stored h).mono hg⟩
  exact ⟨hcommitted, fun m' c hm' => (hcases m' c hm').1,
    fun m' c offsets stored hm' => (hcases m' c hm').2 offsets stored, hlate⟩

/-- A step that changes one member and appends nothing. -/
theorem Inv.keep {s s' : Sys} (hi : Inv loads s) (m : Nat) {c' : Option Member} (hlog : s'.log = s.log)
    (happends : s'.appends = s.appends) (hmembers : s'.members = (s.setMember m c').members)
    (hcommitted : ∀ p, Covered loads s p (s'.committed p)) (hc : ∀ c, c' = some c → Holds loads s c)
    (hlate : ∀ offsets ∈ s'.late, Covers loads s offsets) : Inv loads s' := by
  have hg : Grows s s' := .of_eq hlog happends
  apply hi.member m hg hmembers
  · exact fun p => (hcommitted p).mono hg
  · intro c h
    obtain ⟨hpositions, hpending⟩ := hc c h
    exact ⟨hpositions.mono hg, fun offsets stored hphase => (hpending offsets stored hphase).mono hg⟩
  · exact fun offsets ho => (hlate offsets ho).mono hg

theorem positions_assign (c : Member) (p : Nat) (a : Option Assigned) (p' : Nat) :
    (c.assign p a).positions p' = if p' = p then a.map Assigned.position else c.positions p' := by
  unfold Member.positions Member.assign
  dsimp only
  split <;> rfl

theorem messageInfo_tells {cid : String} {p offset : Nat} {rec : Record} {now : String} {info : MessageInfo}
    (h : messageInfo loads cid p offset rec now = some info) : info.partition = p ∧ info.offset = offset ∧
      keyDeserializer rec.key = some info.key ∧ valueDeserializer loads rec.value = some info.value ∧
      info.timestamp = rec.timestamp := by
  unfold messageInfo at h
  split at h
  · rename_i hkey hvalue
    cases h
    exact ⟨rfl, rfl, hkey, hvalue, rfl⟩
  · cases h

/-- **A record is received**: it is appended as the position moves past it, and the commit takes positions that are all
covered. -/
theorem Inv.receive {s : Sys} (hi : Inv loads s) {m p : Nat} {c : Member} {a : Assigned} {rec : Record}
    {info : MessageInfo} {now : String} (hm : s.members m = some c) (ha : c.assigned p = some a)
    (hrec : (s.log p)[a.position]? = some rec)
    (hinfo : messageInfo loads (consumerId m) p a.position rec now = some info) :
    Inv loads (s.receive m c p a info) := by
  obtain ⟨hp, ho, hkey, hvalue, htime⟩ := messageInfo_tells hinfo
  have hg : Grows s (s.receive m c p a info) := ⟨fun _ _ _ h => h, fun x hx => List.mem_append_left _ hx⟩
  have hposition : Covered loads s p a.position := by
    apply hi.positions m c hm p
    rw [Member.positions, ha, Option.map_some]
  have hmoved : Covered loads (s.receive m c p a info) p (a.position + 1) := by
    intro i hlt
    rcases Nat.lt_succ_iff_lt_or_eq.1 hlt with hlt | rfl
    · exact hposition.mono hg i hlt
    · refine ⟨⟨m, info⟩, List.mem_append_right _ (List.mem_singleton.2 rfl), hp, ho, rec, ?_, hkey, hvalue, htime⟩
      change (s.log info.partition)[info.offset]? = some rec
      rw [hp, ho]
      exact hrec
  have hpositions : Covers loads (s.receive m c p a info)
      (c.assign p (some { a with position := a.position + 1 })).positions := by
    intro p' n hn
    rw [positions_assign] at hn
    split at hn
    · rename_i heq
      cases hn
      rw [heq]
      exact hmoved
    · exact (hi.positions m c hm p' n hn).mono hg
  apply hi.member m hg rfl
  · exact fun p' => (hi.committed p').mono hg
  · intro c' hc'
    cases hc'
    refine ⟨hpositions, fun offsets stored hphase => ?_⟩
    cases hphase
    exact hpositions
  · exact fun offsets ho => (hi.late offsets ho).mono hg

/-- A partition is assigned at a covered offset, or revoked. -/
theorem Holds.assign {s : Sys} {c : Member} (h : Holds loads s c) (p : Nat) {a : Option Assigned}
    (ha : ∀ b, a = some b → Covered loads s p b.position) : Holds loads s (c.assign p a) := by
  refine ⟨fun p' n hn => ?_, h.2⟩
  rw [positions_assign] at hn
  split at hn
  · rename_i heq
    obtain ⟨b, hb, rfl⟩ := Option.map_eq_some_iff.1 hn
    rw [heq]
    exact ha b hb
  · exact h.1 p' n hn

/-- **Every step keeps the invariant.** -/
theorem inv_step (s : Sys) (e : Event) (s' : Sys) (hi : Inv loads s) (h : step loads consumerId s e = some s') :
    Inv loads s' := by
  cases step_sound h with
  | produce p rec =>
    have hg : Grows s { s with log := fun p' => if p' = p then s.log p' ++ [rec] else s.log p' } := by
      refine ⟨fun p' i r hr => ?_, fun x hx => hx⟩
      dsimp only
      split
      · rw [List.getElem?_append_left (List.getElem?_eq_some_iff.1 hr).1]
        exact hr
      · exact hr
    constructor
    · exact fun p => (hi.committed p).mono hg
    · exact fun m c hm => (hi.positions m c hm).mono hg
    · exact fun m c offsets stored hm hphase => (hi.pending m c offsets stored hm hphase).mono hg
    · exact fun offsets ho => (hi.late offsets ho).mono hg
  | @start m hm =>
    refine hi.keep m rfl rfl rfl hi.committed (fun c hc => ?_) hi.late
    cases hc
    exact ⟨fun p n hn => (by cases hn), fun offsets stored hphase => (by cases hphase)⟩
  | @assign m c p hm =>
    refine hi.keep m rfl rfl rfl hi.committed (fun c' hc => ?_) hi.late
    cases hc
    refine (hi.holds hm).assign p fun b hb => ?_
    cases hb
    exact hi.committed p
  | @revoke m c p hm =>
    refine hi.keep m rfl rfl rfl hi.committed (fun c' hc => ?_) hi.late
    cases hc
    exact (hi.holds hm).assign p fun b hb => by cases hb
  | receive hm ha hrec hinfo => exact hi.receive hm ha hrec hinfo
  | @store m c offsets hm hphase =>
    have hpending := hi.pending m c offsets false hm hphase
    refine hi.keep m rfl rfl rfl (hi.broker hpending) (fun c' hc => ?_) hi.late
    cases hc
    refine ⟨hi.positions m c hm, fun offsets' stored hphase' => ?_⟩
    cases hphase'
    exact hpending
  | @storeLate i offsets hlate =>
    have hg : Grows s { s.store offsets with late := s.late.eraseIdx i } := .of_eq rfl rfl
    constructor
    · exact fun p => (hi.broker (hi.late offsets (List.mem_of_getElem? hlate)) p).mono hg
    · exact fun m c hm => (hi.positions m c hm).mono hg
    · exact fun m c offsets stored hm hphase => (hi.pending m c offsets stored hm hphase).mono hg
    · exact fun offsets ho => (hi.late offsets (List.mem_of_mem_eraseIdx ho)).mono hg
  | @goOn e m c hm =>
    refine hi.keep m rfl rfl rfl hi.committed (fun c' hc => ?_) hi.late
    cases hc
    exact ⟨hi.positions m c hm, fun offsets stored hphase => by cases hphase⟩
  | @stop e m c hm =>
    refine hi.keep m rfl rfl rfl hi.committed (fun c' hc => ?_) fun offsets ho => ?_
    · cases hc
      exact ⟨hi.positions m c hm, fun offsets stored hphase => by cases hphase⟩
    · exact (List.mem_append.1 ho).elim (hi.late offsets) (leaves_covers hi hm offsets)
  | @crash m c hm =>
    refine hi.keep m rfl rfl rfl hi.committed (fun c' hc => ?_) fun offsets ho => ?_
    · cases hc
    · exact (List.mem_append.1 ho).elim (hi.late offsets) (leaves_covers hi hm offsets)

/-! ## What is appended is received -/

/-- The member has the message of the append in its `received_messages`. -/
def Append.Listed (x : Append) (s : Sys) : Prop := ∃ c, s.members x.member = some c ∧ x.info ∈ c.receivedMessages

/-- **An append is an append to the member's list.** -/
theorem appends_step {s s' : Sys} {e : Event} (h : step loads consumerId s e = some s') {x : Append}
    (hx : x ∈ s'.appends) : x ∈ s.appends ∨ x.Listed s' := by
  cases step_sound h with
  | receive hm ha hrec hinfo =>
    rcases List.mem_append.1 hx with hx | hx
    · exact .inl hx
    · rw [List.mem_singleton.1 hx]
      exact .inr ⟨_, if_pos rfl, List.mem_append_right _ (List.mem_singleton.2 rfl)⟩
  | _ => exact .inl hx

/-! ## Consecutive offsets -/

/-- The offsets of a partition among messages. -/
def offsetsOf (p : Nat) (infos : List MessageInfo) : List Nat :=
  (infos.filter (fun info => info.partition = p)).map MessageInfo.offset

/-- Assignments have numbers. -/
def Numbered (s : Sys) : Prop :=
  ∀ m c p a, s.members m = some c → c.assigned p = some a → a.assignment < s.assignments

/-- One member changes, or is gone. -/
theorem of_setMember {s : Sys} {m : Nat} {c' : Option Member} {P : Nat → Member → Prop}
    (hold : ∀ m' c, s.members m' = some c → P m' c) (hnew : ∀ c, c' = some c → P m c) :
    ∀ m' c, (s.setMember m c').members m' = some c → P m' c := by
  intro m' c hm'
  change (if m' = m then c' else s.members m') = some c at hm'
  split at hm'
  · rename_i hmm
    subst hmm
    exact hnew c hm'
  · exact hold m' c hm'

theorem assign_assigned {c : Member} {p p' : Nat} {a : Option Assigned} {b : Assigned}
    (h : (c.assign p a).assigned p' = some b) : (p' = p ∧ a = some b) ∨ (p' ≠ p ∧ c.assigned p' = some b) := by
  change (if p' = p then a else c.assigned p') = some b at h
  split at h
  · exact .inl ⟨‹_›, h⟩
  · exact .inr ⟨‹_›, h⟩

theorem numbered_step (s : Sys) (e : Event) (s' : Sys) (hs : Numbered s) (h : step loads consumerId s e = some s') :
    Numbered s' := by
  have hold : ∀ m c, s.members m = some c → ∀ p a, c.assigned p = some a → a.assignment < s.assignments :=
    fun m c hm p a ha => hs m c p a hm ha
  suffices hall : ∀ m c, s'.members m = some c → ∀ p a, c.assigned p = some a → a.assignment < s'.assignments from
    fun m c p a hm ha => hall m c hm p a ha
  cases step_sound h with
  | produce p rec => exact hold
  | start hm =>
    refine of_setMember hold fun c hc p a ha => ?_
    cases hc
    cases ha
  | @assign m c p hm =>
    refine of_setMember (fun m c hm p a ha => Nat.lt_succ_of_lt (hold m c hm p a ha)) fun c' hc p' a ha => ?_
    cases hc
    rcases assign_assigned ha with ⟨-, ha⟩ | ⟨-, ha⟩
    · cases ha
      exact Nat.lt_succ_self _
    · exact Nat.lt_succ_of_lt (hold m c hm p' a ha)
  | @revoke m c p hm =>
    refine of_setMember hold fun c' hc p' a ha => ?_
    cases hc
    rcases assign_assigned ha with ⟨-, ha⟩ | ⟨-, ha⟩
    · cases ha
    · exact hold m c hm p' a ha
  | @receive m p c a rec info now hm ha hrec hinfo =>
    refine of_setMember hold fun c' hc p' b hb => ?_
    cases hc
    rcases assign_assigned (c := c) hb with ⟨-, hb⟩ | ⟨-, hb⟩
    · cases hb
      exact hold m c hm p a ha
    · exact hold m c hm p' b hb
  | storeLate hi => exact hold
  | store hm hphase =>
    refine of_setMember hold fun c' hc p a ha => ?_
    cases hc
    exact hold _ _ hm p a ha
  | goOn hm | stop hm =>
    refine of_setMember hold fun c' hc p a ha => ?_
    cases hc
    exact hold _ _ hm p a ha
  | crash hm =>
    refine of_setMember hold fun c' hc => ?_
    cases hc

/-- Since member `m` was at `c`, assigned partition `p` as `a`: as long as it has that assignment it has received the
records of the partition from `a`'s position on, one after the other, up to the one it is at. -/
structure Continues (m p : Nat) (c : Member) (a : Assigned) (t : Sys) : Prop where
  number : a.assignment < t.assignments
  received : ∀ c' a', t.members m = some c' → c'.assigned p = some a' → a'.assignment = a.assignment →
    ∃ new, c'.receivedMessages = c.receivedMessages ++ new ∧
      offsetsOf p new = List.range' a.position (offsetsOf p new).length ∧
      a'.position = a.position + (offsetsOf p new).length

variable {m p : Nat} {c : Member} {a : Assigned}

/-- A step under which the member's list and its assignment are what they were. -/
theorem Continues.keep {t t' : Sys} (ht : Continues m p c a t) (hle : t.assignments ≤ t'.assignments)
    (hsame : ∀ c' a', t'.members m = some c' → c'.assigned p = some a' → a'.assignment = a.assignment →
      ∃ c₀, t.members m = some c₀ ∧ c₀.assigned p = some a' ∧ c'.receivedMessages = c₀.receivedMessages) :
    Continues m p c a t' := by
  refine ⟨ht.number.trans_le hle, fun c' a' hm ha hnumber => ?_⟩
  obtain ⟨c₀, hm₀, ha₀, hlist⟩ := hsame c' a' hm ha hnumber
  obtain ⟨new, hnew, hoffsets, hposition⟩ := ht.received c₀ a' hm₀ ha₀ hnumber
  exact ⟨new, hlist.trans hnew, hoffsets, hposition⟩

theorem offsetsOf_concat (p : Nat) (infos : List MessageInfo) (info : MessageInfo) :
    offsetsOf p (infos ++ [info]) = offsetsOf p infos ++ if info.partition = p then [info.offset] else [] := by
  unfold offsetsOf
  rw [List.filter_append, List.map_append]
  by_cases hp : info.partition = p
  · rw [if_pos hp, List.filter_singleton, decide_eq_true hp]
    rfl
  · rw [if_neg hp, List.filter_singleton, decide_eq_false hp]
    rfl

/-- **A record is received**: its offset is the next one of its assignment. -/
theorem Continues.receive {t : Sys} (ht : Continues m p c a t) {m' p' : Nat} {c₀ : Member} {a₀ : Assigned}
    {info : MessageInfo} (hm : t.members m' = some c₀) (ha : c₀.assigned p' = some a₀) (hp : info.partition = p')
    (ho : info.offset = a₀.position) : Continues m p c a (t.receive m' c₀ p' a₀ info) := by
  refine ⟨ht.number, fun c' a' hc' ha' hnumber => ?_⟩
  change (if m = m' then _ else t.members m) = some c' at hc'
  split at hc'
  · rename_i hmm
    subst hmm
    cases hc'
    rcases assign_assigned (c := c₀) ha' with ⟨rfl, hb⟩ | ⟨hne, hb⟩
    · cases hb
      obtain ⟨new, hnew, hoffsets, hposition⟩ := ht.received c₀ a₀ hm ha hnumber
      have hnext : offsetsOf p (new ++ [info]) = List.range' a.position ((offsetsOf p new).length + 1) := by
        rw [offsetsOf_concat, if_pos hp, List.range'_concat, ← hoffsets, ho, hposition, Nat.one_mul]
      refine ⟨new ++ [info], ?_, ?_, ?_⟩
      · change c₀.receivedMessages ++ [info] = _
        rw [hnew, List.append_assoc]
      · rw [hnext, List.length_range']
      · rw [hnext, List.length_range']
        change a₀.position + 1 = _
        rw [hposition, Nat.add_assoc]
    · obtain ⟨new, hnew, hoffsets, hposition⟩ := ht.received c₀ a' hm hb hnumber
      have hsame : offsetsOf p (new ++ [info]) = offsetsOf p new := by
        rw [offsetsOf_concat, if_neg fun heq => hne (heq.symm.trans hp), List.append_nil]
      refine ⟨new ++ [info], ?_, ?_, ?_⟩
      · change c₀.receivedMessages ++ [info] = _
        rw [hnew, List.append_assoc]
      · rw [hsame]
        exact hoffsets
      · rw [hsame]
        exact hposition
  · exact ht.received c' a' hc' ha' hnumber

theorem continues_step (t : Sys) (e : Event) (t' : Sys) (ht : Continues m p c a t)
    (h : step loads consumerId t e = some t') : Continues m p c a t' := by
  have hold : ∀ c' a', t.members m = some c' → c'.assigned p = some a' → a'.assignment = a.assignment →
      ∃ c₀, t.members m = some c₀ ∧ c₀.assigned p = some a' ∧ c'.receivedMessages = c₀.receivedMessages :=
    fun c' a' hm ha _ => ⟨c', hm, ha, rfl⟩
  have hset : ∀ (m' : Nat) (new : Option Member), (∀ c', m = m' → new = some c' →
      ∀ a', c'.assigned p = some a' → a'.assignment = a.assignment →
        ∃ c₀, t.members m = some c₀ ∧ c₀.assigned p = some a' ∧ c'.receivedMessages = c₀.receivedMessages) →
      ∀ c' a', (t.setMember m' new).members m = some c' → c'.assigned p = some a' → a'.assignment = a.assignment →
        ∃ c₀, t.members m = some c₀ ∧ c₀.assigned p = some a' ∧ c'.receivedMessages = c₀.receivedMessages := by
    intro m' new hnew c' a' hc' ha' hnumber
    change (if m = m' then new else t.members m) = some c' at hc'
    split at hc'
    · exact hnew c' ‹_› hc' a' ha' hnumber
    · exact hold c' a' hc' ha' hnumber
  cases step_sound h with
  | produce p rec => exact ht.keep (Nat.le_refl _) hold
  | @start m' hm =>
    refine ht.keep (Nat.le_refl _) (hset m' _ fun c' _ hc' a' ha' _ => ?_)
    cases hc'
    cases ha'
  | @assign m' c₀ p' hm =>
    refine ht.keep (Nat.le_succ _) (hset m' _ fun c' hmm hc' a' ha' hnumber => ?_)
    cases hc'
    rcases assign_assigned ha' with ⟨-, ha'⟩ | ⟨-, ha'⟩
    · -- a new assignment has a new number
      cases ha'
      exact absurd hnumber (Nat.ne_of_gt ht.number)
    · exact ⟨c₀, hmm ▸ hm, ha', rfl⟩
  | @revoke m' c₀ p' hm =>
    refine ht.keep (Nat.le_refl _) (hset m' _ fun c' hmm hc' a' ha' _ => ?_)
    cases hc'
    rcases assign_assigned ha' with ⟨-, ha'⟩ | ⟨-, ha'⟩
    · cases ha'
    · exact ⟨c₀, hmm ▸ hm, ha', rfl⟩
  | receive hm ha hrec hinfo =>
    obtain ⟨hp, ho, -⟩ := messageInfo_tells hinfo
    exact ht.receive hm ha hp ho
  | storeLate hi => exact ht.keep (Nat.le_refl _) hold
  | @store m' c₀ offsets hm hphase =>
    refine ht.keep (Nat.le_refl _) (hset m' _ fun c' hmm hc' a' ha' _ => ?_)
    cases hc'
    exact ⟨c₀, hmm ▸ hm, ha', rfl⟩
  | @goOn e m' c₀ hm | @stop e m' c₀ hm =>
    refine ht.keep (Nat.le_refl _) (hset m' _ fun c' hmm hc' a' ha' _ => ?_)
    cases hc'
    exact ⟨c₀, hmm ▸ hm, ha', rfl⟩
  | @crash m' c₀ hm =>
    refine ht.keep (Nat.le_refl _) (hset m' _ fun c' _ hc' a' _ _ => ?_)
    cases hc'

/-- **The group is at-least-once**: in every run each record below its partition's committed offset has been in the
`received_messages` of some member, as it stands in the log; and between any two states in which a member has the same
assignment of a partition, its `received_messages` has got the records of the partition at the offsets from the one
position to the other, each once and in turn. -/
theorem at_least_once (loads : String → Option Json) (consumerId : Nat → String) {es : List Event} {s : Sys}
    (h : (lts loads consumerId).run {} es = some s) :
    (∀ p i, i < s.committed p → ∃ m info, info.partition = p ∧ info.offset = i ∧ Tells loads s info ∧
      (lts loads consumerId).Met (fun t => ∃ c, t.members m = some c ∧ info ∈ c.receivedMessages) es) ∧
    ∀ fs t, (lts loads consumerId).run s fs = some t → ∀ m p c a c' a', s.members m = some c →
      c.assigned p = some a → t.members m = some c' → c'.assigned p = some a' → a'.assignment = a.assignment →
        ∃ new, c'.receivedMessages = c.receivedMessages ++ new ∧
          offsetsOf p new = List.range' a.position (offsetsOf p new).length ∧
          a'.position = a.position + (offsetsOf p new).length := by
  have hi : Inv loads s := (lts loads consumerId).reachable_inv inv_init inv_step ⟨es, h⟩
  have hn : Numbered s :=
    (lts loads consumerId).reachable_inv (fun m c p a hm => (by cases hm)) numbered_step ⟨es, h⟩
  constructor
  · intro p i hlt
    obtain ⟨x, hx, hp, ho, htells⟩ := hi.committed p i hlt
    have hmet := (lts loads consumerId).met_of_appears (P := x.Listed) (Q := fun s => x ∈ s.appends)
      (fun hx => by cases hx) (fun s e s' hstep => appends_step hstep) h hx
    exact ⟨x.member, x.info, hp, ho, htells, hmet⟩
  · intro fs t ht m p c a c' a' hm ha hm' ha' hnumber
    have hstart : Continues m p c a s := by
      refine ⟨hn m c p a hm ha, fun c₁ a₁ hm₁ ha₁ _ => ⟨[], ?_, rfl, ?_⟩⟩
      · rw [hm, Option.some.injEq] at hm₁
        rw [hm₁, List.append_nil]
      · rw [hm, Option.some.injEq] at hm₁
        rw [← hm₁, ha, Option.some.injEq] at ha₁
        rw [← ha₁]
        rfl
    exact ((lts loads consumerId).run_inv continues_step hstart ht).received c' a' hm' ha' hnumber

/-- `json.loads` of a one-digit text. -/
def loadsDigit (text : String) : Option Json := if text = "1" then some (.num 1) else none

/-- Member 0 dies in its commit, which the broker stores after member 1 has taken the partition over at offset 0. -/
def takenOver : List Event :=
  [.produce 0 ⟨none, some "1".toUTF8, 0⟩, .produce 0 ⟨none, some "1".toUTF8, 1⟩, .start 0, .start 1, .assign 0 0,
    .receive 0 0 "2025-01-01T00:00:00", .crash 0, .assign 1 0, .receive 1 0 "2025-01-01T00:00:01", .storeLate 0,
    .commitFailed 1]

theorem at_least_once_takenOver : ∃ s, (lts loadsDigit toString).run {} takenOver = some s ∧ s.committed 0 = 1 ∧
    ∃ m info, info.partition = 0 ∧ info.offset = 0 ∧ Tells loadsDigit s info ∧
      (lts loadsDigit toString).Met (fun t => ∃ c, t.members m = some c ∧ info ∈ c.receivedMessages) takenOver := by
  have hany : ((lts loadsDigit toString).run {} takenOver).any (fun s => decide (s.committed 0 = 1)) = true := by
    decide +kernel
  obtain ⟨s, hrun, hs⟩ := (Option.any_eq_true ..).1 hany
  have hcommitted := of_decide_eq_true hs
  obtain ⟨hreceived, -⟩ := at_least_once loadsDigit toString hrun
  exact ⟨s, hrun, hcommitted, hreceived 0 0 (by omega)⟩

end ConsumerGroup
end KafkaGuide
