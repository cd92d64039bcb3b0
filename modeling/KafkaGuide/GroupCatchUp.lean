import KafkaGuide.GroupOrders
/-!
# GroupCatchUp — every order reaches the group (`05-consumer-groups`)

Once nothing is sent and nobody joins, leaves or fails any more, the loops have a bounded number of steps left, and when
none is left every record of a partition that a live loop is assigned has been received.
-/
namespace KafkaGuide
namespace GroupOrders

open ConsumerGroup (Assigned Member Phase)

variable {loads : String → Option Json} {dumps : Json → String} {consumerId : Nat → String} {part : ByteArray → Nat}

/-- The steps of the loops and of the broker that serves them. -/
def goesOn : ConsumerGroup.Event → Bool
  | .receive _ _ _ => true
  | .store _ => true
  | .storeLate _ => true
  | .committed _ => true
  | _ => false

def Action.isWork : Action → Bool
  | .group e => goesOn e
  | _ => false

/-- A live loop is assigned each partition that has records. -/
def Attended (g : ConsumerGroup.Sys) : Prop :=
  ∀ p, g.log p ≠ [] → ∃ (m : Nat) (c : Member) (a : Assigned), g.members m = some c ∧ c.assigned p = some a ∧
    c.phase ≠ .stopped

/-! ## What is left to do -/

def phaseLeft : Phase → Nat
  | .iterating => 0
  | .committing _ stored => if stored then 1 else 2
  | .stopped => 0

/-- The records that a member has before it in a partition, at three steps each. -/
def ahead (g : ConsumerGroup.Sys) (c : Member) (p : Nat) : Nat :=
  ((c.assigned p).map fun a => 3 * ((g.log p).length - a.position)).getD 0

def memberLeft (g : ConsumerGroup.Sys) (ps : Finset Nat) (c : Member) : Nat := ∑ p ∈ ps, ahead g c p + phaseLeft c.phase

def leftOf (g : ConsumerGroup.Sys) (ps : Finset Nat) (m : Nat) : Nat := ((g.members m).map (memberLeft g ps)).getD 0

/-- What some members have left in some partitions, and the commits that nobody waits for. -/
def left (ms ps : Finset Nat) (g : ConsumerGroup.Sys) : Nat := ∑ m ∈ ms, leftOf g ps m + g.late.length

/-- These are all members, and all partitions that have records. -/
structure Spans (ms ps : Finset Nat) (g : ConsumerGroup.Sys) : Prop where
  members : ∀ m c, g.members m = some c → m ∈ ms
  partitions : ∀ p, g.log p ≠ [] → p ∈ ps

variable {g g' : ConsumerGroup.Sys} {ms ps : Finset Nat}

theorem members_setMember (m : Nat) (c : Option Member) (m' : Nat) :
    (g.setMember m c).members m' = if m' = m then c else g.members m' := rfl

/-- **One member goes on**: only its own part changes. -/
theorem left_member (g' : ConsumerGroup.Sys) (hs : Spans ms ps g) {m : Nat} {c c' : Member} (hm : g.members m = some c)
    (hlog : g'.log = g.log) (hmembers : g'.members = (g.setMember m (some c')).members) :
    ∑ m ∈ ms, leftOf g' ps m + memberLeft g ps c = ∑ m ∈ ms, leftOf g ps m + memberLeft g ps c' := by
  have hleft : memberLeft g' ps = memberLeft g ps := by
    funext c
    unfold memberLeft ahead
    rw [hlog]
  have hothers : ∀ m', m' ≠ m → leftOf g' ps m' = leftOf g ps m' := by
    intro m' hne
    unfold leftOf
    rw [hmembers, members_setMember, if_neg hne, hleft]
  have hsum := Count.sum_change (hs.members m c hm) hothers
  have hold : leftOf g ps m = memberLeft g ps c := by
    unfold leftOf
    rw [hm]
    rfl
  have hnew : leftOf g' ps m = memberLeft g ps c' := by
    unfold leftOf
    rw [hmembers, members_setMember, if_pos rfl, hleft]
    rfl
  rwa [hold, hnew] at hsum

/-- **A position moves past a record**: three steps less are left. -/
theorem ahead_receive (hs : Spans ms ps g) {c : Member} {p : Nat} {a : Assigned} (ha : c.assigned p = some a)
    (hlt : a.position < (g.log p).length) :
    ∑ q ∈ ps, ahead g (c.assign p (some { a with position := a.position + 1 })) q + 3 = ∑ q ∈ ps, ahead g c q := by
  have hp : p ∈ ps := hs.partitions p (List.ne_nil_of_length_pos (Nat.zero_lt_of_lt hlt))
  have hothers : ∀ q, q ≠ p → ahead g (c.assign p (some { a with position := a.position + 1 })) q = ahead g c q := by
    intro q hne
    unfold ahead Member.assign
    dsimp only
    rw [if_neg hne]
  have hsum := Count.sum_change hp hothers
  have hold : ahead g c p = 3 * ((g.log p).length - a.position) := by
    unfold ahead
    rw [ha]
    rfl
  have hnew : ahead g (c.assign p (some { a with position := a.position + 1 })) p =
      3 * ((g.log p).length - (a.position + 1)) := by
    unfold ahead Member.assign
    dsimp only
    rw [if_pos rfl]
    rfl
  omega

/-! ## What a loop does -/

/-- Every record can be read. -/
def Readable (loads : String → Option Json) (g : ConsumerGroup.Sys) : Prop :=
  ∀ (p o : Nat) (rec : ConsumerGroup.Record), (g.log p)[o]? = some rec →
    ∀ cid now, (ConsumerGroup.messageInfo loads cid p o rec now).isSome

inductive Work (g : ConsumerGroup.Sys) : ConsumerGroup.Event → ConsumerGroup.Sys → Prop
  | receive {m p : Nat} {now : String} {c : Member} {a : Assigned} {info : ConsumerGroup.MessageInfo}
    (hm : g.members m = some c) (hphase : c.phase = .iterating) (ha : c.assigned p = some a)
    (hlt : a.position < (g.log p).length) : Work g (.receive m p now) (g.receive m c p a info)
  | store {m : Nat} {c : Member} {offsets : ConsumerGroup.Offsets} (hm : g.members m = some c)
    (hphase : c.phase = .committing offsets false) :
    Work g (.store m) ((g.store offsets).setMember m (some { c with phase := .committing offsets true }))
  | storeLate {i : Nat} {offsets : ConsumerGroup.Offsets} (hi : g.late[i]? = some offsets) :
    Work g (.storeLate i) { g.store offsets with late := g.late.eraseIdx i }
  | committed {m : Nat} {c : Member} {offsets : ConsumerGroup.Offsets} (hm : g.members m = some c)
    (hphase : c.phase = .committing offsets true) :
    Work g (.committed m) (g.setMember m (some { c with phase := .iterating }))

theorem work_sound (hread : Readable loads g) {e : ConsumerGroup.Event} (he : goesOn e = true)
    (h : ConsumerGroup.step loads consumerId g e = some g') : Work g e g' := by
  cases e with
  | receive m p now =>
    simp only [ConsumerGroup.step] at h
    split at h
    · rename_i c hm
      split at h
      · rename_i a hphase ha
        split at h
        · rename_i rec hrec
          split at h
          · cases h
            exact .receive hm hphase ha (List.getElem?_eq_some_iff.1 hrec).1
          · rename_i hraises
            have hsome := hread p a.position rec hrec (consumerId m) now
            rw [hraises] at hsome
            cases hsome
        · cases h
      · cases h
    · cases h
  | store m =>
    simp only [ConsumerGroup.step] at h
    split at h
    · rename_i c hm
      split at h
      · rename_i hphase
        cases h
        exact .store hm hphase
      · cases h
    · cases h
  | storeLate i =>
    simp only [ConsumerGroup.step] at h
    split at h
    · rename_i hi
      cases h
      exact .storeLate hi
    · cases h
  | committed m =>
    simp only [ConsumerGroup.step] at h
    split at h
    · rename_i c hm
      split at h
      · rename_i hphase
        cases h
        exact .committed hm hphase
      · cases h
    · cases h
  | _ => cases he

theorem Spans.member (hs : Spans ms ps g) {m : Nat} {c c' : Member} (hm : g.members m = some c)
    (hlog : g'.log = g.log) (hmembers : g'.members = (g.setMember m (some c')).members) : Spans ms ps g' where
  members m' c'' hm' := by
    rw [hmembers, members_setMember] at hm'
    split at hm'
    · rename_i heq
      exact heq ▸ hs.members m c hm
    · exact hs.members m' c'' hm'
  partitions p hp := hs.partitions p (hlog ▸ hp)

/-- A member that goes on still reads its partitions. -/
theorem Attended.member (hg : Attended g) {m : Nat} {c c' : Member} (hm : g.members m = some c)
    (hlog : g'.log = g.log) (hmembers : g'.members = (g.setMember m (some c')).members) (hgoes : c'.phase ≠ .stopped)
    (hkeeps : ∀ p a, c.assigned p = some a → ∃ a', c'.assigned p = some a') : Attended g' := by
  intro p hp
  rw [hlog] at hp
  obtain ⟨m', c₀, a, hm', ha, hphase⟩ := hg p hp
  by_cases hmm : m' = m
  · rw [hmm, hm, Option.some.injEq] at hm'
    subst hm'
    obtain ⟨a', ha'⟩ := hkeeps p a ha
    refine ⟨m, c', a', ?_, ha', hgoes⟩
    rw [hmembers, members_setMember, if_pos rfl]
  · refine ⟨m', c₀, a, ?_, ha, hphase⟩
    rw [hmembers, members_setMember, if_neg hmm]
    exact hm'

/-- **A step of a loop, or of the broker, leaves less to do.** -/
theorem work_left (hs : Spans ms ps g) {e : ConsumerGroup.Event} (h : Work g e g') :
    Spans ms ps g' ∧ g'.log = g.log ∧ left ms ps g' + 1 ≤ left ms ps g := by
  cases h with
  | @receive m p now c a info hm hphase ha hlt =>
    refine ⟨hs.member hm rfl rfl, rfl, ?_⟩
    have hsum := left_member (g.receive m c p a info) hs hm rfl rfl
    have hahead := ahead_receive hs ha hlt
    have hold : memberLeft g ps c = ∑ q ∈ ps, ahead g c q + 0 := by
      unfold memberLeft
      rw [hphase]
      rfl
    have hnew : ∀ offsets messages, memberLeft g ps { c.assign p (some { a with position := a.position + 1 }) with
        phase := .committing offsets false, receivedMessages := messages } =
        ∑ q ∈ ps, ahead g (c.assign p (some { a with position := a.position + 1 })) q + 2 := fun _ _ => rfl
    rw [hnew, hold] at hsum
    unfold left
    change _ + g.late.length + 1 ≤ _ + g.late.length
    omega
  | @store m c offsets hm hphase =>
    refine ⟨hs.member hm rfl rfl, rfl, ?_⟩
    have hsum := left_member ((g.store offsets).setMember m (some { c with phase := .committing offsets true }))
      hs hm rfl rfl
    have hold : memberLeft g ps c = ∑ q ∈ ps, ahead g c q + 2 := by
      unfold memberLeft
      rw [hphase]
      rfl
    have hnew : memberLeft g ps { c with phase := .committing offsets true } = ∑ q ∈ ps, ahead g c q + 1 := rfl
    rw [hnew, hold] at hsum
    unfold left
    change _ + g.late.length + 1 ≤ _ + g.late.length
    omega
  | @storeLate i offsets hi =>
    refine ⟨⟨hs.members, hs.partitions⟩, rfl, ?_⟩
    have hlt := (List.getElem?_eq_some_iff.1 hi).1
    have hlen : (g.late.eraseIdx i).length + 1 = g.late.length := List.length_eraseIdx_add_one hlt
    change ∑ m ∈ ms, leftOf g ps m + (g.late.eraseIdx i).length + 1 ≤ ∑ m ∈ ms, leftOf g ps m + g.late.length
    omega
  | @committed m c offsets hm hphase =>
    refine ⟨hs.member hm rfl rfl, rfl, ?_⟩
    have hsum := left_member (g.setMember m (some { c with phase := .iterating })) hs hm rfl rfl
    have hold : memberLeft g ps c = ∑ q ∈ ps, ahead g c q + 1 := by
      unfold memberLeft
      rw [hphase]
      rfl
    have hnew : memberLeft g ps { c with phase := .iterating } = ∑ q ∈ ps, ahead g c q + 0 := rfl
    rw [hnew, hold] at hsum
    unfold left
    change _ + g.late.length + 1 ≤ _ + g.late.length
    omega

theorem work_attended (hg : Attended g) {e : ConsumerGroup.Event} (h : Work g e g') : Attended g' := by
  cases h with
  | @receive m p now c a info hm hphase ha hlt =>
    refine hg.member hm rfl rfl (fun hstop => by cases hstop) fun q b hb => ?_
    change ∃ a', (if q = p then _ else c.assigned q) = some a'
    split
    · exact ⟨_, rfl⟩
    · exact ⟨b, hb⟩
  | store hm hphase => exact hg.member hm rfl rfl (fun hstop => by cases hstop) fun q b hb => ⟨b, hb⟩
  | storeLate hi => exact hg
  | committed hm hphase => exact hg.member hm rfl rfl (fun hstop => by cases hstop) fun q b hb => ⟨b, hb⟩

/-! ## The members and the partitions are finitely many -/

theorem Spans.set (hs : Spans ms ps g) {m : Nat} {c : Option Member} (hlog : g'.log = g.log)
    (hmembers : g'.members = (g.setMember m c).members) : Spans (insert m ms) ps g' where
  members m' c' hm' := by
    rw [hmembers, members_setMember] at hm'
    split at hm'
    · rename_i heq
      exact Finset.mem_insert.2 (.inl heq)
    · exact Finset.mem_insert_of_mem (hs.members m' c' hm')
  partitions p hp := hs.partitions p (hlog ▸ hp)

theorem spans_step (hs : Spans ms ps g) {e : ConsumerGroup.Event}
    (h : ConsumerGroup.step loads consumerId g e = some g') : ∃ ms' ps', Spans ms' ps' g' := by
  cases ConsumerGroup.step_sound h with
  | produce p rec =>
    refine ⟨ms, insert p ps, hs.members, fun q hq => ?_⟩
    dsimp only at hq
    split at hq
    · rename_i heq
      exact Finset.mem_insert.2 (.inl heq)
    · exact Finset.mem_insert_of_mem (hs.partitions q hq)
  | storeLate hi => exact ⟨ms, ps, hs.members, hs.partitions⟩
  | start hm => exact ⟨_, ps, hs.set rfl rfl⟩
  | assign p hm => exact ⟨_, ps, hs.set rfl rfl⟩
  | revoke p hm => exact ⟨_, ps, hs.set rfl rfl⟩
  | receive hm ha hrec hinfo => exact ⟨_, ps, hs.set rfl rfl⟩
  | store hm hphase => exact ⟨_, ps, hs.set rfl rfl⟩
  | goOn hm => exact ⟨_, ps, hs.set rfl rfl⟩
  | stop hm => exact ⟨_, ps, hs.set rfl rfl⟩
  | crash hm => exact ⟨_, ps, hs.set rfl rfl⟩

/-- What the app does to the group is what a group does. -/
theorem step_group {s s' : Sys} {a : Action} (h : step loads dumps consumerId part s a = some s') :
    s'.group = s.group ∨ ∃ e, ConsumerGroup.step loads consumerId s.group e = some s'.group := by
  cases a with
  | append i p =>
    simp only [step] at h
    split at h
    · split at h
      · obtain ⟨group, hgroup, rfl⟩ := Option.map_eq_some_iff.1 h
        exact .inr ⟨_, hgroup⟩
      · cases h
    · cases h
  | group e =>
    simp only [step] at h
    split at h
    · cases h
    · obtain ⟨group, hgroup, rfl⟩ := Option.map_eq_some_iff.1 h
      exact .inr ⟨e, hgroup⟩
  | post request =>
    cases h
    exact .inl rfl
  | send h' d =>
    simp only [step] at h
    split at h
    · split at h
      · cases h
        exact .inl rfl
      · cases h
    · cases h
  | answer h' p o =>
    simp only [step] at h
    split at h
    · split at h
      · split at h
        · cases h
          exact .inl rfl
        · cases h
      · cases h
    · cases h
  | fail h' error =>
    simp only [step] at h
    split at h
    · split at h
      · cases h
        exact .inl rfl
      · cases h
    · cases h

theorem reachable_spans {s : Sys} (h : (lts loads dumps consumerId part).Reachable s) :
    ∃ ms ps, Spans ms ps s.group := by
  refine (lts loads dumps consumerId part).reachable_inv (I := fun s => ∃ ms ps, Spans ms ps s.group)
    ⟨∅, ∅, ⟨fun m c hm => (by cases hm), fun p hp => absurd rfl hp⟩⟩ (fun s a s' hi hs => ?_) h
  obtain ⟨ms, ps, hspans⟩ := hi
  rcases step_group hs with hgroup | ⟨e, he⟩
  · exact hgroup ▸ ⟨ms, ps, hspans⟩
  · exact spans_step hspans he

/-! ## Where the group comes to rest -/

/-- **What a live loop is assigned is received** when no loop can go on. -/
theorem received_of_rest (hi : ConsumerGroup.Inv loads g) (hread : Readable loads g) (hg : Attended g)
    (hrest : ∀ e, goesOn e = true → ConsumerGroup.step loads consumerId g e = none) {p o : Nat}
    (ho : o < (g.log p).length) : ConsumerGroup.Appended loads g p o := by
  obtain ⟨m, c, a, hm, ha, hphase⟩ := hg p (List.ne_nil_of_length_pos (Nat.zero_lt_of_lt ho))
  have hiterating : c.phase = .iterating := by
    cases hc : c.phase with
    | iterating => rfl
    | committing offsets stored =>
      cases stored with
      | false =>
        have hstore := hrest (.store m) rfl
        simp only [ConsumerGroup.step, hm, hc] at hstore
        cases hstore
      | true =>
        have hcommitted := hrest (.committed m) rfl
        simp only [ConsumerGroup.step, hm, hc] at hcommitted
        cases hcommitted
    | stopped => exact absurd hc hphase
  have hend : (g.log p).length ≤ a.position := by
    by_contra hlt
    have hrec := List.getElem?_eq_getElem (Nat.not_le.1 hlt)
    obtain ⟨info, hinfo⟩ := Option.isSome_iff_exists.1 (hread p a.position _ hrec (consumerId m) "")
    have hreceive := hrest (.receive m p "") rfl
    simp only [ConsumerGroup.step, hm, hiterating, ha, hrec, hinfo] at hreceive
    cases hreceive
  have hcovers := hi.positions m c hm p a.position (by rw [Member.positions, ha, Option.map_some])
  exact hcovers o (ho.trans_le hend)

theorem Inv.readable {s : Sys} (hi : Inv loads dumps s)
    (hjson : ∀ d ∈ s.sends, loads (dumps d.orderData) = some d.orderData) : Readable loads s.group := by
  intro p o rec hrec cid now
  have hlt : o < (s.origins p).length := hi.counted p ▸ (List.getElem?_eq_some_iff.1 hrec).1
  obtain ⟨d, hd, hrec'⟩ := hi.copies p o _ (List.getElem?_eq_getElem hlt)
  rw [hrec, Option.some.injEq] at hrec'
  rw [hrec', messageInfo_record (hjson d (List.mem_of_getElem? hd))]
  rfl

/-- A member has the message of an answered order, of the data `d`, in its `received_messages`. -/
def Received (s : Sys) (order : OrderResponse) (d : Draw) : Prop :=
  ∃ m c, s.group.members m = some c ∧ ∃ info ∈ c.receivedMessages, info.partition = order.partition ∧
    info.offset = order.offset ∧ info.key = some order.orderId ∧ info.value = d.orderData

/-- What was appended at the place of an order is the order. -/
theorem told_of_appended {s : Sys} (hjson : ∀ d ∈ s.sends, loads (dumps d.orderData) = some d.orderData)
    {order : OrderResponse} (hholds : Holds dumps s order)
    (happended : ConsumerGroup.Appended loads s.group order.partition order.offset) :
    ∃ d ∈ s.sends, d.orderId = order.orderId ∧ ∃ x ∈ s.group.appends, x.info.partition = order.partition ∧
      x.info.offset = order.offset ∧ x.info.key = some order.orderId ∧ x.info.value = d.orderData := by
  obtain ⟨d, hd, hid, hrec⟩ := hholds
  obtain ⟨x, hx, hp, ho, rec, hrec', hkey, hvalue, -⟩ := happended
  rw [hp, ho, hrec, Option.some.injEq] at hrec'
  subst hrec'
  refine ⟨d, hd, hid.symm, x, hx, hp, ho, ?_, ?_⟩
  · rw [Draw.record, keyDeserializer_keySerializer d.orderId_ne_empty, Option.some.injEq] at hkey
    rw [← hkey, hid]
  · have hback : ConsumerGroup.valueDeserializer loads (d.record dumps).value = some d.orderData := by
      change (String.fromUTF8? (dumps d.orderData).toUTF8).bind loads = _
      rw [Text.fromUTF8?_toUTF8]
      exact hjson d hd
    rw [hback, Option.some.injEq] at hvalue
    exact hvalue.symm

/-- **What was appended has been in a member's `received_messages`.** -/
theorem met_received {es : List Action} {s : Sys} (hrun : (lts loads dumps consumerId part).run {} es = some s)
    {order : OrderResponse} {d : Draw} {x : ConsumerGroup.Append} (hx : x ∈ s.group.appends)
    (hp : x.info.partition = order.partition) (ho : x.info.offset = order.offset)
    (hkey : x.info.key = some order.orderId) (hvalue : x.info.value = d.orderData) :
    (lts loads dumps consumerId part).Met (fun t => Received t order d) es := by
  refine (lts loads dumps consumerId part).met_of_appears (Q := fun s => x ∈ s.group.appends) (fun hx => by cases hx)
    (fun s a s' hs hx => ?_) hrun hx
  rcases step_group hs with hgroup | ⟨e, he⟩
  · exact .inl (hgroup ▸ hx)
  · refine (ConsumerGroup.appends_step he hx).imp_right ?_
    rintro ⟨c, hm, hmem⟩
    exact ⟨x.member, c, hm, x.info, hmem, hp, ho, hkey, hvalue⟩

theorem work_step {s s' : Sys} {a : Action} (ha : a.isWork = true)
    (h : step loads dumps consumerId part s a = some s') :
    ∃ e, a = .group e ∧ goesOn e = true ∧ ConsumerGroup.step loads consumerId s.group e = some s'.group ∧
      s'.sends = s.sends ∧ s'.posts = s.posts := by
  cases a with
  | group e =>
    simp only [step] at h
    split at h
    · cases h
    · obtain ⟨group, hgroup, rfl⟩ := Option.map_eq_some_iff.1 h
      exact ⟨e, rfl, ha, hgroup, rfl, rfl⟩
  | _ => cases ha

/-- What the loops keep: all that is sent can be read, and is. -/
structure Settled (loads : String → Option Json) (dumps : Json → String) (ms ps : Finset Nat) (s : Sys) : Prop where
  inv : Inv loads dumps s
  json : ∀ d ∈ s.sends, loads (dumps d.orderData) = some d.orderData
  attended : Attended s.group
  spans : Spans ms ps s.group

theorem settled_step {s s' : Sys} {a : Action} (hs : Settled loads dumps ms ps s) (ha : a.isWork = true)
    (h : step loads dumps consumerId part s a = some s') :
    Settled loads dumps ms ps s' ∧ left ms ps s'.group + 1 ≤ left ms ps s.group := by
  obtain ⟨e, -, he, hgroup, hsends, -⟩ := work_step ha h
  have hwork := work_sound (hs.inv.readable hs.json) he hgroup
  obtain ⟨hspans, -, hleft⟩ := work_left hs.spans hwork
  exact ⟨⟨inv_step hs.inv h, hsends ▸ hs.json, work_attended hs.attended hwork, hspans⟩, hleft⟩

theorem settled_run {s t : Sys} {as : List Action} (hs : Settled loads dumps ms ps s)
    (has : ∀ a ∈ as, a.isWork = true) (hrun : (lts loads dumps consumerId part).run s as = some t) :
    Settled loads dumps ms ps t ∧ as.length ≤ left ms ps s.group := by
  induction as generalizing s with
  | nil =>
    cases hrun
    exact ⟨hs, Nat.zero_le _⟩
  | cons a as ih =>
    obtain ⟨m, hm, hrest⟩ := (lts loads dumps consumerId part).run_cons.1 hrun
    obtain ⟨hsettled, hleft⟩ := settled_step hs (has a List.mem_cons_self) hm
    obtain ⟨ht, hlen⟩ := ih hsettled (fun a h => has a (List.mem_cons_of_mem _ h)) hrest
    refine ⟨ht, ?_⟩
    rw [List.length_cons]
    omega

/-- Where no step is left, each order of an answer has been received. -/
theorem Settled.received {es : List Action} {s : Sys} (hs : Settled loads dumps ms ps s)
    (hrun : (lts loads dumps consumerId part).run {} es = some s)
    (hrest : ∀ a : Action, a.isWork = true → step loads dumps consumerId part s a = none) {order : OrderResponse}
    (hholds : Holds dumps s order) : ∃ d ∈ s.sends, d.orderId = order.orderId ∧
      (lts loads dumps consumerId part).Met (fun t => Received t order d) es := by
  have hgroup : ∀ e, goesOn e = true → ConsumerGroup.step loads consumerId s.group e = none := by
    intro e he
    have hnone := hrest (.group e) he
    simp only [step] at hnone
    split at hnone
    · rename_i hwrites
      cases e with
      | produce p rec => cases he
      | _ => cases hwrites
    · exact Option.map_eq_none_iff.1 hnone
  have hlt : order.offset < (s.group.log order.partition).length := by
    obtain ⟨d, -, -, hrec⟩ := hholds
    exact (List.getElem?_eq_some_iff.1 hrec).1
  obtain ⟨d, hd, hid, x, hx, hp, ho, hkey, hvalue⟩ := told_of_appended hs.json hholds
    (received_of_rest hs.inv.group (hs.inv.readable hs.json) hs.attended hgroup hlt)
  exact ⟨d, hd, hid, met_received hrun hx hp ho hkey hvalue⟩

/-- **Every order reaches the group.**  From any state in which a live loop is assigned each partition with records, the
loops and the broker have a bounded number of steps, and when none is left, every order that an answer lists has been in
the `received_messages` of a member, from the place it names and with its own key and data; a bulk answer lists as many
places as orders were asked for. -/
theorem orders_received (loads : String → Option Json) (dumps : Json → String) (consumerId : Nat → String)
    (part : ByteArray → Nat) {es : List Action} {s : Sys}
    (hstart : (lts loads dumps consumerId part).run {} es = some s)
    (hjson : ∀ d ∈ s.sends, loads (dumps d.orderData) = some d.orderData) (hattended : Attended s.group) :
    ∃ n, ∀ as t, (∀ a ∈ as, a.isWork = true) → (lts loads dumps consumerId part).run s as = some t →
      as.length ≤ n ∧ ((∀ a, a.isWork = true → step loads dumps consumerId part t a = none) →
        ∀ (h : Nat) (post : Post) (response : Response), t.posts[h]? = some post →
          post.ended = some (.ok response) → response.orders.length = post.request.count ∧
            (response.orders.map fun order => (order.partition, order.offset)).Nodup ∧
            ∀ order ∈ response.orders, ∃ d ∈ t.sends, d.orderId = order.orderId ∧
              (lts loads dumps consumerId part).Met (fun r => Received r order d) (es ++ as)) := by
  obtain ⟨ms, ps, hspans⟩ := reachable_spans ⟨es, hstart⟩
  have hs : Settled loads dumps ms ps s := ⟨reachable_inv ⟨es, hstart⟩, hjson, hattended, hspans⟩
  refine ⟨left ms ps s.group, fun as t has hrun => ?_⟩
  obtain ⟨ht, hlen⟩ := settled_run hs has hrun
  refine ⟨hlen, fun hrest h post response hpost hended => ?_⟩
  obtain ⟨hcount, hnodup, hholds⟩ := ht.inv.response hpost hended
  have hall := (lts loads dumps consumerId part).run_append.2 ⟨s, hstart, hrun⟩
  exact ⟨hcount, hnodup, fun order horder => ht.received hall hrest (hholds order horder)⟩

/-! ### One order and one member -/

theorem step_append {s : Sys} {i p : Nat} {d : Draw} (hd : s.sends[i]? = some d) (hp : part d.orderId.toUTF8 = p) :
    step loads dumps consumerId part s (.append i p) = some { s with
      group := { s.group with log := fun p' => if p' = p then s.group.log p' ++ [d.record dumps] else s.group.log p' }
      origins := fun p' => if p' = p then s.origins p ++ [i] else s.origins p' } := by
  have hkey : keySerializer d.orderId = some d.orderId.toUTF8 := if_neg d.orderId_ne_empty
  simp only [step, hd, hkey, Option.all_some, hp, decide_true, if_true]
  rfl

theorem step_receive {s : Sys} {m p : Nat} {c : Member} {a : Assigned} {d : Draw} {now : String}
    (hm : s.group.members m = some c) (hphase : c.phase = .iterating) (ha : c.assigned p = some a)
    (hrec : (s.group.log p)[a.position]? = some (d.record dumps))
    (hjson : loads (dumps d.orderData) = some d.orderData) :
    step loads dumps consumerId part s (.group (.receive m p now)) = some { s with
      group := s.group.receive m c p a
        ⟨consumerId m, p, a.position, some d.orderId, d.orderData, d.timestamp, now⟩ } := by
  have hinfo := messageInfo_record hjson (consumerId m) p a.position now
  simp only [step, writes, ConsumerGroup.step, hm, hphase, ha, hrec, hinfo]
  rfl

def sampleDraw : Draw where
  id := ⟨"0d9f4c1e-2b7a-4e55-9a31-6c8e5b1f7d20", by decide⟩
  item := ⟨"b41e77a0-5c1d-4f0e-8e39-2f6a9d3c4b18", by decide⟩
  quantity := ⟨"7a20c5d4-91be-4d6f-a3c8-0e5f1b2d3c46", by decide⟩
  timestamp := 1735689600000

/-- `json.dumps` of an order's data, as long as its texts need no escapes. -/
def sampleDumps : Json → String
  | .obj [(_, .str id), (_, .str item), (_, .num quantity)] =>
    "\x7b\"order_id\": \"" ++ id ++ "\", \"item\": \"" ++ item ++ "\", \"quantity\": " ++
      toString quantity.num ++ "\x7d"
  | _ => ""

def sampleLoads (text : String) : Option Json :=
  if text = sampleDumps sampleDraw.orderData then some sampleDraw.orderData else none

def sampleName (_ : Nat) : String := "consumer-1"

def sampleLts : Lts Sys Action := lts sampleLoads sampleDumps sampleName fun _ => 0

def sampleOrder : OrderResponse := ⟨sampleDraw.orderId, kafkaTopic, 0, 0⟩

def sampleMember : Member := Member.assign {} 0 (some ⟨0, 0⟩)

/-- An order is answered for, and member 0 is assigned its partition. -/
def orderSent : Sys where
  group := { (({} : ConsumerGroup.Sys).setMember 0 (some {})).setMember 0 (some sampleMember) with
    log := fun p => if p = 0 then [sampleDraw.record sampleDumps] else []
    assignments := 1 }
  origins := fun p => if p = 0 then [0] else []
  sends := [sampleDraw]
  posts := [{ request := .sendOrder, orders := [(0, sampleOrder)], ended := some (.ok (.order sampleOrder)) }]

def sampleSend : List Action :=
  [.post .sendOrder, .group (.start 0), .group (.assign 0 0), .send 0 sampleDraw, .append 0 0, .answer 0 0 0]

theorem orderSent_run : sampleLts.run {} sampleSend = some orderSent := by
  have happend : step sampleLoads sampleDumps sampleName (fun _ => 0) { orderSent with
      group := { orderSent.group with log := fun _ => [] }
      origins := fun _ => []
      posts := [{ request := .sendOrder, awaiting := some 0 }] } (.append 0 0) = some _ := step_append rfl rfl
  exact sampleLts.run_cons.2 ⟨_, rfl, sampleLts.run_cons.2 ⟨_, rfl, sampleLts.run_cons.2 ⟨_, rfl,
    sampleLts.run_cons.2 ⟨_, rfl, sampleLts.run_cons.2 ⟨_, happend, sampleLts.run_cons.2 ⟨_, rfl, rfl⟩⟩⟩⟩⟩⟩

def sampleInfo : ConsumerGroup.MessageInfo where
  consumerId := "consumer-1"
  partition := 0
  offset := 0
  key := some sampleDraw.orderId
  value := sampleDraw.orderData
  timestamp := sampleDraw.timestamp
  receivedAt := "2025-01-01T00:00:00"

def orderReceived : ConsumerGroup.Sys := orderSent.group.receive 0 sampleMember 0 ⟨0, 0⟩ sampleInfo

/-- What the member is once it has received the order. -/
def movedMember (phase : Phase) : Member :=
  { sampleMember.assign 0 (some ⟨1, 0⟩) with phase, receivedMessages := [sampleInfo] }

/-- The member has received the order and committed its position. -/
def orderRead : Sys := { orderSent with
  group := ((orderReceived.store (movedMember .iterating).positions).setMember 0
    (some (movedMember (.committing (movedMember .iterating).positions true)))).setMember 0
      (some (movedMember .iterating)) }

theorem orderRead_rest : ∀ a : Action, a.isWork = true →
    step sampleLoads sampleDumps sampleName (fun _ => 0) orderRead a = none := by
  intro a ha
  cases a with
  | group e =>
    cases e with
    | receive m p now =>
      match m, p with
      | 0, 0 => rfl
      | 0, p + 1 => rfl
      | m + 1, p => rfl
    | store m =>
      match m with
      | 0 => rfl
      | m + 1 => rfl
    | storeLate i => rfl
    | committed m =>
      match m with
      | 0 => rfl
      | m + 1 => rfl
    | _ => cases ha
  | _ => cases ha

def sampleRead : List Action :=
  [.group (.receive 0 0 "2025-01-01T00:00:00"), .group (.store 0), .group (.committed 0)]

/-- The order is received, and then the loop rests. -/
theorem orders_received_sample : sampleLts.run orderSent sampleRead = some orderRead ∧
    ∃ d ∈ orderRead.sends, d.orderId = sampleOrder.orderId ∧
      sampleLts.Met (fun r => Received r sampleOrder d) (sampleSend ++ sampleRead) := by
  have hjson : ∀ d ∈ orderSent.sends, sampleLoads (sampleDumps d.orderData) = some d.orderData := by
    intro d hd
    rw [List.mem_singleton.1 hd]
    exact if_pos rfl
  have hattended : Attended orderSent.group := by
    intro p hp
    have hzero : p = 0 := by
      by_contra hne
      exact hp (if_neg hne)
    exact ⟨0, sampleMember, ⟨0, 0⟩, rfl, by rw [hzero]; rfl, fun hstop => by cases hstop⟩
  have hreceive : sampleLts.step orderSent (.group (.receive 0 0 "2025-01-01T00:00:00")) =
      some { orderSent with group := orderReceived } := by
    have hstep : sampleLts.step = step sampleLoads sampleDumps sampleName fun _ => 0 := rfl
    rw [hstep]
    exact step_receive rfl rfl rfl rfl (hjson sampleDraw List.mem_cons_self)
  have hrun : sampleLts.run orderSent sampleRead = some orderRead :=
    sampleLts.run_cons.2 ⟨_, hreceive, sampleLts.run_cons.2 ⟨_, rfl, sampleLts.run_cons.2 ⟨_, rfl, rfl⟩⟩⟩
  obtain ⟨n, hn⟩ := orders_received sampleLoads sampleDumps sampleName (fun _ => 0) orderSent_run hjson hattended
  obtain ⟨-, hrest⟩ := hn _ orderRead (by simp [sampleRead, Action.isWork, goesOn]) hrun
  obtain ⟨-, -, hreceived⟩ := hrest orderRead_rest 0 _ _ rfl rfl
  exact ⟨hrun, hreceived sampleOrder List.mem_cons_self⟩

end GroupOrders
end KafkaGuide
