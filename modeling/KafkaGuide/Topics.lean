import KafkaGuide.Lib.KeyedLog
import KafkaGuide.Monitoring
/-!
# Topics — orders in turn (`04-topics-and-partitions/app`)

`POST /orders` sends an order under its `order_id` and answers with the place of its record; the loop keeps what it
consumes with the place it is from.  The log, its writer and its reader are `KeyedLog`'s.

The orders of one id that are sent one after the other are in one partition, in this order, and the loop has them in
this order too (`orders_in_turn`), unless the id is empty: the serializer sends that as no key.
-/
namespace KafkaGuide
namespace Topics

open JsonCodec (Numbers Obj Value)

/-- The numbers of JSON, with those that `int` with `ge=1` and `float` with `gt=0` let pass. -/
structure Scalars (F : Type) extends Numbers F where
  quantity : F → Bool
  price : F → Bool

variable {F : Type}

structure OrderRequest (num : Scalars F) where
  orderId : Text
  product : Text
  quantity : F
  price : F
  quantity_ge : num.quantity quantity = true
  price_gt : num.price price = true

structure OrderResponse where
  status : Text := .ofString "success"
  orderId : Text
  topic : Text
  partition : Nat
  offset : Nat

structure ConsumedMessage (F : Type) where
  topic : Text
  partition : Nat
  offset : Nat
  key : Option Text
  value : Value F

/-- `settings.ORDERS_TOPIC`. -/
def ordersTopic : Text := .ofString "orders"

/-! ## The endpoint -/

section
variable {num : Scalars F}

/-- `order.model_dump()`. -/
def OrderRequest.modelDump (order : OrderRequest num) : Obj F where
  members := {
    entries := [
      (.ofString "order_id", .str order.orderId),
      (.ofString "product", .str order.product),
      (.ofString "quantity", .num order.quantity),
      (.ofString "price", .num order.price)]
    nodup := by
      change [Text.ofString "order_id", .ofString "product", .ofString "quantity", .ofString "price"].Nodup
      decide }
  distinct := by
    intro m hm
    simp only [List.mem_cons, List.not_mem_nil, or_false] at hm
    rcases hm with rfl | rfl | rfl | rfl <;> trivial

structure Record where
  key : Option ByteArray
  value : ByteArray

def keySerializer : Option Text → Except Monitoring.Fault (Option ByteArray) := Monitoring.keySerializer

def valueSerializer (num : Numbers F) (v : Value F) : Except Monitoring.Fault ByteArray :=
  Monitoring.valueSerializer num v

/-- What `create_order` hands to the broker, if the serializers do not raise. -/
def OrderRequest.record (order : OrderRequest num) : Except Monitoring.Fault Record :=
  match keySerializer (some order.orderId), valueSerializer num.toNumbers order.modelDump.toValue with
  | .ok key, .ok value => .ok ⟨key, value⟩
  | .error e, _ => .error e
  | _, .error e => .error e

/-! ## The loop -/

/-- The body of `consume_loop`, up to the append; `none` where it raises.  `ConsumedMessage` takes a `dict` only. -/
def consumed (num : Numbers F) (partition offset : Nat) (msg : Record) : Option (ConsumedMessage F) :=
  match Monitoring.valueDeserializer num (some msg.value) with
  | some (.obj members) =>
    (Monitoring.decodeKey msg.key).map fun key => ⟨ordersTopic, partition, offset, key, .obj members⟩
  | _ => none

/-- The message of an order, at the place of its record. -/
def message (order : OrderRequest num) (partition offset : Nat) : ConsumedMessage F :=
  ⟨ordersTopic, partition, offset, Monitoring.keyRead (some order.orderId), order.modelDump.toValue⟩

theorem record_ok {order : OrderRequest num} {r : Record} (h : order.record = .ok r) :
    keySerializer (some order.orderId) = .ok r.key ∧
      valueSerializer num.toNumbers order.modelDump.toValue = .ok r.value := by
  unfold OrderRequest.record at h
  split at h
  · rename_i hkey hvalue
    cases h
    exact ⟨hkey, hvalue⟩
  · cases h
  · cases h

/-- **The loop reads the order that was sent.** -/
theorem consumed_record {order : OrderRequest num} {r : Record} (h : order.record = .ok r) (p o : Nat) :
    consumed num.toNumbers p o r = some (message order p o) := by
  obtain ⟨hkey, hvalue⟩ := record_ok h
  have hread : Monitoring.valueDeserializer num.toNumbers (some r.value) = some order.modelDump.toValue :=
    Monitoring.valueDeserializer_serialized hvalue
  rw [consumed, hread]
  change (Monitoring.decodeKey r.key).map _ = _
  rw [Monitoring.decodeKey_serialized hkey]
  rfl

/-- A key that is not empty has bytes, the same for the same key. -/
theorem record_key {order : OrderRequest num} {r : Record} (h : order.record = .ok r)
    (hne : order.orderId.points ≠ []) : ∃ k, order.orderId.encode = some k ∧ r.key = some k := by
  have hkey := (record_ok h).1
  unfold keySerializer Monitoring.keySerializer at hkey
  dsimp only at hkey
  rw [if_neg hne] at hkey
  cases hb : Monitoring.encode order.orderId with
  | error e =>
    rw [hb] at hkey
    cases hkey
  | ok b =>
    rw [hb] at hkey
    exact ⟨b, Monitoring.encode_ok hb, (Except.ok.inj hkey).symm⟩

end

/-! ## The system -/

/-- The orders that were sent, the topic with its writer and its reader, and the globals of `main`. -/
structure Sys (num : Scalars F) where
  orders : List (OrderRequest num) := []
  log : KeyedLog.State ByteArray Record := {}
  consumedMessages : List (ConsumedMessage F) := []
  running : Bool := true

inductive Action (num : Scalars F) where
  | createOrder (order : OrderRequest num)
  | append (i p : Nat)
  | answer (i p o : Nat)
  | consume (p : Nat)
  | rebalance (p o : Nat)
  | restart (offsets : Nat → Nat)

/-- An order that does not serialize ends in a 500 with nothing sent, and what the loop's body raises ends the loop. -/
def step (num : Scalars F) (part : ByteArray → Nat) (s : Sys num) : Action num → Option (Sys num)
  | .createOrder order =>
    match order.record with
    | .ok r => (KeyedLog.step part s.log (.send ⟨r.key, r⟩)).map fun log =>
        { s with orders := s.orders ++ [order], log := log }
    | .error _ => some s
  | .append i p => (KeyedLog.step part s.log (.land i p)).map fun log => { s with log := log }
  | .answer i p o => (KeyedLog.step part s.log (.answer i p o)).map fun log => { s with log := log }
  | .consume p =>
    match s.running, (s.log.parts p)[s.log.position p]? with
    | true, some e => (KeyedLog.step part s.log (.read p)).map fun log =>
        match consumed num.toNumbers p (s.log.position p) e.record with
        | some msg => { s with log := log, consumedMessages := s.consumedMessages ++ [msg] }
        | none => { s with log := log, running := false }
    | _, _ => none
  | .rebalance p o => (KeyedLog.step part s.log (.seek p o)).map fun log => { s with log := log }
  | .restart offsets => (KeyedLog.step part s.log (.restart offsets)).map fun log =>
      { s with log := log, consumedMessages := [], running := true }

def lts (num : Scalars F) (part : ByteArray → Nat) : Lts (Sys num) (Action num) where
  init := {}
  step := step num part

/-- What `create_order` returns for the order `i` once the broker has answered. -/
def Sys.response {num : Scalars F} (s : Sys num) (i : Nat) : Option OrderResponse :=
  s.orders[i]?.bind fun order => (s.log.answers i).map fun place =>
    { orderId := order.orderId, topic := ordersTopic, partition := place.1, offset := place.2 }

variable {num : Scalars F} {part : ByteArray → Nat} {s s' : Sys num} {a : Action num}

/-- **What the app does to the log is what a log does.** -/
theorem step_log (h : step num part s a = some s') :
    s'.log = s.log ∨ ∃ e, KeyedLog.step part s.log e = some s'.log := by
  cases a with
  | createOrder order =>
    simp only [step] at h
    split at h
    · obtain ⟨log, hlog, rfl⟩ := Option.map_eq_some_iff.1 h
      exact .inr ⟨_, hlog⟩
    · cases h
      exact .inl rfl
  | consume p =>
    simp only [step] at h
    split at h
    · obtain ⟨log, hlog, rfl⟩ := Option.map_eq_some_iff.1 h
      refine .inr ⟨.read p, ?_⟩
      split <;> exact hlog
    · cases h
  | append i p =>
    obtain ⟨log, hlog, rfl⟩ := Option.map_eq_some_iff.1 h
    exact .inr ⟨_, hlog⟩
  | answer i p o =>
    obtain ⟨log, hlog, rfl⟩ := Option.map_eq_some_iff.1 h
    exact .inr ⟨_, hlog⟩
  | rebalance p o =>
    obtain ⟨log, hlog, rfl⟩ := Option.map_eq_some_iff.1 h
    exact .inr ⟨_, hlog⟩
  | restart offsets =>
    cases h
    exact .inr ⟨.restart offsets, rfl⟩

theorem run_log {as : List (Action num)} : ∀ {s t : Sys num}, (lts num part).run s as = some t →
    ∃ es, (KeyedLog.lts part).run s.log es = some t.log := by
  induction as with
  | nil =>
    intro s t h
    cases h
    exact ⟨[], rfl⟩
  | cons a as ih =>
    intro s t h
    obtain ⟨m, ha, hrest⟩ := (lts num part).run_cons.1 h
    obtain ⟨es, hes⟩ := ih hrest
    rcases step_log ha with hlog | ⟨e, he⟩
    · exact ⟨es, hlog ▸ hes⟩
    · exact ⟨e :: es, (KeyedLog.lts part).run_cons.2 ⟨m.log, he, hes⟩⟩

/-- **No order is forgotten.** -/
theorem step_orders (h : step num part s a = some s') : s.orders <+: s'.orders := by
  cases a with
  | createOrder order =>
    simp only [step] at h
    split at h
    · obtain ⟨log, -, rfl⟩ := Option.map_eq_some_iff.1 h
      exact List.prefix_append _ _
    · cases h
      exact List.prefix_rfl
  | consume p =>
    simp only [step] at h
    split at h
    · obtain ⟨log, -, rfl⟩ := Option.map_eq_some_iff.1 h
      split <;> exact List.prefix_rfl
    · cases h
  | append i p =>
    obtain ⟨log, -, rfl⟩ := Option.map_eq_some_iff.1 h
    exact List.prefix_rfl
  | answer i p o =>
    obtain ⟨log, -, rfl⟩ := Option.map_eq_some_iff.1 h
    exact List.prefix_rfl
  | rebalance p o =>
    obtain ⟨log, -, rfl⟩ := Option.map_eq_some_iff.1 h
    exact List.prefix_rfl
  | restart offsets =>
    cases h
    exact List.prefix_rfl

theorem run_orders {as : List (Action num)} {t : Sys num} (h : (lts num part).run s as = some t) :
    s.orders <+: t.orders :=
  (lts num part).run_inv (I := fun m => s.orders <+: m.orders)
    (fun _ _ _ hm h => hm.trans (step_orders h)) List.prefix_rfl h

/-! ## What the loop has -/

/-- **The invariant**: each send is an order's record, the loop is alive, and it has the message of each order whose
record it has read. -/
structure Inv (part : ByteArray → Nat) (s : Sys num) : Prop where
  log : KeyedLog.Inv part s.log
  counted : s.orders.length = s.log.sends.length
  sent : ∀ (i : Nat) (send : KeyedLog.Send ByteArray Record), s.log.sends[i]? = some send →
    ∃ order : OrderRequest num, s.orders[i]? = some order ∧ order.record = .ok send.record ∧ send.key = send.record.key
  running : s.running = true
  told : s.consumedMessages.length = s.log.read.length
  messages : ∀ (n p o : Nat), s.log.read[n]? = some (p, o) →
    ∃ (e : KeyedLog.Entry Record) (order : OrderRequest num), (s.log.parts p)[o]? = some e ∧
      s.orders[e.send]? = some order ∧ s.consumedMessages[n]? = some (message order p o)

theorem inv_init : Inv part ({} : Sys num) where
  log := KeyedLog.inv_init
  counted := rfl
  sent _ _ h := by cases h
  running := rfl
  told := rfl
  messages _ _ _ h := by cases h

/-- The order that an entry is a record of. -/
theorem Inv.order_of_entry (hi : Inv part s) {p o : Nat} {e : KeyedLog.Entry Record}
    (he : (s.log.parts p)[o]? = some e) :
    ∃ order : OrderRequest num, s.orders[e.send]? = some order ∧ order.record = .ok e.record ∧
      ∀ k, e.record.key = some k → part k = p := by
  obtain ⟨send, hsend, hrecord, hpart⟩ := hi.log.copies p o e he
  obtain ⟨order, horder, hok, hkey⟩ := hi.sent e.send send hsend
  rw [hrecord] at hok hkey
  exact ⟨order, horder, hok, fun k hk => hpart k (hkey.trans hk)⟩

/-- What neither sends nor reads keeps the invariant. -/
theorem Inv.frame (hi : Inv part s) {e : KeyedLog.Event ByteArray Record} {log : KeyedLog.State ByteArray Record}
    (h : KeyedLog.step part s.log e = some log) (hsends : log.sends = s.log.sends) (hread : log.read = s.log.read) :
    Inv part { s with log := log } where
  log := KeyedLog.inv_step hi.log h
  counted := hi.counted.trans (congrArg List.length hsends.symm)
  sent i send hsend := hi.sent i send (hsends ▸ hsend)
  running := hi.running
  told := hi.told.trans (congrArg List.length hread.symm)
  messages n p o hn := by
    obtain ⟨entry, order, hentry, horder, hmsg⟩ := hi.messages n p o (hread ▸ hn)
    exact ⟨entry, order, Count.prefix_get (KeyedLog.step_parts h p) hentry, horder, hmsg⟩

theorem Inv.createOrder (hi : Inv part s) {order : OrderRequest num} {r : Record} (hr : order.record = .ok r)
    {log : KeyedLog.State ByteArray Record} (h : KeyedLog.step part s.log (.send ⟨r.key, r⟩) = some log) :
    Inv part { s with orders := s.orders ++ [order], log := log } := by
  have hlog := KeyedLog.inv_step hi.log h
  cases h
  refine ⟨hlog, ?_, fun i send hsend => ?_, hi.running, hi.told, fun n p o hn => ?_⟩
  · dsimp only
    rw [List.length_append, List.length_append, hi.counted]
    rfl
  · rcases Count.get_append hsend with hsend | ⟨rfl, rfl⟩
    · obtain ⟨order', horder, hok, hkey⟩ := hi.sent i send hsend
      exact ⟨order', Count.append_get horder, hok, hkey⟩
    · refine ⟨order, ?_, hr, rfl⟩
      rw [← hi.counted, List.getElem?_concat_length]
  · obtain ⟨entry, order', hentry, horder, hmsg⟩ := hi.messages n p o hn
    exact ⟨entry, order', hentry, Count.append_get horder, hmsg⟩

/-- The loop reads the record of an order, and has its message. -/
theorem Inv.consume (hi : Inv part s) {p : Nat} {e : KeyedLog.Entry Record}
    (he : (s.log.parts p)[s.log.position p]? = some e) {log : KeyedLog.State ByteArray Record}
    (h : KeyedLog.step part s.log (.read p) = some log) :
    ∃ msg, consumed num.toNumbers p (s.log.position p) e.record = some msg ∧
      Inv part { s with log := log, consumedMessages := s.consumedMessages ++ [msg] } := by
  obtain ⟨order, horder, hok, -⟩ := hi.order_of_entry he
  refine ⟨_, consumed_record hok p (s.log.position p), ?_⟩
  have hlog := KeyedLog.inv_step hi.log h
  cases KeyedLog.step_sound h
  refine ⟨hlog, hi.counted, hi.sent, hi.running, ?_, fun n q o hn => ?_⟩
  · dsimp only
    rw [List.length_append, List.length_append, hi.told]
    rfl
  · rcases Count.get_append hn with hn | ⟨rfl, heq⟩
    · obtain ⟨entry, order', hentry, horder', hmsg⟩ := hi.messages n q o hn
      exact ⟨entry, order', hentry, horder', Count.append_get hmsg⟩
    · cases heq
      refine ⟨e, order, he, horder, ?_⟩
      dsimp only
      rw [← hi.told, List.getElem?_concat_length]

theorem inv_step (hi : Inv part s) (h : step num part s a = some s') : Inv part s' := by
  cases a with
  | createOrder order =>
    simp only [step] at h
    split at h
    · rename_i r hr
      obtain ⟨log, hlog, rfl⟩ := Option.map_eq_some_iff.1 h
      exact hi.createOrder hr hlog
    · cases h
      exact hi
  | append i p =>
    obtain ⟨log, hlog, rfl⟩ := Option.map_eq_some_iff.1 h
    cases KeyedLog.step_sound hlog
    exact hi.frame hlog rfl rfl
  | answer i p o =>
    obtain ⟨log, hlog, rfl⟩ := Option.map_eq_some_iff.1 h
    cases KeyedLog.step_sound hlog
    exact hi.frame hlog rfl rfl
  | consume p =>
    simp only [step] at h
    split at h
    · rename_i e hrunning he
      obtain ⟨log, hlog, rfl⟩ := Option.map_eq_some_iff.1 h
      obtain ⟨msg, hmsg, hinv⟩ := hi.consume he hlog
      rw [hmsg]
      exact hinv
    · cases h
  | rebalance p o =>
    obtain ⟨log, hlog, rfl⟩ := Option.map_eq_some_iff.1 h
    cases KeyedLog.step_sound hlog
    exact hi.frame hlog rfl rfl
  | restart offsets =>
    cases h
    refine ⟨KeyedLog.inv_step (e := .restart offsets) hi.log rfl, hi.counted, hi.sent, rfl, rfl, fun n p o hn => ?_⟩
    cases hn

theorem run_inv {as : List (Action num)} (h : (lts num part).run {} as = some s) : Inv part s :=
  (lts num part).run_inv (I := Inv part) (fun _ _ _ hi h => inv_step hi h) inv_init h

/-! ## Orders in turn -/

theorem response_eq {i : Nat} {r : OrderResponse} (h : s.response i = some r) :
    ∃ order : OrderRequest num, s.orders[i]? = some order ∧ s.log.answers i = some (r.partition, r.offset) ∧
      r.orderId = order.orderId := by
  obtain ⟨order, horder, h⟩ := Option.bind_eq_some_iff.1 h
  obtain ⟨⟨p, o⟩, hanswer, rfl⟩ := Option.map_eq_some_iff.1 h
  exact ⟨order, horder, hanswer, rfl⟩

/-- **What a response tells**: a record of the order is there, in its key's partition. -/
theorem Inv.response (hi : Inv part s) {i : Nat} {r : OrderResponse} (h : s.response i = some r) :
    ∃ (e : KeyedLog.Entry Record) (order : OrderRequest num), (s.log.parts r.partition)[r.offset]? = some e ∧
      e.send = i ∧ s.orders[i]? = some order ∧ r.orderId = order.orderId ∧
      ∀ k, order.orderId.points ≠ [] → order.orderId.encode = some k → part k = r.partition := by
  obtain ⟨order, horder, hanswer, hid⟩ := response_eq h
  obtain ⟨e, he, hsend⟩ := hi.log.answered i r.partition r.offset hanswer
  refine ⟨e, order, he, hsend, horder, hid, fun k hne hk => ?_⟩
  obtain ⟨order', horder', hok, hpart⟩ := hi.order_of_entry he
  rw [hsend, horder, Option.some.injEq] at horder'
  subst horder'
  obtain ⟨k', hk', hkey⟩ := record_key hok hne
  rw [hk, Option.some.injEq] at hk'
  subst hk'
  exact hpart k hkey

/-- A message is that of the order whose record is at its place. -/
theorem Inv.message_at (hi : Inv part s) {n : Nat} {msg : ConsumedMessage F} (h : s.consumedMessages[n]? = some msg) :
    s.log.read[n]? = some (msg.partition, msg.offset) ∧
      ∃ (e : KeyedLog.Entry Record) (order : OrderRequest num), (s.log.parts msg.partition)[msg.offset]? = some e ∧
        s.orders[e.send]? = some order ∧ msg = message order msg.partition msg.offset := by
  have hlt : n < s.log.read.length := hi.told ▸ (List.getElem?_eq_some_iff.1 h).1
  obtain ⟨⟨p, o⟩, hread⟩ : ∃ place, s.log.read[n]? = some place := ⟨_, List.getElem?_eq_getElem hlt⟩
  obtain ⟨e, order, he, horder, hmsg⟩ := hi.messages n p o hread
  rw [h, Option.some.injEq] at hmsg
  subst hmsg
  exact ⟨hread, e, order, he, horder, rfl⟩

/-- **Orders of one id stay in turn.**  An order that is sent after another of its id was answered for is, in every copy
of its record, behind it in the same partition; the loop is alive, and a process that began no later than there has
the first order's message ahead of every message of the second. -/
theorem orders_in_turn (num : Scalars F) (part : ByteArray → Nat) (as bs : List (Action num)) (m t : Sys num)
    (i j : Nat) (ra : OrderResponse) (b : OrderRequest num) (hm : (lts num part).run {} as = some m)
    (ht : (lts num part).run m bs = some t) (ha : m.response i = some ra) (hj : m.orders.length ≤ j)
    (hb : t.orders[j]? = some b) (hid : b.orderId = ra.orderId) (hne : ra.orderId.points ≠ []) :
    t.running = true ∧ ∃ a : OrderRequest num, m.orders[i]? = some a ∧ a.orderId = ra.orderId ∧
      ∀ (p o : Nat) (e : KeyedLog.Entry Record), (t.log.parts p)[o]? = some e → e.send = j →
        p = ra.partition ∧ ra.offset < o ∧
        ∀ (n : Nat) (msg : ConsumedMessage F), t.consumedMessages[n]? = some msg → msg.partition = p → msg.offset = o →
          msg = message b p o ∧
            (t.log.start p ≤ ra.offset → ∃ k < n, t.consumedMessages[k]? = some (message a p ra.offset)) := by
  have hmi := run_inv hm
  have hti : Inv part t := (lts num part).run_inv (I := Inv part) (fun _ _ _ hi h => inv_step hi h) hmi ht
  obtain ⟨es, hes⟩ := run_log ht
  obtain ⟨ea, a, hea, hsend, horder, hra, hkey⟩ := hmi.response ha
  rw [hra] at hid hne
  refine ⟨hti.running, a, horder, hra.symm, fun p o e he hej => ?_⟩
  -- both keys are the bytes of the one id
  obtain ⟨b', hb', hok, hpart⟩ := hti.order_of_entry he
  rw [hej, hb, Option.some.injEq] at hb'
  subst hb'
  obtain ⟨k, hk, hrecord⟩ := record_key hok (hid.symm ▸ hne)
  have hp : p = ra.partition := (hpart k hrecord).symm.trans (hkey k hne (hid ▸ hk))
  subst hp
  have hbehind := KeyedLog.begun_later hmi.log hes he (by rw [← hmi.counted, hej]; exact hj)
  have hlt : ra.offset < o := (List.getElem?_eq_some_iff.1 hea).1.trans_le hbehind
  refine ⟨rfl, hlt, fun n msg hmsg hmp hmo => ?_⟩
  obtain ⟨hread, e', b', he', hb', heq⟩ := hti.message_at hmsg
  rw [hmp, hmo] at hread he' heq
  rw [he, Option.some.injEq] at he'
  subst he'
  rw [hej, hb, Option.some.injEq] at hb'
  subst hb'
  refine ⟨heq, fun hstart => ?_⟩
  obtain ⟨k, hkn, hread'⟩ := hti.log.inOrder n ra.partition o hread ra.offset hstart hlt
  obtain ⟨e', a', he', ha', hmsg'⟩ := hti.messages k ra.partition ra.offset hread'
  rw [Count.prefix_get (KeyedLog.run_parts hes _) hea, Option.some.injEq] at he'
  subst he'
  rw [hsend, Count.prefix_get (run_orders ht) horder, Option.some.injEq] at ha'
  subst ha'
  exact ⟨k, hkn, hmsg'⟩

/-! ### Two orders of one id -/

theorem step_createOrder (part : ByteArray → Nat) (s : Sys num) {order : OrderRequest num} {r : Record}
    (h : order.record = .ok r) : step num part s (.createOrder order) = some { s with
      orders := s.orders ++ [order], log := { s.log with sends := s.log.sends ++ [⟨r.key, r⟩] } } := by
  simp only [step, h]
  rfl

theorem step_consume {p : Nat} {e : KeyedLog.Entry Record} {order : OrderRequest num} (hrunning : s.running = true)
    (he : (s.log.parts p)[s.log.position p]? = some e) (hok : order.record = .ok e.record) :
    step num part s (.consume p) = some { s with
      log := { s.log with
        position := fun p' => if p' = p then s.log.position p + 1 else s.log.position p'
        read := s.log.read ++ [(p, s.log.position p)] }
      consumedMessages := s.consumedMessages ++ [message order p (s.log.position p)] } := by
  have hlt := (List.getElem?_eq_some_iff.1 he).1
  simp only [step, hrunning, he, KeyedLog.step, if_pos hlt, Option.map_some, consumed_record hok]

inductive Shown where
  | one
  | price
deriving DecidableEq

def Shown.text : Shown → List Char
  | .one => "1".toList
  | .price => "2500000.0".toList

def shown : Scalars Shown where
  text := Shown.text
  read cs := if cs = Shown.text .one then some .one else if cs = Shown.text .price then some .price else none
  text_ne_nil x := by cases x <;> decide
  text_word x := by
    have hall : (Shown.text x).all JsonCodec.wordChar = true := by cases x <;> rfl
    exact List.all_eq_true.1 hall
  text_ne_literal x := by cases x <;> decide
  read_text x := by cases x <;> decide
  quantity x := x = .one
  price x := x = .price

def orderOf (product : Text) : OrderRequest shown where
  orderId := .ofString "order-001"
  product := product
  quantity := .one
  price := .price
  quantity_ge := rfl
  price_gt := rfl

def laptop : OrderRequest shown := orderOf (.ofString "MacBook Pro")

def mouse : OrderRequest shown := orderOf (.ofString "Magic Mouse")

theorem orderOf_record {product : Text} {text : String}
    (htext : JsonCodec.dumps shown.toNumbers (orderOf product).modelDump.toValue = .ofString text) :
    (orderOf product).record = .ok ⟨some "order-001".toUTF8, text.toUTF8⟩ := by
  have hkey : Monitoring.encode (.ofString "order-001") = .ok "order-001".toUTF8 := by
    rw [Monitoring.encode, Text.encode_ofString]
  have hvalue : valueSerializer shown.toNumbers (orderOf product).modelDump.toValue = .ok text.toUTF8 := by
    rw [valueSerializer, Monitoring.valueSerializer, htext, Monitoring.encode, Text.encode_ofString]
  have hserialized : keySerializer (some (orderOf product).orderId) = .ok (some "order-001".toUTF8) := by
    change (if (Text.ofString "order-001").points = [] then Except.ok none
      else (Monitoring.encode (.ofString "order-001")).map some) = _
    rw [if_neg (by decide), hkey]
    rfl
  rw [OrderRequest.record, hserialized, hvalue]

def laptopRecord : Record where
  key := some "order-001".toUTF8
  value := ("\x7b\"order_id\": \"order-001\", \"product\": \"MacBook Pro\", \"quantity\": 1, " ++
    "\"price\": 2500000.0\x7d").toUTF8

def mouseRecord : Record where
  key := some "order-001".toUTF8
  value := ("\x7b\"order_id\": \"order-001\", \"product\": \"Magic Mouse\", \"quantity\": 1, " ++
    "\"price\": 2500000.0\x7d").toUTF8

theorem laptop_record : laptop.record = .ok laptopRecord := orderOf_record (by decide +kernel)

theorem mouse_record : mouse.record = .ok mouseRecord := orderOf_record (by decide +kernel)

def laptopSent : Sys shown where
  orders := [laptop]
  log := {
    sends := [⟨laptopRecord.key, laptopRecord⟩]
    parts := fun p => if p = 0 then [⟨0, laptopRecord⟩] else []
    answers := fun i => if i = 0 then some (0, 0) else none }

def mouseSent : Sys shown where
  orders := [laptop, mouse]
  log := { laptopSent.log with
    sends := [⟨laptopRecord.key, laptopRecord⟩, ⟨mouseRecord.key, mouseRecord⟩]
    parts := fun p => if p = 0 then [⟨0, laptopRecord⟩, ⟨1, mouseRecord⟩] else laptopSent.log.parts p }

def laptopRead : Sys shown := { mouseSent with
  log := { mouseSent.log with position := fun p => if p = 0 then 1 else 0, read := [(0, 0)] }
  consumedMessages := [message laptop 0 0] }

def bothRead : Sys shown := { laptopRead with
  log := { laptopRead.log with
    position := fun p => if p = 0 then 2 else laptopRead.log.position p
    read := [(0, 0), (0, 1)] }
  consumedMessages := [message laptop 0 0, message mouse 0 1] }

/-- The loop has the laptop ahead of the mouse. -/
theorem laptop_ahead :
    (lts shown fun _ => 0).run {} [.createOrder laptop, .append 0 0, .answer 0 0 0] = some laptopSent ∧
    (lts shown fun _ => 0).run laptopSent [.createOrder mouse, .append 1 0, .consume 0, .consume 0] = some bothRead ∧
    ∃ k < 1, bothRead.consumedMessages[k]? = some (message laptop 0 0) := by
  have hlaptop := step_createOrder (fun _ => 0) {} laptop_record
  have hm : (lts shown fun _ => 0).run {} [.createOrder laptop, .append 0 0, .answer 0 0 0] = some laptopSent :=
    (lts shown _).run_cons.2 ⟨_, hlaptop, rfl⟩
  have hmouse := step_createOrder (fun _ => 0) laptopSent mouse_record
  have hfirst : step shown (fun _ => 0) mouseSent (.consume 0) = some laptopRead := step_consume rfl rfl laptop_record
  have hsecond : step shown (fun _ => 0) laptopRead (.consume 0) = some bothRead := step_consume rfl rfl mouse_record
  have ht : (lts shown fun _ => 0).run laptopSent [.createOrder mouse, .append 1 0, .consume 0, .consume 0] =
      some bothRead :=
    (lts shown _).run_cons.2 ⟨_, hmouse, (lts shown _).run_cons.2 ⟨mouseSent, rfl,
      (lts shown _).run_cons.2 ⟨laptopRead, hfirst, (lts shown _).run_cons.2 ⟨bothRead, hsecond, rfl⟩⟩⟩⟩
  obtain ⟨-, a, ha, -, hcopies⟩ := orders_in_turn shown (fun _ => 0) _ _ laptopSent bothRead 0 1
    { orderId := .ofString "order-001", topic := ordersTopic, partition := 0, offset := 0 } mouse hm ht rfl
    (le_refl _) rfl rfl (by decide)
  cases ha
  obtain ⟨-, -, hmessages⟩ := hcopies 0 1 _ rfl rfl
  exact ⟨hm, ht, (hmessages 1 _ rfl rfl rfl).2 (le_refl _)⟩

end Topics
end KafkaGuide
