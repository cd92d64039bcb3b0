import KafkaGuide.ConsumerGroupSafe
import KafkaGuide.Lib.Count
import KafkaGuide.Lib.Text
/-!
# GroupOrders — the producer of the group's topic (`05-consumer-groups/producer/app/main.py`)

`POST /orders` and `POST /bulk-orders` await their sends one after the other; the broker appends a record to its key's
partition at any time after it was sent, maybe more than once, and may answer or not.  The group of `ConsumerGroup`
reads what is appended, and nothing else writes to the topic.

An answer has as many orders as were asked for, each with a place of its own where the order's record is
(`Inv.response`).
-/
namespace KafkaGuide
namespace GroupOrders

open ConsumerGroup (Record)

/-! ## What is sent -/

/-- `uuid.hex`. -/
def hex (u : Uuid) : String := String.ofList (u.str.toList.filter (· ≠ '-'))

def hexDigit (c : Char) : Nat := if c.isDigit then c.toNat - '0'.toNat else c.toNat - 'a'.toNat + 10

/-- `uuid.int`. -/
def int (u : Uuid) : Nat := (hex u).toList.foldl (fun n c => 16 * n + hexDigit c) 0

/-- The three UUIDs that `_send_order` draws, and the timestamp of its record. -/
structure Draw where
  id : Uuid
  item : Uuid
  quantity : Uuid
  timestamp : Int

/-- `str(uuid.uuid4())[:8]`. -/
def Draw.orderId (d : Draw) : String := String.ofList (d.id.str.toList.take 8)

def Draw.orderData (d : Draw) : Json := .obj [
  ("order_id", .str d.orderId),
  ("item", .str ("item-" ++ String.ofList ((hex d.item).toList.take 4))),
  ("quantity", .num ((int d.quantity % 10 + 1 : Nat) : ℚ))]

theorem Draw.orderId_ne_empty (d : Draw) : d.orderId ≠ "" := by
  intro h
  have hlen := congrArg String.length h
  rw [Draw.orderId, String.length_ofList, List.length_take, String.length_toList, d.id.length_eq] at hlen
  cases hlen

/-- `lambda k: k.encode("utf-8") if k else None`. -/
def keySerializer (k : String) : Option ByteArray := if k = "" then none else some k.toUTF8

/-- `lambda v: json.dumps(v).encode("utf-8")`. -/
def valueSerializer (dumps : Json → String) (v : Json) : ByteArray := (dumps v).toUTF8

def Draw.record (dumps : Json → String) (d : Draw) : Record where
  key := keySerializer d.orderId
  value := some (valueSerializer dumps d.orderData)
  timestamp := d.timestamp

/-! ## The endpoints -/

structure OrderResponse where
  orderId : String
  topic : String
  partition : Nat
  offset : Nat

structure BulkOrderRequest where
  count : Nat := 10
  ge : 1 ≤ count
  le : count ≤ 1000

inductive Request where
  | sendOrder
  | sendBulkOrders (body : BulkOrderRequest)

def Request.count : Request → Nat
  | .sendOrder => 1
  | .sendBulkOrders body => body.count

inductive Response where
  | order (order : OrderResponse)
  | bulk (totalSent : Nat) (orders : List OrderResponse)

structure HttpException where
  statusCode : Nat
  detail : String

/-- What the handler of a request has: the answered sends, by their number, the one it awaits, and how it ended. -/
structure Post where
  request : Request
  orders : List (Nat × OrderResponse) := []
  awaiting : Option Nat := none
  ended : Option (Except HttpException Response) := none

/-- `OrderResponse(…)` and `BulkOrderResponse(…)`. -/
def Post.response (post : Post) : Response :=
  match post.request, post.orders with
  | .sendOrder, [(_, order)] => .order order
  | _, orders => .bulk orders.length (orders.map Prod.snd)

/-- `_send_order` returns: the loop goes on, or the handler ends. -/
def Post.answered (post : Post) (i : Nat) (order : OrderResponse) : Post :=
  let post := { post with orders := post.orders ++ [(i, order)], awaiting := none }
  if post.orders.length = post.request.count then { post with ended := some (.ok post.response) } else post

def Post.failed (post : Post) (error : String) : Post :=
  let detail := match post.request with
    | .sendOrder => "주문 전송 실패: " ++ error
    | .sendBulkOrders _ => "대량 주문 전송 실패: " ++ error
  { post with awaiting := none, ended := some (.error ⟨500, detail⟩) }

/-! ## The system -/

/-- The topic and the group, the sends that their records are copies of, and the requests to the producer. -/
structure Sys where
  group : ConsumerGroup.Sys := {}
  origins : Nat → List Nat := fun _ => []
  sends : List Draw := []
  posts : List Post := []

inductive Action where
  | post (request : Request)
  | send (h : Nat) (d : Draw)
  | append (i p : Nat)
  | answer (h p o : Nat)
  | fail (h : Nat) (error : String)
  | group (e : ConsumerGroup.Event)

/-- `settings.KAFKA_TOPIC`. -/
def kafkaTopic : String := "orders"

def Sys.setPost (s : Sys) (h : Nat) (post : Post) : Sys := { s with posts := s.posts.set h post }

/-- The producer alone writes to the topic. -/
def writes : ConsumerGroup.Event → Bool
  | .produce _ _ => true
  | _ => false

section
variable (loads : String → Option Json) (dumps : Json → String) (consumerId : Nat → String) (part : ByteArray → Nat)

/-- One step; `part` is the partition of a key. -/
def step (s : Sys) : Action → Option Sys
  | .post request => some { s with posts := s.posts ++ [{ request }] }
  | .send h d =>
    match s.posts[h]? with
    | some post =>
      match post.ended, post.awaiting with
      | none, none => some { s.setPost h { post with awaiting := some s.sends.length } with sends := s.sends ++ [d] }
      | _, _ => none
    | none => none
  | .append i p =>
    match s.sends[i]? with
    | some d =>
      if (keySerializer d.orderId).all (fun k => part k = p) then
        (ConsumerGroup.step loads consumerId s.group (.produce p (d.record dumps))).map fun group =>
          { s with group, origins := fun p' => if p' = p then s.origins p ++ [i] else s.origins p' }
      else none
    | none => none
  | .answer h p o =>
    match s.posts[h]?, (s.origins p)[o]? with
    | some post, some i =>
      match s.sends[i]? with
      | some d =>
        if post.awaiting = some i then some (s.setPost h (post.answered i ⟨d.orderId, kafkaTopic, p, o⟩)) else none
      | none => none
    | _, _ => none
  | .fail h error =>
    match s.posts[h]? with
    | some post => if post.awaiting.isSome then some (s.setPost h (post.failed error)) else none
    | none => none
  | .group e =>
    if writes e then none else (ConsumerGroup.step loads consumerId s.group e).map fun group => { s with group }

def lts : Lts Sys Action where
  init := {}
  step := step loads dumps consumerId part

end

/-! ## What is on the topic -/

variable {loads : String → Option Json} {dumps : Json → String} {consumerId : Nat → String} {part : ByteArray → Nat}

/-- **The invariant of a request**: its answered sends are different ones, each answered with a place of a copy. -/
structure Served (s : Sys) (post : Post) : Prop where
  placed : ∀ x ∈ post.orders, ∃ d : Draw, s.sends[x.1]? = some d ∧ x.2.orderId = d.orderId ∧ x.2.topic = kafkaTopic ∧
    (s.origins x.2.partition)[x.2.offset]? = some x.1
  awaited : ∀ i, post.awaiting = some i → i < s.sends.length ∧ i ∉ post.orders.map Prod.fst
  nodup : (post.orders.map Prod.fst).Nodup
  goes : post.ended = none → post.orders.length < post.request.count
  done : ∀ end_, post.ended = some end_ → post.awaiting = none
  told : ∀ response, post.ended = some (.ok response) →
    post.orders.length = post.request.count ∧ response = post.response

/-- **The invariant**: each record of the topic is a copy of a send. -/
structure Inv (loads : String → Option Json) (dumps : Json → String) (s : Sys) : Prop where
  group : ConsumerGroup.Inv loads s.group
  counted : ∀ p, (s.origins p).length = (s.group.log p).length
  copies : ∀ (p o i : Nat), (s.origins p)[o]? = some i →
    ∃ d : Draw, s.sends[i]? = some d ∧ (s.group.log p)[o]? = some (d.record dumps)
  posts : ∀ (h : Nat) (post : Post), s.posts[h]? = some post → Served s post

theorem inv_init : Inv loads dumps {} where
  group := ConsumerGroup.inv_init
  counted _ := rfl
  copies _ _ _ h := by cases h
  posts _ _ h := by cases h

/-- Sends and records that are added change nothing for a request. -/
theorem Served.mono {s s' : Sys} {post : Post} (hs : Served s post) (hsends : s.sends <+: s'.sends)
    (horigins : ∀ p, s.origins p <+: s'.origins p) : Served s' post where
  placed x hx := by
    obtain ⟨d, hd, hid, htopic, hplace⟩ := hs.placed x hx
    exact ⟨d, Count.prefix_get hsends hd, hid, htopic, Count.prefix_get (horigins _) hplace⟩
  awaited i hi := ⟨(hs.awaited i hi).1.trans_le hsends.length_le, (hs.awaited i hi).2⟩
  nodup := hs.nodup
  goes := hs.goes
  done := hs.done
  told := hs.told

/-- One request changes. -/
theorem Inv.setPost {s s' : Sys} (hi : Inv loads dumps s) {h : Nat} {post : Post} (hgroup : s'.group = s.group)
    (horigins : s'.origins = s.origins) (hsends : s.sends <+: s'.sends) (hposts : s'.posts = s.posts.set h post)
    (hpost : Served s' post) : Inv loads dumps s' where
  group := hgroup ▸ hi.group
  counted p := by
    rw [horigins, hgroup]
    exact hi.counted p
  copies p o i hplace := by
    rw [horigins] at hplace
    obtain ⟨d, hd, hrec⟩ := hi.copies p o i hplace
    rw [hgroup]
    exact ⟨d, Count.prefix_get hsends hd, hrec⟩
  posts h' post' hget := by
    rw [hposts] at hget
    rcases Count.set_get hget with ⟨-, rfl⟩ | ⟨-, hget⟩
    · exact hpost
    · exact (hi.posts h' post' hget).mono hsends fun p => horigins ▸ List.prefix_rfl

theorem Served.new (s : Sys) (request : Request) : Served s { request } where
  placed x hx := by cases hx
  awaited i h := by cases h
  nodup := List.nodup_nil
  goes _ := by
    cases request with
    | sendOrder => exact Nat.one_pos
    | sendBulkOrders body => exact body.ge
  done end_ h := by cases h
  told response h := by cases h

/-- A handler awaits its next send. -/
theorem Served.send {s : Sys} {post : Post} (hs : Served s post) (hnone : post.ended = none) (d : Draw) {h : Nat} :
    Served { s.setPost h { post with awaiting := some s.sends.length } with sends := s.sends ++ [d] }
      { post with awaiting := some s.sends.length } := by
  have hgrown : Served { s.setPost h { post with awaiting := some s.sends.length } with sends := s.sends ++ [d] }
      post := hs.mono (List.prefix_append _ _) fun _ => List.prefix_rfl
  refine ⟨hgrown.placed, fun i hi => ?_, hs.nodup, hs.goes, fun end_ hend => ?_, fun r hend => ?_⟩
  · cases hi
    refine ⟨?_, fun hmem => ?_⟩
    · dsimp only
      rw [List.length_append]
      exact Nat.lt_succ_self _
    · -- a send that was answered is an earlier one
      obtain ⟨x, hx, hxi⟩ := List.mem_map.1 hmem
      obtain ⟨d', hd', -⟩ := hs.placed x hx
      have hlt := (List.getElem?_eq_some_iff.1 hd').1
      rw [hxi] at hlt
      exact Nat.lt_irrefl _ hlt
  · dsimp only at hend
    rw [hnone] at hend
    cases hend
  · dsimp only at hend
    rw [hnone] at hend
    cases hend

/-- **A send is answered**: its order is added, and the handler ends with the last one. -/
theorem Served.answered {s : Sys} {post : Post} (hs : Served s post) {i p o : Nat} {d : Draw}
    (hawaiting : post.awaiting = some i) (hd : s.sends[i]? = some d) (hplace : (s.origins p)[o]? = some i) :
    Served s (post.answered i ⟨d.orderId, kafkaTopic, p, o⟩) := by
  have hnone : post.ended = none := by
    cases hend : post.ended with
    | none => rfl
    | some end_ =>
      rw [hs.done end_ hend] at hawaiting
      cases hawaiting
  have hplaced : ∀ x ∈ post.orders ++ [(i, ⟨d.orderId, kafkaTopic, p, o⟩)], ∃ d : Draw, s.sends[x.1]? = some d ∧
      x.2.orderId = d.orderId ∧ x.2.topic = kafkaTopic ∧ (s.origins x.2.partition)[x.2.offset]? = some x.1 := by
    intro x hx
    rcases List.mem_append.1 hx with hx | hx
    · exact hs.placed x hx
    · rw [List.mem_singleton.1 hx]
      exact ⟨d, hd, rfl, rfl, hplace⟩
  have hnodup : ((post.orders ++ [(i, (⟨d.orderId, kafkaTopic, p, o⟩ : OrderResponse))]).map Prod.fst).Nodup := by
    rw [List.map_append]
    refine List.nodup_append.2 ⟨hs.nodup, List.nodup_singleton _, fun a ha b hb => ?_⟩
    rw [List.mem_singleton.1 hb]
    intro heq
    have heq : a = i := heq
    exact (hs.awaited i hawaiting).2 (heq ▸ ha)
  have hlt := hs.goes hnone
  unfold Post.answered
  dsimp only
  split
  · rename_i hlast
    refine ⟨hplaced, fun j hj => ?_, hnodup, fun hend => ?_, fun _ _ => rfl, fun r hend => ?_⟩
    · cases hj
    · cases hend
    · cases hend
      exact ⟨hlast, rfl⟩
  · rename_i hmore
    refine ⟨hplaced, fun j hj => ?_, hnodup, fun _ => ?_, fun _ _ => rfl, fun r hend => ?_⟩
    · cases hj
    · dsimp only at hmore ⊢
      rw [List.length_append, List.length_singleton] at hmore ⊢
      omega
    · dsimp only at hend
      rw [hnone] at hend
      cases hend

theorem Served.failed {s : Sys} {post : Post} (hs : Served s post) (error : String) :
    Served s (post.failed error) where
  placed := hs.placed
  awaited _ h := by cases h
  nodup := hs.nodup
  goes h := by cases h
  done _ _ := rfl
  told _ h := by cases h

/-- What the group does writes nothing. -/
theorem step_group_log {g g' : ConsumerGroup.Sys} {e : ConsumerGroup.Event} (he : ¬ writes e = true)
    (h : ConsumerGroup.step loads consumerId g e = some g') : g'.log = g.log := by
  cases ConsumerGroup.step_sound h with
  | produce p rec => exact absurd rfl he
  | _ => rfl

/-- **Every step keeps the invariant.** -/
theorem inv_step {s s' : Sys} {a : Action} (hi : Inv loads dumps s)
    (h : step loads dumps consumerId part s a = some s') : Inv loads dumps s' := by
  cases a with
  | post request =>
    cases h
    refine ⟨hi.group, hi.counted, hi.copies, fun h post hget => ?_⟩
    rcases Count.get_append hget with hget | ⟨-, rfl⟩
    · exact (hi.posts h post hget).mono List.prefix_rfl fun _ => List.prefix_rfl
    · exact .new _ request
  | send h' d =>
    simp only [step] at h
    split at h
    · rename_i post hpost
      split at h
      · rename_i hended _
        cases h
        exact hi.setPost rfl rfl (List.prefix_append _ _) rfl ((hi.posts h' post hpost).send hended d)
      · cases h
    · cases h
  | append i p =>
    simp only [step] at h
    split at h
    · rename_i d hd
      split at h
      · obtain ⟨group, hgroup, rfl⟩ := Option.map_eq_some_iff.1 h
        have hinv := ConsumerGroup.inv_step _ _ _ hi.group hgroup
        cases hgroup
        refine ⟨hinv, fun q => ?_, fun q o j hq => ?_, fun h post hget => ?_⟩
        · dsimp only
          split
          · rename_i hqp
            rw [List.length_append, List.length_append, hqp, hi.counted p]
            rfl
          · exact hi.counted q
        · dsimp only at hq ⊢
          split at hq
          · rename_i hqp
            rw [if_pos hqp]
            rcases Count.get_append hq with hq | ⟨rfl, rfl⟩
            · obtain ⟨d', hd', hrec⟩ := hi.copies p o j hq
              exact ⟨d', hd', hqp ▸ Count.append_get hrec⟩
            · refine ⟨d, hd, ?_⟩
              rw [hqp, hi.counted p, List.getElem?_concat_length]
          · rename_i hqp
            rw [if_neg hqp]
            exact hi.copies q o j hq
        · refine (hi.posts h post hget).mono List.prefix_rfl fun q => ?_
          dsimp only
          split
          · rename_i hqp
            rw [hqp]
            exact List.prefix_append _ _
          · exact List.prefix_rfl
      · cases h
    · cases h
  | answer h' p o =>
    simp only [step] at h
    split at h
    · rename_i post i hpost hplace
      split at h
      · rename_i d hd
        split at h
        · rename_i hawaiting
          cases h
          exact hi.setPost rfl rfl List.prefix_rfl rfl ((hi.posts h' post hpost).answered hawaiting hd hplace |>.mono
            List.prefix_rfl fun _ => List.prefix_rfl)
        · cases h
      · cases h
    · cases h
  | fail h' error =>
    simp only [step] at h
    split at h
    · rename_i post hpost
      split at h
      · cases h
        exact hi.setPost rfl rfl List.prefix_rfl rfl ((hi.posts h' post hpost).failed error |>.mono
          List.prefix_rfl fun _ => List.prefix_rfl)
      · cases h
    · cases h
  | group e =>
    simp only [step] at h
    split at h
    · cases h
    · rename_i hwrites
      obtain ⟨group, hgroup, rfl⟩ := Option.map_eq_some_iff.1 h
      have hlog := step_group_log hwrites hgroup
      refine ⟨ConsumerGroup.inv_step _ _ _ hi.group hgroup, fun p => ?_, fun p o i hplace => ?_, fun h post hget => ?_⟩
      · dsimp only
        rw [hlog]
        exact hi.counted p
      · dsimp only
        rw [hlog]
        exact hi.copies p o i hplace
      · exact (hi.posts h post hget).mono List.prefix_rfl fun _ => List.prefix_rfl

theorem reachable_inv {s : Sys} (h : (lts loads dumps consumerId part).Reachable s) : Inv loads dumps s :=
  (lts loads dumps consumerId part).reachable_inv inv_init (fun _ _ _ hi hs => inv_step hi hs) h

/-! ## What an answer tells -/

def Response.orders : Response → List OrderResponse
  | .order answer => [answer]
  | .bulk _ answers => answers

theorem Post.response_orders (post : Post) : post.response.orders = post.orders.map Prod.snd := by
  unfold Post.response
  split
  · rename_i order _ horders
    rw [horders]
    rfl
  · rfl

/-- The record at a place is the order's. -/
def Holds (dumps : Json → String) (s : Sys) (order : OrderResponse) : Prop :=
  ∃ d ∈ s.sends, order.orderId = d.orderId ∧ (s.group.log order.partition)[order.offset]? = some (d.record dumps)

/-- **An answer has as many orders as were asked for**, each with a place of its own where its record is. -/
theorem Inv.response {s : Sys} (hi : Inv loads dumps s) {h : Nat} {post : Post} {response : Response}
    (hpost : s.posts[h]? = some post) (hended : post.ended = some (.ok response)) :
    response.orders.length = post.request.count ∧
      (response.orders.map fun order => (order.partition, order.offset)).Nodup ∧
      ∀ order ∈ response.orders, Holds dumps s order := by
  have hs := hi.posts h post hpost
  obtain ⟨hlen, rfl⟩ := hs.told response hended
  rw [post.response_orders]
  refine ⟨(List.length_map _).trans hlen, ?_, fun order horder => ?_⟩
  · -- a place has one origin, and the origins are different
    have horigins : (post.orders.map fun x => (s.origins x.2.partition)[x.2.offset]?) =
        (post.orders.map Prod.fst).map some := by
      rw [List.map_map]
      exact List.map_congr_left fun x hx => (hs.placed x hx).choose_spec.2.2.2
    rw [List.map_map]
    refine List.Nodup.of_map (fun place : Nat × Nat => (s.origins place.1)[place.2]?) ?_
    rw [List.map_map]
    change (post.orders.map fun x => (s.origins x.2.partition)[x.2.offset]?).Nodup
    rw [horigins]
    exact hs.nodup.map (Option.some_injective _)
  · obtain ⟨x, hx, rfl⟩ := List.mem_map.1 horder
    obtain ⟨d, hd, hid, -, hplace⟩ := hs.placed x hx
    obtain ⟨d', hd', hrec⟩ := hi.copies _ _ _ hplace
    rw [hd, Option.some.injEq] at hd'
    subst hd'
    exact ⟨d, List.mem_of_getElem? hd, hid, hrec⟩

/-! ## What the group reads -/

theorem keyDeserializer_keySerializer {k : String} (hne : k ≠ "") :
    ConsumerGroup.keyDeserializer (keySerializer k) = some (some k) := by
  have hsize : ¬ k.toUTF8.size = 0 := by
    intro hsize
    have hempty := ByteArray.size_eq_zero_iff.1 hsize
    have hback := Text.fromUTF8?_toUTF8 k
    rw [hempty] at hback
    exact hne (Option.some.inj hback).symm
  rw [keySerializer, if_neg hne, ConsumerGroup.keyDeserializer, if_neg hsize, Text.fromUTF8?_toUTF8]
  rfl

/-- **The group reads what was sent.** -/
theorem messageInfo_record {d : Draw} (hjson : loads (dumps d.orderData) = some d.orderData) (cid : String)
    (p o : Nat) (now : String) : ConsumerGroup.messageInfo loads cid p o (d.record dumps) now =
      some ⟨cid, p, o, some d.orderId, d.orderData, d.timestamp, now⟩ := by
  have hvalue : ConsumerGroup.valueDeserializer loads (some (valueSerializer dumps d.orderData)) =
      some d.orderData := by
    change (String.fromUTF8? (dumps d.orderData).toUTF8).bind loads = _
    rw [Text.fromUTF8?_toUTF8]
    exact hjson
  unfold ConsumerGroup.messageInfo Draw.record
  dsimp only
  rw [keyDeserializer_keySerializer d.orderId_ne_empty, hvalue]

end GroupOrders
end KafkaGuide
