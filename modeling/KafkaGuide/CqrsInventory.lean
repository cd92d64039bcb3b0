import Mathlib.Algebra.Order.Ring.Rat
import KafkaGuide.Lib.ConsumerLoop
import KafkaGuide.Lib.Json
/-!
# CqrsInventory — the inventory service (`11-multi-service-architecture/inventory-service/app`)

The loop's body awaits the simulated check of the stock and then the publication of its result; every exception of it is
caught and logged, so the loop goes on with the next order.
-/
namespace KafkaGuide
namespace Cqrs

/-- An entry of `reservation_records`. -/
inductive ReservationRecord where
  | reserved (items : Json)
  | failed (reason : String)

/-- The records, and the topic `inventory.result` with its keys. -/
structure InventoryStore where
  reservationRecords : Dict Json.Key ReservationRecord := .empty
  results : List (Option String × Json.Members) := []

/-- The awaits of the body: the delay of the check, and the publication of its result, which may be on the topic. -/
inductive InventoryAwait where
  | check (orderId items : Json)
  | publish (resultEvent : Json.Members) (landed : Bool)

/-- What happens at an await: the delay is over, with the values of `random` and the clock; the result lands on its
topic; `publish_inventory_result` returns, or raises. -/
inductive InventoryReturn where
  | check (random : ℚ) (warehouse : Fin 5) (choice : Nat) (now : String)
  | land
  | published
  | publishFailed

/-- The loop's environment: `json.loads`, `str` on a value that is no string, and `INVENTORY_FAILURE_RATE`. -/
structure InventoryEnv where
  loads : String → Option Json
  str : Json → String
  failureRate : ℚ

variable (env : InventoryEnv)

/-- A value in an f-string. -/
def InventoryEnv.format : Json → String
  | .str s => s
  | v => env.str v

/-- `len(items)` is defined. -/
def sized : Json → Bool
  | .str _ | .arr _ | .obj _ => true
  | _ => false

/-- `random.choice(items) if items else {}`, as far as it is an object; `choice` is the index drawn. -/
def failedItem (items : Json) (choice : Nat) : Option Json.Members :=
  if items.truthy = false then some []
  else match items with
    | .arr xs => match xs[choice]? with
      | some (.obj item) => some item
      | _ => none
    | _ => none

/-- The result of a check and its record, `none` where the body raises before it has either. -/
def inventoryResult (orderId items : Json) (random : ℚ) (warehouse : Fin 5) (choice : Nat) (now : String) :
    Option (Json.Members × ReservationRecord) :=
  if env.failureRate < random then
    some ([("event_type", .str "INVENTORY_RESERVED"), ("order_id", orderId), ("items", items),
      ("warehouse_id", .str ("WH-00" ++ toString (warehouse.val + 1))), ("timestamp", .str now)], .reserved items)
  else
    (failedItem items choice).map fun item =>
      let reason := "상품 '" ++ env.format (Json.get item "product_name" (.str "알 수 없음")) ++ "' 재고 부족"
      ([("event_type", .str "INVENTORY_FAILED"), ("order_id", orderId), ("reason", .str reason),
        ("failed_items", .arr [Json.get item "product_id" (.str "")]), ("timestamp", .str now)], .failed reason)

/-- The body of `start_consumer`, to its first await.  A value that is no object has no `get` and `items` may have no
length: both are caught. -/
def receiveForStock (st : InventoryStore) (value : Json) : InventoryStore × Stretch InventoryAwait :=
  match value with
  | .obj event =>
    let items := Json.get event "items" (.arr [])
    if sized items then (st, .await (.check (Json.get event "order_id" (.str "")) items)) else (st, .done)
  | _ => (st, .done)

/-- The body of `start_consumer`, from an await on, for an index `choice` that `random.choice` can draw.  An unhashable
`order_id` has no record, and one that is no string but truthy is no key of a message. -/
def advanceInventory (st : InventoryStore) :
    InventoryAwait → InventoryReturn → Option (InventoryStore × Stretch InventoryAwait)
  | .check orderId items, .check random warehouse choice now =>
    match items with
    | .arr xs =>
      if choice < max xs.length 1 then reserve orderId items random warehouse choice now else none
    | _ => reserve orderId items random warehouse choice now
  | .publish resultEvent false, .land =>
    (Json.get resultEvent "order_id" (.str "")).encodeKey.map fun key =>
      ({ st with results := st.results ++ [(key, resultEvent)] }, .await (.publish resultEvent true))
  | .publish _ true, .published => some (st, .done)
  | .publish _ _, .publishFailed => some (st, .done)
  | _, _ => none
where
  reserve (orderId items : Json) (random : ℚ) (warehouse : Fin 5) (choice : Nat) (now : String) :
      Option (InventoryStore × Stretch InventoryAwait) :=
    match inventoryResult env orderId items random warehouse choice now, orderId.key? with
    | some (resultEvent, record), some k =>
      some ({ st with reservationRecords := st.reservationRecords.set k record },
        .await (.publish resultEvent false))
    | _, _ => some (st, .done)

variable {env} in
/-- **What a publication can do**: its result lands, or it is over. -/
theorem advanceInventory_publish {st : InventoryStore} {resultEvent : Json.Members} {landed : Bool}
    {r : InventoryReturn} {p : InventoryStore × Stretch InventoryAwait}
    (h : advanceInventory env st (.publish resultEvent landed) r = some p) :
    (landed = false ∧ r = .land ∧ ∃ key,
      p = ({ st with results := st.results ++ [(key, resultEvent)] }, .await (.publish resultEvent true))) ∨
    p = (st, .done) ∧ (r = .publishFailed ∨ landed = true ∧ r = .published) := by
  cases r with
  | check random warehouse choice now => cases landed <;> cases h
  | land =>
    cases landed with
    | false =>
      obtain ⟨key, -, rfl⟩ := Option.map_eq_some_iff.1 h
      exact .inl ⟨rfl, rfl, key, rfl⟩
    | true => cases h
  | published =>
    cases landed with
    | false => cases h
    | true =>
      cases h
      exact .inr ⟨rfl, .inr ⟨rfl, rfl⟩⟩
  | publishFailed =>
    cases landed with
    | false =>
      cases h
      exact .inr ⟨rfl, .inl rfl⟩
    | true =>
      cases h
      exact .inr ⟨rfl, .inl rfl⟩

variable {env} in
/-- **What the end of a check can do**: its result is recorded and its publication starts, or the body is over. -/
theorem advanceInventory_check {st : InventoryStore} {orderId items : Json} {r : InventoryReturn}
    {p : InventoryStore × Stretch InventoryAwait} (h : advanceInventory env st (.check orderId items) r = some p) :
    p = (st, .done) ∨ ∃ random warehouse choice now resultEvent record records,
      inventoryResult env orderId items random warehouse choice now = some (resultEvent, record) ∧
        p = ({ st with reservationRecords := records }, .await (.publish resultEvent false)) := by
  cases r with
  | check random warehouse choice now =>
    have hreserve : advanceInventory.reserve env st orderId items random warehouse choice now = some p := by
      dsimp only [advanceInventory] at h
      split at h
      · split at h
        · exact h
        · cases h
      · exact h
    unfold advanceInventory.reserve at hreserve
    split at hreserve
    · rename_i hresult _
      cases hreserve
      exact .inr ⟨random, warehouse, choice, now, _, _, _, hresult, rfl⟩
    · cases hreserve
      exact .inl rfl
  | _ => cases h

/-- `start_consumer` of the inventory service. -/
def inventoryLoop : ConsumerLoop ByteArray Json InventoryStore InventoryAwait Unit InventoryReturn where
  decode := Json.ofBytes env.loads
  init := {}
  receive st value _ := receiveForStock st value
  advance := advanceInventory env

end Cqrs
end KafkaGuide
