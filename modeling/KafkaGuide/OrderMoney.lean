import KafkaGuide.Lib.DecimalText
import KafkaGuide.Outbox
/-!
# OrderMoney — POST /orders of the outbox service and its amounts (`12-outbox-pattern/app/main.py`)

One transaction writes the total of an order twice: into the NUMERIC(12,2) column of its row and, as the text of a
Decimal, into the payload of its event, beside the items it is the sum of.  The Decimal has 28 digits, the column two
decimals; the prices of a request have as many as they like.
-/
namespace KafkaGuide
namespace Outbox

/-! ## The request (`schemas.py`) -/

structure OrderItem where
  productId : String
  quantity : Nat
  price : Decimal
  quantity_pos : 0 < quantity
  price_pos : 0 < price.coeff

structure CreateOrderRequest where
  userId : String
  items : List OrderItem
  items_ne_nil : items ≠ []

/-! ## The transaction (`main.py`) -/

/-- A value as `json.dumps` meets it: of JSON's own types, or one its `default` is called for. -/
inductive Value where
  | json (v : Json)
  | decimal (d : Decimal)
  | uuid (u : Uuid)

/-- `_to_jsonable` of a value, with `_json_default` for the last two. -/
def Value.jsonable : Value → Json
  | .json v => v
  | .decimal d => .str d.toText
  | .uuid u => .str u.str

/-- `_to_jsonable` of a dict. -/
def toJsonable (d : List (String × Value)) : Json.Members := d.map (fun p => (p.1, p.2.jsonable))

def OrderItem.modelDump (item : OrderItem) : List (String × Value) :=
  [("product_id", .json (.str item.productId)), ("quantity", .json (.num item.quantity)),
    ("price", .decimal item.price)]

/-- `total + item.price * item.quantity`, `none` where it raises. -/
def addItem (total : Decimal) (item : OrderItem) : Option Decimal :=
  (Decimal.mul Decimal.defaultContext item.price (.ofNat item.quantity)).bind (Decimal.add Decimal.defaultContext total)

/-- `sum((item.price * item.quantity for item in items), Decimal("0"))`. -/
def totalPrice (items : List OrderItem) : Option Decimal := items.foldlM addItem ⟨0, 0⟩

def itemsPayload (items : List OrderItem) : Json := .arr (items.map (fun item => .obj (toJsonable item.modelDump)))

def orderPayload (orderId : Uuid) (request : CreateOrderRequest) (total : Decimal) : Json.Members :=
  toJsonable [("order_id", .json (.str orderId.str)), ("user_id", .json (.str request.userId)),
    ("items", .json (itemsPayload request.items)), ("total_price", .decimal total)]

/-- A row of `orders`. -/
structure OrderRow where
  orderId : Uuid
  userId : String
  items : Json
  totalPrice : ℚ
  status : String

/-- `NUMERIC(12, 2)`: half away from zero to hundredths, `none` where the value is rejected. -/
def numeric (q : ℚ) : Option ℚ := if ⌊100 * q + 1 / 2⌋₊ < 10 ^ 12 then some (⌊100 * q + 1 / 2⌋₊ / 100) else none

structure Committed where
  order : OrderRow
  event : OutboxEvent

/-- `create_order` up to its commit, `none` where it raises: `accepts` is whether the database takes the rest of the two
rows. -/
def createOrder (accepts : OrderRow → OutboxEvent → Bool) (orderId eventId : Uuid) (request : CreateOrderRequest) :
    Option Committed :=
  (totalPrice request.items).bind fun total =>
    let event := enqueueEvent "Order" orderId.str "OrderCreated" "order.events" (orderPayload orderId request total)
      (some [("schema_version", .str "1")]) none eventId
    (numeric total.toRat).bind fun persisted =>
      let order : OrderRow :=
        { orderId, userId := request.userId, items := itemsPayload request.items, totalPrice := persisted,
          status := "CREATED" }
      if accepts order event then some ⟨order, event⟩ else none

/-! ## The three amounts -/

/-- A member of the payload that is the text of a number. -/
def amountAt (d : Json.Members) (k : String) : Option ℚ :=
  match Json.get d k with
  | .str text => (Decimal.ofText text).map Decimal.toRat
  | _ => none

def itemAmount : Json → Option ℚ
  | .obj item => match amountAt item "price", Json.get item "quantity" with
    | some price, .num quantity => some (price * quantity)
    | _, _ => none
  | _ => none

/-- The sum of `price * quantity` over the payload's items. -/
def payloadSum (payload : Json.Members) : Option ℚ :=
  match Json.get payload "items" with
  | .arr items => (items.mapM itemAmount).map List.sum
  | _ => none

/-- The row's total is the payload's, and the sum over the payload's items. -/
def Committed.Agrees (c : Committed) : Prop :=
  amountAt c.event.payload "total_price" = some c.order.totalPrice ∧
    payloadSum c.event.payload = some c.order.totalPrice

/-- The sum of `price * quantity`, exactly. -/
def exactSum (items : List OrderItem) : ℚ := (items.map (fun item => item.price.toRat * (item.quantity : ℚ))).sum

/-- One more product, rounded to 28 digits before and after it is added. -/
def addRounded (total : ℚ) (item : OrderItem) : ℚ :=
  Decimal.defaultContext.round (total + Decimal.defaultContext.round (item.price.toRat * (item.quantity : ℚ)))

/-- The sum that is rounded to 28 digits after each product and each addition. -/
def roundedSum (items : List OrderItem) : ℚ :=
  items.foldl addRounded 0

def WholeCents (q : ℚ) : Prop := ∃ n : Nat, q = n / 100

/-! ## What is written -/

theorem addItem_toRat {total total' : Decimal} {item : OrderItem} (h : addItem total item = some total') :
    total'.toRat = addRounded total.toRat item := by
  obtain ⟨product, hmul, hadd⟩ := Option.bind_eq_some_iff.1 h
  rw [Decimal.add_toRat hadd, Decimal.mul_toRat hmul, Decimal.toRat_ofNat]
  rfl

theorem foldlM_toRat : ∀ (items : List OrderItem) {acc total : Decimal}, items.foldlM addItem acc = some total →
    total.toRat = items.foldl addRounded acc.toRat
  | [], acc, total, h => by
    cases h
    rfl
  | item :: items, acc, total, h => by
    rw [List.foldlM_cons] at h
    obtain ⟨acc', hitem, hrest⟩ := Option.bind_eq_some_iff.1 h
    rw [foldlM_toRat items hrest, List.foldl_cons, addItem_toRat hitem]

/-- **The Decimal total is the rounded sum.** -/
theorem totalPrice_toRat {items : List OrderItem} {total : Decimal} (h : totalPrice items = some total) :
    total.toRat = roundedSum items := by
  have hzero : Decimal.toRat ⟨0, 0⟩ = 0 := by simp [Decimal.toRat]
  rw [foldlM_toRat items h, hzero]
  rfl

theorem createOrder_cases {accepts : OrderRow → OutboxEvent → Bool} {orderId eventId : Uuid}
    {request : CreateOrderRequest} {c : Committed} (h : createOrder accepts orderId eventId request = some c) :
    ∃ total, totalPrice request.items = some total ∧ c.event.payload = orderPayload orderId request total ∧
      numeric total.toRat = some c.order.totalPrice := by
  unfold createOrder at h
  obtain ⟨total, htotal, h⟩ := Option.bind_eq_some_iff.1 h
  obtain ⟨persisted, hnumeric, h⟩ := Option.bind_eq_some_iff.1 h
  dsimp only at h
  split at h
  · cases h
    exact ⟨total, htotal, rfl, hnumeric⟩
  · cases h

theorem amountAt_decimal {d : Json.Members} {k : String} {p : Decimal} (h : Json.get d k = .str p.toText) :
    amountAt d k = some p.toRat := by
  unfold amountAt
  rw [h]
  dsimp only
  rw [Decimal.ofText_toText, Option.map_some]

theorem itemAmount_dump (item : OrderItem) :
    itemAmount (.obj (toJsonable item.modelDump)) = some (item.price.toRat * (item.quantity : ℚ)) := by
  have hprice : amountAt (toJsonable item.modelDump) "price" = some item.price.toRat := amountAt_decimal rfl
  have hquantity : Json.get (toJsonable item.modelDump) "quantity" = .num item.quantity := rfl
  simp only [itemAmount, hprice, hquantity]

/-- **The payload's items sum up to the exact sum.** -/
theorem payloadSum_order (orderId : Uuid) (request : CreateOrderRequest) (total : Decimal) :
    payloadSum (orderPayload orderId request total) = some (exactSum request.items) := by
  have hitems : Json.get (orderPayload orderId request total) "items" = itemsPayload request.items := rfl
  unfold payloadSum
  rw [hitems]
  unfold itemsPayload
  dsimp only
  have hamounts : ∀ items : List OrderItem,
      (items.map (fun item => Json.obj (toJsonable item.modelDump))).mapM itemAmount =
        some (items.map (fun item => item.price.toRat * (item.quantity : ℚ))) := by
    intro items
    induction items with
    | nil => rfl
    | cons item items ih =>
      rw [List.map_cons, List.mapM_cons, itemAmount_dump, ih]
      rfl
  rw [hamounts, Option.map_some]
  rfl

/-- What the column keeps as it is. -/
theorem numeric_eq_self_iff {q p : ℚ} (h : numeric q = some p) : p = q ↔ WholeCents q := by
  unfold numeric at h
  split at h
  · cases h
    constructor
    · intro heq
      exact ⟨_, heq.symm⟩
    · rintro ⟨n, rfl⟩
      have hcents : ⌊100 * ((n : ℚ) / 100) + 1 / 2⌋₊ = n := by
        rw [mul_div_cancel₀ (n : ℚ) (by norm_num), Nat.floor_eq_iff (by positivity)]
        constructor <;> linarith
      rw [hcents]
  · cases h

/-- **What the three amounts are** of an order that commits. -/
theorem agrees_iff_rounded {accepts : OrderRow → OutboxEvent → Bool} {orderId eventId : Uuid}
    {request : CreateOrderRequest} {c : Committed} (h : createOrder accepts orderId eventId request = some c) :
    c.Agrees ↔ roundedSum request.items = exactSum request.items ∧ WholeCents (exactSum request.items) := by
  obtain ⟨total, htotal, hpayload, hnumeric⟩ := createOrder_cases h
  have hrounded := totalPrice_toRat htotal
  have hamount : amountAt c.event.payload "total_price" = some total.toRat := by
    rw [hpayload]
    exact amountAt_decimal rfl
  have hsum : payloadSum c.event.payload = some (exactSum request.items) := by
    rw [hpayload, payloadSum_order]
  have hself := numeric_eq_self_iff hnumeric
  unfold Committed.Agrees
  rw [hamount, hsum, Option.some.injEq, Option.some.injEq]
  constructor
  · rintro ⟨htp, hep⟩
    have hexact : roundedSum request.items = exactSum request.items := by rw [← hrounded, htp, hep]
    refine ⟨hexact, ?_⟩
    rw [← hexact, ← hrounded]
    exact hself.1 htp.symm
  · rintro ⟨hexact, hcents⟩
    have hp : c.order.totalPrice = total.toRat := by
      rw [hself, hrounded, hexact]
      exact hcents
    exact ⟨hp.symm, by rw [hp, hrounded, hexact]⟩

/-! ## Prices of at most 18 decimals -/

/-- A number of 18 decimals. -/
def Fine (q : ℚ) : Prop := ∃ n : Nat, q = n * 10 ^ (-18 : Int)

theorem Fine.add {q r : ℚ} (hq : Fine q) (hr : Fine r) : Fine (q + r) := by
  obtain ⟨n, rfl⟩ := hq
  obtain ⟨m, rfl⟩ := hr
  exact ⟨n + m, by push_cast; ring⟩

theorem Fine.mul_nat {q : ℚ} (hq : Fine q) (k : Nat) : Fine (q * k) := by
  obtain ⟨n, rfl⟩ := hq
  exact ⟨n * k, by push_cast; ring⟩

theorem fine_price {d : Decimal} (h : -18 ≤ d.exp) : Fine d.toRat :=
  ⟨_, (Decimal.toRat_align d h).symm⟩

/-- **Such a number below 10^10 has 28 digits**, and is rounded to itself. -/
theorem round_fine {q : ℚ} (hq : Fine q) (hlt : q < 10 ^ 10) : Decimal.defaultContext.round q = q := by
  obtain ⟨n, rfl⟩ := hq
  have hn : n < 10 ^ 28 := by
    have hpow : (10 : ℚ) ^ 10 = 10 ^ 28 * 10 ^ (-18 : Int) := by norm_num
    rw [hpow] at hlt
    have := lt_of_mul_lt_mul_right hlt (zpow_pos (by norm_num) _).le
    exact_mod_cast this
  have he : Decimal.defaultContext.etiny ≤ -18 := by decide
  exact Decimal.round_eq_self Decimal.defaultContext (d := ⟨n, -18⟩) hn he

theorem le_round {q : ℚ} (h : 10 ^ 10 ≤ q) : 10 ^ 10 ≤ Decimal.defaultContext.round q := by
  have := Decimal.zpow_le_round Decimal.defaultContext (j := 10) (by decide) (q := q) (by exact_mod_cast h)
  exact_mod_cast this

/-- What the column cannot hold stays too much. -/
theorem tooMuch_stays : ∀ (items : List OrderItem) {acc : ℚ}, 10 ^ 10 ≤ acc → 10 ^ 10 ≤ items.foldl addRounded acc
  | [], _, h => h
  | item :: items, acc, h => by
    apply tooMuch_stays items
    apply le_round
    have := Decimal.round_nonneg Decimal.defaultContext (item.price.toRat * (item.quantity : ℚ))
    linarith

/-- **Nothing is rounded** until the total is too much for the column. -/
theorem fold_fine : ∀ (items : List OrderItem) {acc : ℚ}, Fine acc → (∀ item ∈ items, -18 ≤ item.price.exp) →
    items.foldl addRounded acc = acc + exactSum items ∨ 10 ^ 10 ≤ items.foldl addRounded acc
  | [], acc, _, _ => .inl (by simp [exactSum])
  | item :: items, acc, hacc, hexp => by
    have hamount : Fine (item.price.toRat * (item.quantity : ℚ)) :=
      (fine_price (hexp item List.mem_cons_self)).mul_nat item.quantity
    have hrest : ∀ x ∈ items, -18 ≤ x.price.exp := fun x hx => hexp x (List.mem_cons_of_mem _ hx)
    have hnonneg : 0 ≤ acc := by
      obtain ⟨n, rfl⟩ := hacc
      positivity
    rw [List.foldl_cons]
    by_cases hsmall : acc + item.price.toRat * (item.quantity : ℚ) < 10 ^ 10
    · have hproduct : item.price.toRat * (item.quantity : ℚ) < 10 ^ 10 := by linarith
      have hstep : addRounded acc item = acc + item.price.toRat * (item.quantity : ℚ) := by
        unfold addRounded
        rw [round_fine hamount hproduct, round_fine (hacc.add hamount) hsmall]
      rw [hstep]
      have hsum : exactSum (item :: items) = item.price.toRat * (item.quantity : ℚ) + exactSum items := by
        simp [exactSum]
      rw [hsum, ← add_assoc]
      exact fold_fine items (hacc.add hamount) hrest
    · refine .inr (tooMuch_stays items (le_round ?_))
      by_cases hproduct : item.price.toRat * (item.quantity : ℚ) < 10 ^ 10
      · rw [round_fine hamount hproduct]
        exact not_lt.1 hsmall
      · have := le_round (not_lt.1 hproduct)
        linarith

theorem numeric_lt {q p : ℚ} (h : numeric q = some p) : q < 10 ^ 10 := by
  by_contra hge
  have hfloor : 10 ^ 12 ≤ ⌊100 * q + 1 / 2⌋₊ := by
    apply Nat.le_floor
    push_cast
    linarith
  unfold numeric at h
  rw [if_neg (not_lt.2 hfloor)] at h
  cases h

theorem rounded_eq_exact {accepts : OrderRow → OutboxEvent → Bool} {orderId eventId : Uuid}
    {request : CreateOrderRequest} {c : Committed} (h : createOrder accepts orderId eventId request = some c)
    (hexp : ∀ item ∈ request.items, -18 ≤ item.price.exp) : roundedSum request.items = exactSum request.items := by
  obtain ⟨total, htotal, -, hnumeric⟩ := createOrder_cases h
  have hlt := numeric_lt hnumeric
  rw [totalPrice_toRat htotal] at hlt
  have hzero : Fine 0 := ⟨0, by simp⟩
  rcases fold_fine request.items hzero hexp with heq | hge
  · rwa [zero_add] at heq
  · exact absurd hge (not_le.2 hlt)

/-- **Row and event agree on money** exactly when the sum of `price * quantity` is a whole number of hundredths and the
roundings to 28 digits cancel out, as they do, there being none, where no price has more than 18 decimals. -/
theorem money_agrees_iff {accepts : OrderRow → OutboxEvent → Bool} {orderId eventId : Uuid}
    {request : CreateOrderRequest} {c : Committed} (h : createOrder accepts orderId eventId request = some c) :
    (c.Agrees ↔ roundedSum request.items = exactSum request.items ∧ WholeCents (exactSum request.items)) ∧
      ((∀ item ∈ request.items, -18 ≤ item.price.exp) → (c.Agrees ↔ WholeCents (exactSum request.items))) := by
  have hiff := agrees_iff_rounded h
  refine ⟨hiff, fun hexp => ?_⟩
  rw [hiff, and_iff_right (rounded_eq_exact h hexp)]

def orderUuid : Uuid := ⟨"3b8d51f7-6c0e-4a92-9f13-d27a80e5b64c", by decide⟩

/-- Two pieces at 15.25. -/
def plainRequest : CreateOrderRequest where
  userId := "u1"
  items := [⟨"sku-a", 2, ⟨1525, -2⟩, by decide, by decide⟩]
  items_ne_nil := List.cons_ne_nil _ _

theorem money_agrees_plain : ∃ c, createOrder (fun _ _ => true) orderUuid orderUuid plainRequest = some c ∧
    (c.Agrees ↔ WholeCents (exactSum plainRequest.items)) := by
  obtain ⟨c, hc⟩ : ∃ c, createOrder (fun _ _ => true) orderUuid orderUuid plainRequest = some c :=
    Option.isSome_iff_exists.1 (by decide +kernel)
  refine ⟨c, hc, (money_agrees_iff hc).2 ?_⟩
  intro item hitem
  rw [List.mem_singleton.1 hitem]
  decide

/-- One piece at 0.005. -/
def halfCent : CreateOrderRequest where
  userId := "u1"
  items := [⟨"sku-a", 1, ⟨5, -3⟩, by decide, by decide⟩]
  items_ne_nil := List.cons_ne_nil _ _

/-- The row has 0.01 and the event 0.005. -/
theorem halfCent_disagrees : ∃ c, createOrder (fun _ _ => true) orderUuid orderUuid halfCent = some c ∧
    c.order.totalPrice = 1 / 100 ∧ amountAt c.event.payload "total_price" = some (5 / 1000) ∧ ¬ c.Agrees := by
  obtain ⟨c, hc⟩ : ∃ c, createOrder (fun _ _ => true) orderUuid orderUuid halfCent = some c :=
    Option.isSome_iff_exists.1 (by decide +kernel)
  have hboth : (createOrder (fun _ _ => true) orderUuid orderUuid halfCent).map
      (fun c => (c.order.totalPrice, amountAt c.event.payload "total_price")) = some (1 / 100, some (5 / 1000)) := by
    decide +kernel
  rw [hc, Option.map_some, Option.some.injEq, Prod.mk.injEq] at hboth
  refine ⟨c, hc, hboth.1, hboth.2, fun h => ?_⟩
  have heq := h.1
  rw [hboth.1, hboth.2, Option.some.injEq] at heq
  norm_num at heq

end Outbox
end KafkaGuide
