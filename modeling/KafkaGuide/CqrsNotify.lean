import KafkaGuide.CqrsSettled
import KafkaGuide.Lib.Count
import KafkaGuide.Lib.Grouped
/-!
# CqrsNotify — the notification service (`11-multi-service-architecture/notification-service/app`)

The loop's body builds the message of an event and keeps a notification with it.  `build_message` formats the texts of
all types before it picks one, so an `amount` that cannot be formatted raises whatever the event's type is; that is
caught and logged, and the loop goes on without a notification.
-/
namespace KafkaGuide
namespace Cqrs

/-- An entry of `sent_notifications`. -/
structure Notification where
  notificationId : String
  orderId : Json
  userId : Json
  eventType : Json
  channel : String
  message : String
  status : String
  sentAt : String

/-- The environment of the loop: `double` is the float of a number, `none` where an integer has none. -/
structure NotifyEnv extends Env where
  double : ℚ → Option ℚ
  double_zero : double 0 = some 0

variable (env : NotifyEnv)

/-- `f"{v:,.0f}"`: `none` where it raises. -/
def NotifyEnv.amount : Json → Option String
  | .num q => (env.double q).map Grouped.format
  | .bool b => some (Grouped.format (if b then 1 else 0))
  | _ => none

/-- The dictionary `messages` of `build_message`. -/
def messages (orderId amount : String) (eventData : Json.Members) : List (Json.Key × String) :=
  [(.str "ORDER_CREATED", "주문이 접수되었습니다! (주문번호: " ++ orderId ++ ") " ++ "결제 및 재고 확인 중입니다."),
    (.str "PAYMENT_COMPLETED", "결제가 완료되었습니다! (주문번호: " ++ orderId ++ ") " ++ "금액: " ++ amount ++ "원"),
    (.str "PAYMENT_FAILED", "결제에 실패했습니다. (주문번호: " ++ orderId ++ ") " ++ "사유: " ++
      env.format (Json.get eventData "reason" (.str "알 수 없는 오류"))),
    (.str "INVENTORY_RESERVED", "상품이 준비되었습니다! (주문번호: " ++ orderId ++ ") " ++ "곧 배송이 시작됩니다."),
    (.str "INVENTORY_FAILED", "죄송합니다. 재고가 부족합니다. (주문번호: " ++ orderId ++ ") " ++ "사유: " ++
      env.format (Json.get eventData "reason" (.str "재고 부족")))]

/-- The record's amount can be formatted, or what stands for one it has not. -/
def NotifyEnv.formats (event : Json.Members) : Bool := (env.amount (Json.get event "amount" (.num 0))).isSome

/-- The types of the services' events. -/
def eventTypes : List String :=
  ["ORDER_CREATED", "PAYMENT_COMPLETED", "PAYMENT_FAILED", "INVENTORY_RESERVED", "INVENTORY_FAILED"]

/-- **What a notification says** of an event: its order and type, who ordered if the event tells it, and the message of
the type, with the float of the order's price to the whole won for a payment and the event's reason for a failure. -/
structure Notification.Says (u : Uuid) (request : CreateOrderRequest) (event : Json.Members) (n : Notification) :
    Prop where
  orderId : n.orderId = .str u.str
  eventType : n.eventType = Json.get event "event_type" (.str "")
  known : ∃ type ∈ eventTypes, n.eventType = .str type
  userId : n.userId = if n.eventType.isStr "ORDER_CREATED" then .str request.userId else .null
  created : n.eventType.isStr "ORDER_CREATED" = true →
    n.message = "주문이 접수되었습니다! (주문번호: " ++ u.str ++ ") " ++ "결제 및 재고 확인 중입니다."
  paid : n.eventType.isStr "PAYMENT_COMPLETED" = true → ∃ text amount double,
    n.message = "결제가 완료되었습니다! (주문번호: " ++ u.str ++ ") " ++ "금액: " ++ text ++ "원" ∧
      env.double (request.items.map (fun item => item.price * (item.quantity : ℚ))).sum = some double ∧
      Grouped.read? text = some amount ∧ |(amount : ℚ) - double| ≤ 1 / 2
  reserved : n.eventType.isStr "INVENTORY_RESERVED" = true →
    n.message = "상품이 준비되었습니다! (주문번호: " ++ u.str ++ ") " ++ "곧 배송이 시작됩니다."
  unpaid : n.eventType.isStr "PAYMENT_FAILED" = true → ∃ reason, Json.get event "reason" = .str reason ∧
    n.message = "결제에 실패했습니다. (주문번호: " ++ u.str ++ ") " ++ "사유: " ++ reason
  unreserved : n.eventType.isStr "INVENTORY_FAILED" = true → ∃ reason, Json.get event "reason" = .str reason ∧
    n.message = "죄송합니다. 재고가 부족합니다. (주문번호: " ++ u.str ++ ") " ++ "사유: " ++ reason

/-- What an event of an order has for its message: an amount that can be formatted, and what its type tells. -/
structure Tells (u : Uuid) (request : CreateOrderRequest) (event : Json.Members) (type text : String) : Prop where
  orderId : Dict.find "order_id" event = some (.str u.str)
  eventType : Json.get event "event_type" (.str "") = .str type
  known : type ∈ eventTypes
  amount : env.amount (Json.get event "amount" (.num 0)) = some text
  userId : Json.get event "user_id" = if type = "ORDER_CREATED" then .str request.userId else .null
  paid : type = "PAYMENT_COMPLETED" →
    ∃ double, env.double (totalPrice request.items) = some double ∧ text = Grouped.format double
  reason : type = "PAYMENT_FAILED" ∨ type = "INVENTORY_FAILED" →
    ∃ reason, Dict.find "reason" event = some (.str reason)

/-- An event without an amount formats the default. -/
theorem amount_absent {event : Json.Members} (h : Dict.find "amount" event = none) :
    env.amount (Json.get event "amount" (.num 0)) = some (Grouped.format 0) := by
  rw [Json.get, h, Option.getD_none, NotifyEnv.amount, env.double_zero, Option.map_some]

theorem created_tells (u : Uuid) (request : CreateOrderRequest) (now : String) :
    Tells env u request (createOrder .empty u request now).2 "ORDER_CREATED" (Grouped.format 0) where
  orderId := rfl
  eventType := rfl
  known := by decide
  amount := amount_absent env rfl
  userId := rfl
  paid h := absurd h (by decide)
  reason h := absurd h (by decide)

theorem paymentResult_tells (u : Uuid) {request : CreateOrderRequest} {double : ℚ}
    (hdouble : env.double (totalPrice request.items) = some double) (failureRate random : ℚ) (transactionId : String)
    (choice : Fin reasons.length) (now : String) :
    ∃ type, Tells env u request (paymentResult failureRate (.str u.str) (.num (totalPrice request.items)) random
      transactionId choice now).1 type (Grouped.format double) := by
  have hamount : env.amount (.num (totalPrice request.items)) = some (Grouped.format double) := by
    rw [NotifyEnv.amount, hdouble, Option.map_some]
  unfold paymentResult
  split
  · exact ⟨"PAYMENT_COMPLETED", rfl, rfl, by decide, hamount, rfl, fun _ => ⟨double, hdouble, rfl⟩,
      fun h => absurd h (by decide)⟩
  · exact ⟨"PAYMENT_FAILED", rfl, rfl, by decide, hamount, rfl, fun h => absurd h (by decide), fun _ => ⟨_, rfl⟩⟩

theorem inventoryResult_tells (u : Uuid) (request : CreateOrderRequest) {items : Json} {random : ℚ}
    {warehouse : Fin 5} {choice : Nat} {now : String} {p : Json.Members × ReservationRecord}
    (h : inventoryResult env.toInventoryEnv (.str u.str) items random warehouse choice now = some p) :
    ∃ type, Tells env u request p.1 type (Grouped.format 0) := by
  unfold inventoryResult at h
  split at h
  · cases h
    exact ⟨"INVENTORY_RESERVED", rfl, rfl, by decide, amount_absent env rfl, rfl, fun h => absurd h (by decide),
      fun h => absurd h (by decide)⟩
  · obtain ⟨item, -, rfl⟩ := Option.map_eq_some_iff.1 h
    exact ⟨"INVENTORY_FAILED", rfl, rfl, by decide, amount_absent env rfl, rfl, fun h => absurd h (by decide),
      fun _ => ⟨_, rfl⟩⟩

theorem paymentResult_formats (o : Json) (total failureRate random : ℚ) (transactionId : String)
    (choice : Fin reasons.length) (now : String) :
    env.formats (paymentResult failureRate o (.num total) random transactionId choice now).1 =
      (env.double total).isSome := by
  have hamount : env.amount (.num total) = (env.double total).map Grouped.format := rfl
  unfold paymentResult
  split
  · change (env.amount (.num total)).isSome = _
    rw [hamount, Option.isSome_map]
  · change (env.amount (.num total)).isSome = _
    rw [hamount, Option.isSome_map]

/-- The record is of the payment of an order whose price has no float. -/
def Untold (issued : Issued) (event : Json.Members) : Prop :=
  env.formats event = false ∧ ∃ u request, (u, request) ∈ issued ∧ Json.get event "order_id" = .str u.str ∧
    env.double (request.items.map (fun item => item.price * (item.quantity : ℚ))).sum = none

theorem Tells.formats {u : Uuid} {request : CreateOrderRequest} {event : Json.Members} {type text : String}
    (h : Tells env u request event type text) : env.formats event = true := by
  rw [NotifyEnv.formats, h.amount]
  rfl

/-- **Every event of the services tells something**, but a payment whose amount cannot be formatted. -/
theorem Made.tells {issued : Issued} {topic : Topic} {event : Json.Members} (h : Made env.toEnv issued topic event) :
    (∃ u request type text, (u, request) ∈ issued ∧ Tells env u request event type text) ∨ Untold env issued event := by
  cases h with
  | @created u request h at_ => exact .inl ⟨u, request, _, _, h, created_tells env u request at_⟩
  | @payment u request h random transactionId choice at_ =>
    cases hdouble : env.double (totalPrice request.items) with
    | some double =>
      obtain ⟨type, htells⟩ :=
        paymentResult_tells env u hdouble env.paymentFailureRate random transactionId choice at_
      exact .inl ⟨u, request, type, _, h, htells⟩
    | none =>
      refine .inr ⟨?_, u, request, h, ?_, hdouble⟩
      · rw [paymentResult_formats, hdouble]
        rfl
      · unfold paymentResult
        split <;> rfl
  | @inventory u request h random warehouse choice at_ p hresult =>
    obtain ⟨type, htells⟩ := inventoryResult_tells env u request hresult
    exact .inl ⟨u, request, type, _, h, htells⟩

/-! ## The system with notifications -/

/-- A notification of an issued order that says what the record tells. -/
def Notification.Told (issued : Issued) (event : Json.Members) (n : Notification) : Prop :=
  ∃ u request, (u, request) ∈ issued ∧ n.Says env u request event

variable {env} in
theorem Notification.Told.mono {issued issued' : Issued} (hsub : issued ⊆ issued') {event : Json.Members}
    {n : Notification} (h : n.Told env issued event) : n.Told env issued' event := by
  obtain ⟨u, request, hu, htold⟩ := h
  exact ⟨u, request, hsub hu, htold⟩

end Cqrs
end KafkaGuide
