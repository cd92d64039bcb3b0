import KafkaGuide.CqrsMade
/-!
# CqrsGateway — the gateway in front of the services (`11-multi-service-architecture/gateway/app`)

`proxy_request` passes a service's JSON answer on as it is, and turns everything else into an error of its own.  A query
through the gateway is the query itself (`query_through_gateway`), and the checks of `aggregated_health` may end in any
order (`health_any_order`).
-/
namespace KafkaGuide
namespace Cqrs

/-! ## The gateway -/

/-- The addresses of the services. -/
structure GatewayConfig where
  orderServiceUrl : String := "http://order-service:8001"
  paymentServiceUrl : String := "http://payment-service:8002"
  inventoryServiceUrl : String := "http://inventory-service:8003"
  notificationServiceUrl : String := "http://notification-service:8004"
  queryServiceUrl : String := "http://query-service:8005"

/-- `INTERNAL_SERVICES`. -/
def GatewayConfig.internalServices (config : GatewayConfig) : List (String × String) :=
  [("order-service", config.orderServiceUrl), ("payment-service", config.paymentServiceUrl),
    ("inventory-service", config.inventoryServiceUrl), ("notification-service", config.notificationServiceUrl),
    ("query-service", config.queryServiceUrl)]

/-- A request to a service. -/
structure ServiceRequest where
  method : String
  url : String
  body : Option Json := none
  params : Option (List (String × String)) := none

/-- What a request comes to: an answer and what `response.json()` makes of its body, or an exception and its text. -/
inductive Outcome where
  | response (statusCode : Nat) (json : Except String Json)
  | connectError (text : String)
  | timeout (text : String)
  | raised (text : String)

structure HttpException where
  statusCode : Nat
  detail : String

structure JsonResponse where
  statusCode : Nat
  content : Json

/-- `proxy_request`, the client given. -/
def proxyRequest (request : ServiceRequest → Outcome) (method serviceUrl path : String) (body : Option Json := none)
    (params : Option (List (String × String)) := none) : Except HttpException JsonResponse :=
  let url := serviceUrl ++ path
  match request { method, url, body, params } with
  | .response statusCode (.ok content) => .ok { statusCode, content }
  | .response _ (.error e) => .error { statusCode := 502, detail := "프록시 에러: " ++ e }
  | .connectError _ => .error { statusCode := 503, detail := "서비스 연결 불가: " ++ url }
  | .timeout _ => .error { statusCode := 504, detail := "서비스 응답 타임아웃: " ++ url }
  | .raised e => .error { statusCode := 502, detail := "프록시 에러: " ++ e }

variable (config : GatewayConfig) (request : ServiceRequest → Outcome)

namespace ApiGateway

/-- `create_order`. -/
def createOrder (body : Json) : Except HttpException JsonResponse :=
  proxyRequest request "POST" config.orderServiceUrl "/orders" (some body)

/-- `list_orders`. -/
def listOrders : Except HttpException JsonResponse := proxyRequest request "GET" config.orderServiceUrl "/orders"

/-- `get_order`. -/
def getOrder (orderId : String) : Except HttpException JsonResponse :=
  proxyRequest request "GET" config.orderServiceUrl ("/orders/" ++ orderId)

/-- The `params` of `query_orders`. -/
def queryParams (status userId : Option String) : List (String × String) :=
  (match given status with
    | some status => [("status", status)]
    | none => []) ++
  match given userId with
  | some userId => [("user_id", userId)]
  | none => []

/-- `query_orders`. -/
def queryOrders (status userId : Option String) : Except HttpException JsonResponse :=
  proxyRequest request "GET" config.queryServiceUrl "/orders" none (some (queryParams status userId))

/-- `query_order_detail`. -/
def queryOrderDetail (orderId : String) : Except HttpException JsonResponse :=
  proxyRequest request "GET" config.queryServiceUrl ("/orders/" ++ orderId)

/-- An entry of `results`. -/
inductive ServiceHealth where
  | healthy (details : Json)
  | answered (statusCode : Nat)
  | failed (error : String)

def ServiceHealth.status : ServiceHealth → String
  | .healthy _ => "healthy"
  | _ => "unhealthy"

/-- `check_service`, up to the entry it makes. -/
def checkService (url : String) : ServiceHealth :=
  match request { method := "GET", url := url ++ "/health" } with
  | .response 200 (.ok details) => .healthy details
  | .response 200 (.error e) => .failed e
  | .response statusCode _ => .answered statusCode
  | .connectError e => .failed e
  | .timeout e => .failed e
  | .raised e => .failed e

/-- The answer of GET /health. -/
structure Health where
  service : String := "gateway"
  status : String
  services : Dict String ServiceHealth

/-- `aggregated_health`, its checks ending in the order given. -/
def aggregatedHealth (ended : List (String × String)) : Health :=
  let results : Dict String ServiceHealth :=
    ended.foldl (fun results p => results.set p.1 (checkService request p.2)) .empty
  let allHealthy := results.values.all (fun s => s.status = "healthy")
  { status := if allHealthy then "healthy" else "degraded"
    services := results }

end ApiGateway

/-! ## query-service behind it -/

def PaymentStatus.value : PaymentStatus → String
  | .pending => "PENDING"
  | .completed => "COMPLETED"
  | .failed => "FAILED"

def InventoryStatus.value : InventoryStatus → String
  | .pending => "PENDING"
  | .reserved => "RESERVED"
  | .failed => "FAILED"

def OrderSummary.dump (o : OrderSummary) : Json :=
  .obj [("order_id", o.orderId), ("user_id", o.userId), ("total_price", o.totalPrice), ("status", .str o.status.value),
    ("payment_status", .str o.paymentStatus.value), ("inventory_status", .str o.inventoryStatus.value),
    ("created_at", o.createdAt), ("updated_at", o.updatedAt)]

def dumpParam (param : Option String) : Json := (param.map Json.str).getD .null

def OrderList.dump (l : OrderList) : Json :=
  .obj [("total", .num l.total),
    ("filters", .obj [("status", dumpParam l.filters.status), ("user_id", dumpParam l.filters.userId)]),
    ("orders", .arr (l.orders.map OrderSummary.dump))]

/-- The clock of `create_order` gives the text of a date-time. -/
def Action.Dated : Action → Prop
  | .createOrder _ _ now => ∃ d : DateTime, now = d.isoformat
  | _ => True

/-- The event has the text of a date-time. -/
def TimedEvent (event : Json.Members) : Prop := ∃ d : DateTime, Dict.find "timestamp" event = some (.str d.isoformat)

/-- Only `ORDER_CREATED` starts a view. -/
theorem Made.dated {env : Env} {issued : Issued} {topic : Topic} {event : Json.Members}
    (h : Made env issued topic event) (hcreated : topic = .orderCreated → TimedEvent event) (topic' now : String) :
    Received.Dated ⟨event, topic', now⟩ := by
  intro hcreates
  change (Json.get event "event_type" (.str "")).isStr "ORDER_CREATED" = true at hcreates
  cases h with
  | created h now' =>
    obtain ⟨d, hd⟩ := hcreated rfl
    refine ⟨d, ?_⟩
    simp only [Received.entry, Json.get, hd, Option.getD_some]
  | payment h random transactionId choice now' =>
    unfold paymentResult at hcreates
    split at hcreates <;> simp [Json.get, Dict.find] at hcreates
  | inventory h hresult =>
    unfold inventoryResult at hresult
    split at hresult
    · cases hresult
      simp [Json.get, Dict.find] at hcreates
    · obtain ⟨item, -, rfl⟩ := Option.map_eq_some_iff.1 hresult
      simp [Json.get, Dict.find] at hcreates

/-- The results of the checks, in the order they ended. -/
theorem entries_checks {ended : List (String × String)} (h : (ended.map Prod.fst).Nodup) :
    (ApiGateway.aggregatedHealth request ended).services.entries =
      ended.map (fun p => (p.1, ApiGateway.checkService request p.2)) := by
  have hfold : (ApiGateway.aggregatedHealth request ended).services =
      Dict.empty.update (ended.map fun p => (p.1, ApiGateway.checkService request p.2)) := by
    rw [Dict.update, List.foldl_map]
    rfl
  rw [hfold, Dict.entries_update]
  · rfl
  · rw [List.map_append, List.map_map]
    exact h

theorem status_healthy_iff (s : ApiGateway.ServiceHealth) : s.status = "healthy" ↔ ∃ details, s = .healthy details := by
  cases s <;> simp [ApiGateway.ServiceHealth.status]

/-- A check finds its service healthy exactly when it answers 200 with JSON. -/
theorem checkService_healthy_iff (url : String) : (ApiGateway.checkService request url).status = "healthy" ↔
    ∃ details, request { method := "GET", url := url ++ "/health" } = .response 200 (.ok details) := by
  rw [status_healthy_iff]
  unfold ApiGateway.checkService
  cases request { method := "GET", url := url ++ "/health" } with
  | response statusCode json =>
    by_cases hcode : statusCode = 200
    · subst hcode
      cases json <;> simp
    · cases json <;> simp [hcode]
  | connectError | timeout | raised => simp

/-- **The checks may end in any order**: whatever the services answer, the results have one entry for each service, what
its own check found, and the gateway is healthy exactly when every service answers 200 with JSON, else degraded. -/
theorem health_any_order {ended : List (String × String)} (h : ended.Perm config.internalServices) :
    (∀ name, (ApiGateway.aggregatedHealth request ended).services.get? name =
      (Dict.find name config.internalServices).map (ApiGateway.checkService request)) ∧
    (ApiGateway.aggregatedHealth request ended).services.entries.length = config.internalServices.length ∧
    ((ApiGateway.aggregatedHealth request ended).status = "healthy" ↔ ∀ p ∈ config.internalServices, ∃ details,
      request { method := "GET", url := p.2 ++ "/health" } = .response 200 (.ok details)) ∧
    ((ApiGateway.aggregatedHealth request ended).status = "healthy" ∨
      (ApiGateway.aggregatedHealth request ended).status = "degraded") := by
  have hnames : (config.internalServices.map Prod.fst).Nodup := by
    change ["order-service", "payment-service", "inventory-service", "notification-service", "query-service"].Nodup
    decide
  have hended : (ended.map Prod.fst).Nodup := (h.map Prod.fst).nodup_iff.2 hnames
  have hentries := entries_checks request hended
  refine ⟨fun name => ?_, ?_, ?_, ?_⟩
  · rw [Dict.get?, hentries, Dict.find_map (ApiGateway.checkService request), Dict.find_perm hended h]
  · rw [hentries, List.length_map, h.length_eq]
  · have hstatus : (ApiGateway.aggregatedHealth request ended).status = "healthy" ↔
        ∀ s ∈ (ApiGateway.aggregatedHealth request ended).services.values, s.status = "healthy" := by
      simp only [ApiGateway.aggregatedHealth, List.all_eq_true, decide_eq_true_eq]
      split
      · rename_i hall
        exact iff_of_true rfl hall
      · rename_i hall
        exact iff_of_false (by decide) hall
    rw [hstatus, Dict.values, hentries, List.map_map, List.forall_mem_map]
    simp only [Function.comp_apply, checkService_healthy_iff]
    exact ⟨fun hall p hp => hall p (h.mem_iff.2 hp), fun hall p hp => hall p (h.mem_iff.1 hp)⟩
  · simp only [ApiGateway.aggregatedHealth]
    split
    · exact .inl rfl
    · exact .inr rfl

/-- payment-service answers too late, the others at once. -/
def paymentLate (r : ServiceRequest) : Outcome :=
  if r.url = "http://payment-service:8002/health" then .timeout "" else .response 200 (.ok (.obj []))

theorem health_any_order_late :
    (ApiGateway.aggregatedHealth paymentLate ({} : GatewayConfig).internalServices.reverse).services.get?
      "payment-service" = some (.failed "") ∧
    (ApiGateway.aggregatedHealth paymentLate ({} : GatewayConfig).internalServices.reverse).status = "degraded" := by
  obtain ⟨hfound, -, hhealthy, hstatus⟩ := health_any_order {} paymentLate (List.reverse_perm _)
  refine ⟨(hfound "payment-service").trans (by rfl), hstatus.resolve_left fun h => ?_⟩
  have hmem : ("payment-service", "http://payment-service:8002") ∈ ({} : GatewayConfig).internalServices := by
    simp [GatewayConfig.internalServices]
  obtain ⟨details, hanswer⟩ := hhealthy.1 h _ hmem
  exact nomatch hanswer

end Cqrs
end KafkaGuide
