import KafkaGuide.Lib.Lts
import KafkaGuide.Saga
/-!
# SagaSys — the saga as one system of three services and five topics (`09-saga-pattern-order-system`)

Messages carry their order's id as key, so a topic is one log for each order; a consumer has a position in each.  A
consumer service handles one message at a time; the handlers of POST /orders are separate tasks.  A handler awaits its
`send_and_wait`: the event is in the log (`land`) some time before the handler goes on (`resume`), and payment-service
and inventory-service sleep before they draw their outcome (`draw`).  `Net` says what the brokers and producers may do.
-/
namespace KafkaGuide
namespace Saga

inductive Service where
  | order
  | payment
  | inventory
deriving DecidableEq, Repr

/-- The topics each `AIOKafkaConsumer` is given. -/
def Service.subscribes : Service → Topic → Bool
  | .order, .paymentResult | .order, .inventoryResult | .order, .refundResult => true
  | .payment, .orderCreated | .payment, .refundRequest => true
  | .inventory, .paymentResult => true
  | _, _ => false

/-- Who runs a handler: the consumer loop of a service, or the POST /orders that made an order. -/
inductive Party where
  | post (orderId : Uuid)
  | consumer (svc : Service)
deriving DecidableEq

inductive Phase where
  | sleeping (topic : Topic) (event : Event)
  | publishing (topic : Topic) (event : Event) (landed : Bool)
  | stopped
deriving DecidableEq

structure Sys where
  ordersDb : OrdersDb := .empty
  paymentsDb : List PaymentRecord := []
  refundsDb : List RefundRecord := []
  inventoryDb : List InventoryRecord := []
  log : Topic → Uuid → List Event := fun _ _ => []
  next : Service → Topic → Uuid → Nat := fun _ _ _ => 0
  running : Party → Option Phase := fun _ => none

def Sys.setRunning (s : Sys) (p : Party) (phase : Option Phase) : Sys :=
  { s with running := fun p' => if p' = p then phase else s.running p' }

def Sys.append (s : Sys) (topic : Topic) (event : Event) : Sys :=
  { s with log := fun t o => if t = topic ∧ o = event.orderId then s.log t o ++ [event] else s.log t o }

def Sys.advance (s : Sys) (svc : Service) (topic : Topic) (o : Uuid) (i : Nat) : Sys :=
  { s with next := fun svc' t o' =>
      if svc' = svc ∧ t = topic ∧ o' = o then max (s.next svc' t o') (i + 1) else s.next svc' t o' }

/-- A consumer reads one message: order-service handles it at once, up to its publication if there is one; the others
sleep first, and inventory-service ignores what is not PAYMENT_COMPLETED. -/
def Sys.receive (s : Sys) (format : ℚ → String) (svc : Service) (topic : Topic) (event : Event) : Sys :=
  match svc with
  | .order =>
    let r := processMessage format s.ordersDb topic event
    { s with ordersDb := r.1 }.setRunning (.consumer .order) (r.2.map (fun e => .publishing .refundRequest e false))
  | .payment => s.setRunning (.consumer .payment) (some (.sleeping topic event))
  | .inventory =>
    if event.eventType = .paymentCompleted then
      s.setRunning (.consumer .inventory) (some (.sleeping topic event))
    else s

/-- The rest of a sleeping handler up to its publication: the outcome, the record, the result event. -/
def Sys.drawn (s : Sys) (svc : Service) (topic : Topic) (event : Event) (isSuccess : Bool) : Option Sys :=
  match svc, topic with
  | .payment, .orderCreated =>
    let r := processOrderCreated event isSuccess
    some ({ s with paymentsDb := s.paymentsDb ++ [r.1] }.setRunning (.consumer .payment)
      (some (.publishing .paymentResult r.2 false)))
  | .payment, .refundRequest =>
    let r := processRefundRequest event isSuccess
    some ({ s with refundsDb := s.refundsDb ++ [r.1] }.setRunning (.consumer .payment)
      (some (.publishing .refundResult r.2 false)))
  | .inventory, .paymentResult =>
    let r := processPaymentResult event isSuccess
    some ({ s with inventoryDb := s.inventoryDb ++ [r.1] }.setRunning (.consumer .inventory)
      (some (.publishing .inventoryResult r.2 false)))
  | _, _ => none

/-- What a publication is followed by: only `create_new_order` has code after it. -/
def Sys.published (s : Sys) : Party → Sys
  | .post o =>
    { s with ordersDb := updateOrderStatus s.ordersDb o .paymentProcessing }.setRunning (.post o) none
  | .consumer svc => s.setRunning (.consumer svc) none

/-- A raising `send_and_wait` ends the POST handler, or the consumer loop it was called from. -/
def Sys.raised (s : Sys) : Party → Sys
  | .post o => s.setRunning (.post o) none
  | .consumer svc => s.setRunning (.consumer svc) (some .stopped)

/-- What the outside may do: deliver a message more than once, let a `send_and_wait` raise; and a price's text, which is
the interpreter's. -/
structure Net where
  redelivers : Bool := false
  publishRaises : Bool := false
  format : ℚ → String := toString

inductive Action where
  | createNewOrder (orderId : Uuid) (userId : String) (items : List Item)
  | deliver (svc : Service) (topic : Topic) (orderId : Uuid) (i : Nat)
  | draw (svc : Service) (isSuccess : Bool)
  | land (p : Party)
  | resume (p : Party)
  | raise (p : Party)
deriving DecidableEq

/-- One step.  A new order's id is a fresh `uuid4`; message `i` of an order is the next one of its topic, or one
delivered before. -/
def step (net : Net) (s : Sys) : Action → Option Sys
  | .createNewOrder o userId items =>
    if (s.ordersDb.get? o).isSome then none
    else
      let r := createNewOrder s.ordersDb o userId items
      some ({ s with ordersDb := r.1 }.setRunning (.post o) (some (.publishing .orderCreated r.2 false)))
  | .deliver svc topic o i =>
    match s.running (.consumer svc), (s.log topic o)[i]? with
    | none, some event =>
      if svc.subscribes topic ∧ (i = s.next svc topic o ∨ net.redelivers ∧ i < s.next svc topic o) then
        some ((s.advance svc topic o i).receive net.format svc topic event)
      else none
    | _, _ => none
  | .draw svc isSuccess =>
    match s.running (.consumer svc) with
    | some (.sleeping topic event) => s.drawn svc topic event isSuccess
    | _ => none
  | .land p =>
    match s.running p with
    | some (.publishing topic event false) =>
      some ((s.append topic event).setRunning p (some (.publishing topic event true)))
    | _ => none
  | .resume p =>
    match s.running p with
    | some (.publishing _ _ true) => some (s.published p)
    | _ => none
  | .raise p =>
    match s.running p with
    | some (.publishing _ _ _) => if net.publishRaises then some (s.raised p) else none
    | _ => none

def lts (net : Net) : Lts Sys Action where
  init := {}
  step := step net

/-! ## One order -/

def Sys.status (s : Sys) (o : Uuid) : Option OrderStatus := (s.ordersDb.get? o).map Order.status

/-- How many records the services keep of the order with the outcome an event type reports. -/
def Sys.recorded (s : Sys) (o : Uuid) : EventType → Nat
  | .paymentCompleted => s.paymentsDb.countP (fun r => r.orderId = o ∧ r.status = .completed)
  | .paymentFailed => s.paymentsDb.countP (fun r => r.orderId = o ∧ r.status = .failed)
  | .inventoryReserved => s.inventoryDb.countP (fun r => r.orderId = o ∧ r.status = .reserved)
  | .inventoryFailed => s.inventoryDb.countP (fun r => r.orderId = o ∧ r.status = .failed)
  | .refundCompleted => s.refundsDb.countP (fun r => r.orderId = o ∧ r.status = .completed)
  | .refundFailed => s.refundsDb.countP (fun r => r.orderId = o ∧ r.status = .failed)
  | _ => 0

/-- The status the services' records of an order fix. -/
def Sys.fixedStatus (s : Sys) (o : Uuid) : Option OrderStatus :=
  if 0 < s.recorded o .paymentFailed then some .paymentFailed
  else if 0 < s.recorded o .paymentCompleted ∧ 0 < s.recorded o .inventoryReserved then some .completed
  else if 0 < s.recorded o .inventoryFailed ∧ 0 < s.recorded o .refundCompleted then some .compensated
  else if 0 < s.recorded o .inventoryFailed ∧ 0 < s.recorded o .refundFailed then some .compensationFailed
  else none

def Phase.orderId? : Phase → Option Uuid
  | .sleeping _ event | .publishing _ event _ => some event.orderId
  | .stopped => none

/-- No handler works on the order. -/
def Sys.Idle (s : Sys) (o : Uuid) : Prop :=
  s.running (.post o) = none ∧ ∀ svc phase, s.running (.consumer svc) = some phase → phase.orderId? ≠ some o

/-- No message of the order is undelivered and no handler for it is running. -/
def Sys.Quiescent (s : Sys) (o : Uuid) : Prop :=
  s.Idle o ∧ ∀ svc topic, svc.subscribes topic → s.next svc topic o = (s.log topic o).length

end Saga
end KafkaGuide
