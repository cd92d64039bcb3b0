import KafkaGuide.CqrsQuery
import KafkaGuide.CqrsResults
/-!
# CqrsSys — four services over three topics (`11-multi-service-architecture`)

order-service creates orders and folds results into them, payment-service and inventory-service answer each
`ORDER_CREATED`, query-service folds every event into its read model.  A consumer may get any record of its topics at
any time, again and in any order.  A publication may fail, a loop may be cancelled and a service restarted, at any
await; what was sent before that may be on its topic later.
-/
namespace KafkaGuide
namespace Cqrs

open ConsumerLoop (State Position)

/-! ## A service that answers -/

/-- A service with one loop: what of an await is on its way to the topic of results, what a result on the topic does to
the store, and what of the store is there after a restart. -/
structure Service (σ κ ι : Type) where
  loop : ConsumerLoop ByteArray Json σ κ Unit ι
  pending : κ → List Json.Members
  append : σ → Option String × Json.Members → σ
  restart : σ → σ

/-- The loop of a service, and the results that an earlier one has left on their way. -/
structure Running (σ κ : Type) where
  loop : State σ κ
  late : List Json.Members := []

/-- The loop gets a record, or goes on from an await; it is cancelled; the service starts again; a result that was left
lands. -/
inductive ServiceEvent (ι : Type) where
  | read (i : Nat)
  | advance (r : ι)
  | cancel
  | restart
  | land (i : Nat)

section Service

variable {σ κ ι : Type} (S : Service σ κ ι)

def Service.left (position : Position κ) : List Json.Members :=
  match position with
  | .awaiting k => S.pending k
  | _ => []

def Service.step (created : List Json.Members) (s : Running σ κ) : ServiceEvent ι → Option (Running σ κ)
  | .read i =>
    match created[i]? with
    | some event => ((valued S.loop).step s.loop (.receive (.obj event) ())).map fun loop => { s with loop }
    | none => none
  | .advance r => ((valued S.loop).step s.loop (.advance r)).map fun loop => { s with loop }
  | .cancel =>
    ((valued S.loop).step s.loop .cancel).map fun loop => { loop, late := s.late ++ S.left s.loop.position }
  | .restart => some
    { loop := ⟨S.restart s.loop.store, .fetching⟩, late := s.late ++ S.left s.loop.position }
  | .land i =>
    match s.late[i]? with
    | some event => (Json.get event "order_id" (.str "")).encodeKey.map fun key =>
      { loop := { s.loop with store := S.append s.loop.store (key, event) }, late := s.late.eraseIdx i }
    | none => none

inductive ServiceStep (created : List Json.Members) (s : Running σ κ) : ServiceEvent ι → Running σ κ → Prop
  | read {i : Nat} {event : Json.Members} (hi : created[i]? = some event) :
    ServiceStep created s (.read i) { s with loop := ConsumerLoop.after (S.loop.receive s.loop.store (.obj event) ()) }
  | advance {k : κ} {r : ι} {p : σ × Stretch κ} (hposition : s.loop.position = .awaiting k)
    (hadvance : S.loop.advance s.loop.store k r = some p) :
    ServiceStep created s (.advance r) { s with loop := ConsumerLoop.after p }
  | cancel : ServiceStep created s .cancel
    { loop := { s.loop with position := .cancelled }, late := s.late ++ S.left s.loop.position }
  | restart : ServiceStep created s .restart
    { loop := ⟨S.restart s.loop.store, .fetching⟩, late := s.late ++ S.left s.loop.position }
  | land {i : Nat} {event : Json.Members} (key : Option String) (hi : s.late[i]? = some event) :
    ServiceStep created s (.land i)
      { loop := { s.loop with store := S.append s.loop.store (key, event) }, late := s.late.eraseIdx i }

theorem Service.step_sound {created : List Json.Members} {s s' : Running σ κ} {e : ServiceEvent ι}
    (h : S.step created s e = some s') : ServiceStep S created s e s' := by
  cases e with
  | read i =>
    simp only [Service.step] at h
    split at h
    · obtain ⟨loop, hstep, rfl⟩ := Option.map_eq_some_iff.1 h
      cases ConsumerLoop.step_sound hstep with
      | undecoded r hposition hdecode => cases hdecode
      | receive r hposition hdecode =>
        cases hdecode
        exact .read ‹_›
    · cases h
  | advance r =>
    obtain ⟨loop, hstep, rfl⟩ := Option.map_eq_some_iff.1 h
    cases ConsumerLoop.step_sound hstep with
    | advance hposition hadvance => exact .advance hposition hadvance
  | cancel =>
    obtain ⟨loop, hstep, rfl⟩ := Option.map_eq_some_iff.1 h
    cases ConsumerLoop.step_sound hstep with
    | cancel => exact .cancel
  | restart =>
    cases h
    exact .restart
  | land i =>
    simp only [Service.step] at h
    split at h
    · obtain ⟨key, -, rfl⟩ := Option.map_eq_some_iff.1 h
      exact .land key ‹_›
    · cases h

end Service

def PaymentAwait.pending : PaymentAwait → List Json.Members
  | .publish resultEvent false => [resultEvent]
  | _ => []

def InventoryAwait.pending : InventoryAwait → List Json.Members
  | .publish resultEvent false => [resultEvent]
  | _ => []

/-- The environment of the two loops: `json.loads`, `str` and the rates of failure. -/
structure Env extends InventoryEnv where
  paymentFailureRate : ℚ

def paymentService (env : Env) : Service PaymentStore PaymentAwait PaymentReturn where
  loop := paymentLoop env.loads env.paymentFailureRate
  pending := PaymentAwait.pending
  append st entry := { st with results := st.results ++ [entry] }
  restart st := { results := st.results }

def inventoryService (env : Env) : Service InventoryStore InventoryAwait InventoryReturn where
  loop := inventoryLoop env.toInventoryEnv
  pending := InventoryAwait.pending
  append st entry := { st with results := st.results ++ [entry] }
  restart st := { results := st.results }

/-! ## The system -/

inductive Topic where
  | orderCreated
  | paymentResult
  | inventoryResult

def Topic.value : Topic → String
  | .orderCreated => "order.created"
  | .paymentResult => "payment.result"
  | .inventoryResult => "inventory.result"

/-- The stores and loops of the services, the topic `order.created`, and the `ORDER_CREATED` on their way to it.
`issued` are the ids drawn so far and what was ordered under them: no service reads it. -/
structure Sys where
  orders : OrdersDb := .empty
  publishing : List Json.Members := []
  created : List Json.Members := []
  payment : Running PaymentStore PaymentAwait := { loop := ⟨{}, .fetching⟩ }
  inventory : Running InventoryStore InventoryAwait := { loop := ⟨{}, .fetching⟩ }
  read : ReadStore := {}
  issued : List (Uuid × CreateOrderRequest) := []

def Sys.log (s : Sys) : Topic → List Json.Members
  | .orderCreated => s.created
  | .paymentResult => s.payment.loop.store.results.map Prod.snd
  | .inventoryResult => s.inventory.loop.store.results.map Prod.snd

/-- `create_order` draws an id, stores the order and starts to publish its event, which lands on its topic or does not;
payment-service or inventory-service makes a step; order-service handles a result; query-service handles an event;
order-service or query-service starts again. -/
inductive Action where
  | createOrder (u : Uuid) (request : CreateOrderRequest) (now : String)
  | publish (i : Nat)
  | publishFailed (i : Nat)
  | payment (e : ServiceEvent PaymentReturn)
  | inventory (e : ServiceEvent InventoryReturn)
  | consume (topic : Topic) (i : Nat) (now : String)
  | restartOrders
  | read (topic : Topic) (i : Nat) (now : String)
  | restartRead

/-- order-service is subscribed to the results alone. -/
def Topic.isResult : Topic → Bool
  | .orderCreated => false
  | _ => true

/-- One step; an id is a fresh `uuid4`. -/
def step (env : Env) (s : Sys) : Action → Option Sys
  | .createOrder u request now =>
    if u ∈ s.issued.map Prod.fst then none
    else
      let (orders, event) := createOrder s.orders u request now
      some { s with orders, publishing := s.publishing ++ [event], issued := s.issued ++ [(u, request)] }
  | .publish i =>
    match s.publishing[i]? with
    | some event => some { s with publishing := s.publishing.eraseIdx i, created := s.created ++ [event] }
    | none => none
  | .publishFailed i => some { s with publishing := s.publishing.eraseIdx i }
  | .payment e => ((paymentService env).step s.created s.payment e).map fun payment => { s with payment }
  | .inventory e => ((inventoryService env).step s.created s.inventory e).map fun inventory => { s with inventory }
  | .consume topic i now =>
    match topic.isResult, (s.log topic)[i]? with
    | true, some event => some { s with orders := consume s.orders (.obj event) now }
    | _, _ => none
  | .restartOrders => some { s with orders := .empty }
  | .read topic i now =>
    match (s.log topic)[i]? with
    | some event => some { s with read := consumeEvent s.read (.obj event) topic.value now }
    | none => none
  | .restartRead => some { s with read := {} }

def lts (env : Env) : Lts Sys Action where
  init := {}
  step := step env

inductive Step (env : Env) (s : Sys) : Action → Sys → Prop
  | createOrder {u : Uuid} {request : CreateOrderRequest} (orders : OrdersDb) (now : String)
    (hu : u ∉ s.issued.map Prod.fst) : Step env s (.createOrder u request now) { s with
      orders
      publishing := s.publishing ++ [(createOrder .empty u request now).2]
      issued := s.issued ++ [(u, request)] }
  | publish {i : Nat} {event : Json.Members} (hi : s.publishing[i]? = some event) : Step env s (.publish i)
    { s with publishing := s.publishing.eraseIdx i, created := s.created ++ [event] }
  | publishFailed (i : Nat) : Step env s (.publishFailed i) { s with publishing := s.publishing.eraseIdx i }
  | payment {e : ServiceEvent PaymentReturn} {payment : Running PaymentStore PaymentAwait}
    (h : ServiceStep (paymentService env) s.created s.payment e payment) : Step env s (.payment e) { s with payment }
  | inventory {e : ServiceEvent InventoryReturn} {inventory : Running InventoryStore InventoryAwait}
    (h : ServiceStep (inventoryService env) s.created s.inventory e inventory) :
    Step env s (.inventory e) { s with inventory }
  | orders {a : Action} (orders : OrdersDb) : Step env s a { s with orders }
  | read {topic : Topic} {i : Nat} {event : Json.Members} (now : String) (hi : (s.log topic)[i]? = some event) :
    Step env s (.read topic i now) { s with read := (processEvent s.read event topic.value now).1 }
  | restartRead : Step env s .restartRead { s with read := {} }

theorem step_sound {env : Env} {s s' : Sys} {a : Action} (h : step env s a = some s') : Step env s a s' := by
  cases a with
  | createOrder u request now =>
    simp only [step] at h
    split at h
    · cases h
    · cases h
      exact .createOrder _ now ‹_›
  | publish i =>
    simp only [step] at h
    split at h
    · cases h
      exact .publish ‹_›
    · cases h
  | publishFailed i =>
    cases h
    exact .publishFailed i
  | payment e =>
    obtain ⟨payment, hstep, rfl⟩ := Option.map_eq_some_iff.1 h
    exact .payment (Service.step_sound _ hstep)
  | inventory e =>
    obtain ⟨inventory, hstep, rfl⟩ := Option.map_eq_some_iff.1 h
    exact .inventory (Service.step_sound _ hstep)
  | consume topic i now =>
    simp only [step] at h
    split at h
    · cases h
      exact .orders _
    · cases h
  | restartOrders =>
    cases h
    exact .orders _
  | read topic i now =>
    simp only [step] at h
    split at h
    · cases h
      exact .read now ‹_›
    · cases h
  | restartRead =>
    cases h
    exact .restartRead

end Cqrs
end KafkaGuide
