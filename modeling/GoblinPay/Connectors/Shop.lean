import GoblinPay.Async.Prog
import GoblinPay.Connectors.Wire
import GoblinPay.Core.Statement
import Mathlib.Data.List.Sort

/-!
# The queue and the shop

What the delivery worker of the server and a WooCommerce shop await, in one signature: the statements of
`gp-core/src/webhook.rs` on the queue, the requests between the two, and the shop's transients and orders.
`Shop` is the state of both; every URL of the queue leads to the shop.
-/

namespace GoblinPay

open Async

/-! ## The queue -/

/-- The statements of the webhook queue. -/
inductive QueueStmt : Type → Type
  | enqueue (url : String) (payload : WebhookPayload) : QueueStmt Unit
  | due (limit : Nat) (maxAttempts : Int64) : QueueStmt (List Delivery)
  | markDelivered (id : String) : QueueStmt Unit
  /-- `SELECT attempts + 1` -/
  | nextAttempts (id : String) : QueueStmt Int64
  | reschedule (id : String) (attempts backoff : Int64) : QueueStmt Unit

/-- `attempts + 1`. Past the last 64-bit integer SQLite's sum is a REAL, which stays what it is and which no
integer is read from. -/
def Delivery.nextAttempts (d : Delivery) : Option Int64 := if d.attempts < Int64.maxValue then some (d.attempts + 1) else none

/-- `mark_delivered` -/
def Delivery.deliver (d : Delivery) : Delivery := { d with delivered := true, attempts := d.nextAttempts.getD d.attempts }

/-- `mark_failed`, with the new count and the next time. -/
def Delivery.reschedule (attempts : Int64) (nextAttemptAt : Time) (d : Delivery) : Delivery := { d with attempts, nextAttemptAt }

theorem Delivery.id_deliver (d : Delivery) : d.deliver.id = d.id := rfl

theorem Delivery.id_reschedule (attempts : Int64) (nextAttemptAt : Time) (d : Delivery) :
    (d.reschedule attempts nextAttemptAt).id = d.id := rfl

/-- What a statement answers, and the queue behind it. -/
def QueueStmt.exec {β : Type} (now : Time) (queue : Sql.Table Delivery.id) : QueueStmt β → Except SqlxError β × Sql.Table Delivery.id
  | .enqueue url payload =>
    match queue.insert (payload.toDelivery url now) with
    | none => (.error (.database "UNIQUE constraint failed"), queue)
    | some queue => (.ok (), queue)
  | .due limit maxAttempts =>
    let rows := queue.select fun d => !d.delivered && decide (d.attempts < maxAttempts) && decide (d.nextAttemptAt ≤ now)
    (.ok ((rows.insertionSort fun d d' => d.nextAttemptAt ≤ d'.nextAttemptAt).take limit), queue)
  | .markDelivered id => (.ok (), queue.update (fun d => d.id = id) Delivery.deliver Delivery.id_deliver)
  | .nextAttempts id =>
    match queue.get id with
    | none => (.error .rowNotFound, queue)
    | some d =>
      match d.nextAttempts with
      | none => (.error (.database "REAL is not an INTEGER"), queue)
      | some attempts => (.ok attempts, queue)
  | .reschedule id attempts backoff =>
    match now.plus backoff with
    | some nextAttemptAt =>
      (.ok (), queue.update (fun d => d.id = id) (Delivery.reschedule attempts nextAttemptAt)
        (Delivery.id_reschedule attempts nextAttemptAt))
    | none =>
      if (queue.get id).isSome then (.error (.database "NOT NULL constraint failed"), queue) else (.ok (), queue)

/-! ## The orders -/

/-- The statuses WooCommerce comes with. -/
inductive OrderStatus
  | pending | onHold | processing | completed | failed | cancelled | refunded
  deriving DecidableEq, Repr

/-- An order, as far as the plugin and `payment_complete` read it. -/
structure WcOrder where
  id : Int
  status : OrderStatus
  paymentMethod : String
  /-- the meta `_goblinpay_invoice_id`, empty without one -/
  invoiceId : String
  transactionId : String
  needsProcessing : Bool
  notes : List String
  deriving DecidableEq, Repr

namespace WcOrder

def isPaid (order : WcOrder) : Bool := order.status = .processing || order.status = .completed

/-- The statuses that `payment_complete` goes on from. -/
def awaitsPayment (order : WcOrder) : Bool :=
  order.status = .pending || order.status = .onHold || order.status = .failed || order.status = .cancelled

def complete (needsProcessing : Bool) (transactionId : String) (order : WcOrder) : WcOrder :=
  { order with
    status := if needsProcessing then .processing else .completed
    transactionId := if transactionId = "" then order.transactionId else transactionId }

def addNote (note : String) (order : WcOrder) : WcOrder := { order with notes := order.notes ++ [note] }

theorem id_complete (needsProcessing : Bool) (transactionId : String) (order : WcOrder) :
    (order.complete needsProcessing transactionId).id = order.id := rfl

theorem id_addNote (note : String) (order : WcOrder) : (order.addNote note).id = order.id := rfl

end WcOrder

/-! ## Operations -/

/-- The operations of the worker and of the shop's handler. -/
inductive HookEff : Type → Type 1
  | queue {β : Type} (q : QueueStmt β) : HookEff (Except SqlxError β)
  /-- time passes -/
  | elapse (secs : Nat) : HookEff Unit
  /-- post a delivery; the answer is the number of the request -/
  | send (delivery : Delivery) : HookEff Nat
  /-- the status of the response to a request, or the client's error -/
  | response (n : Nat) : HookEff (Except String Nat)
  /-- the shop takes up a request -/
  | accept (n : Nat) : HookEff (Option Delivery)
  | respond (n status : Nat) : HookEff Unit
  | getTransient (key : String) : HookEff Bool
  | setTransient (key : String) : HookEff Unit
  | wcGetOrder (id : Int) : HookEff (Option WcOrder)
  | paymentComplete (order : WcOrder) (transactionId : String) : HookEff Bool
  | addOrderNote (id : Int) (note : String) : HookEff Unit

abbrev HookIo := Prog HookEff

/-- What the environment contributes to one operation. -/
structure HookAnswer where
  fault : Option String := none
  /-- the transient has expired, or was evicted -/
  expired : Bool := false
  deriving DecidableEq

structure Shop where
  now : Time
  deliveries : Sql.Table Delivery.id
  /-- the requests, in the order they were posted -/
  sent : List Delivery
  responses : List (Nat × Nat)
  transients : List String
  orders : Sql.Table WcOrder.id

def Shop.updateOrder (s : Shop) (id : Int) (f : WcOrder → WcOrder) (hf : ∀ order, (f order).id = order.id) : Shop :=
  { s with orders := s.orders.update (fun order => order.id = id) f hf }

/-- An order that `payment_complete` has nothing to do for is answered like one it completed. -/
def hookHandler : Handler HookEff HookAnswer Shop where
  act e x s :=
    match e with
    | .queue q =>
      match x.fault with
      | some m => (.error (.database m), s)
      | none => ((q.exec s.now s.deliveries).1, { s with deliveries := (q.exec s.now s.deliveries).2 })
    | .elapse secs => ((), { s with now := s.now + secs })
    | .send delivery => (s.sent.length, { s with sent := s.sent ++ [delivery] })
    | .response n =>
      match x.fault, s.responses.lookup n with
      | none, some status => (.ok status, s)
      | none, none => (.error "timeout", s)
      | some m, _ => (.error m, s)
    | .accept n => (s.sent[n]?, s)
    | .respond n status => ((), { s with responses := (n, status) :: s.responses })
    | .getTransient key => (!x.expired && decide (key ∈ s.transients),
        if x.expired then { s with transients := s.transients.filter fun k => k ≠ key } else s)
    | .setTransient key => ((), { s with transients := key :: s.transients })
    | .wcGetOrder id => (s.orders.get id, s)
    | .paymentComplete order transactionId =>
      if x.fault.isSome then (false, s)
      else (true, if order.awaitsPayment then
          s.updateOrder order.id (WcOrder.complete order.needsProcessing transactionId) (WcOrder.id_complete _ _)
        else s)
    | .addOrderNote id note => ((), s.updateOrder id (WcOrder.addNote note) (WcOrder.id_addNote note))

end GoblinPay
