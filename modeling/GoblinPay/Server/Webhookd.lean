import GoblinPay.Connectors.Shop

/-!
# The delivery worker

`gp-server/src/webhookd.rs` over `gp-core/src/webhook.rs`: each pass posts what is due, and marks it delivered or
puts it off.
-/

namespace GoblinPay.Webhookd

open Async

def backoffBase : Int := 30
def backoffCap : Int := 3600
def maxAttempts : Int64 := 12
def batch : Nat := 20

/-- `BACKOFF_BASE.saturating_mul(1i64 << shift).min(BACKOFF_CAP)`; the shift is at most 20. -/
def backoffSecs (attempts : Int64) : Int64 :=
  if attempts ≤ 0 then 0
  else
    let shift := (min (attempts - 1) 20).toInt.toNat
    Int64.ofInt (min (min (backoffBase * 2 ^ shift) (2 ^ 63 - 1)) backoffCap)

def statement {β : Type} (q : QueueStmt β) : ExceptT SqlxError HookIo β := Prog.attempt (HookEff.queue q)

def enqueue (url : String) (payload : WebhookPayload) : ExceptT SqlxError HookIo String := do
  statement (.enqueue url payload)
  pure payload.eventId

def due (limit : Nat) : ExceptT SqlxError HookIo (List Delivery) := statement (.due limit maxAttempts)

def markDelivered (id : String) : ExceptT SqlxError HookIo Unit := statement (.markDelivered id)

/-- The error text is stored and never read. -/
def markFailed (id : String) : ExceptT SqlxError HookIo Unit := do
  let attempts ← statement (.nextAttempts id)
  statement (.reschedule id attempts (backoffSecs attempts))

/-- `StatusCode::is_success`. -/
def isSuccess (status : Nat) : Bool := 200 ≤ status && status < 300

/-- Post one delivery and await the response. -/
def post (delivery : Delivery) : HookIo (Except String Nat) := do
  let n ← Prog.call (.send delivery)
  Prog.call (.response n)

def deliver (delivery : Delivery) : ExceptT SqlxError HookIo Unit := do
  match ← liftM (post delivery) with
  | .ok status => if isSuccess status then markDelivered delivery.id else markFailed delivery.id
  | .error _ => markFailed delivery.id

def deliverAll : List Delivery → ExceptT SqlxError HookIo Unit
  | [] => pure ()
  | delivery :: rest => do
    deliver delivery
    deliverAll rest

/-- One pass. -/
def drain : ExceptT SqlxError HookIo Unit := do
  let deliveries ← due batch
  deliverAll deliveries

end GoblinPay.Webhookd
