import GoblinPay.Core.Invoice

/-!
# Webhook payloads

`gp-core/src/webhook.rs`: the payload of a payment event and the row that queues it.
-/

namespace GoblinPay

open Async

/-- Nanogrin as a trimmed decimal Grin string. -/
def nanogrinToGrin (nano : UInt64) : String :=
  let whole := nano / 1000000000
  let frac := nano % 1000000000
  if frac = 0 then toString whole
  else
    let digits := (toString frac).toList
    let padded := List.replicate (9 - digits.length) '0' ++ digits
    toString whole ++ "." ++ String.ofList (padded.reverse.dropWhile fun c => c = '0').reverse

example : nanogrinToGrin 2500000000 = "2.5" := by decide

namespace WebhookPayload

/-- A `payment.received` payload. -/
def received (slateId : String) (amount : UInt64) (payer invoiceId orderRef userId : Option String) :
    Io WebhookPayload := do
  let eventId ← randomId
  let createdAt ← Prog.call Eff.clock
  pure {
    eventId, eventType := .paymentReceived, createdAt,
    payment := {
      slateId, amount, amountGrin := nanogrinToGrin amount, status := .received, payer,
      confirmedHeight := none, confirmations := none },
    invoiceId, orderRef, userId }

/-- A `payment.confirmed` payload. -/
def confirmed (slateId : String) (amount : UInt64) (payer invoiceId orderRef userId : Option String)
    (confirmedHeight : Option UInt64) (confirmations : UInt64) : Io WebhookPayload := do
  let eventId ← randomId
  let createdAt ← Prog.call Eff.clock
  pure {
    eventId, eventType := .paymentConfirmed, createdAt,
    payment := {
      slateId, amount, amountGrin := nanogrinToGrin amount, status := .confirmed, payer,
      confirmedHeight, confirmations := some confirmations },
    invoiceId, orderRef, userId }

end WebhookPayload

/-- `webhook::enqueue`. -/
def enqueue (url : String) (payload : WebhookPayload) : ExceptT SqlxError Io String := do
  sql (.enqueue url payload)
  pure payload.eventId

end GoblinPay
