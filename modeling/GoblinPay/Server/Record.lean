import GoblinPay.Core.Matching
import GoblinPay.Wallet.GpWallet

/-!
# Recording a received payment

`gp-server/src/record.rs`: insert the payment row, match it, queue the webhook. The three
receiving rails (Nostr, the pay page's paste form, the Foreign API) all end here.
-/

namespace GoblinPay

open Async

inductive PersistOutcome
  | matched (result : MatchResult)
  | rejected (m : AmountMismatch)
  deriving DecidableEq, Repr

namespace Record

def paymentRow (received : Received) (payerHex : Option String) (recipientHex : String) : PaymentRow where
  slateId := received.slateId
  amount := received.amount.toInt64
  payer := payerHex
  kernel := received.kernelExcess
  proof := received.proof
  s2Armor := some received.s2Armor
  recipient := recipientHex
  invoiceId := none

/-- The `order_ref` a webhook names: the matched invoice's, if it can be read. -/
def orderRef (invoiceId : Option String) : Io (Option String) := do
  match invoiceId with
  | none => pure none
  | some id =>
    match ← (Invoice.get id).run with
    | .ok (some inv) => pure inv.orderRef
    | _ => pure none

/-- Queue `payment.received` for what the payment matched. A failure is logged and swallowed. -/
def notify (received : Received) (payerHex : Option String) (matched : MatchResult)
    (webhook : Option (String × String)) : Io Unit := do
  match webhook with
  | none => pure ()
  | some (url, _) =>
    let ref ← orderRef matched.invoiceId
    let payload ← WebhookPayload.received received.slateId received.amount payerHex
      matched.invoiceId ref matched.userId
    discard <| (enqueue url payload).run

/-- Past the matching: undo the record of a rejected payment, or notify the store. -/
def conclude (received : Received) (payerHex : Option String) (webhook : Option (String × String))
    (matched : MatchResult) : Io PersistOutcome := do
  match matched.amountMismatch with
  | some m =>
    discard <| (sql (.deletePayment received.slateId)).run
    pure (.rejected m)
  | none =>
    notify received payerHex matched webhook
    pure (.matched matched)

/-- A failed match counts as no match. -/
def orUnmatched : Except SqlxError MatchResult → MatchResult
  | .ok result => result
  | .error _ => {}

def persistAndMatch (received : Received) (payerHex : Option String) (recipientHex : String)
    (memo : Option String) (defaultMode : MatchMode) (webhook : Option (String × String)) :
    Io PersistOutcome := do
  -- a failed insert is logged and the receive goes on
  discard <| (sql (.insertPayment (paymentRow received payerHex recipientHex))).run
  let matched ← (Matching.matchPayment defaultMode
    ⟨received.slateId, received.amount, recipientHex, memo⟩).run
  conclude received payerHex webhook (orUnmatched matched)

end Record

end GoblinPay
