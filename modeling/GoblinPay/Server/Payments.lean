import GoblinPay.Core.Webhook
import GoblinPay.Wallet.GpWallet

/-!
# The confirmation poll

`gp-server/src/payments.rs`: one pass reads every payment below the required depth, asks the
node for its kernel, records the depth and confirms the invoice once the depth is reached.
-/

namespace GoblinPay

open Async

structure ConfirmPolicy where
  required : Int64
  webhookUrl : Option String
  deriving DecidableEq, Repr

namespace Payments

/-- Queue `payment.confirmed`. -/
def notifyConfirmed (url slateId invoiceId : String) (confirmedHeight : Option Int64)
    (confirmations : UInt64) : Io Unit := do
  match ← (sql (.loadForWebhook slateId)).run with
  | .ok (some (amount, payer, userId, orderRef)) =>
    let payload ← WebhookPayload.confirmed slateId amount.toUInt64 payer (some invoiceId) orderRef userId
      (confirmedHeight.map Int64.toUInt64) confirmations
    discard <| (enqueue url payload).run
  | _ => pure ()

/-- Advance a paid invoice and, on the transition only, queue the webhook. Best effort: every
failure is logged and swallowed. -/
def finalizeInvoice (policy : ConfirmPolicy) (slateId invoiceId : String) (confirmedHeight : Option Int64)
    (confirmations : UInt64) : Io Unit := do
  match ← (Invoice.markConfirmed invoiceId).run with
  | .ok true =>
    match policy.webhookUrl with
    | some url => notifyConfirmed url slateId invoiceId confirmedHeight confirmations
    | none => pure ()
  | .ok false => pure ()
  | .error _ => pure ()

/-- One payment of the work list whose kernel the node found. -/
def confirmOne (policy : ConfirmPolicy) (slateId : String) (invoiceId : Option String)
    (status : ConfirmStatus) : Io Unit := do
  let confirmations := status.confirmations.getD 0
  let height := status.height.map UInt64.toInt64
  match ← (sql (.updateDepth height confirmations.toInt64 slateId)).run with
  | .error _ => pure ()
  | .ok () =>
    if policy.required ≤ confirmations.toInt64 then
      match invoiceId with
      | some id => finalizeInvoice policy slateId id height confirmations
      | none => pure ()
    else pure ()

def confirmAll (policy : ConfirmPolicy) : List (String × String × Option String) → Io Unit
  | [] => pure ()
  | (slateId, kernelExcess, invoiceId) :: pending => do
    match ← (GpWallet.confirmStatus kernelExcess).run with
    | .ok status => if status.confirmed then confirmOne policy slateId invoiceId status else pure ()
    -- a failed node read is retried next pass
    | .error _ => pure ()
    confirmAll policy pending

/-- One poll pass. -/
def confirmPending (policy : ConfirmPolicy) : ExceptT SqlxError Io Unit := do
  let pending ← sql (.selectPending policy.required)
  confirmAll policy pending

/-- `spawn_confirm_poll`: pass after pass, a failed one is logged. -/
def confirmPoll (policy : ConfirmPolicy) : Nat → Io Unit
  | 0 => pure ()
  | passes + 1 => do
    discard <| (confirmPending policy).run
    confirmPoll policy passes

end Payments

end GoblinPay
