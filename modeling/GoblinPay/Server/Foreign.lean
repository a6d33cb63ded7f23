import GoblinPay.Server.Config
import GoblinPay.Server.Record

/-!
# The Foreign API and the expiry sweep

`gp-server/src/foreign.rs`: the receive and the finalize leg of the grin1 rail, the
settlement of a finalized invoice slate, and the sweep that cancels expired contexts.
-/

namespace GoblinPay

open Async

namespace Foreign

/-- The ledger amount of a finalized slate: the invoice's own, since an I2 carries none. -/
def settledAmount (inv : Invoice) (finalized : FinalizedInvoice) : UInt64 :=
  Matching.clamp (inv.expectedAmount.getD finalized.amount.toInt64)

def paymentRow (inv : Invoice) (finalized : FinalizedInvoice) : PaymentRow where
  slateId := finalized.slateId
  amount := (settledAmount inv finalized).toInt64
  payer := none
  kernel := finalized.kernelExcess
  proof := none
  s2Armor := none
  recipient := ""
  invoiceId := some inv.id

/-- Queue `payment.received` for a settled invoice. -/
def notify (inv : Invoice) (finalized : FinalizedInvoice) (webhook : Option (String × String)) : Io Unit := do
  match webhook with
  | none => pure ()
  | some (url, _) =>
    let payload ← WebhookPayload.received finalized.slateId (settledAmount inv finalized) none
      (some inv.id) inv.orderRef none
    discard <| (enqueue url payload).run

/-- Record and settle a finalized invoice-flow payment. Best effort: the transaction is
already posted, so every error is logged and swallowed. -/
def settleFinalized (finalized : FinalizedInvoice) (webhook : Option (String × String)) : Io Unit := do
  match ← (Invoice.getBySlateId finalized.slateId).run with
  | .error _ => pure ()
  | .ok none => pure ()
  | .ok (some inv) =>
    discard <| (sql (.insertPayment (paymentRow inv finalized))).run
    match ← (Invoice.markPaid inv.id finalized.slateId).run with
    | .ok true => notify inv finalized webhook
    -- already settled: no second notification
    | .ok false => pure ()
    | .error _ => pure ()

/-- A JSON-RPC error. -/
structure RpcError where
  code : Int
  message : String
  deriving DecidableEq, Repr

section

variable {W : Type} (U : Upstream W) (cfg : Config)

def receiveTx (inSlate : VersionedSlate) : Io (Except RpcError VersionedSlate) := do
  match ← (GpWallet.receiveSlate U inSlate).run with
  | .error e => pure (.error ⟨-32603, "receive failed: " ++ e.toText⟩)
  | .ok (outSlate, received) =>
    -- a persist or match error never fails the reply
    discard <| Record.persistAndMatch received none "" none .amount cfg.webhookPair
    pure (.ok outSlate)

def finalizeTx (inSlate : VersionedSlate) : Io (Except RpcError VersionedSlate) := do
  match ← (GpWallet.finalizeSlate inSlate).run with
  | .error e => pure (.error ⟨-32603, "finalize failed: " ++ e.toText⟩)
  | .ok (outSlate, finalized) =>
    settleFinalized finalized cfg.webhookPair
    pure (.ok outSlate)

/-- The sweep's loop over the due invoices: cancel the context first, and only then flip the
invoice, so a failed cancel is retried on the next pass. -/
def cancelDue : List (String × String) → Io Unit
  | [] => pure ()
  | (invId, slateId) :: due => do
    match ← (GpWallet.cancel U slateId).run with
    | .ok () =>
      discard <| (Invoice.markExpired invId).run
      cancelDue due
    | .error _ => cancelDue due

/-- One pass of `spawn_expiry_cancel`. -/
def expirySweep : Io Unit := do
  match ← Invoice.dueGrin1Slates.run with
  | .ok due => cancelDue U due
  | .error _ => pure ()

end

end Foreign

end GoblinPay
