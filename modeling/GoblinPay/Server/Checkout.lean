import GoblinPay.Server.Foreign

/-!
# The hosted pay page

`gp-server/src/checkout.rs`: the status poll and the paste form, which takes a plain send
(S1) or the response to the invoice's own slate (I2).
-/

namespace GoblinPay

open Async

/-- Where a pasted slatepack goes. -/
inductive PasteRoute
  | receiveS1
  | finalizeI2
  | reject (message : String)
  deriving DecidableEq, Repr

/-- What the paste form answers. -/
structure PasteResult where
  ok : Bool
  message : String
  s2Armor : String
  deriving DecidableEq, Repr

namespace Checkout

/-- `route_paste`: `inv` is the row the request read when it arrived. -/
def routePaste (state : SlateState) (slateId : String) (inv : Invoice) : PasteRoute :=
  match state with
  | .standard1 => .receiveS1
  | .invoice2 =>
    if inv.status ≠ .open then
      .reject "This invoice has already been paid or is no longer open; nothing more to submit."
    else if inv.isGrin1 && inv.slateId = some slateId then .finalizeI2
    else
      .reject ("That looks like an invoice response, but it does not belong to this invoice. " ++
        "Check you pasted the response for the invoice on this page.")
  | other =>
    .reject ("That slatepack is in state " ++ other.toText ++
      "; expected a payment (S1) or an invoice response (I2).")

def rejected (message : String) : PasteResult := ⟨false, message, ""⟩

section

variable {W : Type} (U : Upstream W) (cfg : Config)

/-- A pasted plain send. -/
def pasteS1 (inv : Invoice) (armor : String) : Io PasteResult := do
  match ← (GpWallet.receiveSlatepack U armor).run with
  | .error e => pure (rejected ("That slatepack could not be received: " ++ e.toText))
  | .ok received =>
    match ← Record.persistAndMatch received none (inv.recipientPubkey.getD "") inv.orderRef
        cfg.matchMode cfg.webhookPair with
    | .matched _ => pure ⟨true, "Payment received, but it is not complete yet. Copy the response " ++
        "slatepack below back into your wallet to finalize and broadcast it. The payment only " ++
        "settles once your wallet posts it to the chain.", received.s2Armor⟩
    | .rejected m => pure (rejected ("This invoice must be paid in full: it expects exactly " ++
        nanogrinToGrin m.expected ++ " GRIN, but the slatepack you pasted pays " ++
        nanogrinToGrin m.received ++ " GRIN. Nothing was recorded. Send the exact amount and paste " ++
        "that slatepack instead."))

/-- A pasted invoice response. -/
def pasteI2 (armor : String) : Io PasteResult := do
  match ← (GpWallet.finalizeInvoiceSlatepack armor).run with
  | .error e => pure (rejected ("That invoice response could not be finalized: " ++ e.toText))
  | .ok finalized =>
    Foreign.settleFinalized finalized cfg.webhookPair
    pure ⟨true, "Invoice response received: the payment has been finalized and posted to the chain. " ++
      "Nothing more to paste; this page will show confirmations as they arrive.", ""⟩

/-- `POST /pay/{token}/slatepack`. -/
def manualSlatepack (token armor : String) : Io (Except HttpError PasteResult) := do
  match ← (Invoice.getByToken token).run with
  | .error _ => pure (.error ⟨500, "internal error"⟩)
  | .ok none => pure (.error ⟨404, "invoice not found"⟩)
  | .ok (some inv) =>
    if cfg.walletLoaded then
      let armor := Text.trim armor
      match ← (GpWallet.slatepackKind armor).run with
      | .error e => pure (.ok (rejected ("That slatepack could not be read: " ++ e.toText)))
      | .ok (slateId, state) =>
        match routePaste state slateId inv with
        | .reject message => pure (.ok (rejected message))
        | .receiveS1 => .ok <$> pasteS1 U cfg inv armor
        | .finalizeI2 => .ok <$> pasteI2 cfg armor
    else pure (.ok (rejected "Manual receive is unavailable on this instance (wallet not loaded)."))

end

/-- `GET /pay/{token}/status`: the row, lazily expired, with the depth of its payment. -/
def payStatus (token : String) : Io (Except HttpError (Invoice × Int64)) := do
  match ← (Invoice.getByToken token).run with
  | .error _ => pure (.error ⟨500, "internal"⟩)
  | .ok none => pure (.error ⟨404, "not found"⟩)
  | .ok (some inv) =>
    match ← (Invoice.confirmations inv.id).run with
    | .ok n => pure (.ok (inv, n))
    | .error _ => pure (.ok (inv, 0))

end Checkout

end GoblinPay
