import GoblinPay.Connectors.Shop

/-!
# The WooCommerce plugin

`connectors/woocommerce/goblinpay-woocommerce.php`: the webhook receiver. A run of it may stop between any two of
its operations, and other requests are served in between. The digests of PHP and its cast of a string to an integer
are functions.
-/

namespace GoblinPay.WooCommerce

open Async

structure Php (Raw : Type) where
  /-- `hash_hmac('sha256', …)` -/
  hmac : String → Raw → String
  md5 : String → String
  /-- `(int)` -/
  intval : String → Int

/-- A request at the webhook's route. -/
structure RestRequest (Raw : Type) where
  raw : Raw
  /-- `x-goblinpay-signature`, empty without one -/
  signature : String
  /-- `x-goblinpay-delivery`, empty without one -/
  delivery : String
  /-- the decoded body, when it is an object -/
  data : Option WebhookData

inductive RestBody
  | ok
  | dedupe
  | note (m : String)
  | error (m : String)
  deriving DecidableEq, Repr

structure RestResponse where
  body : RestBody
  status : Nat
  deriving DecidableEq, Repr

def gatewayId : String := "goblinpay"

section

variable {Raw : Type} (php : Php Raw) (webhookSecret : String)

def eventKey (eventId : String) : String := "goblinpay_evt_" ++ php.md5 eventId

/-- Look the event up, and record it. -/
def processedBefore (eventId : String) : HookIo Bool :=
  if eventId = "" then pure false
  else do
    if ← Prog.call (.getTransient (eventKey php eventId)) then pure true
    else
      Prog.call (.setTransient (eventKey php eventId))
      pure false

/-- Complete an order once. -/
def settleOrder (order : WcOrder) (slateId note : String) : HookIo Unit :=
  if order.isPaid then pure ()
  else do
    discard <| Prog.call (.paymentComplete order slateId)
    Prog.call (.addOrderNote order.id note)

def confirmedNote : Option UInt64 → String
  | none => "Grin payment confirmed on chain."
  | some height => "Grin payment confirmed on chain at height " ++ toString height ++ "."

/-- What an event does to its order. -/
def applyEvent (order : WcOrder) (data : WebhookData) : HookIo Unit :=
  if data.eventType = some "payment.received" then
    if order.isPaid then pure ()
    else Prog.call (.addOrderNote order.id
      "Grin payment received off-chain via GoblinPay; awaiting on-chain confirmation before the order is completed.")
  else if data.eventType = some "payment.confirmed" then
    if order.isPaid then Prog.call (.addOrderNote order.id (confirmedNote data.confirmedHeight))
    else settleOrder order (data.slateId.getD "") "Grin payment confirmed on chain via GoblinPay."
  else pure ()

/-- An event that was not processed before. -/
def handleEvent (data : WebhookData) : HookIo RestResponse :=
  let orderRef := data.orderRef.getD ""
  let invoiceId := data.invoiceId.getD ""
  if orderRef = "" then pure ⟨.note "no order_ref", 200⟩
  else do
    match ← Prog.call (.wcGetOrder (php.intval orderRef)) with
    | none => pure ⟨.note "order not found", 200⟩
    | some order =>
      if order.paymentMethod ≠ gatewayId then pure ⟨.note "order not found", 200⟩
      else if order.invoiceId ≠ "" ∧ invoiceId ≠ "" ∧ order.invoiceId ≠ invoiceId then pure ⟨.note "invoice mismatch", 200⟩
      else
        applyEvent order data
        pure ⟨.ok, 200⟩

def handleWebhook (request : RestRequest Raw) : HookIo RestResponse :=
  if webhookSecret = "" then pure ⟨.error "webhook secret not configured", 500⟩
  else if request.signature ≠ "sha256=" ++ php.hmac webhookSecret request.raw then pure ⟨.error "invalid signature", 401⟩
  else
    match request.data with
    | none => pure ⟨.error "bad payload", 400⟩
    | some data => do
      if ← processedBefore php (data.eventId.getD request.delivery) then pure ⟨.dedupe, 200⟩
      else handleEvent php data

end

end GoblinPay.WooCommerce
