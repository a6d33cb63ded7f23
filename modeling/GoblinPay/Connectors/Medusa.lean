import GoblinPay.Connectors.Wire
import GoblinPay.Server.Config

/-!
# The Medusa provider

`connectors/medusa/src/service.ts`: the status polls and the webhook. The payment module of Medusa is a
function from a session's id to its amount; the HMAC is a function of the secret and the raw body.
-/

namespace GoblinPay.Medusa

/-- The statuses of a payment session the provider reports. -/
inductive SessionStatus
  | captured | canceled | pending
  deriving DecidableEq, Repr

inductive PaymentAction
  | successful | failed | notSupported
  deriving DecidableEq, Repr

/-- A `MedusaError`. -/
inductive MedusaError
  | invalidData (m : String)
  | unexpectedState (m : String)
  deriving DecidableEq, Repr

def mapStatus (status : String) : SessionStatus :=
  if status = "paid" then .captured
  else if status = "expired" then .canceled
  else .pending

/-! ## Polls -/

/-- `data` of a payment session: the invoice `initiatePayment` stored, or the last one that was read. -/
structure SessionData where
  goblinpay : Option InvoiceJson
  deriving DecidableEq, Repr

/-- The answer of `GET /invoice/{id}`, by the id in the path. -/
abbrev Get := String → Except HttpError InvoiceJson

/-- `request`: an error status is thrown, with the body's text. -/
def request : Except HttpError InvoiceJson → Except MedusaError InvoiceJson
  | .ok json => .ok json
  | .error e => .error (.unexpectedState e.message)

/-- An empty id counts as none. -/
def fetchInvoice (get : Get) (data : SessionData) : Except MedusaError InvoiceJson :=
  match data.goblinpay with
  | some stored =>
    if stored.invoiceId = "" then .error (.invalidData "No GoblinPay invoice_id on the payment session")
    else request (get stored.invoiceId)
  | none => .error (.invalidData "No GoblinPay invoice_id on the payment session")

def authorizePayment (get : Get) (data : SessionData) : Except MedusaError (SessionStatus × SessionData) := do
  let invoice ← fetchInvoice get data
  pure (mapStatus invoice.status, ⟨some invoice⟩)

def getPaymentStatus (get : Get) (data : SessionData) : Except MedusaError (SessionStatus × SessionData) := do
  let invoice ← fetchInvoice get data
  pure (mapStatus invoice.status, ⟨some invoice⟩)

/-! ## The webhook -/

section

variable {Amount : Type}

/-- `string | Buffer` -/
inductive RawBody
  | string (text : String)
  | buffer (bytes : List UInt8)
  deriving DecidableEq

/-- `ProviderWebhookPayload["payload"]`: the raw body, what Medusa decoded of it, and our header. -/
structure WebhookRequest where
  rawData : Option RawBody
  signature : Option String
  data : Option WebhookData

/-- `WebhookActionResult`. -/
structure WebhookActionResult (Amount : Type) where
  action : PaymentAction
  /-- `session_id` and `amount` -/
  data : Option (String × Amount) := none

variable (hmac : String → RawBody → String) (webhookSecret : String)

/-- An empty string counts as no body. -/
def verifySignature (payload : WebhookRequest) : Bool :=
  match payload.rawData with
  | none => false
  | some (.string "") => false
  | some raw => payload.signature.getD "" = "sha256=" ++ hmac webhookSecret raw

/-- A session that cannot be read counts as amount 0. -/
def sessionAmount [Zero Amount] (retrieve : String → Except String Amount) (sessionId : String) : Amount :=
  match retrieve sessionId with
  | .ok amount => amount
  | .error _ => 0

def getWebhookActionAndData [Zero Amount] (retrieve : String → Except String Amount) (payload : WebhookRequest) :
    WebhookActionResult Amount :=
  if verifySignature hmac webhookSecret payload then
    let data := payload.data.getD {}
    match data.orderRef with
    | none => { action := .notSupported }
    | some sessionId =>
      if sessionId = "" then { action := .notSupported }
      else if data.eventType = some "payment.received" || data.eventType = some "payment.confirmed" then
        { action := .successful, data := some (sessionId, sessionAmount retrieve sessionId) }
      else { action := .notSupported }
  else { action := .failed }

end

end GoblinPay.Medusa
