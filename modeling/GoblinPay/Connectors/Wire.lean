import GoblinPay.Core.Schema

/-!
# What the server tells a store

The JSON a store's plugin gets from GoblinPay, once decoded, as far as the plugins read it: the body of a
webhook, where a `null` is a field that is not there, and the invoice of `GET /invoice/{id}`.
-/

namespace GoblinPay

/-- `InvoiceStatus::as_str`. -/
def InvoiceStatus.asStr : InvoiceStatus → String
  | .open => "open"
  | .paid => "paid"
  | .confirmed => "confirmed"
  | .expired => "expired"

def EventType.asStr : EventType → String
  | .paymentReceived => "payment.received"
  | .paymentConfirmed => "payment.confirmed"

/-- The body of a webhook. -/
structure WebhookData where
  eventId : Option String := none
  eventType : Option String := none
  orderRef : Option String := none
  invoiceId : Option String := none
  /-- `payment.slate_id` -/
  slateId : Option String := none
  /-- `payment.confirmed_height` -/
  confirmedHeight : Option UInt64 := none
  deriving DecidableEq, Repr

/-- `to_body`, as a plugin decodes it. -/
def WebhookPayload.data (payload : WebhookPayload) : WebhookData where
  eventId := some payload.eventId
  eventType := some payload.eventType.asStr
  orderRef := payload.orderRef
  invoiceId := payload.invoiceId
  slateId := some payload.payment.slateId
  confirmedHeight := payload.payment.confirmedHeight

/-- The invoice of `GET /invoice/{id}`. -/
structure InvoiceJson where
  invoiceId : String
  status : String
  deriving DecidableEq, Repr

def Invoice.json (inv : Invoice) : InvoiceJson := ⟨inv.id, inv.status.asStr⟩

end GoblinPay
