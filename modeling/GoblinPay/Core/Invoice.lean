import GoblinPay.Core.Derive

/-!
# Invoices

`gp-core/src/invoice.rs`. Expiry is lazy: a past-expiry row keeps the status `open` until a
read or the sweep flips it.
-/

namespace GoblinPay

open Async

/-- `AmountSpec`. -/
inductive AmountSpec
  | grin (nano : UInt64)
  | fiat (amount currency : String)
  | fiatQuoted (amount currency : String) (nanogrin : UInt64) (rate source : String)
  deriving DecidableEq, Repr

structure NewInvoice where
  orderRef : Option String
  amount : AmountSpec
  memo : Option String
  matchMode : Option MatchMode
  expirySecs : Option Int64
  deriving DecidableEq, Repr

/-- `expected_amount`: the exact amount, `as i64`. -/
def AmountSpec.expectedAmount : AmountSpec → Option Int64
  | .grin nano => some nano.toInt64
  | .fiat _ _ => none
  | .fiatQuoted _ _ nanogrin _ _ => some nanogrin.toInt64

def AmountSpec.fiatAmount : AmountSpec → Option String
  | .grin _ => none
  | .fiat amount _ => some amount
  | .fiatQuoted amount _ _ _ _ => some amount

def AmountSpec.fiatCurrency : AmountSpec → Option String
  | .grin _ => none
  | .fiat _ currency => some currency
  | .fiatQuoted _ currency _ _ _ => some currency

def AmountSpec.quoteRate : AmountSpec → Option String
  | .fiatQuoted _ _ _ rate _ => some rate
  | _ => none

def AmountSpec.quoteSource : AmountSpec → Option String
  | .fiatQuoted _ _ _ _ source => some source
  | _ => none

namespace Invoice

/-- `fetch_optional` followed by `ok_or(RowNotFound)`. -/
def found {α : Type} : Option α → ExceptT SqlxError Io α
  | some a => pure a
  | none => throw .rowNotFound

def get (id : String) : ExceptT SqlxError Io (Option Invoice) := do
  sql (.expireIfDueId id)
  sql (.selectInvoice id)

def getByToken (token : String) : ExceptT SqlxError Io (Option Invoice) := do
  sql (.expireIfDueToken token)
  sql (.selectByToken token)

def list (limit : Int64) : ExceptT SqlxError Io (List Invoice) := do
  discard <| sql .expireDue
  sql (.selectRecent limit)

def getBySlateId (slateId : String) : ExceptT SqlxError Io (Option Invoice) := sql (.selectBySlateId slateId)

def markPaid (invoiceId paymentId : String) : ExceptT SqlxError Io Bool := sql (.markPaid invoiceId paymentId)

def attachGrin1 (invoiceId slateId slatepack : String) : ExceptT SqlxError Io Unit :=
  sql (.attachGrin1 invoiceId slateId slatepack)

def markConfirmed (invoiceId : String) : ExceptT SqlxError Io Bool := sql (.markConfirmed invoiceId)

def markExpired (invoiceId : String) : ExceptT SqlxError Io Bool := sql (.markExpired invoiceId)

def dueGrin1Slates : ExceptT SqlxError Io (List (String × String)) := sql .dueGrin1Slates

/-- Whether the pay page may offer a plain send to the shared address: only the earliest open
invoice of the rail holds its amount. -/
def plainSendAllowed (inv : Invoice) : ExceptT SqlxError Io Bool := do
  if inv.isGrin1 then
    match inv.expectedAmount with
    | none => pure false
    | some amount =>
      if amount ≤ 0 then pure false
      else
        let earlier ← sql (.countEarlierGrin1 amount inv.id)
        pure (earlier == 0)
  else pure false

/-- The recorded depth of the payment that paid this invoice, 0 when there is none. -/
def confirmations (invoiceId : String) : ExceptT SqlxError Io Int64 := do
  let n ← sql (.confirmations invoiceId)
  pure (n.getD 0)

section

variable {W : Type} (U : Upstream W)

/-- The row `create` inserts for the drawn `id` and `token`. -/
def row (params : NewInvoice) (masterSk : Secret) (masterPubkeyHex : String) (defaultMode : MatchMode)
    (id token : String) : InvoiceRow where
  id := id
  orderRef := params.orderRef
  expectedAmount := params.amount.expectedAmount
  expirySecs := params.expirySecs
  token := token
  memo := params.memo
  -- derived mode receives on a child key of its own, everything else on the master key
  recipientPubkey :=
    if params.matchMode.getD defaultMode = .derived then Derive.invoicePubkeyHex U masterSk id
    else masterPubkeyHex
  fiatAmount := params.amount.fiatAmount
  fiatCurrency := params.amount.fiatCurrency
  matchMode := params.matchMode
  quoteRate := params.amount.quoteRate
  quoteSource := params.amount.quoteSource

def create (params : NewInvoice) (masterSk : Secret) (masterPubkeyHex : String) (defaultMode : MatchMode) :
    ExceptT SqlxError Io Invoice := do
  let id ← randomId
  let token ← randomId
  sql (.insertInvoice (row U params masterSk masterPubkeyHex defaultMode id token))
  found (← get id)

end

end Invoice

end GoblinPay
