import GoblinPay.Server.Config
import GoblinPay.Wallet.GpWallet
import GoblinPay.Core.Invoice

/-!
# The connector's invoice API

`gp-server/src/invoices.rs`: create an invoice (pricing a fiat amount first, arming the grin1
rail last) and read one back. The bearer check is left out: an unauthorized request touches
nothing.
-/

namespace GoblinPay

open Async

/-- The JSON body of `POST /invoice`. -/
structure CreateInvoiceBody where
  orderRef : Option String := none
  amountGrin : Option UInt64 := none
  amountFiat : Option String := none
  currency : Option String := none
  memo : Option String := none
  matchMode : Option String := none
  expirySecs : Option Int64 := none
  deriving DecidableEq, Repr

namespace Invoices

def parseMode (s : String) : Option MatchMode :=
  if s = "memo" then some .memo
  else if s = "derived" then some .derived
  else if s = "amount" then some .amount
  else none

/-- The amount a body states; an exact amount wins over a fiat one. -/
def amountSpec (body : CreateInvoiceBody) : Except HttpError AmountSpec :=
  match body.amountGrin, body.amountFiat, body.currency with
  | some nano, _, _ => .ok (.grin nano)
  | none, some amount, some currency => .ok (.fiat amount currency)
  | _, _, _ => .error ⟨400, "provide amount_grin, or amount_fiat + currency"⟩

def bodyMode (body : CreateInvoiceBody) : Except HttpError (Option MatchMode) :=
  match body.matchMode with
  | none => .ok none
  | some m =>
    match parseMode m with
    | some mode => .ok (some mode)
    | none => .error ⟨400, "match_mode must be memo, derived, or amount"⟩

def RateError.http : RateError → HttpError
  | .unsupportedCurrency c => ⟨400, "currency `" ++ c ++ "` is not enabled (see GP_RATE_CURRENCIES)"⟩
  | .badAmount a => ⟨400, "fiat amount `" ++ a ++ "` is not a valid decimal"⟩
  | .sourceUnavailable m => ⟨502, "price oracle unavailable: " ++ m⟩
  | .config m => ⟨500, "rate oracle misconfigured: " ++ m⟩

/-- Price a fiat amount and clamp the expiry to the quote's lock window; `ttl` is
`GP_QUOTE_TTL`. A Grin amount passes through. -/
def priceIfFiat (ttl : Int64) (params : NewInvoice) : Io (Except HttpError NewInvoice) := do
  match params.amount with
  | .fiat amount currency =>
    match ← (Prog.call (Eff.quote amount currency) : Io (Except RateError Quote)) with
    | .ok quote =>
      let secs := match params.expirySecs with
        | some secs => if 0 < secs ∧ secs < ttl then secs else ttl
        | none => ttl
      pure (.ok { params with
        expirySecs := some secs
        amount := .fiatQuoted amount currency quote.nanogrin quote.rate quote.source })
    | .error e => pure (.error (RateError.http e))
  | _ => pure (.ok params)

/-- Issue a grin invoice slate for an exact-amount invoice and store it. Best effort: the
invoice keeps its other rails when a step fails. -/
def armGrin1Rail (cfg : Config) (inv : Invoice) : Io Invoice := do
  if cfg.grin1Rail && cfg.walletLoaded then
    match inv.expectedAmount with
    | none => pure inv
    | some nano =>
      if nano ≤ 0 then pure inv
      else
        match ← (GpWallet.issueInvoice nano.toUInt64).run with
        | .error _ => pure inv
        | .ok issued =>
          match ← (Invoice.attachGrin1 inv.id issued.slateId issued.i1Armor).run with
          | .error _ => pure inv
          | .ok () =>
            match ← (Invoice.get inv.id).run with
            | .ok (some fresh) => pure fresh
            | _ => pure inv
  else pure inv

section

variable {W : Type} (U : Upstream W) (cfg : Config)

def createWith (masterSk : Secret) (params : NewInvoice) : Io (Except HttpError Invoice) := do
  match ← (Invoice.create U params masterSk (U.xonlyHex masterSk) cfg.matchMode).run with
  | .error _ => pure (.error ⟨500, "internal error"⟩)
  | .ok inv =>
    let inv ← armGrin1Rail cfg inv
    pure (.ok inv)

/-- `POST /invoice`. -/
def createInvoice (ttl : Int64) (body : CreateInvoiceBody) : Io (Except HttpError Invoice) := do
  match cfg.keys with
  | none => pure (.error ⟨503, "server identity not loaded (GP_INGEST=off)"⟩)
  | some masterSk =>
    match amountSpec body, bodyMode body with
    | .error e, _ => pure (.error e)
    | .ok _, .error e => pure (.error e)
    | .ok amount, .ok matchMode =>
      let params : NewInvoice := ⟨body.orderRef, amount, body.memo, matchMode, body.expirySecs⟩
      match ← priceIfFiat ttl params with
      | .error e => pure (.error e)
      | .ok params => createWith U cfg masterSk params

end

/-- `GET /invoice/{id}`: the row, lazily expired, with the depth of its payment. -/
def getInvoice (id : String) : Io (Except HttpError (Invoice × Int64)) := do
  match ← (Invoice.get id).run with
  | .error _ => pure (.error ⟨500, "internal"⟩)
  | .ok none => pure (.error ⟨404, "not found"⟩)
  | .ok (some inv) =>
    match ← (Invoice.confirmations inv.id).run with
    | .ok n => pure (.ok (inv, n))
    | .error _ => pure (.ok (inv, 0))

end Invoices

end GoblinPay
