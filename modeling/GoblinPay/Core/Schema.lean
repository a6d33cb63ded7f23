import GoblinPay.Sql.Table

/-!
# The database

The rows the server persists, as the migrations define them. Enumerated TEXT columns are
enumerations: the source writes no other strings into them. A timestamp is the number of
seconds since the Unix epoch of the ISO-8601 text, which sorts the same way. Amounts are the
`u64`s of the source up to the point where they are stored as SQLite's signed 64-bit
integers.
-/

namespace GoblinPay

open Sql

abbrev Time := Int

/-- The first and the last second a SQLite date can hold. -/
def minTime : Time := -210866760000
def maxTime : Time := 253402300799

/-- `strftime('%Y-%m-%dT%H:%M:%SZ', t, '<secs> seconds')`: NULL outside SQLite's dates. -/
def Time.plus (t : Time) (secs : Int64) : Option Time :=
  let at_ := t + secs.toInt
  if minTime ≤ at_ ∧ at_ ≤ maxTime then some at_ else none

inductive MatchMode
  | memo | derived | amount
  deriving DecidableEq, Repr

inductive InvoiceStatus
  | «open» | paid | confirmed | expired
  deriving DecidableEq, Repr

/-- The one marker value of `invoice.rail`. -/
inductive Rail
  | grin1
  deriving DecidableEq, Repr

structure Invoice where
  id : String
  orderRef : Option String
  expectedAmount : Option Int64
  expiry : Option Time
  status : InvoiceStatus
  createdAt : Time
  token : Option String
  memo : Option String
  recipientPubkey : Option String
  fiatAmount : Option String
  fiatCurrency : Option String
  matchMode : Option MatchMode
  paidPaymentId : Option String
  paidAt : Option Time
  quoteRate : Option String
  quoteSource : Option String
  confirmedAt : Option Time
  rail : Option Rail
  slateId : Option String
  slatepack : Option String
  deriving DecidableEq, Repr

namespace Invoice

/-- `COALESCE(match_mode, default)`. -/
def effectiveMode (inv : Invoice) (default : MatchMode) : MatchMode := inv.matchMode.getD default

def isGrin1 (inv : Invoice) : Bool := inv.rail = some .grin1

/-- `expiry IS NOT NULL AND expiry <= now`. -/
def due (inv : Invoice) (now : Time) : Bool := inv.expiry.any fun e => e ≤ now

/-- `status = 'open' AND expiry IS NOT NULL AND expiry <= now`: what lazy expiry flips. -/
def overdue (inv : Invoice) (now : Time) : Bool := inv.status = .open && inv.due now

/-- Expiries are never moved, and the clock does not run backwards. -/
theorem due_mono {inv : Invoice} {now now' : Time} (hle : now ≤ now') (h : inv.due now = true) : inv.due now' = true := by
  unfold due at h ⊢
  cases hexpiry : inv.expiry with
  | none => simp [hexpiry] at h
  | some e =>
    simp only [hexpiry, Option.any_some, decide_eq_true_eq] at h ⊢
    exact le_trans h hle

end Invoice

inductive PaymentStatus
  | received | replied | confirmed
  deriving DecidableEq, Repr

/-- A received payment. Both INSERTs bind the slate id to `id` and to `slate_id`, and no
UPDATE sets either, so the two columns are one field here. -/
structure Payment where
  slateId : String
  amount : Int64
  payer : Option String
  kernel : Option String
  proof : Option String
  s2Armor : Option String
  recipient : Option String
  status : PaymentStatus
  confirmedHeight : Option Int64
  confirmedAt : Option Time
  confirmations : Int64
  invoiceId : Option String
  userId : Option String
  createdAt : Time
  deriving DecidableEq, Repr

structure User where
  id : String
  rotateInterval : Option Int64
  epoch : Int64
  lastRotatedAt : Time
  createdAt : Time
  deriving DecidableEq, Repr

structure Endpub where
  userId : String
  epoch : Int64
  pubkey : String
  createdAt : Time
  deriving DecidableEq, Repr

def Endpub.key (ep : Endpub) : String × Int64 := (ep.userId, ep.epoch)

inductive EventType
  | paymentReceived | paymentConfirmed
  deriving DecidableEq, Repr

structure PaymentPayload where
  slateId : String
  amount : UInt64
  amountGrin : String
  status : PaymentStatus
  payer : Option String
  confirmedHeight : Option UInt64
  confirmations : Option UInt64
  deriving DecidableEq, Repr

/-- The webhook body. It is stored as its JSON text; the model keeps the value. -/
structure WebhookPayload where
  eventId : String
  eventType : EventType
  createdAt : Time
  payment : PaymentPayload
  invoiceId : Option String
  orderRef : Option String
  userId : Option String
  deriving DecidableEq, Repr

/-- A queued webhook delivery. -/
structure Delivery where
  id : String
  paymentId : Option String
  eventType : EventType
  url : String
  body : WebhookPayload
  attempts : Int64
  delivered : Bool
  nextAttemptAt : Time
  createdAt : Time
  deriving DecidableEq, Repr

structure Db where
  invoice : Table Invoice.id
  payment : Table Payment.slateId
  user : Table User.id
  endpub : Table Endpub.key
  delivery : Table Delivery.id

def Db.empty : Db := ⟨.empty, .empty, .empty, .empty, .empty⟩

end GoblinPay
