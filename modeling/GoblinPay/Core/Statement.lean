import GoblinPay.Core.Schema

/-!
# SQL statements

Every statement the server sends, under the name of the source function that holds it (or
of what it does, where one function sends several), with what it answers and what it leaves
in the database. The pool holds one connection, so a statement is atomic; between two
statements of one function anything may happen.

`now` is the clock SQLite reads, and `choice` picks a row where the query leaves the order
open.
-/

namespace GoblinPay

open Sql

inductive SqlxError
  | rowNotFound
  | database (message : String)
  deriving DecidableEq, Repr

/-- The columns `invoice::create` binds. -/
structure InvoiceRow where
  id : String
  orderRef : Option String
  expectedAmount : Option Int64
  expirySecs : Option Int64
  token : String
  memo : Option String
  recipientPubkey : String
  fiatAmount : Option String
  fiatCurrency : Option String
  matchMode : Option MatchMode
  quoteRate : Option String
  quoteSource : Option String
  deriving DecidableEq, Repr

def InvoiceRow.toInvoice (row : InvoiceRow) (now : Time) : Invoice where
  id := row.id
  orderRef := row.orderRef
  expectedAmount := row.expectedAmount
  expiry := row.expirySecs.bind (Time.plus now)
  status := .open
  createdAt := now
  token := some row.token
  memo := row.memo
  recipientPubkey := some row.recipientPubkey
  fiatAmount := row.fiatAmount
  fiatCurrency := row.fiatCurrency
  matchMode := row.matchMode
  paidPaymentId := none
  paidAt := none
  quoteRate := row.quoteRate
  quoteSource := row.quoteSource
  confirmedAt := none
  rail := none
  slateId := none
  slatepack := none

/-- The columns the two payment INSERTs bind (`record.rs` leaves `invoice_id` NULL,
`foreign.rs` leaves `payer`, `proof` and `s2_armor` NULL). -/
structure PaymentRow where
  slateId : String
  amount : Int64
  payer : Option String
  kernel : String
  proof : Option String
  s2Armor : Option String
  recipient : String
  invoiceId : Option String
  deriving DecidableEq, Repr

def PaymentRow.toPayment (row : PaymentRow) (now : Time) : Payment where
  slateId := row.slateId
  amount := row.amount
  payer := row.payer
  kernel := some row.kernel
  proof := row.proof
  s2Armor := row.s2Armor
  recipient := some row.recipient
  status := .received
  confirmedHeight := none
  confirmedAt := none
  confirmations := 0
  invoiceId := row.invoiceId
  userId := none
  createdAt := now

def WebhookPayload.toDelivery (payload : WebhookPayload) (url : String) (now : Time) : Delivery where
  id := payload.eventId
  paymentId := some payload.payment.slateId
  eventType := payload.eventType
  url := url
  body := payload
  attempts := 0
  delivered := false
  nextAttemptAt := now
  createdAt := now

namespace Invoice

def expire (inv : Invoice) : Invoice := { inv with status := .expired }

def pay (paymentId : String) (now : Time) (inv : Invoice) : Invoice :=
  { inv with status := .paid, paidPaymentId := some paymentId, paidAt := some now }

def arm (slateId slatepack : String) (inv : Invoice) : Invoice :=
  { inv with rail := some .grin1, slateId := some slateId, slatepack := some slatepack }

def confirm (now : Time) (inv : Invoice) : Invoice :=
  { inv with status := .confirmed, confirmedAt := some now }

/-- `resolve_derived`, `resolve_memo` and `resolve_amount` agree on this part. -/
def openIn (inv : Invoice) (default mode : MatchMode) : Bool :=
  inv.status = .open && inv.effectiveMode default = mode

end Invoice

namespace Payment

def link (invoiceId userId : Option String) (p : Payment) : Payment :=
  { p with invoiceId := invoiceId, userId := userId }

/-- `confirmed_at = COALESCE(confirmed_at, now)`: a later pass does not rewrite it. -/
def atDepth (height : Option Int64) (confirmations : Int64) (now : Time) (p : Payment) : Payment :=
  { p with status := .confirmed, confirmedHeight := height,
           confirmedAt := some (p.confirmedAt.getD now), confirmations := confirmations }

def reply (p : Payment) : Payment := { p with status := .replied }

/-- The confirmation poll's work list. -/
def pending (required : Int64) (p : Payment) : Bool := p.kernel.isSome && p.confirmations < required

def unreplied (p : Payment) : Bool := p.status = .received && p.s2Armor.isSome && p.payer.isSome

end Payment

namespace Db

def setInvoice (db : Db) (p : Invoice → Bool) (f : Invoice → Invoice) (hf : ∀ r, (f r).id = r.id) : Db :=
  { db with invoice := db.invoice.update p f hf }

def setPayment (db : Db) (p : Payment → Bool) (f : Payment → Payment)
    (hf : ∀ r, (f r).slateId = r.slateId) : Db :=
  { db with payment := db.payment.update p f hf }

def setUser (db : Db) (p : User → Bool) (f : User → User) (hf : ∀ r, (f r).id = r.id) : Db :=
  { db with user := db.user.update p f hf }

/-- The rows `resolve_derived` orders by age. -/
def derivedCandidates (db : Db) (default : MatchMode) (recipient : String) : List Invoice :=
  db.invoice.select fun inv => inv.recipientPubkey = some recipient && inv.openIn default .derived

/-- The rows `resolve_memo` orders by age. -/
def memoCandidates (db : Db) (default : MatchMode) (memo : String) : List Invoice :=
  db.invoice.select fun inv => inv.orderRef = some memo && inv.openIn default .memo

/-- The rows `resolve_amount` orders by age: the only one of the three that reads the clock. -/
def amountCandidates (db : Db) (default : MatchMode) (amount : UInt64) (now : Time) : List Invoice :=
  db.invoice.select fun inv =>
    inv.expectedAmount = some amount.toInt64 && inv.openIn default .amount && !inv.due now

/-- `rowid < (SELECT rowid FROM invoice WHERE id = i)`: a table keeps its rows in the order of their
rowids. -/
def earlierInvoices (db : Db) (i : String) : List Invoice :=
  if (db.invoice.get i).isSome then db.invoice.rows.takeWhile fun inv => inv.id ≠ i else []

/-- `ORDER BY epoch DESC LIMIT 1`. -/
def highest (rows : List Endpub) : Option Endpub :=
  rows.find? fun ep => rows.all fun other => other.epoch.toInt ≤ ep.epoch.toInt

theorem highest_of_unique {rows : List Endpub} {ep : Endpub} (hmem : ep ∈ rows)
    (hle : ∀ other ∈ rows, other.epoch.toInt ≤ ep.epoch.toInt)
    (hunique : ∀ other ∈ rows, ep.epoch.toInt ≤ other.epoch.toInt → other = ep) : highest rows = some ep := by
  cases hfind : highest rows with
  | none =>
    have none := List.find?_eq_none.1 hfind ep hmem
    exact absurd (List.all_eq_true.2 fun other hother => decide_eq_true (hle other hother)) none
  | some other =>
    have all : (rows.all fun ep => ep.epoch.toInt ≤ other.epoch.toInt) = true := by
      unfold highest at hfind
      have found := List.find?_some hfind
      exact found
    rw [hunique other (List.mem_of_find?_eq_some hfind) (of_decide_eq_true (List.all_eq_true.1 all ep hmem))]

def highestEndpub (db : Db) (userId : String) : Option Endpub := highest (db.endpub.select fun ep => ep.userId = userId)

/-- `ORDER BY created_at LIMIT 1`. -/
def oldest (rows : List Invoice) (choice : Nat) : Option Invoice := pick (first Invoice.createdAt rows) choice

theorem oldest_eq_none {rows : List Invoice} {choice : Nat} : oldest rows choice = none ↔ rows = [] := by
  rw [oldest, pick_eq_none, first_eq_nil]

theorem get_of_pick {db : Db} {p : Invoice → Bool} {choice : Nat} {inv : Invoice}
    (h : pick (db.invoice.select p) choice = some inv) : db.invoice.get inv.id = some inv ∧ p inv = true :=
  Table.mem_select.1 (pick_mem h)

theorem get_of_oldest {db : Db} {p : Invoice → Bool} {choice : Nat} {inv : Invoice}
    (h : oldest (db.invoice.select p) choice = some inv) : db.invoice.get inv.id = some inv ∧ p inv = true :=
  Table.mem_select.1 (first_subset (pick_mem h))

end Db

/-- `SUM` over integers: an error where a partial sum, in the order of the rows, leaves the 64-bit integers. -/
def sumInteger (amounts : List Int64) : Option Int64 :=
  amounts.foldlM (fun sum amount =>
    if -2 ^ 63 ≤ sum.toInt + amount.toInt ∧ sum.toInt + amount.toInt < 2 ^ 63 then some (sum + amount) else none) 0

inductive Stmt : Type → Type
  -- gp-core/src/invoice.rs
  | insertInvoice (row : InvoiceRow) : Stmt Unit
  | expireIfDueId (id : String) : Stmt Unit
  | expireIfDueToken (token : String) : Stmt Unit
  | expireDue : Stmt Nat
  | selectInvoice (id : String) : Stmt (Option Invoice)
  | selectByToken (token : String) : Stmt (Option Invoice)
  | selectBySlateId (slateId : String) : Stmt (Option Invoice)
  | selectRecent (limit : Int64) : Stmt (List Invoice)
  | markPaid (invoiceId paymentId : String) : Stmt Bool
  | attachGrin1 (invoiceId slateId slatepack : String) : Stmt Unit
  | markConfirmed (invoiceId : String) : Stmt Bool
  | markExpired (invoiceId : String) : Stmt Bool
  | dueGrin1Slates : Stmt (List (String × String))
  | countEarlierGrin1 (amount : Int64) (invoiceId : String) : Stmt Nat
  | confirmations (invoiceId : String) : Stmt (Option Int64)
  -- gp-core/src/matching.rs
  | resolveDerived (default : MatchMode) (recipient : String) : Stmt (Option String)
  | resolveMemo (default : MatchMode) (memo : String) : Stmt (Option String)
  | resolveAmount (default : MatchMode) (amount : UInt64) : Stmt (Option String)
  | expectedAmount (invoiceId : String) : Stmt (Option Int64)
  | linkPayment (slateId : String) (invoiceId userId : Option String) : Stmt Unit
  -- gp-core/src/webhook.rs
  | enqueue (url : String) (payload : WebhookPayload) : Stmt Unit
  -- gp-core/src/endpub.rs
  | insertUser (id : String) (rotateInterval : Option Int64) : Stmt Unit
  | insertAssignment (userId : String) (epoch : Int64) (pubkey : String) : Stmt Unit
  | selectAssignment (userId : String) (epoch : Int64) : Stmt Endpub
  | selectUser (id : String) : Stmt (Option User)
  | selectUsers : Stmt (List User)
  | setEpoch (id : String) (epoch : Int64) : Stmt Unit
  | setRotateInterval (id : String) (interval : Option Int64) : Stmt Bool
  | currentEndpub (userId : String) : Stmt (Option Endpub)
  | selectUsersByAge : Stmt (List User)
  | sumAmount (userId : String) : Stmt Int64
  | elapsedSince (at_ : Time) : Stmt Int
  | watchedPubkeys (overlap : Int64) : Stmt (List Endpub)
  | userForPubkey (pubkey : String) : Stmt (Option (String × Int64))
  -- gp-server/src/record.rs, foreign.rs, payments.rs, ingest.rs, directory.rs
  | insertPayment (row : PaymentRow) : Stmt Unit
  | deletePayment (slateId : String) : Stmt Unit
  | selectPending (required : Int64) : Stmt (List (String × String × Option String))
  | updateDepth (height : Option Int64) (confirmations : Int64) (slateId : String) : Stmt Unit
  | loadForWebhook (slateId : String) :
      Stmt (Option (Int64 × Option String × Option String × Option String))
  | markReplied (slateId : String) : Stmt Unit
  | selectUnreplied : Stmt (List (String × String × String × Option String))
  | selectDerivedInvoices (default : MatchMode) : Stmt (List (String × Option String))

/-- An INSERT's answer: a taken key is an error and changes nothing. -/
def inserted {α : Type} (db : Db) : Option α → (α → Db) → Except SqlxError Unit × Db
  | none, _ => (.error (.database "UNIQUE constraint failed"), db)
  | some t, set => (.ok (), set t)

/-- What a statement answers and leaves behind when the engine runs it. -/
def Stmt.exec {β : Type} (now : Time) (choice : Nat) (db : Db) : Stmt β → Except SqlxError β × Db
  | .insertInvoice row =>
    -- the checkout token has a unique index of its own
    if db.invoice.rows.any fun inv => inv.token = some row.token then
      (.error (.database "UNIQUE constraint failed"), db)
    else inserted db (db.invoice.insert (row.toInvoice now)) fun t => { db with invoice := t }
  | .expireIfDueId id =>
    (.ok (), db.setInvoice (fun inv => inv.id = id && inv.overdue now) Invoice.expire fun _ => rfl)
  | .expireIfDueToken token =>
    (.ok (), db.setInvoice (fun inv => inv.token = some token && inv.overdue now) Invoice.expire fun _ => rfl)
  | .expireDue =>
    (.ok (db.invoice.affected fun inv => inv.overdue now),
      db.setInvoice (fun inv => inv.overdue now) Invoice.expire fun _ => rfl)
  | .selectInvoice id => (.ok (db.invoice.get id), db)
  | .selectByToken token => (.ok (db.invoice.rows.find? fun inv => inv.token = some token), db)
  | .selectBySlateId sid => (.ok (pick (db.invoice.select fun inv => inv.slateId = some sid) choice), db)
  | .selectRecent limit =>
    let sorted := db.invoice.rows.mergeSort fun a b => b.createdAt ≤ a.createdAt
    (.ok (if limit < 0 then sorted else sorted.take limit.toNatClampNeg), db)
  | .markPaid i t =>
    (.ok (decide (0 < db.invoice.affected fun inv => inv.id = i && inv.status = .open)),
      db.setInvoice (fun inv => inv.id = i && inv.status = .open) (Invoice.pay t now) fun _ => rfl)
  | .attachGrin1 i sid pack =>
    (.ok (), db.setInvoice (fun inv => inv.id = i) (Invoice.arm sid pack) fun _ => rfl)
  | .markConfirmed i =>
    (.ok (decide (0 < db.invoice.affected fun inv => inv.id = i && inv.status = .paid)),
      db.setInvoice (fun inv => inv.id = i && inv.status = .paid) (Invoice.confirm now) fun _ => rfl)
  | .markExpired i =>
    (.ok (decide (0 < db.invoice.affected fun inv => inv.id = i && inv.status = .open)),
      db.setInvoice (fun inv => inv.id = i && inv.status = .open) Invoice.expire fun _ => rfl)
  | .dueGrin1Slates =>
    (.ok ((db.invoice.select fun inv => inv.isGrin1 && inv.overdue now).filterMap fun inv =>
      inv.slateId.map fun sid => (inv.id, sid)), db)
  | .countEarlierGrin1 amount i =>
    (.ok ((db.earlierInvoices i).filter fun inv =>
      inv.isGrin1 && inv.status = .open && inv.expectedAmount = some amount).length, db)
  | .confirmations i =>
    (.ok do
      let inv ← db.invoice.get i
      let t ← inv.paidPaymentId
      let p ← db.payment.get t
      some p.confirmations, db)
  | .resolveDerived default recipient =>
    (.ok ((Db.oldest (db.derivedCandidates default recipient) choice).map Invoice.id), db)
  | .resolveMemo default memo =>
    (.ok ((Db.oldest (db.memoCandidates default memo) choice).map Invoice.id), db)
  | .resolveAmount default amount =>
    (.ok ((Db.oldest (db.amountCandidates default amount now) choice).map Invoice.id), db)
  | .expectedAmount i =>
    match db.invoice.get i with
    | some inv => (.ok inv.expectedAmount, db)
    | none => (.error .rowNotFound, db)
  | .linkPayment t i u =>
    (.ok (), db.setPayment (fun p => p.slateId = t) (Payment.link i u) fun _ => rfl)
  | .enqueue url payload =>
    inserted db (db.delivery.insert (payload.toDelivery url now)) fun t => { db with delivery := t }
  | .insertUser id rotate =>
    inserted db (db.user.insert ⟨id, rotate, 0, now, now⟩) fun t => { db with user := t }
  | .insertAssignment u epoch pubkey =>
    -- INSERT OR IGNORE: a taken key is no error; an unknown user breaks the foreign key
    match db.endpub.insert ⟨u, epoch, pubkey, now⟩ with
    | none => (.ok (), db)
    | some t =>
      if (db.user.get u).isSome then (.ok (), { db with endpub := t })
      else (.error (.database "FOREIGN KEY constraint failed"), db)
  | .selectAssignment u epoch =>
    match db.endpub.get (u, epoch) with
    | some ep => (.ok ep, db)
    | none => (.error .rowNotFound, db)
  | .selectUser id => (.ok (db.user.get id), db)
  | .selectUsers => (.ok db.user.rows, db)
  | .setEpoch id epoch =>
    (.ok (), db.setUser (fun u => u.id = id) (fun u => { u with epoch := epoch, lastRotatedAt := now }) fun _ => rfl)
  | .setRotateInterval id interval =>
    (.ok (decide (0 < db.user.affected fun u => u.id = id)),
      db.setUser (fun u => u.id = id) (fun u => { u with rotateInterval := interval }) fun _ => rfl)
  | .currentEndpub userId => (.ok (db.highestEndpub userId), db)
  | .selectUsersByAge => (.ok (db.user.rows.mergeSort fun a b => b.createdAt ≤ a.createdAt), db)
  | .sumAmount userId =>
    ((sumInteger ((db.payment.select fun p => p.userId = some userId).map Payment.amount)).elim
      (.error (.database "integer overflow")) .ok, db)
  | .elapsedSince t => (.ok (now - t), db)
  | .watchedPubkeys overlap =>
    (.ok (db.endpub.select fun ep =>
      (db.user.get ep.userId).any fun u => u.epoch.toInt - overlap.toInt ≤ ep.epoch.toInt), db)
  | .userForPubkey pubkey =>
    (.ok ((pick (db.endpub.select fun ep => ep.pubkey = pubkey) choice).map Endpub.key), db)
  | .insertPayment row =>
    inserted db (db.payment.insert (row.toPayment now)) fun t => { db with payment := t }
  | .deletePayment t => (.ok (), { db with payment := db.payment.delete fun p => p.slateId = t })
  | .selectPending required =>
    (.ok ((db.payment.select fun p => p.pending required).filterMap fun p =>
      p.kernel.map fun kernel => (p.slateId, kernel, p.invoiceId)), db)
  | .updateDepth height confs t =>
    (.ok (), db.setPayment (fun p => p.slateId = t) (Payment.atDepth height confs now) fun _ => rfl)
  | .loadForWebhook t =>
    (.ok ((db.payment.get t).map fun p =>
      (p.amount, p.payer, p.userId, (p.invoiceId.bind db.invoice.get).bind Invoice.orderRef)), db)
  | .markReplied t => (.ok (), db.setPayment (fun p => p.slateId = t) Payment.reply fun _ => rfl)
  | .selectUnreplied =>
    (.ok ((db.payment.select Payment.unreplied).filterMap fun p => do
      let payer ← p.payer
      let s2 ← p.s2Armor
      some (p.slateId, payer, s2, p.recipient)), db)
  | .selectDerivedInvoices default =>
    (.ok ((db.invoice.select fun inv => inv.openIn default .derived).map fun inv =>
      (inv.id, inv.recipientPubkey)), db)

end GoblinPay
