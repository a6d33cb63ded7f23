import GoblinPay.Runs.Rules

/-!
# Footprints

What a program touches: the writes it can make to the tables, and that it leaves the relays and the memory of the process
alone. Reads, page loads and the wallet's own calls write nothing but a lazy expiry. Each of the other calls has a footprint of
its own, and a protocol owes nothing for the writes outside it.
-/

namespace GoblinPay

open Async

namespace Eff

variable {β : Type}

/-- An operation that leaves the ingest's markers and rate windows and the directory alone. -/
def Outside : Eff β → Prop
  | .isSeen _ | .mark _ | .allow .. | .snapshot | .setSnapshot _ | .restart => False
  | _ => True

/-- An operation that leaves the relays alone, too. -/
def Silent : Eff β → Prop
  | .deliver _ => False
  | e => e.Outside

/-- What leaves the relays alone leaves the memory of the ingest alone. -/
theorem Silent.outside {e : Eff β} (h : e.Silent) : e.Outside := by
  cases e <;> first | exact h.elim | exact h

end Eff

namespace Prog

variable {α β ε : Type} {P : Write → Prop} {p : Io α}

/-- A program of quiet operations. -/
def Quiet (p : Io α) : Prop := p.Only Eff.Quiet

/-- Every write the program can make is in `P`. -/
def Writes (P : Write → Prop) (p : Io α) : Prop := p.Only fun e => ∀ wr, e.write = some wr → P wr

/-- The program is silent, and its writes are in `P`. -/
def Footprint (P : Write → Prop) (p : Io α) : Prop := p.Only fun e => e.Silent ∧ ∀ wr, e.write = some wr → P wr

/-- A program with a footprint is silent. -/
theorem Footprint.silent (hp : Footprint P p) : p.Only Eff.Silent := Prog.Only.mono hp fun _ h => h.1

/-- The writes of a program with a footprint are in it. -/
theorem Footprint.writes (hp : Footprint P p) : Writes P p := Prog.Only.mono hp fun _ h => h.2

/-- A program with an empty footprint is quiet. -/
theorem Footprint.quiet (hp : Footprint (fun _ => False) p) : Quiet p :=
  Prog.Only.mono hp fun _ h => Option.eq_none_iff_forall_ne_some.2 fun wr hwr => (h.2 wr hwr).elim

theorem Footprint.bind {f : α → Io β} (hp : Footprint P p) (hf : ∀ a, Footprint P (f a)) : Footprint P (p >>= f) :=
  Prog.Only.bind hp hf

/-- What comes of a program may be dropped. -/
theorem Footprint.discard (hp : Footprint P p) : Footprint P (Functor.discard p) := hp.bind fun _ => trivial

theorem Footprint.done (hp : Footprint P p) : Footprint P (Prog.done p) := hp.bind fun _ => trivial

/-- A quiet program writes within any bound. -/
theorem Quiet.writes (hp : Quiet p) : Writes P p :=
  Prog.Only.mono hp fun e he wr hwr => by
    rw [show e.write = none from he] at hwr
    cases hwr

theorem Writes.bind {f : α → Io β} (hp : Writes P p) (hf : ∀ a, Writes P (f a)) : Writes P (p >>= f) := Prog.Only.bind hp hf

theorem Writes.bindExcept {m : ExceptT ε Io α} {f : α → ExceptT ε Io β} (hm : Writes P m.run) (hf : ∀ a, Writes P (f a).run) :
    Writes P (m >>= f).run := Prog.Only.bindExcept hm hf

end Prog

section

variable {α β ε : Type} {P : Write → Prop}

theorem quiet_sql {q : Stmt β} (h : (Eff.sql q).Quiet) : Prog.Quiet (sql q).run := Prog.Only.call h

/-- A statement makes the one write it stands for. -/
theorem writes_sql {q : Stmt β} {wr : Write} (h : (Eff.sql q).write = some wr) (hwr : P wr) :
    Prog.Writes P (sql q).run :=
  Prog.Only.call fun wr' hwr' => by
    rw [h] at hwr'
    cases hwr'
    exact hwr

/-- An operation that is silent and writes nothing. -/
theorem footprint_call {e : Eff β} (hs : e.Silent) (h : e.Quiet) : Prog.Footprint P (Prog.call e) :=
  Prog.Only.call ⟨hs, fun wr hwr => by
    rw [show e.write = none from h] at hwr
    cases hwr⟩

/-- A statement that writes nothing. -/
theorem footprint_read {q : Stmt β} (h : (Eff.sql q).Quiet) : Prog.Footprint P (sql q).run := footprint_call trivial h

/-- A statement that makes one write. -/
theorem footprint_write {q : Stmt β} {wr : Write} (h : (Eff.sql q).write = some wr) (hwr : P wr) :
    Prog.Footprint P (sql q).run :=
  Prog.Only.call ⟨trivial, fun wr' hwr' => by
    rw [h] at hwr'
    cases hwr'
    exact hwr⟩

/-- An identifier is drawn at random. -/
theorem footprint_draw : Prog.Footprint P (liftM randomId : ExceptT ε Io String).run :=
  Prog.Only.lift (footprint_call trivial rfl)

theorem quiet_upstream {e : Eff (Except String α)} {wrap : String → WalletError} (h : e.Quiet) :
    Prog.Quiet (GpWallet.upstream e wrap).run :=
  Prog.Only.bindExcept (Prog.Only.lift (Prog.Only.call h)) fun r => by cases r <;> exact trivial

/-- A call of the wallet, or of the node through it. -/
theorem footprint_upstream {e : Eff (Except String α)} {wrap : String → WalletError} (hs : e.Silent) (h : e.Quiet) :
    Prog.Footprint P (GpWallet.upstream e wrap).run :=
  Prog.Only.bindExcept (Prog.Only.lift (footprint_call hs h)) fun r => by cases r <;> exact trivial

/-! ## The database -/

namespace Invoice

/-- Looking an invoice up expires it first where it is due, which is no write of its own. -/
theorem footprint_get (id : String) : Prog.Footprint P (get id).run :=
  Prog.Only.bindExcept (footprint_read rfl) fun _ => footprint_read rfl

theorem footprint_getByToken (token : String) : Prog.Footprint P (getByToken token).run :=
  Prog.Only.bindExcept (footprint_read rfl) fun _ => footprint_read rfl

/-- The listing sweeps what is due first, which is no write of its own. -/
theorem footprint_list (limit : Int64) : Prog.Footprint P (list limit).run :=
  Prog.Only.bindExcept (Prog.Only.bindExcept (footprint_read rfl) fun _ => trivial) fun _ => footprint_read rfl

theorem footprint_confirmations (id : String) : Prog.Footprint P (confirmations id).run :=
  Prog.Only.bindExcept (footprint_read rfl) fun _ => trivial

theorem footprint_found (o : Option α) : Prog.Footprint P (found o).run := by
  cases o <;> exact trivial

/-- `create` inserts one row. -/
theorem footprint_create {W : Type} (U : Upstream W) (params : NewInvoice) (sk : Secret) (hex : String) (mode : MatchMode)
    (h : ∀ id token, P (.create (row U params sk hex mode id token))) : Prog.Footprint P (create U params sk hex mode).run := by
  refine Prog.Only.bindExcept footprint_draw fun id => Prog.Only.bindExcept footprint_draw fun token => ?_
  refine Prog.Only.bindExcept (footprint_write rfl (h _ _)) fun _ => Prog.Only.bindExcept (footprint_get _) fun inv => ?_
  exact footprint_found inv

end Invoice

/-- A payload takes an identifier and the time. -/
theorem footprint_received (sid : String) (a : UInt64) (payer inv ref user : Option String) :
    Prog.Footprint P (WebhookPayload.received sid a payer inv ref user) :=
  Prog.Only.bind (footprint_call trivial rfl) fun _ => Prog.Only.bind (footprint_call trivial rfl) fun _ => trivial

theorem footprint_confirmed (sid : String) (a : UInt64) (payer inv ref user : Option String) (height : Option UInt64) (n : UInt64) :
    Prog.Footprint P (WebhookPayload.confirmed sid a payer inv ref user height n) :=
  Prog.Only.bind (footprint_call trivial rfl) fun _ => Prog.Only.bind (footprint_call trivial rfl) fun _ => trivial

/-- Queueing a webhook inserts its row. -/
theorem footprint_enqueue (url : String) (payload : WebhookPayload) (h : P (.enqueue payload)) :
    Prog.Footprint P (enqueue url payload).run :=
  Prog.Only.bindExcept (footprint_write rfl h) fun _ => trivial

namespace Matching

/-- Finding the invoice of a payment reads only. -/
theorem footprint_resolve (mode : MatchMode) (incoming : IncomingPayment) : Prog.Footprint P (resolve mode incoming).run := by
  refine Prog.Only.bindExcept (footprint_read rfl) fun id => ?_
  cases id with
  | some id => exact trivial
  | none =>
    have memo : Prog.Footprint P (resolveMemo mode incoming.memo).run := by
      cases incoming.memo with
      | some memo => exact footprint_read rfl
      | none => exact trivial
    refine Prog.Only.bindExcept memo fun id => ?_
    cases id with
    | some id => exact trivial
    | none => exact footprint_read rfl

/-- `settle` marks the invoice paid, if there is one, and links the payment. -/
theorem footprint_settle (sid : String) (invoiceId user : Option String) (hpay : ∀ i, invoiceId = some i → P (.pay i sid))
    (hlink : P (.link sid invoiceId)) : Prog.Footprint P (settle sid invoiceId user).run := by
  have mark : Prog.Footprint P (markMatched sid invoiceId).run := by
    cases invoiceId with
    | some id => exact Prog.Only.bindExcept (footprint_write rfl (hpay id rfl)) fun _ => trivial
    | none => exact trivial
  exact Prog.Only.bindExcept mark fun _ => Prog.Only.bindExcept (footprint_write rfl hlink) fun _ => trivial

/-- `match_payment` settles the invoice it finds, or records that it found none. -/
theorem footprint_matchPayment (mode : MatchMode) (incoming : IncomingPayment)
    (hpay : ∀ i, P (.pay i incoming.slateId)) (hlink : ∀ i, P (.link incoming.slateId i)) :
    Prog.Footprint P (matchPayment mode incoming).run := by
  have settled : ∀ id user, Prog.Footprint P (settle incoming.slateId id user).run :=
    fun id user => footprint_settle _ _ _ (fun i _ => hpay i) (hlink id)
  refine Prog.Only.bindExcept (footprint_read rfl) fun user => Prog.Only.bindExcept (footprint_resolve _ _) fun id => ?_
  cases id with
  | none => exact settled _ _
  | some id =>
    refine Prog.Only.bindExcept (footprint_read rfl) fun expected => ?_
    split
    · exact trivial
    · exact settled _ _

end Matching

namespace Record

/-- The reference of the matched order is looked up for the payload. -/
theorem footprint_orderRef (invoiceId : Option String) : Prog.Footprint P (orderRef invoiceId) := by
  cases invoiceId with
  | none => exact trivial
  | some id =>
    refine Prog.Only.bind (Invoice.footprint_get id) fun r => ?_
    split <;> exact trivial

/-- The notification of a payment, if there is a webhook, is one row of the queue. -/
theorem footprint_notify (r : Received) (payer : Option String) (matched : MatchResult) (wh : Option (String × String))
    (henqueue : ∀ p, P (.enqueue p)) : Prog.Footprint P (notify r payer matched wh) := by
  unfold notify
  split
  · exact trivial
  · refine Prog.Only.bind (footprint_orderRef _) fun _ => Prog.Only.bind (footprint_received _ _ _ _ _ _) fun p => ?_
    exact (footprint_enqueue _ _ (henqueue p)).discard

/-- A rejected payment is deleted again, any other one notified. -/
theorem footprint_conclude (r : Received) (payer : Option String) (wh : Option (String × String)) (matched : MatchResult)
    (hdelete : P (.delete r.slateId)) (henqueue : ∀ p, P (.enqueue p)) : Prog.Footprint P (conclude r payer wh matched) := by
  unfold conclude
  split
  · exact Prog.Only.bind (footprint_write (q := .deletePayment r.slateId) rfl hdelete).discard fun _ => trivial
  · exact Prog.Only.bind (footprint_notify _ _ _ _ henqueue) fun _ => trivial

/-- `persist_and_match` writes the row of its slate, marks an invoice paid by it, links and deletes it, and notifies. -/
theorem footprint_persistAndMatch (r : Received) (payer : Option String) (rc : String) (memo : Option String) (mode : MatchMode)
    (wh : Option (String × String)) (hinsert : P (.insert (paymentRow r payer rc))) (hpay : ∀ i, P (.pay i r.slateId))
    (hlink : ∀ i, P (.link r.slateId i)) (hdelete : P (.delete r.slateId)) (henqueue : ∀ p, P (.enqueue p)) :
    Prog.Footprint P (persistAndMatch r payer rc memo mode wh) := by
  refine Prog.Only.bind (footprint_write (q := .insertPayment _) rfl hinsert).discard fun _ => ?_
  refine Prog.Only.bind (Matching.footprint_matchPayment _ _ hpay hlink) fun matched => ?_
  exact footprint_conclude _ _ _ _ hdelete henqueue

end Record

/-! ## The wallet -/

namespace GpWallet

/-- The kernel excess is read from the wallet's own transactions. -/
theorem footprint_slateKernelExcess (sid : String) : Prog.Footprint P (slateKernelExcess sid).run := by
  refine Prog.Only.bindExcept (footprint_upstream trivial rfl) fun r => ?_
  cases r <;> exact trivial

theorem footprint_slatepackKind (armor : String) : Prog.Footprint P (slatepackKind armor).run :=
  Prog.Only.bindExcept (footprint_upstream trivial rfl) fun _ => trivial

/-- An invoice slate is built by the wallet alone. -/
theorem footprint_issueInvoice (amount : UInt64) : Prog.Footprint P (issueInvoice amount).run := by
  refine Prog.Only.bindExcept (footprint_upstream trivial rfl) fun i1 => ?_
  split
  · exact Prog.Only.bindExcept (footprint_upstream trivial rfl) fun _ => trivial
  · exact trivial

/-- The poll of a kernel asks the node for the kernel and its own tip. -/
theorem footprint_confirmStatus (excess : String) : Prog.Footprint P (confirmStatus excess).run :=
  Prog.Only.bindExcept (footprint_upstream trivial rfl) fun _ => Prog.Only.bindExcept (footprint_upstream trivial rfl) fun _ => trivial

/-- The one write the wallet makes to the outside: the transaction it posts. -/
theorem footprint_finalizeAndPost (i2 : Slate) (hpost : ∀ slate, P (.post slate)) : Prog.Footprint P (finalizeAndPost i2).run := by
  refine Prog.Only.bindExcept (footprint_upstream trivial rfl) fun s3 => ?_
  have post : Prog.Footprint P (Prog.call (Eff.postTx s3)) := Prog.Only.call ⟨trivial, fun wr hwr => by
    cases hwr
    exact hpost s3⟩
  refine Prog.Only.bindExcept (Prog.Only.bindExcept (Prog.Only.lift post) fun r => ?_) fun _ => trivial
  cases r <;> exact trivial

/-- A pasted I2 is posted only when it is one. -/
theorem footprint_finalizeInvoiceSlatepack (armor : String) (hpost : ∀ slate, P (.post slate)) :
    Prog.Footprint P (finalizeInvoiceSlatepack armor).run := by
  refine Prog.Only.bindExcept (footprint_upstream trivial rfl) fun i2 => ?_
  split
  · refine Prog.Only.bindExcept (footprint_finalizeAndPost _ hpost) fun _ => ?_
    exact Prog.Only.bindExcept (footprint_slateKernelExcess _) fun _ => trivial
  · exact trivial

/-- An I2 that came in over the foreign API is finalized and posted. -/
theorem footprint_finalizeSlate (inSlate : VersionedSlate) (hpost : ∀ slate, P (.post slate)) :
    Prog.Footprint P (finalizeSlate inSlate).run :=
  Prog.Only.bindExcept (footprint_finalizeAndPost _ hpost) fun _ => Prog.Only.bindExcept (footprint_slateKernelExcess _) fun _ =>
    Prog.Only.bindExcept (footprint_upstream trivial rfl) fun _ => trivial

variable {W : Type} (U : Upstream W)

theorem footprint_bundle (s2 : Slate) (sid : String) (amount : UInt64) : Prog.Footprint P (bundle U s2 sid amount).run :=
  Prog.Only.bindExcept (footprint_slateKernelExcess sid) fun _ => Prog.Only.bindExcept trivial fun _ =>
    Prog.Only.bindExcept (footprint_upstream trivial rfl) fun _ => trivial

/-- Answering an S1 writes nothing to the tables. -/
theorem footprint_receiveSlatepack (armor : String) : Prog.Footprint P (receiveSlatepack U armor).run := by
  refine Prog.Only.bindExcept (footprint_upstream trivial rfl) fun slate => ?_
  split
  · exact Prog.Only.bindExcept (footprint_upstream trivial rfl) fun s2 => footprint_bundle U s2 _ _
  · exact trivial

theorem footprint_receiveSlate (inSlate : VersionedSlate) : Prog.Footprint P (receiveSlate U inSlate).run := by
  unfold receiveSlate
  dsimp only
  split
  · exact Prog.Only.bindExcept (footprint_upstream trivial rfl) fun s2 => Prog.Only.bindExcept (footprint_bundle U s2 _ _) fun _ =>
      Prog.Only.bindExcept (footprint_upstream trivial rfl) fun _ => trivial
  · exact trivial

/-- A cancelled context is the wallet's own. -/
theorem footprint_cancel (sid : String) : Prog.Footprint P (cancel U sid).run := by
  unfold cancel
  split
  · exact footprint_upstream trivial rfl
  · exact trivial

end GpWallet

/-! ## Requests -/

section

variable {W : Type} (U : Upstream W) (cfg : Config)

namespace Foreign

/-- A finalized invoice is recorded, marked paid and, if it was open, notified. -/
theorem footprint_settleFinalized (f : FinalizedInvoice) (wh : Option (String × String))
    (hinsert : ∀ inv, P (.insert (paymentRow inv f))) (hpay : ∀ i, P (.pay i f.slateId)) (henqueue : ∀ p, P (.enqueue p)) :
    Prog.Footprint P (settleFinalized f wh) := by
  refine Prog.Only.bind (footprint_read rfl) fun r => ?_
  split
  · exact trivial
  · exact trivial
  · refine Prog.Only.bind (footprint_write (q := .insertPayment _) rfl (hinsert _)).discard fun _ => ?_
    refine Prog.Only.bind (footprint_write rfl (hpay _)) fun r => ?_
    split
    · unfold notify
      split
      · exact trivial
      · exact Prog.Only.bind (footprint_received _ _ _ _ _ _) fun p => (footprint_enqueue _ _ (henqueue p)).discard
    · exact trivial
    · exact trivial

theorem footprint_receiveTx (slate : VersionedSlate) : Prog.Footprint (fun _ => True) (receiveTx U cfg slate) := by
  refine Prog.Only.bind (GpWallet.footprint_receiveSlate U slate) fun r => ?_
  split
  · exact trivial
  · refine Prog.Only.bind (Prog.Footprint.discard ?_) fun _ => trivial
    exact Record.footprint_persistAndMatch _ _ _ _ _ _ trivial (fun _ => trivial) (fun _ => trivial) trivial fun _ => trivial

theorem footprint_finalizeTx (slate : VersionedSlate) : Prog.Footprint (fun _ => True) (finalizeTx cfg slate) := by
  refine Prog.Only.bind (GpWallet.footprint_finalizeSlate slate fun _ => trivial) fun r => ?_
  split
  · exact trivial
  · exact Prog.Only.bind (footprint_settleFinalized _ _ (fun _ => trivial) (fun _ => trivial) fun _ => trivial) fun _ => trivial

/-- Each due invoice whose context is cancelled is expired. -/
theorem footprint_cancelDue (due : List (String × String)) (h : ∀ i, P (.expire i)) : Prog.Footprint P (cancelDue U due) := by
  induction due with
  | nil => exact trivial
  | cons d due ih =>
    refine Prog.Only.bind (GpWallet.footprint_cancel U _) fun r => ?_
    split
    · exact Prog.Only.bind (footprint_write (q := .markExpired _) rfl (h _)).discard fun _ => ih
    · exact ih

/-- The expiry sweep only expires invoices. -/
theorem footprint_expirySweep (h : ∀ i, P (.expire i)) : Prog.Footprint P (expirySweep U) := by
  refine Prog.Only.bind (footprint_read rfl) fun r => ?_
  split
  · exact footprint_cancelDue U _ h
  · exact trivial

end Foreign

namespace Checkout

/-- The payment page's status is read. -/
theorem footprint_payStatus (token : String) : Prog.Footprint P (payStatus token) := by
  refine Prog.Only.bind (Invoice.footprint_getByToken token) fun r => ?_
  split
  · exact trivial
  · exact trivial
  · refine Prog.Only.bind (Invoice.footprint_confirmations _) fun r => ?_
    split <;> exact trivial

theorem footprint_pasteS1 (inv : Invoice) (armor : String) : Prog.Footprint (fun _ => True) (pasteS1 U cfg inv armor) := by
  refine Prog.Only.bind (GpWallet.footprint_receiveSlatepack U armor) fun r => ?_
  split
  · exact trivial
  · refine Prog.Only.bind ?_ fun o => ?_
    · exact Record.footprint_persistAndMatch _ _ _ _ _ _ trivial (fun _ => trivial) (fun _ => trivial) trivial fun _ => trivial
    · split <;> exact trivial

theorem footprint_pasteI2 (armor : String) : Prog.Footprint (fun _ => True) (pasteI2 cfg armor) := by
  refine Prog.Only.bind (GpWallet.footprint_finalizeInvoiceSlatepack armor fun _ => trivial) fun r => ?_
  split
  · exact trivial
  · exact Prog.Only.bind (Foreign.footprint_settleFinalized _ _ (fun _ => trivial) (fun _ => trivial) fun _ => trivial) fun _ => trivial

theorem footprint_manualSlatepack (token armor : String) : Prog.Footprint (fun _ => True) (manualSlatepack U cfg token armor) := by
  refine Prog.Only.bind (Invoice.footprint_getByToken token) fun r => ?_
  split
  · exact trivial
  · exact trivial
  · split
    · refine Prog.Only.bind (GpWallet.footprint_slatepackKind _) fun r => ?_
      split
      · exact trivial
      · split
        · exact trivial
        · exact Prog.Only.bind (footprint_pasteS1 U cfg _ _) fun _ => trivial
        · exact Prog.Only.bind (footprint_pasteI2 cfg _) fun _ => trivial
    · exact trivial

end Checkout

namespace Invoices

/-- The API's invoice is read. -/
theorem footprint_getInvoice (id : String) : Prog.Footprint P (getInvoice id) := by
  refine Prog.Only.bind (Invoice.footprint_get id) fun r => ?_
  split
  · exact trivial
  · exact trivial
  · refine Prog.Only.bind (Invoice.footprint_confirmations _) fun r => ?_
    split <;> exact trivial

/-- A fiat price asks the rate oracle. -/
theorem footprint_priceIfFiat (ttl : Int64) (params : NewInvoice) : Prog.Footprint P (priceIfFiat ttl params) := by
  unfold priceIfFiat
  split
  · refine Prog.Only.bind (footprint_call (e := .quote _ _) trivial rfl) fun r => ?_
    split <;> exact trivial
  · exact trivial

/-- Arming stores the slate of the invoice's own I1. -/
theorem footprint_armGrin1Rail (inv : Invoice) (h : ∀ sid, P (.arm inv.id sid)) : Prog.Footprint P (armGrin1Rail cfg inv) := by
  unfold armGrin1Rail
  split
  · split
    · exact trivial
    · split
      · exact trivial
      · refine Prog.Only.bind (GpWallet.footprint_issueInvoice _) fun r => ?_
        split
        · exact trivial
        · refine Prog.Only.bind (footprint_write rfl (h _)) fun r => ?_
          split
          · exact trivial
          · refine Prog.Only.bind (Invoice.footprint_get _) fun r => ?_
            split <;> exact trivial
  · exact trivial

theorem footprint_createWith (sk : Secret) (params : NewInvoice)
    (hcreate : ∀ id token, P (.create (Invoice.row U params sk (U.xonlyHex sk) cfg.matchMode id token)))
    (harm : ∀ i sid, P (.arm i sid)) : Prog.Footprint P (createWith U cfg sk params) := by
  refine Prog.Only.bind (Invoice.footprint_create U _ _ _ _ hcreate) fun r => ?_
  split
  · exact trivial
  · exact Prog.Only.bind (footprint_armGrin1Rail _ _ (harm _)) fun _ => trivial

/-- `POST /invoice` inserts one invoice, for the server's identity, and may arm it. -/
theorem footprint_createInvoice (ttl : Int64) (body : CreateInvoiceBody) (hcreate : ∀ params sk id token, cfg.keys = some sk →
      P (.create (Invoice.row U params sk (U.xonlyHex sk) cfg.matchMode id token)))
    (harm : ∀ i sid, P (.arm i sid)) : Prog.Footprint P (createInvoice U cfg ttl body) := by
  unfold createInvoice
  split
  · exact trivial
  · rename_i sk hkeys
    split
    · exact trivial
    · exact trivial
    · refine Prog.Only.bind (footprint_priceIfFiat _ _) fun r => ?_
      split
      · exact trivial
      · exact footprint_createWith U cfg sk _ (fun id token => hcreate _ _ id token hkeys) harm

end Invoices

namespace Endpub

/-- An assignment is the derived key of the user at that epoch. -/
theorem footprint_assign (sk : Secret) (u : String) (epoch : Int64)
    (h : P (.assign u epoch (Derive.endpubPubkeyHex U sk u epoch))) : Prog.Footprint P (assign U sk u epoch).run :=
  Prog.Only.bindExcept (footprint_write rfl h) fun _ => footprint_read rfl

/-- A rotation raises the user's epoch and assigns its key. -/
theorem footprint_rotate (sk : Secret) (u : String) (hepoch : ∀ e, P (.epoch u e))
    (hassign : ∀ e, P (.assign u e (Derive.endpubPubkeyHex U sk u e))) : Prog.Footprint P (rotate U sk u).run := by
  refine Prog.Only.bindExcept (footprint_read rfl) fun row => Prog.Only.bindExcept (Invoice.footprint_found row) fun user => ?_
  exact Prog.Only.bindExcept (footprint_write rfl (hepoch _)) fun _ => footprint_assign U sk u _ (hassign _)

theorem footprint_rotateUsers (sk : Secret) (interval : Int64) (users : List User) (n : Nat) (hepoch : ∀ u e, P (.epoch u e))
    (hassign : ∀ u e, P (.assign u e (Derive.endpubPubkeyHex U sk u e))) :
    Prog.Footprint P (rotateUsers U sk interval users n).run := by
  induction users generalizing n with
  | nil => exact trivial
  | cons user users ih =>
    unfold rotateUsers
    dsimp only
    split
    · exact ih n
    · refine Prog.Only.bindExcept (footprint_read rfl) fun elapsed => ?_
      split
      · refine Prog.Only.bindExcept (Prog.Only.bindExcept ?_ fun _ => trivial) fun _ => ih _
        exact footprint_rotate U sk user.id (hepoch _) (hassign _)
      · exact ih n

/-- Rotating what is due is a rotation of each such user. -/
theorem footprint_rotateDue (sk : Secret) (interval : Int64) (hepoch : ∀ u e, P (.epoch u e))
    (hassign : ∀ u e, P (.assign u e (Derive.endpubPubkeyHex U sk u e))) : Prog.Footprint P (rotateDue U sk interval).run :=
  Prog.Only.bindExcept (footprint_read rfl) fun users => footprint_rotateUsers U sk interval users 0 hepoch hassign

/-- A new user comes with its first key. -/
theorem footprint_createUser (sk : Secret) (id : Option String) (interval : Option Int64)
    (huser : ∀ u, P (.user u)) (hassign : ∀ u e, P (.assign u e (Derive.endpubPubkeyHex U sk u e))) :
    Prog.Footprint P (createUser U sk id interval).run := by
  have create : ∀ u, Prog.Footprint P (do
      sql (.insertUser u interval)
      let endpub ← assign U sk u 0
      let user ← Invoice.found (← sql (.selectUser u))
      pure (user, endpub) : ExceptT SqlxError Io (User × Endpub)).run := fun u => by
    refine Prog.Only.bindExcept (footprint_write rfl (huser u)) fun _ => ?_
    refine Prog.Only.bindExcept (footprint_assign U sk u 0 (hassign u 0)) fun endpub => ?_
    refine Prog.Only.bindExcept (footprint_read rfl) fun row => ?_
    exact Prog.Only.bindExcept (Invoice.footprint_found row) fun _ => trivial
  cases id with
  | some u => exact create u
  | none => exact Prog.Only.bindExcept footprint_draw create

theorem footprint_balances (users : List User) : Prog.Footprint P (balances users).run := by
  induction users with
  | nil => exact trivial
  | cons user users ih =>
    refine Prog.Only.bindExcept (footprint_read rfl) fun endpub => Prog.Only.bindExcept (footprint_read rfl) fun balance => ?_
    exact Prog.Only.bindExcept ih fun _ => trivial

theorem footprint_listWithBalances : Prog.Footprint P listWithBalances.run :=
  Prog.Only.bindExcept (footprint_read rfl) fun users => footprint_balances users

end Endpub

namespace Payments

/-- A payment deep enough confirms its invoice, and the transition is notified. -/
theorem footprint_finalizeInvoice (policy : ConfirmPolicy) (sid inv : String) (height : Option Int64) (n : UInt64)
    (hconfirm : ∀ i, P (.confirm i)) (henqueue : ∀ p, P (.enqueue p)) :
    Prog.Footprint P (finalizeInvoice policy sid inv height n) := by
  refine Prog.Only.bind (footprint_write rfl (hconfirm _)) fun r => ?_
  split
  · split
    · refine Prog.Only.bind (footprint_read rfl) fun r => ?_
      split
      · exact Prog.Only.bind (footprint_confirmed _ _ _ _ _ _ _ _) fun payload => (footprint_enqueue _ _ (henqueue _)).discard
      · exact trivial
    · exact trivial
  · exact trivial
  · exact trivial

/-- One pass deepens each pending payment the node knows of. -/
theorem footprint_confirmAll (policy : ConfirmPolicy) (pending : List (String × String × Option String))
    (hdeepen : ∀ t c, P (.deepen t c)) (hconfirm : ∀ i, P (.confirm i)) (henqueue : ∀ p, P (.enqueue p)) :
    Prog.Footprint P (confirmAll policy pending) := by
  induction pending with
  | nil => exact trivial
  | cons d pending ih =>
    refine Prog.Only.bind (GpWallet.footprint_confirmStatus _) fun r => ?_
    split
    · split
      · refine Prog.Only.bind (Prog.Only.bind (footprint_write rfl (hdeepen _ _)) fun r => ?_) fun _ => ih
        split
        · exact trivial
        · split
          · split
            · exact footprint_finalizeInvoice _ _ _ _ _ hconfirm henqueue
            · exact trivial
          · exact trivial
      · exact ih
    · exact ih

/-- The confirmation poll records depths, confirms invoices and queues webhooks. -/
theorem footprint_confirmPoll (policy : ConfirmPolicy) (passes : Nat) (hdeepen : ∀ t c, P (.deepen t c))
    (hconfirm : ∀ i, P (.confirm i)) (henqueue : ∀ p, P (.enqueue p)) : Prog.Footprint P (confirmPoll policy passes) := by
  induction passes with
  | zero => exact trivial
  | succ n ih =>
    refine Prog.Only.bind (Prog.Footprint.discard ?_) fun _ => ih
    exact Prog.Only.bindExcept (footprint_read rfl) fun pending =>
      Prog.Only.lift (footprint_confirmAll _ _ hdeepen hconfirm henqueue)

end Payments

/-- What the receiver records is from the sender of the wrap, for the identity it opened with. -/
theorem footprint_receive (armor : String) (ctx : IncomingContext) :
    Prog.Footprint (fun wr => ∀ row, wr = .insert row → row.recipient = ctx.recipientHex ∧ row.payer = some ctx.payerHex)
      (WalletReceiver.receive U cfg armor ctx) := by
  refine Prog.Only.bind (GpWallet.footprint_receiveSlatepack U armor) fun r => ?_
  cases r with
  | error e => exact trivial
  | ok received =>
    refine Prog.Only.bind ?_ fun _ => trivial
    refine Record.footprint_persistAndMatch _ _ _ _ _ _ (fun row hrow => ?_) (fun _ _ => nofun) (fun _ _ => nofun) (fun _ => nofun) fun _ _ => nofun
    cases hrow
    exact ⟨rfl, rfl⟩

end

/-! ## Notifications -/

/-- The operations that queue a webhook. -/
inductive Eff.OfWebhook : {β : Type} → Eff β → Prop
  | draw : OfWebhook .randomId
  | clock : OfWebhook .clock
  | enqueue (url : String) (payload : WebhookPayload) : OfWebhook (.sql (.enqueue url payload))

/-- The operations of a notification: it looks the order up first. -/
inductive Eff.OfNotify : {β : Type} → Eff β → Prop
  | expire (id : String) : OfNotify (.sql (.expireIfDueId id))
  | select (id : String) : OfNotify (.sql (.selectInvoice id))
  | webhook {β : Type} {e : Eff β} (h : e.OfWebhook) : OfNotify e

theorem only_received (sid : String) (a : UInt64) (payer inv ref user : Option String) :
    (WebhookPayload.received sid a payer inv ref user).Only Eff.OfWebhook :=
  Prog.Only.bind (Prog.Only.call .draw) fun _ => Prog.Only.bind (Prog.Only.call .clock) fun _ => trivial

theorem only_enqueue (url : String) (payload : WebhookPayload) : (enqueue url payload).run.Only Eff.OfWebhook :=
  Prog.Only.bindExcept (Prog.Only.call (.enqueue url payload)) fun _ => trivial

/-- `persist_and_match` notifies by these operations only. -/
theorem Record.only_notify (r : Received) (payer : Option String) (matched : MatchResult) (wh : Option (String × String)) :
    (Record.notify r payer matched wh).Only Eff.OfNotify := by
  have ref : (Record.orderRef matched.invoiceId).Only Eff.OfNotify := by
    unfold Record.orderRef
    split
    · exact trivial
    · refine Prog.Only.bind (Prog.Only.bindExcept (Prog.Only.call (.expire _)) fun _ => Prog.Only.call (.select _)) fun r => ?_
      split <;> exact trivial
  unfold Record.notify
  split
  · exact trivial
  · exact Prog.Only.bind ref fun _ => Prog.Only.bind (Prog.Only.mono (only_received _ _ _ _ _ _) fun _ => .webhook) fun _ =>
      Prog.Only.bind (Prog.Only.mono (only_enqueue _ _) fun _ => .webhook) fun _ => trivial

/-- So does the settlement of a finalized invoice, which has the order at hand. -/
theorem Foreign.only_notify (inv : Invoice) (f : FinalizedInvoice) (wh : Option (String × String)) :
    (Foreign.notify inv f wh).Only Eff.OfWebhook := by
  unfold Foreign.notify
  split
  · exact trivial
  · exact Prog.Only.bind (only_received _ _ _ _ _ _) fun _ => Prog.Only.bind (only_enqueue _ _) fun _ => trivial

end

end GoblinPay
