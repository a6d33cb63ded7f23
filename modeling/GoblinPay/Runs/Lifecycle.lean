import GoblinPay.Server.System
import Mathlib.Logic.Relation

/-!
# The life of an invoice

About ten operations write an invoice row, each behind a guard of its own. Whatever programs run
on the ledger, a row is born open, moves along `open`, `paid`, `confirmed` or from `open` to
`expired`, and carries its payment and its dates exactly while its status says so. One operation
is one `InvoiceChange`; the rest is induction on the run.
-/

namespace GoblinPay

open Async

/-- The moves of an invoice's status. -/
inductive InvoiceStatus.Moves : InvoiceStatus → InvoiceStatus → Prop
  | pay : Moves .open .paid
  | confirm : Moves .paid .confirmed
  | expire : Moves .open .expired

namespace Invoice

/-- The payment and the dates of a row go with its status. -/
structure Coherent (inv : Invoice) : Prop where
  paidPaymentId : inv.paidPaymentId.isSome ↔ inv.status = .paid ∨ inv.status = .confirmed
  paidAt : inv.paidAt.isSome ↔ inv.status = .paid ∨ inv.status = .confirmed
  confirmedAt : inv.confirmedAt.isSome ↔ inv.status = .confirmed

/-- What an older row keeps, and how far its status may have moved. -/
structure Ages (inv inv' : Invoice) : Prop where
  status : Relation.ReflTransGen InvoiceStatus.Moves inv.status inv'.status
  id : inv'.id = inv.id
  token : inv'.token = inv.token
  expectedAmount : inv'.expectedAmount = inv.expectedAmount
  recipientPubkey : inv'.recipientPubkey = inv.recipientPubkey
  matchMode : inv'.matchMode = inv.matchMode
  expiry : inv'.expiry = inv.expiry
  paidPaymentId : ∀ t, inv.paidPaymentId = some t → inv'.paidPaymentId = some t
  paidAt : ∀ at_, inv.paidAt = some at_ → inv'.paidAt = some at_

theorem Ages.refl (inv : Invoice) : inv.Ages inv :=
  ⟨.refl, rfl, rfl, rfl, rfl, rfl, rfl, fun _ h => h, fun _ h => h⟩

theorem Ages.trans {a b c : Invoice} (h : a.Ages b) (h' : b.Ages c) : a.Ages c where
  status := h.status.trans h'.status
  id := h'.id.trans h.id
  token := h'.token.trans h.token
  expectedAmount := h'.expectedAmount.trans h.expectedAmount
  recipientPubkey := h'.recipientPubkey.trans h.recipientPubkey
  matchMode := h'.matchMode.trans h.matchMode
  expiry := h'.expiry.trans h.expiry
  paidPaymentId t ht := h'.paidPaymentId t (h.paidPaymentId t ht)
  paidAt at_ hat := h'.paidAt at_ (h.paidAt at_ hat)

theorem coherent_toInvoice (row : InvoiceRow) (now : Time) : (row.toInvoice now).Coherent := by
  constructor <;> simp [InvoiceRow.toInvoice]

variable {inv : Invoice}

/-- An open row names no payment. -/
theorem Coherent.unpaid (h : inv.Coherent) (hopen : inv.status = .open) :
    inv.paidPaymentId = none ∧ inv.paidAt = none := by
  have hid := h.paidPaymentId
  have hat := h.paidAt
  simp only [hopen, reduceCtorEq, or_self, iff_false, Bool.not_eq_true, Option.isSome_eq_false_iff,
    Option.isNone_iff_eq_none] at hid hat
  exact ⟨hid, hat⟩

theorem Coherent.unconfirmed (h : inv.Coherent) (hne : inv.status ≠ .confirmed) : inv.confirmedAt = none := by
  have := h.confirmedAt
  simpa [hne] using this

theorem Coherent.expire (h : inv.Coherent) (hopen : inv.status = .open) : inv.expire.Coherent := by
  obtain ⟨hid, hat⟩ := h.unpaid hopen
  have hconfirmed := h.unconfirmed (by rw [hopen]; decide)
  constructor <;> simp [Invoice.expire, hid, hat, hconfirmed]

theorem Coherent.pay (h : inv.Coherent) (hopen : inv.status = .open) (t : String) (now : Time) :
    (inv.pay t now).Coherent := by
  have hconfirmed := h.unconfirmed (by rw [hopen]; decide)
  constructor <;> simp [Invoice.pay, hconfirmed]

theorem Coherent.confirm (h : inv.Coherent) (hpaid : inv.status = .paid) (now : Time) :
    (inv.confirm now).Coherent := by
  have hid := h.paidPaymentId.2 (Or.inl hpaid)
  have hat := h.paidAt.2 (Or.inl hpaid)
  constructor <;> simp [Invoice.confirm, hid, hat]

theorem ages_expire (hopen : inv.status = .open) : inv.Ages inv.expire :=
  ⟨.single (hopen ▸ .expire), rfl, rfl, rfl, rfl, rfl, rfl, fun _ h => h, fun _ h => h⟩

theorem Coherent.ages_pay (h : inv.Coherent) (hopen : inv.status = .open) (t : String) (now : Time) :
    inv.Ages (inv.pay t now) where
  status := .single (hopen ▸ .pay)
  id := rfl
  token := rfl
  expectedAmount := rfl
  recipientPubkey := rfl
  matchMode := rfl
  expiry := rfl
  paidPaymentId t' ht' := by
    rw [(h.unpaid hopen).1] at ht'
    cases ht'
  paidAt at_ hat := by
    rw [(h.unpaid hopen).2] at hat
    cases hat

theorem ages_arm (inv : Invoice) (sid pack : String) : inv.Ages (inv.arm sid pack) :=
  ⟨.refl, rfl, rfl, rfl, rfl, rfl, rfl, fun _ h => h, fun _ h => h⟩

theorem ages_confirm (hpaid : inv.status = .paid) (now : Time) : inv.Ages (inv.confirm now) :=
  ⟨.single (hpaid ▸ .confirm), rfl, rfl, rfl, rfl, rfl, rfl, fun _ h => h, fun _ h => h⟩

end Invoice

section

variable {W : Type} (U : Upstream W) {β : Type} (e : Eff β) (x : Answer) (w : World W)

/-- Every row of the ledger is coherent. -/
def LedgerCoherent (w : World W) : Prop := ∀ i inv, w.db.invoice.get i = some inv → inv.Coherent

/-- Every row is kept, and no more than aged. -/
def LedgerAges (w w' : World W) : Prop :=
  ∀ i inv, w.db.invoice.get i = some inv → ∃ inv', w'.db.invoice.get i = some inv' ∧ inv.Ages inv'

/-- One operation moves a row's status once at most, and a row that appears is open. -/
def MovesOnce (w w' : World W) : Prop :=
  ∀ i inv', w'.db.invoice.get i = some inv' →
    (w.db.invoice.get i = none → inv'.status = .open) ∧
    ∀ inv, w.db.invoice.get i = some inv → inv'.status = inv.status ∨ InvoiceStatus.Moves inv.status inv'.status

variable {w}

theorem LedgerCoherent.step (h : LedgerCoherent w) : LedgerCoherent (act U x w e).2 := by
  intro i inv' hget'
  have change := e.invoice_change U x w i
  rw [hget'] at change
  generalize hr : w.db.invoice.get i = r at change
  cases change with
  | keep => exact h i inv' hr
  | create => exact Invoice.coherent_toInvoice _ _
  | @expire inv hby => exact (h i inv hr).expire (Eff.open_of_lapses hby)
  | @sweep inv _ hopen => exact (h i inv hr).expire hopen
  | @pay inv t _ hopen => exact (h i inv hr).pay hopen t _
  | @arm inv => exact ⟨(h i inv hr).1, (h i inv hr).2, (h i inv hr).3⟩
  | @confirm inv _ hpaid => exact (h i inv hr).confirm hpaid _

theorem LedgerCoherent.ages (h : LedgerCoherent w) : LedgerAges w (act U x w e).2 := by
  intro i inv hget
  have change := e.invoice_change U x w i
  rw [hget] at change
  generalize hr : (act U x w e).2.db.invoice.get i = r at change
  cases change with
  | keep => exact ⟨inv, rfl, .refl inv⟩
  | expire hby => exact ⟨_, rfl, Invoice.ages_expire (Eff.open_of_lapses hby)⟩
  | sweep _ hopen => exact ⟨_, rfl, Invoice.ages_expire hopen⟩
  | pay _ hopen => exact ⟨_, rfl, (h i inv hget).ages_pay hopen _ _⟩
  | arm => exact ⟨_, rfl, inv.ages_arm _ _⟩
  | confirm _ hpaid => exact ⟨_, rfl, Invoice.ages_confirm hpaid _⟩

variable (w) in
theorem Eff.moves_once : MovesOnce w (act U x w e).2 := by
  intro i inv' hget'
  have change := e.invoice_change U x w i
  rw [hget'] at change
  generalize w.db.invoice.get i = r at change
  refine ⟨fun hnone => ?_, fun inv hsome => ?_⟩
  · subst hnone
    cases change with
    | create => rfl
  · subst hsome
    cases change with
    | keep | arm => exact Or.inl rfl
    | expire hby => exact Or.inr (Eff.open_of_lapses hby ▸ .expire)
    | sweep _ hopen => exact Or.inr (hopen ▸ .expire)
    | pay _ hopen => exact Or.inr (hopen ▸ .pay)
    | confirm _ hpaid => exact Or.inr (hpaid ▸ .confirm)

end

/-! ## Runs -/

/-- The operations on invoices, with every argument their callers may pass. -/
inductive LedgerCall
  | create (params : NewInvoice) (masterSk : Secret) (masterPubkeyHex : String) (defaultMode : MatchMode)
  | get (id : String)
  | getByToken (token : String)
  | list (limit : Int64)
  | attachGrin1 (invoiceId slateId slatepack : String)
  | markPaid (invoiceId paymentId : String)
  | markConfirmed (invoiceId : String)
  | expireDue
  | markExpired (invoiceId : String)
  | matchPayment (defaultMode : MatchMode) (incoming : IncomingPayment)
  | settleFinalized (finalized : FinalizedInvoice) (webhook : Option (String × String))
  | finalizeInvoice (policy : ConfirmPolicy) (slateId invoiceId : String) (confirmedHeight : Option Int64)
      (confirmations : UInt64)
  | elapse (secs : Nat)

section

variable {W : Type} (U : Upstream W)

def LedgerCall.code : LedgerCall → Io Reply
  | .create params masterSk masterPubkeyHex mode => Prog.done (Invoice.create U params masterSk masterPubkeyHex mode).run
  | .get id => Prog.done (Invoice.get id).run
  | .getByToken token => Prog.done (Invoice.getByToken token).run
  | .list limit => Prog.done (Invoice.list limit).run
  | .attachGrin1 i sid pack => Prog.done (Invoice.attachGrin1 i sid pack).run
  | .markPaid i t => Prog.done (Invoice.markPaid i t).run
  | .markConfirmed i => Prog.done (Invoice.markConfirmed i).run
  | .expireDue => Prog.done (sql .expireDue).run
  | .markExpired i => Prog.done (Invoice.markExpired i).run
  | .matchPayment mode incoming => Prog.done (Matching.matchPayment mode incoming).run
  | .settleFinalized finalized webhook => Prog.done (Foreign.settleFinalized finalized webhook)
  | .finalizeInvoice policy sid i height n => Prog.done (Payments.finalizeInvoice policy sid i height n)
  | .elapse secs => Prog.done (Prog.call (Eff.elapse secs))

/-- The ledger's life over the run `ms` of the programs `code`: in every state its rows are
coherent, each has aged since every earlier state, and each operation moved it once at most. -/
structure Lifecycle {γ ρ : Type} (code : γ → Io ρ) (w : World W) (ms : List (Move γ Answer)) : Prop where
  coherent : LedgerCoherent (Pool.run (handler U) code (Pool.start w) ms).state
  ages : ∀ ms₁ ms₂, ms = ms₁ ++ ms₂ → LedgerAges (Pool.run (handler U) code (Pool.start w) ms₁).state
    (Pool.run (handler U) code (Pool.start w) ms).state
  moves : ∀ ev ∈ Pool.trace (handler U) code (Pool.start w) ms, MovesOnce ev.state (ev.after (handler U))

theorem LedgerAges.refl (w : World W) : LedgerAges w w := fun _ inv h => ⟨inv, h, .refl inv⟩

theorem LedgerAges.trans {a b c : World W} (h : LedgerAges a b) (h' : LedgerAges b c) : LedgerAges a c := by
  intro i inv hget
  obtain ⟨inv', hget', hages⟩ := h i inv hget
  obtain ⟨inv'', hget'', hages'⟩ := h' i inv' hget'
  exact ⟨inv'', hget'', hages.trans hages'⟩

variable {U} in
/-- From a coherent ledger on, every run of every family of programs is a life of the ledger. -/
theorem LedgerCoherent.lifecycle {γ ρ : Type} {code : γ → Io ρ} {w : World W} (hw : LedgerCoherent w)
    (ms : List (Move γ Answer)) : Lifecycle U code w ms := by
  have step : ∀ {P : Pool Eff γ (World W) ρ} {ms : List (Move γ Answer)},
      ∀ ev ∈ Pool.trace (handler U) code P ms, LedgerCoherent ev.state → LedgerCoherent (ev.after (handler U)) :=
    fun ev _ h => h.step U ev.eff ev.input
  have coherent : ∀ ms, LedgerCoherent (Pool.run (handler U) code (Pool.start w) ms).state := fun ms =>
    Pool.inv_run (handler U) code (P := Pool.start w) hw step
  refine ⟨coherent ms, fun ms₁ ms₂ hms => ?_, fun ev _ => ev.eff.moves_once U ev.input ev.state⟩
  subst hms
  rw [Pool.run_append]
  refine Pool.run_rel (handler U) code LedgerAges.refl (fun h h' => h.trans h') fun ev hev => ?_
  have here : LedgerCoherent ev.state := Pool.inv_mem_trace (handler U) code (coherent ms₁) step hev
  exact here.ages U ev.eff ev.input

/-- From an empty database on, every interleaving of the ledger's operations is a life of the
ledger. -/
theorem ledger_lifecycle (U : Upstream W) (wallet : W) (now : Time) (ms : List (Move LedgerCall Answer)) :
    Lifecycle U (LedgerCall.code U) (World.fresh wallet now) ms := by
  have empty : LedgerCoherent (World.fresh wallet now) := fun i inv hget => (World.fresh_invoice hget).elim
  exact empty.lifecycle ms

end

end GoblinPay
