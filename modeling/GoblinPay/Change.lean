import GoblinPay.World

/-!
# What an operation can change

One inversion per table: whatever operation runs, the row under a key is kept or changed in
one of a few ways, and each way names the statement that does it. Every invariant of the
development is derived from these, never from the statements' definitions.
-/

namespace GoblinPay

open Sql

/-- The writes the invariants speak about, with what they bind. -/
inductive Write
  | create (row : InvoiceRow)
  | pay (invoiceId paymentId : String)
  | arm (invoiceId slateId : String)
  | confirm (invoiceId : String)
  | expire (invoiceId : String)
  | insert (row : PaymentRow)
  | link (slateId : String) (invoiceId : Option String)
  | delete (slateId : String)
  | deepen (slateId : String) (confirmations : Int64)
  | reply (slateId : String)
  | enqueue (payload : WebhookPayload)
  | user (id : String)
  | assign (userId : String) (epoch : Int64) (pubkey : String)
  | epoch (userId : String) (epoch : Int64)
  | interval (userId : String)
  /-- a transaction handed to the node -/
  | post (slate : Slate)

namespace Eff

variable {β : Type}

/-- What an operation writes, lazy expiry apart. -/
def write : Eff β → Option Write
  | .sql (.insertInvoice row) => some (.create row)
  | .sql (.markPaid i t) => some (.pay i t)
  | .sql (.attachGrin1 i sid _) => some (.arm i sid)
  | .sql (.markConfirmed i) => some (.confirm i)
  | .sql (.markExpired i) => some (.expire i)
  | .sql (.insertPayment row) => some (.insert row)
  | .sql (.linkPayment t i _) => some (.link t i)
  | .sql (.deletePayment t) => some (.delete t)
  | .sql (.updateDepth _ c t) => some (.deepen t c)
  | .sql (.markReplied t) => some (.reply t)
  | .sql (.enqueue _ payload) => some (.enqueue payload)
  | .sql (.insertUser id _) => some (.user id)
  | .sql (.insertAssignment u epoch pubkey) => some (.assign u epoch pubkey)
  | .sql (.setEpoch u epoch) => some (.epoch u epoch)
  | .sql (.setRotateInterval u _) => some (.interval u)
  | .postTx slate => some (.post slate)
  | _ => none

/-- The rows a read expires on its way. -/
def lapses (now : Time) (inv : Invoice) : Eff β → Bool
  | .sql (.expireIfDueId id) => inv.id = id && inv.overdue now
  | .sql (.expireIfDueToken token) => inv.token = some token && inv.overdue now
  | .sql .expireDue => inv.overdue now
  | _ => false

/-- The operation writes nothing, except that a read may expire overdue invoices. -/
def Quiet (e : Eff β) : Prop := e.write = none

theorem overdue_of_lapses {e : Eff β} {now : Time} {inv : Invoice} (h : e.lapses now inv = true) :
    inv.overdue now = true := by
  cases e with
  | sql q =>
    cases q with
    | expireIfDueId | expireIfDueToken => exact (Bool.and_eq_true_iff.1 h).2
    | expireDue => exact h
    | _ => cases h
  | _ => cases h

theorem write_of_lapses {e : Eff β} {now : Time} {inv : Invoice} (h : e.lapses now inv = true) : e.write = none := by
  cases e with
  | sql q => cases q <;> first | rfl | cases h
  | _ => cases h

theorem open_of_lapses {e : Eff β} {now : Time} {inv : Invoice} (h : e.lapses now inv = true) :
    inv.status = .open := by
  have := overdue_of_lapses h
  simp only [Invoice.overdue, Bool.and_eq_true, decide_eq_true_eq] at this
  exact this.1

end Eff

/-- What the operation `e` can do to the invoice row under `i`. -/
inductive InvoiceChange {β : Type} (e : Eff β) (now : Time) (i : String) :
    Option Invoice → Option Invoice → Prop
  | keep (r : Option Invoice) : InvoiceChange e now i r r
  | create {row : InvoiceRow} (by_ : e.write = some (.create row)) (hid : row.id = i) :
      InvoiceChange e now i none (some (row.toInvoice now))
  | expire {inv : Invoice} (by_ : e.lapses now inv = true) :
      InvoiceChange e now i (some inv) (some inv.expire)
  | sweep {inv : Invoice} (by_ : e.write = some (.expire i)) (isOpen : inv.status = .open) :
      InvoiceChange e now i (some inv) (some inv.expire)
  | pay {inv : Invoice} {t : String} (by_ : e.write = some (.pay i t)) (isOpen : inv.status = .open) :
      InvoiceChange e now i (some inv) (some (inv.pay t now))
  | arm {inv : Invoice} {sid pack : String} (by_ : e.write = some (.arm i sid)) :
      InvoiceChange e now i (some inv) (some (inv.arm sid pack))
  | confirm {inv : Invoice} (by_ : e.write = some (.confirm i)) (isPaid : inv.status = .paid) :
      InvoiceChange e now i (some inv) (some (inv.confirm now))

/-- What the operation `e` can do to the payment row under `t`. -/
inductive PaymentChange {β : Type} (e : Eff β) (now : Time) (t : String) :
    Option Payment → Option Payment → Prop
  | keep (r : Option Payment) : PaymentChange e now t r r
  | insert {row : PaymentRow} (by_ : e.write = some (.insert row)) (hid : row.slateId = t) :
      PaymentChange e now t none (some (row.toPayment now))
  | link {p : Payment} {i u : Option String} (by_ : e.write = some (.link t i)) :
      PaymentChange e now t (some p) (some (p.link i u))
  | delete {p : Payment} (by_ : e.write = some (.delete t)) : PaymentChange e now t (some p) none
  | deepen {p : Payment} {height : Option Int64} {c : Int64} (by_ : e.write = some (.deepen t c)) :
      PaymentChange e now t (some p) (some (p.atDepth height c now))
  | reply {p : Payment} (by_ : e.write = some (.reply t)) : PaymentChange e now t (some p) (some p.reply)

/-- What the operation `e` can do to the assignment under `k`. -/
inductive EndpubChange {β : Type} (e : Eff β) (now : Time) (k : String × Int64) :
    Option Endpub → Option Endpub → Prop
  | keep (r : Option Endpub) : EndpubChange e now k r r
  | assign {u : String} {epoch : Int64} {pubkey : String} (by_ : e.write = some (.assign u epoch pubkey))
      (hk : (u, epoch) = k) : EndpubChange e now k none (some ⟨u, epoch, pubkey, now⟩)

/-- The user and the epoch a statement that went through brought them to. -/
def Eff.raised {β : Type} : Eff β → β → Option (String × Int64)
  | .sql (.insertUser id _), .ok () => some (id, 0)
  | .sql (.setEpoch id n), .ok () => some (id, n)
  | _, _ => none

/-- What the operation `e` can do to the user row under `id` when it answers `b`. -/
inductive UserChange {β : Type} (e : Eff β) (b : β) (now : Time) (id : String) : Option User → Option User → Prop
  | keep (r : Option User) : UserChange e b now id r r
  | create {interval : Option Int64} (by_ : e.raised b = some (id, 0)) :
      UserChange e b now id none (some ⟨id, interval, 0, now, now⟩)
  | raise {u : User} {n : Int64} (by_ : e.raised b = some (id, n)) :
      UserChange e b now id (some u) (some { u with epoch := n, lastRotatedAt := now })
  | interval {u : User} {secs : Option Int64} (by_ : e.write = some (.interval id)) :
      UserChange e b now id (some u) (some { u with rotateInterval := secs })

section

variable {β : Type} {now : Time} {db : Db}

attribute [local simp] Stmt.exec inserted act

theorem InvoiceChange.update {e : Eff β} {i : String} {p : Invoice → Bool} {f : Invoice → Invoice}
    {hf : ∀ r, (f r).id = r.id}
    (h : ∀ inv, inv.id = i → p inv = true → InvoiceChange e now i (some inv) (some (f inv))) :
    InvoiceChange e now i (db.invoice.get i) ((db.setInvoice p f hf).invoice.get i) := by
  simp only [Db.setInvoice, Table.get_update]
  rcases hg : db.invoice.get i with _ | inv
  · exact .keep _
  · simp only [Option.map_some]
    split
    · exact h inv (Table.key_of_get hg) ‹_›
    · exact .keep _

theorem PaymentChange.update {e : Eff β} {t : String} {p : Payment → Bool} {f : Payment → Payment}
    {hf : ∀ r, (f r).slateId = r.slateId}
    (h : ∀ r, r.slateId = t → p r = true → PaymentChange e now t (some r) (some (f r))) :
    PaymentChange e now t (db.payment.get t) ((db.setPayment p f hf).payment.get t) := by
  simp only [Db.setPayment, Table.get_update]
  rcases hg : db.payment.get t with _ | r
  · exact .keep _
  · simp only [Option.map_some]
    split
    · exact h r (Table.key_of_get hg) ‹_›
    · exact .keep _

/-- Whatever statement runs, an invoice row changes in one of the ways of `InvoiceChange`. -/
theorem Stmt.invoice_change (q : Stmt β) (now : Time) (choice : Nat) (db : Db) (i : String) :
    InvoiceChange (.sql q) now i (db.invoice.get i) ((q.exec now choice db).2.invoice.get i) := by
  cases q with
  | insertInvoice row =>
    simp only [Stmt.exec]
    split
    · exact .keep _
    · rcases hins : db.invoice.insert (row.toInvoice now) with _ | tab
      · exact .keep _
      · simp only [inserted, Table.get_insert hins]
        split
        · rename_i hid
          rw [← hid, Table.get_of_insert hins]
          exact .create rfl rfl
        · exact .keep _
  | expireIfDueId id =>
    exact .update fun inv _ h => .expire h
  | expireIfDueToken token =>
    exact .update fun inv _ h => .expire h
  | expireDue => exact .update fun inv _ h => .expire h
  | markPaid j t =>
    refine .update fun inv hid h => ?_
    obtain ⟨hj, hopen⟩ : inv.id = j ∧ inv.status = .open := by simpa using h
    exact .pay (by simp [Eff.write, ← hj, hid]) hopen
  | attachGrin1 j sid pack =>
    refine .update fun inv hid h => ?_
    have hj : inv.id = j := by simpa using h
    exact .arm (by simp [Eff.write, ← hj, hid])
  | markConfirmed j =>
    refine .update fun inv hid h => ?_
    obtain ⟨hj, hpaid⟩ : inv.id = j ∧ inv.status = .paid := by simpa using h
    exact .confirm (by simp [Eff.write, ← hj, hid]) hpaid
  | markExpired j =>
    refine .update fun inv hid h => ?_
    obtain ⟨hj, hopen⟩ : inv.id = j ∧ inv.status = .open := by simpa using h
    exact .sweep (by simp [Eff.write, ← hj, hid]) hopen
  | expectedAmount j => simp only [Stmt.exec]; split <;> exact .keep _
  | selectAssignment u e => simp only [Stmt.exec]; split <;> exact .keep _
  | enqueue url payload => simp only [Stmt.exec, inserted]; split <;> exact .keep _
  | insertUser id rotate => simp only [Stmt.exec, inserted]; split <;> exact .keep _
  | insertPayment row => simp only [Stmt.exec, inserted]; split <;> exact .keep _
  | insertAssignment u e pk =>
    simp only [Stmt.exec]
    split
    · exact .keep _
    · split <;> exact .keep _
  | _ => exact .keep _

/-- Whatever statement runs, a payment row changes in one of the ways of `PaymentChange`. -/
theorem Stmt.payment_change (q : Stmt β) (now : Time) (choice : Nat) (db : Db) (t : String) :
    PaymentChange (.sql q) now t (db.payment.get t) ((q.exec now choice db).2.payment.get t) := by
  cases q with
  | insertPayment row =>
    simp only [Stmt.exec]
    rcases hins : db.payment.insert (row.toPayment now) with _ | tab
    · exact .keep _
    · simp only [inserted, Table.get_insert hins]
      split
      · rename_i hid
        rw [← hid, Table.get_of_insert hins]
        exact .insert rfl rfl
      · exact .keep _
  | linkPayment u i user =>
    refine .update fun p hid h => ?_
    have hu : p.slateId = u := by simpa using h
    exact .link (by simp [Eff.write, ← hu, hid])
  | updateDepth height c u =>
    refine .update fun p hid h => ?_
    have hu : p.slateId = u := by simpa using h
    exact .deepen (by simp [Eff.write, ← hu, hid])
  | markReplied u =>
    refine .update fun p hid h => ?_
    have hu : p.slateId = u := by simpa using h
    exact .reply (by simp [Eff.write, ← hu, hid])
  | deletePayment u =>
    simp only [Stmt.exec, Table.get_delete]
    rcases hg : db.payment.get t with _ | p
    · exact .keep _
    · have hid := Table.key_of_get hg
      by_cases hu : p.slateId = u
      · simp only [Option.filter_some, hu, decide_true, Bool.not_true, Bool.false_eq_true, if_false]
        exact .delete (by simp [Eff.write, ← hu, hid])
      · simp only [Option.filter_some, hu, decide_false, Bool.not_false, if_true]
        exact .keep _
  | insertInvoice row =>
    simp only [Stmt.exec, inserted]
    split
    · exact .keep _
    · split <;> exact .keep _
  | expectedAmount j => simp only [Stmt.exec]; split <;> exact .keep _
  | selectAssignment u e => simp only [Stmt.exec]; split <;> exact .keep _
  | enqueue url payload => simp only [Stmt.exec, inserted]; split <;> exact .keep _
  | insertUser id rotate => simp only [Stmt.exec, inserted]; split <;> exact .keep _
  | insertAssignment u e pk =>
    simp only [Stmt.exec]
    split
    · exact .keep _
    · split <;> exact .keep _
  | _ => exact .keep _

/-- Whatever statement runs, an assignment is kept or made. -/
theorem Stmt.endpub_change (q : Stmt β) (now : Time) (choice : Nat) (db : Db) (k : String × Int64) :
    EndpubChange (.sql q) now k (db.endpub.get k) ((q.exec now choice db).2.endpub.get k) := by
  cases q with
  | insertAssignment u epoch pubkey =>
    simp only [Stmt.exec]
    rcases hins : db.endpub.insert ⟨u, epoch, pubkey, now⟩ with _ | tab
    · exact .keep _
    · dsimp only
      split
      · simp only [Table.get_insert hins]
        split
        · rename_i hk
          rw [← hk, Table.get_of_insert hins]
          exact .assign rfl rfl
        · exact .keep _
      · exact .keep _
  | insertInvoice row =>
    simp only [Stmt.exec, inserted]
    split
    · exact .keep _
    · split <;> exact .keep _
  | expectedAmount j => simp only [Stmt.exec]; split <;> exact .keep _
  | selectAssignment u e => simp only [Stmt.exec]; split <;> exact .keep _
  | enqueue url payload => simp only [Stmt.exec, inserted]; split <;> exact .keep _
  | insertUser id rotate => simp only [Stmt.exec, inserted]; split <;> exact .keep _
  | insertPayment row => simp only [Stmt.exec, inserted]; split <;> exact .keep _
  | _ => exact .keep _

/-- Whatever statement runs, a user row changes in one of the ways of `UserChange`. -/
theorem Stmt.user_change (q : Stmt β) (now : Time) (choice : Nat) (db : Db) (id : String) :
    UserChange (.sql q) (q.exec now choice db).1 now id (db.user.get id) ((q.exec now choice db).2.user.get id) := by
  cases q with
  | insertUser i interval =>
    simp only [Stmt.exec, inserted]
    rcases hins : db.user.insert ⟨i, interval, 0, now, now⟩ with _ | tab
    · exact .keep _
    · simp only [Table.get_insert hins]
      split
      · rename_i hi
        rw [← hi, Table.get_of_insert hins]
        exact .create rfl
      · exact .keep _
  | setEpoch i n =>
    simp only [Stmt.exec, Db.setUser, Table.get_update]
    cases hu : db.user.get id with
    | none => exact .keep _
    | some u =>
      rw [Option.map_some]
      split
      · rename_i hi
        have hid : u.id = id := Table.key_of_get hu
        exact .raise (by rw [← hid, of_decide_eq_true hi]; rfl)
      · exact .keep _
  | setRotateInterval i secs =>
    simp only [Stmt.exec, Db.setUser, Table.get_update]
    cases hu : db.user.get id with
    | none => exact .keep _
    | some u =>
      rw [Option.map_some]
      split
      · rename_i hi
        have hid : u.id = id := Table.key_of_get hu
        exact .interval (by rw [← hid, of_decide_eq_true hi]; rfl)
      · exact .keep _
  | insertAssignment u e pk =>
    simp only [Stmt.exec]
    split
    · exact .keep _
    · split <;> exact .keep _
  | insertInvoice row =>
    simp only [Stmt.exec, inserted]
    split
    · exact .keep _
    · split <;> exact .keep _
  | expectedAmount j => simp only [Stmt.exec]; split <;> exact .keep _
  | selectAssignment u e => simp only [Stmt.exec]; split <;> exact .keep _
  | enqueue url payload => simp only [Stmt.exec, inserted]; split <;> exact .keep _
  | insertPayment row => simp only [Stmt.exec, inserted]; split <;> exact .keep _
  | _ => exact .keep _

/-- Whatever statement runs, a delivery in the queue was there or is queued by it. -/
theorem Stmt.queue_change (q : Stmt β) (now : Time) (choice : Nat) (db : Db) :
    ∀ d ∈ (q.exec now choice db).2.delivery.rows, d ∈ db.delivery.rows ∨
      ∃ payload, (Eff.sql q).write = some (.enqueue payload) ∧ d.body = payload := by
  intro d hd
  cases q with
  | enqueue url payload =>
    simp only [Stmt.exec] at hd
    cases hins : db.delivery.insert (payload.toDelivery url now) with
    | none =>
      rw [hins] at hd
      exact Or.inl hd
    | some tab =>
      simp only [inserted, hins, Table.rows_insert hins, List.mem_append, List.mem_singleton] at hd
      rcases hd with hd | rfl
      · exact Or.inl hd
      · exact Or.inr ⟨payload, rfl, rfl⟩
  | insertInvoice row =>
    simp only [Stmt.exec, inserted] at hd
    split at hd
    · exact Or.inl hd
    · split at hd <;> exact Or.inl hd
  | expectedAmount j => simp only [Stmt.exec] at hd; split at hd <;> exact Or.inl hd
  | selectAssignment u e => simp only [Stmt.exec] at hd; split at hd <;> exact Or.inl hd
  | insertUser id rotate => simp only [Stmt.exec, inserted] at hd; split at hd <;> exact Or.inl hd
  | insertPayment row => simp only [Stmt.exec, inserted] at hd; split at hd <;> exact Or.inl hd
  | insertAssignment u e pk =>
    simp only [Stmt.exec] at hd
    split at hd
    · exact Or.inl hd
    · split at hd <;> exact Or.inl hd
  | _ => exact Or.inl hd

variable {W : Type} (U : Upstream W) (e : Eff β) (x : Answer) (w : World W)

/-- Whatever operation runs, an invoice row changes in one of the ways of `InvoiceChange`. -/
theorem Eff.invoice_change (i : String) :
    InvoiceChange e w.now i (w.db.invoice.get i) ((act U x w e).2.db.invoice.get i) := by
  cases e with
  | sql q =>
    simp only [act]
    split
    · exact .keep _
    · exact q.invoice_change _ _ _ _
  | receiveTx s => simp only [act]; split <;> exact .keep _
  | issueInvoiceTx a => simp only [act]; split <;> exact .keep _
  | finalizeTx s => simp only [act]; split <;> exact .keep _
  | cancelTx sid => simp only [act]; split <;> exact .keep _
  | _ => exact .keep _

/-- Whatever operation runs, a payment row changes in one of the ways of `PaymentChange`. -/
theorem Eff.payment_change (t : String) :
    PaymentChange e w.now t (w.db.payment.get t) ((act U x w e).2.db.payment.get t) := by
  cases e with
  | sql q =>
    simp only [act]
    split
    · exact .keep _
    · exact q.payment_change _ _ _ _
  | receiveTx s => simp only [act]; split <;> exact .keep _
  | issueInvoiceTx a => simp only [act]; split <;> exact .keep _
  | finalizeTx s => simp only [act]; split <;> exact .keep _
  | cancelTx sid => simp only [act]; split <;> exact .keep _
  | _ => exact .keep _

/-- Whatever operation runs, an assignment is kept or made. -/
theorem Eff.endpub_change (k : String × Int64) :
    EndpubChange e w.now k (w.db.endpub.get k) ((act U x w e).2.db.endpub.get k) := by
  cases e with
  | sql q =>
    simp only [act]
    split
    · exact .keep _
    · exact q.endpub_change _ _ _ _
  | receiveTx s => simp only [act]; split <;> exact .keep _
  | issueInvoiceTx a => simp only [act]; split <;> exact .keep _
  | finalizeTx s => simp only [act]; split <;> exact .keep _
  | cancelTx sid => simp only [act]; split <;> exact .keep _
  | _ => exact .keep _

/-- Whatever operation runs, a user row changes in one of the ways of `UserChange`. -/
theorem Eff.user_change (id : String) :
    UserChange e (act U x w e).1 w.now id (w.db.user.get id) ((act U x w e).2.db.user.get id) := by
  cases e with
  | sql q =>
    simp only [act]
    split
    · exact .keep _
    · exact q.user_change _ _ _ _
  | receiveTx s => simp only [act]; split <;> exact .keep _
  | issueInvoiceTx a => simp only [act]; split <;> exact .keep _
  | finalizeTx s => simp only [act]; split <;> exact .keep _
  | cancelTx sid => simp only [act]; split <;> exact .keep _
  | _ => exact .keep _

/-- Whatever operation runs, a delivery in the queue was there or is queued by it. -/
theorem Eff.queue_change : ∀ d ∈ (act U x w e).2.db.delivery.rows, d ∈ w.db.delivery.rows ∨
    ∃ payload, e.write = some (.enqueue payload) ∧ d.body = payload := by
  intro d hd
  cases e with
  | sql q =>
    simp only [act] at hd
    split at hd
    · exact Or.inl hd
    · exact q.queue_change _ _ _ d hd
  | receiveTx s => simp only [act] at hd; split at hd <;> exact Or.inl hd
  | issueInvoiceTx a => simp only [act] at hd; split at hd <;> exact Or.inl hd
  | finalizeTx s => simp only [act] at hd; split at hd <;> exact Or.inl hd
  | cancelTx sid => simp only [act] at hd; split at hd <;> exact Or.inl hd
  | _ => exact Or.inl hd

/-- An operation that fails leaves the database as it was. -/
theorem Eff.db_of_fault {m : String} (hf : x.fault = some m) : (act U x w e).2.db = w.db := by
  cases e <;> simp [act, hf, World.restart]

/-- Time does not run backwards. -/
theorem Eff.now_le : w.now ≤ (act U x w e).2.now := by
  cases e with
  | elapse secs => exact Int.le_add_of_nonneg_right (Int.natCast_nonneg secs)
  | sql q => simp only [act]; split <;> exact le_refl _
  | receiveTx s => simp only [act]; split <;> exact le_refl _
  | issueInvoiceTx a => simp only [act]; split <;> exact le_refl _
  | finalizeTx s => simp only [act]; split <;> exact le_refl _
  | cancelTx sid => simp only [act]; split <;> exact le_refl _
  | _ => exact le_refl _

/-- The columns no UPDATE of the source touches, and the one transition none makes. -/
structure Invoice.SameTerms (inv inv' : Invoice) : Prop where
  orderRef : inv'.orderRef = inv.orderRef
  expectedAmount : inv'.expectedAmount = inv.expectedAmount
  expiry : inv'.expiry = inv.expiry
  recipientPubkey : inv'.recipientPubkey = inv.recipientPubkey
  matchMode : inv'.matchMode = inv.matchMode
  opens : inv'.status = .open → inv.status = .open

theorem Invoice.SameTerms.refl (inv : Invoice) : inv.SameTerms inv := ⟨rfl, rfl, rfl, rfl, rfl, fun h => h⟩

theorem Invoice.SameTerms.trans {a b c : Invoice} (h : a.SameTerms b) (h' : b.SameTerms c) : a.SameTerms c :=
  ⟨h'.1.trans h.1, h'.2.trans h.2, h'.3.trans h.3, h'.4.trans h.4, h'.5.trans h.5, fun ho => h.6 (h'.6 ho)⟩

/-- Invoices are never deleted, keep their terms and never open again. -/
def TermsKept (w w' : World W) : Prop :=
  ∀ i inv, w.db.invoice.get i = some inv → ∃ inv', w'.db.invoice.get i = some inv' ∧ inv.SameTerms inv'

theorem TermsKept.refl (w : World W) : TermsKept w w := fun _ inv h => ⟨inv, h, .refl inv⟩

theorem TermsKept.trans {a b c : World W} (h : TermsKept a b) (h' : TermsKept b c) : TermsKept a c := by
  intro i inv hi
  obtain ⟨inv', hi', ht⟩ := h i inv hi
  obtain ⟨inv'', hi'', ht'⟩ := h' i inv' hi'
  exact ⟨inv'', hi'', ht.trans ht'⟩

theorem Eff.terms_kept : TermsKept w (act U x w e).2 := by
  intro i inv hi
  have change := e.invoice_change U x w i
  rw [hi] at change
  generalize (act U x w e).2.db.invoice.get i = r at change
  cases change with
  | keep => exact ⟨inv, rfl, .refl inv⟩
  | arm => exact ⟨_, rfl, rfl, rfl, rfl, rfl, rfl, fun h => h⟩
  | expire | sweep | pay | confirm =>
    refine ⟨_, rfl, rfl, rfl, rfl, rfl, rfl, fun h => ?_⟩
    cases h

/-! ## The wallet's contexts -/

variable {U}

/-- What was issued stays issued. -/
theorem Eff.issued_mono (hU : U.Lawful) {sid : String} (h : U.hasIssued w.wallet sid = true) :
    U.hasIssued (act U x w e).2.wallet sid = true := by
  cases e with
  | sql q => simp only [act]; split <;> exact h
  | receiveTx s =>
    simp only [act]
    split
    · exact h
    · exact (hU.receive_issued x s w.wallet sid).2 h
  | finalizeTx s =>
    simp only [act]
    split
    · exact h
    · exact (hU.finalize_issued x s w.wallet sid).2 h
  | cancelTx t =>
    simp only [act]
    split
    · exact h
    · exact (hU.cancel_issued x t w.wallet sid).2 h
  | issueInvoiceTx a =>
    simp only [act]
    split
    · exact h
    · rcases hr : U.issueInvoiceTx x a w.wallet with ⟨_ | i1, wallet⟩
      · exact (hU.issue_error hr sid).2.2 h
      · exact (hU.issue_logs hr sid).2 (Or.inr h)
  | _ => exact h

/-- A context appears for a slate that was not issued before, and for no other. -/
theorem Eff.held_before (hU : U.Lawful) {sid : String}
    (h : U.holdsContext (act U x w e).2.wallet sid = true) :
    U.holdsContext w.wallet sid = true ∨ ¬ U.hasIssued w.wallet sid = true := by
  cases e with
  | sql q => simp only [act] at h; split at h <;> exact Or.inl h
  | receiveTx s =>
    simp only [act] at h
    split at h
    · exact Or.inl h
    · exact Or.inl ((hU.receive_context x s w.wallet sid).1 h)
  | finalizeTx s =>
    simp only [act] at h
    split at h
    · exact Or.inl h
    · rcases hr : U.finalizeTx x s w.wallet with ⟨_ | final, wallet⟩
      · rw [hr] at h
        exact Or.inl ((hU.finalize_error hr sid).1 h)
      · rw [hr] at h
        exact Or.inl (((hU.finalize_context hr).2 sid).1 h).2
  | cancelTx t =>
    simp only [act] at h
    split at h
    · exact Or.inl h
    · rcases hr : U.cancelTx x t w.wallet with ⟨_ | u, wallet⟩
      · rw [hr] at h
        exact Or.inl ((hU.cancel_error hr sid).1 h)
      · rw [hr] at h
        exact Or.inl ((hU.cancel_context hr sid).1 h).2
  | issueInvoiceTx a =>
    simp only [act] at h
    split at h
    · exact Or.inl h
    · rcases hr : U.issueInvoiceTx x a w.wallet with ⟨_ | i1, wallet⟩
      · rw [hr] at h
        exact Or.inl ((hU.issue_error hr sid).1.1 h)
      · rw [hr] at h
        rcases (hU.issue_context hr sid).1 h with rfl | h
        · exact Or.inr (hU.issue_new hr)
        · exact Or.inl h
  | _ => exact Or.inl h

end

end GoblinPay
