import GoblinPay.Change
import GoblinPay.Runs.Resolve
import GoblinPay.Sample

/-!
# Whom a payment settles

The resolvers fall through from the derived identity to the memo to the amount, so a payment
received on the identity of one invoice can settle another. `settles_iff` says which invoices a
match can settle at all: those it leads to and whose amount guard it passes.
-/

namespace GoblinPay

open Async Sql

/-- Between `s` and `s'` the invoice `j` was marked paid, or a payment was linked to it. -/
inductive Settled {W : Type} (s s' : World W) (j : String) : Prop
  | paid {inv : Invoice} (row : s'.db.invoice.get j = some inv) (status : inv.status = .paid)
      (new : ∀ inv₀, s.db.invoice.get j = some inv₀ → inv₀.status ≠ .paid)
  | linked {t : String} {p : Payment} (row : s'.db.payment.get t = some p) (link : p.invoiceId = some j)
      (new : ∀ p₀, s.db.payment.get t = some p₀ → p₀.invoiceId ≠ some j)

/-- The writes that settle the invoice `j`. -/
inductive Write.Settles (j : String) : Write → Prop
  | pay (t : String) : Settles j (.pay j t)
  | link (t : String) : Settles j (.link t (some j))
  | insert (row : PaymentRow) (link : row.invoiceId = some j) : Settles j (.insert row)

section

variable {W : Type} {U : Upstream W} {s s' s'' : World W} {j : String}

theorem Settled.irrefl : ¬ Settled s s j := by
  rintro (⟨row, status, new⟩ | ⟨row, link, new⟩)
  · exact new _ row status
  · exact new _ row link

/-- What was settled between two states was settled before or after any state between them. -/
theorem Settled.split (h : Settled s s'' j) (s' : World W) : Settled s s' j ∨ Settled s' s'' j := by
  rcases h with ⟨row, status, new⟩ | ⟨row, link, new⟩
  · by_cases hmid : ∃ inv, s'.db.invoice.get j = some inv ∧ inv.status = .paid
    · obtain ⟨inv, row', status'⟩ := hmid
      exact Or.inl (.paid row' status' new)
    · exact Or.inr (.paid row status fun inv₀ row₀ status₀ => hmid ⟨inv₀, row₀, status₀⟩)
  · rename_i t p
    by_cases hmid : ∃ p, s'.db.payment.get t = some p ∧ p.invoiceId = some j
    · obtain ⟨p', row', link'⟩ := hmid
      exact Or.inl (.linked row' link' new)
    · exact Or.inr (.linked row link fun p₀ row₀ link₀ => hmid ⟨p₀, row₀, link₀⟩)

/-- A change of the ledger that settles an invoice is one of the writes that do. -/
theorem Settled.of_change {β : Type} {e : Eff β} {now : Time}
    (invoices : InvoiceChange e now j (s.db.invoice.get j) (s'.db.invoice.get j))
    (payments : ∀ t, PaymentChange e now t (s.db.payment.get t) (s'.db.payment.get t)) (h : Settled s s' j) :
    ∃ wr, e.write = some wr ∧ wr.Settles j := by
  rcases h with ⟨row, status, new⟩ | ⟨row, link, new⟩
  · rw [row] at invoices
    generalize hget : s.db.invoice.get j = before at invoices
    cases invoices with
    | keep => exact absurd status (new _ hget)
    | pay by_ _ => exact ⟨_, by_, .pay _⟩
    | arm by_ => exact (new _ hget status).elim
    | create | expire | sweep | confirm => cases status
  · rename_i t p
    have change := payments t
    rw [row] at change
    generalize hget : s.db.payment.get t = before at change
    cases change with
    | keep => exact absurd link (new _ hget)
    | insert by_ _ => exact ⟨_, by_, .insert _ link⟩
    | link by_ =>
      rename_i i u
      obtain rfl : i = some j := link
      exact ⟨_, by_, .link t⟩
    | deepen | reply => exact (new _ hget link).elim

theorem Settled.of_exec {β : Type} {q : Stmt β} {n : Nat} (h : Settled s (s.exec q n) j) :
    ∃ wr, (Eff.sql q).write = some wr ∧ wr.Settles j :=
  h.of_change (q.invoice_change s.now n s.db j) (q.payment_change s.now n s.db)

/-- Neither state has settled anything over the other. -/
def SameSettled (s s' : World W) : Prop := ∀ j, ¬ Settled s s' j ∧ ¬ Settled s' s j

namespace SameSettled

theorem refl (s : World W) : SameSettled s s := fun _ => ⟨Settled.irrefl, Settled.irrefl⟩

theorem symm (h : SameSettled s s') : SameSettled s' s := fun j => (h j).symm

theorem trans (h : SameSettled s s') (h' : SameSettled s' s'') : SameSettled s s'' := fun j =>
  ⟨fun hj => (hj.split s').elim (h j).1 (h' j).1, fun hj => (hj.split s').elim (h' j).2 (h j).2⟩

theorem before (h : SameSettled s s') : Settled s s'' j ↔ Settled s' s'' j :=
  ⟨fun hj => (hj.split s').resolve_left (h j).1, fun hj => (hj.split s).resolve_left (h j).2⟩

theorem after (h : SameSettled s s') : Settled s'' s j ↔ Settled s'' s' j :=
  ⟨fun hj => (hj.split s').resolve_right (h j).2, fun hj => (hj.split s).resolve_right (h j).1⟩

/-- What is paid in one is paid in the other. -/
theorem paid (h : SameSettled s s') {inv : Invoice} (row : s.db.invoice.get j = some inv) (status : inv.status = .paid) :
    ∃ inv', s'.db.invoice.get j = some inv' ∧ inv'.status = .paid := by
  by_contra none
  exact (h j).2 (.paid row status fun inv₀ row₀ status₀ => none ⟨inv₀, row₀, status₀⟩)

theorem of_tables (invoices : s'.db.invoice = s.db.invoice) (payments : s'.db.payment = s.db.payment) : SameSettled s s' := by
  refine fun j => ⟨?_, ?_⟩ <;> rintro (⟨row, status, new⟩ | ⟨row, link, new⟩)
  · exact new _ (invoices ▸ row) status
  · exact new _ (payments ▸ row) link
  · exact new _ (invoices ▸ row) status
  · exact new _ (payments ▸ row) link

/-- A page load, a read or a queued notification settles nothing and takes nothing back. -/
theorem of_change {β : Type} {e : Eff β} {now : Time} (hw : ∀ wr, e.write = some wr → ∃ payload, wr = .enqueue payload)
    (invoices : ∀ i, InvoiceChange e now i (s.db.invoice.get i) (s'.db.invoice.get i))
    (payments : ∀ t, PaymentChange e now t (s.db.payment.get t) (s'.db.payment.get t)) : SameSettled s s' := by
  intro j
  constructor
  · intro h
    obtain ⟨wr, hwr, settles⟩ := h.of_change (invoices j) payments
    obtain ⟨payload, rfl⟩ := hw wr hwr
    cases settles
  · rintro (⟨row, status, new⟩ | ⟨row, link, new⟩)
    · have change := invoices j
      rw [row] at change
      generalize hget : s'.db.invoice.get j = after at change
      cases change with
      | keep => exact new _ hget status
      | expire by_ =>
        rw [Eff.open_of_lapses by_] at status
        cases status
      | sweep by_ | pay by_ | arm by_ | confirm by_ =>
        obtain ⟨payload, h⟩ := hw _ by_
        cases h
    · rename_i t p
      have change := payments t
      rw [row] at change
      generalize hget : s'.db.payment.get t = after at change
      cases change with
      | keep => exact new _ hget link
      | link by_ | delete by_ | deepen by_ | reply by_ =>
        obtain ⟨payload, h⟩ := hw _ by_
        cases h

theorem of_act {β : Type} {e : Eff β} {x : Answer} (hw : ∀ wr, e.write = some wr → ∃ payload, wr = .enqueue payload) :
    SameSettled s (act U x s e).2 :=
  of_change hw (e.invoice_change U x s) (e.payment_change U x s)

theorem of_exec {β : Type} {q : Stmt β} {n : Nat} (hw : (Eff.sql q).Quiet) : SameSettled s (s.exec q n) :=
  of_change (e := .sql q) (fun wr hwr => by rw [show (Eff.sql q).write = none from hw] at hwr; cases hwr)
    (q.invoice_change s.now n s.db) (q.payment_change s.now n s.db)

end SameSettled

/-- Between `s` and `s'` the invoice `i` was marked paid, and no other invoice was settled. -/
structure SettledAlone (s s' : World W) (i : String) : Prop where
  paid : ∃ inv, s'.db.invoice.get i = some inv ∧ inv.status = .paid
  only : ∀ j, Settled s s' j ↔ j = i

theorem SettledAlone.before {i : String} (h : SettledAlone s s'' i) (same : SameSettled s s') : SettledAlone s' s'' i :=
  ⟨h.paid, fun j => same.before.symm.trans (h.only j)⟩

theorem SettledAlone.after {i : String} (h : SettledAlone s s' i) (same : SameSettled s' s'') : SettledAlone s s'' i := by
  obtain ⟨inv, row, status⟩ := h.paid
  exact ⟨same.paid row status, fun j => same.after.symm.trans (h.only j)⟩

variable {Own : Type} {gain : {β : Type} → Own → Eff β → β → Own} {g g' : Own} {B : Answer → Prop} {mode : MatchMode}
  {incoming : IncomingPayment}

/-- Marking an invoice paid settles it alone, and so does linking a payment to it. -/
theorem Settled.of_markPaid {i t : String} (h : Settled s (s.exec (.markPaid i t) 0) j) : j = i := by
  obtain ⟨wr, hwr, settles⟩ := h.of_exec
  cases hwr
  cases settles
  rfl

theorem Settled.of_linkPayment {t : String} {i u : Option String} (h : Settled s (s.exec (.linkPayment t i u) 0) j) :
    i = some j := by
  obtain ⟨wr, hwr, settles⟩ := h.of_exec
  cases hwr
  cases settles
  rfl

/-- An open invoice that is marked paid is settled, and no other. -/
theorem SettledAlone.of_paid {inv : Invoice} (same : SameSettled s s') (hget : s'.db.invoice.get inv.id = some inv)
    (hopen : inv.status = .open) (t : String) : SettledAlone s (s'.exec (.markPaid inv.id t) 0) inv.id := by
  have row : (s'.exec (.markPaid inv.id t) 0).db.invoice.get inv.id = some (inv.pay t s'.now) := by
    have kept : (s'.exec (.markPaid inv.id t) 0).db.invoice.get inv.id =
        (s'.db.invoice.get inv.id).map fun r => if r.id = inv.id && r.status = .open then r.pay t s'.now else r :=
      Table.get_update s'.db.invoice _ (Invoice.pay t s'.now) (fun _ => rfl) _
    rw [kept, hget]
    simp [hopen]
  refine SettledAlone.before ⟨⟨_, row, rfl⟩, fun j => ⟨fun hj => hj.of_markPaid, ?_⟩⟩ same.symm
  rintro rfl
  refine .paid row rfl fun inv₀ hget₀ => ?_
  rw [hget] at hget₀
  cases hget₀
  simp [hopen]

/-- An open invoice that is marked paid and linked to is settled, and no other. -/
theorem SettledAlone.of_open {inv : Invoice} (same : SameSettled s s') (hget : s'.db.invoice.get inv.id = some inv)
    (hopen : inv.status = .open) (t : String) (u : Option String) :
    SettledAlone s ((s'.exec (.markPaid inv.id t) 0).exec (.linkPayment t (some inv.id) u) 0) inv.id := by
  -- the link settles the invoice that is paid already
  have paid := SettledAlone.of_paid (.refl s') hget hopen t
  obtain ⟨inv', row, status⟩ := paid.paid
  refine SettledAlone.before ⟨⟨inv', row, status⟩, fun j => ⟨fun hj => ?_, ?_⟩⟩ same.symm
  · rcases hj.split (s'.exec (.markPaid inv.id t) 0) with hj | hj
    · exact (paid.only j).1 hj
    · exact (Option.some.inj hj.of_linkPayment).symm
  · rintro rfl
    refine .paid row status fun inv₀ hget₀ => ?_
    rw [hget] at hget₀
    cases hget₀
    simp [hopen]

/-- The invoices a match can settle, on answers in `B`. -/
def Matching.Lands (B : Answer → Prop) (mode : MatchMode) (incoming : IncomingPayment) (s : World W) (j : String) : Prop :=
  ∃ x inv, B x ∧ s.db.resolve s.now mode incoming x.choice = some inv ∧
    Matching.mismatch incoming.amount inv.expectedAmount = none ∧ inv.id = j

/-- However a match ends, it settled the invoice it found. -/
theorem Matching.Ends.lands {r : Except SqlxError MatchResult} (h : Matching.Ends B gain mode incoming g s r g' s')
    (hj : Settled s s' j) : Matching.Lands B mode incoming s j := by
  cases h with
  | failed | forgotten | rejected => exact absurd hj Settled.irrefl
  | unmatched => cases hj.of_linkPayment
  | unlinked hx resolved guard => exact ⟨_, _, hx, resolved, guard, hj.of_markPaid.symm⟩
  | settled hx resolved guard =>
    rcases hj.split _ with hj | hj
    · exact ⟨_, _, hx, resolved, guard, (hj.of_markPaid (t := incoming.slateId)).symm⟩
    · exact ⟨_, _, hx, resolved, guard, Option.some.inj hj.of_linkPayment⟩

/-- Without a fault, a match settles the invoice the resolvers find, if the guard lets it. -/
theorem Matching.Ends.settles {r : Except SqlxError MatchResult} {inv : Invoice}
    (h : Matching.Ends B gain mode incoming g s r g' s')
    (hB : ∀ x, B x → x.fault = none ∧ s.db.resolve s.now mode incoming x.choice = some inv)
    (guard : Matching.mismatch incoming.amount inv.expectedAmount = none) : SettledAlone s s' inv.id := by
  cases h with
  | failed hx fault => exact absurd (hB _ hx).1 fault
  | unlinked _ _ _ hy fault | forgotten _ _ hy fault => exact absurd (hB _ hy).1 fault
  | unmatched hx resolved =>
    rw [(hB _ hx).2] at resolved
    cases resolved
  | rejected hx resolved refused =>
    rw [(hB _ hx).2] at resolved
    cases resolved
    rw [guard] at refused
    cases refused
  | settled hx resolved =>
    have found := (hB _ hx).2
    rw [found] at resolved
    cases resolved
    obtain ⟨hget, hopen⟩ := Db.get_of_resolve found
    exact .of_open (.refl s) hget hopen _ _

variable (U) in
/-- What a match settles by itself, wherever it stops: the invoices `p` allows, if and only if every
invoice the payment leads to is one of them or refuses the amount. -/
theorem settles_iff (mode : MatchMode) (incoming : IncomingPayment) (w : World W) (p : String → Prop) :
    (∀ xs j, Settled w ((Matching.matchPayment mode incoming).run.exec (handler U) xs w).2 j → p j) ↔
      ∀ inv, w.db.Leads w.now mode incoming inv → p inv.id ∨ Matching.mismatch incoming.amount inv.expectedAmount ≠ none := by
  have contract : ∀ A : {β : Type} → Eff β → Answer → Prop,
      Meets (plainRequest U A fun s => ∀ j, Settled w s j → Matching.Lands (OnSql A) mode incoming w j) ()
        (fun r g' s' => Matching.Ends (OnSql A) (fun _ _ _ => ()) mode incoming () w r g' s')
        (Matching.matchPayment mode incoming).run () w := fun A =>
    request_matchPayment (fun _ _ _ => rfl) (fun _ h => absurd h Settled.irrefl) fun x inv hx hres hm j hj =>
      ⟨x, inv, hx, hres, hm, hj.of_markPaid.symm⟩
  constructor
  · intro all inv hleads
    by_contra hne
    obtain ⟨hp, hm⟩ := not_or.1 hne
    have guard := not_not.1 hm
    obtain ⟨n, hn⟩ := Db.leads_iff.1 hleads
    -- no fault, and this choice among the ties
    obtain ⟨xs, a, hret, hxs, _⟩ := Prog.exec_total (handler U) () (fun _ => ({ choice := n } : Answer))
      (Matching.matchPayment mode incoming).run w
    rcases (contract fun _ x => x = { choice := n }).soloExec xs hxs with ⟨r, _, hends⟩ | ⟨hstopped, _⟩
    · refine hp (all xs inv.id ?_)
      generalize ((Matching.matchPayment mode incoming).run.exec (handler U) xs w).2 = w' at hends
      exact ((hends.settles (fun x ⟨_, _, hx⟩ => by rw [hx]; exact ⟨rfl, hn⟩) guard).only inv.id).2 rfl
    · exact absurd hret (hstopped a)
  · intro cond xs j hj
    obtain ⟨x, inv, -, hres, guard, rfl⟩ : Matching.Lands (OnSql fun _ _ => True) mode incoming w j := by
      rcases (contract fun _ _ => True).soloExec xs (fun _ _ => trivial) with ⟨r, _, hends⟩ | ⟨_, hP⟩
      · exact hends.lands hj
      · exact hP j hj
    exact (cond inv (Db.leads_iff.2 ⟨_, hres⟩)).resolve_right fun hne => hne guard

/-! ## The identity of one invoice -/

variable (U) in
/-- A payment received on the derived identity of the invoice `i` settles `i` or nothing if and only
if every other invoice it leads to refuses its amount. -/
theorem settlesOwn_iff (sk : Secret) (i t : String) (amount : UInt64) (memo : Option String) (mode : MatchMode) (w : World W) :
    (∀ xs j, Settled w ((Matching.matchPayment mode ⟨t, amount, Derive.invoicePubkeyHex U sk i, memo⟩).run.exec
        (handler U) xs w).2 j → j = i) ↔
      ∀ inv, w.db.Leads w.now mode ⟨t, amount, Derive.invoicePubkeyHex U sk i, memo⟩ inv →
        inv.id = i ∨ Matching.mismatch amount inv.expectedAmount ≠ none :=
  settles_iff U mode _ w (· = i)

end

/-! ## A late payment -/

/-- An invoice for 100 nanogrin, as `create` stores it. -/
def lateInvoice (id : String) (mode : MatchMode) (createdAt : Time) : Invoice :=
  (Invoice.row Sample.upstream ⟨none, .grin 100, none, some mode, none⟩ [109] "m" mode id id).toInvoice createdAt

/-- `a` derived and expired, `b` open and matched by its amount. -/
def lateWorld : World Sample.Wallet :=
  { Sample.world with db := { Db.empty with
      invoice := ⟨[(lateInvoice "a" .derived 10).expire, lateInvoice "b" .amount 20], by decide⟩ } }

/-- A payment to the identity of `a` that comes too late pays `b`. -/
theorem late_settles_other : ¬ ∀ xs j, Settled lateWorld ((Matching.matchPayment .memo
    ⟨"t", 100, Derive.invoicePubkeyHex Sample.upstream [109] "a", none⟩).run.exec (handler Sample.upstream) xs lateWorld).2 j →
    j = "a" := by
  intro h
  have paid : ∃ inv, ((Matching.matchPayment .memo ⟨"t", 100, Derive.invoicePubkeyHex Sample.upstream [109] "a", none⟩).run.exec
      (handler Sample.upstream) (List.replicate 8 {}) lateWorld).2.db.invoice.get "b" = some inv ∧ inv.status = .paid := by
    decide
  obtain ⟨inv, row, status⟩ := paid
  have := h (List.replicate 8 {}) "b" (.paid row status fun inv₀ h₀ => by
    obtain rfl : lateInvoice "b" .amount 20 = inv₀ := Option.some.inj h₀
    decide)
  exact absurd this (by decide)

end GoblinPay
