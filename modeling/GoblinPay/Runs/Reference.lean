import GoblinPay.Runs.Resolve
import GoblinPay.Sample

/-!
# The reference of a match

What `match_payment` is meant to do to a ledger, said without its statements: which invoices it may
choose, when it refuses, and what it leaves of the two tables. Run without interleaving and without a
failure it does this, whatever the database holds.
-/

namespace GoblinPay

open Async Sql

/-! ## The candidate -/

/-- Of the open invoices of the effective mode `m` that `p` picks out, an oldest one. -/
structure Db.OldestOpen (db : Db) (default m : MatchMode) (p : Invoice → Prop) (inv : Invoice) : Prop where
  row : inv ∈ db.invoice.rows
  status : inv.status = .open
  mode : inv.effectiveMode default = m
  picked : p inv
  oldest : ∀ other ∈ db.invoice.rows, other.status = .open → other.effectiveMode default = m → p other →
    inv.createdAt ≤ other.createdAt

/-- The ledger has no such invoice. -/
def Db.NoOpen (db : Db) (default m : MatchMode) (p : Invoice → Prop) : Prop :=
  ∀ inv ∈ db.invoice.rows, inv.status = .open → inv.effectiveMode default = m → ¬ p inv

namespace IncomingPayment

variable (incoming : IncomingPayment) (now : Time) (inv : Invoice)

/-- The invoice's own identity received the payment. -/
def OnIdentity : Prop := inv.recipientPubkey = some incoming.recipientHex

/-- The payment's memo is the invoice's reference. -/
def NamesOrder : Prop := ∃ memo, incoming.memo = some memo ∧ inv.orderRef = some memo

/-- The invoice expects what was paid, and has not expired. -/
def HitsAmount : Prop :=
  (∃ e, inv.expectedAmount = some e ∧ e.toInt = incoming.amount.toNat) ∧ ∀ e, inv.expiry = some e → now < e

end IncomingPayment

/-- The candidate of a payment: by identity, else by memo, else by amount. -/
inductive Db.Candidate (db : Db) (now : Time) (default : MatchMode) (incoming : IncomingPayment) : Option Invoice → Prop
  | derived {inv : Invoice} (found : db.OldestOpen default .derived incoming.OnIdentity inv) :
      Candidate db now default incoming (some inv)
  | memo {inv : Invoice} (noDerived : db.NoOpen default .derived incoming.OnIdentity)
      (found : db.OldestOpen default .memo incoming.NamesOrder inv) : Candidate db now default incoming (some inv)
  | amount {inv : Invoice} (noDerived : db.NoOpen default .derived incoming.OnIdentity)
      (noMemo : db.NoOpen default .memo incoming.NamesOrder)
      (found : db.OldestOpen default .amount (incoming.HitsAmount now) inv) : Candidate db now default incoming (some inv)
  | none (noDerived : db.NoOpen default .derived incoming.OnIdentity)
      (noMemo : db.NoOpen default .memo incoming.NamesOrder)
      (noAmount : db.NoOpen default .amount (incoming.HitsAmount now)) : Candidate db now default incoming none

section

variable {db : Db} {now : Time} {default m : MatchMode} {incoming : IncomingPayment} {p : Invoice → Prop}
  {b : Invoice → Bool} {inv : Invoice} {n : Nat}

/-- A resolver's query returns an oldest one of the invoices its condition describes. -/
theorem Db.oldestOpen_of_pick (hb : ∀ inv, b inv = true ↔ inv.openIn default m = true ∧ p inv)
    (h : oldest (db.invoice.select b) n = some inv) : db.OldestOpen default m p inv := by
  have meets : ∀ inv, b inv = true ↔ (inv.status = .open ∧ inv.effectiveMode default = m) ∧ p inv := fun inv => by
    simpa [Invoice.openIn] using hb inv
  obtain ⟨hrow, least⟩ := mem_first.1 (pick_mem h)
  obtain ⟨hmem, hinv⟩ := List.mem_filter.1 hrow
  obtain ⟨⟨status, mode⟩, picked⟩ := (meets inv).1 hinv
  exact ⟨hmem, status, mode, picked, fun other hother hstatus hmode hp =>
    least other (List.mem_filter.2 ⟨hother, (meets other).2 ⟨⟨hstatus, hmode⟩, hp⟩⟩)⟩

theorem Db.noOpen_of_pick (hb : ∀ inv, b inv = true ↔ inv.openIn default m = true ∧ p inv)
    (h : oldest (db.invoice.select b) n = none) : db.NoOpen default m p := by
  intro inv hinv hstatus hmode hp
  have hmem : inv ∈ db.invoice.select b := by
    refine List.mem_filter.2 ⟨hinv, (hb inv).2 ⟨?_, hp⟩⟩
    simp [Invoice.openIn, hstatus, hmode]
  rw [oldest_eq_none.1 h] at hmem
  cases hmem

/-- The amount query compares what was stored with what was paid: below `2 ^ 63` these are the amounts. -/
theorem IncomingPayment.hitsAmount_iff (small : incoming.amount.toNat < 2 ^ 63) :
    (inv.expectedAmount = some incoming.amount.toInt64 ∧ inv.due now = false) ↔ incoming.HitsAmount now inv := by
  have amounts : inv.expectedAmount = some incoming.amount.toInt64 ↔
      ∃ e, inv.expectedAmount = some e ∧ e.toInt = incoming.amount.toNat := by
    have stored := toInt_toInt64 incoming.amount
    rw [if_pos small] at stored
    constructor
    · intro h
      exact ⟨_, h, stored⟩
    · rintro ⟨e, he, hint⟩
      rw [he, ← Int64.toInt_inj.1 (hint.trans stored.symm)]
  have expiry : inv.due now = false ↔ ∀ e, inv.expiry = some e → now < e := by
    cases hexp : inv.expiry <;> simp [Invoice.due, hexp]
  rw [amounts, expiry]
  exact Iff.rfl

/-- The three resolvers find the candidate. -/
theorem Db.candidate_of_resolve {inv? : Option Invoice} (small : incoming.amount.toNat < 2 ^ 63)
    (h : db.resolve now default incoming n = inv?) : db.Candidate now default incoming inv? := by
  subst h
  have identity : ∀ inv : Invoice, (decide (inv.recipientPubkey = some incoming.recipientHex) && inv.openIn default .derived) = true ↔
      inv.openIn default .derived = true ∧ incoming.OnIdentity inv := fun inv => by
    simp [IncomingPayment.OnIdentity, and_comm]
  have amount : ∀ inv : Invoice, (decide (inv.expectedAmount = some incoming.amount.toInt64) && inv.openIn default .amount &&
      !inv.due now) = true ↔ inv.openIn default .amount = true ∧ incoming.HitsAmount now inv := fun inv => by
    rw [← IncomingPayment.hitsAmount_iff small]
    simp only [Bool.and_eq_true, decide_eq_true_eq, Bool.not_eq_true']
    tauto
  rcases hd : oldest (db.derivedCandidates default incoming.recipientHex) n with _ | inv
  · have noDerived := noOpen_of_pick identity hd
    rcases hm : incoming.memo.bind fun memo => oldest (db.memoCandidates default memo) n with _ | inv
    · have noMemo : db.NoOpen default .memo incoming.NamesOrder := by
        rintro inv hinv hstatus hmode ⟨memo, hmemo, horder⟩
        rw [hmemo, Option.bind_some] at hm
        exact noOpen_of_pick (p := fun inv => inv.orderRef = some memo) (fun inv => by simp [and_comm]) hm inv hinv hstatus
          hmode horder
      rcases ha : oldest (db.amountCandidates default incoming.amount now) n with _ | inv
      · rw [resolve, hd, hm, ha]
        exact .none noDerived noMemo (noOpen_of_pick amount ha)
      · rw [resolve, hd, hm, ha]
        exact .amount noDerived noMemo (oldestOpen_of_pick amount ha)
    · obtain ⟨memo, hmemo, hpick⟩ := Option.bind_eq_some_iff.1 hm
      rw [resolve, hd, hm]
      refine .memo noDerived (oldestOpen_of_pick (fun inv => ?_) hpick)
      simp [IncomingPayment.NamesOrder, hmemo, and_comm]
  · rw [resolve, hd]
    exact .derived (oldestOpen_of_pick identity hd)

end

/-! ## What it does -/

/-- Between `s` and `s'` exactly the chosen invoice was marked paid by the slate, exactly the slate's payment
row got its links, and nothing else changed. -/
structure Settles {W : Type} (s s' : World W) (slateId : String) (invoiceId userId : Option String) : Prop where
  invoices : s'.db.invoice.rows = s.db.invoice.rows.map fun inv =>
    if invoiceId = some inv.id then { inv with status := .paid, paidPaymentId := some slateId, paidAt := some s.now } else inv
  payments : s'.db.payment.rows = s.db.payment.rows.map fun p =>
    if p.slateId = slateId then { p with invoiceId := invoiceId, userId := userId } else p
  rest : s' = { s with db := { s.db with invoice := s'.db.invoice, payment := s'.db.payment } }

/-- What a payment is meant to come to. -/
inductive Matching.Reference {W : Type} (default : MatchMode) (incoming : IncomingPayment) (s : World W) :
    MatchResult → World W → Prop
  | mismatch {inv : Invoice} {e : Int64} {m : AmountMismatch} (candidate : s.db.Candidate s.now default incoming (some inv))
      (binds : inv.expectedAmount = some e) (differs : e.toInt ≠ incoming.amount.toNat)
      (expected : (m.expected.toNat : Int) = e.toInt) (received : m.received = incoming.amount) :
      Reference default incoming s { invoiceId := none, userId := none, amountMismatch := some m } s
  | settled {inv? : Option Invoice} {userId : Option String} {s' : World W}
      (candidate : s.db.Candidate s.now default incoming inv?)
      (accepts : ∀ inv e, inv? = some inv → inv.expectedAmount = some e → e.toInt = incoming.amount.toNat)
      (owner : s.db.Owner incoming.recipientHex userId)
      (settles : Settles s s' incoming.slateId (inv?.map Invoice.id) userId) :
      Reference default incoming s { invoiceId := inv?.map Invoice.id, userId, amountMismatch := none } s'

section

variable {W : Type} {s s' : World W} {t : String} {inv : Invoice} {user : Option String}

/-- Marking an open invoice paid and linking the payment to it settles it. -/
theorem Settles.of_open (row : inv ∈ s.db.invoice.rows) (status : inv.status = .open) :
    Settles s ((s.exec (.markPaid inv.id t) 0).exec (.linkPayment t (some inv.id) user) 0) t (some inv.id) user where
  invoices := by
    refine List.map_congr_left fun r hr => ?_
    by_cases hid : r.id = inv.id
    · -- the row of that id is the invoice itself, which is open
      have same : r = inv := by
        have hget := Table.get_of_mem hr
        rw [hid, Table.get_of_mem row] at hget
        exact (Option.some.inj hget).symm
      subst same
      simp [status, Invoice.pay]
    · simp [hid, Ne.symm hid]
  payments := by
    refine List.map_congr_left fun p _ => ?_
    simp [Payment.link]
  rest := rfl

/-- Without an invoice, the payment row gets its user only. -/
theorem Settles.of_link : Settles s (s.exec (.linkPayment t none user) 0) t none user where
  invoices := by simp [World.exec, Stmt.exec, Db.setPayment]
  payments := by
    refine List.map_congr_left fun p _ => ?_
    simp [Payment.link]
  rest := rfl

end

namespace Matching

section

variable {W Own : Type} {gain : {β : Type} → Own → Eff β → β → Own} {g g' : Own} {B : Answer → Prop} {default : MatchMode}
  {incoming : IncomingPayment} {s s' : World W} {r : Except SqlxError MatchResult} {expected : Int64}

/-- The guard compares a stored amount that is not negative with the amount paid. -/
theorem mismatch_eq_none (nonneg : 0 ≤ expected) :
    mismatch incoming.amount (some expected) = none ↔ expected.toInt = incoming.amount.toNat := by
  have stored := toNat_clamp.2 nonneg
  have same : incoming.amount = clamp expected ↔ expected.toInt = incoming.amount.toNat := by
    rw [← UInt64.toNat_inj]
    omega
  simp [mismatch, same]

/-- However a match without a fault ends, it ends as the reference says. -/
theorem Ends.reference (h : Ends B gain default incoming g s r g' s') (hB : ∀ x, B x → x.fault = none)
    (nonneg : ∀ inv ∈ s.db.invoice.rows, ∀ e, inv.expectedAmount = some e → 0 ≤ e) (small : incoming.amount.toNat < 2 ^ 63) :
    ∃ m, r = .ok m ∧ Reference default incoming s m s' := by
  cases h with
  | failed hx fault => exact absurd (hB _ hx) fault
  | unlinked _ _ _ hy fault | forgotten _ _ hy fault => exact absurd (hB _ hy) fault
  | unmatched hx resolved owner =>
    obtain ⟨y, -, hy⟩ := owner
    have candidate := Db.candidate_of_resolve small resolved
    exact ⟨_, rfl, .settled candidate (fun _ _ h => by cases h) (Db.owner_iff.2 ⟨_, hy⟩) Settles.of_link⟩
  | rejected hx resolved guard =>
    rename_i x inv m
    have candidate := Db.candidate_of_resolve small resolved
    have row := Table.mem_of_get (Db.get_of_resolve resolved).1
    cases hexp : inv.expectedAmount with
    | none =>
      rw [hexp] at guard
      cases guard
    | some e =>
      have hnonneg := nonneg inv row e hexp
      rw [hexp] at guard
      have differs : e.toInt ≠ incoming.amount.toNat := fun h => by
        rw [(mismatch_eq_none hnonneg).2 h] at guard
        cases guard
      obtain rfl : ⟨clamp e, incoming.amount⟩ = m := by
        simp only [mismatch] at guard
        split at guard
        · exact Option.some.inj guard
        · cases guard
      exact ⟨_, rfl, .mismatch candidate hexp differs (toNat_clamp.2 hnonneg) rfl⟩
  | settled hx resolved guard owner =>
    rename_i x inv user
    have candidate := Db.candidate_of_resolve small resolved
    obtain ⟨hget, status⟩ := Db.get_of_resolve resolved
    obtain ⟨y, -, hy⟩ := owner
    have row := Table.mem_of_get hget
    refine ⟨_, rfl, .settled candidate (fun inv' e h hexp => ?_) (Db.owner_iff.2 ⟨_, hy⟩) (Settles.of_open row status)⟩
    obtain rfl : inv = inv' := Option.some.inj h
    rw [hexp] at guard
    exact (mismatch_eq_none (nonneg inv row e hexp)).1 guard

/-- The statements of one match: the user, the three resolvers, the amount, and the two updates. -/
theorem within_matchPayment (default : MatchMode) (incoming : IncomingPayment) :
    (matchPayment default incoming).run.Within 7 := by
  have mark : ∀ i, (markMatched incoming.slateId i).run.Within 1 := by
    rintro (_ | i)
    · exact .ret 1 _
    · exact Prog.Within.bindExcept Prog.Within.call fun _ => .ret 0 _
  have settle : ∀ i u, (settle incoming.slateId i u).run.Within 2 := fun i u =>
    Prog.Within.bindExcept (mark i) fun _ => Prog.Within.bindExcept Prog.Within.call fun _ => .ret 0 _
  have resolve : (resolve default incoming).run.Within 3 := by
    refine Prog.Within.bindExcept (n := 1) (m := 2) Prog.Within.call fun i => ?_
    cases i with
    | some i => exact .ret 2 _
    | none =>
      refine Prog.Within.bindExcept (n := 1) (m := 1) ?_ fun i => ?_
      · cases incoming.memo with
        | some memo => exact Prog.Within.call
        | none => exact .ret 1 _
      · cases i with
        | some i => exact .ret 1 _
        | none => exact Prog.Within.call
  refine Prog.Within.bindExcept (n := 1) (m := 6) Prog.Within.call fun user =>
    Prog.Within.bindExcept (m := 3) resolve fun i => ?_
  cases i with
  | none => exact (settle none _).mono (by omega)
  | some i =>
    refine Prog.Within.bindExcept (n := 1) (m := 2) Prog.Within.call fun expected => ?_
    split
    · exact .ret 2 _
    · exact settle (some i) _

/-- Run alone and without a failure, a match returns, and what the reference says. -/
theorem matchPayment_reference {W : Type} (U : Upstream W) (default : MatchMode) (incoming : IncomingPayment) (s : World W)
    (nonneg : ∀ inv ∈ s.db.invoice.rows, ∀ e, inv.expectedAmount = some e → 0 ≤ e) (small : incoming.amount.toNat < 2 ^ 63)
    (xs : List Answer) (faultless : ∀ x ∈ xs, x.fault = none) (enough : 7 ≤ xs.length) :
    ∃ m s', (matchPayment default incoming).run.exec (handler U) xs s = (.ret (.ok m), s') ∧
      Reference default incoming s m s' := by
  have contract : Meets (plainRequest U (fun _ x => x.fault = none) fun _ => True) ()
      (fun r g' s' => Ends (OnSql fun _ x => x.fault = none) (fun _ _ _ => ()) default incoming () s r g' s')
      (matchPayment default incoming).run () s :=
    request_matchPayment (fun _ _ _ => rfl) trivial fun _ _ _ _ _ => trivial
  obtain ⟨r, hret⟩ := (within_matchPayment default incoming).exec (handler U) s enough
  rcases contract.soloExec xs fun ev hev => faultless _ (Prog.input_mem_of_events hev) with ⟨r', hret', hends⟩ | ⟨hstop, -⟩
  · obtain ⟨m, rfl, href⟩ := hends.reference (fun x ⟨_, _, hx⟩ => hx) nonneg small
    exact ⟨m, _, Prod.ext hret' rfl, href⟩
  · exact absurd hret (hstop r)

/-- A derived and a memo invoice of one order, and a payment for them. -/
def counter : World Sample.Wallet :=
  { Sample.world with db := { Db.empty with
      invoice := ⟨[(Invoice.row Sample.upstream ⟨some "order", .grin 100, none, some .derived, none⟩ [109] "m" .memo "a" "a").toInvoice 10,
        (Invoice.row Sample.upstream ⟨some "order", .grin 70, none, none, none⟩ [109] "m" .memo "b" "b").toInvoice 20], by decide⟩
      payment := ⟨[(Record.paymentRow (Sample.received "t" 70) none "m").toPayment 30], by decide⟩ } }

/-- On a payment of 70 that names their order it comes to what the reference says. -/
theorem counter_settles : ∃ m s', (matchPayment .memo ⟨"t", 70, "m", some "order"⟩).run.exec (handler Sample.upstream)
    (List.replicate 7 {}) counter = (.ret (.ok m), s') ∧ Reference .memo ⟨"t", 70, "m", some "order"⟩ counter m s' := by
  refine matchPayment_reference Sample.upstream .memo ⟨"t", 70, "m", some "order"⟩ counter ?_ (by decide) _ ?_ (by decide)
  · intro inv hinv e he
    have stored : (counter.db.invoice.rows.all fun inv => inv.expectedAmount.all fun e => 0 ≤ e) = true := by decide
    have := List.all_eq_true.1 stored inv hinv
    rw [he] at this
    simpa using this
  · intro x hx
    rw [List.eq_of_mem_replicate hx]

end

end Matching

end GoblinPay
