import GoblinPay.Async.Journal
import GoblinPay.Runs.Links
import GoblinPay.Runs.Watch

/-!
# The depth behind a confirmed invoice

The poll confirms an invoice through the link of the payment it has read, and the depth of a confirmed
invoice is read through the payment the invoice names. As long as no invoice is joined to a second
payment and no linked payment is taken away, both are the same payment, and its depth is the required one.
-/

namespace GoblinPay

open Async Sql

/-- The call is the confirmation poll. -/
def Call.polls : Call → Bool
  | .confirmPoll .. => true
  | _ => false

/-- The kernel an operation asks the node for. -/
def Eff.asksKernel {β : Type} : Eff β → Option String
  | .getKernel excess => some excess
  | _ => none

section

variable {W : Type}

/-- The kernel the poll asked the node for last. -/
def asked (T : List (Happening W)) : Option String :=
  T.foldl (fun k ev => if ev.head.call.polls then ev.eff.asksKernel.orElse fun _ => k else k) none

/-- A confirmed invoice names a payment at the required depth, and reports such a depth. -/
structure ConfirmedDeep (required : Int64) (s : World W) : Prop where
  paying : ∀ i inv, s.db.invoice.get i = some inv → inv.status = .confirmed →
    ∃ t p, inv.paidPaymentId = some t ∧ s.db.payment.get t = some p ∧ required ≤ p.confirmations
  exposed : ∀ i inv, s.db.invoice.get i = some inv → inv.status = .confirmed →
    ∃ c, required ≤ c ∧ ∀ n, ((Stmt.confirmations i).exec s.now n s.db).1 = .ok (some c)

/-- An invoice is confirmed on the node's answer for the kernel of its paying payment. -/
def ConfirmedByPayer (T : List (Happening W)) : Prop :=
  ∀ T₁ ev T₂ i inv, T = T₁ ++ ev :: T₂ → ev.eff.write = some (.confirm i) → ev.state.db.invoice.get i = some inv →
    inv.status = .paid → ∃ t p k, inv.paidPaymentId = some t ∧ ev.state.db.payment.get t = some p ∧ p.kernel = some k ∧
      asked T₁ = some k

/-- The write joins no invoice to a second payment, and takes no linked payment away from its invoice. -/
def Write.Pairs (s : World W) : Write → Prop
  | .pay i t => (∃ inv, s.db.invoice.get i = some inv ∧ inv.status = .open) → ∀ t', LinkedTo t' i s → t' = t
  | .insert row => s.db.payment.get row.slateId = none → ∀ i inv, row.invoiceId = some i → s.db.invoice.get i = some inv →
      inv.status = .paid ∨ inv.status = .confirmed → inv.paidPaymentId = some row.slateId
  | .link t l => (s.db.payment.get t).isSome = true → (∀ i, LinkedTo t i s → l = some i) ∧
      ∀ i inv, l = some i → s.db.invoice.get i = some inv → inv.status = .paid ∨ inv.status = .confirmed →
        inv.paidPaymentId = some t
  | .delete t => ∀ i, ¬ LinkedTo t i s
  | _ => True

/-- A payment is linked to no paid or confirmed invoice but the one that names it, and confirmed invoices name
payments at the required depth. -/
structure DepthLaw (required : Int64) (s : World W) : Prop where
  deep : ∀ i inv, s.db.invoice.get i = some inv → inv.status = .confirmed →
    ∃ t p, inv.paidPaymentId = some t ∧ s.db.payment.get t = some p ∧ p.invoiceId = some i ∧ required ≤ p.confirmations
  sole : ∀ i inv t, s.db.invoice.get i = some inv → inv.status = .paid ∨ inv.status = .confirmed → LinkedTo t i s →
    inv.paidPaymentId = some t

theorem DepthLaw.confirmedDeep {required : Int64} {s : World W} (law : DepthLaw required s) : ConfirmedDeep required s := by
  constructor
  · intro i inv hget hconfirmed
    obtain ⟨t, p, hnames, hp, -, hdepth⟩ := law.deep i inv hget hconfirmed
    exact ⟨t, p, hnames, hp, hdepth⟩
  · intro i inv hget hconfirmed
    obtain ⟨t, p, hnames, hp, -, hdepth⟩ := law.deep i inv hget hconfirmed
    refine ⟨p.confirmations, hdepth, fun n => ?_⟩
    simp [Stmt.exec, hget, hnames, hp]

/-- No confirmed invoice names the payment. -/
def Unconfirmed (t : String) (s : World W) : Prop :=
  ∀ i inv, s.db.invoice.get i = some inv → inv.status = .confirmed → inv.paidPaymentId ≠ some t

/-- What the calls other than the poll leave: linked payments, and which payments wait for their depth. -/
structure Undisturbed (s s' : World W) : Prop where
  rows : ∀ t i p, s.db.payment.get t = some p → p.invoiceId = some i → ∃ p', s'.db.payment.get t = some p' ∧
    p'.invoiceId = some i ∧ p'.kernel = p.kernel ∧ p'.confirmations = p.confirmations
  unconfirmed : ∀ t, Unconfirmed t s → Unconfirmed t s'

theorem Undisturbed.refl (s : World W) : Undisturbed s s := ⟨fun _ _ p hp hi => ⟨p, hp, hi, rfl, rfl⟩, fun _ h => h⟩

theorem Undisturbed.trans {a b c : World W} (h : Undisturbed a b) (h' : Undisturbed b c) : Undisturbed a c := by
  refine ⟨fun t i p hp hi => ?_, fun t ht => h'.unconfirmed t (h.unconfirmed t ht)⟩
  obtain ⟨p', hp', hi', hkernel, hdepth⟩ := h.rows t i p hp hi
  obtain ⟨p'', hp'', hi'', hkernel', hdepth'⟩ := h'.rows t i p' hp' hi'
  exact ⟨p'', hp'', hi'', hkernel'.trans hkernel, hdepth'.trans hdepth⟩

/-! ## Operations -/

/-- The write records no depth and confirms nothing. -/
def Write.Sparing : Write → Prop
  | .deepen .. | .confirm _ => False
  | _ => True

/-- The payment `t`, whose kernel is `k`, has brought the invoice `i` to the required depth. -/
structure Brought (required : Int64) (k : Option String) (i t : String) (s : World W) (p : Payment) : Prop where
  row : s.db.payment.get t = some p
  link : p.invoiceId = some i
  kernel : p.kernel.isSome = true ∧ p.kernel = k
  depth : required ≤ p.confirmations

/-- Where the poll may issue a write, with `k` the kernel it asked for last. -/
def Write.OnPayer (required : Int64) (k : Option String) (s : World W) : Write → Prop
  | .deepen t _ => Unconfirmed t s
  | .confirm i => ∀ inv, s.db.invoice.get i = some inv → inv.status = .paid →
      ∃ t p, inv.paidPaymentId = some t ∧ Brought required k i t s p
  | _ => True

theorem Write.Sparing.onPayer {required : Int64} {k : Option String} {s : World W} {wr : Write} (h : wr.Sparing) :
    wr.OnPayer required k s := by
  cases wr <;> trivial

variable {U : Upstream W} {required : Int64} {k : Option String} {s : World W} {β : Type} {e : Eff β} {x : Answer}

/-- Linked payments stay, with their links, kernels and depths. -/
theorem rows_kept (pairs : ∀ wr, e.write = some wr → wr.Pairs s) {t i : String} {p : Payment} (hp : s.db.payment.get t = some p)
    (hi : p.invoiceId = some i) (shallow : ∀ c, e.write ≠ some (.deepen t c)) : ∃ p', (act U x s e).2.db.payment.get t = some p' ∧
      p'.invoiceId = some i ∧ p'.kernel = p.kernel ∧ p'.confirmations = p.confirmations := by
  have change := e.payment_change U x s t
  rw [hp] at change
  generalize (act U x s e).2.db.payment.get t = r at change
  cases change with
  | keep => exact ⟨p, rfl, hi, rfl, rfl⟩
  | @link _ l u hby =>
    have same : l = some i := (pairs _ hby (by rw [hp]; rfl)).1 i ⟨p, hp, hi⟩
    exact ⟨_, rfl, same, rfl, rfl⟩
  | delete hby => exact absurd ⟨p, hp, hi⟩ (pairs _ hby i)
  | deepen hby => exact absurd hby (shallow _)
  | reply => exact ⟨_, rfl, hi, rfl, rfl⟩

theorem unconfirmed_kept {t : String} (h : Unconfirmed t s) (unconfirming : ∀ i, e.write ≠ some (.confirm i)) :
    Unconfirmed t (act U x s e).2 := by
  intro i inv' hget' hconfirmed
  have change := e.invoice_change U x s i
  rw [hget'] at change
  generalize hr : s.db.invoice.get i = r at change
  cases change with
  | keep => exact h i inv' hr hconfirmed
  | create | expire | sweep | pay => cases hconfirmed
  | @arm inv => exact h i inv hr hconfirmed
  | confirm hby => exact absurd hby (unconfirming i)

/-- A write that spares depths disturbs nothing. -/
theorem Undisturbed.act (pairs : ∀ wr, e.write = some wr → wr.Pairs s) (spares : ∀ wr, e.write = some wr → wr.Sparing) :
    Undisturbed s (act U x s e).2 := by
  constructor
  · intro t i p hp hi
    exact rows_kept pairs hp hi fun c hwr => spares _ hwr
  · intro t ht
    exact unconfirmed_kept ht fun i hwr => spares _ hwr

/-- A payment deep enough that a confirmed invoice names stays so, where the poll does not write its depth. -/
theorem DepthLaw.named (law : DepthLaw required s) (pairs : ∀ wr, e.write = some wr → wr.Pairs s)
    (onPayer : ∀ wr, e.write = some wr → wr.OnPayer required k s) {i : String} {inv : Invoice} (hget : s.db.invoice.get i = some inv)
    (hstatus : inv.status = .confirmed) : ∃ t p, inv.paidPaymentId = some t ∧
      (GoblinPay.act U x s e).2.db.payment.get t = some p ∧ p.invoiceId = some i ∧ required ≤ p.confirmations := by
  obtain ⟨t, p, hnames, hp, hi, hdepth⟩ := law.deep i inv hget hstatus
  have shallow : ∀ c, e.write ≠ some (.deepen t c) := fun c hwr => onPayer _ hwr i inv hget hstatus hnames
  obtain ⟨p', hp', hi', -, hsame⟩ := rows_kept (U := U) (x := x) pairs hp hi shallow
  exact ⟨t, p', hnames, hp', hi', by rw [hsame]; exact hdepth⟩

theorem DepthLaw.act_deep (law : DepthLaw required s) (pairs : ∀ wr, e.write = some wr → wr.Pairs s)
    (onPayer : ∀ wr, e.write = some wr → wr.OnPayer required k s) {i : String} {inv' : Invoice}
    (hget' : (GoblinPay.act U x s e).2.db.invoice.get i = some inv') (hconfirmed : inv'.status = .confirmed) :
    ∃ t p, inv'.paidPaymentId = some t ∧ (GoblinPay.act U x s e).2.db.payment.get t = some p ∧ p.invoiceId = some i ∧
      required ≤ p.confirmations := by
  have change := e.invoice_change U x s i
  rw [hget'] at change
  generalize hr : s.db.invoice.get i = r at change
  cases change with
  | keep => exact law.named pairs onPayer hr hconfirmed
  | create | expire | sweep | pay => cases hconfirmed
  | arm =>
    obtain ⟨t, p, hnames, brought⟩ := law.named (U := U) (x := x) pairs onPayer hr hconfirmed
    exact ⟨t, p, hnames, brought⟩
  | @confirm inv hby hpaid =>
    obtain ⟨t, p, hnames, brought⟩ := onPayer _ hby inv hr hpaid
    have shallow : ∀ c, e.write ≠ some (.deepen t c) := by
      intro c hwr
      rw [hby] at hwr
      cases hwr
    obtain ⟨p', hp', hi', -, hsame⟩ := rows_kept (U := U) (x := x) pairs brought.row brought.link shallow
    exact ⟨t, p', hnames, hp', hi', by rw [hsame]; exact brought.depth⟩

/-- A payment linked to an invoice was linked before, or this write links it. -/
theorem linked_act (pairs : ∀ wr, e.write = some wr → wr.Pairs s) {t i : String} (hlinked : LinkedTo t i (GoblinPay.act U x s e).2) :
    LinkedTo t i s ∨ ((∀ u, e.write ≠ some (.pay i u)) ∧
      ∀ inv, s.db.invoice.get i = some inv → inv.status = .paid ∨ inv.status = .confirmed → inv.paidPaymentId = some t) := by
  obtain ⟨p', hp', hi'⟩ := hlinked
  have change := e.payment_change U x s t
  rw [hp'] at change
  generalize hr : s.db.payment.get t = r at change
  cases change with
  | keep => exact Or.inl ⟨p', hr, hi'⟩
  | @insert row hby hid =>
    refine Or.inr ⟨fun u hwr => ?_, fun inv hget hstatus => ?_⟩
    · rw [hby] at hwr
      cases hwr
    · rw [← hid]
      exact pairs _ hby (by rw [hid]; exact hr) i inv hi' hget hstatus
  | @link p l u hby =>
    refine Or.inr ⟨fun u hwr => ?_, fun inv hget hstatus => ?_⟩
    · rw [hby] at hwr
      cases hwr
    · exact (pairs _ hby (by rw [hr]; rfl)).2 i inv hi' hget hstatus
  | @deepen p => exact Or.inl ⟨p, hr, hi'⟩
  | @reply p => exact Or.inl ⟨p, hr, hi'⟩

/-- Every operation keeps the law, where the poll confirms on the paying payment. -/
theorem DepthLaw.act (law : DepthLaw required s) (pairs : ∀ wr, e.write = some wr → wr.Pairs s)
    (onPayer : ∀ wr, e.write = some wr → wr.OnPayer required k s) : DepthLaw required (act U x s e).2 := by
  constructor
  · exact fun i inv' hget' hconfirmed => law.act_deep pairs onPayer hget' hconfirmed
  · intro i inv' t hget' hsettled hlinked
    have linked := linked_act pairs hlinked
    have names : ∀ inv, s.db.invoice.get i = some inv → inv.status = .paid ∨ inv.status = .confirmed →
        inv.paidPaymentId = some t := by
      intro inv hget hstatus
      rcases linked with hold | ⟨-, hnew⟩
      · exact law.sole i inv t hget hstatus hold
      · exact hnew inv hget hstatus
    have change := e.invoice_change U x s i
    rw [hget'] at change
    generalize hr : s.db.invoice.get i = r at change
    cases change with
    | keep => exact names inv' hr hsettled
    | create | expire | sweep =>
      obtain h | h := hsettled <;> cases h
    | @pay inv u hby hopen =>
      rcases linked with hold | ⟨hnone, -⟩
      · have same : t = u := pairs _ hby ⟨inv, hr, hopen⟩ t hold
        rw [same]
        rfl
      · exact absurd hby (hnone u)
    | @arm inv => exact names inv hr hsettled
    | @confirm inv _ hpaid => exact names inv hr (Or.inl hpaid)

/-! ## The contract -/

/-- What is asked of a run: every write pairs, and only the poll records depths and confirms. -/
structure Stewarded (T : List (Happening W)) : Prop where
  pairs : ∀ ev ∈ T, ∀ wr, ev.eff.write = some wr → wr.Pairs ev.state
  spares : ∀ ev ∈ T, ev.head.call.polls = false → ∀ wr, ev.eff.write = some wr → wr.Sparing

variable (U) in
/-- The ghost data of a call is the kernel it asked for last. -/
def deepening (required : Int64) (T : List (Happening W)) : Discipline (handler U) (Head Call (World W)) (Option String) where
  inv := DepthLaw required
  rely h _ s s' := h.call.polls = true → Undisturbed s s'
  before h k e s := h.call.polls = true → ∀ wr, e.write = some wr → wr.OnPayer required k s
  allowed h e x s := (⟨h, e, x, s⟩ : Happening W) ∈ T
  gain k e _ := e.asksKernel.orElse fun _ => k
  rely_refl _ _ s _ := .refl s
  rely_trans h h' polls := (h polls).trans (h' polls)

/-- The entries of the work list that are left: their payments are not behind a confirmed invoice, and are linked
as the list says. -/
structure Waiting (pending : List (String × String × Option String)) (s : World W) : Prop where
  nodup : (pending.map Prod.fst).Nodup
  unconfirmed : ∀ entry ∈ pending, Unconfirmed entry.1 s
  linked : ∀ entry ∈ pending, ∀ i, entry.2.2 = some i → ∃ p, s.db.payment.get entry.1 = some p ∧ p.invoiceId = some i ∧
    p.kernel = some entry.2.1

theorem Waiting.undisturbed {s s' : World W} {pending : List (String × String × Option String)} (h : Waiting pending s)
    (same : Undisturbed s s') : Waiting pending s' := by
  refine ⟨h.nodup, fun entry hentry => same.unconfirmed _ (h.unconfirmed entry hentry), fun entry hentry i hi => ?_⟩
  obtain ⟨p, hp, hlink, hkernel⟩ := h.linked entry hentry i hi
  obtain ⟨p', hp', hlink', hkernel', -⟩ := same.rows _ i p hp hlink
  exact ⟨p', hp', hlink', hkernel'.trans hkernel⟩

theorem Waiting.tail {entry : String × String × Option String} {pending : List (String × String × Option String)}
    (h : Waiting (entry :: pending) s) : Waiting pending s where
  nodup := (List.nodup_cons.1 h.nodup).2
  unconfirmed := fun entry' hentry => h.unconfirmed entry' (List.mem_cons_of_mem _ hentry)
  linked := fun entry' hentry => h.linked entry' (List.mem_cons_of_mem _ hentry)

/-- The work list is read where every listed payment is below the required depth. -/
theorem DepthLaw.waiting (law : DepthLaw required s) {n : Nat} {pending : List (String × String × Option String)}
    (hlist : ((Stmt.selectPending required).exec s.now n s.db).1 = .ok pending) : Waiting pending s := by
  obtain rfl := Except.ok.inj hlist
  have rows : ∀ {entry : String × String × Option String} (_ : entry ∈ (s.db.payment.select fun p => p.pending required).filterMap
      fun p => p.kernel.map fun kernel => (p.slateId, kernel, p.invoiceId)), ∃ p, s.db.payment.get entry.1 = some p ∧
        p.kernel = some entry.2.1 ∧ p.invoiceId = entry.2.2 ∧ p.confirmations < required := by
    intro entry hentry
    obtain ⟨p, hp, hmap⟩ := List.mem_filterMap.1 hentry
    obtain ⟨kernel, hkernel, rfl⟩ := Option.map_eq_some_iff.1 hmap
    obtain ⟨hget, hpending⟩ := Table.mem_select.1 hp
    simp only [Payment.pending, Bool.and_eq_true, decide_eq_true_eq] at hpending
    exact ⟨p, hget, hkernel, rfl, hpending.2⟩
  refine ⟨?_, fun entry hentry i inv hget hconfirmed hnames => ?_, fun entry hentry i hi => ?_⟩
  · have keys : ((s.db.payment.select fun p => p.pending required).map Payment.slateId).Nodup :=
      s.db.payment.nodup.sublist (List.Sublist.map _ List.filter_sublist)
    rw [List.map_filterMap]
    have same : ((s.db.payment.select fun p => p.pending required).filterMap fun p =>
        (p.kernel.map fun kernel => (p.slateId, kernel, p.invoiceId)).map Prod.fst) =
        ((s.db.payment.select fun p => p.pending required).filter fun p => p.kernel.isSome).map Payment.slateId := by
      rw [← List.filterMap_eq_map, ← List.filterMap_eq_filter, List.filterMap_filterMap]
      refine List.filterMap_congr fun p _ => ?_
      cases hkernel : p.kernel <;> simp [hkernel, Option.guard]
    rw [same]
    exact keys.sublist (List.Sublist.map _ List.filter_sublist)
  · obtain ⟨p, hp, -, -, hshallow⟩ := rows hentry
    obtain ⟨t, p', hnames', hp', -, hdepth⟩ := law.deep i inv hget hconfirmed
    obtain rfl : entry.1 = t := Option.some.inj (hnames.symm.trans hnames')
    obtain rfl : p = p' := Option.some.inj (hp.symm.trans hp')
    exact absurd hdepth (Int64.not_le.2 hshallow)
  · obtain ⟨p, hp, hkernel, hlink, -⟩ := rows hentry
    exact ⟨p, hp, hlink.trans hi, hkernel⟩

section

variable {T : List (Happening W)} {h : Head Call (World W)} {α : Type} {pending rest : List (String × String × Option String)}

/-- What does not disturb, the poll's own operations included, leaves the rest of the work list waiting. -/
theorem deepening_spared (hT : Stewarded T) (polls : h.call.polls = true) {p : Io α}
    (hp : p.Only fun e => e.asksKernel = none ∧ ∀ wr, e.write = some wr → wr.Sparing) (hwaiting : Waiting rest s) :
    Meets (deepening U required T) h (fun _ _ s => Waiting rest s) p k s := by
  refine Meets.of_only_keep hp hwaiting (fun _ _ _ hr _ hK => hK.undisturbed (hr polls)) ?_ ?_
  · intro γ e k s he _ _ _ wr hwr
    exact (he.2 wr hwr).onPayer
  · intro γ e x s he _ hK hx
    exact hK.undisturbed (Undisturbed.act (hT.pairs _ hx) he.2)

/-- The poll asks the node for the kernel of an entry. -/
theorem deepening_confirmStatus (hT : Stewarded T) (polls : h.call.polls = true) (kernel : String) (hwaiting : Waiting pending s) :
    Meets (deepening U required T) h (fun r k s => Waiting pending s ∧ ∀ status, r = .ok status → k = some kernel)
      (GpWallet.confirmStatus kernel).run k s := by
  have keep : ∀ {k} s s', (deepening U required T).rely h k s s' → (deepening U required T).inv s' → Waiting pending s →
      Waiting pending s' := fun _ _ hr _ hK => hK.undisturbed (hr polls)
  have quiet : ∀ {γ : Type} {e : Eff γ} {k} (s : World W), e.write = none → (deepening U required T).before h k e s := by
    intro γ e k s he _ wr hwr
    rw [he] at hwr
    cases hwr
  have own : ∀ {γ : Type} {e : Eff γ} {x s}, e.write = none → (deepening U required T).allowed h e x s → Waiting pending s →
      Waiting pending (act U x s e).2 := by
    intro γ e x s he hx hK
    refine hK.undisturbed (Undisturbed.act (hT.pairs _ hx) fun wr hwr => ?_)
    rw [he] at hwr
    cases hwr
  have failed : ∀ {k s} {m : WalletError}, Waiting pending s → Meets (deepening U required T) h
      (fun (r : Except WalletError ConfirmStatus) k s => Waiting pending s ∧ ∀ status, r = .ok status → k = some kernel) (.ret (.error m)) k s := by
    intro k s m hK
    exact Meets.leave hK keep fun s _ hK => ⟨hK, fun _ h => by cases h⟩
  rw [GpWallet.confirmStatus, GpWallet.upstream_bind]
  refine Meets.step hwaiting keep (fun s _ _ => quiet s rfl) fun x s _ hK hx => ?_
  have hK := own rfl hx hK
  split
  · rw [GpWallet.upstream_bind]
    refine Meets.step hK keep (fun s _ _ => quiet s rfl) fun y s _ hK hy => ?_
    have hK := own rfl hy hK
    split
    · exact Meets.leave hK keep fun s _ hK => ⟨hK, fun _ _ => rfl⟩
    · exact failed hK
  · exact failed hK

/-- The rest of a confirmation: the webhook. -/
theorem spared_notifyConfirmed (url t i : String) (height : Option Int64) (confirmations : UInt64) :
    (Payments.notifyConfirmed url t i height confirmations).Only
      fun e => e.asksKernel = none ∧ ∀ wr, e.write = some wr → wr.Sparing := by
  have silent : ∀ {γ : Type} {e : Eff γ}, e.asksKernel = none → e.write = none →
      e.asksKernel = none ∧ ∀ wr, e.write = some wr → wr.Sparing := by
    intro γ e hasks he
    refine ⟨hasks, fun wr hwr => ?_⟩
    rw [he] at hwr
    cases hwr
  unfold Payments.notifyConfirmed
  refine Prog.Only.bind (Prog.Only.call (silent rfl rfl)) fun row => ?_
  split
  · refine Prog.Only.bind ?_ fun payload => ?_
    · exact Prog.Only.bind (Prog.Only.call (silent rfl rfl)) fun _ => Prog.Only.bind (Prog.Only.call (silent rfl rfl)) fun _ => trivial
    · refine Prog.Only.bind (Prog.Only.bindExcept (Prog.Only.call ⟨rfl, fun wr hwr => ?_⟩) fun _ => trivial) fun _ => trivial
      cases hwr
      trivial
  · exact trivial

/-- The transition names the payment that brought the invoice there. -/
theorem deepening_finalizeInvoice (hT : Stewarded T) (polls : h.call.polls = true) {policy : ConfirmPolicy} {t i kernel : String}
    {height : Option Int64} {confirmations : UInt64} (hwaiting : Waiting rest s) (other : t ∉ rest.map Prod.fst)
    (brought : ∃ p, Brought required (some kernel) i t s p) :
    Meets (deepening U required T) h (fun _ _ s => Waiting rest s) (Payments.finalizeInvoice policy t i height confirmations)
      (some kernel) s := by
  unfold Payments.finalizeInvoice
  refine Meets.sqlRun (q := .markConfirmed i) (K := fun s => Waiting rest s ∧ ∃ p, Brought required (some kernel) i t s p)
    ⟨hwaiting, brought⟩ ?_ ?_ ?_ ?_
  · rintro s s' hr - ⟨hwaiting, p, brought⟩
    obtain ⟨p', hp', hlink, hkernel, hdepth⟩ := (hr polls).rows t i p brought.row brought.link
    refine ⟨hwaiting.undisturbed (hr polls), p', hp', hlink, ?_, ?_⟩
    · rw [hkernel]
      exact brought.kernel
    · rw [hdepth]
      exact brought.depth
  · rintro s law ⟨-, p, brought⟩ - wr hwr
    cases hwr
    intro inv hget hpaid
    exact ⟨t, p, law.sole i inv t hget (Or.inl hpaid) ⟨p, brought.row, brought.link⟩, brought⟩
  · rintro x s b law ⟨hwaiting, p, brought⟩ hx -
    have waiting : Waiting rest (s.exec (.markConfirmed i) x.choice) := by
      refine ⟨hwaiting.nodup, fun entry hentry j inv' hget hconfirmed hnames => ?_, hwaiting.linked⟩
      have change := (Eff.sql (.markConfirmed i)).invoice_change U { choice := x.choice } s j
      rw [show (act U { choice := x.choice } s (.sql (.markConfirmed i))).2 = s.exec (.markConfirmed i) x.choice from rfl, hget] at change
      generalize hr : s.db.invoice.get j = r at change
      cases change with
      | keep => exact hwaiting.unconfirmed entry hentry j inv' hr hconfirmed hnames
      | @confirm inv hby hpaid =>
        cases hby
        have hnamed : inv.paidPaymentId = some t := law.sole i inv t hr (Or.inl hpaid) ⟨p, brought.row, brought.link⟩
        have hsame : some entry.1 = some t := hnames.symm.trans hnamed
        exact other (List.mem_map.2 ⟨entry, hentry, Option.some.inj hsame⟩)
      | create by_ | expire by_ | sweep by_ | pay by_ | arm by_ => cases by_
    cases b with
    | true =>
      dsimp only
      split
      · exact deepening_spared hT polls (spared_notifyConfirmed ..) waiting
      · exact Meets.leave waiting (fun _ _ hr _ hK => hK.undisturbed (hr polls)) fun _ _ hK => hK
    | false => exact Meets.leave waiting (fun _ _ hr _ hK => hK.undisturbed (hr polls)) fun _ _ hK => hK
  · rintro s e - ⟨hwaiting, -⟩
    exact Meets.leave hwaiting (fun _ _ hr _ hK => hK.undisturbed (hr polls)) fun _ _ hK => hK

theorem deepening_confirmOne (hT : Stewarded T) (polls : h.call.polls = true) {policy : ConfirmPolicy}
    (hpolicy : policy.required = required) {t kernel : String} {link : Option String} {status : ConfirmStatus}
    (hwaiting : Waiting ((t, kernel, link) :: rest) s) :
    Meets (deepening U required T) h (fun _ _ s => Waiting rest s) (Payments.confirmOne policy t link status) (some kernel) s := by
  have leave : ∀ {s : World W}, Waiting rest s → Meets (deepening U required T) h (fun _ _ s => Waiting rest s) (.ret ()) (some kernel) s :=
    fun hK => Meets.leave hK (fun _ _ hr _ hK => hK.undisturbed (hr polls)) fun _ _ hK => hK
  unfold Payments.confirmOne
  dsimp only
  refine Meets.sqlRun hwaiting (fun _ _ hr _ hK => hK.undisturbed (hr polls)) ?_ ?_ ?_
  · intro s _ hwaiting _ wr hwr
    cases hwr
    exact hwaiting.unconfirmed _ List.mem_cons_self
  · intro x s _ _ hwaiting _ _
    -- the depth of a payment is no link and no kernel
    have waiting : Waiting ((t, kernel, link) :: rest) (s.exec (.updateDepth (status.height.map UInt64.toInt64)
        (status.confirmations.getD 0).toInt64 t) x.choice) := by
      refine ⟨hwaiting.nodup, hwaiting.unconfirmed, fun entry hentry i hi => ?_⟩
      obtain ⟨p, hp, hlink, hkernel⟩ := hwaiting.linked entry hentry i hi
      refine ⟨_, (get_updateDepth _).trans (by rw [hp, Option.map_some]), ?_⟩
      split
      · exact ⟨hlink, hkernel⟩
      · exact ⟨hlink, hkernel⟩
    dsimp only
    split
    · rename_i deep
      cases link with
      | none => exact leave waiting.tail
      | some i =>
        have other : t ∉ rest.map Prod.fst := (List.nodup_cons.1 hwaiting.nodup).1
        refine deepening_finalizeInvoice hT polls waiting.tail other ?_
        obtain ⟨p, hp, hlink, hkernel⟩ := hwaiting.linked _ List.mem_cons_self i rfl
        refine ⟨p.atDepth (status.height.map UInt64.toInt64) (status.confirmations.getD 0).toInt64 s.now, ?_, hlink, ?_, ?_⟩
        · rw [get_updateDepth, hp, Option.map_some, if_pos (Table.key_of_get hp)]
        · exact ⟨by rw [show (p.atDepth _ _ s.now).kernel = p.kernel from rfl, hkernel]; rfl, hkernel⟩
        · rw [← hpolicy]
          exact deep
    · exact leave waiting.tail
  · exact fun s _ _ hwaiting => leave hwaiting.tail

theorem deepening_confirmAll (hT : Stewarded T) (polls : h.call.polls = true) {policy : ConfirmPolicy}
    (hpolicy : policy.required = required) (hwaiting : Waiting pending s) :
    Meets (deepening U required T) h (fun _ _ _ => True) (Payments.confirmAll policy pending) k s := by
  induction pending generalizing k s with
  | nil => exact fun _ _ _ => trivial
  | cons entry rest ih =>
    obtain ⟨t, kernel, link⟩ := entry
    refine Meets.andThen (deepening_confirmStatus hT polls kernel hwaiting) fun r k s _ hr => ?_
    obtain ⟨hwaiting, hasked⟩ := hr
    cases r with
    | error e => exact ih hwaiting.tail
    | ok status =>
      obtain rfl := hasked status rfl
      dsimp only
      split
      · exact Meets.andThen (deepening_confirmOne hT polls hpolicy hwaiting) fun _ _ _ _ hwaiting => ih hwaiting
      · exact ih hwaiting.tail

theorem deepening_confirmPoll (hT : Stewarded T) (polls : h.call.polls = true) {policy : ConfirmPolicy}
    (hpolicy : policy.required = required) (passes : Nat) :
    Meets (deepening U required T) h (fun _ _ _ => True) (Payments.confirmPoll policy passes) k s := by
  induction passes generalizing k s with
  | zero => exact fun _ _ _ => trivial
  | succ passes ih =>
    have pass : Meets (deepening U required T) h (fun _ _ _ => True) (Payments.confirmPending policy).run k s := by
      refine Meets.sqlThen (q := .selectPending policy.required) (K := fun _ => True) trivial (fun _ _ _ _ _ => trivial)
        (fun s _ _ _ wr hwr => by cases hwr) (fun x s pending law _ _ hlist => ?_) fun _ _ _ _ _ _ _ => trivial
      rw [World.exec_read (q := .selectPending policy.required) trivial]
      rw [hpolicy] at hlist
      refine Meets.andThen (f := fun a => .ret (Except.ok a)) (deepening_confirmAll hT polls hpolicy (law.waiting hlist)) ?_
      exact fun _ _ _ _ _ _ _ _ => trivial
    have logged : Meets (deepening U required T) h (fun _ _ _ => True) (discard (Payments.confirmPending policy).run) k s :=
      Meets.andThen (f := fun _ => .ret ()) pass fun _ _ _ _ _ _ _ _ => trivial
    exact Meets.andThen logged fun _ _ _ _ _ => ih

end

/-! ## Runs -/

variable (U) in
/-- One call in flight is the poll, with the threshold `required`. -/
structure Polled (required : Int64) (w : World W) (ms : Run) : Prop where
  threshold : ∀ h ∈ Pool.heads (after U w ms), ∀ policy passes, h.call = .confirmPoll policy passes → policy.required = required
  single : Protocol.Single Call.polls (Pool.heads (after U w ms))

variable (U) in
/-- Every write of the run pairs. -/
def Paired (w : World W) (ms : Run) : Prop :=
  ∀ ev ∈ history U w ms, ∀ wr, ev.eff.write = some wr → wr.Pairs ev.state

/-- The poll alone records depths and confirms. -/
theorem sparing_run {w : World W} {ms : Run} {ev : Happening W} (hev : ev ∈ history U w ms) (other : ev.head.call.polls = false)
    {wr : Write} (hwr : ev.eff.write = some wr) : wr.Sparing := by
  have watched : ev.head.call.polls = true ∨ wr.Sparing := by
    refine watch_run (B := fun h _ wr => h.call.polls = true ∨ wr.Sparing) (fun c s => ?_) hev hwr
    by_cases hrail : c.IsRail
    · refine watch_rail (h := ⟨c, s⟩) (fun wr _ hpay => Or.inr ?_) hrail
      cases wr <;> trivial
    · refine watch_of_writes (Call.writes U hrail) fun wr _ hmay => ?_
      cases c with
      | confirmPoll => exact Or.inl rfl
      | createInvoice cfg ttl body =>
        rcases hmay with ⟨_, _, _, _, -, rfl⟩ | ⟨_, _, rfl⟩
        · exact Or.inr trivial
        · exact Or.inr trivial
      | boot =>
        obtain ⟨_, rfl⟩ := hmay
        exact Or.inr trivial
      | expirySweep =>
        obtain ⟨_, rfl⟩ := hmay
        exact Or.inr trivial
      | maintenance | rotateUser =>
        obtain ⟨_, _, rfl⟩ | ⟨_, _, rfl⟩ := hmay
        · exact Or.inr trivial
        · exact Or.inr trivial
      | createUser =>
        obtain ⟨_, rfl⟩ | ⟨_, _, rfl⟩ := hmay
        · exact Or.inr trivial
        · exact Or.inr trivial
      | setRotateInterval =>
        cases hmay
        exact Or.inr trivial
      | _ => exact hmay.elim
  rcases watched with polls | spares
  · rw [other] at polls
    cases polls
  · exact spares

/-- The law is kept by every call, and the poll confirms under it. -/
def deepeningProtocol (required : Int64) {T : List (Happening W)} (hT : Stewarded T) : Protocol (handler U) (code U) (Option String) where
  toDiscipline := deepening U required T
  init := none
  apart h _ h' _ := ¬ (h.call.polls = true ∧ h'.call.polls = true)
  admits c _ := ∀ policy passes, c = .confirmPoll policy passes → policy.required = required
  distinct c c' := ¬ (c.polls = true ∧ c'.polls = true)
  start_apart _ hd _ _ := ⟨hd, fun h => hd h.symm⟩
  start_meets := by
    intro c s _ hc _
    by_cases polls : c.polls = true
    · cases c with
      | confirmPoll policy passes =>
        refine Meets.andThen (deepening_confirmPoll hT polls (hc policy passes rfl) passes) fun _ _ _ _ _ _ _ _ => trivial
      | _ => cases polls
    · exact Meets.of_before (fun _ _ _ h => absurd h polls) _ _ _
  keeps := by
    intro β h k e x s law _ hb hx
    refine ⟨law.act (hT.pairs _ hx) (k := k) fun wr hwr => ?_, trivial⟩
    by_cases polls : h.call.polls = true
    · exact hb polls wr hwr
    · exact (hT.spares _ hx (Bool.eq_false_iff.2 polls) wr hwr).onPayer
  yields := by
    intro β h k h' k' e x s _ _ _ hapart _ hx polls
    have other : h.call.polls = false := Bool.eq_false_iff.2 fun hpolls => hapart ⟨hpolls, polls⟩
    exact Undisturbed.act (hT.pairs _ hx) (hT.spares _ hx other)
  apart_gain _ _ _ hapart hapart' _ _ := ⟨hapart, hapart'⟩

/-- One process keeps the law, and confirms invoices on the kernels of their payers. -/
theorem deep_run {w : World W} {ms : Run} (law : DepthLaw required w) (polled : Polled U required w ms) (paired : Paired U w ms) :
    DepthLaw required (after U w ms).state ∧ ConfirmedByPayer (history U w ms) := by
  have hT : Stewarded (history U w ms) := ⟨paired, fun ev hev other wr hwr => sparing_run hev other hwr⟩
  have admitted : (deepeningProtocol (U := U) required hT).Admitted (Pool.start w) ms :=
    ⟨fun _ hev => hev, polled.threshold, polled.single⟩
  refine ⟨(Protocol.end_run law (fun _ => trivial) admitted).1, ?_⟩
  intro T₁ ev T₂ i inv htrace hwr hget hpaid
  have polls : ev.head.call.polls = true := by
    by_contra other
    have hev : ev ∈ history U w ms := by
      rw [htrace]
      exact List.mem_append_right _ List.mem_cons_self
    exact sparing_run hev (Bool.eq_false_iff.2 other) hwr
  obtain ⟨-, issued⟩ := Protocol.before_told law (fun _ => trivial) admitted polled.single htrace polls
  obtain ⟨t, p, hnames, brought⟩ := issued polls _ hwr inv hget hpaid
  obtain ⟨kernel, hkernel⟩ := Option.isSome_iff_exists.1 brought.kernel.1
  exact ⟨t, p, kernel, hnames, brought.row, hkernel, brought.kernel.2.symm.trans hkernel⟩

variable (U) in
/-- Process after process on one database and one wallet. -/
def lived : World W → List Run → World W
  | w, [] => w
  | w, ms :: lives => lived (after U w ms).state.restart lives

variable (U) in
/-- Every process of the list satisfies `P`, from the state it finds. -/
def EveryLife (P : World W → Run → Prop) : World W → List Run → Prop
  | _, [] => True
  | w, ms :: lives => P w ms ∧ EveryLife P (after U w ms).state.restart lives

theorem DepthLaw.lived {w : World W} (law : DepthLaw required w) {lives : List Run} {ms : Run}
    (polled : EveryLife U (Polled U required) w (lives ++ [ms])) (paired : EveryLife U (Paired U) w (lives ++ [ms])) :
    DepthLaw required (lived U w lives) ∧ Polled U required (lived U w lives) ms ∧ Paired U (lived U w lives) ms := by
  induction lives generalizing w with
  | nil => exact ⟨law, polled.1, paired.1⟩
  | cons life lives ih =>
    have next := (deep_run law polled.1 paired.1).1
    exact ih ⟨next.deep, next.sole⟩ polled.2 paired.2

variable (U) in
/-- In every state of every process whose writes pair, a confirmed invoice is as deep as required, and it was
confirmed on its payer's kernel. -/
theorem confirmed_deep (required : Int64) (wallet : W) (now : Time) (lives : List Run) (ms : Run)
    (polled : EveryLife U (Polled U required) (World.fresh wallet now) (lives ++ [ms]))
    (paired : EveryLife U (Paired U) (World.fresh wallet now) (lives ++ [ms])) :
    ConfirmedDeep required (after U (lived U (World.fresh wallet now) lives) ms).state ∧
      ConfirmedByPayer (history U (lived U (World.fresh wallet now) lives) ms) := by
  have start : DepthLaw required (World.fresh wallet now) :=
    ⟨fun i inv hget => (World.fresh_invoice hget).elim, fun i inv t hget => (World.fresh_invoice hget).elim⟩
  obtain ⟨law, polledLast, pairedLast⟩ := start.lived polled paired
  obtain ⟨law, byPayer⟩ := deep_run law polledLast pairedLast
  exact ⟨law.confirmedDeep, byPayer⟩

end

/-! ## Two runs -/

/-- A check for writes on few rows. -/
def Write.pairs {W : Type} (s : World W) : Write → Bool
  | .pay i t => s.db.payment.rows.all fun p => p.invoiceId ≠ some i || p.slateId = t
  | .insert row => row.invoiceId = none
  | .link t l => (s.db.payment.rows.all fun p => p.slateId ≠ t || p.invoiceId = none || p.invoiceId = l) &&
      s.db.invoice.rows.all fun inv => l ≠ some inv.id || inv.paidPaymentId = some t
  | .delete _ => false
  | _ => true

theorem Write.Pairs.of_check {W : Type} {s : World W} {wr : Write} (h : wr.pairs s = true) : wr.Pairs s := by
  cases wr with
  | pay i t =>
    rintro - t' ⟨p, hp, hi⟩
    have := List.all_eq_true.1 h p (Table.mem_of_get hp)
    have same : p.slateId = t' := Table.key_of_get hp
    simpa [hi, same] using this
  | insert row =>
    intro _ i inv hi
    rw [show row.invoiceId = none by simpa [Write.pairs] using h] at hi
    cases hi
  | link t l =>
    intro _
    obtain ⟨hrows, hinvoices⟩ := Bool.and_eq_true_iff.1 h
    refine ⟨fun i hlinked => ?_, fun i inv hl hget _ => ?_⟩
    · obtain ⟨p, hp, hi⟩ := hlinked
      have := List.all_eq_true.1 hrows p (Table.mem_of_get hp)
      have same : p.slateId = t := Table.key_of_get hp
      simpa [hi, same, eq_comm] using this
    · have := List.all_eq_true.1 hinvoices inv (Table.mem_of_get hget)
      have same : inv.id = i := Table.key_of_get hget
      simpa [hl, same] using this
  | delete => cases h
  | _ => trivial

/-- An invoice for 100, armed with the slate `s`, is paid by `t` over the relays; then the calls `more` run, and a pass of
the poll that gets the answers `xs`. -/
def depthRun (more : List Call) (xs : List Answer) : Run :=
  [.start (.createInvoice Sample.config 900 { amountGrin := some 100, matchMode := some "derived" }),
   .run 0 { text := "i" }, .run 0 { text := "tok" }, .run 0 {}, .run 0 {}, .run 0 {},
   .run 0 { text := "s" }, .run 0 {}, .run 0 {}, .run 0 {}, .run 0 {}] ++
  ((.receive (Sample.received "t" 100) (some "payer") "mi" none .memo none :: more).zipIdx.flatMap fun c : Call × Nat =>
    .start c.1 :: List.replicate 7 (.run (c.2 + 1) {})) ++
  .start (.confirmPoll ⟨10, none⟩ 1) :: xs.map (.run (more.length + 2))

/-- The kernel of `t` is at depth 16. -/
def deepRun : Run := depthRun [] [{}, { tip := 20 }, { kernelHeight := some 5 }, {}, {}]

/-- The payer's I2 is settled too. The kernel of `t` is at depth 1 and that of `s` at depth 16. -/
def shallowRun : Run :=
  depthRun [.settle ⟨"s", 100, "ks"⟩ none]
    [{}, { tip := 20 }, { kernelHeight := some 20 }, {}, { tip := 20 }, { kernelHeight := some 5 }, {}, {}]

theorem Polled.of_calls {W : Type} {U : Upstream W} {required : Int64} {w : World W} {ms : Run} {calls : List Call}
    (heads : (Pool.heads (after U w ms)).map Head.call = calls)
    (threshold : calls.all (fun c => match c with
      | .confirmPoll policy _ => policy.required = required
      | _ => true) = true)
    (single : calls.Pairwise fun a b => ¬ (a.polls = true ∧ b.polls = true)) : Polled U required w ms where
  threshold h hh policy passes hcall := by
    have hmem : h.call ∈ calls := heads ▸ List.mem_map_of_mem hh
    have := List.all_eq_true.1 threshold _ hmem
    rw [hcall] at this
    simpa using this
  single := by
    rw [← heads, List.pairwise_map] at single
    exact single

theorem deepRun_confirmed : ConfirmedDeep 10 (after Sample.upstream Sample.world deepRun).state ∧
    ConfirmedByPayer (history Sample.upstream Sample.world deepRun) ∧
    ∃ inv, (after Sample.upstream Sample.world deepRun).state.db.invoice.get "i" = some inv ∧ inv.status = .confirmed := by
  have polled : Polled Sample.upstream 10 Sample.world deepRun := Polled.of_calls rfl (by decide) (by decide)
  have checked : (history Sample.upstream Sample.world deepRun).all (fun ev => ev.eff.write.all fun wr => wr.pairs ev.state) = true := by
    decide
  have paired : Paired Sample.upstream Sample.world deepRun := fun ev hev wr hwr => by
    have := List.all_eq_true.1 checked ev hev
    rw [hwr] at this
    exact .of_check this
  obtain ⟨deep, byPayer⟩ := confirmed_deep Sample.upstream 10 Sample.wallet 1000 [] deepRun ⟨polled, trivial⟩ ⟨paired, trivial⟩
  exact ⟨deep, byPayer, by decide⟩

/-- The invoice is confirmed on the kernel of `s`, and its paying payment has one confirmation. -/
theorem shallowRun_confirmed : Polled Sample.upstream 10 Sample.world shallowRun ∧
    ¬ ConfirmedDeep 10 (after Sample.upstream Sample.world shallowRun).state := by
  refine ⟨Polled.of_calls rfl (by decide) (by decide), fun deep => ?_⟩
  obtain ⟨inv, hget, hconfirmed, hnames⟩ : ∃ inv, (after Sample.upstream Sample.world shallowRun).state.db.invoice.get "i" = some inv ∧
      inv.status = .confirmed ∧ inv.paidPaymentId = some "t" := by decide
  obtain ⟨p, hp, hdepth⟩ : ∃ p, (after Sample.upstream Sample.world shallowRun).state.db.payment.get "t" = some p ∧
      p.confirmations = 1 := by decide
  obtain ⟨t, p', hnames', hp', hdeep⟩ := deep.paying "i" inv hget hconfirmed
  obtain rfl : "t" = t := Option.some.inj (hnames.symm.trans hnames')
  obtain rfl : p = p' := Option.some.inj (hp.symm.trans hp')
  rw [hdepth] at hdeep
  exact absurd hdeep (by decide)

end GoblinPay
