import GoblinPay.Runs.Outside
import GoblinPay.Sample

/-!
# Payments and what they paid

`match_payment` and `settle_finalized` mark an invoice paid and link a payment to it in separate
statements, in opposite orders, and neither looks at whether `mark_paid` changed a row before it
links. The law that links and paid invoices agree splits into one condition for each payment,
which only the call that brings the payment can break. Where every `mark_paid` finds its invoice
open, each call restores its own, and the law holds again when all have finished.
-/

namespace GoblinPay

open Async Sql

/-- The invoice was paid, by the payment `t`. -/
def Invoice.PaidBy (inv : Invoice) (t : String) : Prop :=
  (inv.status = .paid ∨ inv.status = .confirmed) ∧ inv.paidPaymentId = some t

section

variable {W : Type}

def LinkedTo (t i : String) (s : World W) : Prop :=
  ∃ p, s.db.payment.get t = some p ∧ p.invoiceId = some i

def PaidWith (i t : String) (s : World W) : Prop :=
  ∃ inv, s.db.invoice.get i = some inv ∧ inv.PaidBy t

/-- For every invoice: it is paid or confirmed iff a payment is linked to it, then one only, and
the one it names. -/
structure LinkLaw (s : World W) : Prop where
  paid : ∀ i inv, s.db.invoice.get i = some inv →
    (inv.status = .paid ∨ inv.status = .confirmed ↔ ∃ t, LinkedTo t i s)
  unique : ∀ i inv t t', s.db.invoice.get i = some inv → LinkedTo t i s → LinkedTo t' i s → t = t'
  named : ∀ i inv t, s.db.invoice.get i = some inv → LinkedTo t i s → inv.paidPaymentId = some t

/-- The part of the law about the payment `t`. -/
def Consistent (t : String) (s : World W) : Prop :=
  ∀ i inv, s.db.invoice.get i = some inv → (LinkedTo t i s ↔ inv.PaidBy t)

/-- A paid invoice names a payment. -/
def Named (s : World W) : Prop :=
  ∀ i inv, s.db.invoice.get i = some inv → inv.status = .paid ∨ inv.status = .confirmed →
    ∃ t, inv.paidPaymentId = some t

/-- The law is a condition for each payment. -/
theorem linkLaw_iff {s : World W} : LinkLaw s ↔ Named s ∧ ∀ t, Consistent t s := by
  constructor
  · intro law
    refine ⟨fun i inv hget hpaid => ?_, fun t i inv hget => ⟨fun hl => ?_, fun hp => ?_⟩⟩
    · obtain ⟨t, hl⟩ := (law.paid i inv hget).1 hpaid
      exact ⟨t, law.named i inv t hget hl⟩
    · exact ⟨(law.paid i inv hget).2 ⟨t, hl⟩, law.named i inv t hget hl⟩
    · obtain ⟨t', hl⟩ := (law.paid i inv hget).1 hp.1
      obtain rfl : t = t' := Option.some.inj (hp.2.symm.trans (law.named i inv t' hget hl))
      exact hl
  · rintro ⟨named, consistent⟩
    have linked : ∀ i inv t, s.db.invoice.get i = some inv → LinkedTo t i s → inv.PaidBy t :=
      fun i inv t hget => (consistent t i inv hget).1
    refine ⟨fun i inv hget => ⟨fun hpaid => ?_, fun ⟨t, hl⟩ => (linked i inv t hget hl).1⟩,
      fun i inv t t' hget hl hl' => ?_, fun i inv t hget hl => (linked i inv t hget hl).2⟩
    · obtain ⟨t, ht⟩ := named i inv hget hpaid
      exact ⟨t, (consistent t i inv hget).2 ⟨hpaid, ht⟩⟩
    · exact Option.some.inj ((linked i inv t hget hl).2.symm.trans (linked i inv t' hget hl').2)

/-- What the calls of other payments leave of the payment `t`: its row, and which invoices it
paid. -/
structure SlateKept (t : String) (s s' : World W) : Prop where
  row : s'.db.payment.get t = s.db.payment.get t
  paid : ∀ i inv', s'.db.invoice.get i = some inv' →
    ∃ inv, s.db.invoice.get i = some inv ∧ (inv'.PaidBy t ↔ inv.PaidBy t)
  terms : TermsKept s s'

theorem SlateKept.refl (t : String) (s : World W) : SlateKept t s s :=
  ⟨rfl, fun _ inv h => ⟨inv, h, Iff.rfl⟩, .refl s⟩

theorem SlateKept.trans {t : String} {a b c : World W} (h : SlateKept t a b) (h' : SlateKept t b c) :
    SlateKept t a c := by
  refine ⟨h'.row.trans h.row, fun i inv'' hi => ?_, h.terms.trans h'.terms⟩
  obtain ⟨inv', hi', he'⟩ := h'.paid i inv'' hi
  obtain ⟨inv, hi, he⟩ := h.paid i inv' hi'
  exact ⟨inv, hi, he'.trans he⟩

theorem Consistent.kept {t : String} {s s' : World W} (h : Consistent t s) (hk : SlateKept t s s') :
    Consistent t s' := by
  intro i inv' hi'
  obtain ⟨inv, hi, he⟩ := hk.paid i inv' hi'
  rw [he, ← h i inv hi, LinkedTo, LinkedTo, hk.row]

/-- Where the call of the payment `t` stands: its row is linked to `linked`, and it has paid the
invoice `settled` and no other. -/
structure Stands (t : String) (linked settled : Option String) (s : World W) : Prop where
  row : ∃ p, s.db.payment.get t = some p ∧ p.invoiceId = linked
  paid : ∀ i inv, s.db.invoice.get i = some inv → (inv.PaidBy t ↔ settled = some i)
  present : ∀ i, settled = some i → ∃ inv, s.db.invoice.get i = some inv

namespace Stands

variable {t : String} {linked settled : Option String} {s s' : World W}

theorem kept (h : Stands t linked settled s) (hk : SlateKept t s s') : Stands t linked settled s' := by
  refine ⟨by rw [hk.row]; exact h.row, fun i inv' hi' => ?_, fun i hi => ?_⟩
  · obtain ⟨inv, hi, he⟩ := hk.paid i inv' hi'
    rw [he, h.paid i inv hi]
  · obtain ⟨inv, hget⟩ := h.present i hi
    obtain ⟨inv', hget', _⟩ := hk.terms i inv hget
    exact ⟨inv', hget'⟩

theorem linkedTo_iff (h : Stands t linked settled s) {i : String} : LinkedTo t i s ↔ linked = some i := by
  obtain ⟨p, hp, hlinked⟩ := h.row
  constructor
  · rintro ⟨p', hp', hi⟩
    obtain rfl : p = p' := Option.some.inj (hp.symm.trans hp')
    rw [← hlinked, hi]
  · rintro rfl
    exact ⟨p, hp, hlinked⟩

/-- A payment linked to what it paid is consistent. -/
theorem consistent (h : Stands t settled settled s) : Consistent t s := fun i inv hi => by
  rw [h.linkedTo_iff, h.paid i inv hi]

theorem paidWith (h : Stands t linked settled s) {i : String} (hi : settled = some i) : PaidWith i t s := by
  obtain ⟨inv, hget⟩ := h.present i hi
  exact ⟨inv, hget, (h.paid i inv hget).2 hi⟩

end Stands

/-! ## Operations -/

/-- The write is about other payments than `t`. -/
def Write.Spares (t : String) : Write → Prop
  | .create _ => False
  | .insert row => row.slateId ≠ t
  | .pay _ t' | .link t' _ | .delete t' | .deepen t' _ | .reply t' => t' ≠ t
  | _ => True

variable {U : Upstream W} {t : String} {s : World W} {β : Type} {e : Eff β} {x : Answer}

theorem Invoice.not_paidBy_of_open {inv : Invoice} (h : inv.status = .open) (t : String) : ¬ inv.PaidBy t := by
  rintro ⟨hpaid | hconfirmed, -⟩
  · rw [h] at hpaid
    cases hpaid
  · rw [h] at hconfirmed
    cases hconfirmed

theorem Invoice.not_paidBy_expire (inv : Invoice) (t : String) : ¬ inv.expire.PaidBy t := by
  rintro ⟨h | h, -⟩ <;> cases h

theorem SlateKept.of_spares (h : ∀ wr, e.write = some wr → wr.Spares t) : SlateKept t s (act U x s e).2 := by
  refine ⟨?_, fun i inv' hi' => ?_, e.terms_kept U x s⟩
  · have change := e.payment_change U x s t
    generalize s.db.payment.get t = r at change
    generalize (act U x s e).2.db.payment.get t = r' at change
    cases change with
    | keep => rfl
    | insert hby hid => exact absurd hid (h _ hby)
    | link hby | delete hby | deepen hby | reply hby => exact absurd rfl (h _ hby)
  · have change := e.invoice_change U x s i
    rw [hi'] at change
    generalize hr : s.db.invoice.get i = r at change
    cases change with
    | keep => exact ⟨inv', rfl, Iff.rfl⟩
    | create hby => exact (h _ hby).elim
    | @expire inv hby =>
      exact ⟨inv, rfl, iff_of_false (inv.not_paidBy_expire t) (Invoice.not_paidBy_of_open (Eff.open_of_lapses hby) t)⟩
    | @sweep inv _ hopen =>
      exact ⟨inv, rfl, iff_of_false (inv.not_paidBy_expire t) (Invoice.not_paidBy_of_open hopen t)⟩
    | @pay inv t' hby hopen =>
      have hne : t' ≠ t := h _ hby
      exact ⟨inv, rfl, iff_of_false (fun hp => hne (Option.some.inj hp.2)) (Invoice.not_paidBy_of_open hopen t)⟩
    | @arm inv => exact ⟨inv, rfl, Iff.rfl⟩
    | @confirm inv _ hpaid =>
      exact ⟨inv, rfl, fun hp => ⟨Or.inl hpaid, hp.2⟩, fun hp => ⟨Or.inr rfl, hp.2⟩⟩

theorem SlateKept.exec (U : Upstream W) {q : Stmt β} {n : Nat}
    (h : ∀ wr, (Eff.sql q).write = some wr → wr.Spares t) : SlateKept t s (s.exec q n) :=
  SlateKept.of_spares (U := U) (x := { choice := n }) h

theorem SlateKept.of_quiet (h : e.Quiet) : SlateKept t s (act U x s e).2 :=
  .of_spares fun wr hwr => by
    rw [show e.write = none from h] at hwr
    cases hwr

/-- What was paid stays paid, by the same payment. -/
theorem PaidWith.kept {i : String} (h : PaidWith i t s) : PaidWith i t (act U x s e).2 := by
  obtain ⟨inv, hget, hp⟩ := h
  have change := e.invoice_change U x s i
  rw [hget] at change
  generalize hr : (act U x s e).2.db.invoice.get i = r at change
  cases change with
  | keep => exact ⟨inv, hr, hp⟩
  | expire hby => exact absurd hp (Invoice.not_paidBy_of_open (Eff.open_of_lapses hby) t)
  | sweep _ hopen | pay _ hopen => exact absurd hp (Invoice.not_paidBy_of_open hopen t)
  | arm => exact ⟨_, hr, hp⟩
  | confirm => exact ⟨_, hr, Or.inr rfl, hp.2⟩

theorem stands_insert {row : PaymentRow} {n : Nat} (h : Consistent row.slateId s)
    (hok : ((Stmt.insertPayment row).exec s.now n s.db).1 = .ok ()) :
    Stands row.slateId row.invoiceId none (s.exec (.insertPayment row) n) := by
  simp only [World.exec, Stmt.exec] at hok ⊢
  rcases hins : s.db.payment.insert (row.toPayment s.now) with _ | tab
  · simp [inserted, hins] at hok
  · have hnew : s.db.payment.get row.slateId = none := Table.get_of_insert hins
    refine ⟨⟨row.toPayment s.now, (Table.get_insert hins _).trans (if_pos rfl), rfl⟩, fun i inv hi => ?_, fun i hi => ?_⟩
    · refine iff_of_false (fun hp => ?_) (by simp)
      obtain ⟨p, hp, -⟩ := (h i inv hi).2 hp
      rw [hnew] at hp
      cases hp
    · cases hi

theorem stands_pay {linked : Option String} {i : String} {n : Nat} (h : Stands t linked none s)
    (hopen : ∃ inv, s.db.invoice.get i = some inv ∧ inv.status = .open) :
    Stands t linked (some i) (s.exec (.markPaid i t) n) := by
  obtain ⟨inv, hget, hopen⟩ := hopen
  have after : ∀ j, (s.exec (.markPaid i t) n).db.invoice.get j =
      (s.db.invoice.get j).map fun inv => if inv.id = i && inv.status = .open then inv.pay t s.now else inv :=
    fun j => Table.get_update s.db.invoice (fun inv => inv.id = i && inv.status = .open) (Invoice.pay t s.now)
      (fun _ => rfl) j
  refine ⟨h.row, fun j inv' hj => ?_, fun j hj => ?_⟩
  · rw [after] at hj
    obtain ⟨inv₀, hget₀, rfl⟩ := Option.map_eq_some_iff.1 hj
    have hid : inv₀.id = j := Table.key_of_get hget₀
    by_cases hij : i = j
    · subst hij
      obtain rfl : inv = inv₀ := Option.some.inj (hget.symm.trans hget₀)
      rw [if_pos (by simp [hid, hopen])]
      exact iff_of_true ⟨Or.inl rfl, rfl⟩ rfl
    · rw [if_neg (by simp [hid, Ne.symm hij])]
      rw [h.paid j inv₀ hget₀]
      simp [hij]
  · obtain rfl := Option.some.inj hj
    exact ⟨_, by rw [after, hget]; rfl⟩

theorem stands_link {linked linked' settled user : Option String} {n : Nat} (h : Stands t linked settled s) :
    Stands t linked' settled (s.exec (.linkPayment t linked' user) n) := by
  obtain ⟨p, hp, -⟩ := h.row
  refine ⟨⟨p.link linked' user, ?_, rfl⟩, h.paid, h.present⟩
  have after : (s.exec (.linkPayment t linked' user) n).db.payment.get t =
      (s.db.payment.get t).map fun p => if decide (p.slateId = t) then p.link linked' user else p :=
    Table.get_update s.db.payment (fun p => p.slateId = t) (Payment.link linked' user) (fun _ => rfl) t
  rw [after, hp, Option.map_some, if_pos (decide_eq_true (Table.key_of_get hp))]

theorem consistent_delete {linked : Option String} {n : Nat} (h : Stands t linked none s) :
    Consistent t (s.exec (.deletePayment t) n) := by
  have after : (s.exec (.deletePayment t) n).db.payment.get t =
      (s.db.payment.get t).filter fun p => !decide (p.slateId = t) := Table.get_delete _ _ t
  intro i inv hi
  refine iff_of_false ?_ fun hp => by simpa using (h.paid i inv hi).1 hp
  rintro ⟨p, hp, -⟩
  rw [after] at hp
  obtain ⟨hp, hne⟩ := Option.filter_eq_some_iff.1 hp
  simp [Table.key_of_get hp] at hne

end

/-! ## The contract -/

section

variable {W : Type} {U : Upstream W} {t : String} {s : World W} {β : Type}

/-- The payment a call brings. -/
def Call.slate : Call → Option String
  | .receive received .. => some received.slateId
  | .settle finalized _ => some finalized.slateId
  | _ => none

/-- The calls of the law: `persist_and_match` and `settle_finalized`, among reads of invoices and
the passing of time. -/
def Call.Settles : Call → Prop
  | .receive .. | .settle .. | .getInvoice _ | .payStatus _ | .listInvoices _ | .elapse _ => True
  | _ => False

/-- The statement failed. -/
def Eff.fails (U : Upstream W) (x : Answer) (s : World W) : Eff β → Bool
  | .sql q =>
    match (act U x s (.sql q)).1 with
    | .error _ => true
    | .ok _ => false
  | _ => false

/-- The operation marks no invoice paid that is not open. -/
def PaysOpen (ev : Happening W) : Prop :=
  ∀ i t, ev.eff.write = some (.pay i t) → ∃ inv, ev.state.db.invoice.get i = some inv ∧ inv.status = .open

/-- What is asked of a run: no statement fails, and every `mark_paid` finds its invoice open. -/
structure Orderly (U : Upstream W) (T : List (Happening W)) : Prop where
  succeeds : ∀ ev ∈ T, ev.eff.fails U ev.input ev.state = false
  paysOpen : ∀ ev ∈ T, PaysOpen ev

/-- What the call of the payment `t` may write, and that it reports what it paid. -/
inductive LinkWrite (t : String) (s : World W) : Write → Prop
  | insert {row : PaymentRow} (id : row.slateId = t) : LinkWrite t s (.insert row)
  | pay (i : String) : LinkWrite t s (.pay i t)
  | link (i : Option String) : LinkWrite t s (.link t i)
  | delete : LinkWrite t s (.delete t)
  | enqueue {payload : WebhookPayload} (slate : payload.payment.slateId = t)
      (notifies : ∀ i, payload.invoiceId = some i → PaidWith i t s) : LinkWrite t s (.enqueue payload)

theorem LinkWrite.spares {t' : String} {wr : Write} (h : LinkWrite t s wr) (hne : t ≠ t') : wr.Spares t' := by
  cases h with
  | insert id => exact fun h => hne (id.symm.trans h)
  | pay | link | delete => exact hne
  | enqueue => trivial

variable (U) in
def linking (T : List (Happening W)) : Discipline (handler U) (Head Call (World W)) Unit where
  inv _ := True
  rely h _ s s' := ∀ t, h.call.slate = some t → SlateKept t s s'
  before h _ e s := ∀ wr, e.write = some wr → ∃ t, h.call.slate = some t ∧ LinkWrite t s wr
  allowed h e x s := (⟨h, e, x, s⟩ : Happening W) ∈ T
  gain _ _ _ := ()
  rely_refl _ _ s t _ := .refl t s
  rely_trans h h' t ht := (h t ht).trans (h' t ht)

section

variable {T : List (Happening W)} {h : Head Call (World W)} {g : Unit} {α : Type} {K : World W → Prop}

/-- What quiet operations and the other calls leave alone. -/
theorem linking_of_quiet (ht : h.call.slate = some t) {p : Io α} (hp : Prog.Quiet p) (hK : K s)
    (keep : ∀ s s', SlateKept t s s' → K s → K s') : Meets (linking U T) h (fun _ _ s => K s) p g s :=
  Meets.of_only_keep hp hK (fun _ s s' hr _ => keep s s' (hr t ht))
    (fun e _ s he _ _ wr hwr => by
      rw [show e.write = none from he] at hwr
      cases hwr)
    fun e x s he _ hK _ => keep s _ (.of_quiet he) hK

/-- A statement of an orderly run: it does not fail. -/
theorem linking_sql (hT : Orderly U T) (ht : h.call.slate = some t) {q : Stmt β} {f : Except SqlxError β → Io α}
    {Q : α → Unit → World W → Prop} (hK : K s) (keep : ∀ s s', SlateKept t s s' → K s → K s')
    (hb : ∀ s, K s → ∀ wr, (Eff.sql q).write = some wr → LinkWrite t s wr)
    (hok : ∀ x s b, K s → (⟨h, .sql q, x, s⟩ : Happening W) ∈ T → (q.exec s.now x.choice s.db).1 = .ok b →
      Meets (linking U T) h Q (f (.ok b)) () (s.exec q x.choice)) :
    Meets (linking U T) h Q ((sql q).run >>= f) g s := by
  refine Meets.step (k := f) hK (fun s s' hr _ => keep s s' (hr t ht))
    (fun s _ hK wr hwr => ⟨t, ht, hb s hK wr hwr⟩) fun x s _ hK hx => ?_
  have hsucceeds := hT.succeeds _ hx
  have hact : (handler U).act (.sql q) x s = act U x s (.sql q) := rfl
  rw [hact]
  simp only [Eff.fails] at hsucceeds
  rcases hr : (act U x s (.sql q)).1 with e | b
  · rw [hr] at hsucceeds
    cases hsucceeds
  · obtain ⟨-, hexec, hs⟩ := act_sql_ok hr
    rw [hs]
    exact hok x s b hK hx hexec

/-- A call that brings no payment writes nothing. -/
theorem linking_quietCall {p : Io α} (hp : Prog.Quiet p) : Meets (linking U T) h (fun _ _ _ => True) p g s :=
  Meets.of_only hp fun e _ s he wr hwr => by
    rw [show e.write = none from he] at hwr
    cases hwr

/-- A payload of a `payment.received` webhook names what it was built for. -/
theorem linking_payload (ht : h.call.slate = some t) {sid : String} {a : UInt64} {payer inv ref user : Option String}
    (hK : K s) (keep : ∀ s s', SlateKept t s s' → K s → K s') :
    Meets (linking U T) h (fun payload _ s => K s ∧ payload.invoiceId = inv ∧ payload.payment.slateId = sid)
      (WebhookPayload.received sid a payer inv ref user) g s := by
  have draw : Prog.Quiet randomId := Prog.Only.call rfl
  have clock : Prog.Quiet (Prog.call Eff.clock) := Prog.Only.call rfl
  refine Meets.andThen (linking_of_quiet ht draw hK keep) fun id g s _ hK => ?_
  refine Meets.andThen (linking_of_quiet ht clock hK keep) fun now g s _ hK => ?_
  exact fun s' hr _ => ⟨keep s s' (hr t ht) hK, rfl, rfl⟩

/-- Queueing a notification of what the call paid. -/
theorem linking_enqueue (hT : Orderly U T) (ht : h.call.slate = some t) {settled : Option String}
    {payload : WebhookPayload} (hslate : payload.payment.slateId = t) (hinv : payload.invoiceId = settled) (url : String)
    (hs : Stands t settled settled s) :
    Meets (linking U T) h (fun _ _ s => Stands t settled settled s) (discard (enqueue url payload).run) g s := by
  have keep : ∀ s s' : World W, SlateKept t s s' → Stands t settled settled s → Stands t settled settled s' :=
    fun _ _ hk hs => hs.kept hk
  refine Meets.andThen (I := fun _ _ s => Stands t settled settled s) ?_ fun _ _ _ _ hs s' hr _ => hs.kept (hr t ht)
  refine linking_sql hT ht hs keep ?_ ?_
  · rintro s hs wr hwr
    cases hwr
    exact .enqueue hslate fun i hi => hs.paidWith (hinv.symm.trans hi)
  · intro x s b hs hx hexec s' hr _
    have hk : SlateKept t s (s.exec (.enqueue url payload) x.choice) := .exec U fun wr hwr => by
      cases hwr
      trivial
    exact (hs.kept hk).kept (hr t ht)

/-! ## The two functions -/

/-- Where `match_payment` leaves its payment: linked to what it paid, or not at all. -/
def Matched (t : String) (r : Except SqlxError MatchResult) (s : World W) : Prop :=
  match r with
  | .ok result =>
    (result.amountMismatch = none → Stands t result.invoiceId result.invoiceId s) ∧
    (result.amountMismatch ≠ none → Stands t none none s)
  | .error _ => Stands t none none s

/-- `mark_paid` on an open invoice, then the link. -/
theorem linking_settle (hT : Orderly U T) (ht : h.call.slate = some t) (invoiceId user : Option String)
    (hs : Stands t none none s) :
    Meets (linking U T) h (fun r _ s => Matched t r s) (Matching.settle t invoiceId user).run g s := by
  have link : ∀ g (s : World W), Stands t none invoiceId s → Meets (linking U T) h (fun r _ s => Matched t r s)
      (do sql (.linkPayment t invoiceId user)
          pure { invoiceId, userId := user } : ExceptT SqlxError Io MatchResult).run g s := by
    intro g s hs
    refine linking_sql hT ht hs (fun _ _ hk hs => hs.kept hk) ?_ ?_
    · rintro s - wr hwr
      cases hwr
      exact .link _
    · intro x s _ hs _ _ s' hr _
      exact ⟨fun _ => (stands_link hs).kept (hr t ht), fun hne => absurd rfl hne⟩
  cases invoiceId with
  | none => exact link g s hs
  | some i =>
    refine linking_sql hT ht hs (fun _ _ hk hs => hs.kept hk) ?_ ?_
    · rintro s - wr hwr
      cases hwr
      exact .pay i
    · intro x s paid hs hx _
      exact link () _ (stands_pay hs (hT.paysOpen _ hx i t rfl))

theorem linking_matchPayment (hT : Orderly U T) (ht : h.call.slate = some t) (mode : MatchMode) (a : UInt64)
    (rc : String) (memo : Option String) (hs : Stands t none none s) :
    Meets (linking U T) h (fun r _ s => Matched t r s) (Matching.matchPayment mode ⟨t, a, rc, memo⟩).run g s := by
  have keep : ∀ s s' : World W, SlateKept t s s' → Stands t none none s → Stands t none none s' :=
    fun _ _ hk hs => hs.kept hk
  have failed : ∀ (e : SqlxError) g s, Stands t none none s →
      Meets (linking U T) h (fun r _ s => Matched t r s) (.ret (.error e)) g s :=
    fun e g s hs s' hr _ => hs.kept (hr t ht)
  refine Meets.tryThen (linking_of_quiet ht (quiet_sql rfl) hs keep) (fun user g s _ hs => ?_)
    fun e g s _ hs => failed e g s hs
  refine Meets.tryThen (linking_of_quiet ht (Matching.footprint_resolve mode _).quiet hs keep) (fun id g s _ hs => ?_)
    fun e g s _ hs => failed e g s hs
  cases id with
  | none => exact linking_settle hT ht none _ hs
  | some i =>
    refine Meets.tryThen (linking_of_quiet ht (quiet_sql rfl) hs keep) (fun expected g s _ hs => ?_)
      fun e g s _ hs => failed e g s hs
    dsimp only
    split
    · exact fun s' hr _ => ⟨fun hm => (by cases hm), fun _ => hs.kept (hr t ht)⟩
    · exact linking_settle hT ht (some i) _ hs

/-- What the call of the payment `t` leaves: it is consistent, and what is reported was paid. -/
def Recorded (t : String) (reported : Option String) (s : World W) : Prop :=
  Consistent t s ∧ ∀ i, reported = some i → PaidWith i t s

/-- What a finished receive reports as matched. -/
def PersistOutcome.reported : PersistOutcome → Option String
  | .matched result => result.invoiceId
  | .rejected _ => none

theorem Stands.recorded {settled : Option String} (hs : Stands t settled settled s) : Recorded t settled s :=
  ⟨hs.consistent, fun _ hi => hs.paidWith hi⟩

theorem linking_notify (hT : Orderly U T) {r : Received} (ht : h.call.slate = some r.slateId) (payer : Option String)
    (matched : MatchResult) (wh : Option (String × String))
    (hs : Stands r.slateId matched.invoiceId matched.invoiceId s) :
    Meets (linking U T) h (fun _ _ s => Stands r.slateId matched.invoiceId matched.invoiceId s)
      (Record.notify r payer matched wh) g s := by
  have keep : ∀ s s' : World W, SlateKept r.slateId s s' → Stands r.slateId matched.invoiceId matched.invoiceId s →
      Stands r.slateId matched.invoiceId matched.invoiceId s' := fun _ _ hk hs => hs.kept hk
  unfold Record.notify
  split
  · exact fun s' hr _ => hs.kept (hr _ ht)
  · refine Meets.andThen (linking_of_quiet ht (Record.footprint_orderRef _).quiet hs keep) fun ref g s _ hs => ?_
    refine Meets.andThen (linking_payload ht hs keep) fun payload g s _ hp => ?_
    exact linking_enqueue hT ht hp.2.2 hp.2.1 _ hp.1

theorem linking_conclude (hT : Orderly U T) {r : Received} (ht : h.call.slate = some r.slateId)
    (payer : Option String) (wh : Option (String × String)) (matched : Except SqlxError MatchResult)
    (hm : Matched r.slateId matched s) :
    Meets (linking U T) h (fun o _ s => Recorded r.slateId o.reported s)
      (Record.conclude r payer wh (Record.orUnmatched matched)) g s := by
  have notified : ∀ result : MatchResult, Stands r.slateId result.invoiceId result.invoiceId s →
      Meets (linking U T) h (fun o _ s => Recorded r.slateId o.reported s)
        (do Record.notify r payer result wh
            pure (.matched result) : Io PersistOutcome) g s := fun result hs =>
    Meets.andThen (linking_notify hT ht payer result wh hs) fun _ _ _ _ hs s' hr _ => (hs.kept (hr _ ht)).recorded
  unfold Record.conclude
  cases matched with
  | error e => exact notified {} hm
  | ok result =>
    simp only [Record.orUnmatched]
    split
    · rename_i m hmismatch
      refine Meets.andThen (I := fun _ _ s => Consistent r.slateId s) ?_
        fun _ _ s _ hs s' hr _ => ⟨hs.kept (hr _ ht), fun i hi => by cases hi⟩
      refine linking_sql hT ht (hm.2 (by simp [hmismatch])) (fun _ _ hk hs => hs.kept hk) ?_ ?_
      · rintro s - wr hwr
        cases hwr
        exact .delete
      · exact fun x s _ hs _ _ s' hr _ => (consistent_delete hs).kept (hr _ ht)
    · rename_i hnone
      exact notified result (hm.1 hnone)

theorem linking_insert (hT : Orderly U T) (row : PaymentRow) (ht : h.call.slate = some row.slateId)
    (hs : Consistent row.slateId s) :
    Meets (linking U T) h (fun _ _ s => Stands row.slateId row.invoiceId none s)
      (discard (sql (.insertPayment row)).run) g s := by
  refine linking_sql hT ht hs (fun _ _ hk hs => hs.kept hk) ?_ ?_
  · rintro s - wr hwr
    cases hwr
    exact .insert rfl
  · exact fun x s _ hs _ hexec s' hr _ => (stands_insert hs hexec).kept (hr _ ht)

theorem linking_persistAndMatch (hT : Orderly U T) {r : Received} (ht : h.call.slate = some r.slateId)
    (payer : Option String) (rc : String) (memo : Option String) (mode : MatchMode) (wh : Option (String × String))
    (hs : Consistent r.slateId s) :
    Meets (linking U T) h (fun o _ s => Recorded r.slateId o.reported s)
      (Record.persistAndMatch r payer rc memo mode wh) g s := by
  refine Meets.andThen (linking_insert hT (Record.paymentRow r payer rc) ht hs) fun _ g s _ hs => ?_
  refine Meets.andThen (linking_matchPayment hT ht mode r.amount rc memo hs) fun matched g s _ hm => ?_
  exact linking_conclude hT ht payer wh matched hm

theorem linking_settleFinalized (hT : Orderly U T) {f : FinalizedInvoice} (ht : h.call.slate = some f.slateId)
    (wh : Option (String × String)) (hs : Consistent f.slateId s) :
    Meets (linking U T) h (fun _ _ s => Consistent f.slateId s) (Foreign.settleFinalized f wh) g s := by
  refine Meets.andThen (linking_of_quiet ht (quiet_sql (q := .selectBySlateId f.slateId) rfl) hs
    fun _ _ hk hs => hs.kept hk) fun o g s _ hs => ?_
  split
  · exact fun s' hr _ => hs.kept (hr _ ht)
  · exact fun s' hr _ => hs.kept (hr _ ht)
  · rename_i inv
    refine Meets.andThen (linking_insert hT (Foreign.paymentRow inv f) ht hs) fun _ g s _ hs => ?_
    refine linking_sql hT ht hs (fun _ _ hk hs => hs.kept hk) ?_ ?_
    · rintro s - wr hwr
      cases hwr
      exact .pay inv.id
    · intro x s paid hs hx _
      have settled : Stands f.slateId (some inv.id) (some inv.id) (s.exec (.markPaid inv.id f.slateId) x.choice) :=
        stands_pay hs (hT.paysOpen _ hx inv.id f.slateId rfl)
      have notified : Meets (linking U T) h (fun _ _ s => Stands f.slateId (some inv.id) (some inv.id) s)
          (Foreign.notify inv f wh) () (s.exec (.markPaid inv.id f.slateId) x.choice) := by
        unfold Foreign.notify
        split
        · exact fun s' hr _ => settled.kept (hr _ ht)
        · refine Meets.andThen (linking_payload ht settled fun _ _ hk hs => hs.kept hk) fun payload g s _ hp => ?_
          exact linking_enqueue hT ht hp.2.2 hp.2.1 _ hp.1
      cases paid with
      | true => exact notified.mono fun _ _ _ _ hs => hs.consistent
      | false => exact fun s' hr _ => (settled.kept (hr _ ht)).consistent

/-- What a finished call reports as matched. -/
def Reply.reported : Reply → Option String
  | .persisted outcome => outcome.reported
  | .done => none

theorem linking_call (hT : Orderly U T) {c : Call} (hc : c.Settles) (s : World W)
    (hidle : ∀ t, c.slate = some t → Consistent t s) :
    Meets (linking U T) ⟨c, s⟩ (fun r _ s => ∀ t, c.slate = some t → Recorded t r.reported s) (code U c) () s := by
  have quiet : ∀ {α : Type} {p : Io α}, Prog.Quiet p → c.slate = none →
      Meets (linking U T) ⟨c, s⟩ (fun r _ s => ∀ t, c.slate = some t → Recorded t r.reported s) (Prog.done p) () s := by
    intro α p hp hnone
    refine Meets.andThen (linking_quietCall hp) fun _ _ _ _ _ _ _ _ t ht => ?_
    rw [hnone] at ht
    cases ht
  cases c with
  | receive r payer rc memo mode wh =>
    refine Meets.andThen (linking_persistAndMatch hT rfl payer rc memo mode wh (hidle _ rfl)) fun o _ s _ ho s' hr _ t ht => ?_
    obtain rfl : r.slateId = t := Option.some.inj ht
    exact ⟨ho.1.kept (hr _ rfl), fun i hi => by
      obtain ⟨inv, hget, hp⟩ := ho.2 i hi
      obtain ⟨inv', hget', -⟩ := (hr _ rfl).terms i inv hget
      obtain ⟨inv₀, hget₀, he⟩ := (hr _ rfl).paid i inv' hget'
      obtain rfl : inv = inv₀ := Option.some.inj (hget.symm.trans hget₀)
      exact ⟨inv', hget', he.2 hp⟩⟩
  | settle f wh =>
    refine Meets.andThen (linking_settleFinalized hT rfl wh (hidle _ rfl)) fun _ _ s _ hs s' hr _ t ht => ?_
    obtain rfl : f.slateId = t := Option.some.inj ht
    exact ⟨hs.kept (hr _ rfl), fun i hi => by cases hi⟩
  | getInvoice id => exact quiet (Invoices.footprint_getInvoice id).quiet rfl
  | payStatus token => exact quiet (Checkout.footprint_payStatus token).quiet rfl
  | listInvoices limit => exact quiet (Invoice.footprint_list limit).quiet rfl
  | elapse secs =>
    have hq : Prog.Quiet (Prog.call (Eff.elapse secs)) := Prog.Only.call rfl
    exact quiet hq rfl
  | _ => exact hc.elim

end

/-! ## Runs -/

/-- A write is about another payment than that of a call whose slate is another. -/
theorem spares_of_before {h : Head Call (World W)} {e : Eff β} {t : String}
    (hb : ∀ wr, e.write = some wr → ∃ t, h.call.slate = some t ∧ LinkWrite t s wr) (ht : h.call.slate ≠ some t) :
    ∀ wr, e.write = some wr → wr.Spares t := by
  intro wr hwr
  obtain ⟨t', ht', hw⟩ := hb wr hwr
  refine hw.spares fun h => ht ?_
  rw [ht', h]

/-- Every call keeps its own payment consistent, and leaves the others'. -/
def linked {T : List (Happening W)} (hT : Orderly U T) : Protocol (handler U) (code U) Unit where
  toDiscipline := linking U T
  init := ()
  apart h _ h' _ := ∀ t, h.call.slate = some t → h'.call.slate ≠ some t
  admits c _ := c.Settles
  distinct c c' := ∀ t, c.slate = some t → c'.slate ≠ some t
  idle c s := ∀ t, c.slate = some t → Consistent t s
  post h r _ s := ∀ t, h.call.slate = some t → Recorded t r.reported s
  start_apart _ hd _ _ := ⟨hd, fun t ht ht' => hd t ht' ht⟩
  start_meets _ hc hidle := linking_call hT hc _ hidle
  keeps _ _ _ _ := ⟨trivial, trivial⟩
  yields _ _ _ hapart hb _ t ht := .of_spares (spares_of_before hb fun h => hapart t h ht)
  apart_gain _ _ _ hapart hapart' _ _ := ⟨hapart, hapart'⟩
  idle_kept _ _ hd hb _ hidle t ht := (hidle t ht).kept (.of_spares (spares_of_before hb fun h => hd t h ht))

theorem Named.step {e : Eff β} {x : Answer} (hn : Named s) : Named (act U x s e).2 := by
  intro i inv' hget' hpaid
  have change := e.invoice_change U x s i
  rw [hget'] at change
  generalize hr : s.db.invoice.get i = r at change
  cases change with
  | keep => exact hn i inv' hr hpaid
  | create | expire | sweep =>
    obtain h | h := hpaid <;> cases h
  | pay => exact ⟨_, rfl⟩
  | @arm inv => exact hn i inv hr hpaid
  | @confirm inv _ hwas => exact hn i inv hr (Or.inl hwas)

variable (U) in
/-- Concurrent `match_payment` and `settle_finalized` calls with distinct slates and without
failures, started where the law holds, have all finished. -/
structure Concurrent (w : World W) (ms : Run) : Prop where
  calls : ∀ h ∈ Pool.heads (after U w ms), h.call.Settles
  distinct : (Pool.heads (after U w ms)).Pairwise fun a b => ∀ t, a.call.slate = some t → b.call.slate ≠ some t
  succeeds : ∀ ev ∈ history U w ms, ev.eff.fails U ev.input ev.state = false
  finished : ∀ task ∈ (after U w ms).tasks, task.finished ≠ none
  law : LinkLaw w

variable (U) in
/-- The law holds again, and what was reported or notified as matched names its payer. -/
structure LawRestored (w : World W) (ms : Run) : Prop where
  law : LinkLaw (after U w ms).state
  reports : ∀ task ∈ (after U w ms).tasks, ∀ reply t i, task.finished = some reply →
    task.head.call.slate = some t → reply.reported = some i →
    ∃ inv, (after U w ms).state.db.invoice.get i = some inv ∧ inv.paidPaymentId = some t
  notifies : ∀ ev ∈ history U w ms, ∀ payload, ev.eff.write = some (.enqueue payload) →
    ∀ i, payload.invoiceId = some i → ∃ inv, ev.head.call.slate = some payload.payment.slateId ∧
      (after U w ms).state.db.invoice.get i = some inv ∧ inv.paidPaymentId = some payload.payment.slateId

/-- Under any interleaving in which every `mark_paid` runs while its invoice is open, the law
holds again once all calls have finished. -/
theorem law_restored (U : Upstream W) (w : World W) (ms : Run) (hc : Concurrent U w ms)
    (hopen : ∀ ev ∈ history U w ms, PaysOpen ev) : LawRestored U w ms := by
  have hT : Orderly U (history U w ms) := ⟨hc.succeeds, hopen⟩
  obtain ⟨named, consistent⟩ := linkLaw_iff.1 hc.law
  have admitted : (linked hT).Admitted (Pool.start w) ms := ⟨fun _ hev => hev, hc.calls, hc.distinct⟩
  have idle : ∀ c, (linked hT).idle c w := fun c t _ => consistent t
  have ended : ∀ task ∈ (after U w ms).tasks, ∀ reply, task.finished = some reply →
      ∀ t, task.head.call.slate = some t → Recorded t reply.reported (after U w ms).state := by
    intro task htask reply hreply t ht
    have hrest : task.rest = .ret reply := by
      unfold Task.finished at hreply
      split at hreply
      · rename_i r hr
        rw [hr, Option.some.inj hreply]
      · cases hreply
    obtain ⟨_, hpost⟩ := Protocol.post_run (D := linked hT) trivial idle admitted htask hrest
    exact hpost t ht
  have lasting : ∀ ev ∈ history U w ms, ∀ i t, PaidWith i t (ev.after (handler U)) →
      PaidWith i t (after U w ms).state := fun ev hev i t =>
    Pool.rel_of_mem_trace (handler U) (code U) (R := fun s s' => PaidWith i t s → PaidWith i t s')
      (fun _ h => h) (fun h h' hp => h' (h hp)) (fun ev _ hp => hp.kept) hev
  refine ⟨linkLaw_iff.2 ⟨?_, fun t => ?_⟩, fun task htask reply t i hreply ht hi => ?_, fun ev hev payload hwr i hi => ?_⟩
  · exact Pool.inv_run (handler U) (code U) (P := Pool.start w) (I := Named) named fun ev _ hn => hn.step
  · by_cases hbrought : ∃ task ∈ (after U w ms).tasks, task.head.call.slate = some t
    · obtain ⟨task, htask, ht⟩ := hbrought
      obtain ⟨reply, hreply⟩ := Option.ne_none_iff_exists'.1 (hc.finished task htask)
      exact (ended task htask reply hreply t ht).1
    · -- no call of the run brought `t`, so nothing touched it
      refine (Protocol.end_run (D := linked hT) trivial idle admitted).2 (.settle ⟨t, 0, ""⟩ none)
        (fun task htask t' ht' hsame => ?_) t rfl
      cases hsame
      exact hbrought ⟨task, htask, ht'⟩
  · obtain ⟨inv, hget, hp⟩ := (ended task htask reply hreply t ht).2 i hi
    exact ⟨inv, hget, hp.2⟩
  · obtain ⟨-, _, -, hb⟩ := Protocol.mem_trace_before (D := linked hT) trivial idle admitted hev
    obtain ⟨t, ht, hw⟩ := hb _ hwr
    cases hw with
    | enqueue hslate hnotifies =>
      obtain ⟨inv, hget, hp⟩ := lasting ev hev i t (hnotifies i hi).kept
      rw [hslate]
      exact ⟨inv, ht, hget, hp.2⟩

theorem LinkLaw.of_open {s : World W} (hopen : ∀ inv ∈ s.db.invoice.rows, inv.status = .open)
    (hpayment : s.db.payment.rows = []) : LinkLaw s := by
  have unlinked : ∀ {t i}, ¬ LinkedTo t i s := by
    rintro t i ⟨p, hp, -⟩
    have := Table.mem_of_get hp
    rw [hpayment] at this
    cases this
  have unpaid : ∀ {i inv}, s.db.invoice.get i = some inv → ∀ t, ¬ inv.PaidBy t := fun hget =>
    Invoice.not_paidBy_of_open (hopen _ (Table.mem_of_get hget))
  refine linkLaw_iff.2 ⟨fun i inv hget hpaid => ?_, fun t i inv hget => iff_of_false unlinked (unpaid hget t)⟩
  rw [hopen inv (Table.mem_of_get hget)] at hpaid
  obtain h | h := hpaid <;> cases h

end

/-! ## Two runs -/

/-- An invoice for 100 is open under the derived key `mi`. -/
def openWorld : World Sample.Wallet :=
  (after Sample.upstream Sample.world
    [.start (.createInvoice Sample.config 900 { amountGrin := some 100, matchMode := some "derived" }),
     .run 0 { text := "i" }, .run 0 { text := "tok" }, .run 0 {}, .run 0 {}, .run 0 {}]).state

theorem openWorld_law : LinkLaw openWorld := LinkLaw.of_open (by decide) (by decide)

/-- Two payments of 100 to the invoice's key; the second call starts after `n` operations of the
first, and the first goes on after four operations of the second. -/
def raceRun (n : Nat) : Run :=
  .start (.receive (Sample.received "t" 100) (some "payer") "mi" none .memo none) :: List.replicate n (.run 0 {}) ++
  .start (.receive (Sample.received "u" 100) (some "payer") "mi" none .memo none) :: List.replicate 4 (.run 1 {}) ++
  List.replicate (6 - n) (.run 0 {}) ++ List.replicate 2 (.run 1 {})

theorem raceRun_calls {n : Nat} (hn : n = 4 ∨ n = 6) :
    (Pool.heads (after Sample.upstream openWorld (raceRun n))).map Head.call =
      [.receive (Sample.received "t" 100) (some "payer") "mi" none .memo none,
       .receive (Sample.received "u" 100) (some "payer") "mi" none .memo none] := by
  obtain rfl | rfl := hn <;> decide

theorem raceRun_concurrent {n : Nat} (hn : n = 4 ∨ n = 6) : Concurrent Sample.upstream openWorld (raceRun n) where
  calls h hh := by
    have hmem : h.call ∈ (Pool.heads (after Sample.upstream openWorld (raceRun n))).map Head.call :=
      List.mem_map_of_mem hh
    rw [raceRun_calls hn] at hmem
    simp only [List.mem_cons, List.not_mem_nil, or_false] at hmem
    obtain h | h := hmem <;> rw [h] <;> trivial
  distinct := by
    have hpair : ((Pool.heads (after Sample.upstream openWorld (raceRun n))).map Head.call).Pairwise
        fun a b => ∀ t, a.slate = some t → b.slate ≠ some t := by
      rw [raceRun_calls hn]
      simp [Call.slate, Sample.received]
    exact List.pairwise_map.1 hpair
  succeeds := by obtain rfl | rfl := hn <;> decide
  finished := by obtain rfl | rfl := hn <;> decide
  law := openWorld_law

/-- Where the write pays an invoice, that invoice is open. -/
def Write.paysOpen (db : Db) : Write → Bool
  | .pay i _ => (db.invoice.get i).any fun inv => inv.status = .open
  | _ => true

/-- One after the other, the second payment finds no open invoice. -/
theorem raceRun_apart : LawRestored Sample.upstream openWorld (raceRun 6) ∧
    ∃ inv, (after Sample.upstream openWorld (raceRun 6)).state.db.invoice.get "i" = some inv ∧
      inv.paidPaymentId = some "t" := by
  have opens : ∀ ev ∈ history Sample.upstream openWorld (raceRun 6), ev.eff.write.all (Write.paysOpen ev.state.db) = true := by
    decide
  refine ⟨law_restored _ _ _ (raceRun_concurrent (Or.inr rfl)) fun ev hev i t hwr => ?_, by decide⟩
  have := opens ev hev
  rw [hwr] at this
  obtain ⟨inv, hget, hopen⟩ := (Option.any_eq_true _ _).1 this
  exact ⟨inv, hget, by simpa using hopen⟩

/-- Interleaved, both find it open, and both payments are linked to it. -/
theorem raceRun_interleaved : Concurrent Sample.upstream openWorld (raceRun 4) ∧
    ¬ LawRestored Sample.upstream openWorld (raceRun 4) := by
  refine ⟨raceRun_concurrent (Or.inl rfl), fun restored => ?_⟩
  have linked : ∀ t ∈ ["t", "u"], ∃ p, (after Sample.upstream openWorld (raceRun 4)).state.db.payment.get t = some p ∧
      p.invoiceId = some "i" := by decide
  have present : ∃ inv, (after Sample.upstream openWorld (raceRun 4)).state.db.invoice.get "i" = some inv ∧
      inv.status = .paid := by decide
  obtain ⟨inv, hget, -⟩ := present
  have := restored.law.unique "i" inv "t" "u" hget (linked "t" (by decide)) (linked "u" (by decide))
  exact absurd this (by decide)

end GoblinPay
