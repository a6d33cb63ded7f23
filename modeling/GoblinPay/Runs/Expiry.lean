import GoblinPay.Runs.Watch
import GoblinPay.Sample

/-!
# Payments past expiry

Expiry is lazy, so a row past its expiry may still be open, and each statement that proposes an
invoice for payment has to look at the clock itself. Of the four, `resolve_amount` does;
`resolve_derived`, `resolve_memo` and the slate lookup of `settle_finalized` do not. A run in
which these three propose no invoice that was due when the payment was presented pays every
invoice in time.
-/

namespace GoblinPay

open Async Sql

/-- The open invoice a statement proposes for payment without a look at the clock. -/
def Eff.proposes {β : Type} (x : Answer) (db : Db) : Eff β → Option Invoice
  | .sql (.resolveDerived default recipient) => Db.oldest (db.derivedCandidates default recipient) x.choice
  | .sql (.resolveMemo default memo) => Db.oldest (db.memoCandidates default memo) x.choice
  | .sql (.selectBySlateId sid) =>
    (pick (db.invoice.select fun inv => inv.slateId = some sid) x.choice).filter fun inv => inv.status = .open
  | _ => none

section

variable {W : Type} (U : Upstream W) (T : List (Happening W))

/-- The call brings a payment for which the amount guard lets the invoice be paid: a finalized
slate, which passes no guard, or a receive of the amount the invoice expects. -/
def Accepts (h : Head Call (World W)) (inv : Invoice) : Prop :=
  (∃ t, Finalizes U T h t) ∨ ∃ t a, Receives U T h t a ∧ Matching.mismatch a inv.expectedAmount = none

/-- The operation proposes no invoice that was due when its call was made and that the call's
payment could pay. -/
def Timely (ev : Happening W) : Prop :=
  ev.input.fault = none → ∀ inv, ev.eff.proposes ev.input ev.state.db = some inv →
    Accepts U T ev.head inv → inv.due ev.head.born.now = false

/-- The row under `i` may be paid by a payment of `a` presented at the time `born`. -/
def Fit (born : Time) (a : UInt64) (i : String) (s : World W) : Prop :=
  ∃ inv, s.db.invoice.get i = some inv ∧
    (Matching.mismatch a inv.expectedAmount = none → inv.due born = false)

/-- The row under `i`, if still open, was not due at the time `born`. -/
def NotDue (born : Time) (i : String) (s : World W) : Prop :=
  ∃ inv, s.db.invoice.get i = some inv ∧ (inv.status = .open → inv.due born = false)

variable {U T} {s s' : World W} {born : Time} {a : UInt64} {i : String}

theorem due_terms {inv inv' : Invoice} (h : inv.SameTerms inv') (now : Time) : inv'.due now = inv.due now := by
  unfold Invoice.due
  rw [h.expiry]

theorem Fit.stable (h : Fit born a i s) (hr : TermsKept s s') : Fit born a i s' := by
  obtain ⟨inv, hi, hfit⟩ := h
  obtain ⟨inv', hi', ht⟩ := hr i inv hi
  refine ⟨inv', hi', fun hm => ?_⟩
  rw [due_terms ht]
  rw [ht.expectedAmount] at hm
  exact hfit hm

theorem NotDue.stable (h : NotDue born i s) (hr : TermsKept s s') : NotDue born i s' := by
  obtain ⟨inv, hi, hdue⟩ := h
  obtain ⟨inv', hi', ht⟩ := hr i inv hi
  refine ⟨inv', hi', fun hopen => ?_⟩
  rw [due_terms ht]
  exact hdue (ht.opens hopen)

/-- What a call owes where it writes: it marks paid what was not due when it was made. An open
row only matters, `mark_paid` leaves the others alone. -/
inductive TimelyWrite (h : Head Call (World W)) (s : World W) : Write → Prop
  | pay {i t : String} (timely : ∀ inv, s.db.invoice.get i = some inv → inv.status = .open →
      inv.due h.born.now = false) : TimelyWrite h s (.pay i t)
  | other {wr : Write} (pay : ∀ i t, wr ≠ .pay i t) : TimelyWrite h s wr

theorem TimelyWrite.of_notDue {h : Head Call (World W)} {t : String} (hi : NotDue h.born.now i s) :
    TimelyWrite h s (.pay i t) := by
  obtain ⟨inv, hget, hdue⟩ := hi
  refine .pay fun inv' hget' hopen => ?_
  obtain rfl : inv = inv' := Option.some.inj (hget.symm.trans hget')
  exact hdue hopen

variable {h : Head Call (World W)} {g : Unit}

/-- What the run is asked for: timely proposals, and time passing. -/
structure TimelyRun (U : Upstream W) (T : List (Happening W)) : Prop where
  timely : ∀ ev ∈ T, Timely U T ev
  clock : ∀ ev ∈ T, ev.head.born.now ≤ ev.state.now

/-- A row a statement proposed for the call's payment is fit for it. -/
theorem TimelyRun.fit (hT : TimelyRun U T) {t : String} (hr : Receives U T h t a) {β : Type} {e : Eff β}
    {x : Answer} (hx : (⟨h, e, x, s⟩ : Happening W) ∈ T) (hf : x.fault = none) {inv : Invoice}
    (hp : e.proposes x s.db = some inv) (hget : s.db.invoice.get inv.id = some inv) :
    Fit h.born.now a inv.id s :=
  ⟨inv, hget, fun hm => hT.timely _ hx hf inv hp (Or.inr ⟨t, a, hr, hm⟩)⟩

theorem timely_resolveDerived (hT : TimelyRun U T) {t : String} (hr : Receives U T h t a) (mode : MatchMode)
    (recipient : String) :
    Meets (watch U T TimelyWrite) h (OnOk fun id _ s => ∀ i, id = some i → Fit h.born.now a i s)
      (sql (.resolveDerived mode recipient)).run g s := by
  refine watch_read (q := .resolveDerived mode recipient) trivial (fun x s id hx hf hexec i hi => ?_)
    fun id s s' hrel hK i hi => (hK i hi).stable hrel
  subst hi
  obtain ⟨inv, hinv, rfl⟩ : ∃ inv, Db.oldest (s.db.derivedCandidates mode recipient) x.choice = some inv ∧
      inv.id = i := by
    simpa [Stmt.exec] using hexec
  exact hT.fit hr hx hf hinv (Db.get_of_oldest hinv).1

theorem timely_resolveMemo (hT : TimelyRun U T) {t : String} (hr : Receives U T h t a) (mode : MatchMode)
    (memo : Option String) :
    Meets (watch U T TimelyWrite) h (OnOk fun id _ s => ∀ i, id = some i → Fit h.born.now a i s)
      (Matching.resolveMemo mode memo).run g s := by
  cases memo with
  | none => exact fun _ _ _ i hi => by cases hi
  | some memo =>
    refine watch_read (q := .resolveMemo mode memo) trivial (fun x s id hx hf hexec i hi => ?_)
      fun id s s' hrel hK i hi => (hK i hi).stable hrel
    subst hi
    obtain ⟨inv, hinv, rfl⟩ : ∃ inv, Db.oldest (s.db.memoCandidates mode memo) x.choice = some inv ∧
        inv.id = i := by
      simpa [Stmt.exec] using hexec
    exact hT.fit hr hx hf hinv (Db.get_of_oldest hinv).1

/-- The one resolver that reads the clock needs no help. -/
theorem timely_resolveAmount (hT : TimelyRun U T) (mode : MatchMode) (amount : UInt64) :
    Meets (watch U T TimelyWrite) h (OnOk fun id _ s => ∀ i, id = some i → Fit h.born.now a i s)
      (sql (.resolveAmount mode amount)).run g s := by
  refine watch_read (q := .resolveAmount mode amount) trivial (fun x s id hx hf hexec i hi => ?_)
    fun id s s' hrel hK i hi => (hK i hi).stable hrel
  subst hi
  obtain ⟨inv, hinv, rfl⟩ : ∃ inv, Db.oldest (s.db.amountCandidates mode amount s.now) x.choice = some inv ∧
      inv.id = i := by
    simpa [Stmt.exec] using hexec
  obtain ⟨hget, hopen⟩ := Db.get_of_oldest hinv
  have hnow : inv.due s.now = false := by
    simp only [Bool.and_eq_true, Bool.not_eq_true'] at hopen
    exact hopen.2
  refine ⟨inv, hget, fun _ => ?_⟩
  by_contra hdue
  have := Invoice.due_mono (hT.clock _ hx) (by simpa using hdue)
  rw [hnow] at this
  cases this

theorem timely_resolve (hT : TimelyRun U T) {t : String} (hr : Receives U T h t a) (mode : MatchMode)
    (incoming : IncomingPayment) :
    Meets (watch U T TimelyWrite) h (OnOk fun id _ s => ∀ i, id = some i → Fit h.born.now a i s)
      (Matching.resolve mode incoming).run g s := by
  refine Meets.tryOk (timely_resolveDerived hT hr mode _) fun id g s _ hfit => ?_
  cases id with
  | some i => exact fun _ hrel _ j hj => (hfit j hj).stable hrel
  | none =>
    refine Meets.tryOk (timely_resolveMemo hT hr mode _) fun id g s _ hfit => ?_
    cases id with
    | some i => exact fun _ hrel _ j hj => (hfit j hj).stable hrel
    | none => exact timely_resolveAmount hT mode _

/-- `mark_paid` and the link, for an invoice that was not due. -/
theorem timely_settle {t : String} {invoiceId : Option String} (user : Option String)
    (hi : ∀ i, invoiceId = some i → NotDue h.born.now i s) :
    Meets (watch U T TimelyWrite) h (OnOk fun _ _ _ => True) (Matching.settle t invoiceId user).run g s := by
  have link : Prog.Writes (fun wr => wr = .link t invoiceId)
      (do sql (.linkPayment t invoiceId user)
          pure { invoiceId, userId := user } : ExceptT SqlxError Io MatchResult).run :=
    Prog.Writes.bindExcept (writes_sql rfl rfl) fun _ => trivial
  have rest : ∀ g s, Meets (watch U T TimelyWrite) h (OnOk fun _ _ _ => True)
      (do sql (.linkPayment t invoiceId user)
          pure { invoiceId, userId := user } : ExceptT SqlxError Io MatchResult).run g s := by
    refine fun g s => watchOk_of_writes link fun wr s hwr => ?_
    subst hwr
    exact .other fun _ _ h => by cases h
  cases invoiceId with
  | none => exact Meets.tryOk (P := fun _ _ _ => True) (fun _ _ _ => trivial) fun _ g s _ _ => rest g s
  | some i =>
    refine Meets.tryOk (P := fun _ _ _ => True) ?_ fun _ g s _ _ => rest g s
    refine Meets.sqlThen (K := NotDue h.born.now i) (hi i rfl) (fun _ _ hr _ hK => hK.stable hr) ?_ ?_ ?_
    · rintro s - hK wr hwr
      cases hwr
      exact .of_notDue hK
    · exact fun _ _ _ _ _ _ _ _ _ _ => trivial
    · exact fun _ _ _ _ => Meets.failed _

theorem timely_matchPayment (hT : TimelyRun U T) {r : Received} (hr : Receives U T h r.slateId r.amount)
    (rc : String) (memo : Option String) (mode : MatchMode) :
    Meets (watch U T TimelyWrite) h (OnOk fun _ _ _ => True)
      (Matching.matchPayment mode ⟨r.slateId, r.amount, rc, memo⟩).run g s := by
  refine Meets.tryOk (watchOk_of_quiet (quiet_sql rfl)) fun user g s _ _ => ?_
  refine Meets.tryOk (timely_resolve hT hr mode _) fun id g s _ hfit => ?_
  cases id with
  | none => exact timely_settle _ fun i hi => by cases hi
  | some i =>
    have hread : Meets (watch U T TimelyWrite) h
        (OnOk fun expected _ s => NotDue h.born.now i s ∨ Matching.mismatch r.amount expected ≠ none)
        (sql (.expectedAmount i)).run g s := by
      refine watch_readFrom (q := .expectedAmount i) trivial (I := Fit h.born.now r.amount i) (hfit i rfl)
        (fun _ _ hrel hK => hK.stable hrel) (fun x s expected hK _ _ hexec => ?_)
        fun expected s s' hrel hK => hK.imp_left fun hi => hi.stable hrel
      obtain ⟨inv, hget, hfit⟩ := hK
      simp only [Stmt.exec, hget] at hexec
      obtain rfl : inv.expectedAmount = expected := by simpa using hexec
      by_cases hm : Matching.mismatch r.amount inv.expectedAmount = none
      · exact Or.inl ⟨inv, hget, fun _ => hfit hm⟩
      · exact Or.inr hm
    refine Meets.tryOk hread fun expected g s _ hK => ?_
    split
    · exact fun _ _ _ => trivial
    · rename_i hm
      refine timely_settle _ fun j hj => ?_
      cases hj
      exact hK.resolve_right fun hne => hne hm

theorem timely_receive (hT : TimelyRun U T) {r : Received} (hr : Receives U T h r.slateId r.amount)
    (payer : Option String) (rc : String) (memo : Option String) (mode : MatchMode)
    (wh : Option (String × String)) :
    Meets (watch U T TimelyWrite) h (fun _ _ _ => True) (Record.persistAndMatch r payer rc memo mode wh) g s := by
  refine Meets.andThen (watch_of_writes (P := fun wr => ∃ row, wr = .insert row)
    (Prog.Writes.bind (writes_sql rfl ⟨_, rfl⟩) fun _ => trivial) ?_) fun _ _ _ _ _ => ?_
  · rintro _ s ⟨row, rfl⟩
    exact .other fun _ _ h => by cases h
  · refine Meets.andThen (timely_matchPayment hT hr rc memo mode) fun _ _ _ _ _ => ?_
    refine watch_of_writes (Record.footprint_conclude (P := fun wr => (∃ t, wr = .delete t) ∨ ∃ p, wr = .enqueue p)
      _ _ _ _ (Or.inl ⟨_, rfl⟩) fun p => Or.inr ⟨p, rfl⟩).writes ?_
    rintro _ s (⟨t, rfl⟩ | ⟨p, rfl⟩) <;> exact .other fun _ _ h => by cases h

/-- `settle_finalized` marks paid the invoice its lookup found. A row that was no longer open
then is none that `mark_paid` changes. -/
theorem timely_settleFinalized (hT : TimelyRun U T) {f : FinalizedInvoice} (hf : Finalizes U T h f.slateId)
    (wh : Option (String × String)) :
    Meets (watch U T TimelyWrite) h (fun _ _ _ => True) (Foreign.settleFinalized f wh) g s := by
  have lookup : Meets (watch U T TimelyWrite) h
      (OnOk fun o _ s => ∀ inv, o = some inv → NotDue h.born.now inv.id s)
      (Invoice.getBySlateId f.slateId).run g s := by
    refine watch_read (q := .selectBySlateId f.slateId) trivial (fun x s o hx hfault hexec inv ho => ?_)
      fun o s s' hrel hK inv ho => (hK inv ho).stable hrel
    subst ho
    have hpick : pick (s.db.invoice.select fun inv => inv.slateId = some f.slateId) x.choice = some inv := by
      simpa [Stmt.exec] using hexec
    refine ⟨inv, (Db.get_of_pick hpick).1, fun hopen => ?_⟩
    refine hT.timely _ hx hfault inv ?_ (Or.inl ⟨f.slateId, hf⟩)
    simp [Eff.proposes, hpick, hopen]
  refine Meets.andThen lookup fun o g s _ ho => ?_
  split
  · exact fun _ _ _ => trivial
  · exact fun _ _ _ => trivial
  · rename_i inv
    have settles : NotDue h.born.now inv.id s := ho inv rfl
    have notifies : Prog.Writes (fun wr => ∃ p, wr = .enqueue p) (Foreign.notify inv f wh) := by
      unfold Foreign.notify
      split
      · exact trivial
      · exact Prog.Writes.bind (footprint_received _ _ _ _ _ _).writes fun p =>
          Prog.Writes.bind (footprint_enqueue _ _ ⟨p, rfl⟩).writes fun _ => trivial
    refine Meets.andThen (I := fun _ _ s => NotDue h.born.now inv.id s) ?_ fun _ g s _ hs => ?_
    · refine Meets.andThen (I := fun _ _ s => NotDue h.born.now inv.id s) ?_
        fun _ _ _ _ hs _ hrel _ => hs.stable hrel
      refine Meets.step settles (fun _ _ hrel _ hs => hs.stable hrel) ?_ ?_
      · rintro s - - wr hwr
        cases hwr
        exact .other fun _ _ h => by cases h
      · intro x s _ hs _ s' hrel _
        exact (hs.stable ((Eff.sql (.insertPayment _)).terms_kept U x s)).stable hrel
    · refine Meets.step hs (fun _ _ hrel _ hs => hs.stable hrel) ?_ ?_
      · rintro s - hs wr hwr
        cases hwr
        exact .of_notDue hs
      · intro x s _ hs _
        refine watch_of_writes (P := fun wr => ∃ p, wr = .enqueue p) ?_ ?_
        · rcases ((handler U).act (Eff.sql (Stmt.markPaid inv.id f.slateId)) x s).1 with e | changed
          · exact trivial
          cases changed with
          | true => exact notifies
          | false => exact trivial
        · rintro _ s ⟨p, rfl⟩
          exact .other fun _ _ h => by cases h

theorem timely_call (hT : TimelyRun U T) (c : Call) (s : World W) :
    Meets (watch U T TimelyWrite) ⟨c, s⟩ (fun _ _ _ => True) (code U c) () s := by
  by_cases hrail : c.IsRail
  · refine Rails.meets (watch_rails (fun t s => ?_) (fun _ s _ => ?_) ?_ ?_) hrail
    · exact .other fun _ _ h => by cases h
    · exact .other fun _ _ h => by cases h
    · exact fun r payer rc memo mode wh _ _ hr => timely_receive hT hr payer rc memo mode wh
    · exact fun f wh _ _ hf => timely_settleFinalized hT hf wh
  · refine watch_of_writes (Call.writes U hrail) fun wr s hwr => .other fun i t h => ?_
    subst h
    cases c <;> simp [Call.mayWrite] at hwr

/-! ## Runs -/

/-- No invoice was moved to paid by a payment presented at or after its expiry. -/
def PaidInTime (U : Upstream W) (w : World W) (ms : Run) : Prop :=
  ∀ paid ∈ history U w ms, ∀ i t, Pays U paid i t →
    ∀ inv, paid.state.db.invoice.get i = some inv → inv.due paid.head.born.now = false

/-- In every run whose proposals are timely, on every rail and in every matching mode, every
invoice was paid in time. -/
theorem paidInTime (U : Upstream W) (w : World W) (ms : Run)
    (timely : ∀ ev ∈ history U w ms, Timely U (history U w ms) ev) : PaidInTime U w ms := by
  intro paid hpaid i t hp inv hget
  have hT : TimelyRun U (history U w ms) := ⟨timely, fun _ hev => born_le hev⟩
  have hwr := hp.write
  obtain ⟨inv', hget', hopen⟩ := hp.wasOpen
  obtain rfl : inv' = inv := Option.some.inj (hget'.symm.trans hget)
  cases watch_run (fun c s => timely_call hT c s) hpaid hwr with
  | pay timely => exact timely inv' hget hopen
  | other pay => exact absurd rfl (pay i t)

/-- `POST /invoice` for a fiat amount, locked for 900 seconds, then after `wait` seconds a
payment of the quoted amount to its child key. -/
def fiatRun (wait : Nat) : Run :=
  [.start (.createInvoice Sample.config 900
      { amountFiat := some "5", currency := some "eur", matchMode := some "derived" }),
   .run 0 { quote := ⟨100, "0.05", "sample"⟩ }, .run 0 { text := "i" }, .run 0 { text := "tok" },
   .run 0 {}, .run 0 {}, .run 0 {},
   .start (.elapse wait), .run 1 {},
   .start (.receive (Sample.received "t" 100) (some "payer") "mi" none .memo none),
   .run 2 {}, .run 2 {}, .run 2 {}, .run 2 {}, .run 2 {}, .run 2 {}]

/-- Within the lock the run is timely, and the invoice is paid. -/
theorem fiatRun_inTime : PaidInTime Sample.upstream Sample.world (fiatRun 899) ∧
    ∃ ev ∈ history Sample.upstream Sample.world (fiatRun 899), Pays Sample.upstream ev "i" "t" := by
  have proposals : ∀ ev ∈ history Sample.upstream Sample.world (fiatRun 899),
      (ev.eff.proposes ev.input ev.state.db).all (fun inv => !inv.due ev.head.born.now) = true := by
    decide
  refine ⟨paidInTime _ _ _ fun ev hev _ inv hinv _ => ?_, _, List.get_mem _ ⟨11, by decide⟩, by decide, by decide⟩
  have := proposals ev hev
  rw [hinv] at this
  simpa using this

/-- A payment at the end of the lock still pays the locked amount. -/
theorem fiatRun_late : ¬ PaidInTime Sample.upstream Sample.world (fiatRun 900) := by
  intro h
  have hdue : ∀ inv, ((history Sample.upstream Sample.world (fiatRun 900)).get ⟨11, by decide⟩).state.db.invoice.get "i"
      = some inv → inv.due 1900 = false :=
    h _ (List.get_mem _ ⟨11, by decide⟩) "i" "t" ⟨by decide, by decide⟩
  have late : ∃ inv, ((history Sample.upstream Sample.world (fiatRun 900)).get ⟨11, by decide⟩).state.db.invoice.get "i"
      = some inv ∧ inv.due 1900 = true := by decide
  obtain ⟨inv, hget, hlate⟩ := late
  rw [hdue inv hget] at hlate
  cases hlate

end

end GoblinPay
