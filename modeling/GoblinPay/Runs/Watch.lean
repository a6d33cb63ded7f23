import GoblinPay.Runs.Rails

/-!
# Watching the writes of a run

The simplest contract of a server: `B` says where a write may be issued, invoices keep their
terms and the clock does not run backwards. What a run is asked to satisfy is asked of its
history, so the contract hands every operation the fact that it is part of that history.
-/

namespace GoblinPay

open Async

section

variable {W : Type} (U : Upstream W) (T : List (Happening W)) (B : Head Call (World W) → World W → Write → Prop)

def watch : Discipline (handler U) (Head Call (World W)) Unit where
  inv _ := True
  rely _ _ s s' := TermsKept s s'
  before h _ e s := ∀ wr, e.write = some wr → B h s wr
  allowed h e x s := (⟨h, e, x, s⟩ : Happening W) ∈ T
  gain _ _ _ := ()
  rely_refl _ _ := TermsKept.refl
  rely_trans := TermsKept.trans

variable {U T B} {h : Head Call (World W)} {g : Unit} {s : World W} {α : Type} {P : Write → Prop}

theorem watch_of_writes {p : Io α} (hp : Prog.Writes P p) (hP : ∀ wr (s : World W), P wr → B h s wr) :
    Meets (watch U T B) h (fun _ _ _ => True) p g s :=
  Meets.of_only hp fun _ _ s he wr hwr => hP wr s (he wr hwr)

theorem watch_of_quiet {p : Io α} (hp : Prog.Quiet p) : Meets (watch U T B) h (fun _ _ _ => True) p g s :=
  watch_of_writes (P := fun _ => False) hp.writes fun _ _ h => h.elim

/-- An `ExceptT` block whose writes may be issued anywhere. -/
theorem watchOk_of_writes {ε : Type} {m : ExceptT ε Io α} (hm : Prog.Writes P m.run)
    (hP : ∀ wr (s : World W), P wr → B h s wr) :
    Meets (watch U T B) h (OnOk fun _ _ _ => True) m.run g s :=
  (watch_of_writes hm hP).mono fun r _ _ _ _ => by cases r <;> trivial

theorem watchOk_of_quiet {ε : Type} {m : ExceptT ε Io α} (hm : Prog.Quiet m.run) :
    Meets (watch U T B) h (OnOk fun _ _ _ => True) m.run g s :=
  watchOk_of_writes (P := fun _ => False) hm.writes fun _ _ h => h.elim

/-- A read: what its answer says of the state it was read in is kept when the terms say it. -/
theorem watch_readFrom {β : Type} {q : Stmt β} (hq : q.IsRead) {I : World W → Prop} (hI : I s)
    (keep : ∀ s s', TermsKept s s' → I s → I s') {K : β → World W → Prop}
    (hok : ∀ x s b, I s → (⟨h, .sql q, x, s⟩ : Happening W) ∈ T → x.fault = none →
      (q.exec s.now x.choice s.db).1 = .ok b → K b s)
    (stable : ∀ b s s', TermsKept s s' → K b s → K b s') :
    Meets (watch U T B) h (OnOk fun b _ s => K b s) (sql q).run g s := by
  have hquiet : (Eff.sql q).write = none := by
    cases q with
    | _ => first | rfl | exact hq.elim
  refine Meets.step hI (fun s s' hr _ hI => keep s s' hr hI) (fun s _ _ wr hwr => ?_) fun x s _ hI hx => ?_
  · rw [hquiet] at hwr
    cases hwr
  · rcases hr : (act U x s (.sql q)).1 with e | b
    · simp only [handler, hr]
      exact Meets.failed _
    · obtain ⟨hf, hexec, hs⟩ := act_sql_ok hr
      simp only [handler, hr, hs, World.exec_read hq]
      intro s' hrel _
      exact stable b s s' hrel (hok x s b hI hx hf hexec)

theorem watch_read {β : Type} {q : Stmt β} (hq : q.IsRead) {K : β → World W → Prop}
    (hok : ∀ x s b, (⟨h, .sql q, x, s⟩ : Happening W) ∈ T → x.fault = none →
      (q.exec s.now x.choice s.db).1 = .ok b → K b s)
    (stable : ∀ b s s', TermsKept s s' → K b s → K b s') :
    Meets (watch U T B) h (OnOk fun b _ s => K b s) (sql q).run g s :=
  watch_readFrom hq (I := fun _ => True) trivial (fun _ _ _ h => h) (fun x s b _ => hok x s b) stable

/-- A protocol of this kind is a rail each for the two functions that write payments. -/
theorem watch_rails (hreply : ∀ t s, B h s (.reply t))
    (hpost : ∀ final s, Completes U T h final → B h s (.post final))
    (receive : ∀ (r : Received) (payer : Option String) (rc : String) (memo : Option String) (mode : MatchMode)
      (wh : Option (String × String)) g s, Receives U T h r.slateId r.amount →
      Meets (watch U T B) h (fun _ _ _ => True) (Record.persistAndMatch r payer rc memo mode wh) g s)
    (settle : ∀ (f : FinalizedInvoice) (wh : Option (String × String)) g s, Finalizes U T h f.slateId →
      Meets (watch U T B) h (fun _ _ _ => True) (Foreign.settleFinalized f wh) g s) :
    Rails U T h (watch U T B) where
  quiet e g s he wr hwr := by
    rw [show e.write = none from he] at hwr
    cases hwr
  replied t g s wr hwr := by
    cases hwr
    exact hreply t s
  post _ final g s hfinal wr hwr := by
    cases hwr
    exact hpost final s hfinal
  mem _ _ _ hx := hx
  receive := receive
  settle := settle

/-- The writes of the rails. -/
def Write.IsPayment : Write → Prop
  | .insert _ | .pay .. | .link .. | .delete _ | .enqueue _ | .reply _ | .post _ => True
  | _ => False

/-- A contract that lets payments be written anywhere is met by every rail. -/
theorem watch_rail (hB : ∀ wr s, wr.IsPayment → B h s wr) (hrail : h.call.IsRail) :
    Meets (watch U T B) h (fun _ _ _ => True) (code U h.call) g s := by
  refine Rails.meets (watch_rails (fun t s => hB _ s trivial) (fun _ s _ => hB _ s trivial) ?_ ?_) hrail
  · intro r payer rc memo mode wh g s _
    have hw : Prog.Writes Write.IsPayment (Record.persistAndMatch r payer rc memo mode wh) :=
      (Record.footprint_persistAndMatch r payer rc memo mode wh trivial (fun _ => trivial)
        (fun _ => trivial) trivial fun _ => trivial).writes
    exact watch_of_writes hw fun wr s hwr => hB wr s hwr
  · intro f wh g s _
    have hw : Prog.Writes Write.IsPayment (Foreign.settleFinalized f wh) :=
      (Foreign.footprint_settleFinalized f wh (fun _ => trivial) (fun _ => trivial) fun _ => trivial).writes
    exact watch_of_writes hw fun wr s hwr => hB wr s hwr

variable (U) in
/-- The time since which a call runs has passed at each of its operations. -/
def clock : Protocol (handler U) (code U) Unit where
  inv _ := True
  rely _ _ s s' := s.now ≤ s'.now
  before _ _ _ _ := True
  allowed _ _ _ _ := True
  gain _ _ _ := ()
  rely_refl _ _ _ := le_refl _
  rely_trans := le_trans
  init := ()
  owns h _ s := h.born.now ≤ s.now
  start_owns _ _ := le_refl _
  start_meets _ _ _ := Meets.of_before (fun _ _ _ => trivial) _ _ _
  owns_stable := le_trans
  keeps {_ _ _ e x s} _ howns _ _ := ⟨trivial, le_trans howns (e.now_le U x s)⟩
  yields {_ _ _ _ _ e x s} _ _ _ _ _ _ := e.now_le U x s

variable {w : World W} {ms : Run}

theorem born_le {ev : Happening W} (hev : ev ∈ history U w ms) : ev.head.born.now ≤ ev.state.now := by
  have admitted : (clock U).Admitted (Pool.start w) ms :=
    ⟨fun _ _ => trivial, fun _ _ => trivial, List.pairwise_of_forall fun _ _ => trivial⟩
  obtain ⟨-, _, howns, -⟩ := Protocol.mem_trace_before (D := clock U) trivial (fun _ => trivial) admitted hev
  exact howns

/-- The terms of an invoice after an operation are its terms at the end of the run. -/
theorem terms_kept_after {ev : Happening W} (hev : ev ∈ history U w ms) :
    TermsKept (ev.after (handler U)) (after U w ms).state :=
  Pool.rel_of_mem_trace (handler U) (code U) TermsKept.refl (fun h h' => h.trans h')
    (fun ev _ => ev.eff.terms_kept U ev.input ev.state) hev

/-- When every call meets the contract, every write of a run is issued where `B` lets it be. -/
theorem watch_run
    (hB : ∀ c s, Meets (watch U (history U w ms) B) ⟨c, s⟩ (fun _ _ _ => True) (code U c) () s)
    {ev : Happening W} (hev : ev ∈ history U w ms) {wr : Write} (hwr : ev.eff.write = some wr) :
    B ev.head ev.state wr := by
  let D : Protocol (handler U) (code U) Unit := {
    watch U (history U w ms) B with
    init := ()
    start_meets := fun _ _ _ => hB _ _
    keeps := fun _ _ _ _ => ⟨trivial, trivial⟩
    yields := fun {_ _ _ _ _ e x s} _ _ _ _ _ _ => e.terms_kept U x s }
  have admitted : D.Admitted (Pool.start w) ms :=
    ⟨fun _ hev => hev, fun _ _ => trivial, List.pairwise_of_forall fun _ _ => trivial⟩
  obtain ⟨-, _, -, hb⟩ := Protocol.mem_trace_before (D := D) trivial (fun _ => trivial) admitted hev
  exact hb wr hwr

variable (U) in
/-- The operation moved the invoice `i` from open to paid, naming the payment `t`. -/
structure Pays (ev : Happening W) (i t : String) : Prop where
  wasOpen : ∃ inv, ev.state.db.invoice.get i = some inv ∧ inv.status = .open
  isPaid : ∃ inv, (ev.after (handler U)).db.invoice.get i = some inv ∧ inv.status = .paid ∧
    inv.paidPaymentId = some t

theorem Pays.write {ev : Happening W} {i t : String} (hp : Pays U ev i t) : ev.eff.write = some (.pay i t) := by
  have change := ev.eff.invoice_change U ev.input ev.state i
  obtain ⟨inv, hi, hopen⟩ := hp.wasOpen
  obtain ⟨inv', hi', hpaid, ht⟩ := hp.isPaid
  have hafter : (act U ev.input ev.state ev.eff).2.db.invoice.get i = some inv' := hi'
  rw [hi, hafter] at change
  cases change with
  | keep => simp [hopen] at hpaid
  | expire | sweep => cases hpaid
  | pay hby =>
    cases ht
    exact hby
  | arm => exact absurd (hopen.symm.trans hpaid) (by decide)
  | confirm hby hwas => simp [hopen] at hwas

end

end GoblinPay
