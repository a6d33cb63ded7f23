import GoblinPay.Runs.Rails

/-!
# Armed invoices

`arm_grin1_rail` issues a slate and attaches it to the invoice its call has just created; the
sweep cancels the slate of a due invoice and expires it. This module follows both through any
interleaving: a slate is attached to a row that had none, and what the sweep expires is armed
with a slate whose context it has cancelled.
-/

namespace GoblinPay

open Async Sql

/-- The grin1 rail is armed with the slate `sid`. -/
structure Invoice.Armed (inv : Invoice) (sid : String) : Prop where
  rail : inv.rail = some .grin1
  slate : inv.slateId = some sid

theorem Invoice.Armed.unique {inv : Invoice} {sid sid' : String} (h : inv.Armed sid) (h' : inv.Armed sid') :
    sid = sid' :=
  Option.some.inj (h.slate.symm.trans h'.slate)

section

variable {W : Type} (U : Upstream W) (T : List (Happening W))

/-- In the history `T`, the wallet cancelled the context of the slate `sid`. -/
def Cancelled (sid : String) : Prop :=
  ∃ h x s, (⟨h, .cancelTx sid, x, s⟩ : Happening W) ∈ T ∧ (act U x s (.cancelTx sid)).1 = .ok ()

/-- The row under `i` is armed with `sid`. -/
def ArmedAt (i sid : String) (s : World W) : Prop := ∃ inv, s.db.invoice.get i = some inv ∧ inv.Armed sid

/-- The invoice under `i` is past its expiry. -/
def PastDue (i : String) (s : World W) : Prop := ∃ inv, s.db.invoice.get i = some inv ∧ inv.due s.now = true

/-- The row under `i` has no slate. -/
def Bare (i : String) (s : World W) : Prop := ∃ inv, s.db.invoice.get i = some inv ∧ inv.slateId = none

/-- Every slate that arms an invoice was issued by the wallet. -/
def SlatesIssued (s : World W) : Prop := ∀ i sid, ArmedAt i sid s → U.hasIssued s.wallet sid = true

/-- The wallet issued the slate `sid`, and holds no context for it. -/
def Gone (sid : String) (s : World W) : Prop :=
  U.hasIssued s.wallet sid = true ∧ ¬ U.holdsContext s.wallet sid = true

/-- What every operation keeps: an armed row keeps its slate, what is past its expiry stays so, an issued
slate stays issued and a context that is gone stays gone. -/
structure SlatesKept (s s' : World W) : Prop where
  armed : ∀ i sid, ArmedAt i sid s → ArmedAt i sid s'
  due : ∀ i, PastDue i s → PastDue i s'
  issued : ∀ sid, U.hasIssued s.wallet sid = true → U.hasIssued s'.wallet sid = true
  gone : ∀ sid, Gone U sid s → Gone U sid s'

variable {U}

theorem SlatesKept.refl (s : World W) : SlatesKept U s s := ⟨fun _ _ h => h, fun _ h => h, fun _ h => h, fun _ h => h⟩

theorem SlatesKept.trans {a b c : World W} (h : SlatesKept U a b) (h' : SlatesKept U b c) : SlatesKept U a c :=
  ⟨fun i sid ha => h'.armed i sid (h.armed i sid ha), fun i ha => h'.due i (h.due i ha),
    fun sid ha => h'.issued sid (h.issued sid ha), fun sid ha => h'.gone sid (h.gone sid ha)⟩

theorem PastDue.kept {i : String} {s s' : World W} (h : PastDue i s) (hterms : TermsKept s s') (hle : s.now ≤ s'.now) :
    PastDue i s' := by
  obtain ⟨inv, hget, hdue⟩ := h
  obtain ⟨inv', hget', terms⟩ := hterms i inv hget
  refine ⟨inv', hget', Invoice.due_mono hle ?_⟩
  unfold Invoice.due at hdue ⊢
  rw [terms.expiry]
  exact hdue

variable (U)

/-- What a call owes where it writes; `g` is the invoice it has created and not yet armed. -/
inductive ArmWrite (g : Option String) (s : World W) : Write → Prop
  | arm {i sid : String} (mine : g = some i) (issued : U.hasIssued s.wallet sid = true) : ArmWrite g s (.arm i sid)
  | expire {i sid : String} (armed : ArmedAt i sid s) (due : PastDue i s) (cancelled : Cancelled U T sid) (gone : Gone U sid s) :
      ArmWrite g s (.expire i)
  | other {wr : Write} (arm : ∀ i sid, wr ≠ .arm i sid) (expire : ∀ i, wr ≠ .expire i) : ArmWrite g s wr

/-- A call that inserted an invoice has it to arm, until it does. -/
def armGain {β : Type} (g : Option String) : Eff β → β → Option String
  | .sql (.insertInvoice row), .ok () => some row.id
  | .sql (.attachGrin1 ..), _ => none
  | _, _ => g

/-- The contract: the others leave a call's own invoice bare. -/
def arming : Discipline (handler U) (Head Call (World W)) (Option String) where
  inv := SlatesIssued U
  rely _ g s s' := SlatesKept U s s' ∧ ∀ i, g = some i → Bare i s → Bare i s'
  before _ g e s := ∀ wr, e.write = some wr → ArmWrite U T g s wr
  allowed h e x s := (⟨h, e, x, s⟩ : Happening W) ∈ T
  gain := armGain
  rely_refl _ _ s := ⟨.refl s, fun _ _ h => h⟩
  rely_trans h h' := ⟨h.1.trans h'.1, fun i hi hb => h'.2 i hi (h.2 i hi hb)⟩

variable {U T}

/-- A bare row stays bare until a slate is attached to it. -/
theorem Bare.kept {β : Type} {e : Eff β} {x : Answer} {s : World W} {i : String} (h : Bare i s)
    (hne : ∀ sid, e.write ≠ some (.arm i sid)) : Bare i (act U x s e).2 := by
  obtain ⟨inv, hget, hbare⟩ := h
  have change := e.invoice_change U x s i
  rw [hget] at change
  generalize hr : (act U x s e).2.db.invoice.get i = r at change
  cases change with
  | keep => exact ⟨inv, hr, hbare⟩
  | expire | sweep | pay | confirm => exact ⟨_, hr, hbare⟩
  | arm hby => exact absurd hby (hne _)

/-- What a call arms is its own bare invoice. -/
theorem ArmWrite.mine {g : Option String} {s : World W} {i sid : String} (h : ArmWrite U T g s (.arm i sid)) :
    g = some i ∧ U.hasIssued s.wallet sid = true := by
  cases h with
  | arm mine issued => exact ⟨mine, issued⟩
  | other arm _ => exact absurd rfl (arm i sid)

/-- Whatever operation runs, as the contract demands, slates are kept. -/
theorem slates_kept (hU : U.Lawful) {β : Type} {e : Eff β} {x : Answer} {s : World W} {g : Option String}
    (hinv : SlatesIssued U s) (hg : ∀ i, g = some i → Bare i s)
    (hb : ∀ wr, e.write = some wr → ArmWrite U T g s wr) :
    SlatesKept U s (act U x s e).2 ∧ SlatesIssued U (act U x s e).2 := by
  refine ⟨⟨fun i sid ⟨inv, hget, harmed⟩ => ?_, fun i hdue => hdue.kept (e.terms_kept U x s) (e.now_le U x s),
    fun sid => e.issued_mono x s hU, fun sid hgone => ?_⟩, fun i sid ⟨inv', hget', harmed⟩ => ?_⟩
  · have change := e.invoice_change U x s i
    rw [hget] at change
    generalize hr : (act U x s e).2.db.invoice.get i = r at change
    cases change with
    | keep => exact ⟨inv, hr, harmed⟩
    | expire | sweep | pay | confirm => exact ⟨_, hr, harmed.rail, harmed.slate⟩
    | arm hby =>
      obtain ⟨inv', hget', hbare⟩ := hg i (hb _ hby).mine.1
      obtain rfl : inv = inv' := Option.some.inj (hget.symm.trans hget')
      rw [harmed.slate] at hbare
      cases hbare
  · refine ⟨e.issued_mono x s hU hgone.1, fun hheld => ?_⟩
    rcases e.held_before x s hU hheld with h | h
    · exact hgone.2 h
    · exact h hgone.1
  · have change := e.invoice_change U x s i
    rw [hget'] at change
    generalize hr : s.db.invoice.get i = r at change
    cases change with
    | keep => exact e.issued_mono x s hU (hinv i sid ⟨inv', hr, harmed⟩)
    | create => cases harmed.slate
    | @expire inv | @sweep inv | @pay inv | @confirm inv =>
      exact e.issued_mono x s hU (hinv i sid ⟨inv, hr, harmed.rail, harmed.slate⟩)
    | arm hby =>
      obtain rfl : _ = sid := Option.some.inj harmed.slate
      exact e.issued_mono x s hU (hb _ hby).mine.2

/-! ## The calls -/

/-- The writes the contract asks for. -/
def Write.Arms : Write → Prop
  | .arm .. | .expire _ => True
  | _ => False

variable {h : Head Call (World W)} {g : Option String} {s : World W} {α β : Type} {P : Write → Prop}

theorem ArmWrite.of_not {wr : Write} (hwr : ¬ wr.Arms) : ArmWrite U T g s wr :=
  .other (fun i sid h => hwr (by rw [h]; trivial)) fun i h => hwr (by rw [h]; trivial)

theorem arming_of_writes {p : Io α} (hp : Prog.Writes P p) (hP : ∀ wr, P wr → ¬ wr.Arms) :
    Meets (arming U T) h (fun _ _ _ => True) p g s :=
  Meets.of_only hp fun _ _ _ he wr hwr => .of_not (hP wr (he wr hwr))

theorem armGain_quiet {e : Eff β} (he : e.Quiet) (b : β) : armGain g e b = g := by
  cases e with
  | sql q =>
    cases q with
    | insertInvoice | attachGrin1 => cases he
    | _ => rfl
  | _ => rfl

theorem arming_of_quiet {p : Io α} (hp : Prog.Quiet p) : Meets (arming U T) h (fun _ g' _ => g' = g) p g s :=
  Meets.of_only_same hp
    (fun e s he wr hwr => by
      rw [show e.write = none from he] at hwr
      cases hwr)
    fun e b he => armGain_quiet he b

theorem armingOk_of_quiet {ε : Type} {m : ExceptT ε Io α} (hm : Prog.Quiet m.run) :
    Meets (arming U T) h (OnOk fun _ g' _ => g' = g) m.run g s :=
  (arming_of_quiet hm).mono fun r _ _ _ hg => by
    cases r with
    | error e => trivial
    | ok a => exact hg

/-- A quiet operation leaves a call's own invoice to it. -/
theorem arming_await {e : Eff β} {k : β → Io α} {Q : α → Option String → World W → Prop} {K : World W → Prop}
    (he : e.Quiet) (hK : K s) (keep : ∀ s s', SlatesKept U s s' → K s → K s')
    (hk : ∀ x s, SlatesIssued U s → K s → (⟨h, e, x, s⟩ : Happening W) ∈ T →
      Meets (arming U T) h Q (k (act U x s e).1) g (act U x s e).2) :
    Meets (arming U T) h Q (.await e k) g s := by
  refine Meets.step hK (fun s s' hr _ hK => keep s s' hr.1 hK) (fun s _ _ wr hwr => ?_) fun x s hinv hK hx => ?_
  · rw [show e.write = none from he] at hwr
    cases hwr
  · have same : (arming U T).gain g e (act U x s e).1 = g := armGain_quiet he _
    change Meets (arming U T) h Q _ ((arming U T).gain g e (act U x s e).1) _
    rw [same]
    exact hk x s hinv hK hx

/-- A read: what its answer says of the state is kept as long as slates are. -/
theorem arming_read {q : Stmt β} (hq : q.IsRead) (hquiet : (Eff.sql q).Quiet) {K : β → World W → Prop}
    (hok : ∀ (x : Answer) s b, (q.exec s.now x.choice s.db).1 = .ok b → K b s)
    (stable : ∀ b s s', SlatesKept U s s' → K b s → K b s') :
    Meets (arming U T) h (OnOk fun b g' s => g' = g ∧ K b s) (sql q).run g s := by
  refine arming_await (K := fun _ => True) hquiet trivial (fun _ _ _ h => h) fun x s _ _ _ => ?_
  rcases hr : (act U x s (.sql q)).1 with e | b
  · exact Meets.failed e
  · obtain ⟨-, hexec, hs⟩ := act_sql_ok hr
    rw [hs, World.exec_read hq]
    exact fun s' hrel _ => ⟨rfl, stable b _ _ hrel.1 (hok x s b hexec)⟩

/-- A call into the wallet. -/
theorem arming_upstream {e : Eff (Except String β)} {wrap : String → WalletError} (he : e.Quiet)
    {K : β → World W → Prop}
    (hok : ∀ x s b, SlatesIssued U s → (⟨h, e, x, s⟩ : Happening W) ∈ T → (act U x s e).1 = .ok b →
      K b (act U x s e).2)
    (stable : ∀ b s s', SlatesKept U s s' → K b s → K b s') :
    Meets (arming U T) h (OnOk fun b g' s => g' = g ∧ K b s) (GpWallet.upstream e wrap).run g s := by
  refine arming_await (K := fun _ => True) he trivial (fun _ _ _ h => h) fun x s hinv _ hx => ?_
  rcases hr : (act U x s e).1 with m | b
  · exact Meets.failed _
  · exact fun s' hrel _ => ⟨rfl, stable b _ _ hrel.1 (hok x s b hinv hx hr)⟩

theorem arming_get (id : String) :
    Meets (arming U T) h (OnOk fun o g' _ => g' = g ∧ ∀ inv, o = some inv → inv.id = id)
      (Invoice.get id).run g s := by
  refine Meets.tryOk (armingOk_of_quiet (quiet_sql rfl)) ?_
  rintro _ g s - rfl
  refine arming_read (q := .selectInvoice id) trivial rfl (fun x s o hexec inv ho => ?_) fun _ _ _ _ hK => hK
  subst ho
  have hget : s.db.invoice.get id = some inv := by simpa [Stmt.exec] using hexec
  exact Table.key_of_get hget

/-- A call that created an invoice has it to arm. -/
theorem arming_create (params : NewInvoice) (sk : Secret) (hex : String) (mode : MatchMode) :
    Meets (arming U T) h (OnOk fun inv g' _ => g' = some inv.id) (Invoice.create U params sk hex mode).run g s := by
  refine Meets.tryOk (armingOk_of_quiet footprint_draw.quiet) fun id g s _ _ => ?_
  refine Meets.tryOk (armingOk_of_quiet footprint_draw.quiet) fun token g s _ _ => ?_
  refine Meets.sqlThen (K := fun _ => True) trivial (fun _ _ _ _ h => h) ?_ ?_ ?_
  · rintro s - - wr hwr
    cases hwr
    exact .of_not fun h => h
  · intro x s _ _ _ _ _
    refine Meets.tryOk (arming_get id) ?_
    rintro o g s - ⟨rfl, hid⟩
    cases o with
    | none => exact Meets.failed _
    | some inv => exact fun _ _ _ => congrArg some (hid inv rfl).symm
  · exact fun _ _ _ _ => Meets.failed _

theorem arming_issueInvoice (hU : U.Lawful) (amount : UInt64) :
    Meets (arming U T) h (OnOk fun issued g' s => g' = g ∧ U.hasIssued s.wallet issued.slateId = true)
      (GpWallet.issueInvoice amount).run g s := by
  refine Meets.tryOk (arming_upstream (e := .issueInvoiceTx amount) (K := fun i1 s => U.hasIssued s.wallet i1.id = true) rfl
    (fun x s i1 _ _ hr => ?_) fun i1 _ _ hkept => hkept.issued i1.id) ?_
  · rcases hf : x.fault with _ | m
    · simp only [act, hf] at hr ⊢
      exact (hU.issue_logs (Prod.ext hr rfl) i1.id).2 (Or.inl rfl)
    · simp [act, hf] at hr
  rintro i1 g s - ⟨rfl, hissued⟩
  split
  · refine Meets.tryOk (P := fun _ g' s => g' = g ∧ U.hasIssued s.wallet i1.id = true) ?_ ?_
    · refine arming_await (e := .createSlatepackMessage i1) (K := fun s => U.hasIssued s.wallet i1.id = true)
        rfl hissued (fun _ _ hkept => hkept.issued i1.id) fun x s _ hK _ => ?_
      cases (act U x s (.createSlatepackMessage i1)).1 with
      | error m => exact Meets.failed _
      | ok armor => exact fun s' hrel _ => ⟨rfl, hrel.1.issued _ hK⟩
    · exact fun _ _ _ _ hK s' hrel _ => ⟨hK.1, hrel.1.issued _ hK.2⟩
  · exact Meets.failed _

/-- `arm_grin1_rail` arms the invoice its call created. -/
theorem arming_armGrin1Rail (hU : U.Lawful) (cfg : Config) (inv : Invoice) (hg : g = some inv.id) :
    Meets (arming U T) h (fun _ _ _ => True) (Invoices.armGrin1Rail cfg inv) g s := by
  have ended : ∀ (inv : Invoice) g s, Meets (arming U T) h (fun _ _ _ => True) (.ret inv) g s :=
    fun _ _ _ _ _ _ => trivial
  unfold Invoices.armGrin1Rail
  split
  · split
    · exact ended _ _ _
    · split
      · exact ended _ _ _
      · refine Meets.andThen (arming_issueInvoice hU _) fun r g' s _ hr => ?_
        split
        · exact ended _ _ _
        · rename_i issued
          obtain ⟨rfl, hissued⟩ := hr
          refine Meets.sqlRun (K := fun s => U.hasIssued s.wallet issued.slateId = true) hissued
            (fun _ _ hrel _ => hrel.1.issued _) ?_ ?_ ?_
          · rintro s - hK wr hwr
            cases hwr
            exact .arm hg hK
          · intro x s _ _ _ _ _
            refine Meets.andThen (arming_of_quiet (Invoice.footprint_get _).quiet) fun r _ _ _ _ => ?_
            split <;> exact ended _ _ _
          · exact fun _ _ _ _ => ended _ _ _
  · exact ended _ _ _

theorem arming_createInvoice (hU : U.Lawful) (cfg : Config) (ttl : Int64) (body : CreateInvoiceBody) :
    Meets (arming U T) h (fun _ _ _ => True) (Invoices.createInvoice U cfg ttl body) g s := by
  have ended : ∀ (r : Except HttpError Invoice) g s, Meets (arming U T) h (fun _ _ _ => True) (.ret r) g s :=
    fun _ _ _ _ _ _ => trivial
  unfold Invoices.createInvoice
  split
  · exact ended _ _ _
  · split
    · exact ended _ _ _
    · exact ended _ _ _
    · refine Meets.andThen (arming_of_quiet (Invoices.footprint_priceIfFiat _ _).quiet) fun r _ _ _ _ => ?_
      split
      · exact ended _ _ _
      · refine Meets.andThen (arming_create _ _ _ _) fun r g s _ hg => ?_
        split
        · exact ended _ _ _
        · rename_i inv
          exact Meets.andThen (arming_armGrin1Rail hU cfg inv hg) fun _ _ _ _ _ => ended _ _ _

/-- The rows of a work list of the sweep are armed and past their expiry. -/
def DueArmed (due : List (String × String)) (s : World W) : Prop := ∀ d ∈ due, ArmedAt d.1 d.2 s ∧ PastDue d.1 s

theorem DueArmed.kept {due : List (String × String)} {s s' : World W} (hd : DueArmed due s)
    (hkept : SlatesKept U s s') : DueArmed due s' :=
  fun d hmem => ⟨hkept.armed _ _ (hd d hmem).1, hkept.due _ (hd d hmem).2⟩

theorem arming_cancel (hU : U.Lawful) {due : List (String × String)} (hdue : DueArmed due s) {i sid : String}
    (hmem : (i, sid) ∈ due) :
    Meets (arming U T) h (fun r _ s => DueArmed due s ∧ (r = .ok () → Cancelled U T sid ∧ Gone U sid s))
      (GpWallet.cancel U sid).run g s := by
  unfold GpWallet.cancel
  split
  · refine arming_await (e := .cancelTx sid) (K := DueArmed due) rfl hdue
      (fun _ _ hkept hK => hK.kept hkept) fun x s hinv hK hx => ?_
    have hissued := hinv i sid (hK _ hmem).1
    have hafter : DueArmed due (act U x s (.cancelTx sid)).2 := by
      simp only [act]
      split <;> exact hK
    rcases hr : (act U x s (.cancelTx sid)).1 with m | u
    · exact fun s' hrel _ => ⟨hafter.kept hrel.1, fun h => by cases h⟩
    · have hgone : Gone U sid (act U x s (.cancelTx sid)).2 := by
        rcases hf : x.fault with _ | m
        · refine ⟨(Eff.cancelTx sid).issued_mono x s hU hissued, fun hheld => ?_⟩
          simp only [act, hf] at hr hheld
          exact ((hU.cancel_context (Prod.ext hr rfl) sid).1 hheld).1 rfl
        · simp [act, hf] at hr
      exact fun s' hrel _ => ⟨hafter.kept hrel.1, fun _ => ⟨⟨h, x, s, hx, hr⟩, hrel.1.gone sid hgone⟩⟩
  · exact fun s' hrel _ => ⟨hdue.kept hrel.1, fun h => by cases h⟩

/-- What the sweep expires is armed with a slate that it cancelled. -/
theorem arming_cancelDue (hU : U.Lawful) (due : List (String × String)) (hdue : DueArmed due s) :
    Meets (arming U T) h (fun _ _ _ => True) (Foreign.cancelDue U due) g s := by
  induction due generalizing g s with
  | nil => exact fun _ _ _ => trivial
  | cons d due ih =>
    obtain ⟨i, sid⟩ := d
    have rest : ∀ {g s}, DueArmed ((i, sid) :: due) s →
        Meets (arming U T) h (fun _ _ _ => True) (Foreign.cancelDue U due) g s :=
      fun hd => ih fun d hmem => hd d (List.mem_cons_of_mem _ hmem)
    refine Meets.andThen (arming_cancel hU hdue List.mem_cons_self) fun r g s _ hr => ?_
    obtain ⟨hd, hcancel⟩ := hr
    split
    · obtain ⟨hcancelled, hgone⟩ := hcancel rfl
      refine Meets.andThen (I := fun _ _ s => DueArmed ((i, sid) :: due) s) ?_ fun _ _ _ _ hd => rest hd
      refine Meets.andThen (I := fun _ _ s => DueArmed ((i, sid) :: due) s) ?_
        fun _ _ _ _ hd _ hrel _ => hd.kept hrel.1
      refine Meets.step (K := fun s => DueArmed ((i, sid) :: due) s ∧ Gone U sid s) ⟨hd, hgone⟩
        (fun _ _ hrel _ hK => ⟨hK.1.kept hrel.1, hrel.1.gone sid hK.2⟩) ?_ ?_
      · rintro s - ⟨hd, hgone⟩ wr hwr
        cases hwr
        have here := hd _ List.mem_cons_self
        exact .expire here.1 here.2 hcancelled hgone
      · intro x s _ hK _ s' hrel _
        refine DueArmed.kept (fun d hmem => ?_) hrel.1
        obtain ⟨⟨inv, hget, harmed⟩, hdue⟩ := hK.1 d hmem
        refine ⟨?_, hdue.kept (Eff.terms_kept U _ x s) (Eff.now_le U _ x s)⟩
        have change := (Eff.sql (.markExpired i)).invoice_change U x s d.1
        rw [hget] at change
        generalize hrow : (act U x s (.sql (.markExpired i))).2.db.invoice.get d.1 = row at change
        cases change with
        | keep => exact ⟨inv, hrow, harmed⟩
        | expire | sweep | pay | confirm => exact ⟨_, hrow, harmed.rail, harmed.slate⟩
        | arm hby => cases hby
    · exact rest hd

theorem arming_expirySweep (hU : U.Lawful) :
    Meets (arming U T) h (fun _ _ _ => True) (Foreign.expirySweep U) g s := by
  have due : Meets (arming U T) h (OnOk fun due g' s => g' = g ∧ DueArmed due s) Invoice.dueGrin1Slates.run g s := by
    refine arming_read (q := .dueGrin1Slates) trivial rfl (fun x s due hexec d hmem => ?_)
      fun _ _ _ hkept hK => hK.kept hkept
    obtain rfl := Except.ok.inj hexec
    obtain ⟨inv, hinv, hd⟩ := List.mem_filterMap.1 hmem
    obtain ⟨hget, hdue⟩ := Table.mem_select.1 hinv
    obtain ⟨sid, hsid, rfl⟩ := Option.map_eq_some_iff.1 hd
    obtain ⟨hrail, hover⟩ := Bool.and_eq_true_iff.1 hdue
    exact ⟨⟨inv, hget, by simpa [Invoice.isGrin1] using hrail, hsid⟩, inv, hget, (Bool.and_eq_true_iff.1 hover).2⟩
  refine Meets.andThen due fun r g s _ hr => ?_
  split
  · exact arming_cancelDue hU _ hr.2
  · exact fun _ _ _ => trivial

theorem arming_call (hU : U.Lawful) (c : Call) (s : World W) :
    Meets (arming U T) ⟨c, s⟩ (fun _ _ _ => True) (code U c) none s := by
  by_cases hrail : c.IsRail
  · refine Rails.meets (D := arming U T) (T := T)
      { quiet := fun e g s he wr hwr => ?_
        replied := fun t g s wr hwr => ?_
        post := fun _ final g s _ wr hwr => ?_
        mem := fun _ _ _ hx => hx
        receive := fun r payer rc memo mode wh g s _ => ?_
        settle := fun f wh g s _ => ?_ } hrail
    · rw [show e.write = none from he] at hwr
      cases hwr
    · cases hwr
      exact .of_not fun h => h
    · cases hwr
      exact .of_not fun h => h
    · exact arming_of_writes (Record.footprint_persistAndMatch (P := fun wr => ¬ wr.Arms) r payer rc memo mode wh
        (fun h => h) (fun _ h => h) (fun _ h => h) (fun h => h) fun _ h => h).writes fun _ h => h
    · exact arming_of_writes (Foreign.footprint_settleFinalized (P := fun wr => ¬ wr.Arms) f wh
        (fun _ h => h) (fun _ h => h) fun _ h => h).writes fun _ h => h
  · have hw := Call.writes U hrail
    cases c with
    | createInvoice cfg ttl body =>
      exact (arming_createInvoice hU cfg ttl body).andThen fun _ _ _ _ _ _ _ _ => trivial
    | expirySweep => exact (arming_expirySweep hU).andThen fun _ _ _ _ _ _ _ _ => trivial
    | _ =>
      refine arming_of_writes hw fun wr hwr harms => ?_
      cases wr <;> simp [Call.mayWrite, Write.Arms] at hwr harms

/-! ## Runs -/

/-- An INSERT that succeeds takes a new id, and leaves a bare row under it. -/
theorem bare_of_insert {row : InvoiceRow} {x : Answer}
    (h : (act U x s (.sql (.insertInvoice row))).1 = .ok ()) :
    Bare row.id (act U x s (.sql (.insertInvoice row))).2 ∧ s.db.invoice.get row.id = none := by
  obtain ⟨-, hexec, hs⟩ := act_sql_ok h
  rw [hs]
  simp only [World.exec, Stmt.exec] at hexec ⊢
  split at hexec
  · cases hexec
  · rename_i htoken
    rcases hins : s.db.invoice.insert (row.toInvoice s.now) with _ | tab
    · simp [inserted, hins] at hexec
    · rw [if_neg htoken]
      have hnew : s.db.invoice.get row.id = none := Table.get_of_insert hins
      exact ⟨⟨row.toInvoice s.now, (Table.get_insert hins row.id).trans (if_pos rfl), rfl⟩, hnew⟩

/-- What a call has to arm after an operation is bare, and was its own before or is new. -/
theorem armGain_bare {e : Eff β} {x : Answer} {i : String} (hg : ∀ i, g = some i → Bare i s)
    (h : armGain g e (act U x s e).1 = some i) :
    Bare i (act U x s e).2 ∧ (g = some i ∨ s.db.invoice.get i = none) := by
  have same : g = some i → (∀ sid, e.write ≠ some (.arm i sid)) →
      Bare i (act U x s e).2 ∧ (g = some i ∨ s.db.invoice.get i = none) :=
    fun hi hne => ⟨(hg i hi).kept hne, Or.inl hi⟩
  cases e with
  | sql q =>
    cases q with
    | insertInvoice row =>
      rcases hr : (act U x s (.sql (.insertInvoice row))).1 with m | u
      · rw [hr] at h
        exact same h fun _ h => by cases h
      · rw [hr] at h
        obtain rfl : row.id = i := Option.some.inj h
        obtain ⟨hbare, hnew⟩ := bare_of_insert hr
        exact ⟨hbare, Or.inr hnew⟩
    | attachGrin1 => cases h
    | _ => exact same h fun _ h => by cases h
  | _ => exact same h fun _ h => by cases h

variable (T) in
/-- Every call arms the invoice it created, and no two calls have the same. -/
def armed (hU : U.Lawful) : Protocol (handler U) (code U) (Option String) where
  toDiscipline := arming U T
  init := none
  owns _ g s := ∀ i, g = some i → Bare i s
  apart _ g _ g' := ∀ i, g = some i → g' ≠ some i
  start_owns _ _ i h := by cases h
  start_apart _ _ _ _ := ⟨fun _ _ h => (by cases h), fun _ h => by cases h⟩
  start_meets _ _ _ := arming_call hU _ _
  owns_stable howns hrel i hi := hrel.2 i hi (howns i hi)
  keeps hinv howns hb _ := ⟨(slates_kept hU hinv howns hb).2, fun i hi => (armGain_bare howns hi).1⟩
  yields {_ h g h' g' e x s} hinv howns howns' hapart hb _ := by
    refine ⟨(slates_kept hU hinv howns hb).1, fun i hi hbare => hbare.kept fun sid hwr => ?_⟩
    exact hapart i (hb _ hwr).mine.1 hi
  apart_gain {_ h g h' g' e x s} hinv howns howns' hapart hapart' hb _ := by
    have new : ∀ i, (arming U T).gain g e ((handler U).act e x s).1 = some i → g' ≠ some i := by
      intro i hi hi'
      obtain ⟨-, hmine | hnew⟩ := armGain_bare howns hi
      · exact hapart i hmine hi'
      · obtain ⟨inv, hget, -⟩ := howns' i hi'
        rw [hnew] at hget
        cases hget
    exact ⟨new, fun i hi' hi => new i hi hi'⟩

/-- What is known of a write of a run, where it was issued. -/
inductive ArmFact (U : Upstream W) (T : List (Happening W)) (s : World W) : Write → Prop
  | arm {i sid : String} (bare : Bare i s) (issued : U.hasIssued s.wallet sid = true) : ArmFact U T s (.arm i sid)
  | expire {i sid : String} (armed : ArmedAt i sid s) (due : PastDue i s) (cancelled : Cancelled U T sid)
      (gone : Gone U sid s) : ArmFact U T s (.expire i)
  | other {wr : Write} (arm : ∀ i sid, wr ≠ .arm i sid) (expire : ∀ i, wr ≠ .expire i) : ArmFact U T s wr

/-- In every run, a slate is attached to a bare row, and the sweep expires what is past its expiry and
armed with a slate that it cancelled. -/
theorem arm_run (hU : U.Lawful) {w : World W} {ms : Run} (hw : SlatesIssued U w) {ev : Happening W}
    (hev : ev ∈ history U w ms) :
    SlatesIssued U ev.state ∧ ∀ wr, ev.eff.write = some wr → ArmFact U (history U w ms) ev.state wr := by
  have admitted : (armed (history U w ms) hU).Admitted (Pool.start w) ms :=
    ⟨fun _ hev => hev, fun _ _ => trivial, List.pairwise_of_forall fun _ _ => trivial⟩
  obtain ⟨hinv, g, howns, hb⟩ := Protocol.mem_trace_before (D := armed (history U w ms) hU) hw (fun _ => trivial) admitted hev
  refine ⟨hinv, fun wr hwr => ?_⟩
  cases hb wr hwr with
  | arm mine issued => exact .arm (howns _ mine) issued
  | expire armed due cancelled gone => exact .expire armed due cancelled gone
  | other arm expire => exact .other arm expire

end

end GoblinPay
