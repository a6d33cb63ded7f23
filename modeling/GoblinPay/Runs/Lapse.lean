import GoblinPay.Runs.Arming
import GoblinPay.Sample

/-!
# Expired and cancelled

The sweep cancels the context of a due armed invoice before it expires it. The reads of an
invoice expire it as well, without a look at the rail, and so does an attach that comes late.
In a run where neither happens to an armed invoice, expired means cancelled.
-/

namespace GoblinPay

open Async Sql

section

variable {W : Type} (U : Upstream W)

/-- After the history `past`, the operation does not expire on a read what is armed and still to
be cancelled, and attaches no slate to an expired invoice. -/
structure CancelsFirst (past : List (Happening W)) (ev : Happening W) : Prop where
  lapse : ev.input.fault = none → ∀ i inv sid, ev.state.db.invoice.get i = some inv → inv.Armed sid →
    ev.eff.lapses ev.state.now inv = true → Cancelled U past sid
  attach : ev.input.fault = none → ∀ i inv sid, ev.state.db.invoice.get i = some inv →
    ev.eff.write = some (.arm i sid) → inv.status ≠ .expired

/-- The armed invoice `inv` waits for the sweep: it is past its expiry, and neither paid nor
cancelled. -/
structure Waits (past : List (Happening W)) (inv : Invoice) (sid : String) (now : Time) : Prop where
  armed : inv.Armed sid
  due : inv.due now = true
  unpaid : inv.status ≠ .paid ∧ inv.status ≠ .confirmed
  uncancelled : ¬ Cancelled U past sid

/-- In the state after a run, what is armed and expired is cancelled, and what waits for the
sweep is in its work list. -/
structure ExpiredCancelled (w : World W) (ms : Run) : Prop where
  expired : ∀ i inv sid, (after U w ms).state.db.invoice.get i = some inv → inv.Armed sid →
    inv.status = .expired → Cancelled U (history U w ms) sid
  listed : ∀ i inv sid, (after U w ms).state.db.invoice.get i = some inv →
    Waits U (history U w ms) inv sid (after U w ms).state.now → ∀ choice due,
    (Stmt.dueGrin1Slates.exec (after U w ms).state.now choice (after U w ms).state.db).1 = .ok due → (i, sid) ∈ due

variable {U}

theorem Cancelled.mono {T T' : List (Happening W)} {sid : String} (h : Cancelled U T sid) (hsub : ∀ ev ∈ T, ev ∈ T') :
    Cancelled U T' sid := by
  obtain ⟨hd, x, s, hmem, hok⟩ := h
  exact ⟨hd, x, s, hsub _ hmem, hok⟩

/-- What is armed and expired in the state `s` was cancelled in the history `T`. -/
def Swept (U : Upstream W) (T : List (Happening W)) (s : World W) : Prop :=
  ∀ i inv sid, s.db.invoice.get i = some inv → inv.Armed sid → inv.status = .expired → Cancelled U T sid

theorem Swept.step {T past : List (Happening W)} {ev : Happening W} (hs : Swept U T ev.state)
    (hpast : ∀ e ∈ past, e ∈ T) (hc : CancelsFirst U past ev)
    (hwr : ∀ wr, ev.eff.write = some wr → ArmFact U T ev.state wr) : Swept U T (ev.after (handler U)) := by
  intro i inv' sid hget' harmed hexpired
  rcases hf : ev.input.fault with _ | m
  · have change := ev.eff.invoice_change U ev.input ev.state i
    have hafter : (act U ev.input ev.state ev.eff).2.db.invoice.get i = some inv' := hget'
    rw [hafter] at change
    generalize hget : ev.state.db.invoice.get i = r at change
    cases change with
    | keep => exact hs i inv' sid hget harmed hexpired
    | create => cases hexpired
    | @expire inv hby => exact (hc.lapse hf i inv sid hget ⟨harmed.rail, harmed.slate⟩ hby).mono hpast
    | @sweep inv hby =>
      -- the sweep wrote this, behind its own cancel
      cases hwr _ hby with
      | expire armed _ cancelled =>
        obtain ⟨inv₂, hget₂, harmed₂⟩ := armed
        obtain rfl : inv = inv₂ := Option.some.inj (hget.symm.trans hget₂)
        have here : inv.Armed sid := ⟨harmed.rail, harmed.slate⟩
        rw [here.unique harmed₂]
        exact cancelled
      | other _ expire => exact absurd rfl (expire i)
    | pay | confirm => cases hexpired
    | @arm inv _ _ hby => exact absurd hexpired (hc.attach hf i inv _ hget hby)
  · refine hs i inv' sid ?_ harmed hexpired
    rw [← ev.eff.db_of_fault U ev.input ev.state hf]
    exact hget'

/-- In every run whose reads leave armed invoices to the sweep, what is armed and expired is
cancelled, and what waits for the sweep is in its work list. -/
theorem expired_cancelled (U : Upstream W) (hU : U.Lawful) (wallet : W) (now : Time) (ms : Run)
    (first : ∀ past ev rest, history U (World.fresh wallet now) ms = past ++ ev :: rest → CancelsFirst U past ev) :
    ExpiredCancelled U (World.fresh wallet now) ms := by
  have issued : SlatesIssued U (World.fresh wallet now) :=
    fun i sid ⟨inv, hget, _⟩ => (World.fresh_invoice hget).elim
  have swept : Swept U (history U (World.fresh wallet now) ms) (after U (World.fresh wallet now) ms).state := by
    refine Pool.inv_run (handler U) (code U) (P := Pool.start (World.fresh wallet now))
      (I := Swept U (history U (World.fresh wallet now) ms)) (fun i inv sid hget => (World.fresh_invoice hget).elim)
      fun ev hev hs => ?_
    obtain ⟨past, rest, hsplit⟩ := List.append_of_mem hev
    refine hs.step (fun e he => ?_) (first past ev rest hsplit) (arm_run hU issued hev).2
    rw [show history U (World.fresh wallet now) ms = past ++ ev :: rest from hsplit]
    exact List.mem_append_left _ he
  refine ⟨swept, fun i inv sid hget hwaits choice due hdue => ?_⟩
  have hopen : inv.status = .open := by
    cases hst : inv.status with
    | «open» => rfl
    | paid => exact absurd hst hwaits.unpaid.1
    | confirmed => exact absurd hst hwaits.unpaid.2
    | expired => exact absurd (swept i inv sid hget hwaits.armed hst) hwaits.uncancelled
  obtain rfl := Except.ok.inj hdue
  have hid : inv.id = i := Table.key_of_get hget
  refine List.mem_filterMap.2 ⟨inv, Table.mem_select.2 ⟨hid ▸ hget, ?_⟩, ?_⟩
  · simp [Invoice.isGrin1, Invoice.overdue, hwaits.armed.rail, hopen, hwaits.due]
  · simp [hwaits.armed.slate, hid]

end

/-! ## Two runs -/

/-- The operation cancels a context. -/
def Eff.cancels {β : Type} : Eff β → Bool
  | .cancelTx _ => true
  | _ => false

/-- `POST /invoice` for 100 within ten seconds, armed with the slate `s`; twenty seconds later
the call `c` performs `n` operations. -/
def dueRun (c : Call) (n : Nat) : Run :=
  [.start (.createInvoice Sample.config 900 { amountGrin := some 100, expirySecs := some 10 }),
   .run 0 { text := "i" }, .run 0 { text := "tok" }, .run 0 {}, .run 0 {}, .run 0 {},
   .run 0 { text := "s" }, .run 0 {}, .run 0 {}, .run 0 {}, .run 0 {},
   .start (.elapse 20), .run 1 {}, .start c] ++ List.replicate n (.run 2 {})

/-- The sweep expires the invoice behind its cancel. -/
theorem dueRun_swept : ExpiredCancelled Sample.upstream Sample.world (dueRun .expirySweep 3) ∧
    ∃ inv, (after Sample.upstream Sample.world (dueRun .expirySweep 3)).state.db.invoice.get "i" = some inv ∧
      inv.status = .expired := by
  have untouched : ∀ ev ∈ history Sample.upstream Sample.world (dueRun .expirySweep 3),
      (ev.state.db.invoice.rows.all fun inv => inv.status ≠ .expired &&
        !(inv.slateId.isSome && ev.eff.lapses ev.state.now inv)) = true := by
    decide
  refine ⟨expired_cancelled _ Sample.lawful _ _ _ fun past ev rest hsplit => ?_, by decide⟩
  have hev : ev ∈ history Sample.upstream Sample.world (dueRun .expirySweep 3) := by
    rw [show history Sample.upstream Sample.world (dueRun .expirySweep 3) = past ++ ev :: rest from hsplit]
    exact List.mem_append_right _ List.mem_cons_self
  have row : ∀ i inv, ev.state.db.invoice.get i = some inv → inv.status ≠ .expired ∧
      (inv.slateId.isSome && ev.eff.lapses ev.state.now inv) = false := by
    intro i inv hget
    obtain ⟨h, h'⟩ := Bool.and_eq_true_iff.1 (List.all_eq_true.1 (untouched ev hev) inv (Table.mem_of_get hget))
    exact ⟨by simpa using h, by rw [Bool.not_eq_true'] at h'; exact h'⟩
  constructor
  · intro _ i inv sid hget harmed hlapses
    have := (row i inv hget).2
    rw [harmed.slate, hlapses] at this
    cases this
  · exact fun _ i inv _ hget _ => (row i inv hget).1

/-- A read of the invoice expires it, and its context can still be finalized. -/
theorem dueRun_lapsed : ¬ ExpiredCancelled Sample.upstream Sample.world (dueRun (.getInvoice "i") 2) := by
  intro hall
  have uncancelled : (history Sample.upstream Sample.world (dueRun (.getInvoice "i") 2)).all
      (fun ev => !ev.eff.cancels) = true := by decide
  obtain ⟨inv, hget, harmed, hexpired⟩ : ∃ inv,
      (after Sample.upstream Sample.world (dueRun (.getInvoice "i") 2)).state.db.invoice.get "i" = some inv ∧
        (inv.rail = some .grin1 ∧ inv.slateId = some "s") ∧ inv.status = .expired := by decide
  obtain ⟨hd, x, s, hmem, -⟩ := hall.expired "i" inv "s" hget ⟨harmed.1, harmed.2⟩ hexpired
  simpa [Eff.cancels] using List.all_eq_true.1 uncancelled _ hmem

end GoblinPay
