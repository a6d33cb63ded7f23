import GoblinPay.Async.Journal
import GoblinPay.Runs.Arming
import GoblinPay.Runs.Watch
import GoblinPay.Sample

/-!
# Finalizing an issued slate

The wallet finalizes a returned slate while it holds the slate's context, and no return leg ties
that to the live invoice: `finalize_tx` asks nothing, the paste form asks the row it read when
the request arrived. What keeps a late slate out is the context alone, and between the wallet and the
node not even that. So no armed invoice may be paid while its slate can still be finalized or is about
to be posted, and none may pass its expiry on the way.
-/

namespace GoblinPay

open Async Sql

/-- The seconds an operation lasts. -/
def Eff.lasts {β : Type} : Eff β → Nat
  | .elapse secs => secs
  | _ => 0

/-- The slate an operation asks the wallet to finalize. -/
def Eff.submits {β : Type} : Eff β → Option String
  | .finalizeTx slate => some slate.id
  | _ => none

/-- What a call has finalized and not posted yet, with the slate that came in. -/
def flightGain {β : Type} (g : Option (Slate × Slate)) : Eff β → β → Option (Slate × Slate)
  | .finalizeTx slate, .ok final => some (slate, final)
  | .postTx _, _ => none
  | _, _ => g

section

variable {W : Type} (U : Upstream W)

/-- The operations of a run, each with the call that performed it. -/
def entries (w : World W) (ms : Run) : List (Nat × Happening W) := Pool.journal (handler U) (code U) (Pool.start w) ms

/-- What the call `i` has in flight after `past`. -/
def flight (i : Nat) (past : List (Nat × Happening W)) : Option (Slate × Slate) :=
  (Pool.deeds i past).foldl (fun g ev => flightGain g ev.eff (ev.answer (handler U))) none

/-- The slate `sid` is finalized and its transaction not yet posted. -/
def InFlight (past : List (Nat × Happening W)) (sid : String) : Prop :=
  ∃ entry ∈ past, ∃ p ∈ flight U entry.1 past, p.1.id = sid

/-- The transaction of the slate `sid` can still be posted: the wallet can finalize it, or has. -/
def Live (past : List (Nat × Happening W)) (sid : String) (s : World W) : Prop :=
  U.holdsContext s.wallet sid = true ∨ InFlight U past sid

/-- After `past`, the operation pays no armed invoice that is not yet due and whose slate is live, attaches
a live slate only to an open invoice before its expiry, hands the wallet no slate it can finalize after
the expiry of its invoice, and takes no invoice past its expiry while its slate is in flight. -/
structure KeepsOpen (past : List (Nat × Happening W)) (ev : Happening W) : Prop where
  pay : ev.input.fault = none → ∀ i inv sid t, ev.state.db.invoice.get i = some inv → inv.Armed sid →
    Live U past sid ev.state → inv.due ev.state.now = false → ev.eff.write = some (.pay i t) → inv.status ≠ .open
  attach : ev.input.fault = none → ∀ i inv sid, ev.state.db.invoice.get i = some inv → Live U past sid ev.state →
    ev.eff.write = some (.arm i sid) → inv.status = .open ∧ inv.due ev.state.now = false
  late : ev.input.fault = none → ∀ i inv sid, ev.state.db.invoice.get i = some inv → inv.Armed sid →
    U.holdsContext ev.state.wallet sid = true → ev.eff.submits = some sid → inv.due ev.state.now = false
  passes : ∀ i inv sid, ev.state.db.invoice.get i = some inv → inv.Armed sid → InFlight U past sid →
    inv.due (ev.state.now + ev.eff.lasts) = false

/-- The invoice that issued the slate `sid` is open, and its expiry has not passed. -/
def IssuerOpen (sid : String) (s : World W) : Prop :=
  ∀ i inv, s.db.invoice.get i = some inv → inv.Armed sid → inv.status = .open ∧ inv.due s.now = false

/-- The wallet finalizes a returned slate only while the invoice that issued it is open, and what
is posted to the node was finalized so before by the same call, and is posted while the invoice is
still open. -/
structure FinalizedOpen (w : World W) (ms : Run) : Prop where
  finalized : ∀ i h slate x s final, (i, (⟨h, .finalizeTx slate, x, s⟩ : Happening W)) ∈ entries U w ms →
    (act U x s (.finalizeTx slate)).1 = .ok final → IssuerOpen slate.id s
  posted : ∀ past i h final x s rest, entries U w ms = past ++ (i, (⟨h, .postTx final, x, s⟩ : Happening W)) :: rest →
    ∃ h' slate x' s', (i, (⟨h', .finalizeTx slate, x', s'⟩ : Happening W)) ∈ past ∧
      (act U x' s' (.finalizeTx slate)).1 = .ok final ∧ IssuerOpen slate.id s' ∧ IssuerOpen slate.id s

/-- What the run keeps: a live slate whose invoice is not due belongs to an open one, and the invoice of
a slate in flight is not due. -/
structure HeldOpen (past : List (Nat × Happening W)) (s : World W) : Prop where
  opens : ∀ i inv sid, s.db.invoice.get i = some inv → inv.Armed sid → Live U past sid s →
    inv.due s.now = false → inv.status = .open
  intime : ∀ i inv sid, s.db.invoice.get i = some inv → inv.Armed sid → InFlight U past sid → inv.due s.now = false

variable {U}

theorem Eff.now_act {β : Type} (e : Eff β) (x : Answer) (s : World W) : (act U x s e).2.now = s.now + e.lasts := by
  cases e with
  | elapse => rfl
  | sql q => simp only [act, Eff.lasts]; split <;> simp
  | receiveTx | issueInvoiceTx | finalizeTx | cancelTx => simp only [act, Eff.lasts]; split <;> simp
  | _ => simp [act, Eff.lasts, World.restart]

/-! ## In flight -/

section Flight

variable {past : List (Nat × Happening W)} {ev : Happening W} {i j : Nat} {sid : String} {p : Slate × Slate}

theorem flight_snoc : flight U i (past ++ [(i, ev)]) = flightGain (flight U i past) ev.eff (ev.answer (handler U)) := by
  simp [flight]

theorem flight_other (hij : j ≠ i) : flight U i (past ++ [(j, ev)]) = flight U i past := by
  simp [flight, Pool.deeds_other hij]

/-- What is in flight after an operation was before, or the operation has just finalized it. -/
theorem flightGain_some {g : Option (Slate × Slate)} (h : flightGain g ev.eff (ev.answer (handler U)) = some p) :
    g = some p ∨ ∃ hd x s, ev = ⟨hd, .finalizeTx p.1, x, s⟩ ∧ (act U x s (.finalizeTx p.1)).1 = .ok p.2 := by
  obtain ⟨hd, e, x, s⟩ := ev
  cases e with
  | finalizeTx slate =>
    change flightGain g (.finalizeTx slate) (act U x s (.finalizeTx slate)).1 = some p at h
    rcases hr : (act U x s (.finalizeTx slate)).1 with m | final
    · rw [hr] at h
      exact Or.inl h
    · rw [hr] at h
      obtain rfl := Option.some.inj h
      exact Or.inr ⟨hd, x, s, rfl, hr⟩
  | postTx => cases h
  | _ => exact Or.inl h

/-- A call that has a slate in flight has finalized it. -/
theorem finalized_of_flight (h : flight U i past = some p) : ∃ hd x s,
    (i, (⟨hd, .finalizeTx p.1, x, s⟩ : Happening W)) ∈ past ∧ (act U x s (.finalizeTx p.1)).1 = .ok p.2 := by
  induction past using List.reverseRecOn with
  | nil => cases h
  | append_singleton past entry ih =>
    have earlier : flight U i past = some p → ∃ hd x s,
        (i, (⟨hd, .finalizeTx p.1, x, s⟩ : Happening W)) ∈ past ++ [entry] ∧ (act U x s (.finalizeTx p.1)).1 = .ok p.2 := by
      intro h
      obtain ⟨hd, x, s, hmem, hok⟩ := ih h
      exact ⟨hd, x, s, List.mem_append_left _ hmem, hok⟩
    obtain ⟨j, ev⟩ := entry
    by_cases hij : j = i
    · subst hij
      rw [flight_snoc] at h
      rcases flightGain_some h with h | ⟨hd, x, s, rfl, hok⟩
      · exact earlier h
      · exact ⟨hd, x, s, by simp, hok⟩
    · rw [flight_other hij] at h
      exact earlier h

theorem InFlight.of_flight (h : flight U i past = some p) : InFlight U past p.1.id := by
  obtain ⟨hd, x, s, hmem, -⟩ := finalized_of_flight h
  exact ⟨_, hmem, p, h, rfl⟩

/-- A slate that is in flight was before, or the wallet held its context and has just finalized it. -/
theorem InFlight.of_snoc (hU : U.Lawful) (h : InFlight U (past ++ [(j, ev)]) sid) : InFlight U past sid ∨
    ev.eff.submits = some sid ∧ ev.input.fault = none ∧ U.holdsContext ev.state.wallet sid = true := by
  obtain ⟨⟨i, ev'⟩, -, p, hp, rfl⟩ := h
  by_cases hij : j = i
  · subst hij
    rw [flight_snoc] at hp
    rcases flightGain_some hp with hp | ⟨hd, x, s, rfl, hok⟩
    · exact Or.inl (.of_flight hp)
    · rcases hf : x.fault with _ | m
      · simp only [act, hf] at hok
        exact Or.inr ⟨rfl, rfl, (hU.finalize_context (Prod.ext hok rfl)).1⟩
      · simp [act, hf] at hok
  · rw [flight_other hij] at hp
    exact Or.inl (.of_flight hp)

/-- A slate that is live and was issued before the operation was live then. -/
theorem Live.of_snoc (hU : U.Lawful) (hissued : U.hasIssued ev.state.wallet sid = true)
    (h : Live U (past ++ [(j, ev)]) sid (ev.after (handler U))) : Live U past sid ev.state := by
  rcases h with hheld | hflight
  · exact Or.inl ((ev.eff.held_before ev.input ev.state hU hheld).resolve_right fun h => h hissued)
  · rcases hflight.of_snoc hU with hflight | ⟨-, -, hheld⟩
    · exact Or.inr hflight
    · exact Or.inl hheld

/-- What is armed after an operation was armed before with the same expiry, or the operation attached
the slate. -/
theorem armed_before {inv' : Invoice} {i : String} (hget' : (ev.after (handler U)).db.invoice.get i = some inv')
    (harmed : inv'.Armed sid) : ∃ inv, ev.state.db.invoice.get i = some inv ∧ inv'.expiry = inv.expiry ∧
      (inv.Armed sid ∨ ev.input.fault = none ∧ ev.eff.write = some (.arm i sid)) := by
  rcases hf : ev.input.fault with _ | m
  · have change := ev.eff.invoice_change U ev.input ev.state i
    have hafter : (act U ev.input ev.state ev.eff).2.db.invoice.get i = some inv' := hget'
    rw [hafter] at change
    generalize hget : ev.state.db.invoice.get i = r at change
    cases change with
    | keep => exact ⟨inv', rfl, rfl, Or.inl harmed⟩
    | create => cases harmed.slate
    | @expire inv | @sweep inv | @pay inv | @confirm inv => exact ⟨inv, rfl, rfl, Or.inl ⟨harmed.rail, harmed.slate⟩⟩
    | @arm inv sid' _ hby =>
      obtain rfl : sid' = sid := Option.some.inj harmed.slate
      exact ⟨inv, rfl, rfl, Or.inr ⟨rfl, hby⟩⟩
  · refine ⟨inv', ?_, rfl, Or.inl harmed⟩
    rw [← ev.eff.db_of_fault U ev.input ev.state hf]
    exact hget'

end Flight

/-! ## One operation -/

theorem Invoice.due_congr {inv inv' : Invoice} (h : inv'.expiry = inv.expiry) (now : Time) : inv'.due now = inv.due now := by
  unfold Invoice.due
  rw [h]

section Step

variable {T : List (Happening W)} {past : List (Nat × Happening W)} {ev : Happening W} {j : Nat}

theorem HeldOpen.opens_step (hU : U.Lawful) (hs : HeldOpen U past ev.state) (hissued : SlatesIssued U ev.state)
    (hk : KeepsOpen U past ev) (hwr : ∀ wr, ev.eff.write = some wr → ArmFact U T ev.state wr) (i : String) (inv' : Invoice)
    (sid : String) (hget' : (ev.after (handler U)).db.invoice.get i = some inv') (harmed : inv'.Armed sid)
    (hlive' : Live U (past ++ [(j, ev)]) sid (ev.after (handler U))) (hdue' : inv'.due (ev.after (handler U)).now = false) :
    inv'.status = .open := by
  have hle : ev.state.now ≤ (ev.after (handler U)).now := ev.eff.now_le U ev.input ev.state
  -- not due after the operation, so not due before it
  have early : ∀ {inv : Invoice}, inv'.expiry = inv.expiry → inv.due ev.state.now = false := by
    intro inv hexpiry
    by_contra hdue
    rw [Bool.not_eq_false, ← Invoice.due_congr hexpiry] at hdue
    rw [Invoice.due_mono hle hdue] at hdue'
    cases hdue'
  have live : ∀ {inv}, ev.state.db.invoice.get i = some inv → inv.Armed sid → Live U past sid ev.state :=
    fun {inv} hget harmed => hlive'.of_snoc hU (hissued i sid ⟨inv, hget, harmed⟩)
  rcases hf : ev.input.fault with _ | m
  · have change := ev.eff.invoice_change U ev.input ev.state i
    have hafter : (act U ev.input ev.state ev.eff).2.db.invoice.get i = some inv' := hget'
    rw [hafter] at change
    generalize hget : ev.state.db.invoice.get i = r at change
    cases change with
    | keep => exact hs.opens i inv' sid hget harmed (live hget harmed) (early rfl)
    | create => rfl
    | @expire inv hby =>
      have hdue := (Bool.and_eq_true_iff.1 (Eff.overdue_of_lapses hby)).2
      cases (early rfl).symm.trans hdue
    | @sweep inv hby =>
      -- the sweep expires what was past its expiry already
      cases hwr _ hby with
      | expire _ due =>
        obtain ⟨inv₂, hget₂, hdue⟩ := due
        obtain rfl : inv = inv₂ := Option.some.inj (hget.symm.trans hget₂)
        cases (early rfl).symm.trans hdue
      | other _ expire => exact absurd rfl (expire i)
    | @pay inv t hby hopen =>
      have here : inv.Armed sid := ⟨harmed.rail, harmed.slate⟩
      exact absurd hopen (hk.pay hf i inv sid t hget here (live hget here) (early rfl) hby)
    | @arm inv sid' _ hby =>
      obtain rfl : sid' = sid := Option.some.inj harmed.slate
      cases hwr _ hby with
      | arm _ issued => exact (hk.attach hf i inv sid' hget (hlive'.of_snoc hU issued) hby).1
      | other arm _ => exact absurd rfl (arm i sid')
    | @confirm inv _ hpaid =>
      have here : inv.Armed sid := ⟨harmed.rail, harmed.slate⟩
      have hopen := hs.opens i inv sid hget here (live hget here) (early rfl)
      rw [hpaid] at hopen
      cases hopen
  · have hget : ev.state.db.invoice.get i = some inv' := by
      rw [← ev.eff.db_of_fault U ev.input ev.state hf]
      exact hget'
    exact hs.opens i inv' sid hget harmed (live hget harmed) (early rfl)

theorem KeepsOpen.intime_step (hU : U.Lawful) (hk : KeepsOpen U past ev) (i : String) (inv' : Invoice) (sid : String)
    (hget' : (ev.after (handler U)).db.invoice.get i = some inv') (harmed' : inv'.Armed sid)
    (hflight' : InFlight U (past ++ [(j, ev)]) sid) : inv'.due (ev.after (handler U)).now = false := by
  have hnow : (ev.after (handler U)).now = ev.state.now + ev.eff.lasts := ev.eff.now_act ev.input ev.state
  obtain ⟨inv, hget, hexpiry, harmed⟩ := armed_before hget' harmed'
  rw [Invoice.due_congr hexpiry, hnow]
  -- an operation that writes or hands a slate to the wallet takes no time
  have instant : ∀ {β : Type} {e : Eff β}, e.write ≠ none ∨ e.submits ≠ none → e.lasts = 0 := by
    intro β e h
    cases e with
    | elapse => simp [Eff.write, Eff.submits] at h
    | _ => rfl
  rcases hflight'.of_snoc hU with hflight | ⟨hsubmits, hf, hheld⟩
  · rcases harmed with harmed | ⟨hf, hby⟩
    · exact hk.passes i inv sid hget harmed hflight
    · rw [instant (Or.inl (by simp [hby])), Int.natCast_zero, Int.add_zero]
      exact (hk.attach hf i inv sid hget (Or.inr hflight) hby).2
  · rw [instant (Or.inr (by simp [hsubmits])), Int.natCast_zero, Int.add_zero]
    rcases harmed with harmed | ⟨-, hby⟩
    · exact hk.late hf i inv sid hget harmed hheld hsubmits
    · exact (hk.attach hf i inv sid hget (Or.inl hheld) hby).2

end Step

/-! ## What is posted -/

variable (U) in
/-- A call posts what it has in flight. -/
def flying (T : List (Happening W)) : Discipline (handler U) (Head Call (World W)) (Option (Slate × Slate)) where
  inv _ := True
  rely _ _ _ _ := True
  before _ g e _ := ∀ final, e.write = some (.post final) → ∃ slate, g = some (slate, final)
  allowed h e x s := (⟨h, e, x, s⟩ : Happening W) ∈ T
  gain := flightGain
  rely_refl _ _ _ := trivial
  rely_trans _ _ := trivial

section Posted

variable {T : List (Happening W)} {h : Head Call (World W)} {g : Option (Slate × Slate)} {s : World W}

theorem flying_of_writes {α : Type} {p : Io α} (hp : Prog.Writes (fun wr => ∀ final, wr ≠ .post final) p) :
    Meets (flying U T) h (fun _ _ _ => True) p g s :=
  Meets.of_only hp fun _ _ _ he final hwr => absurd rfl (he _ hwr final)

theorem flying_call (c : Call) (s : World W) : Meets (flying U T) ⟨c, s⟩ (fun _ _ _ => True) (code U c) none s := by
  by_cases hrail : c.IsRail
  · refine Rails.meets (D := flying U T) (T := T)
      { quiet := fun e g s he final hwr => ?_
        replied := fun t g s final hwr => ?_
        post := fun slate final g s _ final' hwr => ?_
        mem := fun _ _ _ hx => hx
        receive := fun r payer rc memo mode wh g s _ => ?_
        settle := fun f wh g s _ => ?_ } hrail
    · rw [show e.write = none from he] at hwr
      cases hwr
    · cases hwr
    · cases hwr
      exact ⟨slate, rfl⟩
    · exact flying_of_writes (Record.footprint_persistAndMatch r payer rc memo mode wh
        (fun _ h => by cases h) (fun _ _ h => by cases h) (fun _ _ h => by cases h) (fun _ h => by cases h) fun _ _ h => by cases h).writes
    · exact flying_of_writes (Foreign.footprint_settleFinalized f wh (fun _ _ h => by cases h) (fun _ _ h => by cases h)
        fun _ _ h => by cases h).writes
  · refine Meets.of_only (Call.writes U hrail) fun e g s he final hwr => ?_
    have hmay := he _ hwr
    cases c <;> simp [Call.mayWrite] at hmay

/-- The programs need nothing of each other for that. -/
def flyingProtocol (T : List (Happening W)) : Protocol (handler U) (code U) (Option (Slate × Slate)) where
  toDiscipline := flying U T
  init := none
  start_meets _ _ _ := flying_call _ _
  keeps _ _ _ _ := ⟨trivial, trivial⟩
  yields _ _ _ _ _ _ := trivial

variable {w : World W} {ms : Run}

theorem mem_history {i : Nat} {ev : Happening W} (h : (i, ev) ∈ entries U w ms) : ev ∈ history U w ms := by
  have hmap : (entries U w ms).map Prod.snd = history U w ms := Pool.journal_map (Pool.start w) ms
  rw [← hmap]
  exact List.mem_map_of_mem h

/-- In every run, what is posted is in flight. -/
theorem flight_of_post {past rest : List (Nat × Happening W)} {i : Nat} {x : Answer} {final : Slate}
    (hentries : entries U w ms = past ++ (i, (⟨h, .postTx final, x, s⟩ : Happening W)) :: rest) :
    ∃ slate, flight U i past = some (slate, final) := by
  have admitted : (flyingProtocol (history U w ms)).Admitted (Pool.start w) ms :=
    ⟨fun _ hev => hev, fun _ _ => trivial, List.pairwise_of_forall fun _ _ => trivial⟩
  obtain ⟨-, -, posts⟩ := Protocol.before_deeds (D := flyingProtocol (history U w ms)) trivial (fun _ => trivial) admitted hentries
  exact posts final rfl

end Posted

/-! ## Runs -/

/-- In every run whose operations keep the invoices of live slates open, on either return leg, a slate is
finalized and posted only while the invoice that issued it is open and not past its expiry. -/
theorem finalizedOpen (U : Upstream W) (hU : U.Lawful) (wallet : W) (now : Time) (ms : Run)
    (keeps : ∀ past i ev rest, entries U (World.fresh wallet now) ms = past ++ (i, ev) :: rest → KeepsOpen U past ev) :
    FinalizedOpen U (World.fresh wallet now) ms := by
  have issued : SlatesIssued U (World.fresh wallet now) :=
    fun i sid ⟨inv, hget, _⟩ => (World.fresh_invoice hget).elim
  have mem : ∀ {past i ev rest}, entries U (World.fresh wallet now) ms = past ++ (i, ev) :: rest →
      ev ∈ history U (World.fresh wallet now) ms := fun {past i ev rest} hsplit =>
    mem_history (i := i) (by rw [hsplit]; exact List.mem_append_right _ List.mem_cons_self)
  have held : ∀ {past i ev rest}, entries U (World.fresh wallet now) ms = past ++ (i, ev) :: rest →
      HeldOpen U past ev.state := by
    intro past i ev rest hsplit
    refine Pool.journal_inv (I := HeldOpen U) ⟨fun i inv sid hget => (World.fresh_invoice hget).elim,
      fun i inv sid hget => (World.fresh_invoice hget).elim⟩ (fun past i ev rest hsplit hs => ?_) hsplit
    obtain ⟨hissued, hwr⟩ := arm_run hU issued (mem hsplit)
    exact ⟨hs.opens_step hU hissued (keeps past i ev rest hsplit) hwr, (keeps past i ev rest hsplit).intime_step hU⟩
  have finalized : ∀ i h slate x s final,
      (i, (⟨h, .finalizeTx slate, x, s⟩ : Happening W)) ∈ entries U (World.fresh wallet now) ms →
      (act U x s (.finalizeTx slate)).1 = .ok final → IssuerOpen slate.id s := by
    intro i h slate x s final hmem hok k inv hget harmed
    obtain ⟨past, rest, hsplit⟩ := List.append_of_mem hmem
    rcases hf : x.fault with _ | m
    · simp only [act, hf] at hok
      have hheld := (hU.finalize_context (Prod.ext hok rfl)).1
      have hdue := (keeps past i _ rest hsplit).late hf k inv slate.id hget harmed hheld rfl
      exact ⟨(held hsplit).opens k inv slate.id hget harmed (Or.inl hheld) hdue, hdue⟩
    · simp [act, hf] at hok
  refine ⟨finalized, fun past i h final x s rest hsplit => ?_⟩
  obtain ⟨slate, hflight⟩ := flight_of_post hsplit
  obtain ⟨h', x', s', hmem, hok⟩ := finalized_of_flight hflight
  have hmem' : (i, (⟨h', .finalizeTx slate, x', s'⟩ : Happening W)) ∈ entries U (World.fresh wallet now) ms := by
    rw [hsplit]
    exact List.mem_append_left _ hmem
  refine ⟨h', slate, x', s', hmem, hok, finalized i h' slate x' s' final hmem' hok, fun k inv hget harmed => ?_⟩
  have inflight : InFlight U past slate.id := .of_flight hflight
  have hdue := (held hsplit).intime k inv slate.id hget harmed inflight
  exact ⟨(held hsplit).opens k inv slate.id hget harmed (Or.inr inflight) hdue, hdue⟩

end

/-! ## Two runs -/

/-- `POST /invoice` for 100, armed with the slate `s`; the calls `first` run, and then the payer's
I2 comes back over the Foreign API. Seven operations are enough for each. -/
def returnRun (first : List Call) : Run :=
  [.start (.createInvoice Sample.config 900 { amountGrin := some 100, matchMode := some "derived" }),
   .run 0 { text := "i" }, .run 0 { text := "tok" }, .run 0 {}, .run 0 {}, .run 0 {},
   .run 0 { text := "s" }, .run 0 {}, .run 0 {}, .run 0 {}, .run 0 {}] ++
  (first ++ [Call.foreignFinalize Sample.config ⟨4, ⟨"s", .invoice2, 0, none⟩⟩]).zipIdx.flatMap fun c : Call × Nat =>
    .start c.1 :: List.replicate 7 (.run (c.2 + 1) {})

/-- The write marks an invoice paid. -/
def Write.pays : Write → Bool
  | .pay .. => true
  | _ => false

/-- The I2 of an open invoice settles it. -/
theorem returnRun_open : FinalizedOpen Sample.upstream Sample.world (returnRun []) ∧
    (after Sample.upstream Sample.world (returnRun [])).state.posted = ["s"] := by
  have rows : ∀ ev ∈ history Sample.upstream Sample.world (returnRun []), ∀ inv ∈ ev.state.db.invoice.rows,
      inv.status = .open ∧ inv.expiry = none := by decide
  -- when the invoice is marked paid its context is gone, and what was finalized is posted
  have settled : ∀ k : Fin 17, (∀ entry ∈ (entries Sample.upstream Sample.world (returnRun []))[k.val]?,
      entry.2.eff.write.any Write.pays = true → entry.2.state.wallet.contexts = [] ∧
        ∀ e ∈ (entries Sample.upstream Sample.world (returnRun [])).take k,
          flight Sample.upstream e.1 ((entries Sample.upstream Sample.world (returnRun [])).take k) = none) := by decide
  refine ⟨finalizedOpen _ Sample.lawful _ _ _ fun past i ev rest hsplit => ?_, by decide⟩
  have hsplit : entries Sample.upstream Sample.world (returnRun []) = past ++ (i, ev) :: rest := hsplit
  have hev : ev ∈ history Sample.upstream Sample.world (returnRun []) :=
    mem_history (i := i) (by rw [hsplit]; exact List.mem_append_right _ List.mem_cons_self)
  have row : ∀ {k inv}, ev.state.db.invoice.get k = some inv → inv.status = .open ∧ ∀ now, inv.due now = false := by
    intro k inv hget
    obtain ⟨hopen, hexpiry⟩ := rows ev hev inv (Table.mem_of_get hget)
    exact ⟨hopen, fun now => by simp [Invoice.due, hexpiry]⟩
  constructor
  · intro _ k inv sid t hget _ hlive _ hwr
    have hlen : (entries Sample.upstream Sample.world (returnRun [])).length = 17 := by decide
    have hk : past.length < 17 := by
      rw [← hlen, hsplit]
      simp
    obtain ⟨gone, landed⟩ := settled ⟨past.length, hk⟩ (i, ev) (by simp [hsplit]) (by rw [hwr]; rfl)
    have gone : ev.state.wallet.contexts = [] := gone
    rcases hlive with hheld | ⟨entry, hmem, p, hp, -⟩
    · simp [Sample.upstream, gone] at hheld
    · have := landed entry (by simpa [hsplit] using hmem)
      simp only [hsplit, List.take_left'] at this
      rw [this] at hp
      cases hp
  · exact fun _ k inv sid hget _ _ => ⟨(row hget).1, (row hget).2 _⟩
  · exact fun _ k inv sid hget _ _ _ => (row hget).2 _
  · exact fun k inv sid hget _ _ => (row hget).2 _

/-- The invoice is paid over the relays first, and the I2 is finalized and posted all the same. -/
theorem returnRun_paid : ¬ FinalizedOpen Sample.upstream Sample.world
    (returnRun [.receive (Sample.received "t" 100) (some "payer") "mi" none .memo none]) := by
  intro hall
  obtain ⟨inv, hget, harmed, hpaid⟩ : ∃ inv, ((entries Sample.upstream Sample.world
      (returnRun [.receive (Sample.received "t" 100) (some "payer") "mi" none .memo none])).get
        ⟨16, by decide⟩).2.state.db.invoice.get "i" = some inv ∧
      (inv.rail = some .grin1 ∧ inv.slateId = some "s") ∧ inv.status = .paid := by decide
  have hopen := hall.finalized _ _ _ _ _ _ (List.get_mem _ ⟨16, by decide⟩) rfl "i" inv hget ⟨harmed.1, harmed.2⟩
  rw [hpaid] at hopen
  cases hopen.1

end GoblinPay
