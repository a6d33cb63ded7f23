import GoblinPay.Runs.Outside
import GoblinPay.Runs.Settled
import GoblinPay.Server.Checkout
import GoblinPay.Server.Ingest

/-!
# The three doors of a payment

A slate comes in over a relay, by the paste form or through the Foreign API. Every door takes it
with the wallet, then records and matches it the same way, and answers with the S2 or without.
`Door.Ends` lists how it can end, with what it settled.
-/

namespace GoblinPay

open Async Sql

inductive Door
  /-- the slatepack of a wrap, from the ingest -/
  | relay (armor : String) (ctx : IncomingContext)
  /-- a plain send pasted on the page of `inv` -/
  | paste (armor : String) (inv : Invoice)
  /-- `receive_tx` -/
  | foreign (slate : VersionedSlate)

namespace Door

section

variable {W : Type} (U : Upstream W) (cfg : Config)

/-- A door by the source's code for it. Its answer: whether the S2 is handed back. -/
def code : Door → Io Bool
  | relay armor ctx => Except.isOk <$> WalletReceiver.receive U cfg armor ctx
  | paste armor inv => PasteResult.ok <$> Checkout.pasteS1 U cfg inv armor
  | foreign slate => Except.isOk <$> Foreign.receiveTx U cfg slate

/-- The wallet's part. -/
def take : Door → Io (Option Received)
  | relay armor _ => Except.toOption <$> (GpWallet.receiveSlatepack U armor).run
  | paste armor _ => Except.toOption <$> (GpWallet.receiveSlatepack U armor).run
  | foreign slate => (fun r => r.toOption.map Prod.snd) <$> (GpWallet.receiveSlate U slate).run

def payer : Door → Option String
  | relay _ ctx => some ctx.payerHex
  | paste .. | foreign _ => none

def recipient : Door → String
  | relay _ ctx => ctx.recipientHex
  | paste _ inv => inv.recipientPubkey.getD ""
  | foreign _ => ""

def memo : Door → Option String
  | relay _ ctx => ctx.memo
  | paste _ inv => inv.orderRef
  | foreign _ => none

/-- The default mode the door hands to the matcher. -/
def mode : Door → MatchMode
  | relay .. | paste .. => cfg.matchMode
  | foreign _ => .amount

/-- The payment the door presents to the matcher. -/
def incoming (d : Door) (slate : Slate) : IncomingPayment := ⟨slate.id, slate.amount, d.recipient, d.memo⟩

/-- Whether the S2 goes out after this outcome: the Foreign API does not look at it. -/
def hands : Door → PersistOutcome → Bool
  | relay .., .matched _ | paste .., .matched _ => true
  | relay .., .rejected _ | paste .., .rejected _ => false
  | foreign _, _ => true

/-- What the door records and matches of a received slate. -/
def record (d : Door) (received : Received) : Io PersistOutcome :=
  Record.persistAndMatch received d.payer d.recipient d.memo (d.mode cfg) cfg.webhookPair

/-- Every door is: take the slate, then record and match it. -/
theorem code_eq (d : Door) : d.code U cfg = d.take U >>= fun r => match r with
    | none => .ret false
    | some received => d.record cfg received >>= fun out => .ret (d.hands out) := by
  cases d with
  | relay armor ctx =>
    refine (Prog.bind_assoc _ _ _).trans (Eq.trans ?_ (Prog.bind_assoc _ _ _).symm)
    refine congrArg (Prog.bind _) (funext fun r => ?_)
    cases r with
    | error e => rfl
    | ok received =>
      refine (Prog.bind_assoc _ _ _).trans (congrArg (Prog.bind _) (funext fun out => ?_))
      cases out <;> rfl
  | paste armor inv =>
    refine (Prog.bind_assoc _ _ _).trans (Eq.trans ?_ (Prog.bind_assoc _ _ _).symm)
    refine congrArg (Prog.bind _) (funext fun r => ?_)
    cases r with
    | error e => rfl
    | ok received =>
      refine (Prog.bind_assoc _ _ _).trans (congrArg (Prog.bind _) (funext fun out => ?_))
      cases out <;> rfl
  | foreign slate =>
    refine (Prog.bind_assoc _ _ _).trans (Eq.trans ?_ (Prog.bind_assoc _ _ _).symm)
    refine congrArg (Prog.bind _) (funext fun r => ?_)
    rcases r with e | ⟨out, received⟩
    · rfl
    · exact (Prog.bind_assoc _ _ _).trans ((Prog.bind_assoc _ _ _).trans rfl)

/-- The S1 the door brings, read with the wallet `w`. -/
def sent (w : W) : Door → Option Slate
  | relay armor _ | paste armor _ =>
    (U.slateFromSlatepackMessage w (Text.trim armor)).toOption.filter fun slate => slate.state = .standard1
  | foreign inSlate => if inSlate.slate.state = .standard1 then some inSlate.slate else none

/-- What is recorded of a received slate, in the wallet `w` that logged it. -/
def bundled (w : W) (s2 slate : Slate) : Option Received := do
  let kernelExcess ← U.loggedExcess w slate.id
  let proof ← (GpWallet.buildProof U s2 slate.amount kernelExcess).toOption
  let s2Armor ← (U.createSlatepackMessage w s2).toOption
  some { slateId := s2.id, amount := slate.amount, s2Armor, kernelExcess, proof }

/-- Whether the answer can be put in the version it was asked in. -/
def encodes (s2 : Slate) : Door → Bool
  | relay .. | paste .. => true
  | foreign inSlate => (U.intoVersion s2 inSlate.version).isOk

/-- What the wallet hands to the ledger when no call fails and `receive_tx` gets the answer `x`. -/
def takes (x : Answer) (w : W) (d : Door) : Option Received :=
  match d.sent U w with
  | none => none
  | some slate =>
    match U.receiveTx x slate w with
    | (.error _, _) => none
    | (.ok s2, w') => (bundled U w' s2 slate).filter fun _ => d.encodes U s2

theorem amount_of_takes {x : Answer} {w : W} {d : Door} {received : Received} (h : d.takes U x w = some received) :
    ∃ slate, d.sent U w = some slate ∧ received.amount = slate.amount := by
  unfold takes at h
  split at h
  · cases h
  · rename_i slate hsent
    split at h
    · cases h
    · refine ⟨slate, hsent, ?_⟩
      obtain ⟨hb, -⟩ := Option.filter_eq_some_iff.1 h
      simp only [bundled, Option.bind_eq_bind, Option.bind_eq_some_iff, Option.some.injEq] at hb
      obtain ⟨_, -, _, -, _, -, rfl⟩ := hb
      rfl

end

end Door

/-- The calls of the wallet that a receive makes. -/
def Eff.OfReceive {β : Type} : Eff β → Prop
  | .slateFromSlatepackMessage _ | .createSlatepackMessage _ | .receiveTx _ | .retrieveTxs _ | .intoVersion _ _ => True
  | _ => False

section

variable {W Own : Type} {U : Upstream W} {P : Own → World W → Prop} {A : {β : Type} → Eff β → Answer → Prop}
  {gain : {β : Type} → Own → Eff β → β → Own} {g : Own} {s : World W}

theorem act_receiveTx_ok {x : Answer} {slate s2 : Slate} (h : (act U x s (.receiveTx slate)).1 = .ok s2) :
    x.fault = none ∧ ∃ w', U.receiveTx x slate s.wallet = (.ok s2, w') ∧
      (act U x s (.receiveTx slate)).2 = { s with wallet := w' } := by
  rcases hf : x.fault with _ | m
  · simp only [act, hf] at h ⊢
    exact ⟨trivial, _, Prod.ext h rfl, rfl⟩
  · simp [act, hf] at h

theorem act_receiveTx_error {x : Answer} {slate : Slate} {m : String} (h : (act U x s (.receiveTx slate)).1 = .error m) :
    ∃ w', (act U x s (.receiveTx slate)).2 = { s with wallet := w' } ∧
      (x.fault ≠ none ∨ x.fault = none ∧ U.receiveTx x slate s.wallet = (.error m, w')) := by
  rcases hf : x.fault with _ | m'
  · simp only [act, hf] at h ⊢
    exact ⟨_, rfl, Or.inr ⟨trivial, Prod.ext h rfl⟩⟩
  · simp only [act, hf]
    exact ⟨s.wallet, rfl, Or.inl (by simp)⟩

section

variable (silent : ∀ {β : Type} (e : Eff β) b, e.OfReceive → gain g e b = g)

include silent

theorem request_bundle (hP : P g s) (s2 slate : Slate) :
    Meets (request U P A gain) () (fun (r : Except WalletError Received) g' s' => g' = g ∧ s' = s ∧
      (r.toOption = Door.bundled U s.wallet s2 slate ∨ r.toOption = none ∧ Faulty A))
      (GpWallet.bundle U s2 slate.id slate.amount).run g s := by
  refine Meets.tryThen (P := fun (r : Except WalletError String) g' s' => g' = g ∧ s' = s ∧
    (r.toOption = U.loggedExcess s.wallet slate.id ∨ r.toOption = none ∧ Faulty A)) ?_ (fun kernel g s _ hr => ?_)
    fun e g s _ hr => ?_
  · refine request_upstream hP (fun x a hx ha => ?_) fun x m hx hm => ?_
    · obtain ⟨-, hlog⟩ := Answer.of_orElse_ok ha
      rw [silent (.retrieveTxs slate.id) _ trivial]
      obtain rfl : U.loggedExcess s.wallet slate.id = a := Except.ok.inj hlog
      cases hlog : U.loggedExcess s.wallet slate.id with
      | some kernel => exact Meets.soloRet ⟨rfl, rfl, Or.inl rfl⟩
      | none => exact Meets.soloRet ⟨rfl, rfl, Or.inl rfl⟩
    · rw [silent (.retrieveTxs slate.id) _ trivial]
      rcases Answer.of_orElse_error hm with hf | hlog
      · exact ⟨rfl, rfl, Or.inr ⟨rfl, _, _, x, hx, hf⟩⟩
      · cases hlog
  · obtain ⟨rfl, rfl, hlog | ⟨hnone, -⟩⟩ := hr
    swap
    · cases hnone
    have hkernel : U.loggedExcess s.wallet slate.id = some kernel := hlog.symm
    cases hproof : GpWallet.buildProof U s2 slate.amount kernel with
    | error e =>
      refine Meets.soloRet ⟨rfl, rfl, Or.inl ?_⟩
      simp [Door.bundled, hkernel, hproof, Except.toOption]
    | ok proof =>
      refine request_upstream hP (fun x a hx ha => ?_) fun x m hx hm => ?_
      · obtain ⟨-, harmor⟩ := Answer.of_orElse_ok ha
        rw [silent (.createSlatepackMessage s2) _ trivial]
        refine Meets.soloRet ⟨rfl, rfl, Or.inl ?_⟩
        simp [Door.bundled, hkernel, hproof, harmor, Except.toOption]
      · rw [silent (.createSlatepackMessage s2) _ trivial]
        rcases Answer.of_orElse_error hm with hf | harmor
        · exact ⟨rfl, rfl, Or.inr ⟨rfl, _, _, x, hx, hf⟩⟩
        · refine ⟨rfl, rfl, Or.inl ?_⟩
          simp [Door.bundled, hkernel, harmor, Except.toOption]
  · obtain ⟨rfl, rfl, hlog | ⟨hnone, hf⟩⟩ := hr
    · refine Meets.soloRet ⟨rfl, rfl, Or.inl ?_⟩
      have hnone : U.loggedExcess s.wallet slate.id = none := hlog.symm
      simp [Door.bundled, hnone, Except.toOption]
    · exact Meets.soloRet ⟨rfl, rfl, Or.inr ⟨rfl, hf⟩⟩

/-- What the wallet's part tells: the outcome of `Door.takes` for the answer `receive_tx` got, or a
failure. -/
def Taken (U : Upstream W) (A : {β : Type} → Eff β → Answer → Prop) (d : Door) (w : W) (r : Option Received) : Prop :=
  (∃ x, (∀ slate, d.sent U w = some slate → A (.receiveTx slate) x ∧ x.fault = none) ∧ r = d.takes U x w) ∨
    r = none ∧ Faulty A

omit silent in
theorem Taken.refused {d : Door} {w : W} (h : d.sent U w = none) : Taken U A d w none := by
  refine Or.inl ⟨{}, fun slate hs => ?_, ?_⟩
  · rw [h] at hs
    cases hs
  · simp only [Door.takes, h]

/-- The receive itself, for the S1 the door brings. -/
theorem request_receiveTx {γ : Type} {Q : Except WalletError γ → Own → World W → Prop} {f : Slate → ExceptT WalletError Io γ}
    {d : Door} {slate : Slate} (hsent : d.sent U s.wallet = some slate) (hP : P g s)
    (hok : ∀ x s2 w', A (.receiveTx slate) x → x.fault = none → U.receiveTx x slate s.wallet = (.ok s2, w') →
      Meets (request U P A gain) () Q (f s2).run g { s with wallet := w' })
    (herror : ∀ e w', Taken U A d s.wallet none → Q (.error e) g { s with wallet := w' }) :
    Meets (request U P A gain) () Q (GpWallet.upstream (.receiveTx slate) >>= f).run g s := by
  refine request_upstream hP (fun x s2 hx hs2 => ?_) fun x m hx hm => ?_
  · obtain ⟨hf, w', hw, hstep⟩ := act_receiveTx_ok hs2
    rw [silent (.receiveTx slate) _ trivial, hstep]
    exact hok x s2 w' hx hf hw
  · obtain ⟨w', hstep, hf | ⟨hf, hw⟩⟩ := act_receiveTx_error hm
    · rw [silent (.receiveTx slate) _ trivial, hstep]
      exact herror _ w' (Or.inr ⟨rfl, _, _, x, hx, hf⟩)
    · rw [silent (.receiveTx slate) _ trivial, hstep]
      refine herror _ w' (Or.inl ⟨x, fun slate' hs => ?_, ?_⟩)
      · rw [hsent] at hs
        cases hs
        exact ⟨hx, hf⟩
      · simp only [Door.takes, hsent, hw]

theorem request_receiveSlatepack (hP : ∀ w', P g { s with wallet := w' }) (armor : String) (ctx : IncomingContext) :
    Meets (request U P A gain) () (fun (r : Except WalletError Received) g' s' => g' = g ∧
      (∃ w', s' = { s with wallet := w' }) ∧ Taken U A (.relay armor ctx) s.wallet r.toOption)
      (GpWallet.receiveSlatepack U armor).run g s := by
  refine request_upstream (hP s.wallet) (fun x slate hx ha => ?_) fun x m hx hm => ?_
  · obtain ⟨-, hdecode⟩ := Answer.of_orElse_ok ha
    rw [silent (.slateFromSlatepackMessage (Text.trim armor)) _ trivial]
    have hsent : (Door.relay armor ctx).sent U s.wallet = if slate.state = .standard1 then some slate else none := by
      simp [Door.sent, hdecode, Except.toOption, Option.filter_some]
    split
    · rename_i hstate
      rw [if_pos hstate] at hsent
      refine request_receiveTx silent hsent (hP s.wallet) (fun y s2 w' hy hf hw => ?_) fun e w' hr => ?_
      · refine (request_bundle silent (hP w') s2 slate).mono fun r g' s' _ hr => ?_
        obtain ⟨rfl, rfl, hb | hb⟩ := hr
        · refine ⟨rfl, ⟨w', rfl⟩, Or.inl ⟨y, fun slate' hs => ?_, ?_⟩⟩
          · rw [hsent] at hs
            cases hs
            exact ⟨hy, hf⟩
          · have hw : U.receiveTx y slate s.wallet = (.ok s2, w') := hw
            simp only [Door.takes, hsent, hw]
            rw [hb]
            cases Door.bundled U w' s2 slate <;> rfl
        · exact ⟨rfl, ⟨w', rfl⟩, Or.inr hb⟩
      · exact ⟨rfl, ⟨w', rfl⟩, hr⟩
    · rename_i hstate
      rw [if_neg hstate] at hsent
      exact Meets.soloRet ⟨rfl, ⟨s.wallet, rfl⟩, .refused hsent⟩
  · rw [silent (.slateFromSlatepackMessage (Text.trim armor)) _ trivial]
    rcases Answer.of_orElse_error hm with hf | hdecode
    · exact ⟨rfl, ⟨s.wallet, rfl⟩, Or.inr ⟨rfl, _, _, x, hx, hf⟩⟩
    · refine ⟨rfl, ⟨s.wallet, rfl⟩, .refused ?_⟩
      simp [Door.sent, hdecode, Except.toOption]

theorem request_receiveSlate (hP : ∀ w', P g { s with wallet := w' }) (inSlate : VersionedSlate) :
    Meets (request U P A gain) () (fun (r : Except WalletError (VersionedSlate × Received)) g' s' => g' = g ∧
      (∃ w', s' = { s with wallet := w' }) ∧ Taken U A (.foreign inSlate) s.wallet (r.toOption.map Prod.snd))
      (GpWallet.receiveSlate U inSlate).run g s := by
  have hsent : (Door.foreign inSlate).sent U s.wallet =
      if inSlate.slate.state = .standard1 then some inSlate.slate else none := rfl
  unfold GpWallet.receiveSlate
  dsimp only
  split
  · rename_i hstate
    rw [if_pos hstate] at hsent
    refine request_receiveTx silent hsent (hP s.wallet) (fun y s2 w' hy hf hw => ?_) fun e w' hr => ?_
    · have told : ∀ slate', (Door.foreign inSlate).sent U s.wallet = some slate' → A (.receiveTx slate') y ∧ y.fault = none := by
        intro slate' hs
        rw [hsent] at hs
        cases hs
        exact ⟨hy, hf⟩
      refine Meets.tryThen (request_bundle silent (hP w') s2 inSlate.slate) (fun received g' s' _ hr => ?_) fun e g' s' _ hr => ?_
      · obtain ⟨rfl, rfl, hb | ⟨hnone, -⟩⟩ := hr
        swap
        · cases hnone
        have hbundled : Door.bundled U w' s2 inSlate.slate = some received := hb.symm
        refine request_upstream (hP w') (fun x out hx hout => ?_) fun x m hx hm => ?_
        · obtain ⟨-, hout⟩ := Answer.of_orElse_ok hout
          rw [silent (.intoVersion s2 inSlate.version) _ trivial]
          refine Meets.soloRet ⟨rfl, ⟨w', rfl⟩, Or.inl ⟨y, told, ?_⟩⟩
          simp [Door.takes, hsent, hw, Door.encodes, hbundled, hout, Except.toOption, Except.isOk, Except.toBool,
            Option.filter_some]
        · rw [silent (.intoVersion s2 inSlate.version) _ trivial]
          rcases Answer.of_orElse_error hm with hf | hout
          · exact ⟨rfl, ⟨w', rfl⟩, Or.inr ⟨rfl, _, _, x, hx, hf⟩⟩
          · refine ⟨rfl, ⟨w', rfl⟩, Or.inl ⟨y, told, ?_⟩⟩
            simp [Door.takes, hsent, hw, Door.encodes, hbundled, hout, Except.toOption, Except.isOk, Except.toBool,
              Option.filter_some]
      · obtain ⟨rfl, rfl, hb | ⟨-, hfault⟩⟩ := hr
        · have hbundled : Door.bundled U w' s2 inSlate.slate = none := hb.symm
          refine Meets.soloRet ⟨rfl, ⟨w', rfl⟩, Or.inl ⟨y, told, ?_⟩⟩
          simp [Door.takes, hsent, hw, hbundled, Except.toOption]
        · exact Meets.soloRet ⟨rfl, ⟨w', rfl⟩, Or.inr ⟨rfl, hfault⟩⟩
    · exact ⟨rfl, ⟨w', rfl⟩, hr⟩
  · rename_i hstate
    rw [if_neg hstate] at hsent
    exact Meets.soloRet ⟨rfl, ⟨s.wallet, rfl⟩, .refused hsent⟩

/-- The wallet's part of every door leaves the ledger and the clock alone. -/
theorem request_take (hP : ∀ w', P g { s with wallet := w' }) (d : Door) :
    Meets (request U P A gain) () (fun r g' s' => g' = g ∧ (∃ w', s' = { s with wallet := w' }) ∧ Taken U A d s.wallet r)
      (d.take U) g s := by
  cases d with
  | relay armor ctx =>
    exact Meets.andThen (request_receiveSlatepack silent hP armor ctx) fun r g s _ hr => Meets.soloRet hr
  | paste armor inv =>
    exact Meets.andThen (request_receiveSlatepack silent hP armor ⟨"", "", none⟩) fun r g s _ hr => Meets.soloRet hr
  | foreign inSlate => exact Meets.andThen (request_receiveSlate silent hP inSlate) fun r g s _ hr => Meets.soloRet hr

end

/-! ## Recording and matching -/

/-- Whether a statement that decides the match has failed. -/
def undecided {β : Type} (g : Bool) : Eff β → β → Bool
  | .sql q, r => g || (q.decides && !r.isOk)
  | _, _ => g

/-- Whether one failed in an execution of the program. -/
def matchFailed {α : Type} (U : Upstream W) (p : Io α) (xs : List Answer) (w : World W) : Bool :=
  (p.events (handler U) () xs w).foldl (fun g ev => undecided g ev.eff (ev.answer (handler U))) false

variable {g : Bool} {β : Type}

@[simp] theorem undecided_ok {q : Stmt β} (b : β) : undecided g (.sql q) (.ok b) = g := by
  simp [undecided, Except.isOk, Except.toBool]

theorem undecided_error {q : Stmt β} (e : SqlxError) (h : q.decides = true) : undecided g (.sql q) (.error e) = true := by
  simp [undecided, h, Except.isOk, Except.toBool]

/-- What decides no match says nothing of it. -/
theorem undecided_other {q : Stmt β} (r : Except SqlxError β) (h : q.decides = false) : undecided g (.sql q) r = g := by
  simp [undecided, h]

theorem undecided_receive (e : Eff β) (b : β) (he : e.OfReceive) : undecided g e b = g := by
  cases e <;> first | exact he.elim | rfl

theorem undecided_notify (e : Eff β) (b : β) (he : e.OfNotify) : undecided g e b = g := by
  rcases he with _ | _ | ⟨⟨⟩⟩ <;> simp [undecided, Stmt.decides]

variable {r : Received} {payer : Option String} {rc : String} {memo : Option String} {mode : MatchMode}
  {wh : Option (String × String)} {incoming : IncomingPayment} {Q : Bool → World W → Prop}

/-- A request on its own that notes whether its match was decided. -/
abbrev matching (U : Upstream W) (Q : Bool → World W → Prop) (A : {β : Type} → Eff β → Answer → Prop) :
    Discipline (handler U) Unit Bool :=
  request U Q A fun g => undecided g

/-- How recording and matching a received payment ends, on its own from `s`, and whether a statement
that decides the match failed. -/
inductive Record.Ends (B : Answer → Prop) (mode : MatchMode) (incoming : IncomingPayment) (s : World W) :
    Bool → PersistOutcome → World W → Prop
  | failed {x : Answer} {s' : World W} (hx : B x) (fault : x.fault ≠ none) (unsettled : ∀ j, ¬ Settled s s' j) :
      Ends B mode incoming s true (.matched {}) s'
  | unmatched {x : Answer} {res : MatchResult} {s' : World W} (hx : B x)
      (resolved : s.db.resolve s.now mode incoming x.choice = none) (unsettled : ∀ j, ¬ Settled s s' j) :
      Ends B mode incoming s false (.matched res) s'
  | rejected {x : Answer} {inv : Invoice} {m : AmountMismatch} {s' : World W} (hx : B x)
      (resolved : s.db.resolve s.now mode incoming x.choice = some inv)
      (guard : Matching.mismatch incoming.amount inv.expectedAmount = some m) (unsettled : ∀ j, ¬ Settled s s' j) :
      Ends B mode incoming s false (.rejected m) s'
  | settled {x : Answer} {inv : Invoice} {res : MatchResult} {s' : World W} (hx : B x)
      (resolved : s.db.resolve s.now mode incoming x.choice = some inv)
      (guard : Matching.mismatch incoming.amount inv.expectedAmount = none) (settles : SettledAlone s s' inv.id) :
      Ends B mode incoming s false (.matched res) s'

/-- The notification settles nothing. -/
theorem request_notify (hQ : ∀ s', SameSettled s s' → Q g s') (matched : MatchResult) :
    Meets (matching U Q A) () (fun _ g' s' => g' = g ∧ SameSettled s s') (Record.notify r payer matched wh) g s := by
  have queues : ∀ {β : Type} {e : Eff β}, e.OfNotify → ∀ wr, e.write = some wr → ∃ payload, wr = .enqueue payload := by
    intro β e he wr hwr
    rcases he with _ | _ | ⟨⟨⟩⟩ <;> cases hwr
    exact ⟨_, rfl⟩
  refine Meets.of_only_carry (K := fun g' s' => g' = g ∧ SameSettled s s') (Record.only_notify r payer matched wh)
    ⟨rfl, SameSettled.refl s⟩ (fun _ _ _ hr _ hK => ?_) (fun _ _ _ _ _ hK => ?_) fun e x g' s' he _ hK _ => ?_
  · obtain rfl := hr
    exact hK
  · obtain ⟨rfl, hK⟩ := hK
    exact hQ _ hK
  · obtain ⟨rfl, hK⟩ := hK
    exact ⟨undecided_notify e _ he, hK.trans (.of_act (queues he))⟩

theorem request_matched {res : MatchResult} (hres : res.amountMismatch = none) (hQ : ∀ s', SameSettled s s' → Q g s') :
    Meets (matching U Q A) () (fun out g' s' => out = .matched res ∧ g' = g ∧ SameSettled s s') (Record.conclude r payer wh res) g s := by
  unfold Record.conclude
  rw [hres]
  exact Meets.andThen (request_notify hQ res) fun _ _ _ _ hK => Meets.soloRet ⟨rfl, hK⟩

/-- A failed delete leaves the payment's row, and the answer is the same. -/
theorem request_rejected {s₂ : World W} {res : MatchResult} {m : AmountMismatch} (hres : res.amountMismatch = some m)
    (unsettled : ∀ j, ¬ Settled s s₂ j) (hQ : Q g s₂) :
    Meets (matching U Q A) () (fun out g' s' => out = .rejected m ∧ g' = g ∧ ∀ j, ¬ Settled s s' j)
      (Record.conclude r payer wh res) g s₂ := by
  unfold Record.conclude
  rw [hres]
  refine request_sql (q := .deletePayment r.slateId) (f := fun _ => .ret (PersistOutcome.rejected m)) hQ (fun x b _ _ _ => ?_) fun x e _ _ => ?_
  · refine Meets.soloRet ⟨rfl, undecided_ok b, fun j hj => ?_⟩
    rcases hj.split s₂ with hj | hj
    · exact unsettled j hj
    · obtain ⟨wr, hwr, settles⟩ := hj.of_exec
      cases hwr
      cases settles
  · exact Meets.soloRet ⟨rfl, undecided_other _ rfl, unsettled⟩

/-- The row of the payment itself is inserted, or not, unlinked. -/
theorem request_insertPayment {row : PaymentRow} (hrow : row.invoiceId = none) (hQ : Q g s) :
    Meets (matching U Q A) () (fun _ g' s' => g' = g ∧ s'.db.invoice = s.db.invoice ∧ s'.now = s.now ∧ SameSettled s s')
      (discard (sql (.insertPayment row)).run) g s := by
  refine request_sql (q := .insertPayment row) (f := fun _ => .ret ()) hQ (fun x b _ _ _ => ?_) fun x e _ _ => ?_
  · have invoices : (s.exec (.insertPayment row) x.choice).db.invoice = s.db.invoice := by
      simp only [World.exec, Stmt.exec, inserted]
      split <;> rfl
    refine Meets.soloRet ⟨undecided_ok b, invoices, rfl, fun j => ⟨fun hj => ?_, ?_⟩⟩
    · obtain ⟨wr, hwr, settles⟩ := hj.of_exec
      cases hwr
      cases settles with
      | insert _ link =>
        rw [hrow] at link
        cases link
    · rintro (⟨inv, paid, new⟩ | ⟨inv, link, new⟩)
      · exact new _ (invoices ▸ inv) paid
      · rename_i t p
        have change := (Stmt.insertPayment row).payment_change s.now x.choice s.db t
        rw [inv] at change
        generalize hget : ((Stmt.insertPayment row).exec s.now x.choice s.db).2.payment.get t = after at change
        cases change with
        | keep => exact new _ hget link
        | link by_ | delete by_ | deepen by_ | reply by_ => cases by_
  · exact Meets.soloRet ⟨undecided_other _ rfl, rfl, rfl, .refl s⟩

theorem Matching.Lands.congr {B : Answer → Prop} {s' : World W} {j : String} (h : Matching.Lands B mode incoming s' j)
    (hdb : s'.db.invoice = s.db.invoice) (hnow : s'.now = s.now) : Matching.Lands B mode incoming s j := by
  obtain ⟨x, inv, hx, resolved, guard, hid⟩ := h
  rw [hnow, Db.resolve_congr hdb] at resolved
  exact ⟨x, inv, hx, resolved, guard, hid⟩

/-- What may have been settled between `s` and `s'`: nothing where the match was not decided, and
otherwise what it lands on. -/
def Landed (L : String → Prop) (s : World W) (g : Bool) (s' : World W) : Prop := ∀ j, Settled s s' j → g = false ∧ L j

theorem Landed.same {L : String → Prop} {s' : World W} (h : SameSettled s s') (g : Bool) : Landed L s g s' :=
  fun j hj => absurd hj (h j).1

/-- `persist_and_match` ends in one of the ways of `Record.Ends`, and wherever it stops it has settled
an invoice the payment leads to, or none. -/
theorem request_persistAndMatch
    (hQ : ∀ g s', Landed (Matching.Lands (OnSql A) mode ⟨r.slateId, r.amount, rc, memo⟩ s) s g s' → Q g s') :
    Meets (matching U Q A) ()
      (fun out g s' => Record.Ends (OnSql A) mode ⟨r.slateId, r.amount, rc, memo⟩ s g out s' ∧
        Landed (Matching.Lands (OnSql A) mode ⟨r.slateId, r.amount, rc, memo⟩ s) s g s')
      (Record.persistAndMatch r payer rc memo mode wh) false s := by
  refine Meets.andThen (request_insertPayment rfl (hQ false s (.same (.refl s) false))) fun _ g₁ s₁ _ h₁ => ?_
  obtain ⟨rfl, hdb, hnow, inserted⟩ := h₁
  have same : ∀ n, s₁.db.resolve s₁.now mode ⟨r.slateId, r.amount, rc, memo⟩ n =
      s.db.resolve s.now mode ⟨r.slateId, r.amount, rc, memo⟩ n := fun n => by rw [hnow, Db.resolve_congr hdb]
  refine Meets.andThen (request_matchPayment (fun _ b _ => undecided_ok b) (hQ false s₁ (.same inserted false))
    fun x inv hx hres hm => hQ false _ fun j hj => ⟨rfl, ?_⟩) fun res g₂ s₂ _ hends => ?_
  · rw [same] at hres
    exact ⟨x, inv, hx, hres, hm, (inserted.before.1 hj).of_markPaid.symm⟩
  have lands : ∀ j, Settled s s₂ j → Matching.Lands (OnSql A) mode ⟨r.slateId, r.amount, rc, memo⟩ s j := fun j hj =>
    (hends.lands (inserted.before.1 hj)).congr hdb hnow
  -- what is left of the source is the undo of a rejected payment, or the notification
  have conclude : ∀ {res : MatchResult} {g : Bool}, res.amountMismatch = none → Landed (Matching.Lands (OnSql A) mode
      ⟨r.slateId, r.amount, rc, memo⟩ s) s g s₂ → (∀ s', SameSettled s₂ s' →
        Record.Ends (OnSql A) mode ⟨r.slateId, r.amount, rc, memo⟩ s g (.matched res) s') →
      Meets (matching U Q A) () (fun out g s' => Record.Ends (OnSql A) mode ⟨r.slateId, r.amount, rc, memo⟩ s g out s' ∧
          Landed (Matching.Lands (OnSql A) mode ⟨r.slateId, r.amount, rc, memo⟩ s) s g s')
        (Record.conclude r payer wh res) g s₂ := by
    intro res g hres landed hend
    refine (request_matched hres fun s' hK => hQ g s' fun j hj => landed j (hK.after.2 hj)).mono fun out _ s' _ hout => ?_
    obtain ⟨rfl, rfl, hK⟩ := hout
    exact ⟨hend s' hK, fun j hj => landed j (hK.after.2 hj)⟩
  cases hends with
  | failed hx fault hg =>
    obtain ⟨_, q, e, hq, rfl⟩ := hg
    have still : ∀ s', SameSettled s₁ s' → ∀ j, ¬ Settled s s' j := fun s' hK j hj => (inserted.trans hK j).1 hj
    change Meets (matching U Q A) () _ _ (undecided false (.sql q) (.error e)) s₁
    rw [undecided_error e hq]
    exact conclude rfl (fun j hj => absurd hj (inserted j).1) fun s' hK => .failed hx fault (still s' hK)
  | unlinked hx resolved guard =>
    obtain ⟨hget, hopen⟩ := Db.get_of_resolve resolved
    change Meets (matching U Q A) () _ _ (undecided false (.sql (.linkPayment _ _ _)) (.error _)) _
    rw [undecided_other _ rfl]
    exact conclude rfl (fun j hj => ⟨rfl, lands j hj⟩) fun s' hK => .settled hx (by rw [← same]; exact resolved) guard
      ((SettledAlone.of_paid inserted hget hopen _).after hK)
  | forgotten hx resolved =>
    change Meets (matching U Q A) () _ _ (undecided false (.sql (.linkPayment _ _ _)) (.error _)) _
    rw [undecided_other _ rfl]
    exact conclude rfl (.same inserted false) fun s' hK => .unmatched hx (by rw [← same]; exact resolved) fun j hj =>
      (inserted.trans hK j).1 hj
  | unmatched hx resolved =>
    refine conclude rfl (fun j hj => ⟨rfl, lands j hj⟩) fun s' hK => .unmatched hx (by rw [← same]; exact resolved) fun j hj => ?_
    cases (inserted.before.1 (hK.after.2 hj)).of_linkPayment
  | rejected hx resolved guard =>
    have unsettled : ∀ j, ¬ Settled s s₁ j := fun j => (inserted j).1
    refine (request_rejected rfl unsettled (hQ false s₁ (.same inserted false))).mono fun out _ s' _ hout => ?_
    obtain ⟨rfl, rfl, none⟩ := hout
    exact ⟨.rejected hx (by rw [← same]; exact resolved) guard none, fun j hj => absurd hj (none j)⟩
  | settled hx resolved guard =>
    obtain ⟨hget, hopen⟩ := Db.get_of_resolve resolved
    exact conclude rfl (fun j hj => ⟨rfl, lands j hj⟩) fun s' hK => .settled hx (by rw [← same]; exact resolved) guard
      ((SettledAlone.of_open inserted hget hopen _ _).after hK)

/-! ## A whole door -/

variable {cfg : Config} {d : Door}

/-- The wallet takes the slate of the door, with some answer. -/
def Door.Takeable (U : Upstream W) (d : Door) (w : W) : Prop := ∃ x, x.fault = none ∧ (d.takes U x w).isSome = true

/-- The invoices a door can settle: of the slates the wallet takes, those the match lands on. -/
def Door.Lands (U : Upstream W) (A : {β : Type} → Eff β → Answer → Prop) (cfg : Config) (d : Door) (s : World W) (j : String) : Prop :=
  ∃ slate, d.sent U s.wallet = some slate ∧ d.Takeable U s.wallet ∧
    Matching.Lands (OnSql A) (d.mode cfg) (d.incoming slate) s j

/-- How a door ends, on its own from `s`: whether a statement that decides the match failed, whether it
hands the S2 back, and what it settled. -/
inductive Door.Ends (U : Upstream W) (A : {β : Type} → Eff β → Answer → Prop) (cfg : Config) (d : Door) (s : World W) :
    Bool → Bool → World W → Prop
  | failed {s' : World W} (fault : Faulty A) (unsettled : ∀ j, ¬ Settled s s' j) : Ends U A cfg d s true true s'
  /-- a call of the wallet failed -/
  | declined {s' : World W} (fault : Faulty A) (unsettled : ∀ j, ¬ Settled s s' j) : Ends U A cfg d s false false s'
  | refused {x : Answer} {s' : World W} (told : ∀ slate, d.sent U s.wallet = some slate → A (.receiveTx slate) x)
      (takes : d.takes U x s.wallet = none) (unsettled : ∀ j, ¬ Settled s s' j) : Ends U A cfg d s false false s'
  | unmatched {x : Answer} {slate : Slate} {s' : World W}
      (sent : d.sent U s.wallet = some slate) (takes : d.Takeable U s.wallet) (hx : OnSql A x)
      (resolved : s.db.resolve s.now (d.mode cfg) (d.incoming slate) x.choice = none) (unsettled : ∀ j, ¬ Settled s s' j) :
      Ends U A cfg d s false true s'
  | rejected {x : Answer} {slate : Slate} {inv : Invoice} {m : AmountMismatch} {s' : World W}
      (sent : d.sent U s.wallet = some slate) (takes : d.Takeable U s.wallet) (hx : OnSql A x)
      (resolved : s.db.resolve s.now (d.mode cfg) (d.incoming slate) x.choice = some inv)
      (guard : Matching.mismatch slate.amount inv.expectedAmount = some m) (unsettled : ∀ j, ¬ Settled s s' j) :
      Ends U A cfg d s false (d.hands (.rejected m)) s'
  | settled {x : Answer} {slate : Slate} {inv : Invoice} {s' : World W}
      (sent : d.sent U s.wallet = some slate) (takes : d.Takeable U s.wallet) (hx : OnSql A x)
      (resolved : s.db.resolve s.now (d.mode cfg) (d.incoming slate) x.choice = some inv)
      (guard : Matching.mismatch slate.amount inv.expectedAmount = none) (settles : SettledAlone s s' inv.id) :
      Ends U A cfg d s false true s'

theorem Door.hands_matched (d : Door) (res : MatchResult) : d.hands (.matched res) = true := by cases d <;> rfl

/-- A door on its own: the wallet's part, then the ledger's. -/
theorem request_door (hQ : ∀ g s', Landed (d.Lands U A cfg s) s g s' → Q g s') :
    Meets (matching U Q A) () (fun b g s' => Door.Ends U A cfg d s g b s' ∧ Landed (d.Lands U A cfg s) s g s')
      (d.code U cfg) false s := by
  -- the wallet's part settles nothing
  have idle : ∀ w' : W, SameSettled s { s with wallet := w' } := fun w' => .of_tables rfl rfl
  rw [Door.code_eq]
  refine Meets.andThen (request_take (fun e b he => undecided_receive e b he) (fun w' => hQ false _ (.same (idle w') false)) d)
    fun r g' s' _ hr => ?_
  obtain ⟨rfl, ⟨w', rfl⟩, ⟨x, told, rfl⟩ | ⟨rfl, hfault⟩⟩ := hr
  swap
  · exact Meets.soloRet ⟨.declined hfault fun j => (idle w' j).1, .same (idle w') false⟩
  cases htakes : d.takes U x s.wallet with
  | none =>
    exact Meets.soloRet ⟨.refused (fun slate hs => (told slate hs).1) htakes fun j => (idle w' j).1, .same (idle w') false⟩
  | some received =>
    obtain ⟨slate, hsent, hamount⟩ := Door.amount_of_takes U htakes
    have takes : d.Takeable U s.wallet := ⟨x, (told slate hsent).2, by rw [htakes]; rfl⟩
    have lands : ∀ {g : Bool} {s' : World W}, Landed (Matching.Lands (OnSql A) (d.mode cfg)
        ⟨received.slateId, received.amount, d.recipient, d.memo⟩ { s with wallet := w' }) { s with wallet := w' } g s' →
        Landed (d.Lands U A cfg s) s g s' := by
      intro g s' hlands j hj
      obtain ⟨hg, y, inv, hy, resolved, guard, hid⟩ := hlands j ((idle w').before.1 hj)
      rw [hamount] at resolved guard
      exact ⟨hg, slate, hsent, takes, y, inv, hy, resolved, guard, hid⟩
    refine Meets.andThen (request_persistAndMatch fun g s' hs' => hQ g s' (lands hs')) fun out g s' _ hout => ?_
    obtain ⟨hends, hlands⟩ := hout
    refine Meets.soloRet ⟨?_, lands hlands⟩
    rw [hamount] at hends
    cases hends with
    | failed hx fault unsettled =>
      obtain ⟨_, _, hx⟩ := hx
      rw [Door.hands_matched]
      exact .failed ⟨_, _, _, hx, fault⟩ fun j hj => unsettled j ((idle w').before.1 hj)
    | unmatched hx resolved unsettled =>
      rw [Door.hands_matched]
      exact .unmatched hsent takes hx resolved fun j hj => unsettled j ((idle w').before.1 hj)
    | rejected hx resolved guard unsettled =>
      exact .rejected hsent takes hx resolved guard fun j hj => unsettled j ((idle w').before.1 hj)
    | settled hx resolved guard settles =>
      rw [Door.hands_matched]
      exact .settled hsent takes hx resolved guard (settles.before (idle w').symm)

/-- The answers that are no failure, take the slate with `x₀` and break ties with `n`. -/
def smooth (x₀ : Answer) (n : Nat) {β : Type} : Eff β → Answer
  | .receiveTx _ => x₀
  | _ => { choice := n }

theorem smooth_fault {x₀ : Answer} (hf : x₀.fault = none) (n : Nat) {β : Type} (e : Eff β) : (smooth x₀ n e).fault = none := by
  cases e with
  | receiveTx => exact hf
  | _ => rfl

/-- What a door that meets no failure and takes the slate does, by what the resolvers find for the
choice `n` among the ties. -/
def Door.Decided (cfg : Config) (d : Door) (slate : Slate) (w : World W) (n : Nat) (b : Bool) (w' : World W) : Prop :=
  (w.db.resolve w.now (d.mode cfg) (d.incoming slate) n = none ∧ b = true ∧ ∀ j, ¬ Settled w w' j) ∨
    ∃ inv, w.db.resolve w.now (d.mode cfg) (d.incoming slate) n = some inv ∧
      ((∃ m, Matching.mismatch slate.amount inv.expectedAmount = some m ∧ b = d.hands (.rejected m) ∧ ∀ j, ¬ Settled w w' j) ∨
        Matching.mismatch slate.amount inv.expectedAmount = none ∧ b = true ∧ SettledAlone w w' inv.id)

theorem Door.Ends.decided {w w' : World W} {x₀ : Answer} {slate : Slate} {n : Nat} {b : Bool}
    (h : Door.Ends U (fun e x => x = smooth x₀ n e) cfg d w g b w') (hsent : d.sent U w.wallet = some slate)
    (hf : x₀.fault = none) (htakes : (d.takes U x₀ w.wallet).isSome = true) : d.Decided cfg slate w n b w' := by
  have chosen : ∀ {x}, OnSql (fun e x => x = smooth x₀ n e) x → x.choice = n := by
    rintro x ⟨β, q, rfl⟩
    rfl
  cases h with
  | failed fault | declined fault =>
    obtain ⟨β, e, x, rfl, fault⟩ := fault
    exact absurd (smooth_fault hf n e) fault
  | refused told takes =>
    rw [told slate hsent, show d.takes U (smooth x₀ n (.receiveTx slate)) w.wallet = d.takes U x₀ w.wallet from rfl] at takes
    rw [takes] at htakes
    cases htakes
  | unmatched sent _ hx resolved unsettled =>
    rw [hsent] at sent
    cases sent
    rw [chosen hx] at resolved
    exact Or.inl ⟨resolved, rfl, unsettled⟩
  | rejected sent _ hx resolved guard unsettled =>
    rw [hsent] at sent
    cases sent
    rw [chosen hx] at resolved
    exact Or.inr ⟨_, resolved, Or.inl ⟨_, guard, rfl, unsettled⟩⟩
  | settled sent _ hx resolved guard settles =>
    rw [hsent] at sent
    cases sent
    rw [chosen hx] at resolved
    exact Or.inr ⟨_, resolved, Or.inr ⟨guard, rfl, settles⟩⟩

/-- If the wallet can take the slate, the door can end so, without a failure. -/
theorem Door.runs (U : Upstream W) (cfg : Config) {d : Door} {w : World W} {x₀ : Answer} {slate : Slate}
    (hsent : d.sent U w.wallet = some slate) (hf : x₀.fault = none) (htakes : (d.takes U x₀ w.wallet).isSome = true) (n : Nat) :
    ∃ xs b, ((d.code U cfg).exec (handler U) xs w).1 = .ret b ∧ (∀ x ∈ xs, x.fault = none) ∧
      d.Decided cfg slate w n b ((d.code U cfg).exec (handler U) xs w).2 := by
  obtain ⟨xs, a, hret, hev, hxs⟩ := Prog.exec_total (handler U) () (smooth x₀ n) (d.code U cfg) w
  rcases (request_door (A := fun e x => x = smooth x₀ n e) fun _ _ h => h).soloExec xs hev with ⟨b, hb, hends, _⟩ | ⟨hstopped, _⟩
  · refine ⟨xs, b, hb, fun x hx => ?_, hends.decided hsent hf htakes⟩
    obtain ⟨β, e, rfl⟩ := hxs x hx
    exact smooth_fault hf n e
  · exact absurd hret (hstopped a)

variable (U cfg) in
/-- What a door settles by itself, wherever it stops: the invoices `p` allows, if and only if the
wallet does not take the slate or every invoice the payment leads to is one of them or refuses the
amount. -/
theorem door_settles_iff (d : Door) (w : World W) (p : String → Prop) :
    (∀ xs j, Settled w ((d.code U cfg).exec (handler U) xs w).2 j → p j) ↔
      ∀ slate, d.sent U w.wallet = some slate → d.Takeable U w.wallet →
        ∀ inv, w.db.Leads w.now (d.mode cfg) (d.incoming slate) inv →
          p inv.id ∨ Matching.mismatch slate.amount inv.expectedAmount ≠ none := by
  constructor
  · rintro all slate hsent ⟨x₀, hf, htakes⟩ inv hleads
    by_contra hne
    obtain ⟨hp, hm⟩ := not_or.1 hne
    obtain ⟨n, hn⟩ := Db.leads_iff.1 hleads
    obtain ⟨xs, b, -, -, ⟨resolved, -⟩ | ⟨inv', resolved, ⟨m, guard, -⟩ | ⟨-, -, settles⟩⟩⟩ :=
      Door.runs U cfg hsent hf htakes n
    · rw [hn] at resolved
      cases resolved
    · rw [hn] at resolved
      cases resolved
      rw [guard] at hm
      exact hm (by simp)
    · rw [hn] at resolved
      cases resolved
      exact hp (all xs inv.id ((settles.only inv.id).2 rfl))
  · intro cond xs j hj
    have landed : d.Lands U (fun _ _ => True) cfg w j := by
      rcases (request_door (A := fun _ _ => True) fun _ _ h => h).soloExec xs (fun _ _ => trivial) with ⟨_, _, _, hlands⟩ | ⟨_, hlands⟩
      · exact (hlands j hj).2
      · exact (hlands j hj).2
    obtain ⟨slate, hsent, htakes, y, inv, -, hres, guard, rfl⟩ := landed
    exact (cond slate hsent htakes inv (Db.leads_iff.2 ⟨_, hres⟩)).resolve_right fun hne => hne guard

end

end GoblinPay
