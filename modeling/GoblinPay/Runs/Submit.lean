import GoblinPay.Runs.Solo
import GoblinPay.Runs.Outside
import GoblinPay.Sample

/-!
# Returning an issued slate

A returned slate is finalized by the wallet, posted to the node and then recorded. The wallet forgets the
slate's context in the first of these steps, so what fails after it cannot be made up for by submitting the
slate again. `Steps` keeps which steps succeeded, and `taken` what the node accepted, which the answer of
`post_tx` does not tell; `recoverable_iff` says from them where that leaves the payment.
-/

namespace GoblinPay

open Async Sql

/-- The two ways an I2 comes back. -/
inductive Leg
  /-- `finalize_tx` -/
  | foreign (inSlate : VersionedSlate)
  /-- the paste form, once it has found its invoice open and the slate to be this invoice's -/
  | paste (armor : String)

namespace Leg

def code (cfg : Config) : Leg → Io Unit
  | foreign inSlate => discard <| Foreign.finalizeTx cfg inSlate
  | paste armor => discard <| Checkout.pasteI2 cfg armor

variable {W : Type}

/-- The I2 that comes back, read with the wallet `w`. -/
def returned (U : Upstream W) (w : W) : Leg → Option Slate
  | foreign inSlate => if inSlate.slate.state = .invoice2 then some inSlate.slate else none
  | paste armor => (U.slateFromSlatepackMessage w (Text.trim armor)).toOption.filter fun slate => slate.state = .invoice2

end Leg

/-- Which steps of a finalize leg succeeded. -/
structure Steps where
  finalized : Bool := false
  recorded : Bool := false
  paid : Bool := false

def Steps.gain {β : Type} (a : Steps) : Eff β → β → Steps
  | .finalizeTx _, r => { a with finalized := r.isOk }
  | .sql (.insertPayment _), r => { a with recorded := r.isOk }
  | .sql (.markPaid _ _), r => { a with paid := r.isOk }
  | _, _ => a

/-- Paid, or paid and confirmed. -/
def InvoiceStatus.isSettled : InvoiceStatus → Bool
  | .paid | .confirmed => true
  | .open | .expired => false

section

variable {W : Type} (U : Upstream W) (slateId i : String)

/-- There is a payment row for the slate. -/
def OnRecord (s : World W) : Prop := (s.db.payment.get slateId).isSome = true

def InvoiceSettled (s : World W) : Prop := ∃ inv, s.db.invoice.get i = some inv ∧ inv.status.isSettled = true

/-- The wallet can finalize the slate. -/
def Submittable (s : World W) : Prop := U.holdsContext s.wallet slateId = true

/-- From `w` to `s` nothing was lost: what was posted is recorded and its invoice settled, or the slate can
be submitted again; and it can be, if nothing was posted. -/
def Recoverable (w s : World W) : Prop :=
  (s.posted ≠ w.posted → (OnRecord slateId s ∧ InvoiceSettled i s) ∨ Submittable U slateId s) ∧
    (s.posted = w.posted → Submittable U slateId s)

/-- What a leg has done, anywhere in it. -/
structure Left (w : World W) (inv : Invoice) (a : Steps) (s : World W) : Prop where
  context : Submittable U slateId s ↔ a.finalized = false
  order : s.posted ≠ w.posted → a.finalized = true
  recorded : OnRecord slateId s ↔ a.recorded = true ∨ OnRecord slateId w
  settled : InvoiceSettled inv.id s ↔ inv.status.isSettled = true ∨ inv.status = .open ∧ a.paid = true

variable {U slateId i} {w s : World W} {inv : Invoice} {a : Steps}

theorem Left.recoverable (h : Left U slateId w inv a s) : Recoverable U slateId inv.id w s ↔
    (a.finalized = true → s.posted ≠ w.posted ∧ (a.recorded = true ∨ OnRecord slateId w) ∧
      (inv.status.isSettled = true ∨ inv.status = .open ∧ a.paid = true)) := by
  unfold Recoverable
  rw [h.context, h.recorded, h.settled]
  by_cases hp : s.posted = w.posted
  · simp [hp]
  · have hfinal := h.order hp
    simp [hp, hfinal]

/-- Of a state, `Left` reads two tables, the wallet and the posted slates. -/
theorem Left.congr {s' : World W} (h : Left U slateId w inv a s) (hpayment : s'.db.payment = s.db.payment)
    (hinvoice : s'.db.invoice = s.db.invoice) (hwallet : s'.wallet = s.wallet) (hposted : s'.posted = s.posted) :
    Left U slateId w inv a s' where
  context := by rw [← h.context]; simp only [Submittable, hwallet]
  order := by rw [hposted]; exact h.order
  recorded := by rw [← h.recorded]; simp only [OnRecord, hpayment]
  settled := by rw [← h.settled]; simp only [InvoiceSettled, hinvoice]

/-! ## The ledger's part -/

variable {A : {β : Type} → Eff β → Answer → Prop} {f : FinalizedInvoice} {wh : Option (String × String)}

/-- The notification changes nothing of it. -/
theorem request_foreignNotify (h : Left U slateId w inv a s) :
    Meets (request U (Left U slateId w inv) A fun a => a.gain) () (fun _ a s' => Left U slateId w inv a s')
      (Foreign.notify inv f wh) a s := by
  refine Meets.of_only_carry (K := fun a s' => Left U slateId w inv a s') (Foreign.only_notify inv f wh) h
    (fun _ _ _ hr _ hK => ?_) (fun _ _ _ _ _ hK => hK) fun e x a s' he _ hK _ => ?_
  · obtain rfl := hr
    exact hK
  · cases he with
    | draw | clock => exact hK.congr rfl rfl rfl rfl
    | enqueue url payload =>
      change Left U slateId w inv a (act U x s' (.sql (.enqueue url payload))).2
      unfold act
      dsimp only [Stmt.exec, inserted]
      split
      · exact hK.congr rfl rfl rfl rfl
      · split <;> exact hK.congr rfl rfl rfl rfl

/-- Settling a finalized slate: the steps say what was recorded and settled. -/
theorem request_settleFinalized (hid : f.slateId = slateId)
    (hinv : w.db.invoice.select (fun row => row.slateId = some slateId) = [inv]) (hdb : s.db = w.db)
    (h : Left U slateId w inv a s) (hrecorded : a.recorded = false) (hpaid : a.paid = false) :
    Meets (request U (Left U slateId w inv) A fun a => a.gain) () (fun _ a s' => Left U slateId w inv a s')
      (Foreign.settleFinalized f wh) a s := by
  subst hid
  have hget : s.db.invoice.get inv.id = some inv := by
    rw [hdb]
    exact (Table.mem_select.1 (hinv ▸ List.mem_singleton_self inv)).1
  refine request_sql (q := .selectBySlateId f.slateId) h (fun x found _ _ hfound => ?_) fun x e _ _ => Meets.soloRet h
  obtain rfl : some inv = found := by
    have hfound : pick (s.db.invoice.select fun row => row.slateId = some f.slateId) x.choice = found := by
      simpa [Stmt.exec] using hfound
    rw [hdb, hinv] at hfound
    simpa [pick, Nat.mod_one] using hfound
  rw [World.exec_read (q := .selectBySlateId f.slateId) trivial]
  refine Meets.andThen (I := fun _ a' s' => Left U f.slateId w inv a' s' ∧ a'.paid = false ∧ s'.db.invoice = s.db.invoice) ?_
    fun _ a₁ s₁ _ h₁ => ?_
  · refine request_sql (q := .insertPayment (Foreign.paymentRow inv f)) (f := fun _ => .ret ()) h (fun y b _ _ hb => ?_)
      fun y e _ _ => Meets.soloRet ⟨⟨h.context, h.order, ?_, h.settled⟩, hpaid, rfl⟩
    · obtain ⟨tab, hins⟩ : ∃ tab, s.db.payment.insert ((Foreign.paymentRow inv f).toPayment s.now) = some tab := by
        cases hins : s.db.payment.insert ((Foreign.paymentRow inv f).toPayment s.now) with
        | none => simp [Stmt.exec, inserted, hins] at hb
        | some tab => exact ⟨tab, rfl⟩
      have rows : (s.exec (.insertPayment (Foreign.paymentRow inv f)) y.choice).db = { s.db with payment := tab } := by
        simp only [World.exec, Stmt.exec, inserted, hins]
      refine Meets.soloRet ⟨⟨h.context, h.order, ?_, ?_⟩, hpaid, by rw [rows]⟩
      · refine iff_of_true ?_ (Or.inl rfl)
        have hnew : tab.get f.slateId = some ((Foreign.paymentRow inv f).toPayment s.now) := by
          rw [Table.get_insert hins]
          exact if_pos rfl
        unfold OnRecord
        rw [rows, hnew]
        rfl
      · refine Iff.trans ?_ h.settled
        simp only [InvoiceSettled, rows]
    · have := h.recorded
      rw [hrecorded] at this
      exact this
  obtain ⟨h₁, hpaid₁, hinvoice⟩ := h₁
  have hget₁ : s₁.db.invoice.get inv.id = some inv := by rw [hinvoice]; exact hget
  refine request_sql (q := .markPaid inv.id f.slateId) h₁ (fun y b _ _ _ => ?_) fun y e _ _ =>
    Meets.soloRet ⟨h₁.context, h₁.order, h₁.recorded, ?_⟩
  · have paid : Left U f.slateId w inv { a₁ with paid := true } (s₁.exec (.markPaid inv.id f.slateId) y.choice) := by
      have row : (s₁.exec (.markPaid inv.id f.slateId) y.choice).db.invoice.get inv.id =
          some (if inv.status = .open then inv.pay f.slateId s₁.now else inv) := by
        have kept : (s₁.exec (.markPaid inv.id f.slateId) y.choice).db.invoice.get inv.id =
            (s₁.db.invoice.get inv.id).map fun r => if r.id = inv.id && r.status = .open then r.pay f.slateId s₁.now else r :=
          Table.get_update s₁.db.invoice _ (Invoice.pay f.slateId s₁.now) (fun _ => rfl) _
        rw [kept, hget₁]
        simp
      refine ⟨h₁.context, h₁.order, h₁.recorded, ?_⟩
      simp only [InvoiceSettled, row, Option.some.injEq, exists_eq_left', and_true]
      cases hstatus : inv.status <;> simp [hstatus, Invoice.pay, InvoiceStatus.isSettled]
    cases b with
    | true => exact request_foreignNotify paid
    | false => exact Meets.soloRet paid
  · have := h₁.settled
    rw [hpaid₁] at this
    exact this

/-! ## The wallet's part -/

variable {γ : Type}

/-- Finalized and handed to the node, and nothing written yet. -/
structure Handed (U : Upstream W) (slateId : String) (w : World W) (inv : Invoice) (a : Steps) (s : World W) : Prop where
  left : Left U slateId w inv a s
  db : s.db = w.db
  recorded : a.recorded = false
  paid : a.paid = false

/-- Before the wallet is asked to finalize. -/
theorem Left.untouched (hctx : U.holdsContext w.wallet slateId = true)
    (hget : w.db.invoice.get inv.id = some inv) : Left U slateId w inv {} w where
  context := iff_of_true hctx rfl
  order := by simp
  recorded := by simp
  settled := by simp [InvoiceSettled, hget]

/-- Finalizing consumes the context, or changes nothing. -/
theorem act_finalizeTx (hU : U.Lawful) (x : Answer) (slate : Slate) :
    (act U x w (.finalizeTx slate)).2 = { w with wallet := (act U x w (.finalizeTx slate)).2.wallet } ∧
      (∀ final, (act U x w (.finalizeTx slate)).1 = .ok final → ¬ Submittable U slate.id (act U x w (.finalizeTx slate)).2) ∧
      ∀ m, (act U x w (.finalizeTx slate)).1 = .error m →
        (Submittable U slate.id (act U x w (.finalizeTx slate)).2 ↔ Submittable U slate.id w) := by
  unfold act
  dsimp only
  split
  · refine ⟨rfl, fun final h => ?_, fun m _ => Iff.rfl⟩
    cases h
  · refine ⟨rfl, fun final h hctx => ?_, fun m h => ?_⟩
    · have gone := (hU.finalize_context (Prod.ext h rfl)).2 slate.id
      exact (gone.1 hctx).1 rfl
    · exact hU.finalize_error (Prod.ext h rfl) slate.id

/-- Once the slate is finalized, the node may have accepted its transaction or not. -/
theorem Left.handed (h : Left U slateId w inv a s) (hfinal : a.finalized = true) (posted : List String) :
    Left U slateId w inv a { s with posted } where
  context := h.context
  order := fun _ => hfinal
  recorded := h.recorded
  settled := h.settled

theorem request_finalizeAndPost {slate : Slate} (hU : U.Lawful) (hctx : U.holdsContext w.wallet slate.id = true)
    (hget : w.db.invoice.get inv.id = some inv) :
    Meets (request U (Left U slate.id w inv) A fun a => a.gain) () (fun r a s' => Left U slate.id w inv a s' ∧
      ∀ final, r = .ok final → Handed U slate.id w inv a s') (GpWallet.finalizeAndPost slate).run {} w := by
  have start : Left U slate.id w inv {} w := .untouched hctx hget
  refine request_upstream start (fun x final _ hok => ?_) fun x m _ herror => ?_
  · obtain ⟨hs, gone, -⟩ := act_finalizeTx hU (w := w) x slate
    have consumed : ¬ Submittable U slate.id (act U x w (.finalizeTx slate)).2 := gone final hok
    generalize (act U x w (.finalizeTx slate)).2 = s₁ at hs consumed
    have finalized : Left U slate.id w inv { finalized := true } s₁ := by
      rw [hs]
      rw [hs] at consumed
      exact ⟨iff_of_false consumed (by simp), (fun _ => rfl), start.recorded, start.settled⟩
    refine request_upstream (f := fun _ => .ret (.ok final)) finalized (fun y _ _ _ => ?_) fun y m _ _ => ?_
    · have handed := finalized.handed rfl (act U y s₁ (.postTx final)).2.posted
      refine Meets.soloRet ⟨handed, fun _ _ => ⟨handed, ?_, rfl, rfl⟩⟩
      change s₁.db = w.db
      rw [hs]
    · refine ⟨finalized.handed rfl _, fun final h => ?_⟩
      cases h
  · obtain ⟨hs, -, kept⟩ := act_finalizeTx hU (w := w) x slate
    have still : Submittable U slate.id (act U x w (.finalizeTx slate)).2 := (kept m herror).2 hctx
    generalize (act U x w (.finalizeTx slate)).2 = s₁ at hs still
    rw [hs]
    rw [hs] at still
    refine ⟨⟨iff_of_true still rfl, start.order, start.recorded, start.settled⟩, fun final h => ?_⟩
    cases h

/-- What is left of the wallet's part reads only. -/
theorem request_slateKernelExcess {t : String} (h : Handed U slateId w inv a s) :
    Meets (request U (Left U slateId w inv) A fun a => a.gain) () (fun _ a s' => Handed U slateId w inv a s')
      (GpWallet.slateKernelExcess t).run a s := by
  refine request_upstream h.left (fun x o _ _ => ?_) fun x m _ _ => h
  cases o with
  | some excess => exact Meets.soloRet h
  | none => exact Meets.soloRet h

theorem request_leg (cfg : Config) (leg : Leg) {slate : Slate} (hU : U.Lawful) (hctx : U.holdsContext w.wallet slate.id = true)
    (hreturned : leg.returned U w.wallet = some slate)
    (hinv : w.db.invoice.select (fun row => row.slateId = some slate.id) = [inv]) :
    Meets (request U (Left U slate.id w inv) A fun a => a.gain) () (fun _ a s' => Left U slate.id w inv a s')
      (leg.code cfg) {} w := by
  have hget : w.db.invoice.get inv.id = some inv := (Table.mem_select.1 (hinv ▸ List.mem_singleton_self inv)).1
  have start : Left U slate.id w inv {} w := .untouched hctx hget
  -- the wallet's part ends handed over or with an error, and settling follows
  cases leg with
  | foreign inSlate =>
    obtain rfl : inSlate.slate = slate := by
      simp only [Leg.returned] at hreturned
      split at hreturned <;> simp_all
    have wallet : Meets (request U (Left U inSlate.slate.id w inv) A fun a => a.gain) ()
        (fun r a s' => Left U inSlate.slate.id w inv a s' ∧
          ∀ out, r = .ok out → out.2.slateId = inSlate.slate.id ∧ Handed U inSlate.slate.id w inv a s')
        (GpWallet.finalizeSlate inSlate).run {} w := by
      refine Meets.tryThen (request_finalizeAndPost hU hctx hget) (fun final a s _ h => ?_) fun e a s _ h =>
        Meets.soloRet ⟨h.1, fun out hout => by cases hout⟩
      refine Meets.tryThen (request_slateKernelExcess (h.2 final rfl)) (fun excess a s _ h => ?_) fun e a s _ h =>
        Meets.soloRet ⟨h.left, fun out hout => by cases hout⟩
      refine request_upstream h.left (fun x out _ _ => ?_) fun x m _ _ => ⟨h.left, fun out hout => by cases hout⟩
      exact Meets.soloRet ⟨h.left, fun out hout => by cases hout; exact ⟨rfl, h⟩⟩
    refine Meets.andThen (f := fun _ => .ret ()) (Meets.andThen wallet fun r a s _ h => ?_) fun _ a s _ h => Meets.soloRet h
    cases r with
    | error e => exact Meets.soloRet h.1
    | ok out =>
      obtain ⟨hid, hand⟩ := h.2 out rfl
      exact Meets.andThen (f := fun _ => (.ret (.ok out.1) : Io (Except Foreign.RpcError VersionedSlate)))
        (request_settleFinalized hid hinv hand.db hand.left hand.recorded hand.paid) fun _ a s _ h => Meets.soloRet h
  | paste armor =>
    have wallet : Meets (request U (Left U slate.id w inv) A fun a => a.gain) ()
        (fun r a s' => Left U slate.id w inv a s' ∧
          ∀ out, r = .ok out → out.slateId = slate.id ∧ Handed U slate.id w inv a s')
        (GpWallet.finalizeInvoiceSlatepack armor).run {} w := by
      refine request_upstream start (fun x i2 _ hok => ?_) fun x m _ _ => ⟨start, fun out hout => by cases hout⟩
      obtain ⟨-, hread⟩ := Answer.of_orElse_ok hok
      simp only [Leg.returned, hread, Except.toOption, Option.filter_some] at hreturned
      by_cases hstate : i2.state = .invoice2
      · obtain rfl : i2 = slate := by simpa [hstate] using hreturned
        rw [if_pos hstate]
        refine Meets.tryThen (request_finalizeAndPost hU hctx hget) (fun final a s _ h => ?_) fun e a s _ h =>
          Meets.soloRet ⟨h.1, fun out hout => by cases hout⟩
        refine Meets.tryThen (request_slateKernelExcess (h.2 final rfl)) (fun excess a s _ h => ?_) fun e a s _ h =>
          Meets.soloRet ⟨h.left, fun out hout => by cases hout⟩
        exact Meets.soloRet ⟨h.left, fun out hout => by cases hout; exact ⟨rfl, h⟩⟩
      · simp [hstate] at hreturned
    refine Meets.andThen (f := fun _ => .ret ()) (Meets.andThen wallet fun r a s _ h => ?_) fun _ a s _ h => Meets.soloRet h
    cases r with
    | error e => exact Meets.soloRet h.1
    | ok out =>
      obtain ⟨hid, hand⟩ := h.2 out rfl
      exact Meets.andThen (f := fun _ => (.ret _ : Io PasteResult))
        (request_settleFinalized hid hinv hand.db hand.left hand.recorded hand.paid) fun _ a s _ h => Meets.soloRet h

/-! ## Wherever it stops -/

variable (U) in
/-- The steps of an execution that succeeded. -/
def steps {α : Type} (p : Io α) (xs : List Answer) (w : World W) : Steps :=
  (p.events (handler U) () xs w).foldl (fun a ev => a.gain ev.eff (ev.answer (handler U))) {}

/-- The slates of the transactions a node accepts in one operation. -/
def Eff.taken {β : Type} (x : Answer) : Eff β → List String
  | .postTx slate => if x.accepted then [slate.id] else []
  | _ => []

theorem Eff.posted_act {β : Type} (e : Eff β) (x : Answer) (s : World W) :
    (act U x s e).2.posted = s.posted ++ e.taken x := by
  cases e with
  | postTx slate => simp only [act, Eff.taken]; split <;> simp
  | sql q => simp only [act, Eff.taken]; split <;> simp
  | receiveTx | issueInvoiceTx | finalizeTx | cancelTx => simp only [act, Eff.taken]; split <;> simp
  | _ => simp [act, Eff.taken, World.restart]

variable (U) in
/-- What the node accepted in an execution. -/
def taken {α : Type} (p : Io α) (xs : List Answer) (w : World W) : List String :=
  (p.events (handler U) () xs w).flatMap fun ev => ev.eff.taken ev.input

theorem posted_exec {α : Type} (p : Io α) (xs : List Answer) (w : World W) :
    (p.exec (handler U) xs w).2.posted = w.posted ++ taken U p xs w :=
  Prog.exec_appends (f := World.posted) (fun e x => e.taken x) (fun e x s => e.posted_act x s) () xs p w

/-- A returned I2 whose context the wallet holds, on either leg, failing and stopped anywhere: nothing is
lost if and only if the wallet did not finalize it, or the node accepted its transaction, and its row is
there, and its invoice was settled before or was open and marked paid. -/
theorem recoverable_iff (hU : U.Lawful) (cfg : Config) (leg : Leg) (w : World W) (xs : List Answer) {slate : Slate}
    {inv : Invoice} (hreturned : leg.returned U w.wallet = some slate) (hctx : U.holdsContext w.wallet slate.id = true)
    (hinv : w.db.invoice.select (fun row => row.slateId = some slate.id) = [inv]) :
    Recoverable U slate.id inv.id w ((leg.code cfg).exec (handler U) xs w).2 ↔
      ((steps U (leg.code cfg) xs w).finalized = true → taken U (leg.code cfg) xs w ≠ [] ∧
        ((steps U (leg.code cfg) xs w).recorded = true ∨ OnRecord slate.id w) ∧
        (inv.status.isSettled = true ∨ inv.status = .open ∧ (steps U (leg.code cfg) xs w).paid = true)) := by
  have hleg := request_leg (A := fun _ _ => True) cfg leg hU hctx hreturned hinv
  have left : Left U slate.id w inv (steps U (leg.code cfg) xs w) ((leg.code cfg).exec (handler U) xs w).2 := by
    rcases hleg.soloExec xs fun _ _ => trivial with ⟨_, -, h⟩ | ⟨-, h⟩
    · exact h
    · exact h
  rw [left.recoverable, posted_exec]
  simp

end

/-! ## Two submissions -/

/-- An open grin1 invoice for 100 whose I1 is the slate `s`. -/
def armedInvoice : Invoice :=
  { (Invoice.row Sample.upstream ⟨none, .grin 100, none, some .derived, none⟩ [109] "m" .memo "i" "tok").toInvoice 10 with
    rail := some .grin1, slateId := some "s" }

def armedWorld : World Sample.Wallet :=
  { Sample.world with
    db := { Db.empty with invoice := ⟨[armedInvoice], by decide⟩ }
    wallet := { Sample.wallet with issued := ["s"], contexts := ["s"] } }

/-- The response, over the Foreign API. -/
def response : Leg := .foreign ⟨4, ⟨"s", .invoice2, 0, none⟩⟩

theorem response_recoverable :
    Recoverable Sample.upstream "s" "i" armedWorld ((response.code Sample.config).exec (handler Sample.upstream)
      (List.replicate 7 {}) armedWorld).2 :=
  (recoverable_iff Sample.lawful Sample.config response armedWorld (List.replicate 7 {}) rfl rfl
    (by decide : armedWorld.db.invoice.select (fun row => row.slateId = some "s") = [armedInvoice])).2 fun _ => ⟨by decide, Or.inl (by decide), Or.inr ⟨by decide, by decide⟩⟩

/-- The node cannot be reached: nothing is posted, and the wallet has no context to finalize the same
slate with. -/
theorem response_lost : response.returned Sample.upstream armedWorld.wallet = some ⟨"s", .invoice2, 0, none⟩ ∧
    Sample.upstream.holdsContext armedWorld.wallet "s" = true ∧
    armedWorld.db.invoice.select (fun row => row.slateId = some "s") = [armedInvoice] ∧
    ¬ Recoverable Sample.upstream "s" "i" armedWorld ((response.code Sample.config).exec
      (handler Sample.upstream) [{}, { fault := some "node unreachable", accepted := false }] armedWorld).2 := by
  refine ⟨rfl, rfl, by decide, fun recoverable => ?_⟩
  have submittable := recoverable.2 (by decide)
  revert submittable
  unfold Submittable
  decide

end GoblinPay
