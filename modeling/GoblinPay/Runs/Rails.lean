import GoblinPay.Runs.Outside

/-!
# The rails

Four ways a payment comes in (the relays, the paste form, the two legs of the Foreign API) run
the wallet first and then end in `persist_and_match` or `settle_finalized`. `Receives` and
`Finalizes` say which payment a call brought, read off the history of the run; a protocol that
lets wallet calls and reads happen anywhere then has the two functions to check, and
`Rails.meets` is the rest.
-/

namespace GoblinPay

open Async

section

variable {W : Type} (U : Upstream W) (T : List (Happening W)) (h : Head Call (World W))

/-- In the history `T`, the call `h` received the payment `t` with the amount `a`. -/
inductive Receives (t : String) (a : UInt64) : Prop
  | handed {r : Received} {payer memo : Option String} {rc : String} {mode : MatchMode}
      {wh : Option (String × String)} (call : h.call = .receive r payer rc memo mode wh)
      (id : r.slateId = t) (amount : r.amount = a)
  | taken {slate s2 : Slate} {x : Answer} {s : World W} (mem : (⟨h, .receiveTx slate, x, s⟩ : Happening W) ∈ T)
      (ok : (act U x s (.receiveTx slate)).1 = .ok s2) (id : s2.id = t) (amount : slate.amount = a)

/-- In the history `T`, the call `h` completed the invoice slate `t`. -/
inductive Finalizes (t : String) : Prop
  | handed {f : FinalizedInvoice} {wh : Option (String × String)} (call : h.call = .settle f wh)
      (id : f.slateId = t)
  | taken {slate final : Slate} {x : Answer} {s : World W}
      (mem : (⟨h, .finalizeTx slate, x, s⟩ : Happening W) ∈ T)
      (ok : (act U x s (.finalizeTx slate)).1 = .ok final) (id : slate.id = t)

/-- In the history `T`, the call `h` got the transaction `final` from the wallet's finalize. -/
def Completes (final : Slate) : Prop :=
  ∃ slate x s, (⟨h, .finalizeTx slate, x, s⟩ : Happening W) ∈ T ∧
    (act U x s (.finalizeTx slate)).1 = .ok final

/-- The operation takes a slate into the wallet or completes one. -/
def Eff.movesSlate {β : Type} : Eff β → Bool
  | .receiveTx _ | .finalizeTx _ => true
  | _ => false

variable {U T h}

/-- Where no slate passes the wallet, payments come from `receive` calls only. -/
theorem Receives.of_slateFree (hT : T.all (fun ev => !ev.eff.movesSlate) = true) {t : String} {a : UInt64}
    (hr : Receives U T h t a) : ∃ r payer rc memo mode wh,
      h.call = .receive r payer rc memo mode wh ∧ r.slateId = t ∧ r.amount = a := by
  cases hr with
  | handed call id amount => exact ⟨_, _, _, _, _, _, call, id, amount⟩
  | taken mem => simpa [Eff.movesSlate] using List.all_eq_true.1 hT _ mem

theorem Finalizes.of_slateFree (hT : T.all (fun ev => !ev.eff.movesSlate) = true) {t : String}
    (hf : Finalizes U T h t) : ∃ f wh, h.call = .settle f wh ∧ f.slateId = t := by
  cases hf with
  | handed call id => exact ⟨_, _, call, id⟩
  | taken mem => simpa [Eff.movesSlate] using List.all_eq_true.1 hT _ mem

variable (U T h)

variable {Own : Type} (D : Discipline (handler U) (Head Call (World W)) Own)

/-- What is left to check of a protocol that demands nothing of the wallet calls and reads. -/
structure Rails : Prop where
  quiet : ∀ {γ : Type} (e : Eff γ) g s, e.Quiet → D.before h g e s
  replied : ∀ t g s, D.before h g (.sql (.markReplied t)) s
  /-- a call posts what the wallet has just finalized for it -/
  post : ∀ slate final g s, Completes U T h final → D.before h (D.gain g (.finalizeTx slate) (.ok final)) (.postTx final) s
  mem : ∀ {γ : Type} (e : Eff γ) x s, D.allowed h e x s → (⟨h, e, x, s⟩ : Happening W) ∈ T
  receive : ∀ (r : Received) (payer : Option String) (rc : String) (memo : Option String) (mode : MatchMode)
    (wh : Option (String × String)) g s, Receives U T h r.slateId r.amount →
    Meets D h (fun _ _ _ => True) (Record.persistAndMatch r payer rc memo mode wh) g s
  settle : ∀ (f : FinalizedInvoice) (wh : Option (String × String)) g s, Finalizes U T h f.slateId →
    Meets D h (fun _ _ _ => True) (Foreign.settleFinalized f wh) g s

namespace Rails

variable {U T h D} (R : Rails U T h D) {g : Own} {s : World W} {α β : Type}

include R

theorem of_quiet {p : Io α} (hp : Prog.Quiet p) : Meets D h (fun _ _ _ => True) p g s :=
  Meets.of_only hp fun e g s he => R.quiet e g s he

/-- A quiet program, as the first part of an `ExceptT` block. -/
theorem quietOk {ε : Type} {m : ExceptT ε Io α} (hm : Prog.Quiet m.run) :
    Meets D h (OnOk fun _ _ _ => True) m.run g s :=
  (R.of_quiet hm).mono fun r _ _ _ _ => by cases r <;> trivial

/-- An upstream call answers with an operation of the history. -/
theorem upstream {e : Eff (Except String β)} {wrap : String → WalletError} (he : e.Quiet) :
    Meets D h (OnOk fun b _ _ => ∃ x s, (⟨h, e, x, s⟩ : Happening W) ∈ T ∧ (act U x s e).1 = .ok b)
      (GpWallet.upstream e wrap).run g s := by
  refine Meets.step (K := fun _ => True) trivial (fun _ _ _ _ h => h) (fun s _ _ => R.quiet e _ s he)
    fun x s _ _ hx => ?_
  have hr : ((handler U).act e x s).1 = (act U x s e).1 := rfl
  rw [hr]
  rcases ha : (act U x s e).1 with m | b
  · exact Meets.failed _
  · exact fun _ _ _ => ⟨x, s, R.mem e x s hx, ha⟩

theorem bundle (s2 : Slate) (sid : String) (amount : UInt64) :
    Meets D h (OnOk fun rec _ _ => rec.slateId = s2.id ∧ rec.amount = amount)
      (GpWallet.bundle U s2 sid amount).run g s :=
  Meets.tryOk (R.quietOk (GpWallet.footprint_slateKernelExcess sid).quiet) fun _ _ _ _ _ =>
    Meets.tryOk (R.quietOk trivial) fun _ _ _ _ _ =>
      Meets.tryOk (R.quietOk (quiet_upstream rfl)) fun _ _ _ _ _ _ _ _ => ⟨rfl, rfl⟩

theorem receiveSlatepack (armor : String) :
    Meets D h (OnOk fun rec _ _ => Receives U T h rec.slateId rec.amount)
      (GpWallet.receiveSlatepack U armor).run g s := by
  refine Meets.tryOk (R.quietOk (quiet_upstream rfl)) fun slate _ _ _ _ => ?_
  split
  · refine Meets.tryOk (R.upstream rfl) fun s2 g s _ hs2 => (R.bundle s2 _ _).mono fun r _ _ _ hr => ?_
    obtain ⟨x, w, hmem, hok⟩ := hs2
    cases r with
    | error e => trivial
    | ok rec => exact .taken hmem hok hr.1.symm hr.2.symm
  · exact Meets.failed _

theorem receiveSlate (inSlate : VersionedSlate) :
    Meets D h (OnOk fun out _ _ => Receives U T h out.2.slateId out.2.amount)
      (GpWallet.receiveSlate U inSlate).run g s := by
  unfold GpWallet.receiveSlate
  dsimp only
  split
  · refine Meets.tryOk (R.upstream rfl) fun s2 g s _ hs2 => ?_
    obtain ⟨x, w, hmem, hok⟩ := hs2
    refine Meets.tryOk (R.bundle s2 _ _) fun rec g s _ hrec => ?_
    exact Meets.tryOk (R.quietOk (quiet_upstream rfl)) fun _ _ _ _ _ _ _ _ =>
      .taken hmem hok hrec.1.symm hrec.2.symm
  · exact Meets.failed _

theorem finalizeAndPost (i2 : Slate) :
    Meets D h (OnOk fun _ _ _ => Finalizes U T h i2.id) (GpWallet.finalizeAndPost i2).run g s := by
  have finalized : Meets D h (OnOk fun final g' _ => g' = D.gain g (.finalizeTx i2) (.ok final) ∧
      ∃ x s, (⟨h, .finalizeTx i2, x, s⟩ : Happening W) ∈ T ∧ (act U x s (.finalizeTx i2)).1 = .ok final)
      (GpWallet.upstream (.finalizeTx i2)).run g s := by
    refine Meets.step (K := fun _ => True) trivial (fun _ _ _ _ h => h) (fun s _ _ => R.quiet _ _ s rfl) fun x s _ _ hx => ?_
    rcases hr : (act U x s (.finalizeTx i2)).1 with m | final
    · simp only [handler, hr]
      exact Meets.failed _
    · simp only [handler, hr]
      exact fun _ _ _ => ⟨rfl, x, s, R.mem _ x s hx, hr⟩
  refine Meets.tryOk finalized fun final g s _ hfinal => ?_
  obtain ⟨rfl, x, w, hmem, hok⟩ := hfinal
  refine Meets.tryOk (P := fun _ _ _ => True) ?_ fun _ _ _ _ _ _ _ _ => .taken hmem hok rfl
  refine Meets.step (K := fun _ => True) trivial (fun _ _ _ _ h => h)
    (fun s _ _ => R.post i2 final _ s ⟨i2, x, w, hmem, hok⟩) fun x' s _ _ _ => ?_
  cases ((handler U).act (.postTx final) x' s).1 <;> exact fun _ _ _ => trivial

theorem finalizeInvoiceSlatepack (armor : String) :
    Meets D h (OnOk fun f _ _ => Finalizes U T h f.slateId)
      (GpWallet.finalizeInvoiceSlatepack armor).run g s := by
  refine Meets.tryOk (R.quietOk (quiet_upstream rfl)) fun i2 _ _ _ _ => ?_
  split
  · exact Meets.tryOk (R.finalizeAndPost i2) fun final _ _ _ hfinal =>
      Meets.tryOk (R.quietOk (GpWallet.footprint_slateKernelExcess _).quiet) fun _ _ _ _ _ _ _ _ => hfinal
  · exact Meets.failed _

theorem finalizeSlate (inSlate : VersionedSlate) :
    Meets D h (OnOk fun out _ _ => Finalizes U T h out.2.slateId)
      (GpWallet.finalizeSlate inSlate).run g s :=
  Meets.tryOk (R.finalizeAndPost _) fun _ _ _ _ hfinal =>
    Meets.tryOk (R.quietOk (GpWallet.footprint_slateKernelExcess _).quiet) fun _ _ _ _ _ =>
      Meets.tryOk (R.quietOk (quiet_upstream rfl)) fun _ _ _ _ _ _ _ _ => hfinal

theorem foreignReceive (cfg : Config) (slate : VersionedSlate) :
    Meets D h (fun _ _ _ => True) (Foreign.receiveTx U cfg slate) g s := by
  refine Meets.andThen (R.receiveSlate slate) fun r g s _ hr => ?_
  split
  · exact fun _ _ _ => trivial
  · rename_i out received
    refine Meets.andThen (I := fun _ _ _ => True) ?_ fun _ _ _ _ _ _ _ _ => trivial
    exact Meets.andThen (R.receive received _ _ _ _ _ _ _ hr) fun _ _ _ _ _ _ _ _ => trivial

theorem foreignFinalize (cfg : Config) (slate : VersionedSlate) :
    Meets D h (fun _ _ _ => True) (Foreign.finalizeTx cfg slate) g s := by
  refine Meets.andThen (R.finalizeSlate slate) fun r g s _ hr => ?_
  split
  · exact fun _ _ _ => trivial
  · rename_i out finalized
    exact Meets.andThen (R.settle finalized _ _ _ hr) fun _ _ _ _ _ _ _ _ => trivial

theorem pasteS1 (cfg : Config) (inv : Invoice) (armor : String) :
    Meets D h (fun _ _ _ => True) (Checkout.pasteS1 U cfg inv armor) g s := by
  refine Meets.andThen (R.receiveSlatepack armor) fun r g s _ hr => ?_
  split
  · exact fun _ _ _ => trivial
  · rename_i received
    refine Meets.andThen (R.receive received _ _ _ _ _ _ _ hr) fun o _ _ _ _ => ?_
    split <;> exact fun _ _ _ => trivial

theorem pasteI2 (cfg : Config) (armor : String) :
    Meets D h (fun _ _ _ => True) (Checkout.pasteI2 cfg armor) g s := by
  refine Meets.andThen (R.finalizeInvoiceSlatepack armor) fun r g s _ hr => ?_
  split
  · exact fun _ _ _ => trivial
  · rename_i finalized
    exact Meets.andThen (R.settle finalized _ _ _ hr) fun _ _ _ _ _ _ _ _ => trivial

theorem manualSlatepack (cfg : Config) (token armor : String) :
    Meets D h (fun _ _ _ => True) (Checkout.manualSlatepack U cfg token armor) g s := by
  refine Meets.andThen (R.of_quiet (Invoice.footprint_getByToken token).quiet) fun r _ _ _ _ => ?_
  split
  · exact fun _ _ _ => trivial
  · exact fun _ _ _ => trivial
  · split
    · refine Meets.andThen (R.of_quiet (GpWallet.footprint_slatepackKind _).quiet) fun r _ _ _ _ => ?_
      split
      · exact fun _ _ _ => trivial
      · split
        · exact fun _ _ _ => trivial
        · exact Meets.andThen (R.pasteS1 cfg _ _) fun _ _ _ _ _ _ _ _ => trivial
        · exact Meets.andThen (R.pasteI2 cfg _) fun _ _ _ _ _ _ _ _ => trivial
    · exact fun _ _ _ => trivial

theorem walletReceiver (cfg : Config) (armor : String) (ctx : IncomingContext) :
    Meets D h (fun _ _ _ => True) (WalletReceiver.receive U cfg armor ctx) g s := by
  refine Meets.andThen (R.receiveSlatepack armor) fun r g s _ hr => ?_
  split
  · exact fun _ _ _ => trivial
  · rename_i received
    exact Meets.andThen (R.receive received _ _ _ _ _ _ _ hr) fun _ _ _ _ _ _ _ _ => trivial

theorem handOff (cfg : Config) (wrapId : String) (keys : Secret) (unwrapped : Unwrapped) :
    Meets D h (fun _ _ _ => True) (Ingest.handOff U cfg wrapId keys unwrapped) g s := by
  refine Meets.andThen (R.walletReceiver cfg _ _) fun r _ _ _ _ => R.of_quiet ?_
  split
  · exact ⟨rfl, fun _ => ⟨rfl, fun _ => ⟨rfl, fun _ => trivial⟩⟩⟩
  · exact ⟨rfl, fun _ => ⟨rfl, fun _ => trivial⟩⟩
  · exact ⟨rfl, fun _ => ⟨rfl, fun _ => trivial⟩⟩
  · exact trivial

theorem handleWrap (cfg : Config) (master : Secret) (event : NostrEvent) :
    Meets D h (fun _ _ _ => True) (Ingest.handleWrap U cfg master event) g s := by
  have mark : ∀ (id : String) (o : IngestOutcome), Prog.Quiet (do Ingest.mark id; pure o) :=
    fun _ _ => ⟨rfl, fun _ => trivial⟩
  unfold Ingest.handleWrap
  split
  · exact fun _ _ _ => trivial
  split
  · exact R.of_quiet (mark _ _)
  refine Meets.andThen (R.of_quiet (Prog.Only.call rfl)) fun seen _ _ _ _ => ?_
  split
  · exact fun _ _ _ => trivial
  refine Meets.andThen (R.of_quiet (Prog.Only.call rfl)) fun allowed _ _ _ _ => ?_
  split
  swap
  · exact fun _ _ _ => trivial
  refine Meets.andThen (R.of_quiet (Ingest.quiet_recipientKeys U master event)) fun keys _ _ _ _ => ?_
  split
  · exact R.of_quiet (mark _ _)
  split
  · exact R.of_quiet (mark _ _)
  refine Meets.andThen (R.of_quiet (Prog.Only.call rfl)) fun duplicate _ _ _ _ => ?_
  split
  · exact R.of_quiet ⟨rfl, fun _ => ⟨rfl, fun _ => trivial⟩⟩
  refine Meets.andThen (R.of_quiet (Prog.Only.call rfl)) fun allowed _ _ _ _ => ?_
  split
  · exact R.handOff cfg _ _ _
  · exact fun _ _ _ => trivial

theorem handle (cfg : Config) (master : Secret) (event : NostrEvent) :
    Meets D h (fun _ _ _ => True) (Service.handle U cfg master event) g s := by
  refine Meets.andThen (R.handleWrap cfg master event) fun o _ _ _ _ => ?_
  split
  · refine Meets.andThen (R.of_quiet (Prog.Only.call rfl)) fun sent _ _ _ _ => ?_
    split
    · refine Meets.andThen (I := fun _ _ _ => True) ?_ fun _ _ _ _ _ _ _ _ => trivial
      exact Meets.step (K := fun _ => True) trivial (fun _ _ _ _ h => h) (fun s _ _ => R.replied _ _ s)
        fun _ _ _ _ _ _ _ _ => trivial
    · exact fun _ _ _ => trivial
  all_goals exact fun _ _ _ => trivial

/-- Whatever rail a payment comes in on, the call meets its contract. -/
theorem meets (hrail : h.call.IsRail) :
    Meets D h (fun _ _ _ => True) (code U h.call) g s := by
  have ended : ∀ {α : Type} {p : Io α}, (∀ g s, Meets D h (fun _ _ _ => True) p g s) →
      ∀ (f : α → Reply) g s, Meets D h (fun _ _ _ => True) (p >>= fun a => .ret (f a)) g s :=
    fun hp f g s => (hp g s).andThen fun _ _ _ _ _ _ _ _ => trivial
  cases hc : h.call with
  | receive r payer rc memo mode wh =>
    exact ended (fun g s => R.receive r payer rc memo mode wh g s (.handed hc rfl rfl)) _ g s
  | settle f wh => exact ended (fun g s => R.settle f wh g s (.handed hc rfl)) _ g s
  | foreignReceive cfg slate => exact ended (fun g s => R.foreignReceive cfg slate) _ g s
  | foreignFinalize cfg slate => exact ended (fun g s => R.foreignFinalize cfg slate) _ g s
  | manualSlatepack cfg token armor => exact ended (fun g s => R.manualSlatepack cfg token armor) _ g s
  | handleEvent cfg master event => exact ended (fun g s => R.handle cfg master event) _ g s
  | _ =>
    rw [hc] at hrail
    exact hrail.elim

end Rails

end

end GoblinPay
