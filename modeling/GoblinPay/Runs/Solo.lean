import GoblinPay.Async.Process
import GoblinPay.Runs.Rules
import GoblinPay.Wallet.GpWallet

/-!
# One request on its own

The rules of `Discipline.solo` for the server's operations: a request that nobody interferes with,
whose statements and calls may fail and which may be stopped between any two of them.
-/

namespace GoblinPay

open Async Sql

section

variable {W Own : Type} (U : Upstream W) (P : Own → World W → Prop) (A : {β : Type} → Eff β → Answer → Prop)
  (gain : {β : Type} → Own → Eff β → β → Own)

/-- A request on its own, on answers in `A`: wherever it is stopped, it leaves `P`. -/
def request : Discipline (handler U) Unit Own := .solo (handler U) P (fun e x _ => A e x) gain

/-- A request on its own that keeps no account of its answers. -/
abbrev plainRequest (P : World W → Prop) : Discipline (handler U) Unit Unit :=
  request U (fun (_ : Unit) => P) A fun _ _ _ => ()

/-- The answers a statement may get. -/
def OnSql (A : {β : Type} → Eff β → Answer → Prop) (x : Answer) : Prop := ∃ (β : Type) (q : Stmt β), A (.sql q) x

variable {U P A gain} {α β : Type} {Q : α → Own → World W → Prop} {g : Own} {s : World W} {q : Stmt β}

/-- A statement whose answer, good or bad, the program looks at itself. -/
theorem request_sql {f : Except SqlxError β → Io α} (hP : P g s)
    (hok : ∀ x b, OnSql A x → x.fault = none → (q.exec s.now x.choice s.db).1 = .ok b →
      Meets (request U P A gain) () Q (f (.ok b)) (gain g (.sql q) (.ok b)) (s.exec q x.choice))
    (herror : ∀ x e, OnSql A x → (act U x s (.sql q)).1 = .error e →
      Meets (request U P A gain) () Q (f (.error e)) (gain g (.sql q) (.error e)) s) :
    Meets (request U P A gain) () Q ((sql q).run >>= f) g s := by
  refine Meets.soloStep (k := f) hP fun x hx => ?_
  rcases hr : (act U x s (.sql q)).1 with e | b
  · have hs := act_sql_error hr
    simp only [handler, hr, hs]
    exact herror x e ⟨_, q, hx⟩ hr
  · obtain ⟨hf, hq, hs⟩ := act_sql_ok hr
    simp only [handler, hr, hs]
    exact hok x b ⟨_, q, hx⟩ hf hq

/-- A statement inside a function that returns its error. -/
theorem request_sqlThen {Q : Except SqlxError α → Own → World W → Prop} {f : β → ExceptT SqlxError Io α} (hP : P g s)
    (hok : ∀ x b, OnSql A x → x.fault = none → (q.exec s.now x.choice s.db).1 = .ok b →
      Meets (request U P A gain) () Q (f b).run (gain g (.sql q) (.ok b)) (s.exec q x.choice))
    (herror : ∀ x e, OnSql A x → (act U x s (.sql q)).1 = .error e → Q (.error e) (gain g (.sql q) (.error e)) s) :
    Meets (request U P A gain) () Q (sql q >>= f).run g s :=
  request_sql (f := ExceptT.bindCont f) hP hok fun x e hx he => Meets.soloRet (herror x e hx he)

/-- A call into the wallet, the node or a relay inside a function that returns its error. -/
theorem alone_upstream {χ γ : Type} {H : Handler Eff χ (World W)} {before : {β : Type} → Unit → Own → Eff β → World W → Prop}
    {allowed : {β : Type} → Unit → Eff β → χ → World W → Prop} {e : Eff (Except String γ)} {wrap : String → WalletError}
    {Q : Except WalletError α → Own → World W → Prop} {f : γ → ExceptT WalletError Io α} (hb : before () g e s)
    (hok : ∀ x a, allowed () e x s → (H.act e x s).1 = .ok a →
      Meets (.alone H (fun _ => True) before allowed gain) () Q (f a).run (gain g e (.ok a)) (H.act e x s).2)
    (herror : ∀ x m, allowed () e x s → (H.act e x s).1 = .error m →
      Q (.error (wrap m)) (gain g e (.error m)) (H.act e x s).2) :
    Meets (.alone H (fun _ => True) before allowed gain) () Q (GpWallet.upstream e wrap >>= f).run g s := by
  rw [GpWallet.upstream_bind]
  refine Meets.aloneStep hb fun x hx => ?_
  rcases hr : (H.act e x s).1 with m | a
  · exact Meets.aloneRet (herror x m hx hr)
  · exact hok x a hx hr

theorem request_upstream {γ : Type} {e : Eff (Except String γ)} {wrap : String → WalletError}
    {Q : Except WalletError α → Own → World W → Prop} {f : γ → ExceptT WalletError Io α} (hP : P g s)
    (hok : ∀ x a, A e x → (act U x s e).1 = .ok a →
      Meets (request U P A gain) () Q (f a).run (gain g e (.ok a)) (act U x s e).2)
    (herror : ∀ x m, A e x → (act U x s e).1 = .error m → Q (.error (wrap m)) (gain g e (.error m)) (act U x s e).2) :
    Meets (request U P A gain) () Q (GpWallet.upstream e wrap >>= f).run g s := alone_upstream hP hok herror

/-- Some allowed answer is a failure. -/
def Faulty (A : {β : Type} → Eff β → Answer → Prop) : Prop := ∃ (β : Type) (e : Eff β) (x : Answer), A e x ∧ x.fault ≠ none

/-- A statement that cannot fail by itself fails on a fault only. -/
theorem fault_of_error {x : Answer} {e : SqlxError} (h : (act U x s (.sql q)).1 = .error e)
    (hq : ∀ e', (q.exec s.now x.choice s.db).1 ≠ .error e') : x.fault ≠ none := by
  intro hf
  simp only [act, hf] at h
  exact hq e h

end

/-! ## Without failures -/

section

variable {W α β : Type} {U : Upstream W} {s : World W} {q : Stmt β} {b : β}

/-- No operation fails. -/
def Faultless {β : Type} (_ : Eff β) (x : Answer) : Prop := x.fault = none

theorem fault_of_faultless {x : Answer} (h : OnSql Faultless x) : x.fault = none := by
  obtain ⟨β, q, hx⟩ := h
  exact hx

/-- A statement that does not fail by itself, in a request without failures. -/
theorem faultless_sql {Q : Except SqlxError α → Unit → World W → Prop}
    {f : β → ExceptT SqlxError Io α} (hq : ∀ choice, (q.exec s.now choice s.db).1 = .ok b)
    (hf : ∀ choice, Meets (plainRequest U Faultless fun _ => True) () Q (f b).run () (s.exec q choice)) :
    Meets (plainRequest U Faultless fun _ => True) () Q (sql q >>= f).run () s := by
  refine request_sqlThen trivial ?_ ?_
  · intro x b' _ _ hb
    rw [hq] at hb
    cases hb
    exact hf x.choice
  · intro x e hx he
    exact absurd (fault_of_faultless hx) (fault_of_error he fun e' => by rw [hq]; exact nofun)

theorem faultless_end {Q : Except SqlxError β → Unit → World W → Prop}
    (hq : ∀ choice, (q.exec s.now choice s.db).1 = .ok b) (hQ : ∀ choice, Q (.ok b) () (s.exec q choice)) :
    Meets (plainRequest U Faultless fun _ => True) () Q (sql q).run () s := by
  refine Meets.soloStep trivial ?_
  intro x hx
  have hf : x.fault = none := hx
  have hans : ((handler U).act (.sql q) x s).1 = .ok b := by
    simp only [handler, act, hf, hq]
  have hafter : ((handler U).act (.sql q) x s).2 = s.exec q x.choice := by
    simp only [handler, act, hf, World.exec]
  rw [hans, hafter]
  exact Meets.soloRet (hQ x.choice)

/-- A request without failures that has returned ended in its postcondition. -/
theorem faultless_exec {p : Io α} {Q : α → Unit → World W → Prop} (hm : Meets (plainRequest U Faultless fun _ => True) () Q p () s)
    {xs : List Answer} {r : α} (hxs : ∀ x ∈ xs, x.fault = none) (hr : (p.exec (handler U) xs s).1 = .ret r) :
    Q r () (p.exec (handler U) xs s).2 := by
  have hallowed : ∀ ev ∈ p.events (handler U) () xs s, Faultless ev.eff ev.input := by
    intro ev hev
    exact hxs ev.input (Prog.input_mem_of_events hev)
  rcases hm.soloExec xs hallowed with ⟨a, ha, hQ⟩ | ⟨hstop, -⟩
  · rw [hr] at ha
    cases ha
    exact hQ
  · exact absurd hr (hstop r)

/-- Every request returns on some answers without failures. -/
theorem exists_faultless (U : Upstream W) (p : Io α) (s : World W) :
    ∃ xs, (∀ x ∈ xs, x.fault = none) ∧ ∃ r, (p.exec (handler U) xs s).1 = .ret r := by
  obtain ⟨xs, r, hr, -, hxs⟩ := Prog.exec_total (handler U) () (fun _ => ({} : Answer)) p s
  refine ⟨xs, ?_, r, hr⟩
  intro x hx
  obtain ⟨β, e, rfl⟩ := hxs x hx
  rfl

end

theorem Answer.of_orElse_ok {ε α : Type} {x : Answer} {fail : String → ε} {r : Except ε α} {a : α}
    (h : x.orElse fail r = .ok a) : x.fault = none ∧ r = .ok a := by
  unfold Answer.orElse at h
  split at h
  · cases h
  · exact ⟨‹_›, h⟩

theorem Answer.of_orElse_error {ε α : Type} {x : Answer} {fail : String → ε} {r : Except ε α} {e : ε}
    (h : x.orElse fail r = .error e) : x.fault ≠ none ∨ r = .error e := by
  unfold Answer.orElse at h
  split at h
  · rename_i hf
    exact Or.inl (by simp [hf])
  · exact Or.inr h

end GoblinPay
