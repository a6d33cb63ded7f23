import Mathlib.Logic.Function.Basic

/-!
# Asynchronous programs

A program is a tree of the operations it awaits. Between two operations it holds no shared
state, so anything may happen there: another program runs, or the process stops. A `Handler`
says what one operation does to the shared state and what it answers; everything the
environment decides (a failure, a random draw, the reply of another party) is one value of
a type `χ`.

A `Discipline` is a rely/guarantee contract over the programs of one family. `Meets` says
that a program keeps it from a state on: whatever the others did in between, the operation
it issues next satisfies `before`, and it ends in its postcondition.
-/

universe u

namespace Async

/-- A program that awaits operations of the signature `E` and returns an `α`. -/
inductive Prog (E : Type → Type u) (α : Type) : Type (max 1 u)
  | ret (a : α) : Prog E α
  | await {β : Type} (e : E β) (k : β → Prog E α) : Prog E α

namespace Prog

variable {E : Type → Type u} {α β ε : Type}

def bind : Prog E α → (α → Prog E β) → Prog E β
  | .ret a, f => f a
  | .await e k, f => .await e fun b => (k b).bind f

instance : Monad (Prog E) where
  pure := .ret
  bind := bind

/-- Issue one operation and return its answer. -/
def call (e : E β) : Prog E β := .await e .ret

/-- Issue one fallible operation; its error ends the surrounding `ExceptT` block. -/
def attempt (e : E (Except ε β)) : ExceptT ε (Prog E) β := ExceptT.mk (call e)

@[simp] theorem pure_eq (a : α) : (pure a : Prog E α) = .ret a := rfl

@[simp] theorem ret_bind (a : α) (f : α → Prog E β) : (Prog.ret a >>= f) = f a := rfl

@[simp] theorem await_bind {γ : Type} (e : E γ) (k : γ → Prog E α) (f : α → Prog E β) :
    (Prog.await e k >>= f) = .await e fun c => k c >>= f := rfl

@[simp] theorem call_bind (e : E β) (f : β → Prog E α) : (call e >>= f) = .await e f := rfl

theorem bind_assoc {γ : Type} (p : Prog E α) (f : α → Prog E β) (k : β → Prog E γ) :
    (p >>= f) >>= k = p >>= fun a => f a >>= k := by
  induction p with
  | ret a => rfl
  | await e j ih => exact congrArg (Prog.await e) (funext fun b => ih b)

theorem bind_ret (p : Prog E α) : (p >>= Prog.ret) = p := by
  induction p with
  | ret a => rfl
  | await e j ih => exact congrArg (Prog.await e) (funext fun b => ih b)

/-- `S` holds of every operation the program can issue, whatever it is answered. -/
def Only (S : ∀ {γ : Type}, E γ → Prop) : Prog E α → Prop
  | .ret _ => True
  | .await e k => S e ∧ ∀ b, Only S (k b)

section Only

variable {S : ∀ {γ : Type}, E γ → Prop}

theorem Only.bind {p : Prog E α} {f : α → Prog E β} (hp : p.Only S) (hf : ∀ a, (f a).Only S) :
    (p >>= f).Only S := by
  induction p with
  | ret a => exact hf a
  | await e k ih => exact ⟨hp.1, fun b => ih b (hp.2 b)⟩

theorem Only.call {e : E β} (he : S e) : (call e).Only S := ⟨he, fun _ => trivial⟩

theorem Only.bindExcept {m : ExceptT ε (Prog E) α} {f : α → ExceptT ε (Prog E) β}
    (hm : m.run.Only S) (hf : ∀ a, (f a).run.Only S) : (m >>= f).run.Only S := by
  refine Only.bind (f := ExceptT.bindCont f) hm ?_
  rintro (e | a)
  · exact trivial
  · exact hf a

theorem Only.lift {p : Prog E α} (hp : p.Only S) : (liftM p : ExceptT ε (Prog E) α).run.Only S :=
  Only.bind hp fun _ => trivial

theorem Only.mono {S' : ∀ {γ : Type}, E γ → Prop} {p : Prog E α} (hp : p.Only S)
    (h : ∀ {γ : Type} (e : E γ), S e → S' e) : p.Only S' := by
  induction p with
  | ret a => exact trivial
  | await e k ih => exact ⟨h e hp.1, fun b => ih b (hp.2 b)⟩

end Only

end Prog

/-- What an operation answers and does to the shared state, given what the environment
contributes. -/
structure Handler (E : Type → Type u) (χ σ : Type) where
  act : {β : Type} → E β → χ → σ → β × σ

/-- A rely/guarantee contract for a family of programs, each with a head `η` (which call it
serves) and with ghost data `Own` that grows with the answers the program gets. -/
structure Discipline {E : Type → Type u} {χ σ : Type} (H : Handler E χ σ) (η Own : Type) where
  /-- holds of the shared state between any two operations -/
  inv : σ → Prop
  /-- what the others may do while the program waits -/
  rely : η → Own → σ → σ → Prop
  /-- what holds where the program issues an operation -/
  before : {β : Type} → η → Own → E β → σ → Prop
  /-- what the environment may answer, and where -/
  allowed : {β : Type} → η → E β → χ → σ → Prop
  gain : {β : Type} → Own → E β → β → Own
  rely_refl : ∀ h g s, rely h g s s
  rely_trans : ∀ {h g s₁ s₂ s₃}, rely h g s₁ s₂ → rely h g s₂ s₃ → rely h g s₁ s₃

/-- A postcondition of an `ExceptT` block that says nothing about a failure. -/
def OnOk {ε α Own σ : Type} (P : α → Own → σ → Prop) : Except ε α → Own → σ → Prop
  | .ok a => P a
  | .error _ => fun _ _ => True

section Meets

variable {E : Type → Type u} {χ σ η Own : Type} {H : Handler E χ σ}
  (D : Discipline H η Own) (h : η) {α β : Type}

/-- From the state `s` on, the program issues its operations as `D.before` demands and ends
in `Q`, as long as the others keep to `D.rely` and the environment to `D.allowed`. -/
def Meets (Q : α → Own → σ → Prop) : Prog E α → Own → σ → Prop
  | .ret a, g, s => ∀ s', D.rely h g s s' → D.inv s' → Q a g s'
  | .await e k, g, s => ∀ s', D.rely h g s s' → D.inv s' → D.before h g e s' ∧
      ∀ x, D.allowed h e x s' →
        Meets Q (k (H.act e x s').1) (D.gain g e (H.act e x s').1) (H.act e x s').2

variable {D h} {Q I : α → Own → σ → Prop} {p : Prog E α} {g : Own} {s s' : σ}

namespace Meets

/-- A program meets its contract from every state the others may lead to. -/
theorem stable (hp : Meets D h Q p g s) (hr : D.rely h g s s') : Meets D h Q p g s' := by
  cases p with
  | ret a => exact fun s'' hs hi => hp s'' (D.rely_trans hr hs) hi
  | await e k => exact fun s'' hs hi => hp s'' (D.rely_trans hr hs) hi

theorem mono (hp : Meets D h Q p g s) (hq : ∀ a g s, D.inv s → Q a g s → I a g s) :
    Meets D h I p g s := by
  induction p generalizing g s with
  | ret a => exact fun s' hs hi => hq a g s' hi (hp s' hs hi)
  | await e k ih =>
    intro s' hs hi
    obtain ⟨hb, hk⟩ := hp s' hs hi
    exact ⟨hb, fun x hx => ih _ (hk x hx)⟩

/-- Sequencing: the first part ends where the second part meets its own contract. The end of
the first part is no point of its own: what the others do there, they do before the second
part issues its first operation. -/
theorem bind {Q : β → Own → σ → Prop} {f : α → Prog E β}
    (hp : Meets D h (fun a g s => Meets D h Q (f a) g s) p g s) : Meets D h Q (p >>= f) g s := by
  induction p generalizing g s with
  | ret a =>
    have here : ∀ s', D.rely h g s s' → D.inv s' → Meets D h Q (f a) g s' := hp
    change Meets D h Q (f a) g s
    cases hfa : f a with
    | ret b => exact fun s' hs hi => (hfa ▸ here s' hs hi : Meets D h Q (.ret b) g s') s' (D.rely_refl h g s') hi
    | await e k =>
      exact fun s' hs hi => (hfa ▸ here s' hs hi : Meets D h Q (.await e k) g s') s' (D.rely_refl h g s') hi
  | await e k ih =>
    intro s' hs hi
    obtain ⟨hb, hk⟩ := hp s' hs hi
    exact ⟨hb, fun x hx => ih _ (hk x hx)⟩

theorem andThen {Q : β → Own → σ → Prop} {f : α → Prog E β} (hp : Meets D h I p g s)
    (hf : ∀ a g s, D.inv s → I a g s → Meets D h Q (f a) g s) : Meets D h Q (p >>= f) g s :=
  (hp.mono hf).bind

/-- Mapping the answer of a program maps its postcondition. -/
theorem of_map {Q : β → Own → σ → Prop} {f : α → β} (hp : Meets D h Q (f <$> p) g s) :
    Meets D h (fun a => Q (f a)) p g s := by
  induction p generalizing g s with
  | ret a => exact hp
  | await e k ih =>
    intro s' hs hi
    obtain ⟨hb, hk⟩ := hp s' hs hi
    exact ⟨hb, fun x hx => ih _ (hk x hx)⟩

/-- Sequencing in an `ExceptT` block: an error ends the block. -/
theorem tryThen {ε : Type} {P : Except ε α → Own → σ → Prop} {Q : Except ε β → Own → σ → Prop}
    {m : ExceptT ε (Prog E) α} {f : α → ExceptT ε (Prog E) β} (hm : Meets D h P m.run g s)
    (hok : ∀ a g s, D.inv s → P (.ok a) g s → Meets D h Q (f a).run g s)
    (herror : ∀ e g s, D.inv s → P (.error e) g s → Meets D h Q (.ret (.error e)) g s) :
    Meets D h Q (m >>= f).run g s := by
  refine Meets.andThen (f := ExceptT.bindCont f) hm ?_
  rintro (e | a) g s hi hr
  · exact herror e g s hi hr
  · exact hok a g s hi hr

theorem failed {ε : Type} {P : α → Own → σ → Prop} (e : ε) :
    Meets D h (OnOk P) (.ret (.error e)) g s := fun _ _ _ => trivial

/-- Sequencing where an error ends the block and owes nothing. -/
theorem tryOk {ε : Type} {P : α → Own → σ → Prop} {Q : β → Own → σ → Prop}
    {m : ExceptT ε (Prog E) α} {f : α → ExceptT ε (Prog E) β} (hm : Meets D h (OnOk P) m.run g s)
    (hok : ∀ a g s, D.inv s → P a g s → Meets D h (OnOk Q) (f a).run g s) :
    Meets D h (OnOk Q) (m >>= f).run g s :=
  hm.tryThen hok fun e _ _ _ _ => failed e

/-- One operation, issued where `K` holds; the others keep `K` while the program waits. -/
theorem step {K : σ → Prop} {e : E β} {k : β → Prog E α} (hK : K s)
    (keep : ∀ s s', D.rely h g s s' → D.inv s' → K s → K s')
    (hb : ∀ s, D.inv s → K s → D.before h g e s)
    (hk : ∀ x s, D.inv s → K s → D.allowed h e x s →
      Meets D h Q (k (H.act e x s).1) (D.gain g e (H.act e x s).1) (H.act e x s).2) :
    Meets D h Q (.await e k) g s :=
  fun s' hr hi => ⟨hb s' hi (keep s s' hr hi hK), fun x hx => hk x s' hi (keep s s' hr hi hK) hx⟩

/-- A program that only issues operations it owes nothing for meets the trivial contract. -/
theorem of_only {S : ∀ {γ : Type}, E γ → Prop} (hp : p.Only S)
    (hS : ∀ {γ : Type} (e : E γ) g s, S e → D.before h g e s) :
    Meets D h (fun _ _ _ => True) p g s := by
  induction p generalizing g s with
  | ret a => exact fun _ _ _ => trivial
  | await e k ih => exact fun s' _ _ => ⟨hS e g s' hp.1, fun x _ => ih _ (hp.2 _)⟩

/-- Where none of these operations tells the program anything, its ghost data stays. -/
theorem of_only_same {S : ∀ {γ : Type}, E γ → Prop} (hp : p.Only S)
    (hS : ∀ {γ : Type} (e : E γ) s, S e → D.before h g e s)
    (hg : ∀ {γ : Type} (e : E γ) b, S e → D.gain g e b = g) : Meets D h (fun _ g' _ => g' = g) p g s := by
  induction p generalizing s with
  | ret a => exact fun _ _ _ => rfl
  | await e k ih =>
    refine fun s' _ _ => ⟨hS e s' hp.1, fun x _ => ?_⟩
    rw [hg e _ hp.1]
    exact ih _ (hp.2 _)

/-- What a program's own operations carry on, with what they tell it, while the others leave it. -/
theorem of_only_carry {S : ∀ {γ : Type}, E γ → Prop} {K : Own → σ → Prop} (hp : p.Only S) (hK : K g s)
    (keep : ∀ g s s', D.rely h g s s' → D.inv s' → K g s → K g s')
    (hS : ∀ {γ : Type} (e : E γ) g s, S e → D.inv s → K g s → D.before h g e s)
    (own : ∀ {γ : Type} (e : E γ) x g s, S e → D.inv s → K g s → D.allowed h e x s →
      K (D.gain g e (H.act e x s).1) (H.act e x s).2) :
    Meets D h (fun _ g s => K g s) p g s := by
  induction p generalizing g s with
  | ret a => exact fun s' hr hi => keep g s s' hr hi hK
  | await e k ih =>
    intro s' hr hi
    have hK' := keep g s s' hr hi hK
    exact ⟨hS e g s' hp.1 hi hK', fun x hx => ih _ (hp.2 _) (own e x g s' hp.1 hi hK' hx)⟩

/-- What neither the others nor the program's own operations change is kept to its end. -/
theorem of_only_keep {S : ∀ {γ : Type}, E γ → Prop} {K : σ → Prop} (hp : p.Only S) (hK : K s)
    (keep : ∀ g s s', D.rely h g s s' → D.inv s' → K s → K s')
    (hS : ∀ {γ : Type} (e : E γ) g s, S e → D.inv s → K s → D.before h g e s)
    (own : ∀ {γ : Type} (e : E γ) x s, S e → D.inv s → K s → D.allowed h e x s → K (H.act e x s).2) :
    Meets D h (fun _ _ s => K s) p g s :=
  of_only_carry (K := fun _ => K) hp hK keep hS fun e x _ s => own e x s

/-- A contract that demands nothing anywhere is met by every program. -/
theorem of_before (hb : ∀ {γ : Type} (e : E γ) g s, D.before h g e s) (p : Prog E α) (g : Own) (s : σ) :
    Meets D h (fun _ _ _ => True) p g s := by
  induction p generalizing g s with
  | ret a => exact fun _ _ _ => trivial
  | await e k ih => exact fun s' _ _ => ⟨hb e g s', fun x _ => ih _ _ _⟩

end Meets

end Meets

end Async
