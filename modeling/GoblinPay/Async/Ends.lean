import GoblinPay.Async.Process

/-!
# How a program ends

Where nobody interferes, a program is described by what holds when it returns, whatever the environment contributed
(`Ends`), and, stopped anywhere, by what none of its operations breaks (`exec_keeps`). An `ExceptT` block is described by
what holds when it succeeds (`Gives`). What a program leaves wherever it is stopped is what `Stays`.
-/

universe u

namespace Async

variable {E : Type → Type u} {χ σ ε α β : Type} (H : Handler E χ σ)

/-- Whatever the environment contributes, the program returns in `Q`. -/
def Ends (Q : α → σ → Prop) : Prog E α → σ → Prop
  | .ret a, s => Q a s
  | .await e k, s => ∀ x, Ends Q (k (H.act e x s).1) (H.act e x s).2

/-- Whatever the environment contributes, a block that succeeds does so in `Q`. -/
def Gives (Q : α → σ → Prop) (m : ExceptT ε (Prog E) α) (s : σ) : Prop := Ends H (fun r s' => ∀ a, r = .ok a → Q a s') m.run s

variable {H} {Q I : α → σ → Prop} {p : Prog E α} {s s' : σ}

namespace Ends

theorem mono (hp : Ends H Q p s) (h : ∀ a s, Q a s → I a s) : Ends H I p s := by
  induction p generalizing s with
  | ret a => exact h a s hp
  | await e k ih =>
    intro x
    exact ih _ (hp x)

theorem bind {Q : β → σ → Prop} {f : α → Prog E β} (hp : Ends H (fun a s => Ends H Q (f a) s) p s) : Ends H Q (p >>= f) s := by
  induction p generalizing s with
  | ret a => exact hp
  | await e k ih =>
    intro x
    exact ih _ (hp x)

/-- What an execution that returns has ended in. -/
theorem exec {xs : List χ} {a : α} (hp : Ends H Q p s) (h : p.exec H xs s = (.ret a, s')) : Q a s' := by
  induction xs generalizing p s with
  | nil =>
    cases h
    exact hp
  | cons x xs ih =>
    cases p with
    | ret b =>
      cases h
      exact hp
    | await e k => exact ih (hp x) h

/-- What every operation of a program keeps is there when it returns. -/
theorem of_only {S : ∀ {γ : Type}, E γ → Prop} {K : σ → Prop} (hp : p.Only S) (hK : K s)
    (own : ∀ {γ : Type} (e : E γ) x s, S e → K s → K (H.act e x s).2) : Ends H (fun _ s => K s) p s := by
  induction p generalizing s with
  | ret a => exact hK
  | await e k ih =>
    intro x
    exact ih _ (hp.2 _) (own e x s hp.1 hK)

theorem any (p : Prog E α) (s : σ) : Ends H (fun _ _ => True) p s := by
  induction p generalizing s with
  | ret a => trivial
  | await e k ih => exact fun x => ih _ _

theorem and (hp : Ends H Q p s) (hp' : Ends H I p s) : Ends H (fun a s => Q a s ∧ I a s) p s := by
  induction p generalizing s with
  | ret a => exact ⟨hp, hp'⟩
  | await e k ih =>
    intro x
    exact ih _ (hp x) (hp' x)

end Ends

/-- Where the first program stops, or ends in what returns at once, the second has done nothing. -/
theorem Prog.exec_bind_idle (p : Prog E α) (f : α → Prog E β) (xs : List χ) (s : σ)
    (h : ∀ a, (p.exec H xs s).1 = .ret a → ∃ b, f a = .ret b) : ((p >>= f).exec H xs s).2 = (p.exec H xs s).2 := by
  induction xs generalizing p s with
  | nil => rfl
  | cons x xs ih =>
    cases p with
    | ret a =>
      obtain ⟨b, hb⟩ := h a rfl
      rw [Prog.ret_bind, hb]
      rfl
    | await e k => exact ih _ _ h

namespace Gives

variable {m : ExceptT ε (Prog E) α}

theorem mono (hm : Gives H Q m s) (h : ∀ a s, Q a s → I a s) : Gives H I m s :=
  Ends.mono hm fun _ s hr a ha => h a s (hr a ha)

theorem bind {Q : β → σ → Prop} {f : α → ExceptT ε (Prog E) β} (hm : Gives H (fun a s => Gives H Q (f a) s) m s) :
    Gives H Q (m >>= f) s := by
  apply Ends.bind (f := ExceptT.bindCont f)
  apply Ends.mono hm
  intro r s' hr
  cases r with
  | error e =>
    intro b hb
    cases hb
  | ok a => exact hr a rfl

theorem pure {a : α} (h : Q a s) : Gives H Q (pure a : ExceptT ε (Prog E) α) s := by
  intro b hb
  cases hb
  exact h

theorem throw (e : ε) : Gives H Q (throw e : ExceptT ε (Prog E) α) s := by
  intro a ha
  cases ha

theorem lift (hp : Ends H Q p s) : Gives H Q (liftM p : ExceptT ε (Prog E) α) s := by
  apply Ends.bind (f := fun a => Prog.ret (Except.ok a))
  apply Ends.mono hp
  intro a s' ha b hb
  cases hb
  exact ha

theorem exec {xs : List χ} {a : α} (hm : Gives H Q m s) (h : m.run.exec H xs s = (.ret (.ok a), s')) : Q a s' :=
  Ends.exec hm h a rfl

end Gives

/-! ## What stays -/

/-- Wherever it is stopped on inputs `A` allows, a program that starts in `K` leaves `K`. -/
def Stays (H : Handler E χ σ) (K : σ → Prop) (A : {γ : Type} → E γ → χ → Prop) (p : Prog E α) : Prop :=
  ∀ s, K s → Meets (.solo H (fun _ s => K s) (fun e x _ => A e x) fun g _ _ => g) () (fun (_ : α) (_ : Unit) s => K s) p () s

namespace Stays

variable {K : σ → Prop} {A : {γ : Type} → E γ → χ → Prop}

theorem of_only {S : ∀ {γ : Type}, E γ → Prop} (hp : p.Only S) (own : ∀ {γ : Type} (e : E γ) x s, S e → K s → K (H.act e x s).2) :
    Stays H K A p := by
  intro s hs
  apply Meets.of_only_keep (K := K) hp hs
  · intro _ s s' hrely _ hK
    have same : s' = s := hrely
    rw [same]
    exact hK
  · intro _ _ _ _ _ _ hK
    exact hK
  · intro _ e x s he _ hK _
    exact own e x s he hK

theorem bind {f : α → Prog E β} (hp : Stays H K A p) (hf : ∀ a, Stays H K A (f a)) : Stays H K A (p >>= f) := by
  intro s hs
  apply Meets.andThen (hp s hs)
  intro a _ s' _ hs'
  exact hf a s' hs'

theorem ret (a : α) : Stays H K A (.ret a) := fun _ hs => Meets.soloRet hs

theorem bindExcept {m : ExceptT ε (Prog E) α} {f : α → ExceptT ε (Prog E) β} (hm : Stays H K A m.run) (hf : ∀ a, Stays H K A (f a).run) :
    Stays H K A (m >>= f).run := by
  apply Stays.bind (f := ExceptT.bindCont f) hm
  intro r
  cases r with
  | error e => exact ret _
  | ok a => exact hf a

/-- Wherever an execution on allowed inputs stops, `K` holds. -/
theorem exec (hp : Stays H K A p) (hs : K s) (xs : List χ) (hx : ∀ ev ∈ p.events H () xs s, A ev.eff ev.input) : K (p.exec H xs s).2 := by
  rcases Meets.soloExec (hp s hs) xs hx with ⟨_, _, hend⟩ | ⟨_, hstop⟩
  · exact hend
  · exact hstop

end Stays

end Async
