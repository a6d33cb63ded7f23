import Mathlib.Logic.Basic

/-!
# Fallible computations

What a sequence of computations in `Except` gives, from what its steps give: its result where it succeeds, and how two such
sequences agree when their steps do.
-/

namespace GoblinPay.Outcome

variable {ε α β γ δ : Type}

/-- A sequence succeeds where both of its steps do. -/
theorem bind_ok {x : Except ε α} {f : α → Except ε β} {b : β} : (x >>= f) = .ok b ↔ ∃ a, x = .ok a ∧ f a = .ok b := by
  cases x with
  | error e => exact ⟨nofun, nofun⟩
  | ok a =>
    constructor
    · intro h
      exact ⟨a, rfl, h⟩
    · rintro ⟨_, ⟨⟩, h⟩
      exact h

/-- An error that is wrapped is still one. -/
theorem mapError_ok {ε' : Type} {x : Except ε α} {f : ε → ε'} {a : α} : x.mapError f = .ok a ↔ x = .ok a := by
  cases x with
  | error e => exact ⟨nofun, nofun⟩
  | ok b => exact ⟨fun h => congrArg Except.ok (Except.ok.inj h), fun h => congrArg Except.ok (Except.ok.inj h)⟩

/-- Both fail with the same error, or both succeed with values `f` does not tell apart. -/
def Agree (f : α → β) (x y : Except ε α) : Prop := x.map f = y.map f

section Agree

variable {f : α → β} {x y : Except ε α}

theorem Agree.refl (f : α → β) (x : Except ε α) : Agree f x x := rfl

theorem Agree.ok {a b : α} (h : f a = f b) : Agree (ε := ε) f (.ok a) (.ok b) := congrArg Except.ok h

/-- Steps that agree on what `f` tells apart are followed by steps that do. -/
theorem Agree.bind {g : γ → δ} {k l : α → Except ε γ} (h : Agree f x y) (hk : ∀ a b, f a = f b → Agree g (k a) (l b)) :
    Agree g (x >>= k) (y >>= l) := by
  cases x with
  | error e =>
    cases y with
    | error e' =>
      cases h
      rfl
    | ok b => cases h
  | ok a =>
    cases y with
    | error e => cases h
    | ok b => exact hk a b (Except.ok.inj h)

/-- A step both take alike. -/
theorem Agree.step {g : γ → δ} {k l : α → Except ε γ} (h : x = y) (hk : ∀ a, Agree g (k a) (l a)) :
    Agree g (x >>= k) (y >>= l) := by
  subst h
  apply Agree.bind (Agree.refl id x)
  intro a b hab
  cases hab
  exact hk a

/-- Two that agree fail with the same errors. -/
theorem Agree.errors (h : Agree f x y) (e : ε) : x = .error e ↔ y = .error e := by
  cases x with
  | error a =>
    cases y with
    | error b =>
      cases h
      exact Iff.rfl
    | ok b => cases h
  | ok a =>
    cases y with
    | error b => cases h
    | ok b =>
      constructor
      · intro h'
        cases h'
      · intro h'
        cases h'

/-- Two that agree succeed with values `f` does not tell apart. -/
theorem Agree.values {a b : α} (h : Agree f x y) (hx : x = .ok a) (hy : y = .ok b) : f a = f b := by
  subst hx
  subst hy
  exact Except.ok.inj h

end Agree

end GoblinPay.Outcome
