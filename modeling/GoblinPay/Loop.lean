/-!
# Loops

A `loop` whose body goes round again or breaks with a value, run for a number of turns.
-/

namespace GoblinPay

variable {σ β : Type}

inductive Round (σ β : Type)
  | again (s : σ)
  | done (b : β)

namespace Round

def loop (body : σ → Round σ β) : Nat → σ → Option β
  | 0, _ => none
  | turns + 1, s =>
    match body s with
    | .again s' => loop body turns s'
    | .done b => some b

/-- A loop with something that shrinks each time it goes round ends, with what its invariant gives where it breaks. -/
theorem loop_total {body : σ → Round σ β} (μ : σ → Nat) (I : σ → Prop) (Q : β → Prop)
    (hagain : ∀ s s', I s → body s = .again s' → I s' ∧ μ s' < μ s) (hdone : ∀ s b, I s → body s = .done b → Q b)
    {turns : Nat} {s : σ} (hs : I s) (hturns : μ s < turns) : ∃ b, loop body turns s = some b ∧ Q b := by
  induction turns generalizing s with
  | zero => exact absurd hturns (Nat.not_lt_zero _)
  | succ turns ih =>
    rw [loop]
    cases hbody : body s with
    | again s' =>
      obtain ⟨hs', hless⟩ := hagain s s' hs hbody
      exact ih hs' (by omega)
    | done b => exact ⟨b, rfl, hdone s b hs hbody⟩

end Round

end GoblinPay
