import GoblinPay.Async.Process

/-!
# One worker

Programs of one family run one after the other, and between any two of their operations others may run, each on
its own. A call that is taken up ends the one before it wherever that stands: it has returned, or its process has
stopped. `Serial.inv_run` carries the invariant of a `Discipline` through every such run.

`Handler.noting` keeps a history beside the state.
-/

universe u

namespace Async

variable {E : Type → Type u} {γ χ σ ρ ι κ Own : Type}

/-- What happens next: the worker takes up a call, it performs its next operation, or one of the others runs. -/
inductive Turn (γ χ ι : Type)
  | take (c : γ)
  | work (x : χ)
  | other (i : ι) (x : χ)

structure Serial (E : Type → Type u) (σ ρ : Type) where
  state : σ
  /-- what is left of the call in hand -/
  rest : Option (Prog E ρ)

/-- An operation and the type of its answer. -/
abbrev Op (E : Type → Type u) := (β : Type) × E β

namespace Serial

variable (H : Handler E χ σ) (code : γ → Prog E ρ) (ops : ι → Op E)

def start (s : σ) : Serial E σ ρ := ⟨s, none⟩

def step (S : Serial E σ ρ) : Turn γ χ ι → Serial E σ ρ
  | .take c => ⟨S.state, some (code c)⟩
  | .work x =>
    match S.rest with
    | some (.await e k) => ⟨(H.act e x S.state).2, some (k (H.act e x S.state).1)⟩
    | _ => S
  | .other i x => ⟨(H.act (ops i).2 x S.state).2, S.rest⟩

def run : Serial E σ ρ → List (Turn γ χ ι) → Serial E σ ρ
  | S, [] => S
  | S, t :: ts => run (step H code ops S t) ts

/-- The invariant holds, and the call in hand meets its contract. -/
structure Kept (D : Discipline H Unit Own) (S : Serial E σ ρ) : Prop where
  inv : D.inv S.state
  rest : ∀ p, S.rest = some p → ∃ g, Meets D () (fun _ _ _ => True) p g S.state

variable {H code ops} {D : Discipline H Unit Own} {S : Serial E σ ρ}

theorem Kept.step (h : Kept H D S) (t : Turn γ χ ι)
    (keeps : ∀ {β} {e : E β} {g x s}, D.inv s → D.before () g e s → D.allowed () e x s ∧ D.inv (H.act e x s).2)
    (yields : ∀ {i x s}, D.inv s → D.inv (H.act (ops i).2 x s).2 ∧ ∀ g, D.rely () g s (H.act (ops i).2 x s).2)
    (meets : ∀ {c s}, D.inv s → ∃ g, Meets D () (fun _ _ _ => True) (code c) g s) :
    Kept H D (S.step H code ops t) := by
  cases t with
  | take c =>
    refine ⟨h.inv, ?_⟩
    intro p hp
    obtain rfl : code c = p := Option.some.inj hp
    exact meets h.inv
  | other i x =>
    obtain ⟨hinv, hrely⟩ := yields (i := i) (x := x) h.inv
    refine ⟨hinv, ?_⟩
    intro p hp
    obtain ⟨g, hm⟩ := h.rest p hp
    exact ⟨g, hm.stable (hrely g)⟩
  | work x =>
    cases hrest : S.rest with
    | none =>
      have hstay : S.step H code ops (.work x) = S := by
        simp only [Serial.step, hrest]
      rw [hstay]
      exact h
    | some p =>
      cases p with
      | ret r =>
        have hstay : S.step H code ops (.work x) = S := by
          simp only [Serial.step, hrest]
        rw [hstay]
        exact h
      | await e k =>
        have hmove : S.step H code ops (.work x) = ⟨(H.act e x S.state).2, some (k (H.act e x S.state).1)⟩ := by
          simp only [Serial.step, hrest]
        obtain ⟨g, hm⟩ := h.rest _ hrest
        obtain ⟨hb, hk⟩ := hm S.state (D.rely_refl () g S.state) h.inv
        obtain ⟨hx, hinv⟩ := keeps (x := x) h.inv hb
        rw [hmove]
        refine ⟨hinv, ?_⟩
        intro p hp
        cases hp
        exact ⟨_, hk x hx⟩

/-- What the operations keep, where the contract issues them and wherever the others run theirs, holds at the end
of every run. -/
theorem inv_run {s : σ} (hs : D.inv s)
    (keeps : ∀ {β} {e : E β} {g x s}, D.inv s → D.before () g e s → D.allowed () e x s ∧ D.inv (H.act e x s).2)
    (yields : ∀ {i x s}, D.inv s → D.inv (H.act (ops i).2 x s).2 ∧ ∀ g, D.rely () g s (H.act (ops i).2 x s).2)
    (meets : ∀ {c s}, D.inv s → ∃ g, Meets D () (fun _ _ _ => True) (code c) g s) (ts : List (Turn γ χ ι)) :
    D.inv (run H code ops (start s) ts).state := by
  have kept : ∀ (ts : List (Turn γ χ ι)) (S : Serial E σ ρ), Kept H D S → Kept H D (run H code ops S ts) := by
    intro ts
    induction ts with
    | nil => exact fun S h => h
    | cons t ts ih => exact fun S h => ih _ (h.step t keeps yields meets)
  exact (kept ts (start s) ⟨hs, nofun⟩).inv

end Serial

/-- A handler that keeps a history of what its operations note, beside the state. -/
def Handler.noting (H : Handler E χ σ) (note : {β : Type} → E β → β → σ → Option κ) : Handler E χ (σ × List κ) where
  act e x s := ((H.act e x s.1).1, (H.act e x s.1).2, s.2 ++ (note e (H.act e x s.1).1 s.1).toList)

end Async
