import GoblinPay.Async.Pool

/-!
# One program on its own

`Prog.exec` runs a program against a list of environment inputs. When the inputs run out
before the program returns, the process has stopped there: what is left is the rest of the
program, which nobody will run, and the state it left behind.
-/

universe u

namespace Async

variable {E : Type → Type u} {χ σ η Own α β : Type}

namespace Prog

variable (H : Handler E χ σ)

def exec : List χ → Prog E α → σ → Prog E α × σ
  | [], p, s => (p, s)
  | _ :: _, .ret a, s => (.ret a, s)
  | x :: xs, .await e k, s => exec xs (k (H.act e x s).1) (H.act e x s).2

/-- The operations an execution performs. -/
def events (h : η) : List χ → Prog E α → σ → List (Event E η χ σ)
  | [], _, _ => []
  | _ :: _, .ret _, _ => []
  | x :: xs, .await e k, s => ⟨⟨h, s⟩, e, x, s⟩ :: events h xs (k (H.act e x s).1) (H.act e x s).2

@[simp] theorem exec_ret (xs : List χ) (a : α) (s : σ) : (Prog.ret a : Prog E α).exec H xs s = (.ret a, s) := by
  cases xs <;> rfl

variable {H} in
theorem input_mem_of_events {h : η} {xs : List χ} {p : Prog E α} {s : σ} {ev : Event E η χ σ}
    (hev : ev ∈ p.events H h xs s) : ev.input ∈ xs := by
  induction xs generalizing p s with
  | nil => cases hev
  | cons x xs ih =>
    cases p with
    | ret a => cases hev
    | await e k =>
      rcases List.mem_cons.1 hev with rfl | hev
      · exact List.mem_cons_self
      · exact List.mem_cons_of_mem _ (ih hev)

/-- Whatever it is answered, the program returns after at most `n` operations. -/
def Within : Nat → Prog E α → Prop
  | _, .ret _ => True
  | 0, .await _ _ => False
  | n + 1, .await _ k => ∀ b, Within n (k b)

section Within

variable {ε : Type} {n m : Nat} {p : Prog E α}

theorem Within.ret (n : Nat) (a : α) : (Prog.ret a : Prog E α).Within n := by
  cases n <;> exact trivial

theorem Within.mono (hp : p.Within n) (h : n ≤ m) : p.Within m := by
  induction p generalizing n m with
  | ret a => exact .ret m a
  | await e k ih =>
    cases n with
    | zero => exact hp.elim
    | succ n =>
      obtain ⟨m, rfl⟩ : ∃ m', m = m' + 1 := ⟨m - 1, by omega⟩
      exact fun b => ih b (hp b) (by omega)

theorem Within.bind {f : α → Prog E β} (hp : p.Within n) (hf : ∀ a, (f a).Within m) : (p >>= f).Within (n + m) := by
  induction p generalizing n with
  | ret a => exact (hf a).mono (by omega)
  | await e k ih =>
    cases n with
    | zero => exact hp.elim
    | succ n =>
      rw [Nat.add_right_comm]
      exact fun b => ih b (hp b)

theorem Within.call {e : E β} : (Prog.call e).Within 1 := fun _ => trivial

theorem Within.bindExcept {p : ExceptT ε (Prog E) α} {f : α → ExceptT ε (Prog E) β} (hp : p.run.Within n)
    (hf : ∀ a, (f a).run.Within m) : (p >>= f).run.Within (n + m) := by
  refine Within.bind (f := ExceptT.bindCont f) hp ?_
  rintro (e | a)
  · exact .ret m _
  · exact hf a

/-- Given that many inputs, the program returns. -/
theorem Within.exec (H : Handler E χ σ) (s : σ) {xs : List χ} (hp : p.Within n) (h : n ≤ xs.length) :
    ∃ a, (p.exec H xs s).1 = .ret a := by
  induction p generalizing n s xs with
  | ret a => exact ⟨a, by rw [exec_ret]⟩
  | await e k ih =>
    cases n with
    | zero => exact hp.elim
    | succ n =>
      cases xs with
      | nil => simp at h
      | cons x xs => exact ih _ _ (hp _) (by simpa using h)

end Within

/-- The operation a stopped program would have performed next satisfies `S`. -/
def Next (S : ∀ {β : Type}, E β → Prop) : Prog E α → Prop
  | .ret _ => True
  | .await e _ => S e

end Prog

/-- The contract of a program nobody interferes with. -/
def Discipline.alone (H : Handler E χ σ) (inv : σ → Prop)
    (before : {β : Type} → η → Own → E β → σ → Prop)
    (allowed : {β : Type} → η → E β → χ → σ → Prop)
    (gain : {β : Type} → Own → E β → β → Own) : Discipline H η Own where
  inv := inv
  rely _ _ s s' := s' = s
  before := before
  allowed := allowed
  gain := gain
  rely_refl _ _ _ := rfl
  rely_trans h₁ h₂ := h₂.trans h₁

/-- A program that meets its contract still meets it wherever its execution stops, with what the
operations before have told it. -/
theorem Meets.exec {H : Handler E χ σ} {D : Discipline H η Own} {h : η} {Q : α → Own → σ → Prop}
    {p : Prog E α} {g : Own} {s : σ} {xs : List χ}
    (keeps : ∀ {β} {e : E β} {g x s}, D.inv s → D.before h g e s → D.allowed h e x s → D.inv (H.act e x s).2)
    (hm : Meets D h Q p g s) (hi : D.inv s)
    (hx : ∀ ev ∈ p.events H h xs s, D.allowed h ev.eff ev.input ev.state) :
    D.inv (p.exec H xs s).2 ∧ Meets D h Q (p.exec H xs s).1
      ((p.events H h xs s).foldl (fun g ev => D.gain g ev.eff (ev.answer H)) g) (p.exec H xs s).2 := by
  induction xs generalizing p g s with
  | nil => exact ⟨hi, hm⟩
  | cons x xs ih =>
    cases p with
    | ret a => exact ⟨hi, hm⟩
    | await e k =>
      obtain ⟨hb, hk⟩ := hm s (D.rely_refl h g s) hi
      have here := hx ⟨⟨h, s⟩, e, x, s⟩ List.mem_cons_self
      exact ih (hk x here) (keeps hi hb here) fun ev hev => hx ev (List.mem_cons_of_mem _ hev)

/-- Whatever answer the environment has decided to give each operation, a program ends. -/
theorem Prog.exec_total (H : Handler E χ σ) (h : η) (pick : {β : Type} → E β → χ) (p : Prog E α) (s : σ) :
    ∃ xs a, (p.exec H xs s).1 = .ret a ∧ (∀ ev ∈ p.events H h xs s, ev.input = pick ev.eff) ∧
      ∀ x ∈ xs, ∃ (β : Type) (e : E β), x = pick e := by
  induction p generalizing s with
  | ret a => exact ⟨[], a, rfl, by simp [events], by simp⟩
  | await e k ih =>
    obtain ⟨xs, a, hret, hev, hxs⟩ := ih (H.act e (pick e) s).1 (H.act e (pick e) s).2
    refine ⟨pick e :: xs, a, hret, fun ev hev' => ?_, fun x hx => ?_⟩
    · rcases List.mem_cons.1 hev' with rfl | hev'
      · rfl
      · exact hev ev hev'
    · rcases List.mem_cons.1 hx with rfl | hx
      · exact ⟨_, e, rfl⟩
      · exact hxs x hx

/-- An execution of the first program that returns goes on with the second. -/
theorem Prog.exec_bind {H : Handler E χ σ} {p : Prog E α} {f : α → Prog E β} {xs : List χ} {s s' : σ} {a : α}
    (hret : p.exec H xs s = (.ret a, s')) :
    ∃ used left, xs = used ++ left ∧ ∀ ys, (p >>= f).exec H (used ++ ys) s = (f a).exec H ys s' := by
  induction xs generalizing p s with
  | nil =>
    obtain ⟨rfl, rfl⟩ := Prod.mk.inj hret
    exact ⟨[], [], rfl, fun ys => rfl⟩
  | cons x xs ih =>
    cases p with
    | ret b =>
      obtain ⟨hb, rfl⟩ := Prod.mk.inj hret
      cases hb
      exact ⟨[], x :: xs, rfl, fun ys => rfl⟩
    | await e k =>
      obtain ⟨used, left, rfl, hrest⟩ := ih hret
      exact ⟨x :: used, left, rfl, hrest⟩

/-- What every operation of a program keeps, its execution keeps, wherever it stops. -/
theorem Prog.exec_keeps {H : Handler E χ σ} {S : ∀ {γ : Type}, E γ → Prop} {K : σ → Prop} {p : Prog E α} {s : σ}
    (hp : p.Only S) (hS : ∀ {γ : Type} (e : E γ) x s, S e → K s → K (H.act e x s).2) (hK : K s) (xs : List χ) :
    K (p.exec H xs s).2 := by
  induction xs generalizing p s with
  | nil => exact hK
  | cons x xs ih =>
    cases p with
    | ret a => exact hK
    | await e k => exact ih (hp.2 _) (hS e x s hp.1 hK)

/-- A list of the shared state that every operation only adds to grows by what the operations of an
execution add. -/
theorem Prog.exec_appends {H : Handler E χ σ} {κ : Type} {f : σ → List κ} (adds : {β : Type} → E β → χ → List κ)
    (hadds : ∀ {β : Type} (e : E β) x s, f (H.act e x s).2 = f s ++ adds e x) (h : η) (xs : List χ) (p : Prog E α) (s : σ) :
    f (p.exec H xs s).2 = f s ++ (p.events H h xs s).flatMap fun ev => adds ev.eff ev.input := by
  induction xs generalizing p s with
  | nil => simp [exec, events]
  | cons x xs ih =>
    cases p with
    | ret a => simp [events]
    | await e k =>
      have rest := ih (k (H.act e x s).1) (H.act e x s).2
      rw [hadds, List.append_assoc] at rest
      simpa only [exec, events, List.flatMap_cons] using rest

/-- Something was raised in a history, and was not lowered since. -/
def Pending {τ : Type*} (raises lowers : τ → Prop) (T : List τ) : Prop :=
  ∃ past ev since, T = past ++ ev :: since ∧ raises ev ∧ ∀ ev' ∈ since, ¬ lowers ev'

theorem pending_cons {τ : Type*} {raises lowers : τ → Prop} {ev : τ} {T : List τ} :
    Pending raises lowers (ev :: T) ↔ (raises ev ∧ ∀ ev' ∈ T, ¬ lowers ev') ∨ Pending raises lowers T := by
  constructor
  · rintro ⟨_ | ⟨first, past⟩, at', since, hT, hraised, hkept⟩
    · cases hT
      exact Or.inl ⟨hraised, hkept⟩
    · cases hT
      exact Or.inr ⟨past, at', since, rfl, hraised, hkept⟩
  · rintro (⟨hraised, hkept⟩ | ⟨past, at', since, rfl, hraised, hkept⟩)
    · exact ⟨[], ev, T, rfl, hraised, hkept⟩
    · exact ⟨ev :: past, at', since, rfl, hraised, hkept⟩

/-- What operations raise and lower in the shared state holds at the end of an execution where it was raised
and not lowered since, or held at the start and was never lowered. -/
theorem Prog.exec_pending {H : Handler E χ σ} (holds : σ → Prop) (raises lowers : Event E η χ σ → Prop) (h : η)
    (hact : ∀ {β : Type} (e : E β) x s,
      holds (H.act e x s).2 ↔ raises ⟨⟨h, s⟩, e, x, s⟩ ∨ (holds s ∧ ¬ lowers ⟨⟨h, s⟩, e, x, s⟩))
    (xs : List χ) (p : Prog E α) (s : σ) :
    holds (p.exec H xs s).2 ↔
      Pending raises lowers (p.events H h xs s) ∨ (holds s ∧ ∀ ev ∈ p.events H h xs s, ¬ lowers ev) := by
  have idle (s : σ) : holds s ↔ Pending raises lowers [] ∨ (holds s ∧ ∀ ev ∈ ([] : List (Event E η χ σ)), ¬ lowers ev) := by
    simp [Pending]
  induction xs generalizing p s with
  | nil => exact idle s
  | cons x xs ih =>
    cases p with
    | ret a => exact idle s
    | await e k =>
      have rest := ih (k (H.act e x s).1) (H.act e x s).2
      rw [hact] at rest
      refine rest.trans ?_
      simp only [events, pending_cons, List.forall_mem_cons]
      tauto

/-- Two executions of a program on the same inputs, from states its operations cannot tell apart, run
the same way. -/
theorem Prog.exec_related {H : Handler E χ σ} {S : ∀ {γ : Type}, E γ → Prop} {R : σ → σ → Prop} {p : Prog E α} {s t : σ}
    (hp : p.Only S) (hS : ∀ {γ : Type} (e : E γ) x s t, S e → R s t →
      (H.act e x s).1 = (H.act e x t).1 ∧ R (H.act e x s).2 (H.act e x t).2)
    (hR : R s t) (h : η) (gain : {β : Type} → Own → E β → β → Own) (g : Own) (xs : List χ) :
    R (p.exec H xs s).2 (p.exec H xs t).2 ∧
      (p.events H h xs s).foldl (fun g ev => gain g ev.eff (ev.answer H)) g =
        (p.events H h xs t).foldl (fun g ev => gain g ev.eff (ev.answer H)) g := by
  induction xs generalizing p s t g with
  | nil => exact ⟨hR, rfl⟩
  | cons x xs ih =>
    cases p with
    | ret a => exact ⟨hR, rfl⟩
    | await e k =>
      obtain ⟨hans, hR'⟩ := hS e x s t hp.1 hR
      have hnext := ih (hp.2 (H.act e x s).1) hR' (gain g e (H.act e x s).1)
      simp only [exec, events, List.foldl_cons, Event.answer]
      rw [← hans]
      exact hnext

/-- What every operation carries on, with what it tells, an execution carries on wherever it stops. -/
theorem Prog.exec_carries {H : Handler E χ σ} {K : Own → σ → Prop} (gain : {β : Type} → Own → E β → β → Own)
    (own : ∀ {γ : Type} (e : E γ) x g s, K g s → K (gain g e (H.act e x s).1) (H.act e x s).2)
    (h : η) (xs : List χ) (p : Prog E α) {g : Own} {s : σ} (hK : K g s) :
    K ((p.events H h xs s).foldl (fun g ev => gain g ev.eff (ev.answer H)) g) (p.exec H xs s).2 := by
  induction xs generalizing p g s with
  | nil => exact hK
  | cons x xs ih =>
    cases p with
    | ret a => exact hK
    | await e k => exact ih _ (own e x g s hK)

section Alone

variable {H : Handler E χ σ} {before : {β : Type} → η → Own → E β → σ → Prop}
  {allowed : {β : Type} → η → E β → χ → σ → Prop} {gain : {β : Type} → Own → E β → β → Own} {h : η}
  {Q : α → Own → σ → Prop} {g : Own} {s : σ}

theorem Meets.aloneRet {a : α} (hQ : Q a g s) :
    Meets (.alone H (fun _ => True) before allowed gain) h Q (.ret a) g s := by
  intro s' hs _
  obtain rfl : s' = s := hs
  exact hQ

theorem Meets.aloneStep {e : E β} {k : β → Prog E α} (hb : before h g e s)
    (hk : ∀ x, allowed h e x s → Meets (.alone H (fun _ => True) before allowed gain) h Q (k (H.act e x s).1)
      (gain g e (H.act e x s).1) (H.act e x s).2) :
    Meets (.alone H (fun _ => True) before allowed gain) h Q (.await e k) g s := by
  intro s' hs _
  obtain rfl : s' = s := hs
  exact ⟨hb, hk⟩

/-- An execution on allowed answers ends as the contract says, or has stopped before an operation. -/
theorem Meets.aloneExec {p : Prog E α} (hm : Meets (.alone H (fun _ => True) before allowed gain) h Q p g s) (xs : List χ)
    (hx : ∀ ev ∈ p.events H h xs s, allowed h ev.eff ev.input ev.state) :
    (∃ a, (p.exec H xs s).1 = .ret a ∧
      Q a ((p.events H h xs s).foldl (fun g ev => gain g ev.eff (ev.answer H)) g) (p.exec H xs s).2) ∨
    (∃ (γ : Type) (e : E γ) (k : γ → Prog E α), (p.exec H xs s).1 = .await e k ∧
      before h ((p.events H h xs s).foldl (fun g ev => gain g ev.eff (ev.answer H)) g) e (p.exec H xs s).2) := by
  have hend := (hm.exec (fun _ _ _ => trivial) trivial hx).2
  cases hp : (p.exec H xs s).1 with
  | ret a =>
    rw [hp] at hend
    exact Or.inl ⟨a, rfl, hend _ rfl trivial⟩
  | await e k =>
    rw [hp] at hend
    exact Or.inr ⟨_, e, k, rfl, (hend _ rfl trivial).1⟩

end Alone

/-- The contract of a program on its own: on the answers `A` allows it leaves `P` wherever it
stops. -/
def Discipline.solo (H : Handler E χ σ) (P : Own → σ → Prop) (A : {β : Type} → E β → χ → σ → Prop)
    (gain : {β : Type} → Own → E β → β → Own) : Discipline H Unit Own :=
  .alone H (fun _ => True) (fun _ g _ s => P g s) (fun _ e x s => A e x s) gain

section Solo

variable {H : Handler E χ σ} {P : Own → σ → Prop} {A : {β : Type} → E β → χ → σ → Prop}
  {gain : {β : Type} → Own → E β → β → Own} {Q : α → Own → σ → Prop} {g : Own} {s : σ}

theorem Meets.soloRet {a : α} (hQ : Q a g s) : Meets (.solo H P A gain) () Q (.ret a) g s := Meets.aloneRet hQ

theorem Meets.soloStep {e : E β} {k : β → Prog E α} (hP : P g s)
    (hk : ∀ x, A e x s → Meets (.solo H P A gain) () Q (k (H.act e x s).1) (gain g e (H.act e x s).1) (H.act e x s).2) :
    Meets (.solo H P A gain) () Q (.await e k) g s := Meets.aloneStep hP hk

theorem Meets.soloCall {e : E β} {k : β → Prog E α} (hP : P g s)
    (hk : ∀ x, A e x s → Meets (.solo H P A gain) () Q (k (H.act e x s).1) (gain g e (H.act e x s).1) (H.act e x s).2) :
    Meets (.solo H P A gain) () Q (Prog.call e >>= k) g s := Meets.soloStep hP hk

/-- An execution on allowed answers ends as the contract says, or has stopped where `P` holds. -/
theorem Meets.soloExec {p : Prog E α} (hm : Meets (.solo H P A gain) () Q p g s) (xs : List χ)
    (hx : ∀ ev ∈ p.events H () xs s, A ev.eff ev.input ev.state) :
    (∃ a, (p.exec H xs s).1 = .ret a ∧
      Q a ((p.events H () xs s).foldl (fun g ev => gain g ev.eff (ev.answer H)) g) (p.exec H xs s).2) ∨
    ((∀ a, (p.exec H xs s).1 ≠ .ret a) ∧
      P ((p.events H () xs s).foldl (fun g ev => gain g ev.eff (ev.answer H)) g) (p.exec H xs s).2) := by
  rcases hm.aloneExec xs hx with hend | ⟨γ, e, k, hstop, hP⟩
  · exact Or.inl hend
  · refine Or.inr ⟨fun a h => ?_, hP⟩
    rw [hstop] at h
    cases h

end Solo

/-- A handler in whose state everything but the program's own part is new at every operation: `own s t`
takes that part from `s` and the rest from `t`. -/
def Handler.amid (H : Handler E χ σ) (own : σ → σ → σ) : Handler E (χ × σ) σ where
  act e x s := H.act e x.1 (own s x.2)

/-- A handler in a system that does more: `step` is what happens of it before each operation. -/
def Handler.among {ι : Type} (H : Handler E χ σ) (step : ι → σ → σ) : Handler E (χ × ι) σ where
  act e x s := H.act e x.1 (step x.2 s)

end Async
