import GoblinPay.Async.Prog
import Mathlib.Data.List.Basic

/-!
# Pools of concurrent programs

A pool is the shared state together with the calls in flight. A `Move` starts a call or lets
one call in flight perform its next operation, so a list of moves is one interleaving at the
granularity of single operations. A call that is never scheduled again is a call whose
process has stopped.

`Discipline.Cooperates` collects what has to be checked once for a family of programs: an
operation issued as the contract demands keeps the invariant and is something the other
programs rely on. `Pool.Kept` is then an invariant of every run (`Pool.kept_run`), and every
operation of a run was issued as its contract demands (`Pool.mem_trace_before`).
-/

universe u

namespace Async

/-- Which call a program serves, and the shared state in which the call was made. -/
structure Head (γ σ : Type) where
  call : γ
  born : σ

structure Task (E : Type → Type u) (γ σ ρ : Type) where
  head : Head γ σ
  rest : Prog E ρ

structure Pool (E : Type → Type u) (γ σ ρ : Type) where
  state : σ
  tasks : List (Task E γ σ ρ)

inductive Move (γ χ : Type)
  | start (c : γ)
  | run (i : Nat) (x : χ)

/-- One operation of a run, with what the environment contributed and the state it ran in. -/
structure Event (E : Type → Type u) (γ χ σ : Type) where
  head : Head γ σ
  {β : Type}
  eff : E β
  input : χ
  state : σ

section

variable {E : Type → Type u} {γ χ σ ρ : Type}

namespace Event

def answer (H : Handler E χ σ) (ev : Event E γ χ σ) : ev.β := (H.act ev.eff ev.input ev.state).1

def after (H : Handler E χ σ) (ev : Event E γ χ σ) : σ := (H.act ev.eff ev.input ev.state).2

end Event

def Task.finished (t : Task E γ σ ρ) : Option ρ :=
  match t.rest with
  | .ret r => some r
  | .await _ _ => none

namespace Pool

variable (H : Handler E χ σ) (code : γ → Prog E ρ)

/-- The operation task `i` would perform next, as an event. -/
def event? (P : Pool E γ σ ρ) (i : Nat) (x : χ) : Option (Event E γ χ σ) :=
  match P.tasks[i]? with
  | some ⟨h, .await e _⟩ => some ⟨h, e, x, P.state⟩
  | _ => none

def step (P : Pool E γ σ ρ) : Move γ χ → Pool E γ σ ρ
  | .start c => ⟨P.state, P.tasks ++ [⟨⟨c, P.state⟩, code c⟩]⟩
  | .run i x =>
    match P.tasks[i]? with
    | some ⟨h, .await e k⟩ =>
      ⟨(H.act e x P.state).2, P.tasks.set i ⟨h, k (H.act e x P.state).1⟩⟩
    | _ => P

def run : Pool E γ σ ρ → List (Move γ χ) → Pool E γ σ ρ
  | P, [] => P
  | P, m :: ms => run (step H code P m) ms

def trace : Pool E γ σ ρ → List (Move γ χ) → List (Event E γ χ σ)
  | _, [] => []
  | P, .start c :: ms => trace (step H code P (.start c)) ms
  | P, .run i x :: ms => (event? P i x).toList ++ trace (step H code P (.run i x)) ms

/-- The pool before the first call, in the state `s`. -/
def start (s : σ) : Pool E γ σ ρ := ⟨s, []⟩

variable {P : Pool E γ σ ρ} {m : Move γ χ} {ms : List (Move γ χ)}

/-- What one scheduling step does: task `i` performs its next operation, or nothing happens. -/
theorem step_run (P : Pool E γ σ ρ) (i : Nat) (x : χ) :
    (∃ (h : Head γ σ) (β : Type) (e : E β) (k : β → Prog E ρ),
      P.tasks[i]? = some ⟨h, .await e k⟩ ∧
      event? (χ := χ) P i x = some ⟨h, e, x, P.state⟩ ∧
      step H code P (.run i x) = ⟨(H.act e x P.state).2, P.tasks.set i ⟨h, k (H.act e x P.state).1⟩⟩) ∨
    (event? (χ := χ) P i x = none ∧ step H code P (.run i x) = P) := by
  rcases ht : P.tasks[i]? with _ | ⟨h, r | ⟨e, k⟩⟩
  · exact Or.inr (by simp [event?, step, ht])
  · exact Or.inr (by simp [event?, step, ht])
  · exact Or.inl ⟨h, _, e, k, rfl, by simp [event?, ht], by simp [step, ht]⟩

theorem state_of_event {ev : Event E γ χ σ} {i : Nat} {x : χ} (h : event? P i x = some ev) : ev.state = P.state := by
  unfold event? at h
  split at h
  · cases h
    rfl
  · cases h

theorem run_append (P : Pool E γ σ ρ) (ms ms' : List (Move γ χ)) :
    run H code P (ms ++ ms') = run H code (run H code P ms) ms' := by
  induction ms generalizing P with
  | nil => rfl
  | cons m ms ih => exact ih _

theorem trace_append (P : Pool E γ σ ρ) (ms ms' : List (Move γ χ)) :
    trace H code P (ms ++ ms') = trace H code P ms ++ trace H code (run H code P ms) ms' := by
  induction ms generalizing P with
  | nil => rfl
  | cons m ms ih => cases m <;> simp [trace, run, ih]

/-- A run moves the shared state by the operations of its trace only. -/
theorem run_rel {R : σ → σ → Prop} (refl : ∀ s, R s s) (trans : ∀ {a b c}, R a b → R b c → R a c)
    (hstep : ∀ ev ∈ trace H code P ms, R ev.state (ev.after H)) :
    R P.state (run H code P ms).state := by
  induction ms generalizing P with
  | nil => exact refl _
  | cons m ms ih =>
    cases m with
    | start c => exact ih (P := step H code P (.start c)) hstep
    | run i x =>
      have rest := ih (P := step H code P (.run i x))
        fun ev hev => hstep ev (List.mem_append_right _ hev)
      obtain ⟨h, β, e, k, _, he, hs⟩ | ⟨_, hs⟩ := step_run H code P i x
      · have here := hstep _ (List.mem_append_left _ (by rw [he]; exact List.mem_singleton.2 rfl))
        rw [hs] at rest
        simp only [run, hs]
        exact trans here rest
      · rw [hs] at rest
        simpa only [run, hs] using rest

/-- Every operation of a run splits it: the run reaches the state the operation ran in, and
goes on from the state it left. -/
theorem mem_trace {ev : Event E γ χ σ} (hev : ev ∈ trace H code P ms) :
    ∃ ms₁ i x ms₂, ms = ms₁ ++ .run i x :: ms₂ ∧
      event? (run H code P ms₁) i x = some ev ∧ ev.state = (run H code P ms₁).state ∧
      (step H code (run H code P ms₁) (.run i x)).state = ev.after H := by
  induction ms generalizing P with
  | nil => cases hev
  | cons m ms ih =>
    cases m with
    | start c =>
      obtain ⟨ms₁, i, x, ms₂, rfl, rest⟩ := ih hev
      exact ⟨.start c :: ms₁, i, x, ms₂, rfl, rest⟩
    | run i x =>
      rcases List.mem_append.1 hev with here | later
      · refine ⟨[], i, x, ms, rfl, ?_⟩
        obtain ⟨h, β, e, k, _, he, hs⟩ | ⟨he, _⟩ := step_run H code P i x
        · obtain rfl : ev = ⟨h, e, x, P.state⟩ := by simpa [he] using here
          exact ⟨he, rfl, by simp only [run, hs]; rfl⟩
        · simp [he] at here
      · obtain ⟨ms₁, j, y, ms₂, rfl, rest⟩ := ih later
        exact ⟨.run i x :: ms₁, j, y, ms₂, rfl, rest⟩

/-- Where a history splits, the run that made it does. -/
theorem trace_split {T₁ T₂ : List (Event E γ χ σ)} {ev : Event E γ χ σ} (htrace : trace H code P ms = T₁ ++ ev :: T₂) :
    ∃ ms₁ i x ms₂, ms = ms₁ ++ .run i x :: ms₂ ∧ event? (run H code P ms₁) i x = some ev ∧ trace H code P ms₁ = T₁ := by
  induction ms generalizing P T₁ with
  | nil => simp [trace] at htrace
  | cons m ms ih =>
    cases m with
    | start c =>
      obtain ⟨ms₁, i, x, ms₂, rfl, he, hprefix⟩ := ih (P := step H code P (.start c)) htrace
      exact ⟨.start c :: ms₁, i, x, ms₂, rfl, he, hprefix⟩
    | run i x =>
      obtain ⟨h, β, e, k, _, he, _⟩ | ⟨he, _⟩ := step_run H code P i x
      · rw [trace, he, Option.toList_some, List.singleton_append] at htrace
        cases T₁ with
        | nil =>
          obtain ⟨rfl, -⟩ := List.cons.inj htrace
          exact ⟨[], i, x, ms, rfl, he, rfl⟩
        | cons first T₁ =>
          obtain ⟨rfl, hrest⟩ := List.cons.inj htrace
          obtain ⟨ms₁, j, y, ms₂, rfl, he', rfl⟩ := ih (P := step H code P (.run i x)) hrest
          exact ⟨.run i x :: ms₁, j, y, ms₂, rfl, he', by rw [trace, he, Option.toList_some, List.singleton_append]⟩
      · rw [trace, he, Option.toList_none, List.nil_append] at htrace
        obtain ⟨ms₁, j, y, ms₂, rfl, he', rfl⟩ := ih (P := step H code P (.run i x)) htrace
        exact ⟨.run i x :: ms₁, j, y, ms₂, rfl, he', by rw [trace, he, Option.toList_none, List.nil_append]⟩

/-- If some operation of a run is of a kind, the run splits before the first that is. -/
theorem first_event {p : Event E γ χ σ → Prop} (h : ∃ ev ∈ trace H code P ms, p ev) :
    ∃ ms₁ i x ms₂ ev, ms = ms₁ ++ .run i x :: ms₂ ∧ event? (run H code P ms₁) i x = some ev ∧ p ev ∧
      ∀ ev' ∈ trace H code P ms₁, ¬ p ev' := by
  induction ms generalizing P with
  | nil =>
    obtain ⟨ev, hev, -⟩ := h
    cases hev
  | cons m ms ih =>
    by_cases here : ∃ i x ev, m = .run i x ∧ event? P i x = some ev ∧ p ev
    · obtain ⟨i, x, ev, rfl, he, hp⟩ := here
      exact ⟨[], i, x, ms, ev, rfl, he, hp, fun ev' hev' => by cases hev'⟩
    · have later : ∃ ev ∈ trace H code (step H code P m) ms, p ev := by
        obtain ⟨ev, hev, hp⟩ := h
        refine ⟨ev, ?_, hp⟩
        cases m with
        | start c => exact hev
        | run i x =>
          rcases List.mem_append.1 hev with hev | hev
          · exact absurd ⟨i, x, ev, rfl, Option.mem_toList.1 hev, hp⟩ here
          · exact hev
      obtain ⟨ms₁, i, x, ms₂, ev, rfl, he, hp, first⟩ := ih later
      refine ⟨m :: ms₁, i, x, ms₂, ev, rfl, he, hp, fun ev' hev' hp' => ?_⟩
      cases m with
      | start c => exact first ev' hev' hp'
      | run j y =>
        rcases List.mem_append.1 hev' with hev' | hev'
        · exact here ⟨j, y, ev', rfl, Option.mem_toList.1 hev', hp'⟩
        · exact first ev' hev' hp'

theorem mem_trace_of_event {ms₁ ms₂ : List (Move γ χ)} {i : Nat} {x : χ} {ev : Event E γ χ σ}
    (h : event? (run H code P ms₁) i x = some ev) : ev ∈ trace H code P (ms₁ ++ .run i x :: ms₂) := by
  rw [trace_append]
  refine List.mem_append_right _ (List.mem_append_left _ ?_)
  rw [h]
  exact List.mem_singleton.2 rfl

/-- The state after an operation of the run is carried to the end of the run. -/
theorem rel_of_mem_trace {R : σ → σ → Prop} (refl : ∀ s, R s s)
    (trans : ∀ {a b c}, R a b → R b c → R a c)
    (hstep : ∀ ev ∈ trace H code P ms, R ev.state (ev.after H))
    {ev : Event E γ χ σ} (hev : ev ∈ trace H code P ms) :
    R (ev.after H) (run H code P ms).state := by
  obtain ⟨ms₁, i, x, ms₂, rfl, _, _, hs⟩ := mem_trace H code hev
  rw [run_append, ← hs]
  refine run_rel H code (P := step H code (run H code P ms₁) (.run i x)) refl trans fun e he => hstep e ?_
  rw [trace_append]
  exact List.mem_append_right _ (List.mem_append_right _ he)

/-- The state after an operation of the run is carried to a later one by the operations in between. -/
theorem rel_between {R : σ → σ → Prop} (refl : ∀ s, R s s) (trans : ∀ {a b c}, R a b → R b c → R a c)
    {T₁ T₂ T₃ : List (Event E γ χ σ)} {first last : Event E γ χ σ}
    (htrace : trace H code P ms = T₁ ++ first :: T₂ ++ last :: T₃) (hstep : ∀ ev ∈ T₂, R ev.state (ev.after H)) :
    R (first.after H) last.state := by
  obtain ⟨ms', j, y, _, rfl, hlast, hprefix⟩ := trace_split H code htrace
  obtain ⟨ms₁, i, x, ms₂, rfl, hfirst, rfl⟩ := trace_split H code hprefix
  have after : (step H code (run H code P ms₁) (.run i x)).state = first.after H := by
    obtain ⟨h, β, e, k, _, he, hs⟩ | ⟨he, _⟩ := step_run H code (run H code P ms₁) i x
    · rw [hfirst] at he
      cases he
      rw [hs]
      rfl
    · rw [hfirst] at he
      cases he
  have between : trace H code (step H code (run H code P ms₁) (.run i x)) ms₂ = T₂ := by
    rw [trace_append, trace, hfirst, Option.toList_some, List.singleton_append] at hprefix
    exact (List.cons.inj (List.append_cancel_left hprefix)).2
  rw [state_of_event hlast, run_append, ← after]
  exact run_rel H code refl trans fun ev hev => hstep ev (between ▸ hev)

/-- What every operation of a run keeps holds at its end. -/
theorem inv_run {I : σ → Prop} (hP : I P.state) (hstep : ∀ ev ∈ trace H code P ms, I ev.state → I (ev.after H)) :
    I (run H code P ms).state :=
  run_rel H code (R := fun s s' => I s → I s') (fun _ h => h) (fun h h' hs => h' (h hs)) hstep hP

/-- And wherever an operation ran. -/
theorem inv_mem_trace {I : σ → Prop} (hP : I P.state)
    (hstep : ∀ ev ∈ trace H code P ms, I ev.state → I (ev.after H)) {ev : Event E γ χ σ}
    (hev : ev ∈ trace H code P ms) : I ev.state := by
  obtain ⟨ms₁, i, x, ms₂, rfl, -, hs, -⟩ := mem_trace H code hev
  rw [hs]
  refine inv_run H code hP fun e he => hstep e ?_
  rw [trace_append]
  exact List.mem_append_left _ he

def heads (P : Pool E γ σ ρ) : List (Head γ σ) := P.tasks.map Task.head

theorem heads_step_run (P : Pool E γ σ ρ) (i : Nat) (x : χ) :
    heads (step H code P (.run i x)) = heads P := by
  obtain ⟨h, β, e, k, ht, _, hs⟩ | ⟨_, hs⟩ := step_run H code P i x
  · rw [hs]
    refine List.ext_getElem? fun j => ?_
    rcases eq_or_ne i j with rfl | hij
    · have hlt := (List.getElem?_eq_some_iff.1 ht).1
      have hi := (List.getElem?_eq_some_iff.1 ht).2
      simp [heads, hlt, hi]
    · simp [heads, hij]
  · rw [hs]

/-- Calls are only added. -/
theorem heads_run (P : Pool E γ σ ρ) (ms : List (Move γ χ)) :
    ∃ new, heads (run H code P ms) = heads P ++ new := by
  induction ms generalizing P with
  | nil => exact ⟨[], by simp [run]⟩
  | cons m ms ih =>
    obtain ⟨new, hnew⟩ := ih (step H code P m)
    cases m with
    | start c => exact ⟨⟨c, P.state⟩ :: new, by simp [run, hnew]; simp [heads, step]⟩
    | run i x => exact ⟨new, by rw [run, hnew, heads_step_run]⟩

/-- A call that is added is made in a state of the run. -/
theorem born_of_new {i : Nat} {t : Task E γ σ ρ} (hi : P.tasks.length ≤ i) (ht : (run H code P ms).tasks[i]? = some t) :
    ∃ ms₁ ms₂, ms = ms₁ ++ ms₂ ∧ t.head.born = (run H code P ms₁).state := by
  induction ms generalizing P with
  | nil =>
    have absent : P.tasks[i]? = none := List.getElem?_eq_none hi
    rw [run, absent] at ht
    cases ht
  | cons m ms ih =>
    by_cases hlen : (step H code P m).tasks.length ≤ i
    · obtain ⟨ms₁, ms₂, rfl, hborn⟩ := ih hlen ht
      exact ⟨m :: ms₁, ms₂, rfl, hborn⟩
    · cases m with
      | run j x =>
        have same := congrArg List.length (heads_step_run H code P j x)
        simp only [heads, List.length_map] at same
        omega
      | start c =>
        have here : i = P.tasks.length := by
          simp only [step, List.length_append, List.length_singleton] at hlen
          omega
        obtain ⟨new, hnew⟩ := heads_run H code (step H code P (.start c)) ms
        have hhead : (heads (run H code P (.start c :: ms)))[i]? = some t.head := by
          simp [heads, ht]
        have first : (heads (run H code P (.start c :: ms)))[i]? = some ⟨c, P.state⟩ := by
          rw [run, hnew]
          simp [heads, step, here]
        rw [hhead] at first
        exact ⟨[], _, rfl, congrArg Head.born (Option.some.inj first)⟩

/-- An operation of a run serves one of the run's calls. -/
theorem head_mem {ev : Event E γ χ σ} (hev : ev ∈ trace H code P ms) : ev.head ∈ heads (run H code P ms) := by
  obtain ⟨ms₁, i, x, ms₂, rfl, he, _, _⟩ := mem_trace H code hev
  obtain ⟨new, hnew⟩ := heads_run H code (run H code P ms₁) (.run i x :: ms₂)
  rw [run_append, hnew]
  refine List.mem_append_left _ ?_
  obtain ⟨h, β, e, k, ht, he', _⟩ | ⟨he', _⟩ := step_run H code (run H code P ms₁) i x
  · rw [he] at he'
    cases he'
    exact List.mem_map.2 ⟨_, List.mem_of_getElem? ht, rfl⟩
  · rw [he] at he'
    cases he'

end Pool

/-- A discipline for a whole pool: what each call owns and how two calls stay apart, the
conditions under which calls are made, and the proof that the programs cooperate. -/
structure Protocol (H : Handler E χ σ) (code : γ → Prog E ρ) (Own : Type)
    extends Discipline H (Head γ σ) Own where
  /-- the ghost data of a call that starts -/
  init : Own
  /-- what the others keep true of a call's own part of the state -/
  owns : Head γ σ → Own → σ → Prop := fun _ _ _ => True
  apart : Head γ σ → Own → Head γ σ → Own → Prop := fun _ _ _ _ => True
  /-- where a call may be made -/
  admits : γ → σ → Prop := fun _ _ => True
  /-- which calls one run may hold -/
  distinct : γ → γ → Prop := fun _ _ => True
  /-- what holds for a call that has not been made, and is distinct from those that were -/
  idle : γ → σ → Prop := fun _ _ => True
  post : Head γ σ → ρ → Own → σ → Prop := fun _ _ _ _ => True
  start_owns : ∀ {c s}, inv s → admits c s → owns ⟨c, s⟩ init s := by intros; trivial
  start_apart : ∀ {h g c s}, inv s → distinct h.call c → admits c s → owns h g s →
    apart h g ⟨c, s⟩ init ∧ apart ⟨c, s⟩ init h g := by intros; exact ⟨trivial, trivial⟩
  start_meets : ∀ {c s}, inv s → admits c s → idle c s →
    Meets toDiscipline ⟨c, s⟩ (post ⟨c, s⟩) (code c) init s
  owns_stable : ∀ {h g s s'}, owns h g s → rely h g s s' → owns h g s' := by intros; trivial
  /-- an operation issued as the contract demands keeps the invariant and the owner's part -/
  keeps : ∀ {β h g} {e : E β} {x s}, inv s → owns h g s → before h g e s → allowed h e x s →
    inv (H.act e x s).2 ∧ owns h (gain g e (H.act e x s).1) (H.act e x s).2
  /-- and it is something every other call relies on -/
  yields : ∀ {β h g h' g'} {e : E β} {x s}, inv s → owns h g s → owns h' g' s →
    apart h g h' g' → before h g e s → allowed h e x s → rely h' g' s (H.act e x s).2
  apart_gain : ∀ {β h g h' g'} {e : E β} {x s}, inv s → owns h g s → owns h' g' s →
    apart h g h' g' → apart h' g' h g → before h g e s → allowed h e x s →
    apart h (gain g e (H.act e x s).1) h' g' ∧ apart h' g' h (gain g e (H.act e x s).1) := by
      intros; exact ⟨trivial, trivial⟩
  idle_kept : ∀ {β h g c} {e : E β} {x s}, inv s → owns h g s → distinct h.call c → before h g e s →
    allowed h e x s → idle c s → idle c (H.act e x s).2 := by intros; trivial

namespace Protocol

variable {H : Handler E χ σ} {code : γ → Prog E ρ} {Own : Type} (D : Protocol H code Own)

/-- The invariant of a pool: every call in flight meets its contract from the current state. -/
structure Kept (P : Pool E γ σ ρ) (own : Nat → Own) : Prop where
  inv : D.inv P.state
  task : ∀ {i t}, P.tasks[i]? = some t → D.owns t.head (own i) P.state ∧
    Meets D.toDiscipline t.head (D.post t.head) t.rest (own i) P.state
  apart : ∀ {i j t u}, i ≠ j → P.tasks[i]? = some t → P.tasks[j]? = some u →
    D.apart t.head (own i) u.head (own j)
  idle : ∀ c, (∀ t ∈ P.tasks, D.distinct t.head.call c) → D.idle c P.state

variable {D} {P : Pool E γ σ ρ} {own : Nat → Own} {ms : List (Move γ χ)}

theorem Kept.start {s : σ} (hs : D.inv s) (hidle : ∀ c, D.idle c s) :
    D.Kept (Pool.start s : Pool E γ σ ρ) fun _ => D.init where
  inv := hs
  idle c _ := hidle c
  task ht := by simp [Pool.start] at ht
  apart _ ht _ := by simp [Pool.start] at ht

/-- A new call joins the pool. -/
theorem Kept.call (kept : D.Kept P own) {c : γ} (ha : D.admits c P.state)
    (hd : ∀ t ∈ P.tasks, D.distinct t.head.call c) :
    D.Kept (Pool.step H code P (.start c)) (Function.update own P.tasks.length D.init) where
  inv := kept.inv
  idle c' hc' := kept.idle c' fun t ht => hc' t (List.mem_append_left _ ht)
  task {i t} ht := by
    simp only [Pool.step, List.getElem?_append] at ht ⊢
    split at ht
    · rename_i hi
      rw [Function.update_of_ne (by omega)]
      exact kept.task ht
    · rename_i hi
      obtain rfl : i = P.tasks.length := by
        have := (List.getElem?_eq_some_iff.1 ht).1
        simp only [List.length_singleton] at this
        omega
      obtain rfl : t = ⟨⟨c, P.state⟩, code c⟩ := by simpa using ht.symm
      rw [Function.update_self]
      exact ⟨D.start_owns kept.inv ha, D.start_meets kept.inv ha (kept.idle c hd)⟩
  apart {i j t u} hij ht hu := by
    have new : ∀ {k v}, ¬ k < P.tasks.length →
        [(⟨⟨c, P.state⟩, code c⟩ : Task E γ σ ρ)][k - P.tasks.length]? = some v →
        k = P.tasks.length ∧ v = ⟨⟨c, P.state⟩, code c⟩ := by
      intro k v hk hv
      have := (List.getElem?_eq_some_iff.1 hv).1
      simp only [List.length_singleton] at this
      obtain rfl : k = P.tasks.length := by omega
      exact ⟨rfl, by simpa using hv.symm⟩
    have old : ∀ {k v}, P.tasks[k]? = some v → D.owns v.head (own k) P.state ∧
        D.distinct v.head.call c := fun hv =>
      ⟨(kept.task hv).1, hd _ (List.mem_of_getElem? hv)⟩
    simp only [Pool.step, List.getElem?_append] at ht hu
    split at ht <;> split at hu
    · rw [Function.update_of_ne (by omega), Function.update_of_ne (by omega)]
      exact kept.apart hij ht hu
    · rename_i hi hj
      obtain ⟨rfl, rfl⟩ := new hj hu
      rw [Function.update_of_ne (by omega), Function.update_self]
      exact (D.start_apart kept.inv (old ht).2 ha (old ht).1).1
    · rename_i hi hj
      obtain ⟨rfl, rfl⟩ := new hi ht
      rw [Function.update_self, Function.update_of_ne (Ne.symm hij)]
      exact (D.start_apart kept.inv (old hu).2 ha (old hu).1).2
    · rename_i hi hj
      exact absurd ((new hi ht).1.trans (new hj hu).1.symm) hij

/-- One call performs its next operation: its own contract moves on, and the others rely on it. -/
theorem Kept.perform (kept : D.Kept P own) {i : Nat} {x : χ} {h : Head γ σ} {β : Type} {e : E β}
    {k : β → Prog E ρ} (ht : P.tasks[i]? = some ⟨h, .await e k⟩) (hx : D.allowed h e x P.state) :
    D.Kept ⟨(H.act e x P.state).2, P.tasks.set i ⟨h, k (H.act e x P.state).1⟩⟩
      (Function.update own i (D.gain (own i) e (H.act e x P.state).1)) := by
  obtain ⟨howns, hmeets⟩ := kept.task ht
  obtain ⟨hb, hk⟩ := hmeets _ (D.rely_refl _ _ _) kept.inv
  have hlt := (List.getElem?_eq_some_iff.1 ht).1
  obtain ⟨hinv, hown⟩ := D.keeps kept.inv howns hb hx
  refine ⟨hinv, fun {j t} hj => ?_, fun {j l t u} hjl hj hl => ?_, fun c hc => ?_⟩
  · rw [List.getElem?_set] at hj
    split at hj
    · rename_i hij
      subst hij
      obtain rfl : t = ⟨h, k (H.act e x P.state).1⟩ := by simpa [hlt] using hj.symm
      rw [Function.update_self]
      exact ⟨hown, hk x hx⟩
    · rename_i hij
      rw [Function.update_of_ne (Ne.symm hij)]
      have hr := D.yields kept.inv howns (kept.task hj).1 (kept.apart hij ht hj) hb hx
      exact ⟨D.owns_stable (kept.task hj).1 hr, (kept.task hj).2.stable hr⟩
  · have pair : ∀ {l u}, i ≠ l → P.tasks[l]? = some u →
        D.apart h (D.gain (own i) e (H.act e x P.state).1) u.head (own l) ∧
        D.apart u.head (own l) h (D.gain (own i) e (H.act e x P.state).1) := fun hil hu =>
      D.apart_gain kept.inv howns (kept.task hu).1 (kept.apart hil ht hu) (kept.apart hil.symm hu ht) hb hx
    rw [List.getElem?_set] at hj hl
    split at hj <;> split at hl
    · rename_i hij hil
      exact absurd (hij.symm.trans hil) hjl
    · rename_i hij hil
      subst hij
      obtain rfl : t = ⟨h, k (H.act e x P.state).1⟩ := by simpa [hlt] using hj.symm
      rw [Function.update_self, Function.update_of_ne (Ne.symm hil)]
      exact (pair hil hl).1
    · rename_i hij hil
      subst hil
      obtain rfl : u = ⟨h, k (H.act e x P.state).1⟩ := by simpa [hlt] using hl.symm
      rw [Function.update_self, Function.update_of_ne (Ne.symm hij)]
      exact (pair hij hj).2
    · rename_i hij hil
      rw [Function.update_of_ne (Ne.symm hij), Function.update_of_ne (Ne.symm hil)]
      exact kept.apart hjl hj hl
  · have hcalls : ∀ t ∈ P.tasks, D.distinct t.head.call c := fun t hmem => by
      obtain ⟨j, hj⟩ := List.mem_iff_getElem?.1 hmem
      by_cases hij : i = j
      · subst hij
        obtain rfl : ⟨h, .await e k⟩ = t := Option.some.inj (ht.symm.trans hj)
        exact hc ⟨h, k (H.act e x P.state).1⟩ (List.mem_of_getElem? (i := i) (by simp [hlt]))
      · exact hc t (List.mem_of_getElem? (i := j) (by rw [List.getElem?_set_ne hij]; exact hj))
    exact D.idle_kept kept.inv howns (hcalls _ (List.mem_of_getElem? ht)) hb hx (kept.idle c hcalls)

/-- The conditions of a run: the environment answers what the protocol allows, every call is
made where it may be, and the calls of the run are distinct. -/
structure Admitted (D : Protocol H code Own) (P : Pool E γ σ ρ) (ms : List (Move γ χ)) : Prop where
  allowed : ∀ ev ∈ Pool.trace H code P ms, D.allowed ev.head ev.eff ev.input ev.state
  admits : ∀ h ∈ Pool.heads (Pool.run H code P ms), D.admits h.call h.born
  distinct : (Pool.heads (Pool.run H code P ms)).Pairwise fun a b => D.distinct a.call b.call

theorem Admitted.tail {m : Move γ χ} (ha : D.Admitted P (m :: ms)) :
    D.Admitted (Pool.step H code P m) ms where
  allowed ev hev := by
    cases m with
    | start c => exact ha.allowed ev hev
    | run i x => exact ha.allowed ev (List.mem_append_right _ hev)
  admits := ha.admits
  distinct := ha.distinct

theorem Admitted.take {ms' : List (Move γ χ)} (ha : D.Admitted P (ms ++ ms')) : D.Admitted P ms := by
  obtain ⟨new, hnew⟩ := Pool.heads_run H code (Pool.run H code P ms) ms'
  have happend := Pool.run_append H code P ms ms'
  refine ⟨fun ev hev => ha.allowed ev ?_, fun h hh => ha.admits h ?_, ?_⟩
  · rw [Pool.trace_append]
    exact List.mem_append_left _ hev
  · rw [happend, hnew]
    exact List.mem_append_left _ hh
  · have := ha.distinct
    rw [happend, hnew] at this
    exact (List.pairwise_append.1 this).1

/-- A call that is made first may be made, and is distinct from those in flight. -/
theorem Admitted.call {c : γ} (ha : D.Admitted P (.start c :: ms)) :
    D.admits c P.state ∧ ∀ t ∈ P.tasks, D.distinct t.head.call c := by
  obtain ⟨new, hnew⟩ := Pool.heads_run H code (Pool.step H code P (.start c)) ms
  have heads : Pool.heads (Pool.run H code P (.start c :: ms)) = Pool.heads P ++ ⟨c, P.state⟩ :: new := by
    rw [Pool.run, hnew]
    simp [Pool.heads, Pool.step]
  refine ⟨ha.admits ⟨c, P.state⟩ (by simp [heads]), fun t ht => ?_⟩
  have pairs := ha.distinct
  rw [heads] at pairs
  exact (List.pairwise_append.1 pairs).2.2 _ (List.mem_map_of_mem ht) _ List.mem_cons_self

/-- What the environment answers the first operation is allowed. -/
theorem Admitted.first {i : Nat} {x : χ} {ev : Event E γ χ σ} (ha : D.Admitted P (.run i x :: ms))
    (he : Pool.event? P i x = some ev) : D.allowed ev.head ev.eff ev.input ev.state :=
  ha.allowed ev (List.mem_append_left _ (by rw [he]; exact List.mem_singleton.2 rfl))

/-- The pool invariant holds in every state of an admitted run. -/
theorem kept_run (kept : D.Kept P own) (ha : D.Admitted P ms) :
    ∃ own', D.Kept (Pool.run H code P ms) own' := by
  induction ms generalizing P own with
  | nil => exact ⟨own, kept⟩
  | cons m ms ih =>
    cases m with
    | start c =>
      obtain ⟨hadmits, hdistinct⟩ := ha.call
      exact ih (kept.call hadmits hdistinct) ha.tail
    | run i x =>
      have tail := ha.tail
      obtain ⟨h, β, e, k, ht, he, hs⟩ | ⟨he, hs⟩ := Pool.step_run H code P i x
      · rw [hs] at tail
        simp only [Pool.run, hs]
        exact ih (kept.perform ht (ha.first he)) tail
      · rw [hs] at tail
        simp only [Pool.run, hs]
        exact ih kept tail

/-- At the end of an admitted run the invariant holds, and what no call of the run was made for
is idle. -/
theorem end_run {s : σ} (hs : D.inv s) (hidle : ∀ c, D.idle c s) (ha : D.Admitted (Pool.start s) ms) :
    D.inv (Pool.run H code (Pool.start s) ms).state ∧
    ∀ c, (∀ t ∈ (Pool.run H code (Pool.start s) ms).tasks, D.distinct t.head.call c) →
      D.idle c (Pool.run H code (Pool.start s) ms).state := by
  obtain ⟨own, kept⟩ := kept_run (Kept.start hs hidle) ha
  exact ⟨kept.inv, kept.idle⟩

/-- A call that has finished left its postcondition, and it still holds. -/
theorem post_run {s : σ} (hs : D.inv s) (hidle : ∀ c, D.idle c s) (ha : D.Admitted (Pool.start s) ms) {t : Task E γ σ ρ} {r : ρ}
    (ht : t ∈ (Pool.run H code (Pool.start s) ms).tasks) (hr : t.rest = .ret r) :
    ∃ g, D.post t.head r g (Pool.run H code (Pool.start s) ms).state := by
  obtain ⟨own, kept⟩ := kept_run (Kept.start hs hidle) ha
  obtain ⟨i, hi⟩ := List.mem_iff_getElem?.1 ht
  have hm := (kept.task hi).2
  rw [hr] at hm
  exact ⟨own i, hm _ (D.rely_refl _ _ _) kept.inv⟩

/-- Every operation of an admitted run was issued where its contract lets it be. -/
theorem mem_trace_before {s : σ} (hs : D.inv s) (hidle : ∀ c, D.idle c s) (ha : D.Admitted (Pool.start s) ms)
    {ev : Event E γ χ σ} (hev : ev ∈ Pool.trace H code (Pool.start s) ms) :
    D.inv ev.state ∧ ∃ g, D.owns ev.head g ev.state ∧ D.before ev.head g ev.eff ev.state := by
  obtain ⟨ms₁, i, x, ms₂, rfl, he, hst, _⟩ := Pool.mem_trace H code hev
  obtain ⟨own, kept⟩ := kept_run (Kept.start hs hidle) ha.take
  obtain ⟨h, β, e, k, ht, he', _⟩ | ⟨he', _⟩ :=
    Pool.step_run H code (Pool.run H code (Pool.start s) ms₁) i x
  · obtain rfl : ev = ⟨h, e, x, _⟩ := by rw [he] at he'; exact Option.some.inj he'
    obtain ⟨howns, hm⟩ := kept.task ht
    exact ⟨kept.inv, own i, howns, (hm _ (D.rely_refl _ _ _) kept.inv).1⟩
  · rw [he] at he'
    cases he'

end Protocol

end

end Async
