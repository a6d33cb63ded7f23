import GoblinPay.Async.Pool
import Mathlib.Data.List.DropRight

/-!
# Journals

The journal of a run names, with each operation, the call that performed it. What a call has
performed so far determines where it stands (`Pool.stands`), so the operations of one call are
read off its program (`Prog.Leads`) whatever the others did in between, and so is what a contract
has noted of its answers (`Protocol.before_deeds`).
-/

universe u

namespace Async

variable {E : Type → Type u} {γ χ σ ρ α : Type}

namespace Prog

variable (H : Handler E χ σ)

/-- The program gets from one point to the other by performing these operations. -/
inductive Leads : Prog E ρ → List (Event E γ χ σ) → Prog E ρ → Prop
  | refl (p : Prog E ρ) : Leads p [] p
  | await {h : Head γ σ} {β : Type} {e : E β} {k : β → Prog E ρ} {x : χ} {s : σ} {evs : List (Event E γ χ σ)} {q : Prog E ρ}
      (rest : Leads (k (H.act e x s).1) evs q) : Leads (.await e k) (⟨h, e, x, s⟩ :: evs) q

variable {H} {evs : List (Event E γ χ σ)} {p q : Prog E ρ}

namespace Leads

theorem of_ret {r : ρ} (hl : Leads H (.ret r) evs q) : evs = [] ∧ q = .ret r := by
  cases hl
  exact ⟨rfl, rfl⟩

theorem of_await {β : Type} {e : E β} {k : β → Prog E ρ} (hl : Leads H (.await e k) evs q) :
    (evs = [] ∧ q = .await e k) ∨
    ∃ h x s rest, evs = ⟨h, e, x, s⟩ :: rest ∧ Leads H (k (H.act e x s).1) rest q := by
  cases hl with
  | refl => exact Or.inl ⟨rfl, rfl⟩
  | await rest => exact Or.inr ⟨_, _, _, _, rfl, rest⟩

/-- One operation more. -/
theorem snoc {h : Head γ σ} {β : Type} {e : E β} {k : β → Prog E ρ} {x : χ} {s : σ} (hl : Leads H p evs (.await e k)) :
    Leads H p (evs ++ [⟨h, e, x, s⟩]) (k (H.act e x s).1) := by
  generalize hq : Prog.await e k = q at hl
  induction hl with
  | refl p =>
    subst hq
    exact .await (.refl _)
  | await rest ih => exact .await (ih hq)

/-- A program in sequence is still in its first part, or has left it. -/
theorem of_bind {p : Prog E α} {f : α → Prog E ρ} (hl : Leads H (p >>= f) evs q) :
    (∃ p', Leads H p evs p' ∧ q = p' >>= f) ∨
    ∃ first rest a, evs = first ++ rest ∧ Leads H p first (.ret a) ∧ Leads H (f a) rest q := by
  induction p generalizing evs with
  | ret a => exact Or.inr ⟨[], evs, a, rfl, .refl _, hl⟩
  | await e k ih =>
    rcases of_await hl with ⟨rfl, rfl⟩ | ⟨h, x, s, rest, rfl, hrest⟩
    · exact Or.inl ⟨_, .refl _, rfl⟩
    · rcases ih _ hrest with ⟨p', hp', rfl⟩ | ⟨first, rest, a, rfl, hfirst, hrest⟩
      · exact Or.inl ⟨p', .await hp', rfl⟩
      · exact Or.inr ⟨⟨h, e, x, s⟩ :: first, rest, a, rfl, .await hfirst, hrest⟩

end Leads

end Prog

namespace Pool

variable (H : Handler E χ σ) (code : γ → Prog E ρ)

/-- The operations of a run, each with the call that performed it. -/
def journal : Pool E γ σ ρ → List (Move γ χ) → List (Nat × Event E γ χ σ)
  | _, [] => []
  | P, .start c :: ms => journal (step H code P (.start c)) ms
  | P, .run i x :: ms => ((event? P i x).map fun ev => (i, ev)).toList ++ journal (step H code P (.run i x)) ms

/-- What one call performed. -/
def deeds (i : Nat) (J : List (Nat × Event E γ χ σ)) : List (Event E γ χ σ) := (J.filter fun entry => entry.1 = i).map Prod.snd

/-- The journal up to the last operation of one call. -/
def upTo (i : Nat) (J : List (Nat × Event E γ χ σ)) : List (Nat × Event E γ χ σ) := J.rdropWhile fun entry => entry.1 ≠ i

section Deeds

variable {i j : Nat} {J J' : List (Nat × Event E γ χ σ)} {ev : Event E γ χ σ}

@[simp] theorem deeds_nil : deeds i ([] : List (Nat × Event E γ χ σ)) = [] := rfl

@[simp] theorem deeds_append : deeds i (J ++ J') = deeds i J ++ deeds i J' := by
  simp [deeds]

@[simp] theorem deeds_own : deeds i [(i, ev)] = [ev] := by
  simp [deeds]

theorem deeds_other (hij : j ≠ i) : deeds i [(j, ev)] = [] := by
  simp [deeds, hij]

@[simp] theorem mem_deeds : ev ∈ deeds i J ↔ (i, ev) ∈ J := by
  simp [deeds]

/-- The journal up to the last of a call's operations ends in that operation. -/
theorem upTo_eq {before : List (Event E γ χ σ)} (hdeeds : deeds i J = before ++ [ev]) :
    ∃ J₁ J₂, J = J₁ ++ (i, ev) :: J₂ ∧ upTo i J = J₁ ++ [(i, ev)] ∧ deeds i J₁ = before := by
  induction J using List.reverseRecOn with
  | nil =>
    have := congrArg List.length hdeeds
    simp at this
  | append_singleton J last ih =>
    obtain ⟨j, ev'⟩ := last
    by_cases hj : j = i
    · subst hj
      rw [deeds_append, deeds_own] at hdeeds
      obtain ⟨hbefore, hlast⟩ := List.append_inj' hdeeds rfl
      obtain rfl : ev' = ev := by simpa using hlast
      exact ⟨J, [], rfl, by rw [upTo, List.rdropWhile_concat_neg _ _ _ (by simp)], hbefore⟩
    · rw [deeds_append, deeds_other hj, List.append_nil] at hdeeds
      obtain ⟨J₁, J₂, rfl, hup, hbefore⟩ := ih hdeeds
      refine ⟨J₁, J₂ ++ [(j, ev')], by simp, ?_, hbefore⟩
      rw [upTo, List.rdropWhile_concat_pos _ _ _ (by simpa using hj)]
      exact hup

end Deeds

variable {H code} {P : Pool E γ σ ρ} {ms : List (Move γ χ)} {i : Nat} {t : Task E γ σ ρ}

/-- Every call stands where its own operations led it. -/
def Stands (H : Handler E χ σ) (code : γ → Prog E ρ) (P : Pool E γ σ ρ) (J : List (Nat × Event E γ χ σ)) : Prop :=
  ∀ i, (P.tasks[i]? = none → deeds i J = []) ∧
    ∀ t, P.tasks[i]? = some t → Prog.Leads H (code t.head.call) (deeds i J) t.rest ∧ ∀ ev ∈ deeds i J, ev.head = t.head

theorem Stands.call {J : List (Nat × Event E γ χ σ)} (hs : Stands H code P J) (c : γ) :
    Stands H code (step H code P (.start c)) J := by
  intro i
  simp only [step, List.getElem?_append]
  split
  · exact hs i
  · rename_i hi
    have hnone := (hs i).1 (List.getElem?_eq_none (by omega))
    refine ⟨fun _ => hnone, fun t ht => ?_⟩
    have hlt := (List.getElem?_eq_some_iff.1 ht).1
    simp only [List.length_singleton] at hlt
    obtain rfl : t = ⟨⟨c, P.state⟩, code c⟩ := by
      rw [show i - P.tasks.length = 0 by omega] at ht
      simpa using ht.symm
    rw [hnone]
    exact ⟨.refl _, fun ev hev => by cases hev⟩

theorem Stands.perform {J : List (Nat × Event E γ χ σ)} (hs : Stands H code P J) {x : χ} {h : Head γ σ} {β : Type} {e : E β}
    {k : β → Prog E ρ} (ht : P.tasks[i]? = some ⟨h, .await e k⟩) :
    Stands H code ⟨(H.act e x P.state).2, P.tasks.set i ⟨h, k (H.act e x P.state).1⟩⟩ (J ++ [(i, ⟨h, e, x, P.state⟩)]) := by
  intro j
  by_cases hij : j = i
  · subst hij
    have hlt := (List.getElem?_eq_some_iff.1 ht).1
    obtain ⟨hleads, hheads⟩ := (hs j).2 _ ht
    refine ⟨fun hnone => by simp [hlt] at hnone, fun t hset => ?_⟩
    obtain rfl : t = ⟨h, k (H.act e x P.state).1⟩ := by simpa [hlt] using hset.symm
    rw [deeds_append, deeds_own]
    refine ⟨hleads.snoc, fun ev hev => ?_⟩
    rcases List.mem_append.1 hev with hev | hev
    · exact hheads ev hev
    · rw [List.mem_singleton.1 hev]
  · rw [List.getElem?_set_ne (Ne.symm hij), deeds_append, deeds_other (Ne.symm hij), List.append_nil]
    exact hs j

theorem Stands.run {J : List (Nat × Event E γ χ σ)} (hs : Stands H code P J) :
    Stands H code (run H code P ms) (J ++ journal H code P ms) := by
  induction ms generalizing P J with
  | nil => simpa [journal, Pool.run] using hs
  | cons m ms ih =>
    cases m with
    | start c => exact ih (hs.call c)
    | run i x =>
      obtain ⟨h, β, e, k, ht, he, hstep⟩ | ⟨he, hstep⟩ := step_run H code P i x
      · have next := ih (hs.perform (x := x) ht)
        rw [Pool.run, journal, he, hstep]
        simpa using next
      · rw [Pool.run, journal, he, hstep]
        simpa using ih hs

/-- In every run from no calls, each call stands where its own operations led it. -/
theorem stands {s : σ} (ht : (run H code (start s) ms).tasks[i]? = some t) :
    Prog.Leads H (code t.head.call) (deeds i (journal H code (start s) ms)) t.rest ∧
    ∀ ev ∈ deeds i (journal H code (start s) ms), ev.head = t.head := by
  have hstart : Stands H code (start s) ([] : List (Nat × Event E γ χ σ)) := fun _ => ⟨fun _ => rfl, fun _ ht => by cases ht⟩
  exact (hstart.run i).2 t ht

theorem journal_append (P : Pool E γ σ ρ) (ms ms' : List (Move γ χ)) :
    journal H code P (ms ++ ms') = journal H code P ms ++ journal H code (Pool.run H code P ms) ms' := by
  induction ms generalizing P with
  | nil => rfl
  | cons m ms ih => cases m <;> simp [journal, Pool.run, ih]

/-- Where a journal splits, the run that made it does. -/
theorem journal_split {J₁ J₂ : List (Nat × Event E γ χ σ)} {ev : Event E γ χ σ} (hJ : journal H code P ms = J₁ ++ (i, ev) :: J₂) :
    ∃ ms₁ x ms₂, ms = ms₁ ++ .run i x :: ms₂ ∧ event? (run H code P ms₁) i x = some ev ∧ journal H code P ms₁ = J₁ := by
  induction ms generalizing P J₁ with
  | nil => simp [journal] at hJ
  | cons m ms ih =>
    cases m with
    | start c =>
      obtain ⟨ms₁, x, ms₂, rfl, he, hprefix⟩ := ih (P := step H code P (.start c)) hJ
      exact ⟨.start c :: ms₁, x, ms₂, rfl, he, hprefix⟩
    | run j x =>
      rcases he : event? P j x with _ | ev'
      · rw [journal, he] at hJ
        obtain ⟨ms₁, y, ms₂, rfl, he', rfl⟩ := ih (P := step H code P (.run j x)) hJ
        exact ⟨.run j x :: ms₁, y, ms₂, rfl, he', by rw [journal, he]; rfl⟩
      · rw [journal, he] at hJ
        cases J₁ with
        | nil =>
          obtain ⟨hfirst, -⟩ := List.cons.inj hJ
          obtain ⟨rfl, rfl⟩ := Prod.mk.inj hfirst
          exact ⟨[], x, ms, rfl, he, rfl⟩
        | cons first J₁ =>
          obtain ⟨rfl, hrest⟩ := List.cons.inj hJ
          obtain ⟨ms₁, y, ms₂, rfl, he', rfl⟩ := ih (P := step H code P (.run j x)) hrest
          exact ⟨.run j x :: ms₁, y, ms₂, rfl, he', by rw [journal, he]; rfl⟩

/-- A journal is the history with its calls. -/
theorem journal_map (P : Pool E γ σ ρ) (ms : List (Move γ χ)) : (journal H code P ms).map Prod.snd = trace H code P ms := by
  induction ms generalizing P with
  | nil => rfl
  | cons m ms ih =>
    cases m with
    | start c => exact ih _
    | run i x => cases he : event? P i x <;> simp [journal, trace, he, ih]

/-- Each entry names the call that performed it. -/
theorem journal_head {entry : Nat × Event E γ χ σ} (hentry : entry ∈ journal H code P ms) :
    (heads (run H code P ms))[entry.1]? = some entry.2.head := by
  obtain ⟨J₁, J₂, hJ⟩ := List.append_of_mem hentry
  obtain ⟨ms₁, x, ms₂, rfl, he, -⟩ := journal_split hJ
  obtain ⟨h, β, e, k, ht, he', -⟩ | ⟨he', -⟩ := step_run H code (run H code P ms₁) entry.1 x
  · rw [he] at he'
    obtain ⟨new, hnew⟩ := heads_run H code (run H code P ms₁) (.run entry.1 x :: ms₂)
    have here : (heads (run H code P ms₁))[entry.1]? = some h := by simp [heads, ht]
    rw [run_append, hnew, List.getElem?_append_left (List.getElem?_eq_some_iff.1 here).1, here, Option.some.inj he']
  · rw [he] at he'
    cases he'

/-- What every operation of a run keeps, of the journal so far and the state, holds at its end. -/
theorem journal_run {I : List (Nat × Event E γ χ σ) → σ → Prop} {J : List (Nat × Event E γ χ σ)} (hP : I J P.state)
    (hstep : ∀ J₁ i ev J₂, journal H code P ms = J₁ ++ (i, ev) :: J₂ → I (J ++ J₁) ev.state →
      I (J ++ J₁ ++ [(i, ev)]) (ev.after H)) :
    I (J ++ journal H code P ms) (run H code P ms).state := by
  induction ms generalizing P J with
  | nil => simpa [journal, Pool.run] using hP
  | cons m ms ih =>
    cases m with
    | start c => exact ih (P := step H code P (.start c)) hP hstep
    | run i x =>
      obtain ⟨h, β, e, k, _, he, hs⟩ | ⟨he, hs⟩ := step_run H code P i x
      · have here := hstep [] i ⟨h, e, x, P.state⟩ _ (by rw [journal, he]; rfl) (by simpa using hP)
        have rest := ih (P := step H code P (.run i x)) (J := J ++ [(i, ⟨h, e, x, P.state⟩)])
          (by rw [hs]; simpa [Event.after] using here) fun J₁ j ev J₂ hJ hI => ?_
        · rw [journal, he, run]
          simpa using rest
        · have next := hstep ((i, ⟨h, e, x, P.state⟩) :: J₁) j ev J₂ (by rw [journal, he]; simp [hJ]) (by simpa using hI)
          simpa using next
      · have rest := ih (P := step H code P (.run i x)) (J := J) (by rw [hs]; exact hP) fun J₁ j ev J₂ hJ =>
          hstep J₁ j ev J₂ (by rw [journal, he]; simp [hJ])
        rw [journal, he, run]
        simpa using rest

/-- And wherever an operation ran. -/
theorem journal_inv {I : List (Nat × Event E γ χ σ) → σ → Prop} (hP : I [] P.state)
    (hstep : ∀ J₁ i ev J₂, journal H code P ms = J₁ ++ (i, ev) :: J₂ → I J₁ ev.state → I (J₁ ++ [(i, ev)]) (ev.after H))
    {J₁ J₂ : List (Nat × Event E γ χ σ)} {ev : Event E γ χ σ} (hJ : journal H code P ms = J₁ ++ (i, ev) :: J₂) : I J₁ ev.state := by
  obtain ⟨ms₁, x, ms₂, rfl, he, rfl⟩ := journal_split hJ
  rw [state_of_event he]
  have whole : I ([] ++ journal H code P ms₁) (run H code P ms₁).state := journal_run hP fun K₁ j ev' K₂ hK hI => by
    have next := hstep K₁ j ev' (K₂ ++ journal H code (run H code P ms₁) (.run i x :: ms₂)) (by rw [journal_append, hK]; simp)
    simpa using next (by simpa using hI)
  simpa using whole

section Ordered

variable {R : σ → σ → Prop} (refl : ∀ s, R s s) (trans : ∀ {a b c}, R a b → R b c → R a c)
  (hact : ∀ {β : Type} (e : E β) x s, R s (H.act e x s).2)

include refl trans hact

theorem rel_run (P : Pool E γ σ ρ) (ms : List (Move γ χ)) : R P.state (run H code P ms).state :=
  run_rel H code refl trans fun ev _ => hact ev.eff ev.input ev.state

/-- What every operation moves forward is ordered along the journal. -/
theorem journal_ordered (P : Pool E γ σ ρ) (ms : List (Move γ χ)) :
    (∀ entry ∈ journal H code P ms, R P.state entry.2.state) ∧
    (journal H code P ms).Pairwise fun a b => R (a.2.after H) b.2.state := by
  induction ms generalizing P with
  | nil => exact ⟨fun _ h => (List.not_mem_nil h).elim, .nil⟩
  | cons m ms ih =>
    cases m with
    | start c => exact ih (step H code P (.start c))
    | run i x =>
      obtain ⟨h, β, e, k, ht, he, hstep⟩ | ⟨he, hstep⟩ := step_run H code P i x
      · obtain ⟨hfrom, hpairs⟩ := ih (step H code P (.run i x))
        rw [hstep] at hfrom hpairs
        rw [journal, he, hstep, Option.map_some, Option.toList_some, List.singleton_append]
        refine ⟨fun entry hentry => ?_, .cons hfrom hpairs⟩
        rcases List.mem_cons.1 hentry with rfl | hentry
        · exact refl _
        · exact trans (hact e x P.state) (hfrom entry hentry)
      · rw [journal, he, hstep]
        exact ih P

theorem deeds_ordered (P : Pool E γ σ ρ) (ms : List (Move γ χ)) (i : Nat) :
    (deeds i (journal H code P ms)).Pairwise fun a b => R (a.after H) b.state := by
  have hpairs : (journal H code P ms).Pairwise fun a b => R (a.2.after H) b.2.state := (journal_ordered refl trans hact P ms).2
  exact List.pairwise_map.2 (hpairs.sublist List.filter_sublist)

/-- A call's operations come after it was made. -/
theorem born_before {s : σ} {entry : Nat × Event E γ χ σ} (hentry : entry ∈ journal H code (start s) ms) :
    R entry.2.head.born entry.2.state := by
  obtain ⟨J₁, J₂, hJ⟩ := List.append_of_mem hentry
  obtain ⟨ms₁, x, ms₂, rfl, he, -⟩ := journal_split hJ
  obtain ⟨h, β, e, k, ht, he', -⟩ | ⟨he', -⟩ := step_run H code (run H code (start s) ms₁) entry.1 x
  · rw [he] at he'
    rw [Option.some.inj he']
    obtain ⟨mb, ma, rfl, hborn⟩ := born_of_new H code (P := start s) (Nat.zero_le _) ht
    show R h.born (run H code (start s) (mb ++ ma)).state
    rw [run_append, show h.born = _ from hborn]
    exact rel_run refl trans hact _ _
  · rw [he] at he'
    cases he'

end Ordered

end Pool

/-! ## What a contract notes -/

namespace Protocol

variable {H : Handler E χ σ} {code : γ → Prog E ρ} {Own : Type} (D : Protocol H code Own)

/-- What its own operations have told the call `i`. -/
def noted (i : Nat) (J : List (Nat × Event E γ χ σ)) : Own :=
  (Pool.deeds i J).foldl (fun g ev => D.gain g ev.eff (ev.answer H)) D.init

variable {D} {P : Pool E γ σ ρ} {ms : List (Move γ χ)} {J J₁ J₂ : List (Nat × Event E γ χ σ)} {i : Nat} {ev : Event E γ χ σ}

theorem noted_snoc : D.noted i (J ++ [(i, ev)]) = D.gain (D.noted i J) ev.eff (ev.answer H) := by
  simp [noted]

theorem noted_other {j : Nat} (hij : j ≠ i) : D.noted i (J ++ [(j, ev)]) = D.noted i J := by
  simp [noted, Pool.deeds_other hij]

/-- In every state of an admitted run, each call meets its contract with what it has noted. -/
theorem kept_deeds (kept : D.Kept P fun i => D.noted i J) (fresh : ∀ i, P.tasks.length ≤ i → Pool.deeds i J = [])
    (ha : D.Admitted P ms) : D.Kept (Pool.run H code P ms) fun i => D.noted i (J ++ Pool.journal H code P ms) := by
  induction ms generalizing P J with
  | nil => simpa [Pool.journal, Pool.run] using kept
  | cons m ms ih =>
    cases m with
    | start c =>
      obtain ⟨hadmits, hdistinct⟩ := ha.call
      have next := kept.call hadmits hdistinct
      rw [Function.update_eq_self_iff.2 (by simp [noted, fresh])] at next
      refine ih next (fun j hj => fresh j ?_) ha.tail
      simp only [Pool.step, List.length_append, List.length_singleton] at hj
      omega
    | run i x =>
      have tail := ha.tail
      obtain ⟨h, β, e, k, ht, he, hs⟩ | ⟨he, hs⟩ := Pool.step_run H code P i x
      · have next := kept.perform ht (ha.first he)
        have same : Function.update (fun j => D.noted j J) i (D.gain (D.noted i J) e (H.act e x P.state).1) =
            fun j => D.noted j (J ++ [(i, ⟨h, e, x, P.state⟩)]) := by
          funext j
          by_cases hij : j = i
          · subst hij
            rw [Function.update_self, noted_snoc]
            rfl
          · rw [Function.update_of_ne hij, noted_other (Ne.symm hij)]
        rw [same, ← hs] at next
        have rest := ih next (fun j hj => ?_) tail
        · rw [Pool.journal, he, Pool.run]
          simpa using rest
        · rw [hs, List.length_set] at hj
          have hlt := (List.getElem?_eq_some_iff.1 ht).1
          rw [Pool.deeds_append, fresh j hj, Pool.deeds_other (by omega), List.append_nil]
      · rw [hs] at tail
        rw [Pool.journal, he, Pool.run, hs]
        simpa using ih kept fresh tail

/-- Every operation of an admitted run was issued where its contract lets it be, with what its call
had noted before. -/
theorem before_deeds {s : σ} (hs : D.inv s) (hidle : ∀ c, D.idle c s) (ha : D.Admitted (Pool.start s) ms)
    (hJ : Pool.journal H code (Pool.start s) ms = J₁ ++ (i, ev) :: J₂) :
    D.inv ev.state ∧ D.owns ev.head (D.noted i J₁) ev.state ∧ D.before ev.head (D.noted i J₁) ev.eff ev.state := by
  obtain ⟨ms₁, x, ms₂, rfl, he, rfl⟩ := Pool.journal_split hJ
  have kept := kept_deeds (J := []) (Kept.start hs hidle) (fun _ _ => rfl) ha.take
  obtain ⟨h, β, e, k, ht, he', -⟩ | ⟨he', -⟩ := Pool.step_run H code (Pool.run H code (Pool.start s) ms₁) i x
  · obtain rfl : ev = ⟨h, e, x, _⟩ := by
      rw [he] at he'
      exact Option.some.inj he'
    obtain ⟨howns, hm⟩ := kept.task ht
    exact ⟨kept.inv, howns, (hm _ (D.rely_refl _ _ _) kept.inv).1⟩
  · rw [he] at he'
    cases he'

variable (D) in
/-- What their operations tell the calls in `mine`, one call as if for all. -/
def told (mine : γ → Bool) (g : Own) (T : List (Event E γ χ σ)) : Own :=
  T.foldl (fun g ev => if mine ev.head.call then D.gain g ev.eff (ev.answer H) else g) g

/-- No two of the calls are in `mine`. -/
def Single (mine : γ → Bool) (hs : List (Head γ σ)) : Prop := hs.Pairwise fun a b => ¬ (mine a.call = true ∧ mine b.call = true)

theorem Single.unique {mine : γ → Bool} {hs : List (Head γ σ)} (single : Single mine hs) {i j : Nat} {a b : Head γ σ}
    (ha : hs[i]? = some a) (hb : hs[j]? = some b) (hmine : mine a.call = true) (hmine' : mine b.call = true) : i = j := by
  obtain ⟨hi, rfl⟩ := List.getElem?_eq_some_iff.1 ha
  obtain ⟨hj, rfl⟩ := List.getElem?_eq_some_iff.1 hb
  have pairs := List.pairwise_iff_getElem.1 single
  rcases Nat.lt_trichotomy i j with hlt | rfl | hlt
  · exact absurd ⟨hmine, hmine'⟩ (pairs i j hi hj hlt)
  · rfl
  · exact absurd ⟨hmine', hmine⟩ (pairs j i hj hi hlt)

/-- The only call in `mine` has noted what the history tells it. -/
theorem noted_eq_told (mine : γ → Bool) (own : ∀ entry ∈ J, mine entry.2.head.call = true ↔ entry.1 = i) :
    D.noted i J = told D mine D.init (J.map Prod.snd) := by
  induction J using List.reverseRecOn with
  | nil => rfl
  | append_singleton J entry ih =>
    obtain ⟨j, ev⟩ := entry
    have here : mine ev.head.call = true ↔ j = i := own (j, ev) (by simp)
    have before := ih fun entry hentry => own entry (List.mem_append_left _ hentry)
    have last : told D mine D.init ((J ++ [(j, ev)]).map Prod.snd) = if mine ev.head.call then
        D.gain (told D mine D.init (J.map Prod.snd)) ev.eff (ev.answer H) else told D mine D.init (J.map Prod.snd) := by
      simp [told]
    rw [last, ← before]
    by_cases hij : j = i
    · subst hij
      rw [if_pos (here.2 rfl), noted_snoc]
    · rw [if_neg fun h => hij (here.1 h), noted_other hij]

/-- So was every operation of the only call in `mine`, with the ghost data that the history before it tells. -/
theorem before_told {s : σ} (hs : D.inv s) (hidle : ∀ c, D.idle c s) (ha : D.Admitted (Pool.start s) ms) {mine : γ → Bool}
    (single : Single mine (Pool.heads (Pool.run H code (Pool.start s) ms))) {T₁ T₂ : List (Event E γ χ σ)}
    (htrace : Pool.trace H code (Pool.start s) ms = T₁ ++ ev :: T₂) (hmine : mine ev.head.call = true) :
    D.inv ev.state ∧ D.before ev.head (told D mine D.init T₁) ev.eff ev.state := by
  rw [← Pool.journal_map] at htrace
  obtain ⟨J₁, J', hJ, rfl, hJ'⟩ := List.map_eq_append_iff.1 htrace
  obtain ⟨⟨i, ev⟩, J₂, rfl, rfl, -⟩ := List.map_eq_cons_iff.1 hJ'
  have entry : ∀ e ∈ J₁ ++ (i, ev) :: J₂, (Pool.heads (Pool.run H code (Pool.start s) ms))[e.1]? = some e.2.head := by
    rw [← hJ]
    exact fun e he => Pool.journal_head he
  have here := entry (i, ev) (by simp)
  obtain ⟨hinv, -, hb⟩ := before_deeds hs hidle ha hJ
  rw [noted_eq_told mine fun e he => ?_] at hb
  · exact ⟨hinv, hb⟩
  · have there := entry e (List.mem_append_left _ he)
    refine ⟨fun hm => single.unique there here hm hmine, fun hij => ?_⟩
    rw [hij, here] at there
    rw [← Option.some.inj there]
    exact hmine

end Protocol

end Async
