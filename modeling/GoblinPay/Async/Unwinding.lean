/-!
# Unwinding

Jobs of several parties run one after the other on one state. When a state relation hides from the one party
what the others do, the others' jobs cannot be seen: two runs in which that party has the same jobs show it the
same. The relation may look at the jobs the party still has: what none of them reads is hidden from then on.
-/

namespace Async

section

variable {J σ O : Type} (run : J → σ → σ) (out : J → σ → O) (mine : J → Prop) [DecidablePred mine]

/-- What the jobs in `mine` show in a run of all of them. -/
def observed : List J → σ → List O
  | [], _ => []
  | j :: js, s => if mine j then out j s :: observed js (run j s) else observed js (run j s)

/-- The unwinding conditions. `R left` hides what the party's jobs `left` do not read, and `ok left` is asked of the others'
jobs that come before these. -/
structure Unwinds (ok : List J → J → Prop) (R : List J → σ → σ → Prop) : Prop where
  /-- what the others do is hidden -/
  hidden : ∀ {left j s}, ok left j → ¬ mine j → R left s (run j s)
  /-- hidden differences stay hidden -/
  consistent : ∀ {left j s t}, mine j → R (j :: left) s t → R left (run j s) (run j t)
  same : ∀ {left j s t}, mine j → R (j :: left) s t → out j s = out j t
  symm : ∀ {left s t}, R left s t → R left t s
  trans : ∀ {left s t u}, R left s t → R left t u → R left s u

/-- Each job of the others is in `ok` for what the party has left. -/
def Spared (ok : List J → J → Prop) (js : List J) : Prop :=
  ∀ past j rest, js = past ++ j :: rest → ¬ mine j → ok (rest.filter mine) j

variable {run out mine} {ok : List J → J → Prop} {R : List J → σ → σ → Prop}

theorem Spared.tail {j : J} {js : List J} (h : Spared mine ok (j :: js)) : Spared mine ok js :=
  fun past j' rest hjs hj' => h (j :: past) j' rest (by rw [hjs, List.cons_append]) hj'

/-- Of a run, the party sees what it would see alone. -/
theorem Unwinds.alone (h : Unwinds run out mine ok R) {js : List J} (hok : Spared mine ok js) {s t : σ} (hR : R (js.filter mine) s t) :
    observed run out mine js s = observed run out mine (js.filter mine) t := by
  induction js generalizing s t with
  | nil => rfl
  | cons j js ih =>
    by_cases hj : mine j
    · rw [List.filter_cons_of_pos (by simpa using hj)] at hR ⊢
      simp only [observed, hj, if_true]
      rw [h.same hj hR, ih hok.tail (h.consistent hj hR)]
    · rw [List.filter_cons_of_neg (by simpa using hj)] at hR ⊢
      simp only [observed, hj, if_false]
      have hidden := h.hidden (s := s) (hok [] j js rfl hj) hj
      exact ih hok.tail (h.trans (h.symm hidden) hR)

/-- Two runs with the same jobs of the party look the same to it. -/
theorem Unwinds.observed_eq (h : Unwinds run out mine ok R) {js js' : List J} (hok : Spared mine ok js) (hok' : Spared mine ok js')
    (same : js.filter mine = js'.filter mine) {s : σ} (hR : R (js.filter mine) s s) :
    observed run out mine js s = observed run out mine js' s := by
  rw [h.alone hok hR, h.alone hok' (same ▸ hR), same]

end

end Async
