import Mathlib.Data.Int.Order.Basic
import Mathlib.Data.List.Basic

/-!
# Sliding windows

A limiter that admits at most `limit` events within any `window` keeps a list of times and forgets those
the window has left behind. `Remembers` says that nothing is forgotten which a window from now on could
hold; `Bounded` is what the limiter is for.
-/

namespace Limit

/-- The times of `log` that the window ending at `now` holds. -/
def recent (window now : Int) (log : List Int) : List Int := log.filter fun t => now - t < window

/-- No window of the given width holds more than `limit` times of `log`. -/
def Bounded (limit : Nat) (window : Int) (log : List Int) : Prop :=
  ∀ start, (log.filter fun t => start ≤ t ∧ t < start + window).length ≤ limit

/-- `hits` holds of `log` what a window that ends at `now` or later can hold. -/
def Remembers (window now : Int) (log hits : List Int) : Prop :=
  ∀ later, now ≤ later → recent window later hits = recent window later log

section Keyed

variable {κ ν : Type} [DecidableEq κ]

/-- Under `key` there is `v`, and nothing else changes. -/
def put (key : κ) (v : ν) (map : List (κ × ν)) : List (κ × ν) := (key, v) :: map.filter fun r => r.1 ≠ key

theorem lookup_put_self (key : κ) (v : ν) (map : List (κ × ν)) : (put key v map).lookup key = some v := by
  rw [put, List.lookup_cons_self]

theorem lookup_put_ne {key k : κ} (h : k ≠ key) (v : ν) (map : List (κ × ν)) : (put key v map).lookup k = map.lookup k := by
  rw [put, List.lookup_cons, beq_false_of_ne h]
  dsimp only
  induction map with
  | nil => rfl
  | cons r map ih =>
    by_cases hr : r.1 = key
    · rw [List.filter_cons_of_neg (by simpa using hr), ih, List.lookup_cons, beq_false_of_ne (hr ▸ h)]
    · rw [List.filter_cons_of_pos (by simpa using hr), List.lookup_cons, List.lookup_cons, ih]

theorem nodup_put (key : κ) (v : ν) {map : List (κ × ν)} (h : (map.map Prod.fst).Nodup) :
    ((put key v map).map Prod.fst).Nodup := by
  rw [put, List.map_cons, List.nodup_cons]
  refine ⟨fun hmem => ?_, h.sublist (List.filter_sublist.map _)⟩
  obtain ⟨r, hr, rfl⟩ := List.mem_map.1 hmem
  simpa using (List.mem_filter.1 hr).2

theorem lookup_filter {map : List (κ × ν)} (h : (map.map Prod.fst).Nodup) (p : ν → Bool) (k : κ) :
    (map.filter fun r => p r.2).lookup k = (map.lookup k).filter p := by
  induction map with
  | nil => rfl
  | cons r map ih =>
    obtain ⟨hnew, hrest⟩ := List.nodup_cons.1 h
    by_cases hk : k = r.1
    · subst hk
      have gone : (map.filter fun r => p r.2).lookup r.1 = none := by
        rw [List.lookup_eq_none_iff]
        intro r' hr'
        have hne : r.1 ≠ r'.1 := fun he => hnew (he ▸ List.mem_map_of_mem (List.mem_of_mem_filter hr'))
        simpa using hne
      rw [List.lookup_cons_self, Option.filter_some]
      split
      · rename_i hp
        rw [List.filter_cons_of_pos (p := fun r : κ × ν => p r.2) hp, List.lookup_cons_self]
      · rename_i hp
        rw [List.filter_cons_of_neg (p := fun r : κ × ν => p r.2) hp, gone]
    · rw [List.lookup_cons, beq_false_of_ne hk]
      by_cases hp : p r.2 = true
      · rw [List.filter_cons_of_pos (p := fun r : κ × ν => p r.2) hp, List.lookup_cons, beq_false_of_ne hk]
        exact ih hrest
      · rw [List.filter_cons_of_neg (p := fun r : κ × ν => p r.2) hp]
        exact ih hrest

end Keyed

variable {limit : Nat} {window now next : Int} {log hits : List Int}

theorem Remembers.refl (log : List Int) : Remembers window now log log := fun _ _ => rfl

theorem Remembers.later (h : Remembers window now log hits) (hle : now ≤ next) : Remembers window next log hits :=
  fun t ht => h t (Int.le_trans hle ht)

/-- A later window holds nothing that an earlier one has left behind. -/
theorem recent_recent {wide : Int} (hle : now ≤ next) (hwide : window ≤ wide) :
    recent window next (recent wide now hits) = recent window next hits := by
  rw [recent, recent, recent, List.filter_filter]
  refine List.filter_congr fun t _ => ?_
  by_cases ht : next - t < window
  · have : now - t < wide := by omega
    simp [ht, this]
  · simp [ht]

/-- Forgetting what the window has left behind, or what a wider one has. -/
theorem Remembers.forget {wide : Int} (h : Remembers window now log hits) (hwide : window ≤ wide) :
    Remembers window now log (recent wide now hits) := fun t ht => by
  rw [recent_recent ht hwide]
  exact h t ht

/-- A list of hits may be dropped when a window as wide holds none of them. -/
theorem Remembers.prune {wide : Int} {entry : Option (List Int)} (h : Remembers window now log (entry.getD []))
    (hwide : window ≤ wide) :
    Remembers window now log ((entry.filter fun hits => hits.any fun t => now - t < wide).getD []) := by
  cases entry with
  | none => exact h
  | some hits =>
    rw [Option.filter_some]
    split
    · exact h
    · rename_i hany
      have hnone : recent wide now hits = [] := by
        refine List.filter_eq_nil_iff.2 fun t ht hrecent => hany ?_
        exact List.any_eq_true.2 ⟨t, ht, hrecent⟩
      have := h.forget hwide
      rwa [Option.getD_some, hnone] at this

theorem Remembers.enter (h : Remembers window now log hits) : Remembers window now (log ++ [now]) (hits ++ [now]) := by
  intro t ht
  rw [recent, List.filter_append, recent, List.filter_append]
  exact congrArg (· ++ _) (h t ht)

/-- Where the window that ends now has room, every window has it after the admission. -/
theorem Bounded.enter (h : Bounded limit window log) (room : (recent window now log).length < limit) :
    Bounded limit window (log ++ [now]) := by
  intro start
  rw [List.filter_append, List.length_append]
  by_cases hnow : start ≤ now ∧ now < start + window
  · have within : ((log.filter fun t => start ≤ t ∧ t < start + window)).length ≤ (recent window now log).length := by
      refine (List.monotone_filter_right log fun t ht => ?_).length_le
      have ht : start ≤ t ∧ t < start + window := of_decide_eq_true ht
      refine decide_eq_true ?_
      omega
    rw [List.filter_cons_of_pos (by simpa using hnow), List.filter_nil, List.length_singleton]
    omega
  · rw [List.filter_cons_of_neg (by simpa using hnow), List.filter_nil]
    exact h start

end Limit
