import Mathlib.Algebra.Order.Ring.Int
import Mathlib.Data.List.Nodup
import Mathlib.Data.List.MinMax

/-!
# Keyed tables

A table is a list of rows whose primary keys are distinct. Every operation carries the proof
that it keeps them so, and every read is stated through `get`, the row under a key.
-/

namespace Sql

/-- Whether there is a row, and it satisfies `p`, can be computed. -/
instance rowDecidable {ρ : Type} {o : Option ρ} {p : ρ → Prop} [DecidablePred p] :
    Decidable (∃ r, o = some r ∧ p r) :=
  match o with
  | none => isFalse (by simp)
  | some r => decidable_of_iff (p r) (by simp)

/-- A table of `ρ`s whose primary key is `key`. -/
structure Table {ρ κ : Type} (key : ρ → κ) where
  rows : List ρ
  nodup : (rows.map key).Nodup

namespace Table

variable {ρ κ : Type} {key : ρ → κ}

def empty : Table key := ⟨[], List.nodup_nil⟩

/-- Two tables with the same rows in the same order are one. -/
theorem eq_of_rows {t t' : Table key} (h : t.rows = t'.rows) : t = t' := by
  cases t
  cases t'
  cases h
  rfl

variable [DecidableEq κ]

def get (t : Table key) (k : κ) : Option ρ := t.rows.find? fun r => key r = k

theorem key_of_get {t : Table key} {k : κ} {r : ρ} (h : t.get k = some r) : key r = k := by
  simpa using List.find?_some h

theorem mem_of_get {t : Table key} {k : κ} {r : ρ} (h : t.get k = some r) : r ∈ t.rows :=
  List.mem_of_find?_eq_some h

theorem get_of_mem {t : Table key} {r : ρ} (h : r ∈ t.rows) : t.get (key r) = some r := by
  obtain ⟨rows, nodup⟩ := t
  simp only [get]
  induction rows with
  | nil => cases h
  | cons a rows ih =>
    simp only [List.map_cons, List.nodup_cons] at nodup
    rcases List.mem_cons.1 h with rfl | h
    · simp
    · have hne : key a ≠ key r := fun he => nodup.1 (he ▸ List.mem_map_of_mem h)
      simpa [hne] using ih nodup.2 h

theorem mem_rows_iff {t : Table key} {r : ρ} : r ∈ t.rows ↔ t.get (key r) = some r :=
  ⟨get_of_mem, mem_of_get⟩

theorem get_eq_none {t : Table key} {k : κ} : t.get k = none ↔ k ∉ t.rows.map key := by
  simp [get]

/-- `INSERT`: refused when the primary key is taken. -/
def insert (t : Table key) (r : ρ) : Option (Table key) :=
  if h : key r ∈ t.rows.map key then none
  else some ⟨t.rows ++ [r], by
    rw [List.map_append, List.map_singleton]
    exact List.nodup_append.2 ⟨t.nodup, List.nodup_singleton _, by
      rintro a ha b hb rfl
      exact h (List.mem_singleton.1 hb ▸ ha)⟩⟩

theorem rows_insert {t t' : Table key} {r : ρ} (h : t.insert r = some t') : t'.rows = t.rows ++ [r] := by
  simp only [insert] at h
  split at h
  · cases h
  · cases h
    rfl

theorem insert_eq_none {t : Table key} {r : ρ} : t.insert r = none ↔ t.get (key r) ≠ none := by
  simp only [insert, ne_eq, get_eq_none]
  split <;> simp_all

theorem get_insert {t t' : Table key} {r : ρ} (h : t.insert r = some t') (k : κ) :
    t'.get k = if key r = k then some r else t.get k := by
  simp only [insert] at h
  split at h
  · cases h
  · rename_i hnew
    cases h
    simp only [get, List.find?_append]
    by_cases hk : key r = k
    · subst hk
      have : List.find? (fun a => decide (key a = key r)) t.rows = none := get_eq_none.2 hnew
      simp [this]
    · simp [hk]

theorem get_of_insert {t t' : Table key} {r : ρ} (h : t.insert r = some t') : t.get (key r) = none := by
  by_contra hne
  rw [insert_eq_none.2 hne] at h
  cases h

/-- `UPDATE … SET f WHERE p`, for an `f` that leaves the primary key alone. -/
def update (t : Table key) (p : ρ → Bool) (f : ρ → ρ) (hf : ∀ r, key (f r) = key r) : Table key :=
  ⟨t.rows.map fun r => if p r then f r else r, by
    have : (key ∘ fun r => if p r then f r else r) = key := by
      funext r
      by_cases hp : p r <;> simp [hp, hf]
    rw [List.map_map, this]
    exact t.nodup⟩

@[simp] theorem get_update (t : Table key) (p : ρ → Bool) (f : ρ → ρ) (hf : ∀ r, key (f r) = key r) (k : κ) :
    (t.update p f hf).get k = (t.get k).map fun r => if p r then f r else r := by
  obtain ⟨rows, nodup⟩ := t
  have same : ∀ r, key (if p r then f r else r) = key r := fun r => by
    by_cases hp : p r <;> simp [hp, hf]
  simp only [update, get, List.find?_map]
  congr 2
  funext r
  simp [same]

/-- `DELETE … WHERE p`. -/
def delete (t : Table key) (p : ρ → Bool) : Table key :=
  ⟨t.rows.filter fun r => !p r, t.nodup.sublist (List.filter_sublist.map key)⟩

@[simp] theorem get_delete (t : Table key) (p : ρ → Bool) (k : κ) :
    (t.delete p).get k = (t.get k).filter fun r => !p r := by
  refine Option.ext fun r => ?_
  constructor
  · intro h
    obtain rfl := key_of_get h
    obtain ⟨hm, hp⟩ := List.mem_filter.1 (mem_of_get h)
    simp [get_of_mem hm, hp]
  · intro h
    obtain ⟨hg, hp⟩ := Option.filter_eq_some_iff.1 h
    obtain rfl := key_of_get hg
    exact get_of_mem (t := t.delete p) (List.mem_filter.2 ⟨mem_of_get hg, hp⟩)

/-- `SELECT … WHERE p`. -/
def select (t : Table key) (p : ρ → Bool) : List ρ := t.rows.filter p

theorem mem_select {t : Table key} {p : ρ → Bool} {r : ρ} :
    r ∈ t.select p ↔ t.get (key r) = some r ∧ p r = true := by
  rw [select, List.mem_filter, mem_rows_iff]

/-- Rows an `UPDATE` or a `DELETE` reports as affected. -/
def affected (t : Table key) (p : ρ → Bool) : Nat := (t.select p).length

omit [DecidableEq κ] in
theorem affected_pos {t : Table key} {p : ρ → Bool} : 0 < t.affected p ↔ ∃ r ∈ t.rows, p r = true := by
  simp [affected, select, List.length_pos_iff_exists_mem]

/-- For a condition that names one key, the count of affected rows says whether its row meets it. -/
theorem affected_key {t : Table key} {k : κ} {p : ρ → Bool} :
    0 < t.affected (fun r => decide (key r = k) && p r) ↔ ∃ r, t.get k = some r ∧ p r = true := by
  rw [affected_pos]
  constructor
  · rintro ⟨r, hr, h⟩
    obtain ⟨hk, hp⟩ : key r = k ∧ p r = true := by simpa using h
    exact ⟨r, hk ▸ get_of_mem hr, hp⟩
  · rintro ⟨r, hr, hp⟩
    exact ⟨r, mem_of_get hr, by simp [key_of_get hr, hp]⟩

end Table

/-- One row of several a query without a total order may return: `n` is the engine's choice. -/
def pick {ρ : Type} (rows : List ρ) (n : Nat) : Option ρ := rows[n % rows.length]?

theorem pick_mem {ρ : Type} {rows : List ρ} {n : Nat} {r : ρ} (h : pick rows n = some r) : r ∈ rows :=
  List.mem_of_getElem? h

theorem pick_eq_none {ρ : Type} {rows : List ρ} {n : Nat} : pick rows n = none ↔ rows = [] := by
  constructor
  · intro h
    by_contra hne
    have := Nat.mod_lt n (List.length_pos_iff.2 hne)
    simp only [pick, List.getElem?_eq_none_iff] at h
    omega
  · rintro rfl
    rfl

/-- The rows an `ORDER BY at LIMIT 1` may return: those no other row comes before. -/
def first {ρ : Type} (at_ : ρ → Int) (rows : List ρ) : List ρ :=
  rows.filter fun r => rows.all fun r' => at_ r ≤ at_ r'

theorem first_eq_nil {ρ : Type} {at_ : ρ → Int} {rows : List ρ} : first at_ rows = [] ↔ rows = [] := by
  constructor
  · intro h
    rcases hmin : rows.argmin at_ with _ | r
    · exact List.argmin_eq_none.1 hmin
    · have hr : r ∈ first at_ rows := by
        refine List.mem_filter.2 ⟨List.argmin_mem hmin, List.all_eq_true.2 fun r' hr' => ?_⟩
        simpa using List.le_of_mem_argmin hr' hmin
      rw [h] at hr
      cases hr
  · rintro rfl
    rfl

/-- Every row that no other comes before is some choice. -/
theorem pick_of_mem {ρ : Type} {rows : List ρ} {r : ρ} (h : r ∈ rows) : ∃ n, pick rows n = some r := by
  obtain ⟨n, hn, rfl⟩ := List.mem_iff_getElem.1 h
  exact ⟨n, by simp [pick, Nat.mod_eq_of_lt hn]⟩

theorem first_subset {ρ : Type} {at_ : ρ → Int} {rows : List ρ} {r : ρ} (h : r ∈ first at_ rows) : r ∈ rows :=
  (List.mem_filter.1 h).1

theorem mem_first {ρ : Type} {at_ : ρ → Int} {rows : List ρ} {r : ρ} :
    r ∈ first at_ rows ↔ r ∈ rows ∧ ∀ r' ∈ rows, at_ r ≤ at_ r' := by
  simp [first, List.mem_filter]

/-- One row comes first if and only if it is there and comes strictly before every other. -/
theorem first_unique {ρ : Type} {at_ : ρ → Int} {rows : List ρ} {x : ρ} :
    (∀ r, r ∈ first at_ rows ↔ r = x) ↔ x ∈ rows ∧ ∀ r ∈ rows, r ≠ x → at_ x < at_ r := by
  constructor
  · intro h
    obtain ⟨hx, least⟩ := mem_first.1 ((h x).2 rfl)
    refine ⟨hx, fun r hr hne => ?_⟩
    by_contra hle
    refine hne ((h r).1 (mem_first.2 ⟨hr, fun r' hr' => ?_⟩))
    have := least r' hr'
    omega
  · rintro ⟨hx, least⟩ r
    constructor
    · intro hr
      obtain ⟨hr, hle⟩ := mem_first.1 hr
      by_contra hne
      have := least r hr hne
      have := hle x hx
      omega
    · rintro rfl
      refine mem_first.2 ⟨hx, fun r' hr' => ?_⟩
      by_cases hne : r' = r
      · rw [hne]
      · exact Int.le_of_lt (least r' hr' hne)

end Sql
