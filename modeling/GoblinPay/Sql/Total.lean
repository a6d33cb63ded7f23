import GoblinPay.Sql.Table

/-!
# Totals over a table

The sum of a function over the rows of a table, and what an `INSERT`, an `UPDATE` and a `DELETE` of one row do to it.
-/

namespace Sql.Table

variable {ρ κ : Type} {key : ρ → κ}

/-- The sum over all rows. -/
def total (f : ρ → Nat) (t : Table key) : Nat := (t.rows.map f).sum

variable [DecidableEq κ] {t t' : Table key} {k : κ} {r : ρ} {f : ρ → Nat} {g : ρ → ρ}

/-- A new row adds its share. -/
theorem total_insert (h : t.insert r = some t') : t'.total f = t.total f + f r := by
  rw [total, rows_insert h, List.map_append, List.sum_append, List.map_singleton, List.sum_singleton, total]

omit [DecidableEq κ] in
/-- An `UPDATE` that leaves every summand leaves the total. -/
theorem total_update {p : ρ → Bool} (hg : ∀ r, key (g r) = key r) (hf : ∀ r, f (g r) = f r) :
    (t.update p g hg).total f = t.total f := by
  have same : ∀ r, f (if p r then g r else r) = f r := by
    intro r
    split
    · exact hf r
    · rfl
  show ((t.rows.map _).map f).sum = _
  rw [List.map_map]
  exact congrArg List.sum (List.map_congr_left fun r _ => same r)

/-- A list whose keys are distinct has one row under each. -/
theorem sum_map_key {rows : List ρ} (nodup : (rows.map key).Nodup) (hr : r ∈ rows) :
    (rows.map fun x => f (if key x = key r then g x else x)).sum + f r = (rows.map f).sum + f (g r) := by
  induction rows with
  | nil => cases hr
  | cons a rows ih =>
    obtain ⟨hnew, hrest⟩ := List.nodup_cons.1 nodup
    simp only [List.map_cons, List.sum_cons]
    rcases List.mem_cons.1 hr with rfl | hmem
    · have hother : ∀ x ∈ rows, ¬ key x = key r := by
        intro x hx he
        exact hnew (he ▸ List.mem_map_of_mem hx)
      have hsame : (rows.map fun x => f (if key x = key r then g x else x)) = rows.map f :=
        List.map_congr_left fun x hx => by rw [if_neg (hother x hx)]
      rw [if_pos rfl, hsame]
      omega
    · have hne : ¬ key a = key r := by
        intro he
        exact hnew (he ▸ List.mem_map_of_mem hmem)
      have hih := ih hrest hmem
      rw [if_neg hne]
      omega

/-- Changing one row exchanges its share. -/
theorem total_update_key (hg : ∀ r, key (g r) = key r) (h : t.get k = some r) :
    (t.update (fun x => decide (key x = k)) g hg).total f + f r = t.total f + f (g r) := by
  obtain rfl := key_of_get h
  have hsum := sum_map_key (f := f) (g := g) t.nodup (mem_of_get h)
  rw [total, total, update, List.map_map]
  simpa [Function.comp_def] using hsum

/-- Where there is no such row, the total stays. -/
theorem total_update_none (hg : ∀ r, key (g r) = key r) (h : t.get k = none) :
    (t.update (fun x => decide (key x = k)) g hg).total f = t.total f := by
  have hother : ∀ x ∈ t.rows, ¬ key x = k := by
    rintro x hx rfl
    rw [get_of_mem hx] at h
    cases h
  rw [total, update, List.map_map]
  refine congrArg List.sum (List.map_congr_left ?_)
  intro x hx
  simp [hother x hx]

/-- Deleting a row takes its share away. -/
theorem total_delete_key (h : t.get k = some r) :
    (t.delete fun x => decide (key x = k)).total f + f r = t.total f := by
  obtain rfl := key_of_get h
  have hr := mem_of_get h
  obtain ⟨rows, nodup⟩ := t
  simp only [total, delete]
  clear h
  induction rows with
  | nil => cases hr
  | cons a rows ih =>
    obtain ⟨hnew, hrest⟩ := List.nodup_cons.1 nodup
    rw [List.map_cons, List.sum_cons]
    rcases List.mem_cons.1 hr with rfl | hmem
    · have hother : ∀ x ∈ rows, (!decide (key x = key r)) = true := by
        intro x hx
        have hne : ¬ key x = key r := by
          intro he
          exact hnew (he ▸ List.mem_map_of_mem hx)
        simp [hne]
      rw [List.filter_cons_of_neg (by simp), List.filter_eq_self.2 hother]
      omega
    · have hne : ¬ key a = key r := by
        intro he
        exact hnew (he ▸ List.mem_map_of_mem hmem)
      rw [List.filter_cons_of_pos (by simp [hne]), List.map_cons, List.sum_cons]
      have hih := ih hrest hmem
      omega

theorem total_delete_none (h : t.get k = none) : (t.delete fun x => decide (key x = k)).total f = t.total f := by
  have hall : t.rows.filter (fun x => !decide (key x = k)) = t.rows := by
    refine List.filter_eq_self.2 ?_
    intro x hx
    have hne : ¬ key x = k := by
      rintro rfl
      rw [get_of_mem hx] at h
      cases h
    simp [hne]
  exact congrArg (fun rows => (rows.map f).sum) hall

end Sql.Table
