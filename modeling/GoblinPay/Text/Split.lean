import Mathlib.Data.List.Basic
import Mathlib.Data.List.Induction
import Mathlib.Data.List.TakeWhile

/-!
# Splitting text
-/

namespace GoblinPay.Text

/-- `str::split_once` -/
def splitOnce (sep : Char) (cs : List Char) : Option (List Char × List Char) :=
  match cs.dropWhile (· ≠ sep) with
  | [] => none
  | _ :: rest => some (cs.takeWhile (· ≠ sep), rest)

theorem splitOnce_of_notMem {sep : Char} {cs : List Char} (h : sep ∉ cs) : splitOnce sep cs = none := by
  have all : ∀ c ∈ cs, decide (c ≠ sep) = true := fun c hc => decide_eq_true fun heq => h (heq ▸ hc)
  rw [splitOnce, List.dropWhile_eq_nil_iff.2 all]

theorem splitOnce_append {sep : Char} {cs : List Char} (h : sep ∉ cs) (rest : List Char) :
    splitOnce sep (cs ++ sep :: rest) = some (cs, rest) := by
  have all : ∀ c ∈ cs, decide (c ≠ sep) = true := fun c hc => decide_eq_true fun heq => h (heq ▸ hc)
  rw [splitOnce, List.dropWhile_append_of_pos all, List.takeWhile_append_of_pos all,
    List.dropWhile_cons_of_neg (by simp), List.takeWhile_cons_of_neg (by simp), List.append_nil]

/-- A carriage return in front of a line feed belongs to the line ending. -/
def stripCr (line : List Char) : List Char := if line.getLast? = some '\r' then line.dropLast else line

theorem stripCr_append {c : Char} (h : c ≠ '\r') (front back : List Char) :
    stripCr (front ++ c :: back) = front ++ c :: stripCr back := by
  have hne : front ++ c :: back ≠ [] := List.append_ne_nil_of_right_ne_nil _ (List.cons_ne_nil _ _)
  unfold stripCr
  rw [List.getLast?_append_of_ne_nil _ (List.cons_ne_nil c back)]
  cases back with
  | nil => rw [List.getLast?_singleton, if_neg (by simpa using h), if_neg (by simp)]
  | cons b bs =>
    rw [List.getLast?_cons_cons]
    split
    · rw [List.dropLast_append_of_ne_nil (List.cons_ne_nil c _), List.dropLast_cons_of_ne_nil (List.cons_ne_nil b bs)]
    · rfl

/-- Nothing but a carriage return at the end is left out. -/
theorem stripCr_cases (line : List Char) : stripCr line = line ∨ line = stripCr line ++ ['\r'] := by
  induction line using List.reverseRecOn with
  | nil => exact Or.inl rfl
  | append_singleton line c _ =>
    by_cases hc : c = '\r'
    · right
      rw [stripCr, List.getLast?_concat, if_pos (by rw [hc]), List.dropLast_concat, hc]
    · left
      exact stripCr_append hc line []

/-- `str::lines` -/
def lines (cs : List Char) : List (List Char) :=
  let pieces := cs.splitOn '\n'
  pieces.dropLast.map stripCr ++ pieces.getLast?.toList.filter (· ≠ [])

theorem lines_cons {line : List Char} (h : '\n' ∉ line) (rest : List Char) :
    lines (line ++ '\n' :: rest) = stripCr line :: lines rest := by
  have plain : ∀ c ∈ line, (c == '\n') = false := by
    intro c hc
    refine beq_false_of_ne ?_
    rintro rfl
    exact h hc
  have pieces : (line ++ '\n' :: rest).splitOn '\n' = line :: rest.splitOn '\n' :=
    List.splitOnP_append_cons_of_forall_mem plain '\n' rfl rest
  obtain ⟨piece, more, hmore⟩ := List.exists_cons_of_ne_nil (List.splitOn_ne_nil '\n' rest)
  rw [lines, lines, pieces, hmore]
  rfl

theorem lines_last {line : List Char} (h : '\n' ∉ line) (hne : line ≠ []) : lines line = [line] := by
  have plain : ∀ c ∈ line, (c == '\n') = false := by
    intro c hc
    refine beq_false_of_ne ?_
    rintro rfl
    exact h hc
  have pieces : line.splitOn '\n' = [line] := List.splitOnP_eq_singleton plain
  rw [lines, pieces, List.dropLast_singleton, List.getLast?_singleton]
  simp [hne]

end GoblinPay.Text
