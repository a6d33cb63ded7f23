import Mathlib.Algebra.Order.Ring.Int
import Mathlib.Data.List.Basic
import Mathlib.Data.List.Chain
import Mathlib.Data.List.Induction
import Mathlib.Data.List.TakeWhile

/-!
# Text

Rust's string operations on lists of characters, as far as the server uses them.
-/

namespace GoblinPay.Text

/-- `char::is_whitespace`: the Unicode White_Space characters. -/
def isWhitespace (c : Char) : Bool :=
  let n := c.toNat
  (9 ≤ n && n ≤ 13) || n = 32 || n = 0x85 || n = 0xA0 || n = 0x1680 || (0x2000 ≤ n && n ≤ 0x200A) ||
    n = 0x2028 || n = 0x2029 || n = 0x202F || n = 0x205F || n = 0x3000

/-- `char::is_control`. -/
def isControl (c : Char) : Bool := c.toNat < 32 || (127 ≤ c.toNat && c.toNat ≤ 159)

def trimChars (cs : List Char) : List Char :=
  ((cs.dropWhile isWhitespace).reverse.dropWhile isWhitespace).reverse

/-- `str::trim`. -/
def trim (s : String) : String := String.ofList (trimChars s.toList)

/-- `str::len`: the length in bytes. -/
def bytes (cs : List Char) : Nat := (cs.map Char.utf8Size).sum

/-- `str::find`, as the rest of the text from the first occurrence on. -/
def find (pat : List Char) : List Char → Option (List Char)
  | [] => if pat = [] then some [] else none
  | c :: cs => if pat.isPrefixOf (c :: cs) then some (c :: cs) else find pat cs

/-- `str::contains`. -/
def contains (s pat : String) : Bool := (find pat.toList s.toList).isSome

/-- `str::split_whitespace` followed by `join(" ")`. -/
def collapse (cs : List Char) : List Char :=
  let words := (cs.splitOnP isWhitespace).filter fun w => !w.isEmpty
  [' '].intercalate words

theorem find_eq_append {pat s r : List Char} (h : find pat s = some r) : ∃ p, s = p ++ r := by
  induction s with
  | nil =>
    unfold find at h
    split at h
    · cases h
      exact ⟨[], rfl⟩
    · cases h
  | cons c cs ih =>
    unfold find at h
    split at h
    · cases h
      exact ⟨[], rfl⟩
    · obtain ⟨p, hp⟩ := ih h
      exact ⟨c :: p, by rw [hp, List.cons_append]⟩

theorem find_prefix {pat s r : List Char} (h : find pat s = some r) : pat <+: r := by
  induction s with
  | nil =>
    unfold find at h
    split at h
    · rename_i hpat
      rw [hpat]
      exact List.nil_prefix
    · cases h
  | cons c cs ih =>
    unfold find at h
    split at h
    · rename_i hpat
      cases h
      exact List.isPrefixOf_iff_prefix.1 hpat
    · exact ih h

theorem find_length_le {pat s r : List Char} (h : find pat s = some r) : r.length ≤ s.length := by
  obtain ⟨p, rfl⟩ := find_eq_append h
  simp

/-- A word: text without whitespace. -/
structure Word (w : List Char) : Prop where
  nonempty : w ≠ []
  solid : ∀ c ∈ w, isWhitespace c = false

theorem mem_splitOnP {p : Char → Bool} {cs w : List Char} (hw : w ∈ cs.splitOnP p) : ∀ c ∈ w, c ∈ cs ∧ p c = false := by
  induction cs generalizing w with
  | nil =>
    rw [List.splitOnP_nil] at hw
    obtain rfl := List.mem_singleton.1 hw
    simp
  | cons a cs ih =>
    have inner : ∀ v ∈ cs.splitOnP p, ∀ c ∈ v, c ∈ a :: cs ∧ p c = false := fun v hv c hc =>
      (ih hv c hc).imp_left (List.mem_cons_of_mem a)
    rw [List.splitOnP_cons_eq_if_modifyHead] at hw
    split at hw
    · rcases List.mem_cons.1 hw with rfl | hw
      · simp
      · exact inner w hw
    · rename_i ha
      obtain ⟨v, vs, hvs⟩ := List.exists_cons_of_ne_nil (List.splitOnP_ne_nil p cs)
      rw [hvs] at inner hw
      rcases List.mem_cons.1 hw with rfl | hw
      · intro c hc
        rcases List.mem_cons.1 hc with rfl | hc
        · exact ⟨List.mem_cons_self, by simpa using ha⟩
        · exact inner v List.mem_cons_self c hc
      · exact inner w (List.mem_cons_of_mem v hw)

theorem splitOnP_intercalate {words : List (List Char)} (hne : words ≠ [])
    (h : ∀ w ∈ words, ∀ c ∈ w, isWhitespace c = false) : ([' '].intercalate words).splitOnP isWhitespace = words := by
  induction words with
  | nil => exact absurd rfl hne
  | cons w words ih =>
    have hw := h w List.mem_cons_self
    cases words with
    | nil =>
      rw [List.intercalate_singleton]
      exact List.splitOnP_eq_singleton hw
    | cons v vs =>
      rw [List.intercalate_cons_cons, List.append_assoc, List.singleton_append,
        List.splitOnP_append_cons_of_forall_mem hw ' ' rfl]
      rw [ih (List.cons_ne_nil v vs) fun w' hw' => h w' (List.mem_cons_of_mem w hw')]

theorem intercalate_ne_nil {words : List (List Char)} (hne : words ≠ []) (h : ∀ w ∈ words, Word w) :
    [' '].intercalate words ≠ [] := by
  obtain ⟨w, words, rfl⟩ := List.exists_cons_of_ne_nil hne
  obtain ⟨a, as, rfl⟩ := List.exists_cons_of_ne_nil (h w List.mem_cons_self).nonempty
  cases words with
  | nil =>
    rw [List.intercalate_singleton]
    exact List.cons_ne_nil a as
  | cons v vs =>
    rw [List.intercalate_cons_cons]
    exact List.cons_ne_nil a _

theorem mem_intercalate {words : List (List Char)} {c : Char} (hc : c ∈ [' '].intercalate words) :
    c = ' ' ∨ ∃ w ∈ words, c ∈ w := by
  induction words with
  | nil => cases hc
  | cons w words ih =>
    cases words with
    | nil =>
      rw [List.intercalate_singleton] at hc
      exact Or.inr ⟨w, List.mem_cons_self, hc⟩
    | cons v vs =>
      rw [List.intercalate_cons_cons, List.append_assoc] at hc
      rcases List.mem_append.1 hc with hc | hc
      · exact Or.inr ⟨w, List.mem_cons_self, hc⟩
      rcases List.mem_cons.1 hc with hc | hc
      · exact Or.inl hc
      · refine (ih hc).imp_right ?_
        rintro ⟨u, hu, hcu⟩
        exact ⟨u, List.mem_cons_of_mem w hu, hcu⟩

/-- Words joined by single spaces are left as they are. -/
theorem collapse_words {words : List (List Char)} (h : ∀ w ∈ words, Word w) :
    collapse ([' '].intercalate words) = [' '].intercalate words := by
  cases words with
  | nil => rfl
  | cons w words =>
    rw [collapse, splitOnP_intercalate (List.cons_ne_nil w words) fun v hv => (h v hv).solid]
    have kept : (w :: words).filter (fun v => !v.isEmpty) = w :: words :=
      List.filter_eq_self.2 fun v hv => by simpa using (h v hv).nonempty
    rw [kept]

/-- Collapsed text is words of the text, joined by single spaces. -/
theorem collapse_eq (cs : List Char) : ∃ words, (∀ w ∈ words, Word w ∧ w ⊆ cs) ∧ collapse cs = [' '].intercalate words := by
  refine ⟨_, fun w hw => ?_, rfl⟩
  obtain ⟨hw, hne⟩ := List.mem_filter.1 hw
  exact ⟨⟨by simpa using hne, fun c hc => (mem_splitOnP hw c hc).2⟩, fun c hc => (mem_splitOnP hw c hc).1⟩

theorem length_intercalate_splitOnP (p : Char → Bool) (cs : List Char) :
    ([' '].intercalate (cs.splitOnP p)).length = cs.length := by
  induction cs with
  | nil => rfl
  | cons a cs ih =>
    obtain ⟨v, vs, hvs⟩ := List.exists_cons_of_ne_nil (List.splitOnP_ne_nil p cs)
    rw [hvs] at ih
    rw [List.splitOnP_cons_eq_if_modifyHead, hvs]
    split
    · rw [List.intercalate_cons_cons]
      simp [ih]
    · cases vs with
      | nil =>
        rw [List.intercalate_singleton] at ih
        simp [ih]
      | cons u us =>
        rw [List.intercalate_cons_cons] at ih
        rw [List.modifyHead_cons, List.intercalate_cons_cons]
        simp at ih ⊢
        omega

theorem length_intercalate_filter (q : List Char → Bool) (pieces : List (List Char)) :
    ([' '].intercalate (pieces.filter q)).length ≤ ([' '].intercalate pieces).length := by
  induction pieces with
  | nil => exact Nat.le_refl _
  | cons v vs ih =>
    cases vs with
    | nil =>
      rw [List.filter_cons]
      split
      · exact Nat.le_refl _
      · exact Nat.zero_le _
    | cons u us =>
      have whole : ([' '].intercalate (v :: u :: us)).length = v.length + 1 + ([' '].intercalate (u :: us)).length := by
        rw [List.intercalate_cons_cons]
        simp only [List.length_append, List.length_singleton]
      rw [whole, List.filter_cons]
      split
      · cases hrest : (u :: us).filter q with
        | nil =>
          rw [List.intercalate_singleton]
          omega
        | cons x xs =>
          rw [hrest] at ih
          rw [List.intercalate_cons_cons, List.length_append, List.length_append, List.length_singleton]
          omega
      · omega

/-- Collapsing never makes a text longer. -/
theorem length_collapse_le (cs : List Char) : (collapse cs).length ≤ cs.length :=
  Nat.le_trans (length_intercalate_filter _ _) (Nat.le_of_eq (length_intercalate_splitOnP isWhitespace cs))

theorem trimChars_eq_self {cs : List Char} (hhead : ∀ c ∈ cs.head?, isWhitespace c = false)
    (hlast : ∀ c ∈ cs.getLast?, isWhitespace c = false) : trimChars cs = cs := by
  have stays : ∀ ds : List Char, (∀ c ∈ ds.head?, isWhitespace c = false) → ds.dropWhile isWhitespace = ds := by
    intro ds h
    cases ds with
    | nil => rfl
    | cons d ds => exact List.dropWhile_cons_of_neg (by simp [h d rfl])
  have last : ∀ c ∈ cs.reverse.head?, isWhitespace c = false := by
    rw [List.head?_reverse]
    exact hlast
  rw [trimChars, stays cs hhead, stays cs.reverse last, List.reverse_reverse]

/-- Whitespace at the end makes no difference to what is trimmed. -/
theorem trimChars_concat {cs : List Char} {c : Char} (h : isWhitespace c) : trimChars (cs ++ [c]) = trimChars cs := by
  unfold trimChars
  by_cases hall : ∀ d ∈ cs, isWhitespace d
  · have blank : ∀ d ∈ cs ++ [c], isWhitespace d := by
      intro d hd
      rcases List.mem_append.1 hd with hd | hd
      · exact hall d hd
      · rw [List.mem_singleton.1 hd]
        exact h
    rw [List.dropWhile_eq_nil_iff.2 blank, List.dropWhile_eq_nil_iff.2 hall]
  · have some : cs.dropWhile isWhitespace ≠ [] := fun hnil => hall (List.dropWhile_eq_nil_iff.1 hnil)
    have front : (cs ++ [c]).dropWhile isWhitespace = cs.dropWhile isWhitespace ++ [c] := by
      rw [List.dropWhile_append, if_neg (by simpa using some)]
    rw [front, List.reverse_append, List.reverse_singleton, List.singleton_append, List.dropWhile_cons_of_pos h]

/-- `trim_end` -/
def trimEnd (cs : List Char) : List Char := (cs.reverse.dropWhile isWhitespace).reverse

theorem trimChars_trimEnd (cs : List Char) : trimChars (trimEnd cs) = trimChars cs := by
  induction cs using List.reverseRecOn with
  | nil => rfl
  | append_singleton cs c ih =>
    unfold trimEnd at ih ⊢
    rw [List.reverse_append, List.reverse_singleton, List.singleton_append]
    by_cases h : isWhitespace c
    · rw [List.dropWhile_cons_of_pos h, ih, trimChars_concat h]
    · rw [List.dropWhile_cons_of_neg h, List.reverse_cons, List.reverse_reverse]

/-- A text that begins and goes on up to a point without whitespace is trimmed behind that point only. -/
theorem trimChars_solid {w cs : List Char} (h : Word w) : trimChars (w ++ cs) = w ++ trimEnd cs := by
  have hne : w.reverse ≠ [] := by simpa using h.nonempty
  obtain ⟨a, as, hrev⟩ := List.exists_cons_of_ne_nil hne
  obtain ⟨b, bs, hw⟩ := List.exists_cons_of_ne_nil h.nonempty
  have first : isWhitespace b = false := h.solid b (by rw [hw]; exact List.mem_cons_self)
  have last : isWhitespace a = false := h.solid a (by rw [← List.mem_reverse, hrev]; exact List.mem_cons_self)
  have front : (w ++ cs).dropWhile isWhitespace = w ++ cs := by
    rw [hw, List.cons_append, List.dropWhile_cons_of_neg (by simp [first])]
  have back : (w.reverse).dropWhile isWhitespace = w.reverse := by
    rw [hrev, List.dropWhile_cons_of_neg (by simp [last])]
  unfold trimChars trimEnd
  rw [front, List.reverse_append, List.dropWhile_append]
  split
  · rename_i hnil
    rw [back, List.isEmpty_iff.1 hnil, List.reverse_reverse, List.reverse_nil, List.append_nil]
  · rw [List.reverse_append, List.reverse_reverse]

theorem head_words {words : List (List Char)} (h : ∀ w ∈ words, Word w) :
    ∀ c ∈ ([' '].intercalate words).head?, isWhitespace c = false := by
  intro c hc
  cases words with
  | nil => cases hc
  | cons w words =>
    obtain ⟨a, as, rfl⟩ := List.exists_cons_of_ne_nil (h w List.mem_cons_self).nonempty
    have first : ([' '].intercalate ((a :: as) :: words)).head? = some a := by
      cases words with
      | nil => rfl
      | cons v vs =>
        rw [List.intercalate_cons_cons]
        rfl
    obtain rfl : a = c := Option.some.inj (first.symm.trans hc)
    exact (h _ List.mem_cons_self).solid a List.mem_cons_self

theorem last_words {words : List (List Char)} (h : ∀ w ∈ words, Word w) :
    ∀ c ∈ ([' '].intercalate words).getLast?, isWhitespace c = false := by
  induction words with
  | nil => exact nofun
  | cons w words ih =>
    cases words with
    | nil =>
      intro c hc
      rw [List.intercalate_singleton] at hc
      exact (h w List.mem_cons_self).solid c (List.mem_of_getLast? hc)
    | cons v vs =>
      intro c hc
      refine ih (fun w' hw' => h w' (List.mem_cons_of_mem w hw')) c ?_
      have hne : [' '].intercalate (v :: vs) ≠ [] :=
        intercalate_ne_nil (List.cons_ne_nil v vs) fun w' hw' => h w' (List.mem_cons_of_mem w hw')
      rw [List.intercalate_cons_cons, List.getLast?_append_of_ne_nil _ hne] at hc
      exact hc

/-- Words joined by single spaces have nothing to trim. -/
theorem trimChars_words {words : List (List Char)} (h : ∀ w ∈ words, Word w) :
    trimChars ([' '].intercalate words) = [' '].intercalate words :=
  trimChars_eq_self (head_words h) (last_words h)

theorem chain_solid {w : List Char} (h : ∀ c ∈ w, isWhitespace c = false) :
    w.IsChain fun a b => ¬ (isWhitespace a ∧ isWhitespace b) := by
  induction w with
  | nil => exact .nil
  | cons a w ih =>
    refine List.isChain_cons.2 ⟨fun b _ => ?_, ih fun c hc => h c (List.mem_cons_of_mem a hc)⟩
    rw [h a List.mem_cons_self]
    simp

/-- The spaces between words stand alone. -/
theorem chain_words {words : List (List Char)} (h : ∀ w ∈ words, Word w) :
    ([' '].intercalate words).IsChain fun a b => ¬ (isWhitespace a ∧ isWhitespace b) := by
  induction words with
  | nil => exact .nil
  | cons w words ih =>
    have solid := (h w List.mem_cons_self).solid
    cases words with
    | nil =>
      rw [List.intercalate_singleton]
      exact chain_solid solid
    | cons v vs =>
      have rest : ∀ u ∈ v :: vs, Word u := fun u hu => h u (List.mem_cons_of_mem w hu)
      rw [List.intercalate_cons_cons, List.append_assoc, List.singleton_append]
      refine List.isChain_append.2 ⟨chain_solid solid, List.isChain_cons.2 ⟨?_, ih rest⟩, ?_⟩
      · intro b hb
        simp [head_words rest b hb]
      · intro a ha b _
        simp [solid a (List.mem_of_getLast? ha)]

/-- Cut anywhere but behind a space, words joined by single spaces are such words again. -/
theorem take_words {words : List (List Char)} (h : ∀ w ∈ words, Word w) (n : Nat)
    (hlast : ∀ c ∈ (([' '].intercalate words).take n).getLast?, isWhitespace c = false) :
    ∃ words', (∀ w' ∈ words', Word w' ∧ ∃ w ∈ words, w' ⊆ w) ∧ ([' '].intercalate words).take n = [' '].intercalate words' := by
  induction words generalizing n with
  | nil => exact ⟨[], by simp, by simp⟩
  | cons w words ih =>
    have solid := (h w List.mem_cons_self).solid
    -- the cut falls in the first word
    have inside : ∃ words', (∀ w' ∈ words', Word w' ∧ ∃ u ∈ w :: words, w' ⊆ u) ∧ w.take n = [' '].intercalate words' := by
      by_cases hnil : w.take n = []
      · exact ⟨[], by simp, hnil⟩
      · refine ⟨[w.take n], fun w' hw' => ?_, (List.intercalate_singleton ..).symm⟩
        obtain rfl := List.mem_singleton.1 hw'
        exact ⟨⟨hnil, fun c hc => solid c (List.mem_of_mem_take hc)⟩, w, List.mem_cons_self, fun c => List.mem_of_mem_take⟩
    cases words with
    | nil =>
      rw [List.intercalate_singleton]
      exact inside
    | cons v vs =>
      have rest : ∀ u ∈ v :: vs, Word u := fun u hu => h u (List.mem_cons_of_mem w hu)
      rw [List.intercalate_cons_cons, List.append_assoc, List.singleton_append] at hlast ⊢
      rcases Nat.lt_trichotomy n (w.length + 1) with hn | hn | hn
      · rw [List.take_append_of_le_length (by omega)]
        exact inside
      · -- the cut falls behind the space
        rw [hn, List.take_length_add_append] at hlast
        simp [isWhitespace] at hlast
      · obtain ⟨k, rfl⟩ := Nat.exists_eq_add_of_lt hn
        have cut : (w ++ ' ' :: [' '].intercalate (v :: vs)).take (w.length + 1 + k + 1) =
            w ++ ' ' :: ([' '].intercalate (v :: vs)).take (k + 1) := by
          rw [show w.length + 1 + k + 1 = w.length + (k + 1 + 1) from by omega, List.take_length_add_append, List.take_succ_cons]
        have some : ([' '].intercalate (v :: vs)).take (k + 1) ≠ [] := by
          simpa using intercalate_ne_nil (List.cons_ne_nil v vs) rest
        rw [cut] at hlast ⊢
        rw [List.getLast?_append_of_ne_nil _ (List.cons_ne_nil _ _), List.getLast?_cons_of_ne_nil some] at hlast
        obtain ⟨words', hwords', heq⟩ := ih rest (k + 1) hlast
        have hne : words' ≠ [] := by
          rintro rfl
          exact some heq
        obtain ⟨u, us, rfl⟩ := List.exists_cons_of_ne_nil hne
        refine ⟨w :: u :: us, fun w' hw' => ?_, ?_⟩
        · rcases List.mem_cons.1 hw' with rfl | hw'
          · exact ⟨h w' List.mem_cons_self, w', List.mem_cons_self, fun c => id⟩
          · obtain ⟨hword, x, hx, hsub⟩ := hwords' w' hw'
            exact ⟨hword, x, List.mem_cons_of_mem w hx, hsub⟩
        · rw [heq, List.intercalate_cons_cons, List.append_assoc, List.singleton_append]

end GoblinPay.Text
