import Mathlib.Data.List.DropRight
import Mathlib.Tactic.FieldSimp
import Mathlib.Tactic.NormNum

/-!
# Decimal text

What a text of decimal digits is worth, as a number and as the fraction behind a point; padding with zeros on
the left and trimming zeros on the right.
-/

namespace GoblinPay.Text

/-- `format!("{n:0width$}")` on the digits of a number. -/
def zeroPad (width : Nat) (cs : List Char) : List Char := List.replicate (width - cs.length) '0' ++ cs

/-- `trim_end_matches('0')` -/
def trimEndZeros (cs : List Char) : List Char := cs.rdropWhile fun c => c = '0'

/-- What digits are worth behind a decimal point. -/
def fraction (cs : List Char) : ℚ := Nat.ofDigitChars 10 cs 0 / 10 ^ cs.length

/-- The number a decimal text stands for. -/
def decimal (s : String) : ℚ :=
  Nat.ofDigitChars 10 (s.toList.takeWhile fun c => c ≠ '.') 0 + fraction (s.toList.dropWhile fun c => c ≠ '.').tail

/-- The digits before and behind the point of a decimal number in its shortest form, at most `places` of them behind. -/
structure Shortest (places : Nat) (whole : List Char) (point : Option (List Char)) : Prop where
  some : whole ≠ []
  digits : ∀ c ∈ whole, c.isDigit
  /-- no zero stands before another digit -/
  leading : 1 < whole.length → whole.head? ≠ Option.some '0'
  /-- a point is followed by digits, the last not a zero -/
  behind : ∀ frac ∈ point, frac ≠ [] ∧ frac.length ≤ places ∧ (∀ c ∈ frac, c.isDigit) ∧ frac.getLast? ≠ Option.some '0'

def Canonical (places : Nat) (s : String) : Prop :=
  ∃ whole point, Shortest places whole point ∧ s.toList = whole ++ point.elim [] ('.' :: ·)

theorem isDigit_toDigits {n : Nat} {c : Char} (h : c ∈ Nat.toDigits 10 n) : c.isDigit :=
  Nat.isDigit_of_mem_toDigits (by decide) (by decide) h

/-- A positive number has no leading zero. -/
theorem head_toDigits {n : Nat} (h : 0 < n) : (Nat.toDigits 10 n).head? ≠ some '0' := by
  induction n using Nat.strong_induction_on with
  | _ n ih =>
    rw [Nat.toDigits_eq_if (by decide)]
    split
    · intro hzero
      have : n.digitChar = '0' := Option.some.inj hzero
      rw [Nat.digitChar_eq_zero] at this
      omega
    · have some := ih (n / 10) (by omega) (by omega)
      rw [List.head?_append_of_ne_nil _ Nat.toDigits_ne_nil]
      exact some

/-- A number written out has no zero before another digit. -/
theorem leading_toDigits {n : Nat} (h : 1 < (Nat.toDigits 10 n).length) : (Nat.toDigits 10 n).head? ≠ some '0' := by
  refine head_toDigits (Nat.pos_of_ne_zero ?_)
  rintro rfl
  rw [Nat.toDigits_zero] at h
  exact absurd h (by decide)

/-! ## Padding -/

theorem isDigit_zeroPad {width : Nat} {cs : List Char} (h : ∀ c ∈ cs, c.isDigit) : ∀ c ∈ zeroPad width cs, c.isDigit := by
  intro c hc
  rcases List.mem_append.1 hc with hc | hc
  · rw [List.eq_of_mem_replicate hc]
    rfl
  · exact h c hc

theorem length_zeroPad {width : Nat} {cs : List Char} (h : cs.length ≤ width) : (zeroPad width cs).length = width := by
  rw [zeroPad, List.length_append, List.length_replicate]
  omega

/-- Padding does not change the number. -/
theorem ofDigitChars_zeroPad (width : Nat) (cs : List Char) :
    Nat.ofDigitChars 10 (zeroPad width cs) 0 = Nat.ofDigitChars 10 cs 0 := by
  rw [zeroPad, Nat.ofDigitChars_append, Nat.ofDigitChars_replicate_zero, Nat.mul_zero]

/-! ## Order -/

/-- Of texts of one length, the order is decided before what follows. -/
theorem append_lt_append {as bs : List Char} (hlen : as.length = bs.length) (h : as < bs) (xs ys : List Char) : as ++ xs < bs ++ ys := by
  induction as generalizing bs with
  | nil =>
    rw [List.eq_nil_of_length_eq_zero hlen.symm] at h
    exact absurd h (List.not_lt_nil _)
  | cons a as ih =>
    cases bs with
    | nil => cases hlen
    | cons b bs =>
      rcases List.cons_lt_cons_iff.1 h with hab | ⟨rfl, hlt⟩
      · exact List.cons_lt_cons_iff.2 (Or.inl hab)
      · exact List.cons_lt_cons_iff.2 (Or.inr ⟨rfl, ih (Nat.succ.inj hlen) hlt⟩)

theorem digit_bounds {c : Char} (h : c.isDigit) : 48 ≤ c.toNat ∧ c.toNat ≤ 57 := by
  simp only [Char.isDigit, Bool.and_eq_true, decide_eq_true_eq, ge_iff_le, UInt32.le_iff_toNat_le] at h
  exact h

theorem ofDigitChars_cons_eq (c : Char) (cs : List Char) :
    Nat.ofDigitChars 10 (c :: cs) 0 = 10 ^ cs.length * (c.toNat - 48) + Nat.ofDigitChars 10 cs 0 := by
  rw [Nat.ofDigitChars_cons, Nat.mul_zero, Nat.zero_add, Nat.ofDigitChars_eq_ofDigitChars_zero]
  rfl

theorem ofDigitChars_lt_pow {cs : List Char} (h : ∀ c ∈ cs, c.isDigit) : Nat.ofDigitChars 10 cs 0 < 10 ^ cs.length := by
  induction cs with
  | nil => exact Nat.one_pos
  | cons c cs ih =>
    have digit := digit_bounds (h c List.mem_cons_self)
    have rest := ih fun d hd => h d (List.mem_cons_of_mem c hd)
    rw [ofDigitChars_cons_eq, List.length_cons, pow_succ]
    have : 10 ^ cs.length * (c.toNat - 48) ≤ 10 ^ cs.length * 9 := Nat.mul_le_mul_left _ (by omega)
    omega

/-- Texts of equally many digits stand in the order of their numbers. -/
theorem lt_of_ofDigitChars_lt {as bs : List Char} (hlen : as.length = bs.length) (has : ∀ c ∈ as, c.isDigit)
    (hbs : ∀ c ∈ bs, c.isDigit) (h : Nat.ofDigitChars 10 as 0 < Nat.ofDigitChars 10 bs 0) : as < bs := by
  induction as generalizing bs with
  | nil =>
    rw [List.eq_nil_of_length_eq_zero hlen.symm] at h
    exact absurd h (Nat.lt_irrefl _)
  | cons a as ih =>
    cases bs with
    | nil => cases hlen
    | cons b bs =>
      have hlen : as.length = bs.length := Nat.succ.inj hlen
      have low := ofDigitChars_lt_pow fun d hd => hbs d (List.mem_cons_of_mem b hd)
      have ha := digit_bounds (has a List.mem_cons_self)
      have hb := digit_bounds (hbs b List.mem_cons_self)
      rw [ofDigitChars_cons_eq, ofDigitChars_cons_eq, hlen] at h
      rcases Nat.lt_trichotomy a.toNat b.toNat with hab | hab | hab
      · exact List.cons_lt_cons_iff.2 (Or.inl (UInt32.lt_iff_toNat_lt.2 hab))
      · rw [hab] at h
        have rest := ih hlen (fun d hd => has d (List.mem_cons_of_mem a hd)) (fun d hd => hbs d (List.mem_cons_of_mem b hd)) (by omega)
        exact List.cons_lt_cons_iff.2 (Or.inr ⟨Char.toNat_inj.1 hab, rest⟩)
      · have gap : 10 ^ bs.length * (b.toNat - 48) + 10 ^ bs.length ≤ 10 ^ bs.length * (a.toNat - 48) := by
          rw [← Nat.mul_succ]
          exact Nat.mul_le_mul_left _ (by omega)
        omega

/-! ## The fraction -/

theorem fraction_append_zero (cs : List Char) : fraction (cs ++ ['0']) = fraction cs := by
  have worth : Nat.ofDigitChars 10 (cs ++ ['0']) 0 = 10 * Nat.ofDigitChars 10 cs 0 := by
    rw [Nat.ofDigitChars_append, Nat.ofDigitChars_cons, Nat.ofDigitChars_nil]
    rfl
  rw [fraction, fraction, worth, List.length_append, List.length_singleton, pow_succ]
  push_cast
  field_simp

/-- The zeros at the end of a fraction count nothing. -/
theorem fraction_trimEndZeros (cs : List Char) : fraction (trimEndZeros cs) = fraction cs := by
  induction cs using List.reverseRecOn with
  | nil => rfl
  | append_singleton cs c ih =>
    by_cases hc : c = '0'
    · subst hc
      rw [trimEndZeros, List.rdropWhile_concat_pos _ _ _ (by simp)]
      exact ih.trans (fraction_append_zero cs).symm
    · rw [trimEndZeros, List.rdropWhile_concat_neg _ _ _ (by simpa using hc)]

/-- No zero is left at the end. -/
theorem getLast_trimEndZeros (cs : List Char) : (trimEndZeros cs).getLast? ≠ some '0' := by
  intro h
  have hne : trimEndZeros cs ≠ [] := by
    intro hnil
    rw [hnil] at h
    cases h
  have last := List.rdropWhile_last_not (fun c => decide (c = '0')) cs hne
  rw [List.getLast?_eq_some_getLast hne] at h
  have h := Option.some.inj h
  exact last (by simpa [trimEndZeros] using h)

theorem mem_trimEndZeros {cs : List Char} {c : Char} (h : c ∈ trimEndZeros cs) : c ∈ cs :=
  (List.rdropWhile_prefix _ cs).subset h

theorem length_trimEndZeros_le (cs : List Char) : (trimEndZeros cs).length ≤ cs.length :=
  (List.rdropWhile_prefix _ cs).length_le

theorem trimEndZeros_ne_nil {cs : List Char} (h : Nat.ofDigitChars 10 cs 0 ≠ 0) : trimEndZeros cs ≠ [] := by
  intro hnil
  have worth := fraction_trimEndZeros cs
  rw [hnil, fraction, fraction, Nat.ofDigitChars_nil] at worth
  have hpow : (10 : ℚ) ^ cs.length ≠ 0 := pow_ne_zero _ (by norm_num)
  rw [Nat.cast_zero, zero_div, eq_comm, div_eq_zero_iff, or_iff_left hpow] at worth
  exact h (Nat.cast_eq_zero.1 worth)

/-! ## Reading a decimal -/

/-- A text without a point is its digits' number. -/
theorem decimal_whole {whole : List Char} (h : ∀ c ∈ whole, c.isDigit) :
    decimal (String.ofList whole) = Nat.ofDigitChars 10 whole 0 := by
  have plain : ∀ c ∈ whole, decide (c ≠ '.') = true := by
    intro c hc
    have digit := h c hc
    rw [decide_eq_true_eq]
    rintro rfl
    cases digit
  rw [decimal, String.toList_ofList, List.takeWhile_eq_self_iff.2 plain, List.dropWhile_eq_nil_iff.2 plain]
  simp [fraction]

/-- A point adds the fraction behind it. -/
theorem decimal_point {whole frac : List Char} (h : ∀ c ∈ whole, c.isDigit) :
    decimal (String.ofList (whole ++ '.' :: frac)) = Nat.ofDigitChars 10 whole 0 + fraction frac := by
  have plain : ∀ c ∈ whole, decide (c ≠ '.') = true := by
    intro c hc
    have digit := h c hc
    rw [decide_eq_true_eq]
    rintro rfl
    cases digit
  rw [decimal, String.toList_ofList, List.takeWhile_append_of_pos plain, List.dropWhile_append_of_pos plain]
  simp

end GoblinPay.Text
