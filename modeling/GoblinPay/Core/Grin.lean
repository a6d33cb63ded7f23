import GoblinPay.Core.Webhook
import GoblinPay.Text.Decimal

/-!
# Amounts as text

`gp-core/src/webhook.rs`: the Grin amount a payer is shown stands for exactly the expected nanogrin.
-/

namespace GoblinPay

open Text

theorem toString_eq (n : UInt64) : toString n = String.ofList (Nat.toDigits 10 n.toNat) := Nat.toString_eq_ofList_toDigits

/-- The digits behind the point. -/
def grinFraction (nano : UInt64) : List Char := trimEndZeros (zeroPad 9 (Nat.toDigits 10 (nano.toNat % 1000000000)))

theorem nanogrinToGrin_whole {nano : UInt64} (h : nano.toNat % 1000000000 = 0) :
    nanogrinToGrin nano = String.ofList (Nat.toDigits 10 (nano.toNat / 1000000000)) := by
  have hfrac : nano % 1000000000 = 0 := UInt64.toNat_inj.1 h
  rw [nanogrinToGrin, if_pos hfrac, toString_eq]
  rfl

theorem nanogrinToGrin_point {nano : UInt64} (h : nano.toNat % 1000000000 ≠ 0) :
    nanogrinToGrin nano = String.ofList (Nat.toDigits 10 (nano.toNat / 1000000000) ++ '.' :: grinFraction nano) := by
  have hfrac : nano % 1000000000 ≠ 0 := by
    intro hzero
    exact h (congrArg UInt64.toNat hzero)
  rw [nanogrinToGrin, if_neg hfrac, toString_eq, toString_eq, String.toList_ofList, List.append_cons, String.ofList_append,
    String.ofList_append]
  rfl

section

variable (nano : UInt64)

theorem ofDigitChars_padded :
    Nat.ofDigitChars 10 (zeroPad 9 (Nat.toDigits 10 (nano.toNat % 1000000000))) 0 = nano.toNat % 1000000000 := by
  rw [ofDigitChars_zeroPad, Nat.ofDigitChars_ten_toDigits]

theorem length_padded : (zeroPad 9 (Nat.toDigits 10 (nano.toNat % 1000000000))).length = 9 := by
  refine length_zeroPad ((Nat.length_toDigits_le_iff (by decide) (by decide)).2 ?_)
  exact Nat.mod_lt _ (by decide)

theorem fraction_grinFraction : fraction (grinFraction nano) = (nano.toNat % 1000000000 : ℕ) / 10 ^ 9 := by
  rw [grinFraction, fraction_trimEndZeros, fraction, ofDigitChars_padded, length_padded]

/-- The amount a payer is shown is the amount that is asked for. -/
theorem decimal_nanogrinToGrin : decimal (nanogrinToGrin nano) * 10 ^ 9 = nano.toNat := by
  have split : (nano.toNat : ℚ) = (nano.toNat / 1000000000 : ℕ) * 10 ^ 9 + (nano.toNat % 1000000000 : ℕ) := by
    have hsplit := Nat.div_add_mod' nano.toNat 1000000000
    calc (nano.toNat : ℚ) = ((nano.toNat / 1000000000 * 1000000000 + nano.toNat % 1000000000 : ℕ) : ℚ) := by rw [hsplit]
      _ = _ := by push_cast; norm_num
  have digits : ∀ c ∈ Nat.toDigits 10 (nano.toNat / 1000000000), c.isDigit := fun c => isDigit_toDigits
  by_cases h : nano.toNat % 1000000000 = 0
  · rw [nanogrinToGrin_whole h, decimal_whole digits, Nat.ofDigitChars_ten_toDigits, split, h, Nat.cast_zero, add_zero]
  · rw [nanogrinToGrin_point h, decimal_point digits, Nat.ofDigitChars_ten_toDigits, fraction_grinFraction, split, add_mul]
    norm_num

theorem canonical_nanogrinToGrin : Canonical 9 (nanogrinToGrin nano) := by
  have whole : Shortest 9 (Nat.toDigits 10 (nano.toNat / 1000000000)) none :=
    ⟨Nat.toDigits_ne_nil, fun c => isDigit_toDigits, leading_toDigits, nofun⟩
  by_cases h : nano.toNat % 1000000000 = 0
  · refine ⟨_, none, whole, ?_⟩
    rw [nanogrinToGrin_whole h, String.toList_ofList]
    exact (List.append_nil _).symm
  · refine ⟨_, some (grinFraction nano), ⟨whole.some, whole.digits, whole.leading, ?_⟩, ?_⟩
    · intro frac hfrac
      obtain rfl := Option.some.inj hfrac
      refine ⟨trimEndZeros_ne_nil ?_, ?_, ?_, getLast_trimEndZeros _⟩
      · rwa [ofDigitChars_padded]
      · exact (length_trimEndZeros_le _).trans (length_padded nano).le
      · intro c hc
        exact isDigit_zeroPad (fun d => isDigit_toDigits) c (mem_trimEndZeros hc)
    · rw [nanogrinToGrin_point h, String.toList_ofList]
      rfl

/-- The text of an amount is in its shortest form, stands for the amount, and for no other. -/
theorem nanogrinToGrin_exact : Canonical 9 (nanogrinToGrin nano) ∧ decimal (nanogrinToGrin nano) * 10 ^ 9 = nano.toNat ∧
    ∀ other, nanogrinToGrin other = nanogrinToGrin nano → other = nano := by
  refine ⟨canonical_nanogrinToGrin nano, decimal_nanogrinToGrin nano, fun other same => ?_⟩
  have worth := decimal_nanogrinToGrin other
  rw [same, decimal_nanogrinToGrin nano] at worth
  exact UInt64.toNat_inj.1 (Nat.cast_injective worth.symm)

end

end GoblinPay
