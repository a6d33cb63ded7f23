import GoblinPay.Text.Base64
import GoblinPay.Text.Hex

/-!
# Identifiers

`gp-core/src/ids.rs`: identifiers and tokens as functions of the random bytes they are made of.
-/

namespace GoblinPay.Ids

open Text

/-- `random_id` on the bytes drawn. -/
def randomId (bytes : Vector UInt8 16) : String := Hex.encodeHex bytes.toList

/-- `ALPHABET` -/
def alphabet : List Char := "ABCDEFGHIJKLMNOPQRSTUVWXYZabcdefghijklmnopqrstuvwxyz0123456789-_".toList

/-- `ALPHABET[i]`: every index is masked to six bits. -/
def alphabetAt (i : Nat) : Char := alphabet.getD i 'A'

/-- `<[_]>::chunks(3)` -/
def chunks : List UInt8 → List (List UInt8)
  | b0 :: b1 :: b2 :: rest => [b0, b1, b2] :: chunks rest
  | [] => []
  | last => [last]

/-- What one chunk adds to the output. -/
def pushChunk (chunk : List UInt8) : List Char :=
  let b0 := (chunk.getD 0 0).toNat
  let b1 := (chunk.getD 1 0).toNat
  let b2 := (chunk.getD 2 0).toNat
  let n := (b0 <<< 16) ||| (b1 <<< 8) ||| b2
  [alphabetAt (n >>> 18 &&& 0x3f), alphabetAt (n >>> 12 &&& 0x3f)] ++
    (if 1 < chunk.length then [alphabetAt (n >>> 6 &&& 0x3f)] else []) ++
    if 2 < chunk.length then [alphabetAt (n &&& 0x3f)] else []

def base64UrlNopad (input : List UInt8) : String := String.ofList ((chunks input).flatMap pushChunk)

/-- `checkout_token` on the bytes drawn. -/
def checkoutToken (bytes : Vector UInt8 32) : String := base64UrlNopad bytes.toList

example : base64UrlNopad [0x66, 0x6f, 0x6f, 0x62] = "Zm9vYg" := by decide

/-- The 24 bits of a chunk. -/
theorem word_eq (b0 : Nat) {b1 b2 : Nat} (h1 : b1 < 256) (h2 : b2 < 256) :
    (b0 <<< 16) ||| (b1 <<< 8) ||| b2 = b0 * 65536 + b1 * 256 + b2 := by
  have low : b1 <<< 8 ||| b2 = b1 * 256 + b2 := by
    rw [← Nat.shiftLeft_add_eq_or_of_lt (show b2 < 2 ^ 8 from h2), Nat.shiftLeft_eq]
  have bound : b1 * 256 + b2 < 2 ^ 16 := by omega
  rw [Nat.or_assoc, low, ← Nat.shiftLeft_add_eq_or_of_lt bound, Nat.shiftLeft_eq, Nat.add_assoc]

theorem masked (n k : Nat) : n >>> k &&& 0x3f = n / 2 ^ k % 64 := by
  rw [Nat.shiftRight_eq_div_pow]
  exact Nat.and_two_pow_sub_one_eq_mod _ 6

/-- The four groups of six bits of a chunk. -/
theorem word_groups {b0 b1 b2 : Nat} (h0 : b0 < 256) (h1 : b1 < 256) (h2 : b2 < 256) :
    ((b0 <<< 16) ||| (b1 <<< 8) ||| b2) >>> 18 &&& 0x3f = b0 / 4 ∧
    ((b0 <<< 16) ||| (b1 <<< 8) ||| b2) >>> 12 &&& 0x3f = b0 % 4 * 16 + b1 / 16 ∧
    ((b0 <<< 16) ||| (b1 <<< 8) ||| b2) >>> 6 &&& 0x3f = b1 % 16 * 4 + b2 / 64 ∧
    ((b0 <<< 16) ||| (b1 <<< 8) ||| b2) &&& 0x3f = b2 % 64 := by
  have low : (b0 * 65536 + b1 * 256 + b2) &&& 0x3f = (b0 * 65536 + b1 * 256 + b2) % 64 := Nat.and_two_pow_sub_one_eq_mod _ 6
  rw [word_eq b0 h1 h2, masked, masked, masked, low]
  omega

section

open Base64

variable (b0 b1 b2 : UInt8)

theorem sextets_three (rest : List Bool) :
    sextets (bits 8 b0.toNat ++ (bits 8 b1.toNat ++ (bits 8 b2.toNat ++ rest))) =
      b0.toNat / 4 :: (b0.toNat % 4 * 16 + b1.toNat / 16) :: (b1.toNat % 16 * 4 + b2.toNat / 64) :: b2.toNat % 64 ::
        sextets rest := by
  have h0 : b0.toNat < 256 := b0.toNat_lt
  have h1 : b1.toNat < 256 := b1.toNat_lt
  have h2 : b2.toNat < 256 := b2.toNat_lt
  -- two groups straddle a byte boundary
  have upper := bits_join 2 (b0.toNat % 4) (show b1.toNat / 16 < 2 ^ 4 by omega)
  have lower := bits_join 4 (b1.toNat % 16) (show b2.toNat / 64 < 2 ^ 2 by omega)
  rw [show bits 8 b0.toNat = bits 6 (b0.toNat / 4) ++ bits 2 (b0.toNat % 4) from bits_add 6 2 _,
    show bits 8 b1.toNat = bits 4 (b1.toNat / 16) ++ bits 4 (b1.toNat % 16) from bits_add 4 4 _,
    show bits 8 b2.toNat = bits 2 (b2.toNat / 64) ++ bits 6 (b2.toNat % 64) from bits_add 2 6 _]
  simp only [List.append_assoc]
  rw [sextets_bits (by omega), ← List.append_assoc (bits 2 _), upper, sextets_bits (by omega),
    ← List.append_assoc (bits 4 _), lower, sextets_bits (by omega), sextets_bits (by omega)]
  rfl

theorem sextets_two : sextets (bits 8 b0.toNat ++ bits 8 b1.toNat) =
    [b0.toNat / 4, b0.toNat % 4 * 16 + b1.toNat / 16, b1.toNat % 16 * 4] := by
  have h0 : b0.toNat < 256 := b0.toNat_lt
  have h1 : b1.toNat < 256 := b1.toNat_lt
  have upper := bits_join 2 (b0.toNat % 4) (show b1.toNat / 16 < 2 ^ 4 by omega)
  rw [show bits 8 b0.toNat = bits 6 (b0.toNat / 4) ++ bits 2 (b0.toNat % 4) from bits_add 6 2 _,
    show bits 8 b1.toNat = bits 4 (b1.toNat / 16) ++ bits 4 (b1.toNat % 16) from bits_add 4 4 _, List.append_assoc,
    sextets_bits (by omega), ← List.append_assoc, upper, sextets_bits (by omega),
    sextets_bits_part (by decide) (by decide) (by omega)]
  rfl

theorem sextets_one : sextets (bits 8 b0.toNat) = [b0.toNat / 4, b0.toNat % 4 * 16] := by
  have h0 : b0.toNat < 256 := b0.toNat_lt
  rw [show bits 8 b0.toNat = bits 6 (b0.toNat / 4) ++ bits 2 (b0.toNat % 4) from bits_add 6 2 _, sextets_bits (by omega),
    sextets_bits_part (by decide) (by decide) (by omega)]
  rfl

theorem pushChunk_three : pushChunk [b0, b1, b2] =
    [b0.toNat / 4, b0.toNat % 4 * 16 + b1.toNat / 16, b1.toNat % 16 * 4 + b2.toNat / 64, b2.toNat % 64].map char := by
  obtain ⟨g0, g1, g2, g3⟩ := word_groups b0.toNat_lt b1.toNat_lt b2.toNat_lt
  rw [← g0, ← g1, ← g2, ← g3]
  rfl

theorem pushChunk_two : pushChunk [b0, b1] =
    [b0.toNat / 4, b0.toNat % 4 * 16 + b1.toNat / 16, b1.toNat % 16 * 4].map char := by
  obtain ⟨g0, g1, g2, -⟩ := word_groups b0.toNat_lt b1.toNat_lt (show 0 < 256 by decide)
  rw [Nat.zero_div, Nat.add_zero] at g2
  rw [← g0, ← g1, ← g2]
  rfl

theorem pushChunk_one : pushChunk [b0] = [b0.toNat / 4, b0.toNat % 4 * 16].map char := by
  obtain ⟨g0, g1, -, -⟩ := word_groups b0.toNat_lt (show 0 < 256 by decide) (show 0 < 256 by decide)
  rw [Nat.zero_div, Nat.add_zero] at g1
  rw [← g0, ← g1]
  rfl

end

/-- The chunk loop encodes as the standard says. -/
theorem flatMap_chunks : ∀ input : List UInt8, (chunks input).flatMap pushChunk = Base64.encode input
  | [] => rfl
  | [b0] => by
    have groups : Base64.encode [b0] = (Base64.sextets (Base64.bits 8 b0.toNat)).map Base64.char := rfl
    rw [groups, sextets_one, ← pushChunk_one]
    exact List.flatMap_singleton _ _
  | [b0, b1] => by
    have groups : Base64.encode [b0, b1] =
        (Base64.sextets (Base64.bits 8 b0.toNat ++ Base64.bits 8 b1.toNat)).map Base64.char := rfl
    rw [groups, sextets_two, ← pushChunk_two]
    exact List.flatMap_singleton _ _
  | b0 :: b1 :: b2 :: rest => by
    rw [chunks, List.flatMap_cons, flatMap_chunks rest, pushChunk_three, Base64.encode, Base64.encode, List.flatMap_cons,
      List.flatMap_cons, List.flatMap_cons, sextets_three]
    rfl

theorem toList_base64UrlNopad (input : List UInt8) : (base64UrlNopad input).toList = Base64.encode input := by
  rw [base64UrlNopad, String.toList_ofList, flatMap_chunks]

theorem base64UrlNopad_injective {input other : List UInt8} (h : base64UrlNopad input = base64UrlNopad other) :
    input = other := by
  have text : Base64.encode input = Base64.encode other := by
    rw [← toList_base64UrlNopad, h, toList_base64UrlNopad]
  have decoded := congrArg Base64.decode text
  rw [Base64.decode_encode, Base64.decode_encode] at decoded
  exact Option.some.inj decoded

/-- The encoder is the URL-safe encoding without padding, it can be undone, and no two tokens of 256 bits are alike. -/
theorem base64UrlNopad_exact (input : List UInt8) :
    (base64UrlNopad input).toList = Base64.encode input ∧ (base64UrlNopad input).toList.length = (4 * input.length + 2) / 3 ∧
      (∀ c ∈ (base64UrlNopad input).toList, c.isAlphanum ∨ c = '-' ∨ c = '_') ∧
      Base64.decode (base64UrlNopad input).toList = some input ∧
      (∀ other, base64UrlNopad other = base64UrlNopad input → other = input) ∧
      ∀ drawn other : Vector UInt8 32, checkoutToken drawn = checkoutToken other → drawn = other := by
  have text := toList_base64UrlNopad input
  refine ⟨text, ?_, ?_, ?_, fun other => base64UrlNopad_injective, fun drawn other same => ?_⟩
  · rw [text]
    exact Base64.length_encode input
  · rw [text]
    exact Base64.plain_encode input
  · rw [text]
    exact Base64.decode_encode input
  · exact Vector.toList_inj.1 (base64UrlNopad_injective same)

end GoblinPay.Ids
