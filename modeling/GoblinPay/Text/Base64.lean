import Mathlib.Data.List.Basic
import Mathlib.Data.List.Induction
import Mathlib.Tactic.Ring

/-!
# Base64

The URL-safe encoding of RFC 4648 without padding: the bits of the bytes in groups of six, the last group filled
up with zeros, each group a character of the alphabet.
-/

namespace GoblinPay.Text.Base64

/-- The low `width` bits of a number, the highest first. -/
def bits : Nat → Nat → List Bool
  | 0, _ => []
  | width + 1, n => n.testBit width :: bits width n

/-- The number of some bits, the first being the highest. -/
def ofBits (bs : List Bool) : Nat := bs.foldl (fun n b => 2 * n + b.toNat) 0

/-- Groups of six bits, the last filled up with zeros. -/
def sextets : List Bool → List Nat
  | b5 :: b4 :: b3 :: b2 :: b1 :: b0 :: rest => ofBits [b5, b4, b3, b2, b1, b0] :: sextets rest
  | [] => []
  | part => [ofBits (part ++ List.replicate (6 - part.length) false)]

/-- Groups of eight bits, and what is left. -/
def octets : List Bool → List UInt8 × List Bool
  | b7 :: b6 :: b5 :: b4 :: b3 :: b2 :: b1 :: b0 :: rest =>
    ((UInt8.ofNat (ofBits [b7, b6, b5, b4, b3, b2, b1, b0])) :: (octets rest).1, (octets rest).2)
  | left => ([], left)

/-- The URL-safe alphabet. -/
def alphabet : List Char := "ABCDEFGHIJKLMNOPQRSTUVWXYZabcdefghijklmnopqrstuvwxyz0123456789-_".toList

def char (sextet : Nat) : Char := alphabet.getD sextet 'A'

def sextet (c : Char) : Option Nat := if c ∈ alphabet then some (alphabet.idxOf c) else none

def encode (bytes : List UInt8) : List Char := (sextets (bytes.flatMap fun b => bits 8 b.toNat)).map char

/-- The bytes of a text; the bits that fill up the last group are zeros. -/
def decode (cs : List Char) : Option (List UInt8) := do
  let groups ← cs.mapM sextet
  let (bytes, left) := octets (groups.flatMap (bits 6))
  if left.length < 6 ∧ left.all (! ·) then some bytes else none

/-! ## Bits -/

theorem length_bits (width n : Nat) : (bits width n).length = width := by
  induction width with
  | zero => rfl
  | succ width ih => rw [bits, List.length_cons, ih]

theorem bits_congr {width n m : Nat} (h : ∀ i < width, n.testBit i = m.testBit i) : bits width n = bits width m := by
  induction width with
  | zero => rfl
  | succ width ih => rw [bits, bits, h width (Nat.lt_succ_self _), ih fun i hi => h i (Nat.lt_succ_of_lt hi)]

/-- The bits of a number are its high bits and then its low bits. -/
theorem bits_add (k m n : Nat) : bits (k + m) n = bits k (n / 2 ^ m) ++ bits m (n % 2 ^ m) := by
  induction k with
  | zero =>
    rw [Nat.zero_add, bits, List.nil_append]
    refine bits_congr fun i hi => ?_
    rw [Nat.testBit_mod_two_pow, decide_eq_true hi, Bool.true_and]
  | succ k ih =>
    rw [Nat.succ_add, bits, ih, bits, List.cons_append, Nat.testBit_div_two_pow]

theorem foldl_bits (width n acc : Nat) :
    (bits width n).foldl (fun n b => 2 * n + b.toNat) acc = acc * 2 ^ width + n % 2 ^ width := by
  induction width generalizing acc with
  | zero => rw [bits, List.foldl_nil, pow_zero, Nat.mod_one, Nat.mul_one, Nat.add_zero]
  | succ width ih =>
    rw [bits, List.foldl_cons, ih, Nat.mod_pow_succ, pow_succ, Nat.toNat_testBit]
    ring

/-- The bits of two numbers are the bits of one. -/
theorem bits_join (k : Nat) {m : Nat} (x : Nat) {y : Nat} (h : y < 2 ^ m) : bits k x ++ bits m y = bits (k + m) (x * 2 ^ m + y) := by
  have high : (x * 2 ^ m + y) / 2 ^ m = x := by
    rw [Nat.add_comm, Nat.add_mul_div_right _ _ (Nat.two_pow_pos m), Nat.div_eq_of_lt h, Nat.zero_add]
  have low : (x * 2 ^ m + y) % 2 ^ m = y := by
    rw [Nat.add_comm, Nat.add_mul_mod_self_right, Nat.mod_eq_of_lt h]
  rw [bits_add, high, low]

theorem bits_zeros (k j n : Nat) : bits k n ++ List.replicate j false = bits (k + j) (n * 2 ^ j) := by
  have zeros : bits j 0 = List.replicate j false := by
    induction j with
    | zero => rfl
    | succ j ih => rw [bits, ih, Nat.zero_testBit, List.replicate_succ]
  rw [← zeros, bits_join k n (Nat.two_pow_pos j), Nat.add_zero]

/-- A number is read back from its bits. -/
theorem ofBits_bits {width n : Nat} (h : n < 2 ^ width) : ofBits (bits width n) = n := by
  rw [ofBits, foldl_bits, Nat.zero_mul, Nat.zero_add, Nat.mod_eq_of_lt h]

theorem ofBits_concat (bs : List Bool) (b : Bool) : ofBits (bs ++ [b]) = 2 * ofBits bs + b.toNat := by
  rw [ofBits, List.foldl_append]
  rfl

/-- Bits are read back from their number. -/
theorem bits_ofBits (bs : List Bool) : bits bs.length (ofBits bs) = bs := by
  induction bs using List.reverseRecOn with
  | nil => rfl
  | append_singleton bs b ih =>
    have hb : b.toNat < 2 := Bool.toNat_lt b
    have high : (2 * ofBits bs + b.toNat) / 2 ^ 1 = ofBits bs := by omega
    have low : (2 * ofBits bs + b.toNat) % 2 ^ 1 = b.toNat := by omega
    rw [List.length_append, List.length_singleton, bits_add, ofBits_concat, high, low, ih]
    cases b <;> rfl

theorem ofBits_lt (bs : List Bool) : ofBits bs < 2 ^ bs.length := by
  induction bs using List.reverseRecOn with
  | nil => exact Nat.one_pos
  | append_singleton bs b ih =>
    have hb : b.toNat < 2 := Bool.toNat_lt b
    rw [ofBits_concat, List.length_append, List.length_singleton, pow_succ]
    omega

/-! ## Groups -/

/-- A group that is not full is filled with zeros. -/
theorem sextets_part {part : List Bool} (hne : part ≠ []) (h : part.length < 6) :
    sextets part = [ofBits (part ++ List.replicate (6 - part.length) false)] := by
  match part, hne, h with
  | [_], _, _ => rfl
  | [_, _], _, _ => rfl
  | [_, _, _], _, _ => rfl
  | [_, _, _, _], _, _ => rfl
  | [_, _, _, _, _], _, _ => rfl
  | _ :: _ :: _ :: _ :: _ :: _ :: _, _, h =>
    simp only [List.length_cons] at h
    omega

/-- A full group is taken off the front. -/
theorem sextets_append {group rest : List Bool} (h : group.length = 6) : sextets (group ++ rest) = ofBits group :: sextets rest := by
  match group, h with
  | [_, _, _, _, _, _], _ => rfl

theorem sextets_bits {v : Nat} (h : v < 64) (rest : List Bool) : sextets (bits 6 v ++ rest) = v :: sextets rest := by
  rw [sextets_append (length_bits 6 v), ofBits_bits h]

theorem sextets_bits_part {k v : Nat} (hpos : 0 < k) (hk : k < 6) (h : v < 2 ^ k) : sextets (bits k v) = [v * 2 ^ (6 - k)] := by
  have hlen := length_bits k v
  have hne : bits k v ≠ [] := List.ne_nil_of_length_pos (by omega)
  have bound : v * 2 ^ (6 - k) < 2 ^ (k + (6 - k)) := by
    rw [pow_add]
    exact Nat.mul_lt_mul_of_pos_right h (Nat.two_pow_pos _)
  rw [sextets_part hne (by omega), hlen, bits_zeros, ofBits_bits bound]

/-- The induction over groups of six bits. -/
theorem groups_induction {P : List Bool → Prop} (nil : P []) (part : ∀ part, part ≠ [] → part.length < 6 → P part)
    (cons : ∀ group rest, group.length = 6 → P rest → P (group ++ rest)) : ∀ bs, P bs := by
  intro bs
  induction h : bs.length using Nat.strong_induction_on generalizing bs with
  | _ n ih =>
    by_cases hnil : bs = []
    · rw [hnil]
      exact nil
    by_cases hlen : bs.length < 6
    · exact part bs hnil hlen
    · have hrest : P (bs.drop 6) := by
        refine ih (bs.drop 6).length ?_ _ rfl
        rw [List.length_drop]
        omega
      have whole := cons (bs.take 6) (bs.drop 6) (by rw [List.length_take]; omega) hrest
      rwa [List.take_append_drop] at whole

theorem sextets_lt (bs : List Bool) : ∀ n ∈ sextets bs, n < 64 := by
  induction bs using groups_induction with
  | nil => exact nofun
  | part part hne h =>
    intro n hn
    rw [sextets_part hne h] at hn
    rw [List.mem_singleton.1 hn]
    have bound := ofBits_lt (part ++ List.replicate (6 - part.length) false)
    rwa [List.length_append, List.length_replicate, Nat.add_sub_cancel' h.le] at bound
  | cons group rest h ih =>
    intro n hn
    rw [sextets_append h] at hn
    rcases List.mem_cons.1 hn with rfl | hn
    · have bound := ofBits_lt group
      rwa [h] at bound
    · exact ih n hn

theorem length_sextets (bs : List Bool) : (sextets bs).length = (bs.length + 5) / 6 := by
  induction bs using groups_induction with
  | nil => rfl
  | part part hne h =>
    have some := List.length_pos_iff.2 hne
    rw [sextets_part hne h, List.length_singleton]
    omega
  | cons group rest h ih =>
    rw [sextets_append h, List.length_cons, ih, List.length_append, h]
    omega

/-- The groups are the bits, with at most five zeros behind them. -/
theorem flatMap_sextets (bs : List Bool) : ∃ k < 6, (sextets bs).flatMap (bits 6) = bs ++ List.replicate k false := by
  induction bs using groups_induction with
  | nil => exact ⟨0, by decide, rfl⟩
  | part part hne h =>
    have some := List.length_pos_iff.2 hne
    refine ⟨6 - part.length, by omega, ?_⟩
    have whole := bits_ofBits (part ++ List.replicate (6 - part.length) false)
    rw [List.length_append, List.length_replicate, Nat.add_sub_cancel' h.le] at whole
    rw [sextets_part hne h, List.flatMap_singleton, whole]
  | cons group rest h ih =>
    obtain ⟨k, hk, heq⟩ := ih
    have whole := bits_ofBits group
    rw [h] at whole
    exact ⟨k, hk, by rw [sextets_append h, List.flatMap_cons, whole, heq, List.append_assoc]⟩

theorem octets_left {left : List Bool} (h : left.length < 8) : octets left = ([], left) := by
  match left, h with
  | [], _ => rfl
  | [_], _ => rfl
  | [_, _], _ => rfl
  | [_, _, _], _ => rfl
  | [_, _, _, _], _ => rfl
  | [_, _, _, _, _], _ => rfl
  | [_, _, _, _, _, _], _ => rfl
  | [_, _, _, _, _, _, _], _ => rfl
  | _ :: _ :: _ :: _ :: _ :: _ :: _ :: _ :: _, h =>
    simp only [List.length_cons] at h
    omega

/-- Bytes come back from their bits, with what is left over behind them. -/
theorem octets_bytes (bytes : List UInt8) {left : List Bool} (h : left.length < 8) :
    octets ((bytes.flatMap fun b => bits 8 b.toNat) ++ left) = (bytes, left) := by
  induction bytes with
  | nil => exact octets_left h
  | cons b bytes ih =>
    have first : octets (bits 8 b.toNat ++ ((bytes.flatMap fun b => bits 8 b.toNat) ++ left)) =
        (UInt8.ofNat (ofBits (bits 8 b.toNat)) :: bytes, left) := by
      change (_ :: (octets ((bytes.flatMap fun b => bits 8 b.toNat) ++ left)).1,
        (octets ((bytes.flatMap fun b => bits 8 b.toNat) ++ left)).2) = _
      rw [ih]
      rfl
    rw [List.flatMap_cons, List.append_assoc, first, ofBits_bits b.toNat_lt, UInt8.ofNat_toNat]

/-! ## The round trip -/

/-- A character of the alphabet stands for its sextet. -/
theorem sextet_char {n : Nat} (h : n < 64) : sextet (char n) = some n := by
  have all : ∀ n < 64, sextet (char n) = some n := by decide +kernel
  exact all n h

theorem plain_char {n : Nat} (h : n < 64) : (char n).isAlphanum ∨ char n = '-' ∨ char n = '_' := by
  have all : ∀ n < 64, (char n).isAlphanum ∨ char n = '-' ∨ char n = '_' := by decide +kernel
  exact all n h

/-- Four characters for every three bytes, rounded up. -/
theorem length_encode (bytes : List UInt8) : (encode bytes).length = (4 * bytes.length + 2) / 3 := by
  have total : (bytes.flatMap fun b => bits 8 b.toNat).length = 8 * bytes.length := by
    induction bytes with
    | nil => rfl
    | cons b bytes ih => rw [List.flatMap_cons, List.length_append, length_bits, ih, List.length_cons]; omega
  rw [encode, List.length_map, length_sextets, total]
  omega

/-- Only characters that need no escape in a URL. -/
theorem plain_encode (bytes : List UInt8) : ∀ c ∈ encode bytes, c.isAlphanum ∨ c = '-' ∨ c = '_' := by
  intro c hc
  obtain ⟨n, hn, rfl⟩ := List.mem_map.1 hc
  exact plain_char (sextets_lt _ n hn)

theorem mapM_sextet {groups : List Nat} (h : ∀ n ∈ groups, n < 64) : (groups.map char).mapM sextet = some groups := by
  induction groups with
  | nil => rfl
  | cons n groups ih =>
    rw [List.map_cons, List.mapM_cons, sextet_char (h n List.mem_cons_self), ih fun m hm => h m (List.mem_cons_of_mem n hm)]
    rfl

/-- Decoding gives the bytes back. -/
theorem decode_encode (bytes : List UInt8) : decode (encode bytes) = some bytes := by
  obtain ⟨k, hk, heq⟩ := flatMap_sextets (bytes.flatMap fun b => bits 8 b.toNat)
  have zeros : (List.replicate k false).length < 6 := by rwa [List.length_replicate]
  have blank : (List.replicate k false).all (! ·) = true := by simp
  rw [decode, encode, mapM_sextet (sextets_lt _)]
  change (if (octets _).2.length < 6 ∧ (octets _).2.all (! ·) then some (octets _).1 else none) = _
  rw [heq, octets_bytes bytes (zeros.trans (by decide)), if_pos ⟨zeros, blank⟩]

end GoblinPay.Text.Base64
