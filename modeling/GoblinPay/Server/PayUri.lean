import GoblinPay.Core.Grin
import GoblinPay.Machine
import GoblinPay.Sample
import GoblinPay.Text.Uri

/-!
# The pay URI

`gp-server/src/checkout.rs`: the link and QR code of the pay page, with the amount and the memo as query parameters.
-/

namespace GoblinPay

open Text

namespace Checkout

/-- `b'A'..=b'Z' | b'a'..=b'z' | b'0'..=b'9' | b'-' | b'.' | b'_' | b'~'` -/
def unreserved (b : UInt8) : Bool :=
  (65 ≤ b && b ≤ 90) || (97 ≤ b && b ≤ 122) || (48 ≤ b && b ≤ 57) || b = 45 || b = 46 || b = 95 || b = 126

/-- A digit of `{b:02X}`. -/
def upperHex (n : Nat) : Char := if n < 10 then Char.ofNat (48 + n) else Char.ofNat (55 + n)

def percentEncode (s : String) : String :=
  String.ofList (s.toUTF8.data.toList.flatMap fun b =>
    if unreserved b then [Char.ofNat b.toNat] else ['%', upperHex (b.toNat / 16), upperHex (b.toNat % 16)])

def payUri (nprofile : String) (inv : Invoice) : String :=
  let uri := "goblin:" ++ nprofile
  let (uri, sep) :=
    match inv.expectedAmount with
    | some nano => if 0 < nano then (uri.push '?' ++ "amount=" ++ nanogrinToGrin nano.toUInt64, '&') else (uri, '?')
    | none => (uri, '?')
  match inv.memo with
  | some memo =>
    let memo := trim memo
    if memo.isEmpty then uri else uri.push sep ++ "memo=" ++ percentEncode memo
  | none => uri

/-! ## Percent-encoding -/

/-- Unreserved characters and percent escapes. -/
inductive Escaped : List Char → Prop
  | nil : Escaped []
  | plain {c : Char} {cs : List Char} (hc : c.isAlphanum ∨ c = '-' ∨ c = '.' ∨ c = '_' ∨ c = '~') (rest : Escaped cs) :
    Escaped (c :: cs)
  | escape {n m : Nat} {cs : List Char} (hn : n < 16) (hm : m < 16) (rest : Escaped cs) :
    Escaped ('%' :: upperHex n :: upperHex m :: cs)

/-- What one byte becomes. -/
def escapeByte (b : UInt8) : List Char :=
  if unreserved b then [Char.ofNat b.toNat] else ['%', upperHex (b.toNat / 16), upperHex (b.toNat % 16)]

theorem toList_percentEncode (s : String) : (percentEncode s).toList = (utf8 s.toList).flatMap escapeByte := by
  rw [percentEncode, String.toList_ofList, toUTF8_eq]
  rfl

theorem unreserved_char {b : UInt8} (h : unreserved b) :
    ((Char.ofNat b.toNat).isAlphanum ∨ Char.ofNat b.toNat = '-' ∨ Char.ofNat b.toNat = '.' ∨ Char.ofNat b.toNat = '_' ∨
      Char.ofNat b.toNat = '~') ∧ Char.ofNat b.toNat ≠ '%' ∧ String.utf8EncodeChar (Char.ofNat b.toNat) = [b] := by
  have all : ∀ n < 256, unreserved (UInt8.ofNat n) → ((Char.ofNat n).isAlphanum ∨ Char.ofNat n = '-' ∨ Char.ofNat n = '.' ∨
      Char.ofNat n = '_' ∨ Char.ofNat n = '~') ∧ Char.ofNat n ≠ '%' ∧ String.utf8EncodeChar (Char.ofNat n) = [UInt8.ofNat n] := by
    decide +kernel
  have whole := all b.toNat b.toNat_lt
  rw [UInt8.ofNat_toNat] at whole
  exact whole h

theorem hexDigit_upperHex {n : Nat} (h : n < 16) : Hex.hexDigit (upperHex n) = some n := by
  have all : ∀ n < 16, Hex.hexDigit (upperHex n) = some n := by decide
  exact all n h

theorem percentDecode_escapeByte (b : UInt8) (rest : List Char) :
    Uri.percentDecode (escapeByte b ++ rest) = b :: Uri.percentDecode rest := by
  have hb : b.toNat < 256 := b.toNat_lt
  unfold escapeByte
  split
  · rename_i h
    obtain ⟨-, hne, hbyte⟩ := unreserved_char h
    rw [List.singleton_append, Uri.percentDecode_plain hne, hbyte]
    rfl
  · have split : b.toNat / 16 * 16 + b.toNat % 16 = b.toNat := Nat.div_add_mod' b.toNat 16
    rw [List.cons_append, List.cons_append, List.singleton_append,
      Uri.percentDecode_escape (hexDigit_upperHex (by omega)) (hexDigit_upperHex (by omega)), split, UInt8.ofNat_toNat]

theorem percentDecode_percentEncode (s : String) : Uri.percentDecode (percentEncode s).toList = utf8 s.toList := by
  have bytes : ∀ bs : List UInt8, Uri.percentDecode (bs.flatMap escapeByte) = bs := by
    intro bs
    induction bs with
    | nil => rfl
    | cons b bs ih => rw [List.flatMap_cons, percentDecode_escapeByte, ih]
  rw [toList_percentEncode, bytes]

theorem value_percentEncode (s : String) : Uri.value (percentEncode s).toList = some s :=
  Uri.value_eq (percentDecode_percentEncode s)

theorem percentEncode_injective {s t : String} (h : percentEncode s = percentEncode t) : s = t := by
  have decoded := value_percentEncode s
  rw [h, value_percentEncode] at decoded
  exact (Option.some.inj decoded).symm

theorem escaped_percentEncode (s : String) : Escaped (percentEncode s).toList := by
  rw [toList_percentEncode]
  induction utf8 s.toList with
  | nil => exact .nil
  | cons b bs ih =>
    have hb : b.toNat < 256 := b.toNat_lt
    rw [List.flatMap_cons]
    unfold escapeByte
    split
    · rename_i h
      exact .plain (unreserved_char h).1 ih
    · exact .escape (by omega) (by omega) ih

/-- Nothing escaped is a separator. -/
theorem Escaped.notMem {cs : List Char} (h : Escaped cs) : '?' ∉ cs ∧ '&' ∉ cs ∧ '=' ∉ cs := by
  have hexadecimal : ∀ n < 16, upperHex n ≠ '?' ∧ upperHex n ≠ '&' ∧ upperHex n ≠ '=' := by decide
  induction h with
  | nil => exact ⟨List.not_mem_nil, List.not_mem_nil, List.not_mem_nil⟩
  | @plain c cs hc _ ih =>
    have plain : '?' ≠ c ∧ '&' ≠ c ∧ '=' ≠ c := by
      refine ⟨?_, ?_, ?_⟩ <;> rintro rfl <;> revert hc <;> decide
    simp only [List.mem_cons, not_or]
    exact ⟨⟨plain.1, ih.1⟩, ⟨plain.2.1, ih.2.1⟩, ⟨plain.2.2, ih.2.2⟩⟩
  | @escape n m cs hn hm _ ih =>
    obtain ⟨n1, n2, n3⟩ := hexadecimal n hn
    obtain ⟨m1, m2, m3⟩ := hexadecimal m hm
    simp only [List.mem_cons, not_or]
    exact ⟨⟨by decide, n1.symm, m1.symm, ih.1⟩, ⟨by decide, n2.symm, m2.symm, ih.2.1⟩, ⟨by decide, n3.symm, m3.symm, ih.2.2⟩⟩

/-! ## Amounts -/

/-- Digits and a point stand for themselves. -/
theorem percentDecode_decimal {cs : List Char} (h : ∀ c ∈ cs, c.isDigit ∨ c = '.') : Uri.percentDecode cs = utf8 cs := by
  induction cs with
  | nil => rfl
  | cons c cs ih =>
    have hne : c ≠ '%' := by
      rintro rfl
      have := h '%' List.mem_cons_self
      revert this
      decide
    rw [Uri.percentDecode_plain hne, ih fun d hd => h d (List.mem_cons_of_mem c hd)]
    rfl

theorem chars_nanogrinToGrin (nano : UInt64) : ∀ c ∈ (nanogrinToGrin nano).toList, c.isDigit ∨ c = '.' := by
  obtain ⟨whole, point, shortest, heq⟩ := canonical_nanogrinToGrin nano
  intro c hc
  rw [heq] at hc
  rcases List.mem_append.1 hc with hc | hc
  · exact Or.inl (shortest.digits c hc)
  · cases point with
    | none => cases hc
    | some frac =>
      rcases List.mem_cons.1 hc with rfl | hc
      · exact Or.inr rfl
      · exact Or.inl ((shortest.behind frac rfl).2.2.1 c hc)

theorem separators_nanogrinToGrin (nano : UInt64) : '?' ∉ (nanogrinToGrin nano).toList ∧ '&' ∉ (nanogrinToGrin nano).toList := by
  constructor
  · intro hc
    have := chars_nanogrinToGrin nano _ hc
    revert this
    decide
  · intro hc
    have := chars_nanogrinToGrin nano _ hc
    revert this
    decide

theorem value_nanogrinToGrin (nano : UInt64) : Uri.value (nanogrinToGrin nano).toList = some (nanogrinToGrin nano) :=
  Uri.value_eq (percentDecode_decimal (chars_nanogrinToGrin nano))

/-! ## Reading the URI -/

/-- The amount a wallet is to fill in. -/
def payAmount (inv : Invoice) : Option String :=
  inv.expectedAmount.bind fun nano => if 0 < nano then some (nanogrinToGrin nano.toUInt64) else none

/-- The note a wallet is to fill in. -/
def payMemo (inv : Invoice) : Option String := inv.memo.bind fun memo => if (trim memo).isEmpty then none else some (trim memo)

/-- The text of the parameters. -/
def pieces (amount memo : Option String) : List (List Char) :=
  (amount.map fun v => "amount".toList ++ '=' :: v.toList).toList ++
    (memo.map fun v => "memo".toList ++ '=' :: (percentEncode v).toList).toList

/-- The loop variable for the separator does what separating the parameters does. -/
theorem payUri_eq (nprofile : String) (inv : Invoice) :
    payUri nprofile inv =
      String.ofList (("goblin:" ++ nprofile).toList ++ Uri.query (pieces (payAmount inv) (payMemo inv))) := by
  have amount : (match inv.expectedAmount with
      | some nano => if 0 < nano then (("goblin:" ++ nprofile).push '?' ++ "amount=" ++ nanogrinToGrin nano.toUInt64, '&')
        else ("goblin:" ++ nprofile, '?')
      | none => ("goblin:" ++ nprofile, '?')) =
      match payAmount inv with
      | some v => (("goblin:" ++ nprofile).push '?' ++ "amount=" ++ v, '&')
      | none => ("goblin:" ++ nprofile, '?') := by
    unfold payAmount
    cases inv.expectedAmount with
    | none => rfl
    | some nano =>
      rw [Option.bind_some]
      dsimp only
      split <;> rfl
  have memo : ∀ uri : String, ∀ sep : Char, (match inv.memo with
      | some memo => if (trim memo).isEmpty then uri else uri.push sep ++ "memo=" ++ percentEncode (trim memo)
      | none => uri) =
      match payMemo inv with
      | some v => uri.push sep ++ "memo=" ++ percentEncode v
      | none => uri := by
    intro uri sep
    unfold payMemo
    cases inv.memo with
    | none => rfl
    | some memo =>
      rw [Option.bind_some]
      dsimp only
      split <;> rfl
  unfold payUri
  dsimp only
  rw [amount, memo, ← String.toList_inj, String.toList_ofList]
  cases payAmount inv with
  | none =>
    cases payMemo inv with
    | none => simp [pieces, Uri.query]
    | some m => simp [pieces, Uri.query]
  | some v =>
    cases payMemo inv with
    | none => simp [pieces, Uri.query]
    | some m => simp [pieces, Uri.query]

theorem params_payUri {nprofile : String} (h : '?' ∉ nprofile.toList) (inv : Invoice) :
    Uri.path (payUri nprofile inv) = "goblin:" ++ nprofile ∧
      Uri.params (payUri nprofile inv) = ((payAmount inv).map fun v => ("amount", some v)).toList ++
        ((payMemo inv).map fun v => ("memo", some v)).toList := by
  have front : '?' ∉ ("goblin:" ++ nprofile).toList := by
    rw [String.toList_append]
    exact fun hmem => (List.mem_append.1 hmem).elim (by decide) h
  have noAmpersand : ∀ {name cs : List Char}, '&' ∉ name → '&' ∉ cs → '&' ∉ name ++ '=' :: cs := by
    intro name cs hname hcs hmem
    rcases List.mem_append.1 hmem with hmem | hmem
    · exact hname hmem
    · exact (List.mem_cons.1 hmem).elim (by decide) hcs
  have amountPiece : ∀ v ∈ payAmount inv, '&' ∉ "amount".toList ++ '=' :: v.toList ∧
      Uri.param ("amount".toList ++ '=' :: v.toList) = ("amount", some v) := by
    intro v hv
    obtain ⟨nano, -, hnano⟩ := Option.bind_eq_some_iff.1 hv
    split at hnano
    · cases hnano
      exact ⟨noAmpersand (by decide) (separators_nanogrinToGrin _).2, Uri.param_named (by decide) (value_nanogrinToGrin _)⟩
    · cases hnano
  have memoPiece : ∀ v : String, '&' ∉ "memo".toList ++ '=' :: (percentEncode v).toList ∧
      Uri.param ("memo".toList ++ '=' :: (percentEncode v).toList) = ("memo", some v) := fun v =>
    ⟨noAmpersand (by decide) (escaped_percentEncode v).notMem.2.1, Uri.param_named (by decide) (value_percentEncode v)⟩
  have separate : ∀ p ∈ pieces (payAmount inv) (payMemo inv), '&' ∉ p := by
    intro p hp
    rcases List.mem_append.1 hp with hp | hp
    · obtain ⟨v, hv, rfl⟩ := Option.map_eq_some_iff.1 (Option.mem_toList.1 hp)
      exact (amountPiece v hv).1
    · obtain ⟨v, -, rfl⟩ := Option.map_eq_some_iff.1 (Option.mem_toList.1 hp)
      exact (memoPiece v).1
  have amounts : ((payAmount inv).map fun v => "amount".toList ++ '=' :: v.toList).toList.map Uri.param =
      ((payAmount inv).map fun v => ("amount", some v)).toList := by
    cases hamount : payAmount inv with
    | none => rfl
    | some v => exact congrArg (fun p => [p]) (amountPiece v hamount).2
  have memos : ((payMemo inv).map fun v => "memo".toList ++ '=' :: (percentEncode v).toList).toList.map Uri.param =
      ((payMemo inv).map fun v => ("memo", some v)).toList := by
    cases payMemo inv with
    | none => rfl
    | some v => exact congrArg (fun p => [p]) (memoPiece v).2
  obtain ⟨path, params⟩ := Uri.read_query front separate
  rw [payUri_eq, path, params, String.ofList_toList, pieces, List.map_append, amounts, memos]
  exact ⟨rfl, rfl⟩

theorem payAmount_exact {inv : Invoice} {v : String} (h : payAmount inv = some v) :
    ∃ nano, inv.expectedAmount = some nano ∧ 0 < nano ∧ Canonical 9 v ∧ decimal v * 10 ^ 9 = nano.toInt := by
  obtain ⟨nano, hnano, hv⟩ := Option.bind_eq_some_iff.1 h
  split at hv
  · rename_i hpos
    cases hv
    refine ⟨nano, hnano, hpos, canonical_nanogrinToGrin _, ?_⟩
    have positive : 0 < nano.toInt := Int64.lt_iff_toInt_lt.1 hpos
    rw [decimal_nanogrinToGrin, toNat_toUInt64 positive.le]
    exact_mod_cast Int.toNat_of_nonneg positive.le
  · cases hv

/-- Reading a pay URI gives back the profile, the amount and the memo it was made of and nothing else, whatever the
memo says. -/
theorem payUri_unambiguous (nprofile : String) (inv : Invoice) (h : '?' ∉ nprofile.toList) :
    Uri.path (payUri nprofile inv) = "goblin:" ++ nprofile ∧
      (∃ amount memo : Option String,
        Uri.params (payUri nprofile inv) = (amount.map fun v => ("amount", some v)).toList ++
          (memo.map fun v => ("memo", some v)).toList ∧
        (amount.isSome ↔ ∃ nano, inv.expectedAmount = some nano ∧ 0 < nano) ∧
        (∀ v, amount = some v → ∃ nano, inv.expectedAmount = some nano ∧ Canonical 9 v ∧ decimal v * 10 ^ 9 = nano.toInt) ∧
        memo = inv.memo.bind fun m => if (trim m).isEmpty then none else some (trim m)) ∧
      (∀ s t, percentEncode s = percentEncode t → s = t) ∧ ∀ s, Escaped (percentEncode s).toList := by
  obtain ⟨path, params⟩ := params_payUri h inv
  refine ⟨path, ⟨payAmount inv, payMemo inv, params, ?_, ?_, rfl⟩, fun s t => percentEncode_injective, escaped_percentEncode⟩
  · constructor
    · intro hsome
      obtain ⟨v, hv⟩ := Option.isSome_iff_exists.1 hsome
      obtain ⟨nano, hnano, hpos, -⟩ := payAmount_exact hv
      exact ⟨nano, hnano, hpos⟩
    · rintro ⟨nano, hnano, hpos⟩
      rw [payAmount, hnano, Option.bind_some, if_pos hpos]
      rfl
  · intro v hv
    obtain ⟨nano, hnano, -, exact⟩ := payAmount_exact hv
    exact ⟨nano, hnano, exact⟩

/-- An invoice whose memo spells a second amount. -/
def spelledInvoice : Invoice :=
  (Invoice.row Sample.upstream ⟨none, .grin 1500000000, some "&amount=9", none, none⟩ [109] "m" .memo "i" "tok").toInvoice 10

theorem payUri_spelled : Uri.path (payUri "nprofile1abc" spelledInvoice) = "goblin:nprofile1abc" :=
  (payUri_unambiguous "nprofile1abc" spelledInvoice (by decide)).1

end Checkout

end GoblinPay
