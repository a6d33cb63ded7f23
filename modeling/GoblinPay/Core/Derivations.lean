import GoblinPay.Core.Derive
import GoblinPay.Core.Ids
import GoblinPay.Machine
import GoblinPay.Sample
import GoblinPay.Text.Utf8
import Mathlib.Data.Set.Function

/-!
# Derivation inputs

`gp-core/src/derive.rs` puts the parts of a context behind the master key without separators. An identifier is
hexadecimal text, and the epoch of a user starts with a zero byte, so no two contexts are alike.
-/

namespace GoblinPay

/-- What an identity is derived for. -/
inductive Derivation
  | invoice (id : String)
  | endpub (userId : String) (epoch : Int64)
  deriving DecidableEq, Repr

namespace Derivation

def context : Derivation → List (List UInt8)
  | .invoice id => Derive.invoiceContext id
  | .endpub userId epoch => Derive.endpubContext userId epoch

/-- The bytes that are hashed at the first attempt. -/
def input (master : Secret) (d : Derivation) : List UInt8 := master ++ d.context.flatten

/-- Identifiers of 32 lowercase hexadecimal digits, and epochs that leave the first byte of eight zero. -/
def Reachable : Derivation → Prop
  | .invoice id => id.toList.length = 32 ∧ ∀ c ∈ id.toList, c.isDigit ∨ 'a' ≤ c ∧ c ≤ 'f'
  | .endpub _ epoch => 0 ≤ epoch.toInt ∧ epoch.toInt < 2 ^ 56

def pubkeyHex {W : Type} (U : Upstream W) (master : Secret) : Derivation → String
  | .invoice id => Derive.invoicePubkeyHex U master id
  | .endpub userId epoch => Derive.endpubPubkeyHex U master userId epoch

end Derivation

namespace Derive

theorem beBytes_succ (width n : Nat) : beBytes (width + 1) n = UInt8.ofNat (n / 256 ^ width % 256) :: beBytes width n := by
  rw [beBytes, List.range_succ, List.reverse_append, List.map_append]
  rfl

theorem length_beBytes (width n : Nat) : (beBytes width n).length = width := by
  rw [beBytes, List.length_map, List.length_reverse, List.length_range]

theorem mod_of_beBytes {width n m : Nat} (h : beBytes width n = beBytes width m) : n % 256 ^ width = m % 256 ^ width := by
  induction width with
  | zero => rw [pow_zero, Nat.mod_one, Nat.mod_one]
  | succ width ih =>
    rw [beBytes_succ, beBytes_succ] at h
    obtain ⟨hbyte, hrest⟩ := List.cons.inj h
    have byte : n / 256 ^ width % 256 = m / 256 ^ width % 256 := by
      have same := congrArg UInt8.toNat hbyte
      rw [UInt8.toNat_ofNat', UInt8.toNat_ofNat', Nat.mod_mod, Nat.mod_mod] at same
      exact same
    rw [Nat.mod_pow_succ, Nat.mod_pow_succ, byte, ih hrest]

end Derive

namespace Derivation

theorem hexChar_range {n : Nat} (h : n < 16) : (Hex.hexChar n).isDigit ∨ 'a' ≤ Hex.hexChar n ∧ Hex.hexChar n ≤ 'f' := by
  have all : ∀ n < 16, (Hex.hexChar n).isDigit ∨ 'a' ≤ Hex.hexChar n ∧ Hex.hexChar n ≤ 'f' := by decide
  exact all n h

/-- Every identifier the server draws is reachable. -/
theorem reachable_randomId (bytes : Vector UInt8 16) : (invoice (Ids.randomId bytes)).Reachable := by
  have text : (Ids.randomId bytes).toList =
      bytes.toList.flatMap fun b => [Hex.hexChar (b.toNat / 16), Hex.hexChar (b.toNat % 16)] := String.toList_ofList
  have length : ∀ bs : List UInt8, (bs.flatMap fun b => [Hex.hexChar (b.toNat / 16), Hex.hexChar (b.toNat % 16)]).length =
      2 * bs.length := by
    intro bs
    induction bs with
    | nil => rfl
    | cons b bs ih =>
      rw [List.flatMap_cons, List.length_append, ih]
      simp only [List.length_cons, List.length_nil]
      omega
  constructor
  · rw [text, length, Vector.length_toList]
  · intro c hc
    rw [text] at hc
    obtain ⟨b, -, hc⟩ := List.mem_flatMap.1 hc
    have hb : b.toNat < 256 := b.toNat_lt
    rcases List.mem_pair.1 hc with rfl | rfl
    · exact hexChar_range (by omega)
    · exact hexChar_range (by omega)

section

variable {id userId userId' : String} {epoch epoch' : Int64}

/-- No byte of an identifier is zero. -/
theorem zero_notMem_invoice (h : (invoice id).Reachable) : (0 : UInt8) ∉ (invoice id).context.flatten := by
  have flat : (invoice id).context.flatten = Text.utf8 id.toList := by
    change [id.toUTF8.data.toList].flatten = _
    rw [List.flatten_singleton, Text.toUTF8_eq]
  rw [flat]
  intro hmem
  obtain ⟨c, hc, hzero⟩ := List.mem_flatMap.1 hmem
  have range : 48 ≤ c.toNat ∧ c.toNat ≤ 102 := by
    rcases h.2 c hc with digit | ⟨low, high⟩
    · simp only [Char.isDigit, Bool.and_eq_true, decide_eq_true_eq, ge_iff_le, UInt32.le_iff_toNat_le] at digit
      exact ⟨digit.1, digit.2.trans (by decide)⟩
    · have low : 97 ≤ c.toNat := UInt32.le_iff_toNat_le.1 low
      exact ⟨by omega, UInt32.le_iff_toNat_le.1 high⟩
  rw [Text.utf8EncodeChar_ascii (by omega)] at hzero
  have value := congrArg UInt8.toNat (List.mem_singleton.1 hzero)
  rw [UInt32.toNat_toUInt8] at value
  have same : c.val.toNat = c.toNat := rfl
  change 0 = _ at value
  omega

theorem endpub_flatten (userId : String) (epoch : Int64) :
    (endpub userId epoch).context.flatten = Text.utf8 userId.toList ++ Derive.beBytes 8 epoch.toUInt64.toNat := by
  change [userId.toUTF8.data.toList, _].flatten = _
  rw [List.flatten_cons, List.flatten_singleton, Text.toUTF8_eq]

theorem epoch_nat (h : (endpub userId epoch).Reachable) : epoch.toUInt64.toNat = epoch.toInt.toNat := toNat_toUInt64 h.1

/-- The epoch of a user starts with a zero byte. -/
theorem zero_mem_endpub (h : (endpub userId epoch).Reachable) : (0 : UInt8) ∈ (endpub userId epoch).context.flatten := by
  have bound := h.2
  have top : epoch.toUInt64.toNat / 256 ^ 7 = 0 := by
    rw [epoch_nat h]
    omega
  rw [endpub_flatten, Derive.beBytes_succ, top]
  exact List.mem_append_right _ List.mem_cons_self

theorem endpub_inj (h : (endpub userId epoch).Reachable) (h' : (endpub userId' epoch').Reachable)
    (same : (endpub userId epoch).context.flatten = (endpub userId' epoch').context.flatten) : userId = userId' ∧ epoch = epoch' := by
  rw [endpub_flatten, endpub_flatten] at same
  obtain ⟨hid, hepoch⟩ := List.append_inj' same (by rw [Derive.length_beBytes, Derive.length_beBytes])
  have number := Derive.mod_of_beBytes hepoch
  rw [epoch_nat h, epoch_nat h'] at number
  have bounds := h
  have bounds' := h'
  unfold Reachable at bounds bounds'
  exact ⟨String.toList_inj.1 (Text.utf8_injective hid), Int64.toInt_inj.1 (by omega)⟩

theorem invoice_inj {id' : String} (same : (invoice id).context.flatten = (invoice id').context.flatten) : id = id' := by
  change [id.toUTF8.data.toList].flatten = [id'.toUTF8.data.toList].flatten at same
  rw [List.flatten_singleton, List.flatten_singleton, Text.toUTF8_eq, Text.toUTF8_eq] at same
  exact String.toList_inj.1 (Text.utf8_injective same)

end

theorem input_injOn (master : Secret) : Set.InjOn (input master) {d | d.Reachable} := by
  intro d hd d' hd' same
  have same : d.context.flatten = d'.context.flatten := List.append_cancel_left same
  cases d with
  | invoice id =>
    cases d' with
    | invoice id' => rw [invoice_inj same]
    | endpub userId epoch => exact absurd (same ▸ zero_mem_endpub hd') (zero_notMem_invoice hd)
  | endpub userId epoch =>
    cases d' with
    | invoice id => exact absurd (same ▸ zero_mem_endpub hd) (zero_notMem_invoice hd')
    | endpub userId' epoch' =>
      obtain ⟨rfl, rfl⟩ := endpub_inj hd hd' same
      rfl

variable {W : Type} {U : Upstream W}

/-- Where the first digest is a valid key, the identity is the documented one. -/
theorem pubkeyHex_eq {master : Secret} {d : Derivation} (h : U.isScalar (U.sha256 (d.input master))) :
    d.pubkeyHex U master = U.xonlyHex (U.sha256 (d.input master)) := by
  have first : Derive.digest U (d.input master) 0 = U.sha256 (d.input master) := by
    rw [Derive.digest, if_pos rfl, List.append_nil]
  have secret : Derive.childSecret U master d.context = U.sha256 (d.input master) := by
    change Derive.childSecretFrom U (d.input master) (2 ^ 32 - 1 + 1) 0 = _
    rw [Derive.childSecretFrom, first, if_pos h]
  cases d with
  | invoice id => exact congrArg U.xonlyHex secret
  | endpub userId epoch => exact congrArg U.xonlyHex secret

/-- No two invoices, users' epochs, or an invoice and a user's epoch, share the bytes their key is the hash of, nor, as far as
hashing these and taking public keys loses nothing on the derivations in use, their identity. -/
theorem derivations_distinct (master : Secret) :
    Set.InjOn (input master) {d | d.Reachable} ∧
      ∀ {W : Type} (U : Upstream W) (used : Set Derivation), (∀ d ∈ used, d.Reachable) →
        Set.InjOn U.sha256 (input master '' used) → Set.InjOn U.xonlyHex ((fun d => U.sha256 (input master d)) '' used) →
        (∀ d ∈ used, U.isScalar (U.sha256 (d.input master))) → Set.InjOn (pubkeyHex U master) used := by
  refine ⟨input_injOn master, fun U used reachable hash key valid d hd d' hd' same => ?_⟩
  rw [pubkeyHex_eq (valid d hd), pubkeyHex_eq (valid d' hd')] at same
  have digests := key (Set.mem_image_of_mem _ hd) (Set.mem_image_of_mem _ hd') same
  have inputs := hash (Set.mem_image_of_mem _ hd) (Set.mem_image_of_mem _ hd') digests
  exact input_injOn master (reachable d hd) (reachable d' hd') inputs

/-- An invoice, and the first epoch of a user named like it. -/
def namesakes : Set Derivation := {invoice "00000000000000000000000000000000", endpub "00000000000000000000000000000000" 1}

theorem namesakes_distinct : Set.InjOn (pubkeyHex Sample.upstream [7]) namesakes := by
  apply (derivations_distinct [7]).2 Sample.upstream namesakes
  · rintro d (rfl | rfl)
    · refine ⟨rfl, fun c hc => ?_⟩
      have zeros : c ∈ List.replicate 32 '0' := hc
      obtain rfl := List.eq_of_mem_replicate zeros
      exact Or.inl rfl
    · constructor <;> decide
  · rw [namesakes, Set.image_pair, Set.injOn_pair]
    intro same
    exact absurd same (by decide)
  · rw [namesakes, Set.image_pair, Set.injOn_pair]
    intro same
    exact absurd same (by decide)
  · intro d _
    rfl

end Derivation

end GoblinPay
