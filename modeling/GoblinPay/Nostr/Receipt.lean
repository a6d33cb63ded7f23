import GoblinPay.Text.Hex

/-!
# Payment receipts

`gp-nostr/src/receipt.rs`: the receipt a store checks against the server's public key. Serialization, the
digest and the signature scheme are parameters.
-/

namespace GoblinPay

/-- What the server signs; `J` is the payment proof as a JSON value. -/
structure Receipt (J : Type) where
  version : UInt8
  paymentId : String
  amount : UInt64
  kernelExcess : String
  confirmedHeight : Option UInt64
  confirmations : Option UInt64
  proof : Option J
  issuedAt : String
  serverPubkey : String

structure SignedReceipt (J : Type) where
  receipt : Receipt J
  sig : String

/-- `serde_json::to_vec`, SHA-256 and BIP-340 as `secp256k1` offers them. -/
structure Schnorr (J Key : Type) where
  toVec : Receipt J → Except String (List UInt8)
  sha256 : List UInt8 → List UInt8
  xonlyFromByteArray : List UInt8 → Except String Key
  verifySchnorr : (signature digest : List UInt8) → Key → Bool

namespace Receipt

open Hex

variable {J Key : Type} (S : Schnorr J Key)

def encodeHex (bytes : List UInt8) : String := Hex.encodeHex bytes

def decodeFixed (n : Nat) (hex : String) : Except Panic (Option (List UInt8)) := Hex.decodeFixed n hex

def receiptDigest (receipt : Receipt J) : Except String (List UInt8) := (S.toVec receipt).map S.sha256

/-- Verify the signature against the public key in the receipt. -/
def verifyReceipt (signed : SignedReceipt J) : Except Panic Bool :=
  letOk (receiptDigest S signed.receipt) fun digest =>
  letSome (decodeFixed 32 signed.receipt.serverPubkey) fun pkBytes =>
  letSome (decodeFixed 64 signed.sig) fun sigBytes =>
  letOk (S.xonlyFromByteArray pkBytes) fun pubkey =>
  pure (S.verifySchnorr sigBytes digest pubkey)

/-- `str::eq_ignore_ascii_case`. -/
def eqIgnoreAsciiCase (s t : List Char) : Bool := s.map Char.toLower = t.map Char.toLower

/-- Verify the signature and that the key is the expected one. -/
def verifyReceiptFrom (signed : SignedReceipt J) (expectedPubkeyHex : String) : Except Panic Bool :=
  if eqIgnoreAsciiCase signed.receipt.serverPubkey.toList (Text.trimChars expectedPubkeyHex.toList) then
    verifyReceipt S signed
  else pure false

/-- The fields of a receipt that is none of the malformed ones. -/
def FieldsWellFormed (signed : SignedReceipt J) : Prop :=
  WellFormed 32 signed.receipt.serverPubkey ∧ WellFormed 64 signed.sig

/-- Each field the check comes to is safe, and what it reads from malformed ones is no signature. -/
def Checkable (signed : SignedReceipt J) : Prop :=
  ∀ digest, receiptDigest S signed.receipt = .ok digest →
    Safe 32 signed.receipt.serverPubkey ∧ ∀ pkBytes, Field 32 signed.receipt.serverPubkey pkBytes →
      Safe 64 signed.sig ∧ ∀ sigBytes, Field 64 signed.sig sigBytes →
        ∀ pubkey, S.xonlyFromByteArray pkBytes = .ok pubkey → S.verifySchnorr sigBytes digest pubkey = true →
          FieldsWellFormed signed

theorem verifyReceipt_returns (signed : SignedReceipt J) :
    Returns (FieldsWellFormed signed) (verifyReceipt S signed) ↔ Checkable S signed := by
  unfold verifyReceipt Checkable decodeFixed
  simp only [returns_letOk, returns_field, returns_pure]

theorem verifyReceiptFrom_returns (signed : SignedReceipt J) (expected : String) :
    Returns (FieldsWellFormed signed) (verifyReceiptFrom S signed expected) ↔
      (eqIgnoreAsciiCase signed.receipt.serverPubkey.toList (Text.trimChars expected.toList) = true → Checkable S signed) := by
  unfold verifyReceiptFrom
  split
  · rename_i heq
    rw [verifyReceipt_returns]
    exact ⟨fun h _ => h, fun h => h heq⟩
  · rename_i hne
    exact ⟨fun _ heq => absurd heq hne, fun _ => returns_false _⟩

end Receipt

end GoblinPay
