import GoblinPay.Nostr.Receipt
import GoblinPay.Wallet.Confirm

/-!
# Malformed fields

The three hex decoders and the checks behind them, on any text in any field: `fields_iff` says for which
fields a decoder answers what the digits denote and a check comes to an answer, and `fields_panic` shows
a check that does not, on a field of the right length with one character outside ASCII.
-/

namespace GoblinPay

open Hex

/-- A field is decoded as hexadecimal, or refused as none, where the first piece of two bytes that is
neither two digits nor a plus sign and a digit ends on character boundaries, and no plus sign is read. -/
theorem fields_iff {J Key Key' Signature : Type} (S : Schnorr J Key) (D : Dalek Key' Signature) :
    (∀ n hex, (∃ found, Receipt.decodeFixed n hex = .ok found ∧
        ∀ bs, found = some bs ↔ Denotes (Text.trimChars hex.toList) bs ∧ bs.length = n) ↔
      Text.bytes (Text.trimChars hex.toList) ≠ n * 2 ∨ (∃ bs, Denotes (Text.trimChars hex.toList) bs) ∨
        Stops (Text.trimChars hex.toList)) ∧
    (∀ n hex, (∃ found, ReceiverProof.decodeFixed n hex = .ok found ∧
        ∀ bs, found = some bs ↔ Denotes (Text.trimChars hex.toList) bs ∧ bs.length = n) ↔
      Text.bytes (Text.trimChars hex.toList) ≠ n * 2 ∨ (∃ bs, Denotes (Text.trimChars hex.toList) bs) ∨
        Stops (Text.trimChars hex.toList)) ∧
    (∀ s, (∃ found, Confirm.decodeHex s = .ok found ∧ ∀ bs, found = some bs ↔ Denotes s bs) ↔
      (∃ bs, Denotes s bs) ∨ Text.bytes s % 2 ≠ 0 ∨ Stops s) ∧
    (∀ bytes, Receipt.decodeFixed bytes.length (Receipt.encodeHex bytes) = .ok (some bytes) ∧
      ReceiverProof.decodeFixed bytes.length (ReceiverProof.encodeHex bytes) = .ok (some bytes) ∧
      Confirm.decodeHex (ReceiverProof.encodeHex bytes).toList = .ok (some bytes)) ∧
    (∀ signed : SignedReceipt J, Returns (Receipt.FieldsWellFormed signed) (Receipt.verifyReceipt S signed) ↔
      Receipt.Checkable S signed) ∧
    (∀ (signed : SignedReceipt J) (expected : String),
      Returns (Receipt.FieldsWellFormed signed) (Receipt.verifyReceiptFrom S signed expected) ↔
        (Receipt.eqIgnoreAsciiCase signed.receipt.serverPubkey.toList (Text.trimChars expected.toList) = true →
          Receipt.Checkable S signed)) ∧
    (∀ proof, Returns proof.FieldsWellFormed (ReceiverProof.verifyReceiverProof D proof) ↔ ReceiverProof.Checkable D proof) ∧
    (∀ hex, (∃ parsed, Confirm.parseCommitment hex = .ok parsed ∧
        ∀ bytes, parsed = .ok bytes → Denotes (Text.trimChars hex.toList) bytes ∧ bytes.length = commitmentLen) ↔
      Confirm.Parses (Text.trimChars hex.toList)) := by
  refine ⟨decodeFixed_answers, decodeFixed_answers, decodeHex_answers, ?_, ?_, ?_, ?_, ?_⟩
  · intro bytes
    exact ⟨decodeFixed_encodeHex bytes, decodeFixed_encodeHex bytes, decodeHex_encodeHex bytes⟩
  · exact Receipt.verifyReceipt_returns S
  · exact Receipt.verifyReceiptFrom_returns S
  · exact ReceiverProof.verifyReceiverProof_returns D
  · exact Confirm.parseCommitment_returns

/-- Serialization and signatures that accept everything. -/
def lenientSchnorr : Schnorr Unit (List UInt8) where
  toVec _ := .ok []
  sha256 := id
  xonlyFromByteArray := .ok
  verifySchnorr _ _ _ := true

def receiptUnder (serverPubkey sig : String) : SignedReceipt Unit :=
  ⟨⟨1, "pay", 1, "", none, none, none, "2026-07-01T12:00:00Z", serverPubkey⟩, sig⟩

/-- A public key of 64 bytes whose second character takes two of them panics, as such an excess does; and
a plus sign and a digit are read as a byte. -/
theorem fields_panic :
    Receipt.verifyReceipt lenientSchnorr (receiptUnder (String.ofList ('a' :: 'é' :: List.replicate 61 '0')) "") =
        .error .slice ∧
      Confirm.parseCommitment "aé0" = .error .slice ∧
      Confirm.decodeHex "+f".toList = .ok (some [15]) ∧ ¬ ∃ bs, Denotes "+f".toList bs := by
  refine ⟨by decide, by decide, by decide, ?_⟩
  rintro ⟨bs, h⟩
  have hread : ∀ {a b bs}, Denotes [a, b] bs → hexDigit a ≠ none := by
    intro a b bs h
    cases h with
    | cons ha _ _ => simp [ha]
  exact hread h rfl

end GoblinPay
