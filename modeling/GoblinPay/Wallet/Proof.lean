import GoblinPay.Text.Hex
import GoblinPay.Upstream

/-!
# Receiver proofs

`gp-wallet/src/proof.rs`: the receiver's signature over amount, kernel excess and the payer's address.
The ed25519 library is a parameter.
-/

namespace GoblinPay

def addressLen : Nat := 32
def signatureLen : Nat := 64
def commitmentLen : Nat := 33

/-- `ed25519-dalek`: keys and signatures from bytes, and the verification. -/
structure Dalek (Key Signature : Type) where
  publicKeyFromBytes : List UInt8 → Except String Key
  signatureTryFrom : List UInt8 → Except String Signature
  verify : Key → List UInt8 → Signature → Bool

namespace ReceiverProof

open Hex

variable {Key Signature : Type} (D : Dalek Key Signature)

def encodeHex (bytes : List UInt8) : String := Hex.encodeHex bytes

def decodeFixed (n : Nat) (hex : String) : Except Panic (Option (List UInt8)) := Hex.decodeFixed n hex

/-- `u64::to_be_bytes`. -/
def toBeBytes (n : UInt64) : List UInt8 := (List.range 8).map fun i => UInt8.ofNat (n.toNat / 256 ^ (7 - i))

def proofMessage (amount : UInt64) (kernelExcess senderAddress : List UInt8) : List UInt8 :=
  toBeBytes amount ++ kernelExcess ++ senderAddress

def verifyReceiverProof (proof : ReceiverProof) : Except Panic Bool :=
  letSome (decodeFixed commitmentLen proof.kernelExcess) fun excess =>
  letSome (decodeFixed addressLen proof.senderAddress) fun sender =>
  letSome (decodeFixed addressLen proof.recipientAddress) fun recipient =>
  letSome (decodeFixed signatureLen proof.recipientSig) fun sigBytes =>
  letOk (D.publicKeyFromBytes recipient) fun recipientKey =>
  letOk (D.signatureTryFrom sigBytes) fun signature =>
  pure (D.verify recipientKey (proofMessage proof.amount excess sender) signature)

/-- All four fields are hexadecimal digits of their length. -/
structure FieldsWellFormed (proof : ReceiverProof) : Prop where
  kernelExcess : WellFormed commitmentLen proof.kernelExcess
  senderAddress : WellFormed addressLen proof.senderAddress
  recipientAddress : WellFormed addressLen proof.recipientAddress
  recipientSig : WellFormed signatureLen proof.recipientSig

/-- Each field the check comes to is safe, and what it reads from malformed ones is no signature. -/
def Checkable (proof : ReceiverProof) : Prop :=
  Safe commitmentLen proof.kernelExcess ∧ ∀ excess, Field commitmentLen proof.kernelExcess excess →
    Safe addressLen proof.senderAddress ∧ ∀ sender, Field addressLen proof.senderAddress sender →
      Safe addressLen proof.recipientAddress ∧ ∀ recipient, Field addressLen proof.recipientAddress recipient →
        Safe signatureLen proof.recipientSig ∧ ∀ sigBytes, Field signatureLen proof.recipientSig sigBytes →
          ∀ recipientKey, D.publicKeyFromBytes recipient = .ok recipientKey →
            ∀ signature, D.signatureTryFrom sigBytes = .ok signature →
              D.verify recipientKey (proofMessage proof.amount excess sender) signature = true → proof.FieldsWellFormed

theorem verifyReceiverProof_returns (proof : ReceiverProof) :
    Returns proof.FieldsWellFormed (verifyReceiverProof D proof) ↔ Checkable D proof := by
  unfold verifyReceiverProof Checkable decodeFixed
  simp only [returns_field, returns_letOk, returns_pure]

end ReceiverProof

end GoblinPay
