import GoblinPay.Upstream

/-!
# Opening a gift wrap

`gp-nostr/src/wrap.rs`: the wrap is decrypted to a seal and the seal to a rumor, each layer by
the NIP-44 version its payload names. The keys of an identity are its secret.
-/

namespace GoblinPay

inductive WrapError
  | notGiftWrap
  | notSeal
  | senderMismatch
  | crypto (m : String)
  | event (m : String)
  deriving DecidableEq, Repr

/-- An opened gift wrap: the seal-verified sender and the rumor. -/
structure Unwrapped where
  sender : String
  rumor : UnsignedEvent
  deriving DecidableEq, Repr

namespace Wrap

def sealKind : Nat := 13
def wrapKind : Nat := 1059

variable {W : Type} (U : Upstream W)

def decryptLayer (keys : Secret) (author content : String) (expectedKind : Nat) : Except WrapError String := do
  match ← (U.payloadVersion content).mapError WrapError.crypto with
  | 2 => (U.decryptV2 keys author content).mapError .crypto
  | 3 => (U.decryptV3 keys author content expectedKind).mapError .crypto
  | v => throw (.crypto ("unsupported nip44 version " ++ toString v))

def unwrapGiftWrap (receiver : Secret) (wrap : NostrEvent) : Except WrapError Unwrapped := do
  if wrap.kind ≠ wrapKind then throw .notGiftWrap
  let sealJson ← decryptLayer U receiver wrap.pubkey wrap.content wrapKind
  let sealed ← (U.eventFromJson sealJson).mapError .event
  (U.verifyEvent sealed).mapError .event
  if sealed.kind ≠ sealKind then throw .notSeal
  let rumorJson ← decryptLayer U receiver sealed.pubkey sealed.content sealKind
  let rumor ← (U.unsignedEventFromJson rumorJson).mapError .event
  if rumor.pubkey ≠ sealed.pubkey then throw .senderMismatch
  pure ⟨sealed.pubkey, rumor⟩

end Wrap

end GoblinPay
