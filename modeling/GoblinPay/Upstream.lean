import Mathlib.Algebra.Order.Ring.Int
import Mathlib.Data.Option.Basic

/-!
# Third-party code

What the server calls and does not contain: the grin wallet and node libraries, secp256k1
and SHA-256, and the events and the encryption of nostr. `Upstream W` takes them as functions
on a wallet state `W`; a result that needs more of them than their types names it as a
hypothesis (`Upstream.Lawful`).
-/

namespace GoblinPay

abbrev Secret := List UInt8

inductive SlateState
  | unknown | standard1 | standard2 | standard3 | invoice1 | invoice2 | invoice3
  deriving DecidableEq, Repr

/-- grin's compact state names. -/
def SlateState.toText : SlateState → String
  | .unknown => "NA"
  | .standard1 => "S1"
  | .standard2 => "S2"
  | .standard3 => "S3"
  | .invoice1 => "I1"
  | .invoice2 => "I2"
  | .invoice3 => "I3"

structure ProofInfo where
  senderAddress : String
  receiverAddress : String
  receiverSignature : Option String
  deriving DecidableEq, Repr

/-- The part of a grin slate the server reads. -/
structure Slate where
  id : String
  state : SlateState
  amount : UInt64
  paymentProof : Option ProofInfo
  deriving DecidableEq, Repr

/-- A slate in one of the JSON versions of the Foreign API. -/
structure VersionedSlate where
  version : Nat
  slate : Slate
  deriving DecidableEq, Repr

/-- `gp_wallet::proof::ReceiverProof`. -/
structure ReceiverProof where
  amount : UInt64
  kernelExcess : String
  senderAddress : String
  recipientAddress : String
  recipientSig : String
  deriving DecidableEq, Repr

/-- A signed nostr event: a gift wrap as it comes from a relay, or the seal inside one. -/
structure NostrEvent where
  id : String
  kind : Nat
  pubkey : String
  content : String
  tags : List (List String)
  createdAt : UInt64
  sig : String
  deriving DecidableEq, Repr

/-- The rumor inside a seal, with its id. -/
structure UnsignedEvent where
  id : String
  kind : Nat
  pubkey : String
  content : String
  tags : List (List String)
  createdAt : UInt64
  deriving DecidableEq, Repr

/-- A locked price: `nanogrin` for the fiat amount, the rate as printed, its source. -/
structure Quote where
  nanogrin : UInt64
  rate : String
  source : String
  deriving DecidableEq, Repr

/-- What the environment contributes to one operation. A set `fault` makes a fallible
operation fail with that text; the other fields are what a successful one may depend on. -/
structure Answer where
  fault : Option String := none
  /-- the node takes the transaction it is handed, whatever its reply makes of it -/
  accepted : Bool := true
  /-- the row SQLite returns where a query leaves the order open -/
  choice : Nat := 0
  /-- the id drawn by the random generator -/
  text : String := ""
  /-- the node's chain tip, and the height of the kernel asked for -/
  tip : UInt64 := 0
  kernelHeight : Option UInt64 := none
  quote : Quote := ⟨0, "0", ""⟩
  deriving DecidableEq, Repr

structure Upstream (W : Type) where
  -- grin_wallet_libwallet, over the wallet instance behind its lock
  slateFromSlatepackMessage : W → String → Except String Slate
  createSlatepackMessage : W → Slate → Except String String
  receiveTx : Answer → Slate → W → Except String Slate × W
  issueInvoiceTx : Answer → UInt64 → W → Except String Slate × W
  finalizeTx : Answer → Slate → W → Except String Slate × W
  cancelTx : Answer → String → W → Except String Unit × W
  /-- the kernel excess the tx log records for a slate -/
  loggedExcess : W → String → Option String
  /-- the wallet stores a signing context for this slate (written by `issue_invoice_tx`) -/
  holdsContext : W → String → Bool
  /-- the tx log records this slate as received, or as issued -/
  hasReceived : W → String → Bool
  hasIssued : W → String → Bool
  intoVersion : Slate → Nat → Except String VersionedSlate
  isUuid : String → Bool
  verifyProof : ReceiverProof → Bool
  proofToJson : ReceiverProof → Except String String
  -- secp256k1 and sha2
  sha256 : List UInt8 → Secret
  isScalar : Secret → Bool
  xonlyHex : Secret → String
  -- nostr_sdk and nip44
  publicKeyFromHex : String → Option String
  payloadVersion : String → Except String Nat
  decryptV2 : Secret → String → String → Except String String
  /-- under the conversation key of a secret and a public key, bound to an event kind -/
  decryptV3 : Secret → String → String → Nat → Except String String
  eventFromJson : String → Except String NostrEvent
  verifyEvent : NostrEvent → Except String Unit
  unsignedEventFromJson : String → Except String UnsignedEvent

namespace Upstream

variable {W : Type}

/-- How the grin wallet behaves, as its documentation has it: a slate is received once, an
issued slate gets a new id and a context, finalizing consumes the context, cancelling
removes it, and no operation touches another slate's. -/
structure Lawful (U : Upstream W) : Prop where
  receive_new : ∀ {x s w s' w'}, U.receiveTx x s w = (.ok s', w') → s'.id = s.id ∧ ¬ U.hasReceived w s.id
  receive_logs : ∀ {x s w s' w'}, U.receiveTx x s w = (.ok s', w') →
    ∀ id, U.hasReceived w' id ↔ id = s.id ∨ U.hasReceived w id
  receive_error : ∀ {x s w m w'}, U.receiveTx x s w = (.error m, w') →
    ∀ id, U.hasReceived w' id ↔ U.hasReceived w id
  receive_context : ∀ x s w id, U.holdsContext (U.receiveTx x s w).2 id ↔ U.holdsContext w id
  receive_issued : ∀ x s w id, U.hasIssued (U.receiveTx x s w).2 id ↔ U.hasIssued w id
  issue_new : ∀ {x a w s' w'}, U.issueInvoiceTx x a w = (.ok s', w') → ¬ U.hasIssued w s'.id
  issue_context : ∀ {x a w s' w'}, U.issueInvoiceTx x a w = (.ok s', w') →
    ∀ id, U.holdsContext w' id ↔ id = s'.id ∨ U.holdsContext w id
  issue_logs : ∀ {x a w s' w'}, U.issueInvoiceTx x a w = (.ok s', w') →
    ∀ id, U.hasIssued w' id ↔ id = s'.id ∨ U.hasIssued w id
  issue_error : ∀ {x a w m w'}, U.issueInvoiceTx x a w = (.error m, w') → ∀ id,
    (U.holdsContext w' id ↔ U.holdsContext w id) ∧ (U.hasIssued w' id ↔ U.hasIssued w id)
  finalize_context : ∀ {x s w s' w'}, U.finalizeTx x s w = (.ok s', w') →
    U.holdsContext w s.id ∧ ∀ id, U.holdsContext w' id ↔ id ≠ s.id ∧ U.holdsContext w id
  finalize_error : ∀ {x s w m w'}, U.finalizeTx x s w = (.error m, w') →
    ∀ id, U.holdsContext w' id ↔ U.holdsContext w id
  finalize_issued : ∀ x s w id, U.hasIssued (U.finalizeTx x s w).2 id ↔ U.hasIssued w id
  cancel_context : ∀ {x sid w w'}, U.cancelTx x sid w = (.ok (), w') →
    ∀ id, U.holdsContext w' id ↔ id ≠ sid ∧ U.holdsContext w id
  cancel_error : ∀ {x sid w m w'}, U.cancelTx x sid w = (.error m, w') →
    ∀ id, U.holdsContext w' id ↔ U.holdsContext w id
  cancel_issued : ∀ x sid w id, U.hasIssued (U.cancelTx x sid w).2 id ↔ U.hasIssued w id

end Upstream

end GoblinPay
