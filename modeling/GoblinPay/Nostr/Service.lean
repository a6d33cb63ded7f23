import GoblinPay.Nostr.Ingest

/-!
# The relay service

`gp-nostr/src/service.rs`: every wrap is handled to the end before the next one, and a stored
reply that never verifiably left is dispatched again at boot. The optional notification
messages touch nothing and are left out.
-/

namespace GoblinPay.Service

open Async

section

variable {W : Type} (U : Upstream W)

def deliverReply (reply : PendingReply) : Io Bool :=
  Prog.call (Eff.deliver ⟨U.xonlyHex reply.sender, reply.payer, reply.content, reply.tags⟩)

/-- Dispatch a reply and, once a relay took it, mark its payment. -/
def reply (slateId : String) (pending : PendingReply) : Io Unit := do
  if ← deliverReply U pending then WalletReceiver.markReplied slateId
  -- left in status `received` for the next boot
  else pure ()

variable (cfg : Config) (master : Secret)

/-- One incoming event, end to end. -/
def handle (event : NostrEvent) : Io Unit := do
  match ← Ingest.handleWrap U cfg master event with
  | .received slateId _ pending => reply U slateId pending
  | .dropped _ => pure ()
  | .rateLimited => pure ()
  | .failed _ => pure ()

/-- One stored reply: skipped when the payer's key does not parse or the identity that
received it is not in the directory. -/
def redispatch (pending : UnrepliedPayment) : Io Unit := do
  match U.publicKeyFromHex pending.payerHex with
  | none => pure ()
  | some payer =>
    match ← Directory.resolve U master pending.recipientHex with
    | none => pure ()
    | some keys => reply U pending.slateId (Ingest.buildReply keys payer pending.s2Armor)

def redispatchAll : List UnrepliedPayment → Io Unit
  | [] => pure ()
  | pending :: rest => do
    redispatch U master pending
    redispatchAll rest

def reconcile : Io Unit := do
  let pending ← WalletReceiver.unreplied
  redispatchAll U master pending

/-- `start_ingest` up to the subscription: seed the snapshot, then reconcile. -/
def boot : Io Unit := do
  Prog.call Eff.restart
  Directory.refreshSnapshot U cfg master
  reconcile U master

end

end GoblinPay.Service
