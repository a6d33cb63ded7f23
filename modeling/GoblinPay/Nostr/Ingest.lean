import GoblinPay.Nostr.Protocol
import GoblinPay.Nostr.Wrap
import GoblinPay.Server.Directory
import GoblinPay.Server.Ingest

/-!
# The ingest pipeline

`gp-nostr/src/ingest.rs`: what becomes of one gift wrap. The markers of processed wraps, rumors
and slates and the rate windows are in memory only.
-/

namespace GoblinPay

open Async

inductive IngestDecision
  | autoReceive
  | drop (reason : String)
  deriving DecidableEq, Repr

structure IngestContext where
  sender : String
  isSelf : Bool
  rumorIsDm : Bool
  hasSlatepack : Bool
  duplicate : Bool
  deriving DecidableEq, Repr

/-- `decide`: everyone is received from. -/
def IngestContext.decide (ctx : IngestContext) : IngestDecision :=
  if ctx.duplicate then .drop "already processed"
  else if ctx.isSelf then .drop "own message"
  else if !ctx.rumorIsDm then .drop "not a kind 14 DM"
  else if !ctx.hasSlatepack then .drop "no slatepack payload"
  else .autoReceive

/-- A reply rumor, not yet wrapped, with the keys it is sent from. -/
structure PendingReply where
  sender : Secret
  payer : String
  content : String
  tags : List (List String)
  deriving DecidableEq, Repr

inductive IngestOutcome
  | received (slateId : String) (amount : UInt64) (reply : PendingReply)
  | dropped (reason : String)
  | rateLimited
  | failed (m : String)
  deriving DecidableEq, Repr

namespace Ingest

def ratePerSenderPerHour : Nat := 10
def globalUnwrapPerMin : Nat := 120
def rateMapCap : Nat := 10000

def privateDirectMessage : Nat := 14

def isSeen (key : String) : Io Bool := Prog.call (Eff.isSeen key)

def mark (key : String) : Io Unit := Prog.call (Eff.mark key)

def allowSender (sender : String) : Io Bool :=
  Prog.call (Eff.allow sender ratePerSenderPerHour 3600 (some rateMapCap))

def allowGlobalUnwrap : Io Bool := Prog.call (Eff.allow "\x00global" globalUnwrapPerMin 60 none)

def buildReply (sender : Secret) (payer s2Armor : String) : PendingReply where
  sender := sender
  payer := payer
  content := Protocol.buildPaymentContent s2Armor
  tags := Protocol.buildRumorTags none ++ [["p", payer]]

section

variable {W : Type} (U : Upstream W) (cfg : Config) (master : Secret)

/-- The message shape of an opened wrap. -/
def context (unwrapped : Unwrapped) (duplicate : Bool) : IngestContext where
  sender := unwrapped.sender
  isSelf := unwrapped.sender = U.xonlyHex master
  rumorIsDm := unwrapped.rumor.kind = privateDirectMessage &&
    decide (Text.bytes unwrapped.rumor.content.toList ≤ Protocol.maxRumorContent)
  hasSlatepack := (Protocol.extractSlatepack unwrapped.rumor.content).isSome
  duplicate := duplicate

/-- Drop a wrap and its rumor for good. -/
def drop (wrapId rumorId reason : String) : Io IngestOutcome := do
  mark wrapId
  mark rumorId
  pure (.dropped reason)

/-- Hand the armor to the wallet, and mark what need not be tried again. -/
def handOff (wrapId : String) (recipientKeys : Secret) (unwrapped : Unwrapped) : Io IngestOutcome := do
  let armor := (Protocol.extractSlatepack unwrapped.rumor.content).getD ""
  let ctx : IncomingContext :=
    ⟨unwrapped.sender, U.xonlyHex recipientKeys, Protocol.extractSubject unwrapped.rumor.tags⟩
  match ← WalletReceiver.receive U cfg armor ctx with
  | .ok payment =>
    mark wrapId
    mark unwrapped.rumor.id
    mark ("slate:" ++ payment.slateId)
    pure (.received payment.slateId payment.amount (buildReply recipientKeys unwrapped.sender payment.s2Armor))
  | .error .duplicate => drop wrapId unwrapped.rumor.id "slate already received"
  | .error (.rejected _) => drop wrapId unwrapped.rumor.id "invalid slatepack"
  -- unmarked: the next catch-up retries it
  | .error (.failed m) => pure (.failed m)

/-- An opened wrap: policy, then the sender's rate limit. -/
def screen (wrapId : String) (recipientKeys : Secret) (unwrapped : Unwrapped) : Io IngestOutcome := do
  let duplicate ← isSeen unwrapped.rumor.id
  match (context U master unwrapped duplicate).decide with
  | .drop reason => drop wrapId unwrapped.rumor.id reason
  | .autoReceive =>
    if ← allowSender unwrapped.sender then handOff U cfg wrapId recipientKeys unwrapped
    else pure .rateLimited

/-- Which of our identities a wrap addresses, by its public `p` tag. -/
def recipientKeys (event : NostrEvent) : Io (Option Secret) :=
  match Protocol.tagValue "p" event.tags with
  | some recipientHex => Directory.resolve U master recipientHex
  | none => pure none

/-- A wrap within the size cap that was not seen before. -/
def openWrap (event : NostrEvent) : Io IngestOutcome := do
  match ← recipientKeys U master event with
  | none =>
    mark event.id
    pure (.dropped "not a watched identity")
  | some recipientKeys =>
    match Wrap.unwrapGiftWrap U recipientKeys event with
    | .error _ =>
      mark event.id
      pure (.dropped "unwrap failed")
    | .ok unwrapped => screen U cfg master event.id recipientKeys unwrapped

def handleWrap (event : NostrEvent) : Io IngestOutcome := do
  if event.kind ≠ Wrap.wrapKind then pure (.dropped "not a gift wrap")
  else if Protocol.maxWrapContent < Text.bytes event.content.toList then
    mark event.id
    pure (.dropped "oversized wrap")
  else if ← isSeen event.id then pure (.dropped "already processed")
  else if ← allowGlobalUnwrap then openWrap U cfg master event
  else pure .rateLimited

end

end Ingest

end GoblinPay
