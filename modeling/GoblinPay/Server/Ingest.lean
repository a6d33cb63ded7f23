import GoblinPay.Server.Config
import GoblinPay.Server.Record

/-!
# The wallet receiver

`gp-server/src/ingest.rs`: how the Nostr pipeline hands a slatepack to the wallet and the
database, and how a stored reply is found again after a restart.
-/

namespace GoblinPay

open Async

structure IncomingContext where
  payerHex : String
  recipientHex : String
  memo : Option String
  deriving DecidableEq, Repr

structure ReceivedPayment where
  slateId : String
  amount : UInt64
  s2Armor : String
  deriving DecidableEq, Repr

inductive ReceiveError
  /-- drop the wrap for good: the slate was received before -/
  | duplicate
  /-- drop the wrap for good: the slatepack is no payment -/
  | rejected (m : String)
  /-- leave the wrap unmarked, so that the next catch-up retries it -/
  | failed (m : String)
  deriving DecidableEq, Repr

structure UnrepliedPayment where
  slateId : String
  payerHex : String
  s2Armor : String
  recipientHex : String
  deriving DecidableEq, Repr

namespace WalletReceiver

/-- How a wallet error is told apart: grin reports a repeated receive by its message. -/
def receiveError : WalletError → ReceiveError
  | .slatepack m => .rejected m
  | .wallet m =>
    if Text.contains m "already been received" then .duplicate else .failed (WalletError.wallet m).toText
  | other => .failed other.toText

def mismatchText (m : AmountMismatch) : String :=
  "payment pays " ++ toString m.received ++ " nanogrin but the invoice expects exactly " ++
    toString m.expected ++ " nanogrin"

/-- Past the matching: a slate that pays the wrong amount gets no reply. -/
def outcome (received : Received) : PersistOutcome → Except ReceiveError ReceivedPayment
  | .matched _ => .ok ⟨received.slateId, received.amount, received.s2Armor⟩
  | .rejected m => .error (.rejected (mismatchText m))

section

variable {W : Type} (U : Upstream W) (cfg : Config)

def receive (s1Armor : String) (ctx : IncomingContext) : Io (Except ReceiveError ReceivedPayment) := do
  match ← (GpWallet.receiveSlatepack U s1Armor).run with
  | .error e => pure (.error (receiveError e))
  | .ok received =>
    outcome received <$> Record.persistAndMatch received (some ctx.payerHex) ctx.recipientHex ctx.memo
      cfg.matchMode cfg.webhookPair

end

/-- A failed update is logged. -/
def markReplied (slateId : String) : Io Unit := discard <| (sql (.markReplied slateId)).run

def unrepliedPayment (row : String × String × String × Option String) : UnrepliedPayment where
  slateId := row.1
  payerHex := row.2.1
  s2Armor := row.2.2.1
  recipientHex := row.2.2.2.getD ""

/-- A failed query counts as nothing to do. -/
def unreplied : Io (List UnrepliedPayment) := do
  let rows ← (sql .selectUnreplied).run
  pure ((rows.toOption.getD []).map unrepliedPayment)

end WalletReceiver

end GoblinPay
