import GoblinPay.Text
import GoblinPay.World

/-!
# The wallet

`gp-wallet/src/lib.rs` and `confirm.rs`. Every upstream call takes the instance lock for
itself, so other requests run between two of them and the process may stop there. The
`?` of the source turns an upstream error into `WalletError::Wallet`.
-/

namespace GoblinPay

open Async

inductive WalletError
  | config (m : String)
  | wallet (m : String)
  | slatepack (m : String)
  deriving DecidableEq, Repr

def WalletError.toText : WalletError → String
  | .config m => "wallet config error: " ++ m
  | .wallet m => "wallet error: " ++ m
  | .slatepack m => "slatepack error: " ++ m

def SlateState.debug : SlateState → String
  | .unknown => "Unknown"
  | .standard1 => "Standard1"
  | .standard2 => "Standard2"
  | .standard3 => "Standard3"
  | .invoice1 => "Invoice1"
  | .invoice2 => "Invoice2"
  | .invoice3 => "Invoice3"

/-- What a receive hands to the ledger. -/
structure Received where
  slateId : String
  amount : UInt64
  s2Armor : String
  kernelExcess : String
  proof : Option String
  deriving DecidableEq, Repr

structure Issued where
  slateId : String
  i1Armor : String
  deriving DecidableEq, Repr

structure FinalizedInvoice where
  slateId : String
  amount : UInt64
  kernelExcess : String
  deriving DecidableEq, Repr

structure ConfirmStatus where
  confirmed : Bool
  height : Option UInt64
  confirmations : Option UInt64
  kernelExcess : String
  deriving DecidableEq, Repr

namespace GpWallet

/-- An upstream call whose error becomes the given `WalletError`. -/
def upstream {α : Type} (e : Eff (Except String α)) (wrap : String → WalletError := .wallet) :
    ExceptT WalletError Io α := do
  match ← (Prog.call e : Io (Except String α)) with
  | .ok a => pure a
  | .error m => throw (wrap m)

/-- The excess the wallet logged for a slate, summed over both participants. -/
def slateKernelExcess (slateId : String) : ExceptT WalletError Io String := do
  match ← upstream (.retrieveTxs slateId) with
  | some excess => pure excess
  | none => throw (.wallet "tx has no recorded kernel excess")

def slatepackKind (armor : String) : ExceptT WalletError Io (String × SlateState) := do
  let slate ← upstream (.slateFromSlatepackMessage (Text.trim armor)) fun e =>
    .slatepack ("cannot read slatepack: " ++ e)
  pure (slate.id, slate.state)

section

variable {W : Type} (U : Upstream W)

/-- The receiver-side payment proof, when the payer's slate asked for one. -/
def buildProof (s2 : Slate) (amount : UInt64) (kernelExcess : String) : Except WalletError (Option String) :=
  match s2.paymentProof with
  | none => .ok none
  | some info =>
    match info.receiverSignature with
    | none => .ok none
    | some sig =>
      let proof : ReceiverProof := ⟨amount, kernelExcess, info.senderAddress, info.receiverAddress, sig⟩
      if U.verifyProof proof then
        match U.proofToJson proof with
        | .ok json => .ok (some json)
        | .error e => .error (.wallet ("serialize payment proof: " ++ e))
      else .error (.wallet "receive_tx produced a payment proof that does not verify")

/-- From the S2 on: what `receive_slatepack` and `receive_slate` record of a received slate.
The wallet has already logged it, so a failure in here leaves a received slate behind. -/
def bundle (s2 : Slate) (slateId : String) (amount : UInt64) : ExceptT WalletError Io Received := do
  let kernelExcess ← slateKernelExcess slateId
  let proof ← ExceptT.mk (Prog.ret (buildProof U s2 amount kernelExcess))
  let s2Armor ← upstream (.createSlatepackMessage s2)
  pure { slateId := s2.id, amount, s2Armor, kernelExcess, proof }

def receiveSlatepack (s1Armor : String) : ExceptT WalletError Io Received := do
  let slate ← upstream (.slateFromSlatepackMessage (Text.trim s1Armor)) fun e =>
    .slatepack ("cannot read slatepack: " ++ e)
  if slate.state = .standard1 then do
    let s2 ← upstream (.receiveTx slate)
    bundle U s2 slate.id slate.amount
  else throw (.slatepack ("expected an S1 (standard send) slatepack, got " ++ slate.state.debug))

/-- `receive_slate`: the Foreign API's receive, on a slate object. -/
def receiveSlate (inSlate : VersionedSlate) : ExceptT WalletError Io (VersionedSlate × Received) := do
  let slate := inSlate.slate
  if slate.state = .standard1 then do
    let s2 ← upstream (.receiveTx slate)
    let received ← bundle U s2 slate.id slate.amount
    let out ← upstream (.intoVersion s2 inSlate.version)
    pure (out, received)
  else throw (.slatepack ("expected an S1 (standard send) slate, got " ++ slate.state.debug))

/-- `cancel`: forget the stored context of an issued slate. -/
def cancel (slateId : String) : ExceptT WalletError Io Unit :=
  if U.isUuid slateId then upstream (.cancelTx slateId)
  else throw (.wallet ("bad slate id `" ++ slateId ++ "`: invalid UUID"))

end

def issueInvoice (amount : UInt64) : ExceptT WalletError Io Issued := do
  let i1 ← upstream (.issueInvoiceTx amount)
  if i1.state = .invoice1 then do
    let i1Armor ← upstream (.createSlatepackMessage i1)
    pure { slateId := i1.id, i1Armor }
  else throw (.wallet ("issue_invoice_tx produced unexpected slate state " ++ i1.state.debug))

/-- Complete a returned slate from the stored context and hand the transaction to the node.
`postTx` fails when the node URL is bad, the slate carries no transaction or no reply comes back; a
reply that refuses the transaction is a reply. The context is gone by then. -/
def finalizeAndPost (i2 : Slate) : ExceptT WalletError Io Slate := do
  let finalSlate ← upstream (.finalizeTx i2)
  upstream (.postTx finalSlate)
  pure finalSlate

def finalizeInvoiceSlatepack (i2Armor : String) : ExceptT WalletError Io FinalizedInvoice := do
  let i2 ← upstream (.slateFromSlatepackMessage (Text.trim i2Armor)) fun e =>
    .slatepack ("cannot read invoice slatepack: " ++ e)
  if i2.state = .invoice2 then do
    let finalSlate ← finalizeAndPost i2
    let kernelExcess ← slateKernelExcess finalSlate.id
    pure { slateId := i2.id, amount := i2.amount, kernelExcess }
  else throw (.slatepack ("expected an I2 (invoice return) slatepack, got " ++ i2.state.debug))

/-- `finalize_slate`: the Foreign API's finalize, on a slate object. -/
def finalizeSlate (inSlate : VersionedSlate) : ExceptT WalletError Io (VersionedSlate × FinalizedInvoice) := do
  let slate := inSlate.slate
  let finalSlate ← finalizeAndPost slate
  let kernelExcess ← slateKernelExcess finalSlate.id
  let out ← upstream (.intoVersion finalSlate inSlate.version)
  pure (out, { slateId := slate.id, amount := slate.amount, kernelExcess })

/-- `interpret`: depth from the tip and the kernel's height. -/
def interpret (tip : UInt64) (kernelHeight : Option UInt64) (excess : String) : ConfirmStatus :=
  match kernelHeight with
  | some height =>
    -- `saturating_sub`
    ⟨true, some height, some ((if height ≤ tip then tip - height else 0) + 1), excess⟩
  | none => ⟨false, none, none, excess⟩

def confirmStatus (excess : String) : ExceptT WalletError Io ConfirmStatus := do
  let tip ← upstream .chainTip fun e => .wallet ("node get_tip failed: " ++ e)
  let kernelHeight ← upstream (.getKernel excess) fun e => .wallet ("node get_kernel failed: " ++ e)
  pure (interpret tip kernelHeight excess)

end GpWallet

end GoblinPay
