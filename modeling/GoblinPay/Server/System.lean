import GoblinPay.Change
import GoblinPay.Nostr.Service
import GoblinPay.Server.Checkout
import GoblinPay.Server.Invoices
import GoblinPay.Server.Payments

/-!
# The running server

Every request, every relay event and every background pass is one `Call`; a run interleaves
any number of them at the granularity of single operations. `receive` and `settle` are
`persist_and_match` and `settle_finalized` on any arguments: the Nostr ingest, the paste form
and the Foreign API, which are calls of their own as well, write payments through these two
only.
-/

namespace GoblinPay

open Async

inductive Call
  /-- `POST /invoice` -/
  | createInvoice (cfg : Config) (quoteTtl : Int64) (body : CreateInvoiceBody)
  /-- `GET /invoice/{id}` -/
  | getInvoice (id : String)
  /-- the pay page and its status poll -/
  | payStatus (token : String)
  /-- the admin listing -/
  | listInvoices (limit : Int64)
  | receive (received : Received) (payerHex : Option String) (recipientHex : String)
      (memo : Option String) (defaultMode : MatchMode) (webhook : Option (String × String))
  | settle (finalized : FinalizedInvoice) (webhook : Option (String × String))
  /-- `receive_tx` and `finalize_tx` of the Foreign API -/
  | foreignReceive (cfg : Config) (slate : VersionedSlate)
  | foreignFinalize (cfg : Config) (slate : VersionedSlate)
  /-- `POST /pay/{token}/slatepack` -/
  | manualSlatepack (cfg : Config) (token armor : String)
  /-- a gift wrap from the relays, for the identity `master` -/
  | handleEvent (cfg : Config) (master : Secret) (event : NostrEvent)
  /-- a process start -/
  | boot (cfg : Config) (master : Secret)
  | maintenance (cfg : Config) (master : Secret)
  /-- the admin API over per-user endpubs -/
  | createUser (master : Secret) (id : Option String) (rotateInterval : Option Int64)
  | rotateUser (master : Secret) (id : String)
  | setRotateInterval (id : String) (interval : Option Int64)
  | listUsers
  | confirmPoll (policy : ConfirmPolicy) (passes : Nat)
  | expirySweep
  | elapse (secs : Nat)
  deriving DecidableEq

/-- What a call reports. Only the outcome of a receive is told apart. -/
inductive Reply
  | persisted (outcome : PersistOutcome)
  | done
  deriving DecidableEq

section

variable {W : Type} (U : Upstream W)

def Prog.done {α : Type} (p : Io α) : Io Reply := p >>= fun _ => pure .done

def code : Call → Io Reply
  | .createInvoice cfg ttl body => Prog.done (Invoices.createInvoice U cfg ttl body)
  | .getInvoice id => Prog.done (Invoices.getInvoice id)
  | .payStatus token => Prog.done (Checkout.payStatus token)
  | .listInvoices limit => Prog.done (Invoice.list limit).run
  | .receive received payer recipient memo mode webhook =>
    .persisted <$> Record.persistAndMatch received payer recipient memo mode webhook
  | .settle finalized webhook => Prog.done (Foreign.settleFinalized finalized webhook)
  | .foreignReceive cfg slate => Prog.done (Foreign.receiveTx U cfg slate)
  | .foreignFinalize cfg slate => Prog.done (Foreign.finalizeTx cfg slate)
  | .manualSlatepack cfg token armor => Prog.done (Checkout.manualSlatepack U cfg token armor)
  | .handleEvent cfg master event => Prog.done (Service.handle U cfg master event)
  | .boot cfg master => Prog.done (Service.boot U cfg master)
  | .maintenance cfg master => Prog.done (Directory.maintenance U cfg master)
  | .createUser master id interval => Prog.done (Endpub.createUser U master id interval).run
  | .rotateUser master id => Prog.done (Endpub.rotate U master id).run
  | .setRotateInterval id interval => Prog.done (Endpub.setRotateInterval id interval).run
  | .listUsers => Prog.done Endpub.listWithBalances.run
  | .confirmPoll policy passes => Prog.done (Payments.confirmPoll policy passes)
  | .expirySweep => Prog.done (Foreign.expirySweep U)
  | .elapse secs => Prog.done (Prog.call (Eff.elapse secs))

abbrev Run := List (Move Call Answer)
abbrev Happening (W : Type) := Event Eff Call Answer (World W)
abbrev Server (W : Type) := Pool Eff Call (World W) Reply

/-- The operations of the run `ms` from the state `w`. -/
def history (w : World W) (ms : Run) : List (Happening W) :=
  Pool.trace (handler U) (code U) (Pool.start w) ms

/-- The server after the run `ms` from the state `w`. -/
def after (w : World W) (ms : Run) : Server W := Pool.run (handler U) (code U) (Pool.start w) ms

/-- A server that has nothing yet. -/
def World.fresh (wallet : W) (now : Time) : World W := ⟨.empty, now, wallet, [], [], .empty⟩

theorem World.fresh_invoice {wallet : W} {now : Time} {i : String} {inv : Invoice}
    (h : (World.fresh wallet now).db.invoice.get i = some inv) : False := by
  cases h

end

end GoblinPay
