import GoblinPay.Core.Endpub
import GoblinPay.Server.Config

/-!
# The key directory

`gp-server/src/directory.rs`: which secret belongs to a recipient's public key. The snapshot
of derived identities lives in memory and is rebuilt from the open derived invoices and the
watched endpubs, at boot and on every maintenance tick.
-/

namespace GoblinPay

open Async

abbrev Snapshot := List (String × Secret)

/-- `HashMap::insert`. -/
def Snapshot.insert (map : Snapshot) (pubkey : String) (secret : Secret) : Snapshot :=
  (pubkey, secret) :: map.filter fun entry => entry.1 ≠ pubkey

namespace Directory

section

variable {W : Type} (U : Upstream W)

/-- `keys_from_secret`. -/
def keysFromSecret (secret : Secret) : Option Secret := if U.isScalar secret then some secret else none

def resolve (master : Secret) (recipientHex : String) : Io (Option Secret) := do
  if recipientHex = U.xonlyHex master then pure (some master)
  else do
    let map ← Prog.call Eff.snapshot
    pure ((map.lookup recipientHex).bind (keysFromSecret U))

/-- A derived invoice's entry. -/
def insertInvoice (sk : Secret) (map : Snapshot) (row : String × Option String) : Snapshot :=
  map.insert (row.2.getD (Derive.invoicePubkeyHex U sk row.1)) (Derive.invoiceSecret U sk row.1)

/-- A watched endpub's entry. -/
def insertEndpub (sk : Secret) (map : Snapshot) (ep : Endpub) : Snapshot :=
  map.insert ep.pubkey (Derive.endpubSecret U sk ep.userId ep.epoch)

/-- A query that fails leaves its part of the snapshot out. -/
def buildSnapshot (sk : Secret) (defaultMode : MatchMode) (overlap : Int64) : Io Snapshot := do
  let derivedInvoices ← (sql (.selectDerivedInvoices defaultMode)).run
  let map := (derivedInvoices.toOption.getD []).foldl (insertInvoice U sk) []
  match ← (Endpub.watchedPubkeys overlap).run with
  | .ok endpubs => pure (endpubs.foldl (insertEndpub U sk) map)
  | .error _ => pure map

def refreshSnapshot (cfg : Config) (sk : Secret) : Io Unit := do
  let fresh ← buildSnapshot U sk cfg.matchMode cfg.endpubOverlapEpochs
  Prog.call (Eff.setSnapshot fresh)

/-- One tick of `spawn_maintenance`: advance the rotation, then rebuild the snapshot. -/
def maintenance (cfg : Config) (sk : Secret) : Io Unit := do
  if 0 < cfg.endpubRotateInterval then
    discard <| (Endpub.rotateDue U sk cfg.endpubRotateInterval).run
    refreshSnapshot U cfg sk
  else refreshSnapshot U cfg sk

end

end Directory

end GoblinPay
