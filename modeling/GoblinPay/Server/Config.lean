import GoblinPay.Core.Schema
import GoblinPay.Upstream

/-!
# Configuration

The settings the modelled functions read, and the outcome of an HTTP handler.
-/

namespace GoblinPay

structure Config where
  matchMode : MatchMode
  webhookUrl : Option String
  webhookSecret : Option String
  confirmationsRequired : Int64
  grin1Rail : Bool
  /-- the server identity, absent with ingest off -/
  keys : Option Secret
  /-- whether a wallet is loaded -/
  walletLoaded : Bool
  endpubOverlapEpochs : Int64
  endpubRotateInterval : Int64
  deriving DecidableEq, Repr

namespace Config

/-- `foreign::webhook_pair`: the URL and the secret, when both are configured. -/
def webhookPair (cfg : Config) : Option (String × String) :=
  match cfg.webhookUrl, cfg.webhookSecret with
  | some url, some secret => some (url, secret)
  | _, _ => none

end Config

/-- An HTTP error: status and message. -/
structure HttpError where
  code : Nat
  message : String
  deriving DecidableEq, Repr

end GoblinPay
