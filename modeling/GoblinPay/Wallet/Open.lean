import GoblinPay.Server.Host
import GoblinPay.Wallet.GpWallet

/-!
# Opening the wallet

`GpWallet::open_at` in `gp-wallet/src/lib.rs`: a wallet that is there is opened with its password alone, and is created from
a mnemonic only where there is none. An opened wallet is known by its seed.
-/

namespace GoblinPay.Till

open Async

structure Wallet where
  seed : Seed
  nodeUrl : String
  deriving DecidableEq

/-- `{:?}` of a path without characters to escape -/
def debugPath (path : String) : String := "\"" ++ path ++ "\""

def restrictPermissions (path : String) (mode : Nat) : ExceptT WalletError HostIo Unit :=
  attempt (.setPermissions path mode) fun e => .config s!"cannot chmod {debugPath path}: {e}"

def Chain.debug : Env.Chain → String
  | .mainnet => "Mainnet"
  | .testnet => "Testnet"

/-- The chain type is set once for a process. -/
def initChainType (chain : Env.Chain) : ExceptT WalletError HostIo Unit := do
  let set ← liftM (Prog.call (Act.initChainType chain))
  if set = some chain then pure ()
  else
    let set := (set.map Chain.debug).getD ""
    throw (.config s!"chain type already initialized to {set}, cannot switch to {Chain.debug chain}")

/-- A wallet that is there must be of the mnemonic, if one is given; one that is not is created from it. -/
def provide (topDir : String) (mnemonic : Option String) (password : String) (found : Bool) :
    ExceptT WalletError HostIo Unit :=
  match found, mnemonic with
  | true, none => pure ()
  | true, some mnemonic => do
    let existing ← attempt (.getMnemonic topDir password) WalletError.wallet
    if existing = mnemonic then pure ()
    else throw (.config (s!"data dir {debugPath topDir} already holds a wallet created from a " ++ "different mnemonic; refusing to open"))
  | false, none =>
    throw (.config ("first-run wallet creation requires GP_MNEMONIC (or GP_MNEMONIC_FILE); none was provided and no wallet exists " ++
      "yet at this data dir"))
  | false, some mnemonic => attempt (.createWallet topDir mnemonic password) WalletError.wallet

def openAt (dataDir : String) (mnemonic : Option String) (password nodeUrl : String) (chain : Env.Chain) :
    ExceptT WalletError HostIo Wallet := do
  initChainType chain
  let topDir := join dataDir "wallet"
  attempt (.createDirAll topDir) fun e => WalletError.config s!"cannot create {debugPath topDir}: {e}"
  restrictPermissions dataDir 0o700
  restrictPermissions topDir 0o700
  attempt (.nodeClient nodeUrl) fun e => WalletError.config s!"bad node URL `{nodeUrl}`: {e}"
  let found ← attempt (.walletExists topDir) WalletError.wallet
  provide topDir mnemonic password found
  let seed ← attempt (.openWallet topDir password) WalletError.wallet
  restrictPermissions (join topDir "wallet_data") 0o700
  restrictPermissions (seedPath dataDir) 0o600
  pure ⟨seed, nodeUrl⟩

/-- `GpWallet::open` -/
def openConfigured (cfg : Env.Config) : ExceptT WalletError HostIo Wallet :=
  match cfg.walletPassword with
  | none =>
    throw (.config "GP_WALLET_PASSWORD (or GP_WALLET_PASSWORD_FILE) is required to open the wallet (it decrypts the seed at rest)")
  | some password => openAt cfg.dataDir (cfg.mnemonic.map Env.Secret.reveal) password.reveal cfg.nodeUrl cfg.chain

end GoblinPay.Till
