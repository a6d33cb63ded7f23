import GoblinPay.Core.Secrecy
import GoblinPay.Nostr.Identity
import GoblinPay.Server.Wizard

/-!
# The start

`gp-server/src/main.rs`: the flags of `gp-server setup`, the first run, which goes through the wizard and on from the file it
wrote, and what a start opens before it serves: the wallet and the payment identity.
-/

namespace GoblinPay.Till

open Async Setup

/-- `DEFAULT_ENV_FILE` -/
def defaultEnvFile : String := "/etc/goblinpay.env"

def setupUsage : String := "usage: gp-server setup [--reconfigure] [--prefix DIR] [--node URL] [--batch]"

/-- The flags of `run_setup`, from the options set so far; the error is what is printed. -/
def parseFlags (opts : SetupOptions) : List String → Except String SetupOptions
  | [] => .ok opts
  | "--reconfigure" :: args => parseFlags { opts with reconfigure := true } args
  | "--batch" :: args => parseFlags { opts with forceRun := true } args
  | "--prefix" :: dir :: args => parseFlags { opts with prefixDir := some dir } args
  | "--prefix" :: [] => .error "--prefix needs a directory argument"
  | "--node" :: url :: args => parseFlags { opts with nodeOverride := some url } args
  | "--node" :: [] => .error "--node needs a URL argument"
  | other :: _ => .error (s!"unknown setup flag `{other}`\n" ++ setupUsage)

/-- No option is set. -/
def SetupOptions.plain (stdinIsTty : Bool) : SetupOptions where
  reconfigure := false
  prefixDir := none
  nodeOverride := none
  forceRun := false
  stdinIsTty := stdinIsTty

/-- What a start goes on with, or the code it exits with. -/
inductive Boot
  | ready (cfg : Env.Config)
  | exit (code : Nat)

/-- An error ends the process, with its text printed. -/
def failing {ε α : Type} (front : String) (text : ε → String) (m : ExceptT ε HostIo α) : ExceptT String HostIo α :=
  ExceptT.mk (m.run >>= fun r => .ret (r.mapError fun e => front ++ text e))

section

variable (lower : String → String) (tools : Tools)

/-- `run_setup`, with its exit code. -/
def runSetup (stdinIsTty : Bool) (args : List String) : HostIo Nat :=
  match parseFlags (.plain stdinIsTty) args with
  | .error e => Prog.call (Act.say (e ++ "\n")) >>= fun _ => .ret 2
  | .ok opts => (run lower tools opts).run >>= fun
    | .ok _ => .ret 0
    | .error e => Prog.call (Act.say s!"setup: {e}\n") >>= fun _ => .ret 1

def needsFirstRunSetup (cfg : Env.Config) (envFileExists : Bool) : HostIo Bool :=
  if cfg.ingest && cfg.mnemonic.isNone && cfg.walletPassword.isNone then
    Prog.call (Act.pathExists (seedPath cfg.dataDir)) >>= fun seed => .ret (!seed && !envFileExists)
  else .ret false

/-- Behind the wizard: the process goes on from the file, and ends where it gives no configuration. -/
def bootWritten : Except String Unit → HostIo Boot
  | .error e => Prog.call (Act.say s!"setup: {e}\n") >>= fun _ => .ret (.exit 1)
  | .ok _ =>
    Prog.call (Act.writtenConfig lower defaultEnvFile) >>= fun
    | .ok cfg => .ret (.ready cfg)
    | .error _ =>
      Prog.call (Act.say ("\nSetup complete. Start the service when you are ready:\n" ++ "  sudo systemctl start gp-server\n")) >>= fun _ =>
      .ret (.exit 0)

/-- On an unconfigured host with a terminal, the wizard comes first. -/
def firstRunOrBoot (terminal : Bool) (cfg : Env.Config) : HostIo Boot :=
  Prog.call (Act.pathExists defaultEnvFile) >>= fun envFile =>
  needsFirstRunSetup cfg envFile >>= fun fresh =>
  if !fresh || !terminal then .ret (.ready cfg)
  else
    Prog.call (Act.say "No configuration found. Starting the GoblinPay setup wizard.\n\n") >>= fun _ =>
    (run lower tools (.plain true)).run >>= bootWritten lower

/-- Behind the opened wallet. -/
def identify (cfg : Env.Config) (wallet : Wallet) : ExceptT String HostIo (GoblinPay.Secret × Wallet) := do
  let addr ← attempt (.slatepackAddress wallet.seed) fun e => "wallet error: " ++ (WalletError.wallet e).toText
  say s!"wallet ready (slatepack address {addr})\n"
  let keys ← failing "identity error: " IdentityError.toText (loadOrCreate tools cfg)
  let npub := (tools.npub keys).toOption.getD ""
  say s!"payment identity ready: {npub} (advertising `nip44_v3 nip44_v2`)\n"
  pure (keys, wallet)

/-- `start_ingest`, as far as it opens the wallet and the identity. -/
def startIngest (cfg : Env.Config) : ExceptT String HostIo (GoblinPay.Secret × Wallet) := do
  let wasInitialized ← pathExists (seedPath cfg.dataDir)
  let wallet ← failing "wallet error: " WalletError.toText (openConfigured cfg)
  if wasInitialized && cfg.mnemonic.isSome then
    say (s!"warning: the wallet at {cfg.dataDir} is already initialized, so GP_MNEMONIC is " ++
      "no longer needed. Remove it (and GP_MNEMONIC_FILE) so the seed is not " ++
      "present in this service's environment on every boot; keep only " ++
      "GP_WALLET_PASSWORD. The seed lives encrypted at rest in the data dir.\n")
  identify tools cfg wallet

/-- A start of the server up to where it serves, with what it has opened if it takes payments in. -/
def start (terminal : Bool) (cfg : Env.Config) : ExceptT String HostIo (Option (GoblinPay.Secret × Wallet)) := do
  match ← liftM (firstRunOrBoot lower tools terminal cfg) with
  | .exit _ => pure none
  | .ready cfg => if cfg.ingest then some <$> startIngest tools cfg else pure none

end

end GoblinPay.Till
