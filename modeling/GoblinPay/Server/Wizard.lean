import GoblinPay.Core.Answers
import GoblinPay.Wallet.Open

/-!
# The wizard

`gp-server/src/setup.rs`: `run` asks (`questions`), and then changes the host (`install`): it creates or reopens the wallet,
leaves the password as the restart mode wants it, and writes the environment file. The last question, the password of an
existing wallet, comes when the directories are there and no file has been touched.
-/

namespace GoblinPay.Till

open Async Setup

structure SetupOptions where
  reconfigure : Bool
  /-- `--prefix`: every path is under this directory -/
  prefixDir : Option String
  nodeOverride : Option String
  forceRun : Bool
  stdinIsTty : Bool
  deriving DecidableEq

inductive SeedPlan
  | fresh (m : String)
  | pasted (m : String)
  | existing
  deriving DecidableEq

/-- The mnemonic a new wallet is created from. -/
def SeedPlan.mnemonic : SeedPlan → Option String
  | .fresh m => some m
  | .pasted m => some m
  | .existing => none

structure Paths where
  envFile : String
  secretsDir : String
  walletPasswordFile : String
  encryptedCredFile : String
  dataDir : String
  dbPath : String
  dropinFile : String
  encryptedDropinFile : String
  runtimePasswordFile : String
  deriving DecidableEq

/-- Under the prefix, or, without one, the path as it is spelled: relative but for the runtime password's. -/
def Paths.place (prefixDir : Option String) (abs : String) : String :=
  match prefixDir with
  | some p => join p (String.ofList (abs.toList.dropWhile (· = '/')))
  | none => abs

def Paths.resolve (prefixDir : Option String) : Paths where
  envFile := place prefixDir "etc/goblinpay.env"
  secretsDir := place prefixDir "etc/goblinpay/secrets"
  walletPasswordFile := join (place prefixDir "etc/goblinpay/secrets") "wallet_password"
  encryptedCredFile := join (place prefixDir "etc/goblinpay/secrets") "wallet_password.cred"
  dataDir := place prefixDir "var/lib/goblinpay/gp-data"
  dbPath := place prefixDir "var/lib/goblinpay/goblinpay.db"
  dropinFile := place prefixDir "etc/systemd/system/gp-server.service.d/manual.conf"
  encryptedDropinFile := place prefixDir "etc/systemd/system/gp-server.service.d/encrypted.conf"
  runtimePasswordFile := place prefixDir "/run/goblinpay/wallet_password"

/-- The runtime path of the decrypted credential. -/
def credentialsWalletPasswordPath : String := "/run/credentials/gp-server.service/gp_wallet_password"

/-- What the questions were answered with. -/
structure Answers where
  publicUrl : String
  webhookUrl : String
  bind : String
  nodeUrl : String
  plan : SeedPlan
  chosenPassword : Option String
  restartMode : RestartMode
  currencies : List String
  grin1Rail : Bool
  deriving DecidableEq

/-! ## Questions -/

def selectNode : List String → HostIo (Option String)
  | [] => .ret none
  | url :: urls => Prog.call (Act.probeNode url) >>= fun healthy => if healthy then .ret (some url) else selectNode urls

def resolveNode (opts : SetupOptions) : ExceptT String HostIo String :=
  match opts.nodeOverride with
  | some url => do
    say s!"Using Grin node {url} (override).\n"
    pure url
  | none => do
    say ("4) Grin node for confirmations and balance (read-only). Press Enter to\n" ++
      "   auto-pick a healthy node from the curated list, or enter your own\n" ++ "   https:// node.\n   > ")
    let answer ← askLine
    if (Text.trim answer).isEmpty then do
      say "Probing curated Grin nodes for a healthy one...\n"
      match ← liftM (selectNode curatedNodes) with
      | some url => do
        say s!"Using Grin node {url}.\n"
        pure url
      | none =>
        throw ("none of the curated Grin nodes answered. Check this host's " ++
          "network, or pass --node <url> to use a node you trust.")
    else do
      let url ← liftExcept (normalizeUrl answer)
      say s!"Using Grin node {url}.\n"
      pure url
where
  liftExcept (r : Except String String) : ExceptT String HostIo String := ExceptT.mk (Prog.ret r)

section

variable (lower : String → String)

def promptRestartMode (number : Option Nat) (default : RestartMode) : ExceptT String HostIo RestartMode := do
  let unattendedTag := if default = .unattended then " (default)" else ""
  let manualTag := if default = .manual then " (default)" else ""
  let hint := if default = .unattended then "[1]" else "[2]"
  let lead := (number.map fun n => s!"{n}) ").getD ""
  say (s!"{lead}After a reboot, how should the till restart?\n" ++
    s!"   [1] Unattended{unattendedTag}: your password is sealed to THIS host, so the\n" ++
    "       service auto-restarts. Honest trade-off: whoever fully controls\n" ++
    "       this machine controls the wallet; keep it a small hot float and\n" ++ "       sweep to your own wallet regularly.\n" ++
    s!"   [2] Manual{manualTag}: the password lives only in your head; you re-enter\n" ++
    "       it after every restart. Maximum protection against disk/machine theft.\n" ++ s!"   > {hint} ")
  let line ← askLine
  pure (parseRestartModeDefault lower line default)

/-- The seed of a new wallet: generated and shown once, or pasted; either has to be acknowledged. -/
def askSeed (tools : Tools) : ExceptT String HostIo SeedPlan := do
  say ("6) Grin seed: press Enter to generate a FRESH 24-word till seed,\n" ++ "   or paste your existing recovery phrase.\n   > ")
  let seedLine ← askLine
  if (Text.trim seedLine).isEmpty then do
    let entropy ← random 32
    match tools.fromEntropy entropy with
    | .error e => throw s!"could not generate a seed: wallet error: mnemonic generation failed: {e}"
    | .ok m => do
      say ("\n============================================================\n" ++
        "WRITE THIS DOWN. This is your till's seed, its money backup.\n" ++
        "It is shown ONCE and never again. Store it offline, safely.\n" ++
        "------------------------------------------------------------\n" ++ s!"{m}\n" ++
        "============================================================\n")
      ask (requireAck "Have you written down these 24 words? Type yes to continue")
      pure (.fresh m)
  else do
    ask (requireAck "Keep your written backup of this seed safe. Type yes to continue")
    pure (.pasted (Text.trim seedLine))

/-- What concerns the wallet's secrets is asked for a new wallet only; the restart mode is asked either way. -/
def askWallet (tools : Tools) (paths : Paths) (hidden walletExists : Bool) :
    ExceptT String HostIo (SeedPlan × Option String × RestartMode) := do
  if walletExists then do
    say "Existing till wallet found; keeping its seed and password.\n"
    let manual ← pathExists paths.dropinFile
    let mode ← promptRestartMode lower none (if manual then .manual else .unattended)
    pure (.existing, none, mode)
  else do
    let password ← ask (promptWalletPassword hidden)
    let plan ← askSeed tools
    let mode ← promptRestartMode lower (some 7) .unattended
    pure (plan, some password, mode)

def interview (tools : Tools) (paths : Paths) (opts : SetupOptions) : ExceptT String HostIo Answers := do
  say ("GoblinPay setup\n" ++ "Answer a few questions. You choose your wallet password and record your\n" ++
    "seed; the service tokens and everything else are generated for you.\n\n" ++
    "1) Public address customers reach this till at (https URL).\n" ++
    "   Either a subdomain (e.g. https://pay.myshop.com) or a path on your\n" ++
    "   existing shop domain (e.g. https://myshop.com/pay) if you would\n" ++
    "   rather add ZERO new DNS records and reverse-proxy a path instead.\n")
  let publicUrl ← ask (promptRequired normalizeUrl "   your till URL")
  let webhookUrl ← ask (promptRequired webhookUrlFromShop
    "2) Your shop's website URL (the WooCommerce site), e.g. https://myshop.com")
  say ("3) Local address the server listens on. Keep it loopback behind your\n" ++
    "   reverse proxy unless you know you need otherwise. [127.0.0.1:8080]\n   > ")
  let bindLine ← askLine
  let nodeUrl ← resolveNode opts
  let walletExists ← pathExists (seedPath paths.dataDir)
  let (plan, chosenPassword, restartMode) ← askWallet lower tools paths opts.stdinIsTty walletExists
  say "8) Currencies your shop prices in? [usd]\n   > "
  let currencyLine ← askLine
  say "9) (advanced) Also accept payments from any Grin wallet over Tor? [y/N]\n   > "
  let railLine ← askLine
  pure {
    publicUrl, webhookUrl, nodeUrl, plan, chosenPassword, restartMode
    bind := normalizeBind bindLine
    currencies := parseCurrencies lower currencyLine
    grin1Rail := parseYesNo lower railLine false }

end

/-! ## Changes to the host -/

def ensureDir (path : String) (mode : Nat) : ExceptT String HostIo Unit := do
  attempt (.createDirAll path) fun e => s!"cannot create {path}: {e}"
  attempt (.setPermissions path mode) fun e => s!"cannot chmod {path}: {e}"

/-- A file that is not there need not be removed. -/
def removeIfExists (path : String) : ExceptT String HostIo Unit :=
  ExceptT.mk (Prog.call (Act.removeFile path) >>= fun
    | .ok () => .ret (.ok ())
    | .error none => .ret (.ok ())
    | .error (some e) => .ret (.error s!"cannot remove {path}: {e}"))

def writeFile (path contents : String) (mode : Nat) : ExceptT String HostIo Unit := do
  attempt (.write path contents) fun e => s!"cannot write {path}: {e}"
  attempt (.setPermissions path mode) fun e => s!"cannot chmod {path}: {e}"

/-- An existing secret has no write bit, so it goes first. -/
def writeSecretFile (path contents : String) : ExceptT String HostIo Unit := do
  removeIfExists path
  writeFile path (contents ++ "\n") 0o400

/-- The parent directory of a path, as far as it has one. -/
def parent (path : String) : String := String.ofList ((path.toList.rdropWhile (· ≠ '/')).rdropWhile (· = '/'))

def writeConfFile (path contents : String) (mode : Nat) : ExceptT String HostIo Unit := do
  attempt (.createDirAll (parent path)) fun e => s!"cannot create {parent path}: {e}"
  writeFile path contents mode

def writeDropinFile (path contents : String) : ExceptT String HostIo Unit := writeConfFile path contents 0o644

def writeEnvFile (path contents : String) : ExceptT String HostIo Unit := writeConfFile path contents 0o640

/-- Where `systemd-creds` is missing, or does not succeed, nothing is sealed. -/
def systemdCredsSeal (password dest : String) : ExceptT String HostIo Bool := do
  outcome (← liftM (Prog.call (Act.sealCredential password dest)))
where
  outcome : Creds → ExceptT String HostIo Bool
    | .missing => pure false
    | .unstarted e => throw s!"could not run systemd-creds: {e}"
    | .unfed e => throw s!"could not pass the password to systemd-creds: {e}"
    | .lost e => throw s!"systemd-creds did not complete: {e}"
    | .exited success => pure success

/-- Leaves one of three shapes: the sealed credential, the plaintext fallback, or nothing but the manual drop-in. -/
def applyRestartPersistence (paths : Paths) (mode : RestartMode) (password : String) : ExceptT String HostIo Bool :=
  match mode with
  | .unattended => do
    ensureDir paths.secretsDir 0o700
    let encrypted ← systemdCredsSeal password paths.encryptedCredFile
    if encrypted then do
      writeDropinFile paths.encryptedDropinFile (renderEncryptedDropin paths.encryptedCredFile)
      removeIfExists paths.walletPasswordFile
      removeIfExists paths.dropinFile
      pure true
    else do
      say ("WARNING: systemd-creds is unavailable on this host, so the wallet\n" ++
        "password could not be encrypted at rest. Falling back to a root-owned\n" ++
        s!"0400 PLAINTEXT file ({paths.walletPasswordFile}). It is off the world-readable env file, but it\n" ++
        "is still plaintext on disk. For encryption at rest, install systemd >= 250\n" ++
        "with a host credential key and re-run: sudo gp-server setup --reconfigure\n")
      writeSecretFile paths.walletPasswordFile password
      removeIfExists paths.encryptedCredFile
      removeIfExists paths.encryptedDropinFile
      removeIfExists paths.dropinFile
      pure false
  | .manual => do
    writeDropinFile paths.dropinFile (renderManualDropin paths.runtimePasswordFile)
    removeIfExists paths.walletPasswordFile
    removeIfExists paths.encryptedCredFile
    removeIfExists paths.encryptedDropinFile
    pure false

/-- The password an existing wallet is reopened with: the plaintext file's, where there is one. -/
def existingPassword (paths : Paths) (hidden : Bool) : ExceptT String HostIo String := do
  let read ← liftM (Prog.call (Act.readToString paths.walletPasswordFile))
  match read with
  | .ok s => pure (String.ofList (s.toList.rdropWhile fun c => c = '\n' || c = '\r'))
  | .error _ => do
    say ("This till keeps no readable password on disk. Enter its wallet\n" ++ "password to reopen the wallet and reconfigure it.\n")
    ask (promptExistingPassword hidden)

/-- The secrets of the service, which nobody types. -/
structure Tokens where
  apiToken : List UInt8
  adminToken : List UInt8
  webhookSecret : List UInt8

/-- The directories, and the last question: an existing wallet's password. -/
def prepare (paths : Paths) (hidden : Bool) (answers : Answers) : ExceptT String HostIo (Tokens × String) := do
  let apiToken ← random 16
  let adminToken ← random 16
  let webhookSecret ← random 16
  ensureDir paths.dataDir 0o700
  ensureDir paths.secretsDir 0o700
  let password ←
    if answers.plan = .existing then existingPassword paths hidden
    else pure (answers.chosenPassword.getD "")
  pure (⟨apiToken, adminToken, webhookSecret⟩, password)

/-- The wallet, with whether its password was sealed. -/
def settleWallet (paths : Paths) (answers : Answers) (password : String) : ExceptT String HostIo (Wallet × Bool) := do
  say (match answers.plan with
    | .existing => "Reopening the existing till wallet...\n"
    | .fresh _ | .pasted _ => "Creating the encrypted till wallet...\n")
  let front := match answers.plan with
    | .existing => "could not reopen the existing wallet: "
    | .fresh _ | .pasted _ => "wallet creation failed: "
  let wallet ← wrapped front (openAt paths.dataDir answers.plan.mnemonic password answers.nodeUrl .mainnet)
  let encrypted ← applyRestartPersistence paths answers.restartMode password
  pure (wallet, encrypted)
where
  wrapped (front : String) (m : ExceptT WalletError HostIo Wallet) : ExceptT String HostIo Wallet :=
    ExceptT.mk (m.run >>= fun r => .ret (r.mapError fun e => front ++ e.toText))

/-- Where the service finds the password when it starts. -/
def passwordPath (paths : Paths) (mode : RestartMode) (encrypted : Bool) : String :=
  match mode with
  | .unattended => if encrypted then credentialsWalletPasswordPath else paths.walletPasswordFile
  | .manual => paths.runtimePasswordFile

def params (paths : Paths) (answers : Answers) (tokens : Tokens) (encrypted : Bool) : SetupParams where
  bind := answers.bind
  publicUrl := answers.publicUrl
  webhookUrl := answers.webhookUrl
  nodeUrl := answers.nodeUrl
  relays := defaultRelays
  currencies := answers.currencies
  grin1Rail := answers.grin1Rail
  apiToken := genApiToken tokens.apiToken
  adminToken := genAdminToken tokens.adminToken
  webhookSecret := genWebhookSecret tokens.webhookSecret
  dataDir := paths.dataDir
  dbPath := paths.dbPath
  walletPasswordFile := passwordPath paths answers.restartMode encrypted
  restartMode := answers.restartMode
  unattendedEncrypted := encrypted

def seedReminder : SeedPlan → String
  | .fresh _ => "Seed recorded by you. It was shown once and will not be shown again.\n"
  | .pasted _ => "Using your existing seed. Keep your written backup of it safe.\n"
  | .existing => "Kept the existing till wallet; its seed and password are unchanged.\n"

def startHint (paths : Paths) (p : SetupParams) : String :=
  match p.restartMode with
  | .unattended =>
    if p.unattendedEncrypted then
      "Restart mode: UNATTENDED (encrypted at rest). Start it:\n" ++
      "  sudo systemctl daemon-reload && sudo systemctl start gp-server\n" ++
      "The password is sealed to this host with systemd-creds (ciphertext on\n" ++
      "disk); systemd decrypts it at each start, so the service auto-restarts.\n" ++
      "(Keep the till a small hot float and sweep to your own wallet often:\n" ++
      "a compromise of the RUNNING host still means wallet compromise.)\n\n"
    else
      "Restart mode: UNATTENDED (plaintext fallback). Start it:\n" ++
      "  sudo systemctl start gp-server\n" ++
      "systemd-creds was unavailable, so the password is a root-owned 0400\n" ++
      "PLAINTEXT file. It will auto-restart, but the key is plaintext at rest.\n" ++
      "(Keep the till a small hot float and sweep to your own wallet often:\n" ++
      "a full-machine compromise means wallet compromise.)\n\n"
  | .manual =>
    "Restart mode: MANUAL. Nothing sensitive is on disk; supply the\n" ++
    "password at each start (and after every reboot):\n" ++
    "  sudo install -d -m0700 /run/goblinpay\n" ++
    "  systemd-ask-password \"GoblinPay wallet password:\" \\\n" ++
    s!"    | sudo install -m0400 /dev/stdin {paths.runtimePasswordFile}\n" ++
    "  sudo systemctl daemon-reload && sudo systemctl start gp-server\n" ++
    "The service will NOT come back on its own after a restart until you\n" ++
    "re-enter the password. Maximum protection against disk/machine theft.\n\n"

/-- A subdomain is proxied as a whole, a path with its name stripped. -/
def proxyHint (publicUrl : String) : String :=
  let base := basePath publicUrl
  if base.isEmpty then
    s!"  Subdomain ({publicUrl}) - proxy the whole host to the till, e.g. nginx:\n" ++
    "    location / \x7b proxy_pass http://127.0.0.1:8080; \x7d\n" ++
    s!"  (or Caddy:  {publicUrl} \x7b reverse_proxy 127.0.0.1:8080 \x7d )\n"
  else
    s!"  Path on your shop domain ({publicUrl}) - ZERO new DNS records; proxy\n" ++
    s!"  just the '{base}' path to the till, stripping the prefix, e.g. nginx:\n" ++
    s!"    location {base}/ \x7b proxy_pass http://127.0.0.1:8080/; \x7d\n" ++
    s!"  (the trailing slash on proxy_pass strips '{base}' so the till's own\n" ++
    s!"   routes line up; the pages already emit '{base}'-prefixed links.)\n"

def writtenHint (paths : Paths) (p : SetupParams) : String :=
  match p.restartMode with
  | .unattended =>
    if p.unattendedEncrypted then
      s!"\nWrote {paths.envFile} and {paths.encryptedCredFile} (sealed credential, ciphertext) plus the\n" ++
      "encrypted.conf drop-in. No plaintext wallet password is stored on disk.\n"
    else s!"\nWrote {paths.envFile} and {paths.walletPasswordFile} (PLAINTEXT password file, mode 0400).\n"
  | .manual =>
    s!"\nWrote {paths.envFile} and {paths.dropinFile} (manual-mode drop-in, mode 0644). No wallet\n" ++
    "password is stored on disk.\n"

/-- The final screen. -/
def farewell (paths : Paths) (answers : Answers) (p : SetupParams) : String :=
  "\n" ++ seedReminder answers.plan ++ "\nGoblinPay is set up.\n" ++ startHint paths p ++ p.wooPasteBlock ++ "\n" ++
    "\nPut it behind your reverse proxy (it binds 127.0.0.1:8080):\n" ++ proxyHint p.publicUrl ++ writtenHint paths p

/-- Behind the wallet: the environment file, and the final screen. -/
def conclude (paths : Paths) (answers : Answers) (tokens : Tokens) (wallet : Wallet) (encrypted : Bool) : ExceptT String HostIo Unit := do
  let addr ← attempt (.slatepackAddress wallet.seed) fun e =>
    "wallet opened but address read failed: " ++ (WalletError.wallet e).toText
  say s!"Wallet ready (address {addr}).\n"
  let p := params paths answers tokens encrypted
  writeEnvFile paths.envFile p.renderEnv
  say (farewell paths answers p)

/-- Behind the last question: the wallet, the password and the environment file. -/
def install (paths : Paths) (answers : Answers) (tokens : Tokens) (password : String) : ExceptT String HostIo Unit := do
  let (wallet, encrypted) ← settleWallet paths answers password
  conclude paths answers tokens wallet encrypted

/-- Without a terminal there is nobody to answer; and a till that is set up is left alone unless it is to be reconfigured. -/
def guardRun (paths : Paths) (opts : SetupOptions) : ExceptT String HostIo Unit := do
  if !opts.stdinIsTty && !opts.forceRun then do
    say ("gp-server setup is interactive and stdin is not a terminal.\n" ++ "Run it in a real terminal:  sudo gp-server setup\n" ++
      "(or pass --batch to read scripted answers from stdin.)\n")
    throw "not a TTY; guidance printed"
  else if opts.reconfigure then pure ()
  else do
    let seed ← pathExists (seedPath paths.dataDir)
    let env ← pathExists paths.envFile
    if seed || env then
      throw (s!"a GoblinPay wallet or config already exists ({seedPath paths.dataDir} / {paths.envFile}). " ++
        "Refusing to overwrite it. Re-run with --reconfigure only if you are " ++ "sure (this does NOT delete the encrypted seed).")
    else pure ()

/-- Everything that is asked. -/
def questions (lower : String → String) (tools : Tools) (opts : SetupOptions) : ExceptT String HostIo (Answers × Tokens × String) := do
  let paths := Paths.resolve opts.prefixDir
  guardRun paths opts
  let answers ← interview lower tools paths opts
  let (tokens, password) ← prepare paths opts.stdinIsTty answers
  pure (answers, tokens, password)

def run (lower : String → String) (tools : Tools) (opts : SetupOptions) : ExceptT String HostIo Unit := do
  let (answers, tokens, password) ← questions lower tools opts
  install (Paths.resolve opts.prefixDir) answers tokens password

end GoblinPay.Till
