import GoblinPay.Async.Ends
import GoblinPay.Core.Written
import GoblinPay.Server.Prompts
import GoblinPay.Text.Hex

/-!
# The host of a till

What `gp-server setup` and a start do outside of themselves: the console, the files, `systemd-creds`, and the lifecycle of
the Grin wallet, whose files are files of the disk. The disk knows a file by its absolute path; a path that is none starts
at the working directory of the process. A failing write leaves what the environment says of the file; the existence of a
path is always told. What grin-wallet and `systemd-creds` make of the disk is theirs (`Tools`), as far as they are lawful.
-/

namespace GoblinPay.Till

open Async Setup

structure File where
  contents : String
  mode : Nat
  deriving DecidableEq

abbrev Disk := String → Option File

/-- What the environment contributes to one operation. -/
structure Luck where
  /-- why the operation fails, if it does -/
  fails : Option String
  /-- what a failing write leaves in the file, if it touched it -/
  left : Option String
  bytes : List UInt8
  yes : Bool

/-- The answer of an operation that may fail and changes nothing. -/
def Luck.orElse {β : Type} (x : Luck) (r : Except String β) : Except String β :=
  match x.fails with
  | some e => .error e
  | none => r

/-! ## Paths -/

/-- `PathBuf::join` -/
def join (base path : String) : String :=
  if path.toList.head? = some '/' ∨ base.isEmpty then path
  else if base.toList.getLast? = some '/' then base ++ path
  else base ++ "/" ++ path

/-- The seed file in a wallet directory. -/
def seedFile (topDir : String) : String := join (join topDir "wallet_data") "wallet.seed"

/-- `GpWallet::seed_path` -/
def seedPath (dataDir : String) : String := seedFile (join dataDir "wallet")

/-- The path ends in the name. -/
def Named (name path : String) : Prop := name.toList <:+ path.toList

instance (name path : String) : Decidable (Named name path) := inferInstanceAs (Decidable (_ <:+ _))

/-- The wallet's data directory, and what is in it. -/
def InWallet (topDir file : String) : Prop :=
  file = join topDir "wallet_data" ∨ (join topDir "wallet_data" ++ "/").toList <+: file.toList

/-- The files that grin-wallet keeps beside the seed: its database and the transactions it has saved. -/
structure Kept (topDir file : String) : Prop where
  inside : InWallet topDir file
  named : Named ".mdb" file ∨ Named ".grintx" file

/-! ## Tools -/

/-- The seed of a wallet: the entropy of its mnemonic. -/
abbrev Seed := List UInt8

/-- What becomes of `systemd-creds encrypt`. -/
inductive Creds
  | missing
  | unstarted (e : String)
  | unfed (e : String)
  | lost (e : String)
  | exited (success : Bool)

/-- The code outside the repository: grin-wallet's lifecycle on a disk with its mnemonics and its address, `systemd-creds`, and
the keys of nostr with their NIP-49 encryption and their spelling. -/
structure Tools where
  /-- `grin_keychain::mnemonic::from_entropy` -/
  fromEntropy : Seed → Except String String
  /-- `grin_keychain::mnemonic::to_entropy` -/
  toEntropy : String → Except String Seed
  /-- the seed in the text of a seed file, given the password -/
  openSeed : String → String → Option Seed
  /-- `wallet_exists`, of a wallet directory -/
  walletExists : Disk → String → Luck → Except String Bool
  /-- `get_mnemonic`, with a password -/
  getMnemonic : Disk → String → String → Luck → Except String String
  /-- `create_wallet`, from a mnemonic and with a password -/
  createWallet : Disk → String → String → String → Luck → Except String Unit × Disk
  /-- `open_wallet`, with a password: the seed the opened wallet works with -/
  openWallet : Disk → String → String → Luck → Except String Seed × Disk
  /-- the slatepack address of a seed -/
  address : Seed → String
  /-- `systemd-creds encrypt`, of a password into a file -/
  sealCredential : Disk → String → String → Luck → Creds × Disk
  /-- the password in the text of a sealed credential, on this host -/
  openCredential : String → Option String
  /-- `SecretKey::parse` -/
  parseSecret : String → Except String GoblinPay.Secret
  /-- `EncryptedSecretKey::new`, for a key, a password and a nonce -/
  encryptSecret : GoblinPay.Secret → String → List UInt8 → Except String (List UInt8)
  /-- `EncryptedSecretKey::decrypt` -/
  decryptSecret : List UInt8 → String → Option GoblinPay.Secret
  /-- `EncryptedSecretKey::to_bech32` -/
  toBech32 : List UInt8 → Except String String
  /-- `EncryptedSecretKey::from_bech32` -/
  fromBech32 : String → Except String (List UInt8)
  /-- the public key of a secret one, as an npub -/
  npub : GoblinPay.Secret → Except String String
  /-- the mode a new file gets -/
  umask : Nat

/-- What the till relies on. A wallet exists where its seed file does; one that is created has the seed of its mnemonic in it, and
one that is opened works with the seed in it; grin-wallet touches no other files but those it keeps, and a wallet that is opened
keeps its seed file. What is sealed or encrypted with a password is there again. -/
structure Tools.Lawful (tools : Tools) : Prop where
  wallet_exists : ∀ {disk topDir x found}, tools.walletExists disk topDir x = .ok found → found = (disk (seedFile topDir)).isSome
  created : ∀ {disk topDir mnemonic password x}, (tools.createWallet disk topDir mnemonic password x).1 = .ok () →
    ∃ file seed, (tools.createWallet disk topDir mnemonic password x).2 (seedFile topDir) = some file ∧
      tools.toEntropy mnemonic = .ok seed ∧ tools.openSeed file.contents password = some seed
  create_keeps : ∀ disk topDir mnemonic password x file, file ≠ seedFile topDir → ¬ Kept topDir file →
    (tools.createWallet disk topDir mnemonic password x).2 file = disk file
  opened : ∀ {disk topDir password x seed}, (tools.openWallet disk topDir password x).1 = .ok seed →
    ∃ file, disk (seedFile topDir) = some file ∧ tools.openSeed file.contents password = some seed
  open_keeps : ∀ disk topDir password x file, ¬ Kept topDir file → (tools.openWallet disk topDir password x).2 file = disk file
  sealed : ∀ {disk password dest x}, (tools.sealCredential disk password dest x).1 = .exited true →
    ∃ file, (tools.sealCredential disk password dest x).2 dest = some file ∧ tools.openCredential file.contents = some password
  seal_keeps : ∀ disk password dest x file, file ≠ dest → (tools.sealCredential disk password dest x).2 file = disk file
  decrypt_encrypt : ∀ secret password nonce e, tools.encryptSecret secret password nonce = .ok e → tools.decryptSecret e password = some secret
  from_to_bech32 : ∀ e text, tools.toBech32 e = .ok text → tools.fromBech32 text = .ok e

/-! ## Operations -/

/-- A process on the host. -/
structure Host where
  console : Console
  disk : Disk
  /-- `init_chain_type`'s static -/
  chain : Option Env.Chain

inductive Act : Type → Type 1
  /-- a question and its answer, read from the console -/
  | ask {T : Type} (prompt : Nat → Console → Option (Except String T × Console)) : Act (Except String T)
  | say (text : String) : Act Unit
  | pathExists (path : String) : Act Bool
  /-- `gp_wallet::probe_node` -/
  | probeNode (url : String) : Act Bool
  | random (n : Nat) : Act (List UInt8)
  /-- `Keys::generate` -/
  | generateKeys : Act GoblinPay.Secret
  | createDirAll (path : String) : Act (Except String Unit)
  | setPermissions (path : String) (mode : Nat) : Act (Except String Unit)
  | readToString (path : String) : Act (Except String String)
  /-- `config_from_written_env`, with the files it reads -/
  | writtenConfig (lower : String → String) (path : String) : Act (Except String Env.Config)
  | write (path contents : String) : Act (Except String Unit)
  /-- the error is empty where there is no such file -/
  | removeFile (path : String) : Act (Except (Option String) Unit)
  | sealCredential (password dest : String) : Act Creds
  | initChainType (chain : Env.Chain) : Act (Option Env.Chain)
  | nodeClient (url : String) : Act (Except String Unit)
  | walletExists (topDir : String) : Act (Except String Bool)
  | getMnemonic (topDir password : String) : Act (Except String String)
  | createWallet (topDir mnemonic password : String) : Act (Except String Unit)
  | openWallet (topDir password : String) : Act (Except String Seed)
  | slatepackAddress (seed : Seed) : Act (Except String String)

abbrev HostIo := Prog Act

section

variable (tools : Tools)

namespace Disk

/-- A file's new contents; an existing file keeps its mode. -/
def put (d : Disk) (path contents : String) : Disk :=
  Function.update d path (some ⟨contents, ((d path).map File.mode).getD tools.umask⟩)

/-- What is left of a file by a write that failed. -/
def torn (d : Disk) (path : String) (left : Option String) : Disk := (left.map (d.put tools path)).getD d

def remove (d : Disk) (path : String) : Disk := Function.update d path none

def chmod (d : Disk) (path : String) (mode : Nat) : Disk := Function.update d path ((d path).map fun file => { file with mode })

def read (d : Disk) (path : String) : Except String String :=
  ((d path).map fun file => Except.ok file.contents).getD (.error "No such file or directory (os error 2)")

end Disk

variable (cwd : String)

def act {β : Type} (e : Act β) (x : Luck) (h : Host) : β × Host :=
  match e with
  | .ask prompt =>
    match prompt ((typed h.console.input).length + 1) h.console with
    | some (r, console) => (r, { h with console })
    | none => (.error "", h)
  | .say text => ((), { h with console := h.console.write text })
  | .pathExists path => ((h.disk (join cwd path)).isSome, h)
  | .probeNode _ => (x.yes, h)
  | .random n => ((List.range n).map fun i => x.bytes.getD i 0, h)
  | .generateKeys => (x.bytes, h)
  | .createDirAll path =>
    -- a file in the place of the directory is an error
    if (h.disk (join cwd path)).isSome then (.error "File exists (os error 17)", h) else (x.orElse (.ok ()), h)
  | .setPermissions path mode =>
    match x.fails with
    | some e => (.error e, h)
    | none => (.ok (), { h with disk := h.disk.chmod (join cwd path) mode })
  | .readToString path => (x.orElse (h.disk.read (join cwd path)), h)
  | .writtenConfig lower path => (configFromWrittenEnv lower (fun p => x.orElse (h.disk.read (join cwd p))) path, h)
  | .write path contents =>
    match x.fails with
    | some e => (.error e, { h with disk := h.disk.torn tools (join cwd path) x.left })
    | none => (.ok (), { h with disk := h.disk.put tools (join cwd path) contents })
  | .removeFile path =>
    match x.fails with
    | some e => (.error (some e), h)
    | none =>
      if (h.disk (join cwd path)).isSome then (.ok (), { h with disk := h.disk.remove (join cwd path) }) else (.error none, h)
  | .sealCredential password dest =>
    let r := tools.sealCredential h.disk password (join cwd dest) x
    (r.1, { h with disk := r.2 })
  | .initChainType chain =>
    match h.chain with
    | some set => (some set, h)
    | none => (some chain, { h with chain := some chain })
  | .nodeClient _ => (x.orElse (.ok ()), h)
  | .walletExists topDir => (tools.walletExists h.disk (join cwd topDir) x, h)
  | .getMnemonic topDir password => (tools.getMnemonic h.disk (join cwd topDir) password x, h)
  | .createWallet topDir mnemonic password =>
    let r := tools.createWallet h.disk (join cwd topDir) mnemonic password x
    (r.1, { h with disk := r.2 })
  | .openWallet topDir password =>
    let r := tools.openWallet h.disk (join cwd topDir) password x
    (r.1, { h with disk := r.2 })
  | .slatepackAddress seed => (x.orElse (.ok (tools.address seed)), h)

def handler : Handler Act Luck Host where
  act := act tools cwd

end

/-! ## Programs -/

variable {ε ε' β : Type}

def say (text : String) : ExceptT String HostIo Unit := liftM (Prog.call (Act.say text))

def ask {T : Type} (prompt : Nat → Console → Option (Except String T × Console)) : ExceptT String HostIo T :=
  Prog.attempt (Act.ask prompt)

/-- `read_line` -/
def askLine : ExceptT String HostIo String := ask fun _ c => some (.ok (readLine c).1, (readLine c).2)

/-- An operation whose error is wrapped in a text of its own. -/
def attempt (e : Act (Except ε β)) (wrap : ε → ε') : ExceptT ε' HostIo β :=
  ExceptT.mk (Prog.call e >>= fun r => .ret (r.mapError wrap))

def random (n : Nat) : ExceptT ε HostIo (List UInt8) := liftM (Prog.call (Act.random n))

def pathExists (path : String) : ExceptT String HostIo Bool := liftM (Prog.call (Act.pathExists path))

end GoblinPay.Till
