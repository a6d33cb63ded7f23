import GoblinPay.Nostr.SignedReceipt
import GoblinPay.Server.Host
import GoblinPay.Text.JsonPretty
import GoblinPay.Wallet.Open

/-!
# The payment identity

`gp-nostr/src/identity.rs`: a key from the configuration, or the one in the identity file, which is generated and written
where there is none. What cannot be read as an identity file counts as none.
-/

namespace GoblinPay.Till

open Async

inductive IdentityError
  | config (m : String)
  | key (m : String)
  | io (m : String)
  deriving DecidableEq, Repr

def IdentityError.toText : IdentityError → String
  | .config m => "identity config error: " ++ m
  | .key m => "identity key error: " ++ m
  | .io m => "identity io error: " ++ m

structure ServerIdentity where
  ver : UInt8
  ncryptsec : String
  npub : String
  deriving DecidableEq

namespace ServerIdentity

def directory (dataDir : String) : String := join dataDir "nostr"

def path (dataDir : String) : String := join (directory dataDir) "identity.json"

/-- `serde_json::to_string_pretty` -/
def toText (i : ServerIdentity) : List Char := Json.renderPretty [
  ("ver", Json.ofUInt64 i.ver.toUInt64),
  ("ncryptsec", .string i.ncryptsec),
  ("npub", .string i.npub)]

def ofJson (j : Json) : Option ServerIdentity := do
  match ← Json.structFields ["ver", "ncryptsec", "npub"] j with
  | [ver, ncryptsec, npub] =>
    some { ver := ← ver.bind Json.toUInt8, ncryptsec := ← ncryptsec.bind Json.toStr, npub := ← npub.bind Json.toStr }
  | _ => none

/-- `serde_json::from_str` -/
def ofText (cs : List Char) : Option ServerIdentity := (Json.read 128 cs).bind ofJson

theorem ofText_toText (i : ServerIdentity) : ofText i.toText = some i := by
  have strings : ∀ m ∈ [("ncryptsec", Json.string i.ncryptsec), ("npub", Json.string i.npub)], ∃ s, m.2 = .string s := by
    intro m hm
    rcases List.mem_cons.1 hm with rfl | hm
    · exact ⟨_, rfl⟩
    · rw [List.mem_singleton.1 hm]
      exact ⟨_, rfl⟩
  have ver : Json.toUInt8 (Json.ofUInt64 i.ver.toUInt64) = some i.ver := JsonNumber.toUInt8_ofUInt64 i.ver
  have fields : Json.structFields ["ver", "ncryptsec", "npub"] (.object [("ver", Json.ofUInt64 i.ver.toUInt64),
      ("ncryptsec", .string i.ncryptsec), ("npub", .string i.npub)]) =
        some [some (Json.ofUInt64 i.ver.toUInt64), some (.string i.ncryptsec), some (.string i.npub)] := rfl
  rw [ofText, toText, Json.read_renderPretty rfl (List.cons_ne_nil _ _) strings (by decide), Option.bind_some, ofJson, fields]
  simp only [Option.bind_eq_bind, Option.bind_some, ver, Json.toStr]

end ServerIdentity

def restrict (path : String) (mode : Nat) : ExceptT IdentityError HostIo Unit :=
  attempt (.setPermissions path mode) fun e => .io s!"chmod {debugPath path}: {e}"

/-- The identity file, if it is there and is one. -/
def ServerIdentity.load (dataDir : String) : ExceptT IdentityError HostIo (Option ServerIdentity) := do
  let read ← liftM (Prog.call (Act.readToString (path dataDir)))
  match read with
  | .ok raw => pure (ofText raw.toList)
  | .error _ => pure none

def ServerIdentity.save (i : ServerIdentity) (dataDir : String) : ExceptT IdentityError HostIo Unit := do
  let dir := directory dataDir
  attempt (.createDirAll dir) fun e => IdentityError.io s!"create {debugPath dir}: {e}"
  restrict dir 0o700
  attempt (.write (path dataDir) (String.ofList i.toText)) fun e => IdentityError.io s!"write {debugPath (path dataDir)}: {e}"
  restrict (path dataDir) 0o600

section

variable (tools : Tools)

def decryptNcryptsec (ncryptsec password : String) : Except IdentityError GoblinPay.Secret :=
  match tools.fromBech32 ncryptsec with
  | .error e => .error (.key s!"invalid ncryptsec: {e}")
  | .ok encrypted =>
    match tools.decryptSecret encrypted password with
    | some secret => .ok secret
    | none => .error (.key "wrong password for ncryptsec")

/-- The file of a key: what `EncryptedSecretKey::new` draws is its salt and its nonce. -/
def ServerIdentity.fromKeys (keys : GoblinPay.Secret) (password : String) (drawn : List UInt8) : Except IdentityError ServerIdentity := do
  let encrypted ← (tools.encryptSecret keys password drawn).mapError fun e => .key s!"encrypt failed: {e}"
  let ncryptsec ← (tools.toBech32 encrypted).mapError fun e => .key s!"bech32 failed: {e}"
  let npub ← (tools.npub keys).mapError fun e => .key s!"bech32 failed: {e}"
  pure { ver := 1, ncryptsec, npub }

/-- The key of an identity file that was found, or else a new one, which is not used before it is written. -/
def keysOf (dataDir password : String) (found : Option ServerIdentity) : ExceptT IdentityError HostIo GoblinPay.Secret :=
  match found with
  | some identity => ExceptT.mk (.ret (decryptNcryptsec tools identity.ncryptsec password))
  | none => do
    let keys ← liftM (Prog.call Act.generateKeys)
    let drawn ← random 40
    let identity ← ExceptT.mk (.ret (ServerIdentity.fromKeys tools keys password drawn))
    identity.save dataDir
    pure keys

/-- The persisted identity, or a fresh random key. -/
def loadOrGenerate (dataDir password : String) : ExceptT IdentityError HostIo GoblinPay.Secret := do
  keysOf tools dataDir password (← ServerIdentity.load dataDir)

/-- `load_or_create`: the configured key, the configured encrypted key, or the file's. -/
def loadOrCreate (cfg : Env.Config) : ExceptT IdentityError HostIo GoblinPay.Secret :=
  match cfg.nsec, cfg.walletPassword, cfg.ncryptsec with
  | some nsec, _, _ => ExceptT.mk (.ret ((tools.parseSecret (Text.trim nsec.reveal)).mapError fun e => .key s!"invalid GP_NSEC: {e}"))
  | none, none, _ =>
    throw (.config ("GP_WALLET_PASSWORD (or _FILE) is required to unlock or persist the " ++
      "Nostr identity (set GP_NSEC to bypass at-rest encryption)"))
  | none, some password, some ncryptsec => ExceptT.mk (.ret (decryptNcryptsec tools (Text.trim ncryptsec.reveal) password.reveal))
  | none, some password, none => loadOrGenerate tools cfg.dataDir password.reveal

end

end GoblinPay.Till
