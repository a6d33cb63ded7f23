import Mathlib.Data.List.DropRight
import GoblinPay.Core.Rates
import GoblinPay.Text

/-!
# The configuration

`gp-core/src/config.rs`: what a start makes of its environment. `lower` is `str::to_lowercase`. The environment is a lookup
of the variables with the files the `_FILE` variables point to.
-/

namespace GoblinPay.Env

open Text

inductive Tls
  | off
  | rustls (cert key : String)
  deriving DecidableEq, Repr

inductive Chain
  | mainnet | testnet
  deriving DecidableEq, Repr

inductive RelayMode
  | bundled | external
  deriving DecidableEq, Repr

/-- A sensitive value. -/
structure Secret where
  reveal : String
  deriving DecidableEq, Repr

structure Config where
  bind : String
  tls : Tls
  dbPath : String
  dataDir : String
  nodeUrl : String
  chain : Chain
  relayMode : RelayMode
  relays : List String
  bundledRelayUrl : String
  ingest : Bool
  checkoutNostr : Bool
  checkoutSlatepack : Bool
  matchMode : MatchMode
  mnemonic : Option Secret
  walletPassword : Option Secret
  nsec : Option Secret
  ncryptsec : Option Secret
  publicUrl : String
  apiToken : Option Secret
  adminToken : Option Secret
  webhookUrl : Option String
  webhookSecret : Option Secret
  qrLogo : Option String
  merchantNpub : Option String
  notifyMerchantDm : Bool
  notifyPayerReceipt : Bool
  endpubRotateInterval : Int64
  endpubOverlapEpochs : Int64
  rateSource : Rates.RateSource
  rateCurrencies : List String
  rateCacheTtl : Int64
  quoteTtl : Int64
  rateStaleMax : Int64
  confirmationsRequired : Int64
  grin1Rail : Bool
  grin1ForeignPort : UInt16
  /-- the names of the money secrets that came inline, never a value -/
  inlineSecretVars : List String
  deriving DecidableEq, Repr

def deprecatedInlineSecrets : List String := ["GP_MNEMONIC", "GP_WALLET_PASSWORD", "GP_NSEC"]

/-- `Config::default` -/
def Config.default : Config where
  bind := "127.0.0.1:8080"
  tls := .off
  dbPath := "./goblinpay.db"
  dataDir := "./gp-data"
  nodeUrl := "https://main.gri.mw"
  chain := .mainnet
  relayMode := .bundled
  relays := []
  bundledRelayUrl := "ws://127.0.0.1:7777"
  ingest := true
  checkoutNostr := true
  checkoutSlatepack := true
  matchMode := .memo
  mnemonic := none
  walletPassword := none
  nsec := none
  ncryptsec := none
  publicUrl := "http://127.0.0.1:8080"
  apiToken := none
  adminToken := none
  webhookUrl := none
  webhookSecret := none
  qrLogo := none
  merchantNpub := none
  notifyMerchantDm := false
  notifyPayerReceipt := false
  endpubRotateInterval := 0
  endpubOverlapEpochs := 1
  rateSource := .coinGecko
  rateCurrencies := ["usd"]
  rateCacheTtl := 60
  quoteTtl := 900
  rateStaleMax := 0
  confirmationsRequired := 10
  grin1Rail := false
  grin1ForeignPort := 3416
  inlineSecretVars := []

end GoblinPay.Env

namespace GoblinPay

/-- The variables, and what `fs::read_to_string` makes of a path. -/
structure Env where
  get : String → Option String
  readToString : String → Except String String

namespace Env

open Text

/-! ## Reading one variable -/

/-- The digits of an integer, at least one. -/
def parseDigits (cs : List Char) : Option Nat :=
  if cs ≠ [] ∧ cs.all Char.isDigit then some (Nat.ofDigitChars 10 cs 0) else none

/-- `str::parse::<i64>` -/
def parseI64Chars (cs : List Char) : Option Int64 :=
  match cs with
  | '-' :: rest => (parseDigits rest).bind fun n => if n ≤ 2 ^ 63 then some (Int64.ofInt (-n)) else none
  | '+' :: rest => (parseDigits rest).bind fun n => if n < 2 ^ 63 then some (Int64.ofInt n) else none
  | rest => (parseDigits rest).bind fun n => if n < 2 ^ 63 then some (Int64.ofInt n) else none

/-- `str::parse::<u16>` -/
def parseU16Chars (cs : List Char) : Option UInt16 :=
  match cs with
  | '+' :: rest => (parseDigits rest).bind fun n => if n < 2 ^ 16 then some (UInt16.ofNat n) else none
  | rest => (parseDigits rest).bind fun n => if n < 2 ^ 16 then some (UInt16.ofNat n) else none

/-- A `match` on the text of a variable, `default` where it is unset. -/
def choice {α : Type} (e : Env) (key default must : String) (options : List (String × α)) : Except String α :=
  let other := (e.get key).getD default
  match options.lookup other with
  | some a => .ok a
  | none => .error s!"{key} must be {must} (got `{other}`)"

def parseBool (e : Env) (key : String) (default : Bool) : Except String Bool :=
  match e.get key with
  | none => .ok default
  | some other =>
    if other = "on" then .ok true
    else if other = "off" then .ok false
    else .error s!"{key} must be `on` or `off` (got `{other}`)"

def parseI64 (e : Env) (key : String) (default : Int64) : Except String Int64 :=
  match e.get key with
  | none => .ok default
  | some v =>
    match parseI64Chars (trimChars v.toList) with
    | some n => .ok n
    | none => .error s!"{key} must be an integer (got `{v}`)"

/-- The secret in a mounted file, without the line ends behind it. -/
def mounted (e : Env) (fileKey path : String) : Except String (Option Secret) :=
  match e.readToString path with
  | .error err => .error s!"{fileKey} `{path}` unreadable: {err}"
  | .ok text =>
    let value := text.toList.rdropWhile fun c => c = '\n' || c = '\r'
    if value.isEmpty then .error s!"{fileKey} `{path}` is empty" else .ok (some ⟨String.ofList value⟩)

/-- From `KEY`, or from the file `KEY_FILE` names; both is an error. -/
def secret (e : Env) (key : String) : Except String (Option Secret) :=
  let fileKey := key ++ "_FILE"
  match e.get key, e.get fileKey with
  | some _, some _ => .error s!"set only one of {key} and {fileKey}"
  | some value, none => .ok (some ⟨value⟩)
  | none, some path => e.mounted fileKey path
  | none, none => .ok none

/-- A comma-separated list: trimmed, what is empty left out. -/
def listed (raw : String) : List String :=
  ((raw.toList.splitOn ',').map fun piece => String.ofList (trimChars piece)).filter fun s => !s.isEmpty

def tls (e : Env) : Except String Tls :=
  let other := (e.get "GP_TLS").getD "off"
  if other = "off" then .ok .off
  else if other = "rustls" then
    match e.get "GP_TLS_CERT" with
    | none => .error "GP_TLS=rustls requires GP_TLS_CERT (PEM certificate chain path)"
    | some cert =>
      match e.get "GP_TLS_KEY" with
      | none => .error "GP_TLS=rustls requires GP_TLS_KEY (PEM private key path)"
      | some key => .ok (.rustls cert key)
  else .error s!"GP_TLS must be `off` or `rustls` (got `{other}`)"

def bundledRelayUrl (e : Env) (default : String) : String :=
  (((e.get "GP_BUNDLED_RELAY_URL").map trim).filter fun s => !s.isEmpty).getD default

/-- The base of the links: without trailing slashes, else where the server binds. -/
def publicUrl (e : Env) (bind : String) : String :=
  (((e.get "GP_PUBLIC_URL").map fun u => String.ofList (u.toList.rdropWhile (· = '/'))).filter fun u => !u.isEmpty).getD
    ("http://" ++ bind)

def notBlank (s : String) : Bool := !(trim s).isEmpty

def qrLogo (e : Env) : Option String :=
  match e.get "GP_QR_LOGO" with
  | none => none
  | some other =>
    if other = "off" ∨ other = "none" ∨ other = "" then none
    else if other = "builtin" ∨ other = "goblin" then some "builtin"
    else some other

def grin1ForeignPort (e : Env) : Except String UInt16 :=
  match e.get "GP_GRIN1_FOREIGN_PORT" with
  | none => .ok 3416
  | some v =>
    match parseU16Chars (trimChars v.toList) with
    | some n => .ok n
    | none => .error s!"GP_GRIN1_FOREIGN_PORT must be a port 1-65535 (got `{v}`)"

section

variable (lower : String → String)

/-- Which methods the list names: unknown ones are passed over, none at all is both. -/
def parseCheckoutMethods (raw : Option String) : Bool × Bool :=
  match raw with
  | none => (true, true)
  | some raw =>
    let toks := (raw.toList.splitOn ',').map fun piece => lower (String.ofList (trimChars piece))
    let nostr := toks.contains "nostr"
    let slatepack := toks.contains "slatepack"
    if !nostr && !slatepack then (true, true) else (nostr, slatepack)

def rateCurrencies (e : Env) : Except String (List String) :=
  match e.get "GP_RATE_CURRENCIES" with
  | none => .ok ["usd"]
  | some raw =>
    let list := ((raw.toList.splitOn ',').map fun piece => lower (String.ofList (trimChars piece))).filter fun s => !s.isEmpty
    if list.isEmpty then .error "GP_RATE_CURRENCIES must list at least one currency" else .ok list

/-! ## The whole configuration -/

/-- `if bad { return Err(message) }` -/
def refuse (bad : Bool) (message : String) : Except String Unit := if bad then .error message else .ok ()

/-- Neither `http://` nor `https://` begins the URL. -/
def schemeless (url : String) : Bool := !"http://".toList.isPrefixOf url.toList && !"https://".toList.isPrefixOf url.toList

/-- The checks a configuration passes before it is used. -/
def Config.validate (cfg : Config) : Except String Unit := do
  refuse cfg.bind.isEmpty "GP_BIND must not be empty"
  refuse cfg.dbPath.isEmpty "GP_DB_PATH must not be empty"
  refuse cfg.dataDir.isEmpty "GP_DATA_DIR must not be empty"
  refuse (schemeless cfg.nodeUrl) s!"GP_NODE_URL must start with http:// or https:// (got `{cfg.nodeUrl}`)"
  refuse (cfg.relayMode = .external && cfg.relays.isEmpty) "GP_RELAY_MODE=external requires GP_RELAYS"
  refuse (cfg.relayMode = .bundled && (trim cfg.bundledRelayUrl).isEmpty)
    "GP_RELAY_MODE=bundled requires a non-empty GP_BUNDLED_RELAY_URL"
  refuse (cfg.nsec.isSome && cfg.ncryptsec.isSome) "set only one of GP_NSEC and GP_NCRYPTSEC"
  refuse (cfg.webhookUrl.isSome && cfg.webhookSecret.isNone)
    "GP_WEBHOOK_URL requires GP_WEBHOOK_SECRET (webhooks are HMAC-signed)"
  refuse (cfg.endpubOverlapEpochs < 0) "GP_ENDPUB_OVERLAP_EPOCHS must be >= 0"
  refuse (cfg.endpubRotateInterval < 0) "GP_ENDPUB_ROTATE_INTERVAL must be >= 0 (0 = off)"
  refuse cfg.rateCurrencies.isEmpty "GP_RATE_CURRENCIES must list at least one currency"
  refuse (cfg.quoteTtl ≤ 0) "GP_QUOTE_TTL must be > 0 (seconds)"
  refuse (cfg.rateCacheTtl < 0) "GP_RATE_CACHE_TTL must be >= 0 (0 = always refetch)"
  refuse (cfg.rateStaleMax < 0) "GP_RATE_STALE_MAX must be >= 0 (0 = off)"
  refuse (cfg.confirmationsRequired < 1) "GP_CONFIRMATIONS must be >= 1"

/-- `Config::from_lookup` -/
def Config.fromLookup (e : Env) : Except String Config := do
  let bind := (e.get "GP_BIND").getD Config.default.bind
  let tls ← e.tls
  let dbPath := (e.get "GP_DB_PATH").getD Config.default.dbPath
  let dataDir := (e.get "GP_DATA_DIR").getD Config.default.dataDir
  let nodeUrl := (e.get "GP_NODE_URL").getD Config.default.nodeUrl
  let chain ← e.choice "GP_CHAIN" "mainnet" "`mainnet` or `testnet`" [("mainnet", Chain.mainnet), ("testnet", Chain.testnet)]
  let relayMode ← e.choice "GP_RELAY_MODE" "bundled" "`bundled` or `external`"
    [("bundled", RelayMode.bundled), ("external", RelayMode.external)]
  let relays := listed ((e.get "GP_RELAYS").getD "")
  let bundledRelayUrl := e.bundledRelayUrl Config.default.bundledRelayUrl
  let ingest ← e.choice "GP_INGEST" "on" "`on` or `off`" [("on", true), ("off", false)]
  let methods := parseCheckoutMethods lower (e.get "GP_CHECKOUT_METHODS")
  let matchMode ← e.choice "GP_MATCH_MODE" "memo" "`memo`, `derived`, or `amount`"
    [("memo", MatchMode.memo), ("derived", MatchMode.derived), ("amount", MatchMode.amount)]
  let mnemonic ← e.secret "GP_MNEMONIC"
  let walletPassword ← e.secret "GP_WALLET_PASSWORD"
  let nsec ← e.secret "GP_NSEC"
  let ncryptsec ← e.secret "GP_NCRYPTSEC"
  let inlineSecretVars := deprecatedInlineSecrets.filter fun k => (e.get k).isSome
  let publicUrl := e.publicUrl bind
  let apiToken ← e.secret "GP_API_TOKEN"
  let adminToken ← e.secret "GP_ADMIN_TOKEN"
  let webhookUrl := (e.get "GP_WEBHOOK_URL").filter notBlank
  let webhookSecret ← e.secret "GP_WEBHOOK_SECRET"
  let qrLogo := e.qrLogo
  let merchantNpub := (e.get "GP_MERCHANT_NPUB").filter notBlank
  let notifyMerchantDm ← e.parseBool "GP_NOTIFY_MERCHANT_DM" false
  let notifyPayerReceipt ← e.parseBool "GP_NOTIFY_PAYER_RECEIPT" false
  let endpubRotateInterval ← e.parseI64 "GP_ENDPUB_ROTATE_INTERVAL" 0
  let endpubOverlapEpochs ← e.parseI64 "GP_ENDPUB_OVERLAP_EPOCHS" 1
  let rateSource ← e.choice "GP_RATE_SOURCE" "coingecko" "`coingecko`" [("coingecko", Rates.RateSource.coinGecko)]
  let rateCurrencies ← e.rateCurrencies lower
  let rateCacheTtl ← e.parseI64 "GP_RATE_CACHE_TTL" 60
  let quoteTtl ← e.parseI64 "GP_QUOTE_TTL" 900
  let rateStaleMax ← e.parseI64 "GP_RATE_STALE_MAX" 0
  let confirmationsRequired ← e.parseI64 "GP_CONFIRMATIONS" 10
  let grin1Rail ← e.parseBool "GP_GRIN1_RAIL" false
  let grin1ForeignPort ← e.grin1ForeignPort
  let cfg : Config := {
    bind, tls, dbPath, dataDir, nodeUrl, chain, relayMode, relays, bundledRelayUrl, ingest, matchMode, mnemonic,
    walletPassword, nsec, ncryptsec, publicUrl, apiToken, adminToken, webhookUrl, webhookSecret, qrLogo, merchantNpub,
    notifyMerchantDm, notifyPayerReceipt, endpubRotateInterval, endpubOverlapEpochs, rateSource, rateCurrencies,
    rateCacheTtl, quoteTtl, rateStaleMax, confirmationsRequired, grin1Rail, grin1ForeignPort, inlineSecretVars
    checkoutNostr := methods.1
    checkoutSlatepack := methods.2 }
  cfg.validate
  pure cfg

end

end Env

end GoblinPay
