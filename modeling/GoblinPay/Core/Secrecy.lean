import GoblinPay.Core.Config
import GoblinPay.Outcome

/-!
# What a start reveals of its secrets

`gp-core/src/config.rs`: the startup summary and the warning about inline secrets. Environments that differ in the values of
secrets only, inline or in the files, cannot be told apart by anything a start prints.
-/

namespace GoblinPay.Env

open Text Outcome

def Chain.debug : Chain → String
  | .mainnet => "Mainnet"
  | .testnet => "Testnet"

def RelayMode.debug : RelayMode → String
  | .bundled => "Bundled"
  | .external => "External"

def matchModeDebug : MatchMode → String
  | .memo => "Memo"
  | .derived => "Derived"
  | .amount => "Amount"

def set (o : Bool) : String := if o then "set" else "unset"

def onOff (o : Bool) : String := if o then "on" else "off"

def Tls.summary : Tls → String
  | .off => "off"
  | .rustls cert key => s!"rustls(cert={cert},key={key})"

def Config.checkoutMethodsStr (cfg : Config) : String :=
  ",".intercalate ((if cfg.checkoutNostr then ["nostr"] else []) ++ if cfg.checkoutSlatepack then ["slatepack"] else [])

section

variable (debug : List String → String)

/-- The startup log line, a setting after the other; `debug` is `{:?}` of a list of texts. -/
def Config.summary (cfg : Config) : String := " ".intercalate [
  "bind=" ++ cfg.bind,
  "tls=" ++ cfg.tls.summary,
  "db=" ++ cfg.dbPath,
  "data_dir=" ++ cfg.dataDir,
  "node=" ++ cfg.nodeUrl,
  "chain=" ++ cfg.chain.debug,
  "relay_mode=" ++ cfg.relayMode.debug,
  "relays=" ++ debug cfg.relays,
  "bundled_relay=" ++ cfg.bundledRelayUrl,
  "ingest=" ++ onOff cfg.ingest,
  "checkout_methods=" ++ cfg.checkoutMethodsStr,
  "match_mode=" ++ matchModeDebug cfg.matchMode,
  "mnemonic=" ++ set cfg.mnemonic.isSome,
  "wallet_password=" ++ set cfg.walletPassword.isSome,
  "nsec=" ++ set cfg.nsec.isSome,
  "ncryptsec=" ++ set cfg.ncryptsec.isSome,
  "public_url=" ++ cfg.publicUrl,
  "api_token=" ++ set cfg.apiToken.isSome,
  "admin_token=" ++ set cfg.adminToken.isSome,
  "webhook_url=" ++ cfg.webhookUrl.getD "unset",
  "webhook_secret=" ++ set cfg.webhookSecret.isSome,
  "qr_logo=" ++ cfg.qrLogo.getD "off",
  "merchant_npub=" ++ cfg.merchantNpub.getD "unset",
  "notify_merchant_dm=" ++ onOff cfg.notifyMerchantDm,
  "notify_payer_receipt=" ++ onOff cfg.notifyPayerReceipt,
  "endpub_rotate_interval=" ++ toString cfg.endpubRotateInterval,
  "endpub_overlap_epochs=" ++ toString cfg.endpubOverlapEpochs,
  "rate_source=" ++ cfg.rateSource.asStr,
  "rate_currencies=" ++ debug cfg.rateCurrencies,
  "rate_cache_ttl=" ++ toString cfg.rateCacheTtl,
  "quote_ttl=" ++ toString cfg.quoteTtl,
  "rate_stale_max=" ++ toString cfg.rateStaleMax,
  "confirmations_required=" ++ toString cfg.confirmationsRequired,
  "grin1_rail=" ++ onOff cfg.grin1Rail,
  "grin1_foreign_port=" ++ toString cfg.grin1ForeignPort]

def Config.inlineSecretWarning (cfg : Config) : Option String :=
  if cfg.inlineSecretVars.isEmpty then none
  else
    let names := ", ".intercalate cfg.inlineSecretVars
    let namesFile := ", ".intercalate (cfg.inlineSecretVars.map fun n => n ++ "_FILE")
    some (s!"DEPRECATED: money secret(s) supplied inline as environment variables: {names}. " ++
      "An inline env var is readable by the whole process and, via /proc, by root for " ++
      s!"the life of the service. Deliver them as files instead ({namesFile}) or via a " ++
      "systemd credential; see the shipped gp-server.service. The inline path still " ++
      "works but is deprecated and may be removed.")

/-- What `main` prints of its configuration: why there is none, or the warning and the summary. -/
def report : Except String Config → List String
  | .error err => [s!"configuration error: {err}"]
  | .ok cfg => (cfg.inlineSecretWarning.map fun warning => s!"warning: {warning}").toList ++ [cfg.summary debug]

/-! ## Environments that differ in secrets -/

/-- The variables that hold a secret. -/
def secretKeys : List String :=
  ["GP_MNEMONIC", "GP_WALLET_PASSWORD", "GP_NSEC", "GP_NCRYPTSEC", "GP_API_TOKEN", "GP_ADMIN_TOKEN", "GP_WEBHOOK_SECRET"]

/-- Whether a secret's file has anything in it. -/
def blank (text : String) : Bool := (text.toList.rdropWhile fun c => c = '\n' || c = '\r').isEmpty

/-- The same variables are set, to the same values unless they are secrets, and the same files are there, whatever is in them. -/
structure Alike (e e' : Env) : Prop where
  plain : ∀ key, key ∉ secretKeys → e.get key = e'.get key
  inline : ∀ key ∈ secretKeys, (e.get key).isSome = (e'.get key).isSome
  files : ∀ path, Agree blank (e.readToString path) (e'.readToString path)

/-- A secret with its value painted over. -/
def Secret.blot (_ : Secret) : Secret := ⟨""⟩

/-- A configuration without the values of its secrets. -/
def Config.blot (cfg : Config) : Config := { cfg with
  mnemonic := cfg.mnemonic.map Secret.blot
  walletPassword := cfg.walletPassword.map Secret.blot
  nsec := cfg.nsec.map Secret.blot
  ncryptsec := cfg.ncryptsec.map Secret.blot
  apiToken := cfg.apiToken.map Secret.blot
  adminToken := cfg.adminToken.map Secret.blot
  webhookSecret := cfg.webhookSecret.map Secret.blot }

/-- The summary does not read what is painted over. -/
theorem summary_blot (cfg : Config) : cfg.blot.summary debug = cfg.summary debug := by
  have methods : cfg.blot.checkoutMethodsStr = cfg.checkoutMethodsStr := rfl
  rw [Config.summary, Config.summary, methods]
  simp only [Config.blot, Option.isSome_map]

/-- The warning does not read what is painted over. -/
theorem inlineSecretWarning_blot (cfg : Config) : cfg.blot.inlineSecretWarning = cfg.inlineSecretWarning := rfl

/-- The checks look at no secret's value. -/
theorem validate_blot (cfg : Config) : cfg.blot.validate = cfg.validate := by
  simp only [Config.validate, Config.blot, Option.isSome_map, Option.isNone_map]
  rfl

/-- Configurations that agree but for their secrets are reported alike. -/
theorem report_agree {x y : Except String Config} (h : Agree Config.blot x y) : report debug x = report debug y := by
  cases x with
  | error err =>
    have same : y = .error err := (h.errors err).1 rfl
    rw [same]
  | ok cfg =>
    cases y with
    | error err =>
      have same : (.ok cfg : Except String Config) = .error err := (h.errors err).2 rfl
      cases same
    | ok cfg' =>
      have same : cfg.blot = cfg'.blot := h.values rfl rfl
      rw [report, report, ← summary_blot debug cfg, ← inlineSecretWarning_blot cfg, same, summary_blot,
        inlineSecretWarning_blot]

end

section

variable {e e' : Env} (h : Alike e e')
include h

/-- A mounted secret is there, missing or refused on both sides. -/
theorem mounted_agree (fileKey path : String) :
    Agree (Option.map Secret.blot) (e.mounted fileKey path) (e'.mounted fileKey path) := by
  have read := h.files path
  unfold mounted
  cases ht : e.readToString path with
  | error err =>
    rw [ht] at read
    rw [(read.errors err).1 rfl]
    exact Agree.refl _ _
  | ok text =>
    cases ht' : e'.readToString path with
    | error err =>
      rw [ht, ht'] at read
      cases (read.errors err).2 rfl
    | ok text' =>
      rw [ht, ht'] at read
      have same : blank text = blank text' := read.values rfl rfl
      unfold blank at same
      dsimp only
      rw [same]
      split
      · exact Agree.refl _ _
      · exact Agree.ok rfl

/-- A secret variable is set, missing or refused on both sides. -/
theorem secret_agree {key : String} (hkey : key ∈ secretKeys) :
    Agree (Option.map Secret.blot) (e.secret key) (e'.secret key) := by
  have fileKey : ∀ key ∈ secretKeys, key ++ "_FILE" ∉ secretKeys := by decide
  have set := h.inline key hkey
  have file := h.plain (key ++ "_FILE") (fileKey key hkey)
  simp only [secret, file]
  cases hv : e.get key with
  | some v =>
    cases hv' : e'.get key with
    | none =>
      rw [hv, hv'] at set
      cases set
    | some v' =>
      cases e'.get (key ++ "_FILE") with
      | some path => exact Agree.refl _ _
      | none => exact Agree.ok rfl
  | none =>
    cases hv' : e'.get key with
    | some v' =>
      rw [hv, hv'] at set
      cases set
    | none =>
      cases e'.get (key ++ "_FILE") with
      | none => exact Agree.refl _ _
      | some path => exact mounted_agree h _ path

/-- A choice that is no secret is read alike. -/
theorem choice_alike {α : Type} {key : String} (hkey : key ∉ secretKeys) (default must : String) (options : List (String × α)) :
    e.choice key default must options = e'.choice key default must options := by
  rw [choice, choice, h.plain key hkey]

theorem parseBool_alike {key : String} (hkey : key ∉ secretKeys) (default : Bool) : e.parseBool key default = e'.parseBool key default := by
  rw [parseBool, parseBool, h.plain key hkey]

theorem parseI64_alike {key : String} (hkey : key ∉ secretKeys) (default : Int64) : e.parseI64 key default = e'.parseI64 key default := by
  rw [parseI64, parseI64, h.plain key hkey]

theorem tls_alike : e.tls = e'.tls := by
  rw [tls, tls, h.plain "GP_TLS" (by decide), h.plain "GP_TLS_CERT" (by decide), h.plain "GP_TLS_KEY" (by decide)]

theorem bundledRelayUrl_alike (default : String) : e.bundledRelayUrl default = e'.bundledRelayUrl default := by
  rw [bundledRelayUrl, bundledRelayUrl, h.plain "GP_BUNDLED_RELAY_URL" (by decide)]

theorem publicUrl_alike (bind : String) : e.publicUrl bind = e'.publicUrl bind := by
  rw [publicUrl, publicUrl, h.plain "GP_PUBLIC_URL" (by decide)]

theorem qrLogo_alike : e.qrLogo = e'.qrLogo := by
  rw [qrLogo, qrLogo, h.plain "GP_QR_LOGO" (by decide)]

theorem grin1ForeignPort_alike : e.grin1ForeignPort = e'.grin1ForeignPort := by
  rw [grin1ForeignPort, grin1ForeignPort, h.plain "GP_GRIN1_FOREIGN_PORT" (by decide)]

theorem rateCurrencies_alike (lower : String → String) : e.rateCurrencies lower = e'.rateCurrencies lower := by
  rw [rateCurrencies, rateCurrencies, h.plain "GP_RATE_CURRENCIES" (by decide)]

theorem inlineSecretVars_alike :
    (deprecatedInlineSecrets.filter fun k => (e.get k).isSome) = deprecatedInlineSecrets.filter fun k => (e'.get k).isSome := by
  have sub : ∀ k ∈ deprecatedInlineSecrets, k ∈ secretKeys := by decide
  apply List.filter_congr
  intro k hk
  rw [h.inline k (sub k hk)]

/-- Loading agrees, step by step in the order of the source. -/
theorem fromLookup_agree (lower : String → String) :
    Agree Config.blot (Config.fromLookup lower e) (Config.fromLookup lower e') := by
  unfold Config.fromLookup
  dsimp only
  rw [h.plain "GP_BIND" (by decide), h.plain "GP_DB_PATH" (by decide), h.plain "GP_DATA_DIR" (by decide),
    h.plain "GP_NODE_URL" (by decide), h.plain "GP_RELAYS" (by decide), h.plain "GP_CHECKOUT_METHODS" (by decide),
    h.plain "GP_WEBHOOK_URL" (by decide), h.plain "GP_MERCHANT_NPUB" (by decide), bundledRelayUrl_alike h,
    publicUrl_alike h, qrLogo_alike h, inlineSecretVars_alike h]
  apply Agree.step (tls_alike h)
  intro tls
  apply Agree.step (choice_alike h (by decide) _ _ _)
  intro chain
  apply Agree.step (choice_alike h (by decide) _ _ _)
  intro relayMode
  apply Agree.step (choice_alike h (by decide) _ _ _)
  intro ingest
  apply Agree.step (choice_alike h (by decide) _ _ _)
  intro matchMode
  apply Agree.bind (secret_agree h (by decide))
  intro mnemonic mnemonic' hmnemonic
  apply Agree.bind (secret_agree h (by decide))
  intro walletPassword walletPassword' hwalletPassword
  apply Agree.bind (secret_agree h (by decide))
  intro nsec nsec' hnsec
  apply Agree.bind (secret_agree h (by decide))
  intro ncryptsec ncryptsec' hncryptsec
  apply Agree.bind (secret_agree h (by decide))
  intro apiToken apiToken' hapiToken
  apply Agree.bind (secret_agree h (by decide))
  intro adminToken adminToken' hadminToken
  apply Agree.bind (secret_agree h (by decide))
  intro webhookSecret webhookSecret' hwebhookSecret
  apply Agree.step (parseBool_alike h (by decide) _)
  intro notifyMerchantDm
  apply Agree.step (parseBool_alike h (by decide) _)
  intro notifyPayerReceipt
  apply Agree.step (parseI64_alike h (by decide) _)
  intro endpubRotateInterval
  apply Agree.step (parseI64_alike h (by decide) _)
  intro endpubOverlapEpochs
  apply Agree.step (choice_alike h (by decide) _ _ _)
  intro rateSource
  apply Agree.step (rateCurrencies_alike h lower)
  intro rateCurrencies
  apply Agree.step (parseI64_alike h (by decide) _)
  intro rateCacheTtl
  apply Agree.step (parseI64_alike h (by decide) _)
  intro quoteTtl
  apply Agree.step (parseI64_alike h (by decide) _)
  intro rateStaleMax
  apply Agree.step (parseI64_alike h (by decide) _)
  intro confirmationsRequired
  apply Agree.step (parseBool_alike h (by decide) _)
  intro grin1Rail
  apply Agree.step (grin1ForeignPort_alike h)
  intro grin1ForeignPort
  -- what is left is the record and its checks
  have checked : ∀ {cfg cfg' : Config}, cfg.blot = cfg'.blot →
      Agree Config.blot (do cfg.validate; pure cfg) (do cfg'.validate; pure cfg') := by
    intro cfg cfg' hblot
    have same : cfg.validate = cfg'.validate := by rw [← validate_blot cfg, hblot, validate_blot]
    apply Agree.step same
    intro _
    exact Agree.ok hblot
  apply checked
  simp only [Config.blot, hmnemonic, hwalletPassword, hnsec, hncryptsec, hapiToken, hadminToken, hwebhookSecret]

end

/-- Environments that differ in the values of secrets only start the same server: what is printed is the same, down to the
reason there is for not starting, and so is the configuration but for the secrets. -/
theorem startup_blind (lower : String → String) (debug : List String → String) {e e' : Env} (h : Alike e e') :
    report debug (Config.fromLookup lower e) = report debug (Config.fromLookup lower e') ∧
      (Config.fromLookup lower e).map Config.blot = (Config.fromLookup lower e').map Config.blot :=
  ⟨report_agree debug (fromLookup_agree h lower), fromLookup_agree h lower⟩

/-- A till with its seed inline and its identity in a file. -/
def sealedTill (mnemonic nsec : String) : Env where
  get key :=
    if key = "GP_MNEMONIC" then some mnemonic
    else if key = "GP_NSEC_FILE" then some "/run/nsec"
    else none
  readToString _ := .ok nsec

theorem alike_sealedTill (mnemonic mnemonic' : String) {nsec nsec' : String} (h : blank nsec = blank nsec') :
    Alike (sealedTill mnemonic nsec) (sealedTill mnemonic' nsec') := by
  constructor
  · intro key hkey
    have other : key ≠ "GP_MNEMONIC" := by
      rintro rfl
      exact hkey (by decide)
    simp only [sealedTill, other, if_false]
  · intro key hkey
    simp only [sealedTill]
    split
    · rfl
    · rfl
  · intro path
    exact Agree.ok h

theorem tills_report_alike : report (fun _ => "") (Config.fromLookup (fun s => s) (sealedTill "abandon ability" "nsec1qq\n")) =
    report (fun _ => "") (Config.fromLookup (fun s => s) (sealedTill "zoo zone" "nsec1zz")) :=
  (startup_blind (fun s => s) (fun _ => "") (alike_sealedTill _ _ (by decide))).1

end GoblinPay.Env
