import GoblinPay.Core.Config
import GoblinPay.Core.Setup
import GoblinPay.Outcome

/-!
# Booting from the wizard's file

`gp-server/src/setup.rs`: a first run reads the environment file it has just written as its environment. What it starts with
is what the wizard rendered.
-/

namespace GoblinPay.Setup

open Text Env Outcome

variable (lower : String → String)

/-- The settings of a file for an environment. -/
def fileEnv (contents : String) (readToString : String → Except String String) : Env := ⟨writtenEnv contents, readToString⟩

theorem fileEnv_get (contents : String) (readToString : String → Except String String) (key : String) :
    (fileEnv contents readToString).get key = writtenEnv contents key := rfl

theorem fileEnv_readToString (contents : String) (readToString : String → Except String String) :
    (fileEnv contents readToString).readToString = readToString := rfl

/-- `config_from_written_env` -/
def configFromWrittenEnv (readToString : String → Except String String) (path : String) : Except String Env.Config :=
  match readToString path with
  | .error e => .error s!"cannot read {path}: {e}"
  | .ok contents => Config.fromLookup lower (fileEnv contents readToString)

/-- A value that is read back as it is: one line, with nothing to trim, and not empty. -/
structure Tidy (text : String) : Prop where
  trimmed : trimChars text.toList = text.toList
  nonempty : text.toList ≠ []
  oneLine : '\n' ∉ text.toList

/-- Values a comma-separated list gives back as they are. -/
structure TidyList (texts : List String) : Prop where
  nonempty : texts ≠ []
  tidy : ∀ text ∈ texts, Tidy text
  plain : ∀ text ∈ texts, ',' ∉ text.toList

/-- What is left of a URL that may have blanks or slashes at its ends. -/
def base (url : String) : String := String.ofList ((trimChars url.toList).rdropWhile (· = '/'))

/-- Answers as the wizard's questions take them. -/
structure SetupParams.Clean (p : SetupParams) : Prop where
  bind : Tidy p.bind
  publicUrl : '\n' ∉ p.publicUrl.toList
  publicUrl_base : base p.publicUrl ≠ ""
  webhookUrl : Tidy p.webhookUrl
  nodeUrl : '\n' ∉ p.nodeUrl.toList
  nodeUrl_scheme : schemeless (trim p.nodeUrl) = false
  relays : TidyList p.relays
  currencies : TidyList p.currencies
  currencies_lower : ∀ currency ∈ p.currencies, lower currency = currency
  apiToken : Tidy p.apiToken
  adminToken : Tidy p.adminToken
  webhookSecret : Tidy p.webhookSecret
  dataDir : Tidy p.dataDir
  dbPath : Tidy p.dbPath
  walletPasswordFile : Tidy p.walletPasswordFile

/-- The configuration the wizard's answers stand for. -/
def SetupParams.config (p : SetupParams) (password : String) : Env.Config := { Config.default with
  bind := p.bind
  publicUrl := base p.publicUrl
  webhookUrl := some p.webhookUrl
  webhookSecret := some ⟨p.webhookSecret⟩
  nodeUrl := trim p.nodeUrl
  relayMode := .external
  relays := p.relays
  rateCurrencies := p.currencies
  matchMode := .derived
  apiToken := some ⟨p.apiToken⟩
  adminToken := some ⟨p.adminToken⟩
  walletPassword := some ⟨password⟩
  dataDir := p.dataDir
  dbPath := p.dbPath
  grin1Rail := p.grin1Rail }

theorem head_trimmed {cs : List Char} (h : trimChars cs = cs) : ∀ c ∈ cs.head?, isWhitespace c = false := by
  intro c hc
  cases cs with
  | nil => cases hc
  | cons a as =>
    have first : a = c := Option.some.inj hc
    rw [← first]
    by_contra hspace
    have shorter : (trimChars (a :: as)).length ≤ as.length := by
      have dropped : (a :: as).dropWhile isWhitespace = as.dropWhile isWhitespace := List.dropWhile_cons_of_pos (by simpa using hspace)
      rw [trimChars, dropped, List.length_reverse]
      have first := (List.dropWhile_sublist isWhitespace (l := (as.dropWhile isWhitespace).reverse)).length_le
      have second := (List.dropWhile_sublist isWhitespace (l := as)).length_le
      rw [List.length_reverse] at first
      omega
    rw [h, List.length_cons] at shorter
    omega

theorem last_trimmed {cs : List Char} (h : trimChars cs = cs) : ∀ c ∈ cs.getLast?, isWhitespace c = false := by
  intro c hc
  have hne : cs ≠ [] := by
    rintro rfl
    cases hc
  have split : cs = cs.dropLast ++ [c] := by
    rw [List.getLast?_eq_some_getLast hne] at hc
    cases hc
    exact (List.dropLast_append_getLast hne).symm
  by_contra hspace
  have shorter : (trimChars cs).length ≤ cs.dropLast.length := by
    rw [split, trimChars_concat (by simpa using hspace), List.dropLast_concat]
    unfold trimChars
    rw [List.length_reverse]
    have first := (List.dropWhile_sublist isWhitespace (l := (cs.dropLast.dropWhile isWhitespace).reverse)).length_le
    have second := (List.dropWhile_sublist isWhitespace (l := cs.dropLast)).length_le
    rw [List.length_reverse] at first
    omega
  have hpos := List.length_pos_of_ne_nil hne
  rw [h, List.length_dropLast] at shorter
  omega

theorem Tidy.trim {text : String} (h : Tidy text) : Text.trim text = text := by
  rw [Text.trim, h.trimmed, String.ofList_toList]

theorem Tidy.ne {text : String} (h : Tidy text) : text ≠ "" := by
  rintro rfl
  exact h.nonempty rfl

theorem Tidy.notBlank {text : String} (h : Tidy text) : Env.notBlank text := by
  rw [Env.notBlank, h.trim]
  simpa using h.ne

/-- A word is tidy. -/
theorem tidy_word {text : String} {cs : List Char} (htext : text = String.ofList cs) (h : (cs ≠ [] && cs.all fun c => !isWhitespace c) = true) :
    Tidy text := by
  simp only [Bool.and_eq_true, decide_eq_true_eq, List.all_eq_true, Bool.not_eq_true'] at h
  obtain ⟨hne, hall⟩ := h
  have word : Word cs := ⟨hne, hall⟩
  constructor
  · have front : trimChars (cs ++ []) = cs ++ [] := trimChars_solid word
    rw [List.append_nil] at front
    rw [htext, String.toList_ofList, front]
  · rwa [htext, String.toList_ofList]
  · intro hmem
    rw [htext, String.toList_ofList] at hmem
    have solid : isWhitespace '\n' = false := hall _ hmem
    cases solid

/-- A comma-separated list of tidy values has nothing to trim. -/
theorem TidyList.trimmed {texts : List String} (h : TidyList texts) :
    trimChars (",".intercalate texts).toList = (",".intercalate texts).toList := by
  obtain ⟨hne, htidy, -⟩ := h
  rw [String.toList_intercalate]
  have ends : ∀ texts : List String, texts ≠ [] → (∀ text ∈ texts, Tidy text) →
      (∀ c ∈ (",".toList.intercalate (texts.map String.toList)).head?, isWhitespace c = false) ∧
      (∀ c ∈ (",".toList.intercalate (texts.map String.toList)).getLast?, isWhitespace c = false) ∧
      ",".toList.intercalate (texts.map String.toList) ≠ [] := by
    intro texts
    induction texts with
    | nil => exact fun hne => absurd rfl hne
    | cons text texts ih =>
      intro _ htidy
      have first := htidy text List.mem_cons_self
      cases texts with
      | nil =>
        rw [List.map_singleton, List.intercalate_singleton]
        exact ⟨head_trimmed first.trimmed, last_trimmed first.trimmed, first.nonempty⟩
      | cons t ts =>
        obtain ⟨-, last, some⟩ := ih (List.cons_ne_nil t ts) fun u hu => htidy u (List.mem_cons_of_mem text hu)
        rw [List.map_cons, List.map_cons, List.intercalate_cons_cons, ← List.map_cons, List.append_assoc]
        refine ⟨?_, ?_, List.append_ne_nil_of_left_ne_nil first.nonempty _⟩
        · rw [List.head?_append_of_ne_nil _ first.nonempty]
          exact head_trimmed first.trimmed
        · rw [List.getLast?_append_of_ne_nil _ (List.append_ne_nil_of_right_ne_nil _ some), List.getLast?_append_of_ne_nil _ some]
          exact last
  obtain ⟨first, last, -⟩ := ends texts hne htidy
  exact trimChars_eq_self first last

theorem TidyList.split {texts : List String} (h : TidyList texts) :
    (",".intercalate texts).toList.splitOn ',' = texts.map String.toList := by
  rw [String.toList_intercalate]
  apply List.splitOn_intercalate
  · intro cs hcs
    obtain ⟨text, htext, rfl⟩ := List.mem_map.1 hcs
    exact h.plain text htext
  · simpa using h.nonempty

theorem TidyList.listed {texts : List String} (h : TidyList texts) : Env.listed (",".intercalate texts) = texts := by
  have same : ∀ text ∈ texts, ((fun piece => String.ofList (trimChars piece)) ∘ String.toList) text = id text := by
    intro text htext
    show String.ofList (trimChars text.toList) = text
    rw [(h.tidy text htext).trimmed, String.ofList_toList]
  rw [Env.listed, h.split, List.map_map, List.map_congr_left same, List.map_id, List.filter_eq_self]
  intro text htext
  simpa using (h.tidy text htext).ne

section

variable {lower} {p : SetupParams} (h : p.Clean lower)
include h

theorem SetupParams.Clean.oneLine : p.OneLine where
  bind := h.bind.oneLine
  publicUrl := h.publicUrl
  webhookUrl := h.webhookUrl.oneLine
  nodeUrl := h.nodeUrl
  relays := fun relay hrelay => (h.relays.tidy relay hrelay).oneLine
  currencies := fun currency hcurrency => (h.currencies.tidy currency hcurrency).oneLine
  apiToken := h.apiToken.oneLine
  adminToken := h.adminToken.oneLine
  webhookSecret := h.webhookSecret.oneLine
  dataDir := h.dataDir.oneLine
  dbPath := h.dbPath.oneLine
  walletPasswordFile := h.walletPasswordFile.oneLine

end

theorem choice_unset {α : Type} {e : Env} {key default must : String} {options : List (String × α)} {a : α}
    (hkey : e.get key = none) (h : options.lookup default = some a) : e.choice key default must options = .ok a := by
  simp only [choice, hkey, Option.getD_none, h]

theorem choice_set {α : Type} {e : Env} {key text default must : String} {options : List (String × α)} {a : α}
    (hkey : e.get key = some text) (h : options.lookup text = some a) : e.choice key default must options = .ok a := by
  simp only [choice, hkey, Option.getD_some, h]

theorem parseBool_unset {e : Env} {key : String} (hkey : e.get key = none) (default : Bool) : e.parseBool key default = .ok default := by
  simp only [parseBool, hkey]

theorem parseI64_unset {e : Env} {key : String} (hkey : e.get key = none) (default : Int64) : e.parseI64 key default = .ok default := by
  simp only [parseI64, hkey]

theorem secret_unset {e : Env} {key : String} (hkey : e.get key = none) (hfile : e.get (key ++ "_FILE") = none) :
    e.secret key = .ok none := by
  simp only [secret, hkey, hfile]

theorem secret_inline {e : Env} {key value : String} (hkey : e.get key = some value) (hfile : e.get (key ++ "_FILE") = none) :
    e.secret key = .ok (some ⟨value⟩) := by
  simp only [secret, hkey, hfile]

/-- An environment that sets what the file sets. -/
structure Rendered (p : SetupParams) (e : Env) : Prop where
  got : ∀ {key value}, (key, value) ∈ p.settings → e.get key = some value
  unset : ∀ {key}, key ∉ keys p.grin1Rail → e.get key = none

section

variable {lower : String → String} {p : SetupParams} {e : Env} (r : Rendered p e)
include r

theorem Rendered.absent {key : String} (hkey : key ∉ keys true) : e.get key = none := by
  apply r.unset
  intro hmem
  apply hkey
  cases hrail : p.grin1Rail with
  | true => rwa [hrail] at hmem
  | false =>
    rw [hrail] at hmem
    exact List.mem_append_left _ (by simpa [keys] using hmem)

theorem Rendered.tidy {key value : String} (hmem : (key, trim value) ∈ p.settings) (h : Tidy value) : e.get key = some value := by
  rw [r.got hmem, h.trim]

theorem Rendered.tidyList {key : String} {values : List String} (hmem : (key, trim (",".intercalate values)) ∈ p.settings)
    (h : TidyList values) : e.get key = some (",".intercalate values) := by
  rw [r.got hmem, trim, h.trimmed, String.ofList_toList]

theorem Rendered.secret_none {key : String} (hkey : key ∉ keys true) (hfile : key ++ "_FILE" ∉ keys true) : e.secret key = .ok none :=
  secret_unset (r.absent hkey) (r.absent hfile)

theorem Rendered.secret_some {key value : String} (hmem : (key, trim value) ∈ p.settings) (h : Tidy value)
    (hfile : key ++ "_FILE" ∉ keys true) : e.secret key = .ok (some ⟨value⟩) :=
  secret_inline (r.tidy hmem h) (r.absent hfile)

theorem Rendered.rail : e.parseBool "GP_GRIN1_RAIL" false = .ok p.grin1Rail := by
  cases hrail : p.grin1Rail with
  | true =>
    have on : e.get "GP_GRIN1_RAIL" = some "on" := r.got (by simp [SetupParams.settings, hrail])
    rw [parseBool, on]
    rfl
  | false =>
    have off : e.get "GP_GRIN1_RAIL" = none := r.unset (by rw [hrail]; decide)
    exact parseBool_unset off false

theorem Rendered.publicUrl (h : p.Clean lower) (bind : String) : e.publicUrl bind = base p.publicUrl := by
  have url : e.get "GP_PUBLIC_URL" = some (trim p.publicUrl) := r.got (by simp [SetupParams.settings])
  have kept : String.ofList ((trim p.publicUrl).toList.rdropWhile (· = '/')) = base p.publicUrl := by
    rw [trim, String.toList_ofList, base]
  have some : (base p.publicUrl).isEmpty = false := by simpa using h.publicUrl_base
  simp only [Env.publicUrl, url, Option.map_some, kept, Option.filter_some, some, Bool.not_false, if_true, Option.getD_some]

theorem Rendered.rateCurrencies (h : p.Clean lower) : e.rateCurrencies lower = .ok p.currencies := by
  have set : e.get "GP_RATE_CURRENCIES" = some (",".intercalate p.currencies) :=
    r.tidyList (by simp [SetupParams.settings]) h.currencies
  have same : ∀ currency ∈ p.currencies,
      ((fun piece => lower (String.ofList (trimChars piece))) ∘ String.toList) currency = id currency := by
    intro currency hcurrency
    show lower (String.ofList (trimChars currency.toList)) = currency
    rw [(h.currencies.tidy currency hcurrency).trimmed, String.ofList_toList, h.currencies_lower currency hcurrency]
  have kept : p.currencies.filter (fun s => !s.isEmpty) = p.currencies := by
    rw [List.filter_eq_self]
    intro currency hcurrency
    simpa using (h.currencies.tidy currency hcurrency).ne
  have some : p.currencies.isEmpty = false := by simpa using h.currencies.nonempty
  simp only [Env.rateCurrencies, set, h.currencies.split, List.map_map, List.map_congr_left same, List.map_id, kept, some,
    Bool.false_eq_true, if_false]

theorem Rendered.inlineSecretVars : (deprecatedInlineSecrets.filter fun k => (e.get k).isSome) = [] := by
  have gone : ∀ k ∈ deprecatedInlineSecrets, k ∉ keys true := by decide
  rw [List.filter_eq_nil_iff]
  intro k hk
  rw [r.absent (gone k hk)]
  exact Bool.false_ne_true

omit r in
/-- Clean answers pass the checks. -/
theorem validate_config (h : p.Clean lower) (password : Option Env.Secret) :
    ({ p.config "" with walletPassword := password } : Env.Config).validate = .ok () := by
  have bind : p.bind.isEmpty = false := by simpa using h.bind.ne
  have dbPath : p.dbPath.isEmpty = false := by simpa using h.dbPath.ne
  have dataDir : p.dataDir.isEmpty = false := by simpa using h.dataDir.ne
  have relayed : p.relays.isEmpty = false := by simpa using h.relays.nonempty
  have priced : p.currencies.isEmpty = false := by simpa using h.currencies.nonempty
  simp only [Config.validate, SetupParams.config, Config.default, bind, dbPath, dataDir, relayed, priced, h.nodeUrl_scheme]
  rfl

/-- Everything but the wallet password is what was answered. -/
theorem fromLookup_rendered (h : p.Clean lower) :
    Config.fromLookup lower e = (e.secret "GP_WALLET_PASSWORD").map fun password => { p.config "" with walletPassword := password } := by
  have chain : e.choice "GP_CHAIN" "mainnet" "`mainnet` or `testnet`" [("mainnet", Chain.mainnet), ("testnet", Chain.testnet)] =
      .ok .mainnet := choice_unset (r.absent (by decide)) rfl
  have relayMode : e.choice "GP_RELAY_MODE" "bundled" "`bundled` or `external`"
      [("bundled", RelayMode.bundled), ("external", RelayMode.external)] = .ok .external :=
    choice_set (r.got (by simp [SetupParams.settings] : ("GP_RELAY_MODE", "external") ∈ _)) rfl
  have ingest : e.choice "GP_INGEST" "on" "`on` or `off`" [("on", true), ("off", false)] = .ok true :=
    choice_unset (r.absent (by decide)) rfl
  have matchMode : e.choice "GP_MATCH_MODE" "memo" "`memo`, `derived`, or `amount`"
      [("memo", MatchMode.memo), ("derived", MatchMode.derived), ("amount", MatchMode.amount)] = .ok .derived :=
    choice_set (r.got (by simp [SetupParams.settings] : ("GP_MATCH_MODE", "derived") ∈ _)) rfl
  have rateSource : e.choice "GP_RATE_SOURCE" "coingecko" "`coingecko`" [("coingecko", Rates.RateSource.coinGecko)] =
      .ok .coinGecko := choice_unset (r.absent (by decide)) rfl
  have methods : parseCheckoutMethods lower (e.get "GP_CHECKOUT_METHODS") = (true, true) := by
    rw [r.absent (by decide)]
    rfl
  have hook : (e.get "GP_WEBHOOK_URL").filter notBlank = some p.webhookUrl := by
    rw [r.tidy (by simp [SetupParams.settings] : ("GP_WEBHOOK_URL", trim p.webhookUrl) ∈ _) h.webhookUrl, Option.filter_some,
      if_pos h.webhookUrl.notBlank]
  have npub : (e.get "GP_MERCHANT_NPUB").filter notBlank = none := by
    rw [r.absent (by decide)]
    rfl
  have relays : listed ((e.get "GP_RELAYS").getD "") = p.relays := by
    rw [r.tidyList (by simp [SetupParams.settings] : ("GP_RELAYS", trim (",".intercalate p.relays)) ∈ _) h.relays, Option.getD_some,
      h.relays.listed]
  have tls : e.tls = .ok .off := by
    rw [Env.tls, r.absent (by decide : "GP_TLS" ∉ _)]
    rfl
  have bundled : e.bundledRelayUrl Config.default.bundledRelayUrl = Config.default.bundledRelayUrl := by
    rw [Env.bundledRelayUrl, r.absent (by decide)]
    rfl
  have logo : e.qrLogo = none := by rw [Env.qrLogo, r.absent (by decide)]
  have port : e.grin1ForeignPort = .ok 3416 := by rw [Env.grin1ForeignPort, r.absent (by decide)]
  have bind : e.get "GP_BIND" = some p.bind := r.tidy (by simp [SetupParams.settings]) h.bind
  have dbPath : e.get "GP_DB_PATH" = some p.dbPath := r.tidy (by simp [SetupParams.settings]) h.dbPath
  have dataDir : e.get "GP_DATA_DIR" = some p.dataDir := r.tidy (by simp [SetupParams.settings]) h.dataDir
  have nodeUrl : e.get "GP_NODE_URL" = some (trim p.nodeUrl) := r.got (by simp [SetupParams.settings])
  have apiToken : e.secret "GP_API_TOKEN" = .ok (some ⟨p.apiToken⟩) :=
    r.secret_some (by simp [SetupParams.settings]) h.apiToken (by decide)
  have adminToken : e.secret "GP_ADMIN_TOKEN" = .ok (some ⟨p.adminToken⟩) :=
    r.secret_some (by simp [SetupParams.settings]) h.adminToken (by decide)
  have webhookSecret : e.secret "GP_WEBHOOK_SECRET" = .ok (some ⟨p.webhookSecret⟩) :=
    r.secret_some (by simp [SetupParams.settings]) h.webhookSecret (by decide)
  have mnemonic : e.secret "GP_MNEMONIC" = .ok none := r.secret_none (by decide) (by decide)
  have nsec : e.secret "GP_NSEC" = .ok none := r.secret_none (by decide) (by decide)
  have ncryptsec : e.secret "GP_NCRYPTSEC" = .ok none := r.secret_none (by decide) (by decide)
  have merchantDm := parseBool_unset (r.absent (by decide : "GP_NOTIFY_MERCHANT_DM" ∉ _)) false
  have payerReceipt := parseBool_unset (r.absent (by decide : "GP_NOTIFY_PAYER_RECEIPT" ∉ _)) false
  have rotateInterval := parseI64_unset (r.absent (by decide : "GP_ENDPUB_ROTATE_INTERVAL" ∉ _)) 0
  have overlapEpochs := parseI64_unset (r.absent (by decide : "GP_ENDPUB_OVERLAP_EPOCHS" ∉ _)) 1
  have cacheTtl := parseI64_unset (r.absent (by decide : "GP_RATE_CACHE_TTL" ∉ _)) 60
  have quoteTtl := parseI64_unset (r.absent (by decide : "GP_QUOTE_TTL" ∉ _)) 900
  have staleMax := parseI64_unset (r.absent (by decide : "GP_RATE_STALE_MAX" ∉ _)) 0
  have confirmations := parseI64_unset (r.absent (by decide : "GP_CONFIRMATIONS" ∉ _)) 10
  cases hpassword : e.secret "GP_WALLET_PASSWORD" with
  | error err =>
    simp only [Config.fromLookup, tls, chain, relayMode, ingest, matchMode, mnemonic, hpassword]
    rfl
  | ok password =>
    simp only [Config.fromLookup, tls, chain, relayMode, ingest, matchMode, mnemonic, hpassword, nsec, ncryptsec, apiToken,
      adminToken, webhookSecret, merchantDm, payerReceipt, rotateInterval, overlapEpochs, rateSource, r.rateCurrencies h, cacheTtl,
      quoteTtl, staleMax, confirmations, r.rail, port, bind, dbPath, dataDir, nodeUrl, relays, bundled, methods, hook, npub, logo,
      r.inlineSecretVars, Option.getD_some, r.publicUrl h]
    exact congrArg (fun checked => checked >>= fun _ => pure _) (validate_config h password)

end

theorem rendered_writtenEnv {p : SetupParams} (h : p.OneLine) (readToString : String → Except String String) :
    Rendered p (fileEnv p.renderEnv readToString) := by
  constructor
  · intro key value hmem
    rw [fileEnv_get, (writtenEnv_iff h).2 hmem]
  · intro key hkey
    rw [fileEnv_get, writtenEnv_none h hkey]

/-- A password file's text without the line ends behind it. -/
def passwordOf (text : String) : String := String.ofList (text.toList.rdropWhile fun c => c = '\n' || c = '\r')

section

variable {lower : String → String} {p : SetupParams} {readToString : String → Except String String} {path : String}

theorem configFromWrittenEnv_eq (h : p.Clean lower) (hfile : readToString path = .ok p.renderEnv) :
    configFromWrittenEnv lower readToString path =
      ((fileEnv p.renderEnv readToString).secret "GP_WALLET_PASSWORD").map fun password =>
        { p.config "" with walletPassword := password } := by
  rw [configFromWrittenEnv, hfile]
  exact fromLookup_rendered (rendered_writtenEnv h.oneLine readToString) h

theorem secret_password (h : p.Clean lower) :
    (fileEnv p.renderEnv readToString).secret "GP_WALLET_PASSWORD" =
      (fileEnv p.renderEnv readToString).mounted ("GP_WALLET_PASSWORD" ++ "_FILE") p.walletPasswordFile := by
  have r := rendered_writtenEnv h.oneLine readToString
  have inline := r.absent (by decide : "GP_WALLET_PASSWORD" ∉ _)
  have file := r.tidy (by simp [SetupParams.settings] : ("GP_WALLET_PASSWORD" ++ "_FILE", trim p.walletPasswordFile) ∈ _)
    h.walletPasswordFile
  simp only [secret, inline, file]

/-- A configuration that is loaded has its password from the file that is named. -/
theorem written_config_ok (h : p.Clean lower) (hfile : readToString path = .ok p.renderEnv) {cfg : Env.Config}
    (hloaded : configFromWrittenEnv lower readToString path = .ok cfg) :
    ∃ text, readToString p.walletPasswordFile = .ok text ∧ cfg = p.config (passwordOf text) := by
  rw [configFromWrittenEnv_eq h hfile, secret_password h, mounted, fileEnv_readToString] at hloaded
  cases hread : readToString p.walletPasswordFile with
  | error err =>
    rw [hread] at hloaded
    cases hloaded
  | ok text =>
    rw [hread] at hloaded
    dsimp only at hloaded
    split at hloaded
    · cases hloaded
    · cases hloaded
      exact ⟨text, rfl, rfl⟩

/-- Written with clean answers and read back, the file gives the configuration the answers stand for, with the password the file
it names holds; and no configuration where that file cannot be read. -/
theorem written_config (h : p.Clean lower) (hfile : readToString path = .ok p.renderEnv) :
    (∀ text, readToString p.walletPasswordFile = .ok text → passwordOf text ≠ "" →
      configFromWrittenEnv lower readToString path = .ok (p.config (passwordOf text))) ∧
    ∀ err, readToString p.walletPasswordFile = .error err →
      configFromWrittenEnv lower readToString path =
        .error s!"GP_WALLET_PASSWORD_FILE `{p.walletPasswordFile}` unreadable: {err}" := by
  constructor
  · intro text htext hsome
    have some : (text.toList.rdropWhile fun c => c = '\n' || c = '\r').isEmpty = false := by
      rw [List.isEmpty_eq_false_iff]
      intro hnil
      exact hsome (by rw [passwordOf, hnil])
    rw [configFromWrittenEnv_eq h hfile, secret_password h, mounted, fileEnv_readToString, htext]
    simp only [some, Bool.false_eq_true, if_false]
    rfl
  · intro err herr
    rw [configFromWrittenEnv_eq h hfile, secret_password h, mounted, fileEnv_readToString, herr]
    rfl

end

def shopTill : SetupParams where
  bind := "127.0.0.1:8080"
  publicUrl := "https://pay.example"
  webhookUrl := "https://shop.example/wp-json/goblinpay/v1/webhook"
  nodeUrl := "https://main.gri.mw"
  relays := ["wss://one", "wss://two"]
  currencies := ["usd", "eur"]
  grin1Rail := true
  apiToken := "gp_live_00"
  adminToken := "gpadm_11"
  webhookSecret := "whsec_22"
  dataDir := "/var/lib/gp-data"
  dbPath := "/var/lib/goblinpay.db"
  walletPasswordFile := "/etc/wallet_password"
  restartMode := .unattended
  unattendedEncrypted := false

theorem shopTill_clean : shopTill.Clean (fun s => s) where
  bind := tidy_word rfl (by decide)
  publicUrl := (tidy_word rfl (by decide) : Tidy "https://pay.example").oneLine
  publicUrl_base := by decide
  webhookUrl := tidy_word rfl (by decide)
  nodeUrl := (tidy_word rfl (by decide) : Tidy "https://main.gri.mw").oneLine
  nodeUrl_scheme := by decide
  relays := by
    constructor
    · exact List.cons_ne_nil _ _
    · intro text htext
      rcases List.mem_pair.1 htext with rfl | rfl
      · exact tidy_word rfl (by decide)
      · exact tidy_word rfl (by decide)
    · decide
  currencies := by
    constructor
    · exact List.cons_ne_nil _ _
    · intro text htext
      rcases List.mem_pair.1 htext with rfl | rfl
      · exact tidy_word rfl (by decide)
      · exact tidy_word rfl (by decide)
    · decide
  currencies_lower := by
    intro currency _
    rfl
  apiToken := tidy_word rfl (by decide)
  adminToken := tidy_word rfl (by decide)
  webhookSecret := tidy_word rfl (by decide)
  dataDir := tidy_word rfl (by decide)
  dbPath := tidy_word rfl (by decide)
  walletPasswordFile := tidy_word rfl (by decide)

/-- The file the wizard wrote, and a password file with a line end behind the password. -/
def tillFiles (path : String) : Except String String :=
  .ok (if path = "/etc/goblinpay.env" then shopTill.renderEnv else "hunter2\r\n")

theorem shopTill_boots : configFromWrittenEnv (fun s => s) tillFiles "/etc/goblinpay.env" =
    .ok (shopTill.config (passwordOf "hunter2\r\n")) := by
  have file : tillFiles "/etc/goblinpay.env" = .ok shopTill.renderEnv := congrArg Except.ok (if_pos rfl)
  have password : tillFiles shopTill.walletPasswordFile = .ok "hunter2\r\n" := congrArg Except.ok (if_neg (by decide))
  exact (written_config shopTill_clean file).1 "hunter2\r\n" password (by decide)

end GoblinPay.Setup
