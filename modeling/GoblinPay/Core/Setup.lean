import Mathlib.Data.List.DropRight
import Mathlib.Data.List.Nodup
import GoblinPay.Text
import GoblinPay.Text.Split

/-!
# Setup

`gp-core/src/setup.rs`: what the setup wizard makes of its answers, the environment file it renders, and the parser a first
run reads it back with.
-/

namespace GoblinPay.Setup

open Text

def validatePassword (pw : String) : Except String Unit :=
  if pw.isEmpty then .error "password must not be empty" else .ok ()

def passwordsMatch (first second : String) : Bool := first == second

/-- No character but `Y`, `E` and `S` has one of these letters for its lowercase. -/
def parseAck (input : String) : Bool :=
  let answer := (trimChars input.toList).map Char.toLower
  answer = ['y'] || answer = ['y', 'e', 's']

def normalizeUrl (input : String) : Except String String :=
  let t := (trimChars input.toList).rdropWhile (· = '/')
  if t.isEmpty then .error "a URL is required"
  else if !"http://".toList.isPrefixOf t && !"https://".toList.isPrefixOf t then
    let got := String.ofList t
    .error s!"URL must start with http:// or https:// (got `{got}`)"
  else .ok (String.ofList t)

def webhookUrlFromShop (shop : String) : Except String String :=
  (normalizeUrl shop).map (· ++ "/wp-json/goblinpay/v1/webhook")

inductive RestartMode
  | unattended | manual
  deriving DecidableEq, Repr

structure SetupParams where
  bind : String
  publicUrl : String
  webhookUrl : String
  nodeUrl : String
  relays : List String
  currencies : List String
  grin1Rail : Bool
  apiToken : String
  adminToken : String
  webhookSecret : String
  dataDir : String
  dbPath : String
  walletPasswordFile : String
  restartMode : RestartMode
  unattendedEncrypted : Bool
  deriving DecidableEq, Repr

/-- `format!("KEY={}…", value)`, with the line feeds behind the value. -/
def setting (key value feeds : String) : String := key ++ "=" ++ value ++ feeds

/-- What is said about the wallet password, line by line. -/
def SetupParams.passwordComments (p : SetupParams) : List String :=
  match p.restartMode with
  | .unattended =>
    if p.unattendedEncrypted then [
      "# --- wallet password: restart mode UNATTENDED (ENCRYPTED at rest) ---\n",
      "# You chose this password; it was sealed to THIS host with\n",
      "# `systemd-creds encrypt` (see the gp-server.service.d/encrypted.conf\n",
      "# drop-in). The file on disk is CIPHERTEXT, not plaintext, so a stolen\n",
      "# or copied disk yields no wallet key; systemd decrypts it into a tmpfs\n",
      "# credentials dir at each start, so the service still auto-restarts.\n",
      "# Honest trade-off: a compromise of the RUNNING host still means wallet\n",
      "# compromise (systemd can decrypt it there), so keep the till a small hot\n",
      "# float and sweep to your own wallet regularly. The GP_WALLET_PASSWORD_FILE\n",
      "# below is the runtime (decrypted) credential path; the systemd unit sets\n",
      "# it too.\n"]
    else [
      "# --- wallet password: restart mode UNATTENDED (plaintext fallback) ---\n",
      "# WARNING: `systemd-creds` was not available at setup, so the chosen\n",
      "# password fell back to a root-owned 0400 PLAINTEXT file (below). It is\n",
      "# off the world-readable env file, but it is still plaintext at rest.\n",
      "# For encryption at rest, install systemd >= 250 with a host credential\n",
      "# key and re-run `gp-server setup --reconfigure`. Honest trade-off: a\n",
      "# full-machine compromise means wallet compromise; keep the till a small\n",
      "# hot float and sweep to your own wallet regularly.\n"]
  | .manual => [
      "# --- wallet password: restart mode MANUAL (nothing on disk) ---\n",
      "# You chose this password; it is NOT stored on disk. You re-enter it\n",
      "# after every restart, into the tmpfs credential below (see the\n",
      "# gp-server.service.d/manual.conf drop-in). Max protection against\n",
      "# disk/machine theft; the service will not auto-restart on its own.\n"]

/-- What `render_env` pushes, one text after the other. -/
def SetupParams.pushes (p : SetupParams) : List String :=
  ["# GoblinPay configuration, generated by `gp-server setup`.\n",
    "# Non-secret config plus bearer tokens (root-owned, mode 0640).\n",
    "# The wallet password is a separate 0400 credential file; the Grin\n",
    "# seed is NOT here (it lives encrypted at rest and in your written backup).\n\n",
    "# --- local listen address (loopback; keep it behind your proxy) ---\n",
    setting "GP_BIND" p.bind "\n\n",
    "# --- public URL customers reach this till at ---\n",
    setting "GP_PUBLIC_URL" p.publicUrl "\n\n",
    "# --- relays (external vetted pool; swap for your own if you like) ---\n",
    setting "GP_RELAY_MODE" "external" "\n",
    setting "GP_RELAYS" (",".intercalate p.relays) "\n\n",
    "# --- Grin node (read-only: confirmations + balance), health-probed at setup ---\n",
    setting "GP_NODE_URL" p.nodeUrl "\n\n",
    "# --- pricing ---\n",
    setting "GP_RATE_CURRENCIES" (",".intercalate p.currencies) "\n",
    setting "GP_MATCH_MODE" "derived" "\n\n",
    "# --- connector + admin bearer tokens (capabilities) ---\n",
    setting "GP_API_TOKEN" p.apiToken "\n",
    setting "GP_ADMIN_TOKEN" p.adminToken "\n\n",
    "# --- webhook to your shop (HMAC-signed) ---\n",
    setting "GP_WEBHOOK_URL" p.webhookUrl "\n",
    setting "GP_WEBHOOK_SECRET" p.webhookSecret "\n\n"] ++
  p.passwordComments ++
  [setting "GP_WALLET_PASSWORD_FILE" p.walletPasswordFile "\n\n",
    "# --- managed state ---\n",
    setting "GP_DATA_DIR" p.dataDir "\n",
    setting "GP_DB_PATH" p.dbPath "\n\n",
    "# --- grin1 / Tor rail (advanced; default off) ---\n",
    if p.grin1Rail then setting "GP_GRIN1_RAIL" "on" "\n" else "#GP_GRIN1_RAIL=on\n"]

def SetupParams.renderEnv (p : SetupParams) : String := String.join p.pushes

/-- One line of an environment file. -/
def parseLine (line : List Char) : Option (String × String) :=
  let line := trimChars line
  if line.isEmpty || line.head? = some '#' then none
  else
    match splitOnce '=' line with
    | some (key, value) =>
      let key := trimChars key
      if key.isEmpty then none else some (String.ofList key, String.ofList (trimChars value))
    | none => none

def parseEnvFile (contents : String) : List (String × String) := (lines contents.toList).filterMap parseLine

/-- The environment a first run boots from: a later setting of a key replaces an earlier one. -/
def writtenEnv (contents key : String) : Option String := (parseEnvFile contents).reverse.lookup key

/-! ## Reading what was rendered -/

def parseChars (cs : List Char) : List (String × String) := (lines cs).filterMap parseLine

theorem parseChars_line {line : List Char} (h : '\n' ∉ line) (rest : List Char) :
    parseChars (line ++ '\n' :: rest) = (parseLine (stripCr line)).toList ++ parseChars rest := by
  rw [parseChars, lines_cons h, List.filterMap_cons]
  cases parseLine (stripCr line) <;> rfl

/-- Blank lines and comments. -/
inductive Silent : List Char → Prop
  | nil : Silent []
  | blank {rest : List Char} (h : Silent rest) : Silent ('\n' :: rest)
  | comment {line rest : List Char} (feed : '\n' ∉ line) (h : Silent rest) : Silent ('#' :: line ++ '\n' :: rest)

/-- Whether a text is blank lines and comments, from the start of a line or within a comment. -/
def silent : Bool → List Char → Bool
  | start, [] => start
  | true, c :: cs => (c == '\n' && silent true cs) || (c == '#' && silent false cs)
  | false, c :: cs => silent (c == '\n') cs

theorem silent_sound {cs : List Char} : (silent true cs → Silent cs) ∧
    ∀ line, '\n' ∉ line → silent false cs → Silent ('#' :: line ++ cs) := by
  induction cs with
  | nil => exact ⟨fun _ => .nil, fun line _ h => nomatch h⟩
  | cons c cs ih =>
    constructor
    · intro h
      rw [silent, Bool.or_eq_true, Bool.and_eq_true, Bool.and_eq_true, beq_iff_eq, beq_iff_eq] at h
      rcases h with ⟨rfl, h⟩ | ⟨rfl, h⟩
      · exact .blank (ih.1 h)
      · exact ih.2 [] List.not_mem_nil h
    · intro line hline h
      rw [silent] at h
      by_cases hc : c = '\n'
      · subst hc
        exact .comment hline (ih.1 h)
      · have more := ih.2 (line ++ [c]) (by simp [hline, Ne.symm hc]) (by rwa [beq_false_of_ne hc] at h)
        rwa [List.cons_append, List.append_assoc] at more

theorem parseLine_comment (line : List Char) : parseLine ('#' :: line) = none := by
  have kept : trimChars ('#' :: line) = '#' :: trimEnd line :=
    trimChars_solid ⟨List.cons_ne_nil '#' [], fun c hc => by rw [List.mem_singleton.1 hc]; rfl⟩
  rw [parseLine, kept]
  rfl

theorem parseChars_silent {cs : List Char} (h : Silent cs) (rest : List Char) : parseChars (cs ++ rest) = parseChars rest := by
  induction h with
  | nil => rfl
  | @blank more _ ih =>
    have first := @parseChars_line [] List.not_mem_nil (more ++ rest)
    exact first.trans ih
  | @comment line more feed _ ih =>
    have hline : '\n' ∉ '#' :: line := by simp [feed]
    have first := parseChars_line hline (more ++ rest)
    have kept : stripCr ('#' :: line) = '#' :: stripCr line := stripCr_append (by decide) [] line
    rw [kept, parseLine_comment, ih] at first
    rw [List.append_assoc]
    exact first

theorem trimChars_stripCr (cs : List Char) : trimChars (stripCr cs) = trimChars cs := by
  rcases stripCr_cases cs with h | h
  · rw [h]
  · have more : trimChars (stripCr cs ++ ['\r']) = trimChars (stripCr cs) := trimChars_concat rfl
    rw [← more, ← h]

/-- What a setting is named by: a word without an `=` that does not begin a comment. -/
structure Key (key : List Char) : Prop where
  word : Word key
  plain : '=' ∉ key ∧ '\n' ∉ key
  uncommented : key.head? ≠ some '#'

/-- Whether a text can name a setting. -/
def keyed (key : List Char) : Bool := !key.isEmpty && key.all fun c => !isWhitespace c && c != '=' && c != '#'

theorem keyed_sound {key : List Char} (h : keyed key) : Key key := by
  rw [keyed, Bool.and_eq_true, List.all_eq_true] at h
  obtain ⟨hne, hall⟩ := h
  have plain : ∀ c ∈ key, isWhitespace c = false ∧ c ≠ '=' ∧ c ≠ '#' := by
    intro c hc
    simpa [and_assoc] using hall c hc
  refine ⟨⟨by simpa using hne, fun c hc => (plain c hc).1⟩, ⟨fun hc => (plain _ hc).2.1 rfl, fun hc => ?_⟩, fun hhead => ?_⟩
  · have solid : isWhitespace '\n' = false := (plain _ hc).1
    cases solid
  · exact (plain _ (List.mem_of_head? hhead)).2.2 rfl

theorem parseLine_setting {key : List Char} (h : Key key) (value : List Char) :
    parseLine (key ++ '=' :: value) = some (String.ofList key, String.ofList (trimChars value)) := by
  have hne : key ≠ [] := h.word.nonempty
  have solid : Word (key ++ ['=']) := by
    refine ⟨by simp, fun c hc => ?_⟩
    rcases List.mem_append.1 hc with hc | hc
    · exact h.word.solid c hc
    · rw [List.mem_singleton.1 hc]
      rfl
  have line : trimChars (key ++ '=' :: value) = key ++ '=' :: trimEnd value := by
    have front : trimChars (key ++ ['='] ++ value) = key ++ ['='] ++ trimEnd value := trimChars_solid solid
    rwa [List.append_assoc, List.append_assoc] at front
  have named : trimChars key = key := by
    have front : trimChars (key ++ []) = key ++ [] := trimChars_solid h.word
    rwa [List.append_nil] at front
  have head : (key ++ '=' :: trimEnd value).head? ≠ some '#' := by
    rw [List.head?_append_of_ne_nil _ hne]
    exact h.uncommented
  rw [parseLine, line]
  simp only [List.isEmpty_eq_false_iff.2 (List.append_ne_nil_of_left_ne_nil hne _), head, Bool.false_or, decide_false,
    Bool.false_eq_true, if_false, splitOnce_append h.plain.1, named, List.isEmpty_eq_false_iff.2 hne, trimChars_trimEnd]

theorem parseChars_setting {key value : List Char} (h : Key key) (hvalue : '\n' ∉ value) (rest : List Char) :
    parseChars (key ++ '=' :: value ++ '\n' :: rest) =
      (String.ofList key, String.ofList (trimChars value)) :: parseChars rest := by
  have hline : '\n' ∉ key ++ '=' :: value := by simp [h.plain.2, hvalue]
  rw [parseChars_line hline, stripCr_append (by decide), parseLine_setting h, trimChars_stripCr]
  rfl

/-- A text the file's reader takes these settings from, whatever follows. -/
def Reads (push : String) (pairs : List (String × String)) : Prop :=
  ∀ rest, parseChars (push.toList ++ rest) = pairs ++ parseChars rest

theorem reads_comment {push : String} {cs : List Char} (hpush : push = String.ofList cs) (h : silent true cs) :
    Reads push [] := by
  intro rest
  rw [hpush, String.toList_ofList, parseChars_silent (silent_sound.1 h)]
  rfl

theorem reads_setting {key value feeds : String} {ks more : List Char} (hkey : key = String.ofList ks)
    (hfeeds : feeds = String.ofList ('\n' :: more)) (h : keyed ks) (hmore : silent true more) (hvalue : '\n' ∉ value.toList) :
    Reads (setting key value feeds) [(key, trim value)] := by
  intro rest
  have text : (setting key value feeds).toList ++ rest = ks ++ '=' :: value.toList ++ '\n' :: (more ++ rest) := by
    rw [setting, hkey, hfeeds]
    simp
  rw [text, parseChars_setting (keyed_sound h) hvalue, parseChars_silent (silent_sound.1 hmore), hkey]
  rfl

theorem reads_join {pushes : List String} {pairs : List (List (String × String))} (h : List.Forall₂ Reads pushes pairs) :
    parseEnvFile (String.join pushes) = pairs.flatten := by
  have whole : parseChars (pushes.flatMap String.toList) = pairs.flatten := by
    induction h with
    | nil => rfl
    | cons hpush _ ih =>
      rw [List.flatMap_cons, hpush, ih]
      rfl
  rw [← whole, parseEnvFile, parseChars, String.toList_join]

/-- No field of the parameters holds a line feed. -/
structure SetupParams.OneLine (p : SetupParams) : Prop where
  bind : '\n' ∉ p.bind.toList
  publicUrl : '\n' ∉ p.publicUrl.toList
  webhookUrl : '\n' ∉ p.webhookUrl.toList
  nodeUrl : '\n' ∉ p.nodeUrl.toList
  relays : ∀ relay ∈ p.relays, '\n' ∉ relay.toList
  currencies : ∀ currency ∈ p.currencies, '\n' ∉ currency.toList
  apiToken : '\n' ∉ p.apiToken.toList
  adminToken : '\n' ∉ p.adminToken.toList
  webhookSecret : '\n' ∉ p.webhookSecret.toList
  dataDir : '\n' ∉ p.dataDir.toList
  dbPath : '\n' ∉ p.dbPath.toList
  walletPasswordFile : '\n' ∉ p.walletPasswordFile.toList

/-- What the file is to say. -/
def SetupParams.settings (p : SetupParams) : List (String × String) := [
    ("GP_BIND", trim p.bind),
    ("GP_PUBLIC_URL", trim p.publicUrl),
    ("GP_RELAY_MODE", "external"),
    ("GP_RELAYS", trim (",".intercalate p.relays)),
    ("GP_NODE_URL", trim p.nodeUrl),
    ("GP_RATE_CURRENCIES", trim (",".intercalate p.currencies)),
    ("GP_MATCH_MODE", "derived"),
    ("GP_API_TOKEN", trim p.apiToken),
    ("GP_ADMIN_TOKEN", trim p.adminToken),
    ("GP_WEBHOOK_URL", trim p.webhookUrl),
    ("GP_WEBHOOK_SECRET", trim p.webhookSecret),
    ("GP_WALLET_PASSWORD_FILE", trim p.walletPasswordFile),
    ("GP_DATA_DIR", trim p.dataDir),
    ("GP_DB_PATH", trim p.dbPath)] ++
  if p.grin1Rail then [("GP_GRIN1_RAIL", "on")] else []

theorem notMem_commas {texts : List String} (h : ∀ text ∈ texts, '\n' ∉ text.toList) :
    '\n' ∉ (",".intercalate texts).toList := by
  rw [String.toList_intercalate]
  induction texts with
  | nil => exact List.not_mem_nil
  | cons text texts ih =>
    have first := h text List.mem_cons_self
    have rest := ih fun t ht => h t (List.mem_cons_of_mem text ht)
    cases texts with
    | nil => simpa [List.intercalate_singleton] using first
    | cons t ts =>
      rw [List.map_cons, List.map_cons, List.intercalate_cons_cons, ← List.map_cons]
      intro hmem
      rcases List.mem_append.1 hmem with hmem | hmem
      · rcases List.mem_append.1 hmem with hmem | hmem
        · exact first hmem
        · exact absurd hmem (by decide)
      · exact rest hmem

/-- Nothing that is said about the wallet password sets anything. -/
theorem reads_passwordComments (p : SetupParams) :
    List.Forall₂ Reads p.passwordComments (p.passwordComments.map fun _ => []) := by
  unfold SetupParams.passwordComments
  split
  · split
    · repeat apply List.Forall₂.cons (reads_comment rfl (by decide +kernel))
      exact .nil
    · repeat apply List.Forall₂.cons (reads_comment rfl (by decide +kernel))
      exact .nil
  · repeat apply List.Forall₂.cons (reads_comment rfl (by decide +kernel))
    exact .nil

theorem reads_word {key value feeds : String} {ks vs more : List Char} (hkey : key = String.ofList ks)
    (hvalue : value = String.ofList vs) (hfeeds : feeds = String.ofList ('\n' :: more)) (h : keyed ks) (hword : keyed vs)
    (hmore : silent true more) : Reads (setting key value feeds) [(key, value)] := by
  have kept : trim value = value := by
    have front : trimChars (vs ++ []) = vs ++ [] := trimChars_solid (keyed_sound hword).word
    rw [List.append_nil] at front
    rw [hvalue, trim, String.toList_ofList, front]
  have oneLine : '\n' ∉ value.toList := by
    rw [hvalue, String.toList_ofList]
    exact (keyed_sound hword).plain.2
  have read : Reads (setting key value feeds) [(key, trim value)] := reads_setting hkey hfeeds h hmore oneLine
  rwa [kept] at read

theorem parseEnvFile_renderEnv {p : SetupParams} (h : p.OneLine) : parseEnvFile p.renderEnv = p.settings := by
  have rail : Reads (if p.grin1Rail then setting "GP_GRIN1_RAIL" "on" "\n" else "#GP_GRIN1_RAIL=on\n")
      (if p.grin1Rail then [("GP_GRIN1_RAIL", "on")] else []) := by
    split
    · exact reads_word rfl rfl rfl (by decide +kernel) (by decide +kernel) rfl
    · exact reads_comment rfl (by decide +kernel)
  have read : ∃ pairs, List.Forall₂ Reads p.pushes pairs ∧ pairs.flatten = p.settings := by
    apply Exists.intro
    constructor
    · apply List.rel_append
      · apply List.rel_append
        · exact
            .cons (reads_comment rfl (by decide +kernel)) <|
            .cons (reads_comment rfl (by decide +kernel)) <|
            .cons (reads_comment rfl (by decide +kernel)) <|
            .cons (reads_comment rfl (by decide +kernel)) <|
            .cons (reads_comment rfl (by decide +kernel)) <|
            .cons (reads_setting rfl rfl (by decide +kernel) rfl h.bind) <|
            .cons (reads_comment rfl (by decide +kernel)) <|
            .cons (reads_setting rfl rfl (by decide +kernel) rfl h.publicUrl) <|
            .cons (reads_comment rfl (by decide +kernel)) <|
            .cons (reads_word rfl rfl rfl (by decide +kernel) (by decide +kernel) rfl) <|
            .cons (reads_setting rfl rfl (by decide +kernel) rfl (notMem_commas h.relays)) <|
            .cons (reads_comment rfl (by decide +kernel)) <|
            .cons (reads_setting rfl rfl (by decide +kernel) rfl h.nodeUrl) <|
            .cons (reads_comment rfl (by decide +kernel)) <|
            .cons (reads_setting rfl rfl (by decide +kernel) rfl (notMem_commas h.currencies)) <|
            .cons (reads_word rfl rfl rfl (by decide +kernel) (by decide +kernel) rfl) <|
            .cons (reads_comment rfl (by decide +kernel)) <|
            .cons (reads_setting rfl rfl (by decide +kernel) rfl h.apiToken) <|
            .cons (reads_setting rfl rfl (by decide +kernel) rfl h.adminToken) <|
            .cons (reads_comment rfl (by decide +kernel)) <|
            .cons (reads_setting rfl rfl (by decide +kernel) rfl h.webhookUrl) <|
            .cons (reads_setting rfl rfl (by decide +kernel) rfl h.webhookSecret) <|
            .nil
        · exact reads_passwordComments p
      · exact
          .cons (reads_setting rfl rfl (by decide +kernel) rfl h.walletPasswordFile) <|
          .cons (reads_comment rfl (by decide +kernel)) <|
          .cons (reads_setting rfl rfl (by decide +kernel) rfl h.dataDir) <|
          .cons (reads_setting rfl rfl (by decide +kernel) rfl h.dbPath) <|
          .cons (reads_comment rfl (by decide +kernel)) <|
          .cons (rail) <|
          .nil
    · simp [SetupParams.settings]
  obtain ⟨pairs, hread, hpairs⟩ := read
  rw [SetupParams.renderEnv, reads_join hread, hpairs]

theorem lookup_iff {α β : Type} [BEq α] [LawfulBEq α] {pairs : List (α × β)} (hkeys : (pairs.map Prod.fst).Nodup) (key : α)
    (value : β) : pairs.lookup key = some value ↔ (key, value) ∈ pairs := by
  induction pairs with
  | nil => exact ⟨nofun, nofun⟩
  | cons pair pairs ih =>
    obtain ⟨k, v⟩ := pair
    rw [List.map_cons, List.nodup_cons] at hkeys
    rw [List.lookup_cons, List.mem_cons]
    by_cases hk : key = k
    · subst hk
      rw [beq_self_eq_true]
      constructor
      · intro h
        cases h
        exact Or.inl rfl
      · rintro (h | h)
        · cases h
          rfl
        · exact absurd (List.mem_map_of_mem h) hkeys.1
    · rw [beq_false_of_ne hk]
      refine (ih hkeys.2).trans ⟨Or.inr, ?_⟩
      rintro (h | h)
      · cases h
        exact absurd rfl hk
      · exact h

/-- The keys of the file, with and without the rail. -/
def keys (rail : Bool) : List String :=
  ["GP_BIND", "GP_PUBLIC_URL", "GP_RELAY_MODE", "GP_RELAYS", "GP_NODE_URL", "GP_RATE_CURRENCIES", "GP_MATCH_MODE", "GP_API_TOKEN",
    "GP_ADMIN_TOKEN", "GP_WEBHOOK_URL", "GP_WEBHOOK_SECRET", "GP_WALLET_PASSWORD_FILE", "GP_DATA_DIR", "GP_DB_PATH"] ++
  if rail then ["GP_GRIN1_RAIL"] else []

theorem keys_settings (p : SetupParams) : p.settings.map Prod.fst = keys p.grin1Rail := by
  unfold SetupParams.settings keys
  split <;> rfl

theorem nodup_keys (rail : Bool) : (keys rail).Nodup := by cases rail <;> decide

theorem nodup_settings (p : SetupParams) : (p.settings.map Prod.fst).Nodup := by
  rw [keys_settings]
  exact nodup_keys p.grin1Rail

theorem writtenEnv_iff {p : SetupParams} (h : p.OneLine) {key value : String} :
    writtenEnv p.renderEnv key = some value ↔ (key, value) ∈ p.settings := by
  have turned : (p.settings.reverse.map Prod.fst).Nodup := by
    rw [List.map_reverse]
    exact List.nodup_reverse.2 (nodup_settings p)
  rw [writtenEnv, parseEnvFile_renderEnv h, lookup_iff turned, List.mem_reverse]

theorem writtenEnv_none {p : SetupParams} (h : p.OneLine) {key : String} (hkey : key ∉ keys p.grin1Rail) :
    writtenEnv p.renderEnv key = none := by
  rw [Option.eq_none_iff_forall_ne_some]
  intro value hvalue
  have mem : key ∈ p.settings.map Prod.fst := List.mem_map_of_mem ((writtenEnv_iff h).1 hvalue)
  rw [keys_settings] at mem
  exact hkey mem

/-- A rendered file is read back as the settings it was rendered for: each key once, with its trimmed value, and no other key,
so that no value sets anything but its own key. -/
theorem env_read_back {p : SetupParams} (h : p.OneLine) :
    parseEnvFile p.renderEnv = p.settings ∧ (p.settings.map Prod.fst).Nodup ∧
      (∀ key value, writtenEnv p.renderEnv key = some value ↔ (key, value) ∈ p.settings) ∧
      writtenEnv p.renderEnv "GP_MNEMONIC" = none ∧ writtenEnv p.renderEnv "GP_WALLET_PASSWORD" = none := by
  have absent : ∀ key, (∀ rail, key ∉ keys rail) → writtenEnv p.renderEnv key = none := fun key hkey => writtenEnv_none h (hkey _)
  exact ⟨parseEnvFile_renderEnv h, nodup_settings p, fun _ _ => writtenEnv_iff h, absent _ (by decide), absent _ (by decide)⟩

def till : SetupParams where
  bind := " 127.0.0.1:8080"
  publicUrl := "https://pay.example.com/?GP_BIND=0.0.0.0 "
  webhookUrl := "#GP_API_TOKEN=none"
  nodeUrl := ""
  relays := ["wss://one", "wss://two"]
  currencies := ["usd", "eur"]
  grin1Rail := true
  apiToken := "a=b=c"
  adminToken := "GP_MNEMONIC=x"
  webhookSecret := "#"
  dataDir := "/var/lib/goblin pay"
  dbPath := "/var/lib/db"
  walletPasswordFile := "/run/pw"
  restartMode := .unattended
  unattendedEncrypted := true

/-- `=`, `#` and the names of other settings in the values. -/
theorem till_read_back : parseEnvFile till.renderEnv = till.settings ∧ writtenEnv till.renderEnv "GP_MNEMONIC" = none := by
  have oneLine : till.OneLine := by
    constructor <;> simp [till]
  have read := env_read_back oneLine
  exact ⟨read.1, read.2.2.2.1⟩

end GoblinPay.Setup
