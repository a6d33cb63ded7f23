import GoblinPay.Core.Setup
import GoblinPay.Text.Hex

/-!
# Answers, secrets and drop-ins

`gp-core/src/setup.rs`: what the wizard makes of an answer that has a default, the secrets it generates, and the texts it
writes besides the environment file. `lower` is `str::to_lowercase`.
-/

namespace GoblinPay.Setup

open Text

def curatedNodes : List String := ["https://main.gri.mw", "https://api.grin.money", "https://grincoin.org"]

def defaultRelays : List String := ["wss://relay.floonet.dev", "wss://offchain.pub"]

def RestartMode.asStr : RestartMode → String
  | .unattended => "unattended"
  | .manual => "manual"

/-- An empty answer takes the loopback default. -/
def normalizeBind (input : String) : String :=
  let t := trim input
  if t.isEmpty then "127.0.0.1:8080" else t

section

variable (lower : String → String)

def parseRestartModeDefault (input : String) (default : RestartMode) : RestartMode :=
  let answer := lower (trim input)
  if answer = "1" ∨ answer = "u" ∨ answer = "unattended" then .unattended
  else if answer = "2" ∨ answer = "m" ∨ answer = "manual" then .manual
  else default

def parseCurrencies (input : String) : List String :=
  let list := ((input.toList.splitOn ',').map fun piece => lower (String.ofList (trimChars piece))).filter fun s => !s.isEmpty
  if list.isEmpty then ["usd"] else list

def parseYesNo (input : String) (default : Bool) : Bool :=
  let answer := lower (trim input)
  if answer = "" then default
  else if answer = "y" ∨ answer = "yes" then true
  else if answer = "n" ∨ answer = "no" then false
  else default

end

/-- A secret of 16 random bytes behind a label that tells its kind. -/
def prefixedSecret (label : String) (bytes : List UInt8) : String := label ++ Hex.encodeHex bytes

def genApiToken : List UInt8 → String := prefixedSecret "gp_live_"

def genAdminToken : List UInt8 → String := prefixedSecret "gpadm_"

def genWebhookSecret : List UInt8 → String := prefixedSecret "whsec_"

/-- The path a public URL mounts the pages under, empty at the root of a host. -/
def basePath (publicUrl : String) : String :=
  let cs := publicUrl.toList
  let afterScheme := ((find "://".toList cs).map (List.drop 3)).getD cs
  String.ofList ((afterScheme.dropWhile (· ≠ '/')).rdropWhile (· = '/'))

def renderEncryptedDropin (credSourceFile : String) : String :=
  "# GoblinPay UNATTENDED restart mode, ENCRYPTED at rest (the secure default),\n" ++
  "# generated by `gp-server setup`. The wallet password was sealed to THIS host\n" ++
  "# with `systemd-creds encrypt` (host key, plus the TPM when present), so the\n" ++
  "# file below is ciphertext, not plaintext: a stolen or copied disk yields no\n" ++
  "# wallet key. systemd decrypts it into the tmpfs credentials directory at each\n" ++
  "# start, so the service still auto-restarts with no human.\n" ++
  "#\n" ++
  "# Honest trade-off (unchanged): whoever fully controls this RUNNING host can\n" ++
  "# still have systemd decrypt the credential, so a live-machine compromise means\n" ++
  "# wallet compromise. Keep the till a small hot float and sweep regularly.\n" ++
  "[Service]\n" ++
  "# Reset the base unit's plaintext credential, then read the sealed one.\n" ++
  "LoadCredential=\n" ++
  "LoadCredentialEncrypted=\n" ++
  "LoadCredentialEncrypted=gp_wallet_password:" ++ credSourceFile ++ "\n"

def renderManualDropin (runtimePasswordFile : String) : String :=
  "# GoblinPay MANUAL restart mode, generated by `gp-server setup`.\n" ++
  "# The wallet password is NOT stored on disk. Re-enter it after every\n" ++
  "# restart (and after every reboot), which populates a tmpfs credential:\n" ++
  "#\n" ++
  "#   sudo install -d -m0700 /run/goblinpay\n" ++
  "#   systemd-ask-password \"GoblinPay wallet password:\" \\\n" ++
  "#     | sudo install -m0400 /dev/stdin " ++ runtimePasswordFile ++ "\n" ++
  "#   sudo systemctl start gp-server\n" ++
  "#\n" ++
  "# /run is tmpfs, so the password vanishes on reboot: a stolen or\n" ++
  "# powered-off disk holds no wallet key. The service will NOT come back\n" ++
  "# on its own after a restart until you re-enter the password.\n" ++
  "[Service]\n" ++
  "# Reset the base unit's persistent credential, then read the tmpfs one.\n" ++
  "LoadCredential=\n" ++
  "LoadCredential=gp_wallet_password:" ++ runtimePasswordFile ++ "\n"

/-- The values to paste into the shop's panel. -/
def SetupParams.wooPasteBlock (p : SetupParams) : String :=
  "Now finish in WooCommerce -> Settings -> Payments -> GoblinPay (Grin):\n" ++
  "\n" ++
  "  GoblinPay URL:   " ++ p.publicUrl ++ "\n" ++
  "  API Token:       " ++ p.apiToken ++ "\n" ++
  "  Webhook Secret:  " ++ p.webhookSecret ++ "\n" ++
  "  Matching mode:   Per-invoice identity (recommended)\n" ++
  "\n" ++
  "The plugin's Webhook Secret field shows the webhook URL to confirm; it is:\n" ++
  "  " ++ p.webhookUrl ++ "\n" ++
  "\n" ++
  "Admin dashboard token (keep private): " ++ p.adminToken

end GoblinPay.Setup
