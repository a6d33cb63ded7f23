import GoblinPay.Runs.ExactAmount
import GoblinPay.Runs.Expiry
import GoblinPay.Runs.Reboot
import GoblinPay.Runs.Lapse
import GoblinPay.Runs.Finalize
import GoblinPay.Runs.Links
import GoblinPay.Runs.Lifecycle
import GoblinPay.Runs.Modes
import GoblinPay.Runs.Paste
import GoblinPay.Runs.Withheld
import GoblinPay.Runs.Rivals
import GoblinPay.Runs.Listening
import GoblinPay.Runs.Submit
import GoblinPay.Runs.Redelivery
import GoblinPay.Runs.Stranded
import GoblinPay.Runs.Memo
import GoblinPay.Runs.Limits
import GoblinPay.Runs.Status
import GoblinPay.Runs.Reference
import GoblinPay.Runs.Replays
import GoblinPay.Runs.Repeats
import GoblinPay.Runs.Polls
import GoblinPay.Runs.Unwatched
import GoblinPay.Runs.Retries
import GoblinPay.Runs.Fulfilment
import GoblinPay.Runs.Depth
import GoblinPay.Nostr.Armor
import GoblinPay.Runs.Malformed
import GoblinPay.Runs.PlainSend
import GoblinPay.Runs.Deliveries
import GoblinPay.Runs.Rotation
import GoblinPay.Runs.Balances
import GoblinPay.Runs.Quotes
import GoblinPay.Runs.Endpubs
import GoblinPay.Runs.Keyring
import GoblinPay.Nostr.Note
import GoblinPay.Core.Grin
import GoblinPay.Core.Ids
import GoblinPay.Time.Calendar
import GoblinPay.Core.Timestamp
import GoblinPay.Core.Derivations
import GoblinPay.Text.Uri
import GoblinPay.Server.PayUri
import GoblinPay.Server.Prompts
import GoblinPay.Nostr.GiftWrap
import GoblinPay.Core.Secrecy
import GoblinPay.Core.Written
import GoblinPay.Runs.Installs
