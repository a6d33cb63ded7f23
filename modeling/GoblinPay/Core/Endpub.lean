import GoblinPay.Core.Invoice

/-!
# Per-user endpubs

`gp-core/src/endpub.rs`: one derived receiving identity per user and epoch, rotated on the
user's own clock. The database holds the assignments, never a private key.
-/

namespace GoblinPay

/-- A line of the admin listing. -/
structure UserBalance where
  userId : String
  epoch : Int64
  endpub : String
  balance : Int64
  deriving DecidableEq, Repr

end GoblinPay

namespace GoblinPay.Endpub

open Async

section

variable {W : Type} (U : Upstream W) (masterSk : Secret)

def assign (userId : String) (epoch : Int64) : ExceptT SqlxError Io Endpub := do
  sql (.insertAssignment userId epoch (Derive.endpubPubkeyHex U masterSk userId epoch))
  sql (.selectAssignment userId epoch)

def createUser (id : Option String) (rotateInterval : Option Int64) : ExceptT SqlxError Io (User × Endpub) := do
  let id ← match id with
    | some id => pure id
    | none => randomId
  sql (.insertUser id rotateInterval)
  let endpub ← assign U masterSk id 0
  let user ← Invoice.found (← sql (.selectUser id))
  pure (user, endpub)

def rotate (userId : String) : ExceptT SqlxError Io Endpub := do
  let user ← Invoice.found (← sql (.selectUser userId))
  sql (.setEpoch userId (user.epoch + 1))
  assign U masterSk userId (user.epoch + 1)

/-- The body of `rotate_due`'s loop over the users read at its start. -/
def rotateUsers (globalInterval : Int64) : List User → Nat → ExceptT SqlxError Io Nat
  | [], rotated => pure rotated
  | user :: users, rotated => do
    let interval := user.rotateInterval.getD globalInterval
    if interval ≤ 0 then rotateUsers globalInterval users rotated
    else do
      let elapsed ← sql (.elapsedSince user.lastRotatedAt)
      if interval.toInt ≤ elapsed then do
        discard <| rotate U masterSk user.id
        rotateUsers globalInterval users (rotated + 1)
      else rotateUsers globalInterval users rotated

def rotateDue (globalInterval : Int64) : ExceptT SqlxError Io Nat := do
  let users ← sql .selectUsers
  rotateUsers U masterSk globalInterval users 0

end

/-- Whether the user exists. -/
def setRotateInterval (userId : String) (interval : Option Int64) : ExceptT SqlxError Io Bool :=
  sql (.setRotateInterval userId interval)

/-- The endpub of the highest epoch. -/
def currentEndpub (userId : String) : ExceptT SqlxError Io (Option Endpub) := sql (.currentEndpub userId)

def watchedPubkeys (overlap : Int64) : ExceptT SqlxError Io (List Endpub) :=
  sql (.watchedPubkeys (max overlap 0))

def userForPubkey (pubkey : String) : ExceptT SqlxError Io (Option (String × Int64)) :=
  sql (.userForPubkey pubkey)

/-- The body of `list_with_balances`' loop. -/
def balances : List User → ExceptT SqlxError Io (List UserBalance)
  | [] => pure []
  | user :: users => do
    let endpub ← currentEndpub user.id
    let balance ← sql (.sumAmount user.id)
    let rest ← balances users
    pure (⟨user.id, user.epoch, (endpub.map Endpub.pubkey).getD "", balance⟩ :: rest)

def listWithBalances : ExceptT SqlxError Io (List UserBalance) := do
  let users ← sql .selectUsersByAge
  balances users

end GoblinPay.Endpub
