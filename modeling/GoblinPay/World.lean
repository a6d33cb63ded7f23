import GoblinPay.Async.Pool
import GoblinPay.Core.Statement
import GoblinPay.Upstream

/-!
# The server's world

`Eff` lists everything a server function awaits: a SQL statement, a call into the wallet or
the node, a draw of randomness, a touch of the in-memory maps. `World` is what these read and
write, and `handler` what each does. `World.restart` is a process start: what was in memory
is gone, the database and the wallet directory are not.
-/

namespace GoblinPay

open Async

/-- A reply rumor handed to the relays. -/
structure Dispatch where
  /-- public key of the identity that signed it -/
  sender : String
  payer : String
  content : String
  tags : List (List String)
  deriving DecidableEq, Repr

/-- What is lost when the process stops: the ingest's dedupe markers and rate windows, and
the directory's snapshot of derived identities. -/
structure Memory where
  seen : List String
  rate : List (String × List Time)
  snapshot : List (String × Secret)
  deriving DecidableEq, Repr

def Memory.empty : Memory := ⟨[], [], []⟩

structure World (W : Type) where
  db : Db
  now : Time
  wallet : W
  /-- slate ids of the transactions a node accepted -/
  posted : List String
  /-- the replies dispatched to the relays -/
  outbox : List Dispatch
  memory : Memory

def World.restart {W : Type} (w : World W) : World W := { w with memory := .empty }

inductive RateError
  | unsupportedCurrency (c : String)
  | badAmount (a : String)
  | sourceUnavailable (m : String)
  | config (m : String)
  deriving DecidableEq, Repr

inductive Eff : Type → Type 1
  | sql {β : Type} (q : Stmt β) : Eff (Except SqlxError β)
  /-- `ids::random_id`, `ids::checkout_token` -/
  | randomId : Eff String
  /-- the wall clock -/
  | clock : Eff Time
  /-- time passes -/
  | elapse (secs : Nat) : Eff Unit
  | quote (amount currency : String) : Eff (Except RateError Quote)
  | slateFromSlatepackMessage (armor : String) : Eff (Except String Slate)
  | createSlatepackMessage (slate : Slate) : Eff (Except String String)
  | receiveTx (slate : Slate) : Eff (Except String Slate)
  | issueInvoiceTx (amount : UInt64) : Eff (Except String Slate)
  | finalizeTx (slate : Slate) : Eff (Except String Slate)
  | postTx (slate : Slate) : Eff (Except String Unit)
  | cancelTx (slateId : String) : Eff (Except String Unit)
  | retrieveTxs (slateId : String) : Eff (Except String (Option String))
  | intoVersion (slate : Slate) (version : Nat) : Eff (Except String VersionedSlate)
  | chainTip : Eff (Except String UInt64)
  | getKernel (excess : String) : Eff (Except String (Option UInt64))
  | isSeen (key : String) : Eff Bool
  | mark (key : String) : Eff Unit
  /-- a sliding-window limiter: `limit` hits within `window` seconds, and `cap` remembered keys -/
  | allow (key : String) (limit : Nat) (window : Int) (cap : Option Nat) : Eff Bool
  | snapshot : Eff (List (String × Secret))
  | setSnapshot (map : List (String × Secret)) : Eff Unit
  | deliver (reply : Dispatch) : Eff Bool
  /-- the process starts anew -/
  | restart : Eff Unit

abbrev Io := Prog Eff

/-- `ids::random_id`. -/
def randomId : Io String := Prog.call .randomId

/-- A SQL statement inside a function that returns `Result<_, sqlx::Error>`. -/
def sql {β : Type} (q : Stmt β) : ExceptT SqlxError Io β := Prog.attempt (Eff.sql q)

/-- A fallible answer: the environment's failure, or what the operation computes. -/
def Answer.orElse {ε α : Type} (x : Answer) (fail : String → ε) (r : Except ε α) : Except ε α :=
  match x.fault with
  | some m => .error (fail m)
  | none => r

/-- `Ingest::allow_sender` and `allow_global_unwrap`: forget old hits, refuse a full window,
and drop idle keys when there are too many. -/
def Memory.allow (m : Memory) (now : Time) (key : String) (limit : Nat) (window : Int) (cap : Option Nat) :
    Bool × Memory :=
  let hits := ((m.rate.lookup key).getD []).filter fun t => now - t < window
  let others := m.rate.filter fun r => r.1 ≠ key
  if limit ≤ hits.length then (false, { m with rate := (key, hits) :: others })
  else
    let rate := (key, hits ++ [now]) :: others
    let full := cap.any fun c => c < rate.length
    (true, { m with rate := if full then rate.filter fun r => r.2.any fun t => now - t < window else rate })

def act {W : Type} (U : Upstream W) {β : Type} (x : Answer) (w : World W) : Eff β → β × World W
  | .sql q =>
    match x.fault with
    | some m => (.error (.database m), w)
    | none => ((q.exec w.now x.choice w.db).1, { w with db := (q.exec w.now x.choice w.db).2 })
  | .randomId => (x.text, w)
  | .clock => (w.now, w)
  | .elapse secs => ((), { w with now := w.now + secs })
  | .quote _ _ => (x.orElse .sourceUnavailable (.ok x.quote), w)
  | .slateFromSlatepackMessage armor => (x.orElse id (U.slateFromSlatepackMessage w.wallet armor), w)
  | .createSlatepackMessage s => (x.orElse id (U.createSlatepackMessage w.wallet s), w)
  | .receiveTx s =>
    match x.fault with
    | some m => (.error m, w)
    | none => ((U.receiveTx x s w.wallet).1, { w with wallet := (U.receiveTx x s w.wallet).2 })
  | .issueInvoiceTx a =>
    match x.fault with
    | some m => (.error m, w)
    | none => ((U.issueInvoiceTx x a w.wallet).1, { w with wallet := (U.issueInvoiceTx x a w.wallet).2 })
  | .finalizeTx s =>
    match x.fault with
    | some m => (.error m, w)
    | none => ((U.finalizeTx x s w.wallet).1, { w with wallet := (U.finalizeTx x s w.wallet).2 })
  -- what the call answers and what the node did are two things: the error inside a node's reply is
  -- not looked at, and the reply of an accepted transaction may be lost
  | .postTx s => (x.orElse id (.ok ()), { w with posted := if x.accepted then w.posted ++ [s.id] else w.posted })
  | .cancelTx sid =>
    match x.fault with
    | some m => (.error m, w)
    | none => ((U.cancelTx x sid w.wallet).1, { w with wallet := (U.cancelTx x sid w.wallet).2 })
  | .retrieveTxs sid => (x.orElse id (.ok (U.loggedExcess w.wallet sid)), w)
  | .intoVersion s v => (x.orElse id (U.intoVersion s v), w)
  | .chainTip => (x.orElse id (.ok x.tip), w)
  | .getKernel _ => (x.orElse id (.ok x.kernelHeight), w)
  | .isSeen key => (w.memory.seen.contains key, w)
  | .mark key => ((), { w with memory := { w.memory with seen := key :: w.memory.seen } })
  | .allow key limit window cap =>
    ((w.memory.allow w.now key limit window cap).1,
      { w with memory := (w.memory.allow w.now key limit window cap).2 })
  | .snapshot => (w.memory.snapshot, w)
  | .setSnapshot map => ((), { w with memory := { w.memory with snapshot := map } })
  | .deliver reply => (x.fault.isNone, { w with outbox := w.outbox ++ [reply] })
  | .restart => ((), w.restart)

def handler {W : Type} (U : Upstream W) : Handler Eff Answer (World W) where
  act e x w := GoblinPay.act U x w e

end GoblinPay
