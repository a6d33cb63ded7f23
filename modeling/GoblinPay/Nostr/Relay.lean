import GoblinPay.Async.Prog
import GoblinPay.Nostr.Wrap
import Mathlib.Data.Finset.Sort
import Mathlib.Data.String.Basic

/-!
# The relay subscription

`gp-nostr/src/service.rs`, `run` from the catch-up on: which wraps the service asks the relays for, and
when it asks again. What becomes of a wrap is `Service.handle`; here it is one operation. `Relays` is the
subscription as the relays have it and the directory's watched set.
-/

namespace GoblinPay

open Async

/-- `Filter`, as far as the watch filter sets it. -/
structure RelayFilter where
  kind : Nat
  pubkeys : Finset String
  since : Nat
  deriving DecidableEq

/-- What wakes the loop: `select!` over the notifications and the refresh interval. -/
inductive Turn
  | event (event : NostrEvent)
  /-- another notification -/
  | other
  | lagged (n : Nat)
  | closed
  | tick
  deriving DecidableEq

inductive RelayEff : Type → Type
  /-- `ingest.watched()` -/
  | watched : RelayEff (List String)
  | unixTime : RelayEff Int
  | fetchEvents (filter : RelayFilter) : RelayEff (Except String (List NostrEvent))
  /-- `subscribe_with_id_to`, under the one id of the watch -/
  | subscribe (filter : RelayFilter) : RelayEff (Except String Unit)
  | handle (event : NostrEvent) : RelayEff Unit
  | turn : RelayEff Turn

abbrev RelayIo := Prog RelayEff

structure RefreshPlan where
  /-- the set changed: the subscription is to be renewed -/
  changed : Bool
  /-- watched now but not at the last subscription -/
  added : List String
  deriving DecidableEq

namespace Relay

/-- `LOOKBACK_SECS`. -/
def lookbackSecs : Int := 3 * 86400

def planRefresh (last current : Finset String) : RefreshPlan where
  changed := decide (last ≠ current)
  added := (current \ last).sort (· ≤ ·)

def watchFilter (watched : Finset String) (sinceSecs : Nat) : RelayFilter := ⟨Wrap.wrapKind, watched, sinceSecs⟩

/-- `(unix_time() - LOOKBACK_SECS).max(0) as u64`. -/
def lookback : RelayIo Nat := do
  let now ← Prog.call .unixTime
  pure (now - lookbackSecs).toNat

def handleAll : List NostrEvent → RelayIo Unit
  | [] => pure ()
  | event :: events => do
    Prog.call (.handle event)
    handleAll events

/-- Fetch what was published before the subscription. A failure is logged. -/
def catchUp (filter : RelayFilter) : RelayIo Unit := do
  match ← Prog.call (.fetchEvents filter) with
  | .ok events => handleAll events
  | .error _ => pure ()

/-- The start: catch up, then subscribe. A failure of either is logged. -/
def start : RelayIo (Finset String) := do
  let watched ← Prog.call .watched
  let lastWatched := watched.toFinset
  let since ← lookback
  catchUp (watchFilter lastWatched since)
  discard <| Prog.call (.subscribe (watchFilter lastWatched since))
  pure lastWatched

/-- One refresh tick, from the last watched set to the next one. -/
def refreshSubscription (lastWatched : Finset String) : RelayIo (Finset String) := do
  let watched ← Prog.call .watched
  let current := watched.toFinset
  let plan := planRefresh lastWatched current
  if plan.changed then
    let since ← lookback
    match ← Prog.call (.subscribe (watchFilter current since)) with
    -- the next tick retries
    | .error _ => pure lastWatched
    | .ok () =>
      if plan.added = [] then pure current
      else
        catchUp (watchFilter plan.added.toFinset since)
        pure current
  else pure lastWatched

/-- The loop, for `n` turns or until the notifications end. -/
def serve : Nat → Finset String → RelayIo (Finset String)
  | 0, lastWatched => pure lastWatched
  | n + 1, lastWatched => do
    match ← Prog.call .turn with
    | .event event =>
      Prog.call (.handle event)
      serve n lastWatched
    | .other => serve n lastWatched
    | .lagged _ => serve n lastWatched
    | .closed => pure lastWatched
    | .tick =>
      let lastWatched ← refreshSubscription lastWatched
      serve n lastWatched

def run (n : Nat) : RelayIo (Finset String) := do
  let lastWatched ← start
  serve n lastWatched

end Relay

/-- What the environment contributes to one operation of the service. -/
structure RelayAnswer where
  fault : Option String := none
  watched : List String := []
  now : Int := 0
  events : List NostrEvent := []
  turn : Turn := .tick
  deriving DecidableEq

/-- The subscription under the watch id: none before the first that succeeded. -/
structure Relays where
  active : Option RelayFilter
  deriving DecidableEq

def relayHandler : Handler RelayEff RelayAnswer Relays where
  act e x s :=
    match e with
    | .watched => (x.watched, s)
    | .unixTime => (x.now, s)
    | .fetchEvents _ =>
      match x.fault with
      | some m => (.error m, s)
      | none => (.ok x.events, s)
    | .subscribe filter =>
      match x.fault with
      | some m => (.error m, s)
      | none => (.ok (), ⟨some filter⟩)
    | .handle _ => ((), s)
    | .turn => (x.turn, s)

end GoblinPay
