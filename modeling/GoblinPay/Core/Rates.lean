import GoblinPay.World
import GoblinPay.Text
import GoblinPay.Async.Pool
import GoblinPay.Limit.Window

/-!
# The price oracle

`gp-core/src/rates.rs`: a quote takes its rate from the shared cache while that is fresh, from
the source otherwise, and from the cache again when the source fails and the stale window is
on. A rate is whatever `F` computes with; instants and durations are nanoseconds.
-/

namespace GoblinPay.Rates

open Async

/-- The floating-point numbers and the text functions the oracle rests on. -/
structure Floats (ρ : Type) where
  /-- `str::parse::<f64>`, on a trimmed text -/
  parse : String → Option ρ
  isFinite : ρ → Bool
  negative : ρ → Bool
  nonPositive : ρ → Bool
  /-- `(fiat_amount / fiat_per_grin * 1e9).round()` -/
  nano : ρ → ρ → ρ
  aboveU64 : ρ → Bool
  toU64 : ρ → UInt64
  display : ρ → String
  /-- `str::to_lowercase` -/
  toLowercase : String → String
  /-- the number at `grin` and the currency in a JSON text, or why the text is not JSON -/
  jsonPrice : String → String → Except String (Option ρ)

inductive RateSource
  | coinGecko
  deriving DecidableEq, Repr

def RateSource.asStr : RateSource → String
  | .coinGecko => "coingecko"

structure Quote (ρ : Type) where
  nanogrin : UInt64
  currency : String
  fiatPerGrin : ρ
  source : String
  stale : Bool

/-- One cached rate for a currency: the price and when it was fetched. -/
structure CachedRate (ρ : Type) where
  fiatPerGrin : ρ
  fetched : Nat

structure Oracle where
  source : RateSource
  currencies : List String
  cacheTtl : Nat
  staleMax : Nat
  quoteTtlSecs : Int64
  /-- whether the HTTP client could be built -/
  client : Bool

/-- The part of the configuration the oracle reads. -/
structure RateConfig where
  rateSource : RateSource
  rateCurrencies : List String
  rateCacheTtl : Int64
  quoteTtl : Int64
  rateStaleMax : Int64

/-- `Duration::from_secs(secs.max(0) as u64)` -/
def fromSecs (secs : Int64) : Nat := secs.toInt.toNat * 1000000000

def Oracle.fromConfig (cfg : RateConfig) (client : Bool) : Oracle where
  source := cfg.rateSource
  currencies := cfg.rateCurrencies
  cacheTtl := fromSecs cfg.rateCacheTtl
  staleMax := fromSecs cfg.rateStaleMax
  quoteTtlSecs := cfg.quoteTtl
  client := client

/-- A zero `ttl` is never fresh. -/
def isFresh (age ttl : Nat) : Bool := ttl ≠ 0 && age ≤ ttl

/-- What the source answered to one request. -/
inductive Reply
  | unsent (err : String)
  | answered (status : UInt16) (body : Except String String)

section

variable {ρ : Type} (F : Floats ρ)

def parseFiatAmount (amount : String) : Except RateError ρ :=
  match F.parse (Text.trim amount) with
  | none => .error (.badAmount amount)
  | some value => if !F.isFinite value || F.negative value then .error (.badAmount amount) else .ok value

def fiatToNanogrin (fiatAmount fiatPerGrin : ρ) : Except RateError UInt64 :=
  if !F.isFinite fiatPerGrin || F.nonPositive fiatPerGrin then
    .error (.sourceUnavailable ("non-positive rate " ++ F.display fiatPerGrin))
  else if !F.isFinite fiatAmount || F.negative fiatAmount then .error (.badAmount (F.display fiatAmount))
  else
    let nano := F.nano fiatAmount fiatPerGrin
    if !F.isFinite nano || F.negative nano || F.aboveU64 nano then
      .error (.badAmount
        ("amount " ++ F.display fiatAmount ++ " at rate " ++ F.display fiatPerGrin ++ " overflows nanogrin"))
    else .ok (F.toU64 nano)

def parseCoingecko (json currency : String) : Except RateError ρ :=
  let cur := F.toLowercase currency
  match F.jsonPrice json cur with
  | .error e => .error (.sourceUnavailable ("bad JSON from coingecko: " ++ e))
  | .ok price =>
    match price.filter fun p => F.isFinite p && !F.nonPositive p with
    | some p => .ok p
    | none => .error (.sourceUnavailable ("coingecko returned no `" ++ cur ++ "` price for grin"))

/-- `Oracle::fetch`, given the source's reply. -/
def fetched (o : Oracle) (cur : String) (reply : Reply) : Except RateError ρ :=
  if !o.client then .error (.sourceUnavailable "HTTP client unavailable")
  else
    match o.source, reply with
    | .coinGecko, .unsent e => .error (.sourceUnavailable ("coingecko request failed: " ++ e))
    | .coinGecko, .answered status body =>
      if status < 200 ∨ 300 ≤ status then .error (.sourceUnavailable ("coingecko HTTP " ++ toString status))
      else
        match body with
        | .error e => .error (.sourceUnavailable ("coingecko body read failed: " ++ e))
        | .ok text => parseCoingecko F text cur

end

inductive RateEff (ρ : Type) : Type → Type
  /-- `Instant::now` -/
  | now : RateEff ρ Nat
  | cacheGet (cur : String) : RateEff ρ (Option (CachedRate ρ))
  | fetch (cur : String) : RateEff ρ (Except RateError ρ)
  | cachePut (cur : String) (fiatPerGrin : ρ) (fetched : Nat) : RateEff ρ Unit

/-- The monotonic clock and the cache behind its lock. -/
structure Shared (ρ : Type) where
  clock : Nat
  cache : List (String × CachedRate ρ)

/-- The oracle of `Oracle::from_config` has fetched nothing. -/
def Shared.fresh {ρ : Type} (clock : Nat) : Shared ρ := ⟨clock, []⟩

/-- What the environment contributes to one operation: the time that goes by, the source's
reply, and whether the lock is poisoned. -/
structure Surroundings where
  elapsed : Nat := 0
  reply : Reply := .unsent ""
  poisoned : Bool := false

section

variable {ρ : Type} (F : Floats ρ) (o : Oracle)

def act : {β : Type} → RateEff ρ β → Surroundings → Shared ρ → β × Shared ρ
  | _, .now, x, s => (s.clock + x.elapsed, { s with clock := s.clock + x.elapsed })
  | _, .cacheGet cur, x, s =>
    (if x.poisoned then none else s.cache.lookup cur, { s with clock := s.clock + x.elapsed })
  | _, .fetch cur, x, s => (fetched F o cur x.reply, { s with clock := s.clock + x.elapsed })
  | _, .cachePut cur rate fetched, x, s =>
    ((), { clock := s.clock + x.elapsed, cache := if x.poisoned then s.cache else Limit.put cur ⟨rate, fetched⟩ s.cache })

def handler : Handler (RateEff ρ) Surroundings (Shared ρ) := ⟨act F o⟩

namespace Oracle

def supports (currency : String) : Bool := o.currencies.contains (F.toLowercase currency)

/-- The rate of a currency, and whether it is stale. -/
def rateFor (cur : String) : Prog (RateEff ρ) (Except RateError (ρ × Bool)) := do
  let now ← Prog.call .now
  let hit ← Prog.call (.cacheGet cur)
  match hit.filter fun entry => isFresh (now - entry.fetched) o.cacheTtl with
  | some entry => pure (.ok (entry.fiatPerGrin, false))
  | none =>
    match ← Prog.call (.fetch cur) with
    | .ok rate =>
      Prog.call (.cachePut cur rate now)
      pure (.ok (rate, false))
    | .error fetchErr =>
      let hit ← Prog.call (.cacheGet cur)
      match hit.filter fun entry => o.staleMax ≠ 0 && isFresh (now - entry.fetched) o.staleMax with
      | some entry => pure (.ok (entry.fiatPerGrin, true))
      | none => pure (.error fetchErr)

/-- The quote a rate gives for an amount. -/
def priced (amount : ρ) (cur : String) : Except RateError (ρ × Bool) → Except RateError (Quote ρ)
  | .error e => .error e
  | .ok (rate, stale) =>
    match fiatToNanogrin F amount rate with
    | .error e => .error e
    | .ok nanogrin => .ok { nanogrin, currency := cur, fiatPerGrin := rate, source := o.source.asStr, stale }

/-- One call of `Oracle::quote`. -/
structure Request where
  fiatAmount : String
  currency : String

def quote (call : Request) : Prog (RateEff ρ) (Except RateError (Quote ρ)) :=
  if !o.supports F call.currency then .ret (.error (.unsupportedCurrency call.currency))
  else
    match parseFiatAmount F call.fiatAmount with
    | .error e => .ret (.error e)
    | .ok amount => do
      let cur := F.toLowercase call.currency
      let rate ← o.rateFor cur
      pure (o.priced F amount cur rate)

end Oracle

end

end GoblinPay.Rates
