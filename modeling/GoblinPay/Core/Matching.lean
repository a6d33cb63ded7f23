import GoblinPay.Core.Endpub
import GoblinPay.Core.Webhook
import GoblinPay.Machine

/-!
# Matching a payment to an invoice

`gp-core/src/matching.rs`. An invoice is looked for by the derived identity, then by the
memo, then by the exact amount; the amount guard, the `open` to `paid` transition and the
link are separate statements.
-/

namespace GoblinPay

open Async

structure IncomingPayment where
  slateId : String
  amount : UInt64
  recipientHex : String
  memo : Option String
  deriving DecidableEq, Repr

structure AmountMismatch where
  expected : UInt64
  received : UInt64
  deriving DecidableEq, Repr

structure MatchResult where
  invoiceId : Option String := none
  userId : Option String := none
  amountMismatch : Option AmountMismatch := none
  deriving DecidableEq, Repr

namespace Matching

/-- `expected.max(0) as u64`. -/
def clamp (expected : Int64) : UInt64 := (max expected 0).toUInt64

/-- The clamped amount is the stored one unless that is negative. -/
theorem toNat_clamp {expected : Int64} : ((clamp expected).toNat : Int) = expected.toInt ↔ 0 ≤ expected := by
  have hmax : max expected 0 = if expected ≤ 0 then 0 else expected := rfl
  constructor
  · intro h
    rw [Int64.le_iff_toInt_le, ← h]
    exact Int.natCast_nonneg _
  · intro h
    have hclamp : clamp expected = expected.toUInt64 := by
      rw [clamp, hmax]
      split
      · have hzero : expected = 0 := by grind
        rw [hzero]
      · rfl
    rw [hclamp, Int64.toNat_toUInt64_of_le h, Int64.cast_toNatClampNeg _ h]

theorem clamp_of_pos {expected : Int64} (h : 0 < expected) : clamp expected = expected.toUInt64 := by
  have hmax : max expected 0 = if expected ≤ 0 then 0 else expected := rfl
  have hle : ¬ expected ≤ 0 := by grind
  rw [clamp, hmax, if_neg hle]

theorem clamp_of_neg {expected : Int64} (h : expected < 0) : clamp expected = 0 := by
  have hmax : max expected 0 = if expected ≤ 0 then 0 else expected := rfl
  have hle : expected ≤ 0 := by grind
  rw [clamp, hmax, if_pos hle]
  rfl

/-- The amount guard: an invoice with an exact amount is paid in full, an open-amount invoice
binds nothing. -/
def mismatch (amount : UInt64) : Option Int64 → Option AmountMismatch
  | some expected => if amount ≠ clamp expected then some ⟨clamp expected, amount⟩ else none
  | none => none

/-- The memo is tried only when the payment carries one. -/
def resolveMemo (default : MatchMode) : Option String → ExceptT SqlxError Io (Option String)
  | some memo => sql (.resolveMemo default memo)
  | none => pure none

def resolve (default : MatchMode) (incoming : IncomingPayment) : ExceptT SqlxError Io (Option String) := do
  match ← sql (.resolveDerived default incoming.recipientHex) with
  | some id => pure (some id)
  | none =>
    match ← resolveMemo default incoming.memo with
    | some id => pure (some id)
    | none => sql (.resolveAmount default incoming.amount)

/-- The `open` to `paid` transition. Whether `mark_paid` changed the row is not looked at. -/
def markMatched (slateId : String) : Option String → ExceptT SqlxError Io Unit
  | some id => discard <| Invoice.markPaid id slateId
  | none => pure ()

/-- `match_payment` past the amount guard: mark the invoice paid and link the payment row. -/
def settle (slateId : String) (invoiceId userId : Option String) : ExceptT SqlxError Io MatchResult := do
  markMatched slateId invoiceId
  sql (.linkPayment slateId invoiceId userId)
  pure { invoiceId, userId }

def matchPayment (default : MatchMode) (incoming : IncomingPayment) : ExceptT SqlxError Io MatchResult := do
  let userId ← Endpub.userForPubkey incoming.recipientHex
  let userId := userId.map Prod.fst
  match ← resolve default incoming with
  | none => settle incoming.slateId none userId
  | some id =>
    let expected ← sql (.expectedAmount id)
    match mismatch incoming.amount expected with
    | some m => pure { amountMismatch := some m }
    | none => settle incoming.slateId (some id) userId

end Matching

end GoblinPay
