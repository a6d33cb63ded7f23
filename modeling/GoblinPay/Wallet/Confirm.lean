import GoblinPay.Wallet.GpWallet
import GoblinPay.Wallet.Proof

/-!
# The kernel excess of a payment

`gp-wallet/src/confirm.rs`: the excess recorded with a payment is parsed before the node is asked for it.
-/

namespace GoblinPay.Confirm

open Hex

def decodeHex (s : List Char) : Except Panic (Option (List UInt8)) := Hex.decodeHex s

/-- Parse a 33-byte commitment from hex. -/
def parseCommitment (hex : String) : Except Panic (Except WalletError (List UInt8)) := do
  match ← decodeHex (Text.trimChars hex.toList) with
  | none => pure (.error (.config ("kernel excess is not valid hex: `" ++ hex ++ "`")))
  | some bytes =>
    if bytes.length ≠ commitmentLen then
      pure (.error (.config ("kernel excess must be " ++ toString commitmentLen ++ " bytes (" ++
        toString (commitmentLen * 2) ++ " hex chars), got " ++ toString bytes.length)))
    else pure (.ok bytes)

/-- The parser reads the excess or refuses it, whatever stands after its last whole piece. -/
def Parses (cs : List Char) : Prop :=
  Text.bytes cs % 2 ≠ 0 ∨ Stops cs ∨ ∃ bs, Reads cs bs ∧ (bs.length = commitmentLen → Denotes cs bs)

theorem parseCommitment_returns (hex : String) :
    (∃ parsed, parseCommitment hex = .ok parsed ∧
      ∀ bytes, parsed = .ok bytes → Denotes (Text.trimChars hex.toList) bytes ∧ bytes.length = commitmentLen) ↔
    Parses (Text.trimChars hex.toList) := by
  have hreads : ∀ {bs}, Hex.decodeHex (Text.trimChars hex.toList) = .ok (some bs) ↔ _ := decodeHex_some
  have hstops : Hex.decodeHex (Text.trimChars hex.toList) = .ok none ↔ _ := decodeHex_none
  unfold parseCommitment decodeHex
  cases hr : Hex.decodeHex (Text.trimChars hex.toList) with
  | error e =>
    constructor
    · rintro ⟨_, h, -⟩
      cases h
    · rintro (hodd | hstop | ⟨bs, hread, -⟩)
      · exact absurd (hr.symm.trans (hstops.2 (Or.inl hodd))) nofun
      · exact absurd (hr.symm.trans (hstops.2 (Or.inr hstop))) nofun
      · exact absurd (hr.symm.trans (hreads.2 hread)) nofun
  | ok found =>
    cases found with
    | none =>
      constructor
      · intro _
        exact (hstops.1 hr).imp_right Or.inl
      · intro _
        exact ⟨_, rfl, nofun⟩
    | some bytes =>
      have hread := hreads.1 hr
      dsimp only [bind, Except.bind]
      split
      · rename_i hlen
        constructor
        · intro _
          exact Or.inr (Or.inr ⟨bytes, hread, fun h => absurd h hlen⟩)
        · intro _
          exact ⟨_, rfl, nofun⟩
      · rename_i hlen
        constructor
        · rintro ⟨_, h, hright⟩
          cases h
          exact Or.inr (Or.inr ⟨bytes, hread, fun _ => (hright bytes rfl).1⟩)
        · rintro (hodd | hstop | ⟨bs, hbs, hright⟩)
          · exact absurd (hr.symm.trans (hstops.2 (Or.inl hodd))) nofun
          · exact absurd (hr.symm.trans (hstops.2 (Or.inr hstop))) nofun
          · obtain rfl : bytes = bs := Option.some.inj (Except.ok.inj (hr.symm.trans (hreads.2 hbs)))
            refine ⟨_, rfl, ?_⟩
            rintro _ ⟨⟩
            exact ⟨hright (Decidable.not_not.1 hlen), Decidable.not_not.1 hlen⟩

end GoblinPay.Confirm
