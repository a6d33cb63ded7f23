import GoblinPay.World

/-!
# Derived child identities

`gp-core/src/derive.rs`: a per-invoice or per-user Nostr identity is a child of the server's
secret key, `SHA256(master_sk || context)`, with a counter appended while the digest is not
a valid scalar.
-/

namespace GoblinPay

namespace Derive

/-- `u32::to_be_bytes`, `i64::to_be_bytes`. -/
def beBytes (width n : Nat) : List UInt8 :=
  (List.range width).reverse.map fun k => UInt8.ofNat (n / 256 ^ k % 256)

section

variable {W : Type} (U : Upstream W)

/-- The hash of one round: the counter is absent from the first. -/
def digest (material : List UInt8) (counter : Nat) : Secret :=
  U.sha256 (material ++ if counter = 0 then [] else beBytes 4 counter)

/-- The rejection-sampling loop. The counters of the source are `u32`s; running out of them
is its `unreachable!`. -/
def childSecretFrom (material : List UInt8) : Nat → Nat → Secret
  | 0, _ => []
  | fuel + 1, counter =>
    if U.isScalar (digest U material counter) then digest U material counter
    else childSecretFrom material fuel (counter + 1)

def childSecret (master : Secret) (context : List (List UInt8)) : Secret :=
  childSecretFrom U (master ++ context.flatten) (2 ^ 32) 0

def childPubkeyHex (master : Secret) (context : List (List UInt8)) : String :=
  U.xonlyHex (childSecret U master context)

def invoiceContext (invoiceId : String) : List (List UInt8) := [invoiceId.toUTF8.data.toList]

def endpubContext (userId : String) (epoch : Int64) : List (List UInt8) :=
  [userId.toUTF8.data.toList, beBytes 8 epoch.toUInt64.toNat]

def invoiceSecret (master : Secret) (invoiceId : String) : Secret :=
  childSecret U master (invoiceContext invoiceId)

def invoicePubkeyHex (master : Secret) (invoiceId : String) : String :=
  childPubkeyHex U master (invoiceContext invoiceId)

def endpubSecret (master : Secret) (userId : String) (epoch : Int64) : Secret :=
  childSecret U master (endpubContext userId epoch)

def endpubPubkeyHex (master : Secret) (userId : String) (epoch : Int64) : String :=
  childPubkeyHex U master (endpubContext userId epoch)

/-- SHA-256 and the curve order are such that a counter in range gives a valid scalar. -/
def Samples : Prop := ∀ material, ∃ counter < 2 ^ 32, U.isScalar (digest U material counter)

variable {U}

theorem isScalar_childSecretFrom {material : List UInt8} {fuel counter c : Nat} (hle : counter ≤ c)
    (hlt : c < counter + fuel) (hc : U.isScalar (digest U material c)) :
    U.isScalar (childSecretFrom U material fuel counter) := by
  induction fuel generalizing counter with
  | zero => omega
  | succ fuel ih =>
    unfold childSecretFrom
    split
    · assumption
    · rename_i hne
      have : counter ≠ c := by
        rintro rfl
        exact hne hc
      exact ih (by omega) (by omega)

/-- A derived secret is a valid key. -/
theorem isScalar_childSecret (h : Samples U) (master : Secret) (context : List (List UInt8)) :
    U.isScalar (childSecret U master context) := by
  obtain ⟨c, hlt, hc⟩ := h (master ++ context.flatten)
  exact isScalar_childSecretFrom (Nat.zero_le c) (by omega) hc

end

end Derive

end GoblinPay
