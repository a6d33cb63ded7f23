import GoblinPay.Nostr.Receipt
import GoblinPay.Text.JsonMaps
import GoblinPay.Text.Utf8

/-!
# Signed receipts

`gp-nostr/src/receipt.rs`: the receipt as compact JSON, its signature, and what a verified one says. SHA-256 and
BIP-340 are parameters.
-/

namespace GoblinPay

open Hex

/-! ## As JSON -/

namespace JsonNumber

def ofUInt64 (n : UInt64) : JsonNumber := ⟨n.toNat, by omega, by have := n.toNat_lt; omega⟩

def toUInt64 (n : JsonNumber) : Option UInt64 := if 0 ≤ n.val then some (UInt64.ofNat n.val.toNat) else none

def toUInt8 (n : JsonNumber) : Option UInt8 := if 0 ≤ n.val ∧ n.val < 256 then some (UInt8.ofNat n.val.toNat) else none

theorem toUInt64_ofUInt64 (n : UInt64) : (ofUInt64 n).toUInt64 = some n := by
  have low : 0 ≤ (n.toNat : Int) := by omega
  rw [toUInt64, ofUInt64]
  dsimp only
  rw [if_pos low, Int.toNat_natCast, UInt64.ofNat_toNat]

theorem toUInt8_ofUInt64 (n : UInt8) : (ofUInt64 n.toUInt64).toUInt8 = some n := by
  have value : (ofUInt64 n.toUInt64).val = n.toNat := congrArg Int.ofNat (UInt8.toNat_toUInt64 n)
  have range : 0 ≤ (n.toNat : Int) ∧ (n.toNat : Int) < 256 := by
    have := n.toNat_lt
    omega
  rw [toUInt8, value, if_pos range, Int.toNat_natCast, UInt8.ofNat_toNat]

end JsonNumber

namespace Json

def ofUInt64 (n : UInt64) : Json := .number (.ofUInt64 n)

def ofOption (j : Option Json) : Json := j.getD .null

def toUInt64 : Json → Option UInt64
  | .number n => n.toUInt64
  | _ => none

def toUInt8 : Json → Option UInt8
  | .number n => n.toUInt8
  | _ => none

def toStr : Json → Option String
  | .string s => some s
  | _ => none

/-- An `Option`, absent or null where there is none. -/
def toOption {α : Type} (read : Json → Option α) : Option Json → Option (Option α)
  | none | some .null => some none
  | some j => (read j).map some

/-- The fields of a struct: by name and none of them twice, or in order. -/
def structFields (names : List String) : Json → Option (List (Option Json))
  | .object members =>
    if names.all fun name => members.countP (fun m => m.1 = name) ≤ 1 then some (names.map fun name => members.lookup name) else none
  | .array items => if items.length = names.length then some (items.map some) else none
  | _ => none

end Json

open Json

/-- The members of a receipt, in the order they are written. -/
def Receipt.names : List String :=
  ["version", "payment_id", "amount", "kernel_excess", "confirmed_height", "confirmations", "proof", "issued_at", "server_pubkey"]

def Receipt.toJson (r : Receipt JsonValue) : Json := .object [
  ("version", ofUInt64 r.version.toUInt64),
  ("payment_id", .string r.paymentId),
  ("amount", ofUInt64 r.amount),
  ("kernel_excess", .string r.kernelExcess),
  ("confirmed_height", ofOption (r.confirmedHeight.map ofUInt64)),
  ("confirmations", ofOption (r.confirmations.map ofUInt64)),
  ("proof", ofOption (r.proof.map JsonValue.json)),
  ("issued_at", .string r.issuedAt),
  ("server_pubkey", .string r.serverPubkey)]

def Receipt.ofJson (j : Json) : Option (Receipt JsonValue) := do
  match ← structFields Receipt.names j with
  | [version, paymentId, amount, kernelExcess, confirmedHeight, confirmations, proof, issuedAt, serverPubkey] =>
    some {
      version := ← version.bind toUInt8
      paymentId := ← paymentId.bind toStr
      amount := ← amount.bind Json.toUInt64
      kernelExcess := ← kernelExcess.bind toStr
      confirmedHeight := ← toOption Json.toUInt64 confirmedHeight
      confirmations := ← toOption Json.toUInt64 confirmations
      proof := ← toOption (fun j => some (JsonValue.ofJson j)) proof
      issuedAt := ← issuedAt.bind toStr
      serverPubkey := ← serverPubkey.bind toStr }
  | _ => none

def SignedReceipt.toJson (s : SignedReceipt JsonValue) : Json :=
  .object [("receipt", s.receipt.toJson), ("sig", .string s.sig)]

def SignedReceipt.ofJson (j : Json) : Option (SignedReceipt JsonValue) := do
  match ← structFields ["receipt", "sig"] j with
  | [receipt, sig] => some ⟨← receipt.bind Receipt.ofJson, ← sig.bind toStr⟩
  | _ => none

/-- `serde_json::to_string` -/
def SignedReceipt.toText (s : SignedReceipt JsonValue) : List Char := s.toJson.render

/-- `serde_json::from_str`, with its recursion limit. -/
def SignedReceipt.ofText (cs : List Char) : Option (SignedReceipt JsonValue) := (Json.read 128 cs).bind SignedReceipt.ofJson

/-- A null proof is no proof. -/
def Receipt.plain (r : Receipt JsonValue) : Receipt JsonValue :=
  { r with proof := r.proof.filter fun v => !v.isNull }

/-! ## Reading what was written -/

theorem toOption_ofUInt64 (n : Option UInt64) :
    toOption Json.toUInt64 (some (ofOption (n.map ofUInt64))) = some n := by
  cases n with
  | none => rfl
  | some n =>
    have read : Json.toUInt64 (ofUInt64 n) = some n := JsonNumber.toUInt64_ofUInt64 n
    exact congrArg (Option.map some) read

theorem toOption_proof (proof : Option JsonValue) :
    toOption (fun j => some (JsonValue.ofJson j)) (some (ofOption (proof.map JsonValue.json))) =
      some (proof.filter fun v => !v.isNull) := by
  cases proof with
  | none => rfl
  | some v =>
    have kept := JsonValue.ofJson_json v
    obtain ⟨j, maps⟩ := v
    cases j with
    | null => rfl
    | _ => exact congrArg (fun v => some (some v)) kept

/-- A receipt is read back, but for a proof that is null. -/
theorem Receipt.ofJson_toJson (r : Receipt JsonValue) : Receipt.ofJson r.toJson = some r.plain := by
  have version : Json.toUInt8 (ofUInt64 r.version.toUInt64) = some r.version := JsonNumber.toUInt8_ofUInt64 r.version
  have amount : Json.toUInt64 (ofUInt64 r.amount) = some r.amount := JsonNumber.toUInt64_ofUInt64 r.amount
  have fields : structFields Receipt.names r.toJson = some [
      some (ofUInt64 r.version.toUInt64), some (.string r.paymentId), some (ofUInt64 r.amount), some (.string r.kernelExcess),
      some (ofOption (r.confirmedHeight.map ofUInt64)), some (ofOption (r.confirmations.map ofUInt64)),
      some (ofOption (r.proof.map JsonValue.json)), some (.string r.issuedAt), some (.string r.serverPubkey)] := rfl
  rw [Receipt.ofJson, fields]
  simp only [Option.bind_eq_bind, Option.bind_some, version, amount, toOption_ofUInt64, toOption_proof, toStr]
  rfl

/-- A signed receipt is read back, but for a proof that is null. -/
theorem SignedReceipt.ofJson_toJson (s : SignedReceipt JsonValue) :
    SignedReceipt.ofJson s.toJson = some ⟨s.receipt.plain, s.sig⟩ := by
  have fields : structFields ["receipt", "sig"] s.toJson = some [some s.receipt.toJson, some (.string s.sig)] := rfl
  rw [SignedReceipt.ofJson, fields]
  simp only [Option.bind_eq_bind, Option.bind_some, Receipt.ofJson_toJson, toStr]

/-- How deep the embedded proof is. -/
def Receipt.proofDepth (r : Receipt JsonValue) : Nat := (ofOption (r.proof.map JsonValue.json)).depth

theorem depth_ofOption_ofUInt64 (n : Option UInt64) : (ofOption (n.map ofUInt64)).depth = 0 := by
  cases n <;> rfl

/-- The proof stands two levels deep. -/
theorem SignedReceipt.depth_toJson (s : SignedReceipt JsonValue) : s.toJson.depth = s.receipt.proofDepth + 2 := by
  have receipt : s.receipt.toJson.depth = s.receipt.proofDepth + 1 := by
    simp only [Receipt.toJson, Json.depth, depthMembers, depth_ofOption_ofUInt64, ofUInt64, Receipt.proofDepth]
    omega
  simp only [SignedReceipt.toJson, Json.depth, depthMembers, receipt]
  omega

/-- A signed receipt is read back from its text, if its proof is not nested too deep for the reader. -/
theorem SignedReceipt.ofText_toText (s : SignedReceipt JsonValue) :
    SignedReceipt.ofText s.toText = if s.receipt.proofDepth ≤ 125 then some ⟨s.receipt.plain, s.sig⟩ else none := by
  rw [SignedReceipt.ofText, SignedReceipt.toText, Json.read_render _ (by decide), SignedReceipt.depth_toJson]
  by_cases hdeep : s.receipt.proofDepth ≤ 125
  · rw [if_pos hdeep, if_pos (by omega), Option.bind_some, SignedReceipt.ofJson_toJson]
  · rw [if_neg hdeep, if_neg (by omega), Option.bind_none]

theorem Receipt.toJson_plain (r : Receipt JsonValue) : r.plain.toJson = r.toJson := by
  have proof : ofOption (r.plain.proof.map JsonValue.json) = ofOption (r.proof.map JsonValue.json) := by
    rw [Receipt.plain]
    cases r.proof with
    | none => rfl
    | some v =>
      obtain ⟨j, maps⟩ := v
      cases j <;> rfl
  unfold Receipt.toJson
  rw [proof]
  rfl

/-- The JSON of a receipt determines every field of it. -/
theorem Receipt.plain_of_toJson {r t : Receipt JsonValue} (h : r.toJson = t.toJson) : r.plain = t.plain := by
  have read := Receipt.ofJson_toJson r
  rw [h, Receipt.ofJson_toJson] at read
  exact (Option.some.inj read).symm

/-! ## Signing -/

inductive ReceiptError
  | key (m : String)
  | serialize (m : String)
  deriving DecidableEq, Repr

/-- `secp256k1` and its SHA-256. -/
structure Bip340 (Key : Type) where
  sha256 : List UInt8 → List UInt8
  secretKeyFromByteArray : List UInt8 → Except String Unit
  /-- the x-only public key of a secret, serialized -/
  xonly : List UInt8 → List UInt8
  signSchnorrNoAuxRand : (digest secret : List UInt8) → List UInt8
  xonlyFromByteArray : List UInt8 → Except String Key
  verifySchnorr : (signature digest : List UInt8) → Key → Bool

variable {Key : Type} (B : Bip340 Key)

/-- `serde_json::to_vec` -/
def Receipt.toVec (r : Receipt JsonValue) : List UInt8 := Text.utf8 r.toJson.render

def Bip340.schnorr : Schnorr JsonValue Key where
  toVec r := .ok r.toVec
  sha256 := B.sha256
  xonlyFromByteArray := B.xonlyFromByteArray
  verifySchnorr := B.verifySchnorr

/-- The receipt under a key, whatever the caller passed. -/
def Receipt.under (r : Receipt JsonValue) (key : List UInt8) : Receipt JsonValue := { r with serverPubkey := Receipt.encodeHex key }

/-- `sign_receipt`: the receipt names the key that signs it. -/
def signReceipt (keys : List UInt8) (receipt : Receipt JsonValue) : Except ReceiptError (SignedReceipt JsonValue) := do
  (B.secretKeyFromByteArray keys).mapError fun e => .key s!"bad identity secret key: {e}"
  let receipt := receipt.under (B.xonly keys)
  let digest ← (Receipt.receiptDigest B.schnorr receipt).mapError .serialize
  pure ⟨receipt, Receipt.encodeHex (B.signSchnorrNoAuxRand digest keys)⟩

/-! ## Authenticity -/

/-- What the holder of each x-only key has signed: receipts, and the JSON arrays that make the ids of nostr events. -/
structure Signatures where
  receipts : List UInt8 → Receipt JsonValue → Prop
  events : List UInt8 → List UInt8 → Prop
  arrays : ∀ key m, events key m → m.head? = some 91

/-- The texts signed under a key. -/
def Signatures.Signed (H : Signatures) (key m : List UInt8) : Prop :=
  (∃ r, H.receipts key r ∧ m = (r.under key).toVec) ∨ H.events key m

/-- The symbolic model: no two texts have one digest, and under a key the signatures of its holder verify, for exactly the digests
of what was signed. -/
structure Bip340.Symbolic (B : Bip340 Key) (H : Signatures) : Prop where
  sha256_injective : ∀ {m n}, B.sha256 m = B.sha256 n → m = n
  xonly_length : ∀ {secret}, B.secretKeyFromByteArray secret = .ok () → (B.xonly secret).length = 32
  signature_length : ∀ digest secret, (B.signSchnorrNoAuxRand digest secret).length = 64
  xonly_parses : ∀ {secret}, B.secretKeyFromByteArray secret = .ok () → ∃ pubkey, B.xonlyFromByteArray (B.xonly secret) = .ok pubkey
  verifies : ∀ {secret pubkey m}, B.xonlyFromByteArray (B.xonly secret) = .ok pubkey → H.Signed (B.xonly secret) m →
    B.verifySchnorr (B.signSchnorrNoAuxRand (B.sha256 m) secret) (B.sha256 m) pubkey = true
  signed_of_verifies : ∀ {key pubkey signature digest}, B.xonlyFromByteArray key = .ok pubkey →
    B.verifySchnorr signature digest pubkey = true → ∃ m, H.Signed key m ∧ B.sha256 m = digest

/-- Receipts with one signed text are the same, but for a proof that is null. -/
theorem Receipt.plain_of_toVec {r t : Receipt JsonValue} (h : r.toVec = t.toVec) : r.plain = t.plain :=
  Receipt.plain_of_toJson (Json.render_injective (Text.utf8_injective h))

theorem Receipt.head_toVec (r : Receipt JsonValue) : r.toVec.head? = some 123 := rfl

/-- What the check comes to where it says yes. -/
theorem verifyReceipt_true {t : SignedReceipt JsonValue} :
    Receipt.verifyReceipt B.schnorr t = .ok true ↔ ∃ key, decodeFixed 32 t.receipt.serverPubkey = .ok (some key) ∧
      ∃ sig, decodeFixed 64 t.sig = .ok (some sig) ∧ ∃ pubkey, B.xonlyFromByteArray key = .ok pubkey ∧
        B.verifySchnorr sig (B.sha256 t.receipt.toVec) pubkey = true := by
  have digest : Receipt.receiptDigest B.schnorr t.receipt = .ok (B.sha256 t.receipt.toVec) := rfl
  rw [Receipt.verifyReceipt, digest, letOk_true]
  constructor
  · rintro ⟨d, hd, hrest⟩
    cases hd
    obtain ⟨key, hkey, hrest⟩ := letSome_true.1 hrest
    obtain ⟨sig, hsig, hrest⟩ := letSome_true.1 hrest
    obtain ⟨pubkey, hpubkey, hyes⟩ := letOk_true.1 hrest
    exact ⟨key, hkey, sig, hsig, pubkey, hpubkey, Except.ok.inj hyes⟩
  · rintro ⟨key, hkey, sig, hsig, pubkey, hpubkey, hyes⟩
    refine ⟨_, rfl, letSome_true.2 ⟨key, hkey, letSome_true.2 ⟨sig, hsig, letOk_true.2 ⟨pubkey, hpubkey, ?_⟩⟩⟩⟩
    exact congrArg Except.ok hyes

/-- A null proof makes no difference to the check. -/
theorem verify_plain (s : SignedReceipt JsonValue) (expected : String) :
    Receipt.verifyReceiptFrom B.schnorr ⟨s.receipt.plain, s.sig⟩ expected = Receipt.verifyReceiptFrom B.schnorr s expected := by
  have text : s.receipt.plain.toVec = s.receipt.toVec := by rw [Receipt.toVec, Receipt.toJson_plain, Receipt.toVec]
  have digest : Receipt.receiptDigest B.schnorr s.receipt.plain = Receipt.receiptDigest B.schnorr s.receipt :=
    congrArg (fun m => Except.ok (B.sha256 m)) text
  rw [Receipt.verifyReceiptFrom, Receipt.verifyReceipt, digest]
  rfl

section

variable {B} {H : Signatures} (h : B.Symbolic H)

include h

/-- What the till signed verifies against its key. -/
theorem verify_signed {keys : List UInt8} {r : Receipt JsonValue} (hkey : B.secretKeyFromByteArray keys = .ok ())
    (hsigned : H.receipts (B.xonly keys) r) :
    ∃ s, signReceipt B keys r = .ok s ∧ s.receipt = r.under (B.xonly keys) ∧
      Receipt.verifyReceiptFrom B.schnorr s (Receipt.encodeHex (B.xonly keys)) = .ok true := by
  obtain ⟨pubkey, hpubkey⟩ := h.xonly_parses hkey
  let receipt := r.under (B.xonly keys)
  let sig := B.signSchnorrNoAuxRand (B.sha256 receipt.toVec) keys
  have signs : signReceipt B keys r = .ok ⟨receipt, Receipt.encodeHex sig⟩ := by
    rw [signReceipt, hkey]
    rfl
  have key := decodeFixed_encodeHex (B.xonly keys)
  rw [h.xonly_length hkey] at key
  have signature := decodeFixed_encodeHex sig
  rw [h.signature_length] at signature
  have verifies : B.verifySchnorr sig (B.sha256 receipt.toVec) pubkey = true := h.verifies hpubkey (Or.inl ⟨r, hsigned, rfl⟩)
  have same : Receipt.eqIgnoreAsciiCase (Receipt.encodeHex (B.xonly keys)).toList
      (Text.trimChars (Receipt.encodeHex (B.xonly keys)).toList) = true := by
    have trimmed : Text.trimChars (encodeHex (B.xonly keys)).toList = (encodeHex (B.xonly keys)).toList :=
      (encodeHex_denotes (B.xonly keys)).trim_eq
    rw [Receipt.encodeHex, trimmed]
    exact decide_eq_true rfl
  refine ⟨_, signs, rfl, ?_⟩
  have yes := (verifyReceipt_true B (t := ⟨receipt, Receipt.encodeHex sig⟩)).2 ⟨_, key, _, signature, pubkey, hpubkey, verifies⟩
  rw [Receipt.verifyReceiptFrom]
  exact (if_pos same).trans yes

/-- What verifies against a key is a receipt that key has signed. -/
theorem signed_of_verify {t : SignedReceipt JsonValue} {key : List UInt8}
    (hverify : Receipt.verifyReceiptFrom B.schnorr t (Receipt.encodeHex key) = .ok true) :
    ∃ r, H.receipts key r ∧ t.receipt.plain = (r.under key).plain := by
  rw [Receipt.verifyReceiptFrom] at hverify
  split at hverify
  · rename_i hsame
    obtain ⟨bytes, hbytes, sig, hsig, pubkey, hpubkey, hyes⟩ := (verifyReceipt_true B).1 hverify
    obtain ⟨m, hsigned, hdigest⟩ := h.signed_of_verifies hpubkey hyes
    obtain rfl := h.sha256_injective hdigest
    rcases hsigned with ⟨r, hr, htext⟩ | hevent
    · have plain := Receipt.plain_of_toVec htext
      have named : t.receipt.serverPubkey = encodeHex bytes := congrArg Receipt.serverPubkey plain
      have lower := of_decide_eq_true hsame
      have trimmed : Text.trimChars (encodeHex key).toList = (encodeHex key).toList := (encodeHex_denotes key).trim_eq
      rw [named, Receipt.encodeHex, trimmed, toLower_encodeHex, toLower_encodeHex] at lower
      obtain rfl := encodeHex_injective (String.toList_injective lower)
      exact ⟨r, hr, plain⟩
    · have array := H.arrays _ _ hevent
      rw [Receipt.head_toVec] at array
      cases array
  · cases hverify

/-- What an identity has signed verifies under its key, also when it was read back from JSON, which it is where its proof nests
at most 125 containers. What verifies under a key is, field by field, a receipt its holder signed, and verifies under no other. -/
theorem receipts_authentic :
    (∀ {keys r}, B.secretKeyFromByteArray keys = .ok () → H.receipts (B.xonly keys) r → ∃ s, signReceipt B keys r = .ok s ∧
      Receipt.verifyReceiptFrom B.schnorr s (Receipt.encodeHex (B.xonly keys)) = .ok true ∧
      SignedReceipt.ofText s.toText = (if r.proofDepth ≤ 125 then some ⟨s.receipt.plain, s.sig⟩ else none) ∧
      Receipt.verifyReceiptFrom B.schnorr ⟨s.receipt.plain, s.sig⟩ (Receipt.encodeHex (B.xonly keys)) = .ok true) ∧
    (∀ {t : SignedReceipt JsonValue} {key}, Receipt.verifyReceiptFrom B.schnorr t (Receipt.encodeHex key) = .ok true →
      ∃ r, H.receipts key r ∧ t.receipt.plain = (r.under key).plain) ∧
    ∀ {t : SignedReceipt JsonValue} {key other}, Receipt.verifyReceiptFrom B.schnorr t (Receipt.encodeHex key) = .ok true →
      Receipt.verifyReceiptFrom B.schnorr t (Receipt.encodeHex other) = .ok true → key = other := by
  refine ⟨fun {keys r} hkey hsigned => ?_, fun hverify => signed_of_verify h hverify, fun {t key other} hkey hother => ?_⟩
  · obtain ⟨s, hs, hreceipt, hverify⟩ := verify_signed h hkey hsigned
    have read := s.ofText_toText
    have depth : s.receipt.proofDepth = r.proofDepth := by
      rw [hreceipt]
      rfl
    rw [depth] at read
    refine ⟨s, hs, hverify, read, ?_⟩
    rw [verify_plain B]
    exact hverify
  · obtain ⟨r, -, hr⟩ := signed_of_verify h hkey
    obtain ⟨r', -, hr'⟩ := signed_of_verify h hother
    have named : encodeHex key = encodeHex other := congrArg Receipt.serverPubkey (hr.symm.trans hr')
    exact encodeHex_injective named

end

def tillKey : List UInt8 := List.replicate 32 7

/-- A scheme under which one key has signed one receipt. -/
def tillScheme (r : Receipt JsonValue) : Bip340 (List UInt8) where
  sha256 := id
  secretKeyFromByteArray secret := if secret = tillKey then .ok () else .error "bad key"
  xonly secret := secret
  signSchnorrNoAuxRand _ _ := List.replicate 64 1
  xonlyFromByteArray key := if key = tillKey then .ok key else .error "bad key"
  verifySchnorr _ digest _ := digest = (r.under tillKey).toVec

def tillSigned (r : Receipt JsonValue) : Signatures where
  receipts key r' := key = tillKey ∧ r' = r
  events _ _ := False
  arrays _ _ h := h.elim

theorem till_secret {r : Receipt JsonValue} {secret : List UInt8} :
    (tillScheme r).secretKeyFromByteArray secret = .ok () ↔ secret = tillKey := by
  by_cases h : secret = tillKey <;> simp [tillScheme, h]

theorem till_public {r : Receipt JsonValue} {key pubkey : List UInt8} :
    (tillScheme r).xonlyFromByteArray key = .ok pubkey ↔ key = tillKey ∧ pubkey = key := by
  by_cases h : key = tillKey <;> simp [tillScheme, h, eq_comm]

/-- A till that signs one receipt has the laws. -/
theorem till_symbolic (r : Receipt JsonValue) : (tillScheme r).Symbolic (tillSigned r) where
  sha256_injective h := h
  xonly_length h := by
    rw [till_secret.1 h]
    rfl
  signature_length _ _ := rfl
  xonly_parses h := ⟨tillKey, till_public.2 ⟨till_secret.1 h, (till_secret.1 h).symm⟩⟩
  verifies := by
    rintro secret pubkey m - (⟨_, ⟨hkey, rfl⟩, rfl⟩ | hevent)
    · have named : secret = tillKey := hkey
      subst named
      exact decide_eq_true rfl
    · exact hevent.elim
  signed_of_verifies := by
    intro key pubkey signature digest hkey hverify
    have text : digest = (r.under tillKey).toVec := of_decide_eq_true hverify
    have named : key = tillKey := (till_public.1 hkey).1
    subst named
    exact ⟨_, Or.inl ⟨r, ⟨rfl, rfl⟩, rfl⟩, text.symm⟩

/-- A receipt whose proof is so many arrays, each in the last, and one. -/
def nested : Nat → Json
  | 0 => .array []
  | n + 1 => .array [nested n]

theorem depth_nested (n : Nat) : (nested n).depth = n + 1 := by
  induction n with
  | zero => rfl
  | succ n ih =>
    rw [nested, Json.depth, depthItems, depthItems, ih]
    omega

theorem maps_nested : ∀ n, (nested n).Maps
  | 0 => trivial
  | n + 1 => ⟨maps_nested n, trivial⟩

def nestedReceipt (n : Nat) : Receipt JsonValue where
  version := 1
  paymentId := "b6f7c2a0-1234-5678-9abc-def012345678"
  amount := 2500000000
  kernelExcess := "09\n\"quoted\""
  confirmedHeight := some 3900000
  confirmations := none
  proof := some ⟨nested n, maps_nested n⟩
  issuedAt := "2026-07-01T12:00:00Z"
  serverPubkey := ""

theorem proofDepth_nestedReceipt (n : Nat) : (nestedReceipt n).proofDepth = n + 1 := depth_nested n

theorem shallow_receipt_verifies : ∃ s, signReceipt (tillScheme (nestedReceipt 124)) tillKey (nestedReceipt 124) = .ok s ∧
    SignedReceipt.ofText s.toText = some ⟨s.receipt.plain, s.sig⟩ ∧
    Receipt.verifyReceiptFrom (tillScheme (nestedReceipt 124)).schnorr ⟨s.receipt.plain, s.sig⟩ (Receipt.encodeHex tillKey) = .ok true := by
  obtain ⟨s, hs, -, hread, hverify⟩ :=
    (receipts_authentic (till_symbolic (nestedReceipt 124))).1 (till_secret.2 rfl) (show _ ∧ _ from ⟨rfl, rfl⟩)
  rw [proofDepth_nestedReceipt, if_pos (by decide)] at hread
  exact ⟨s, hs, hread, hverify⟩

/-- One container more, and the signed receipt is not read back. -/
theorem deep_receipt_unread : ∃ s, signReceipt (tillScheme (nestedReceipt 125)) tillKey (nestedReceipt 125) = .ok s ∧
    Receipt.verifyReceiptFrom (tillScheme (nestedReceipt 125)).schnorr s (Receipt.encodeHex tillKey) = .ok true ∧
    SignedReceipt.ofText s.toText = none := by
  obtain ⟨s, hs, hreceipt, hverify⟩ :=
    verify_signed (till_symbolic (nestedReceipt 125)) (till_secret.2 rfl) (show _ ∧ _ from ⟨rfl, rfl⟩)
  have depth : s.receipt.proofDepth = 126 := by
    rw [hreceipt]
    exact proofDepth_nestedReceipt 125
  refine ⟨s, hs, hverify, ?_⟩
  rw [SignedReceipt.ofText_toText, depth, if_neg (by decide)]

end GoblinPay
