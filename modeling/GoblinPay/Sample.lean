import GoblinPay.Server.System

/-!
# A sample till

A grin wallet small enough to run: it knows which slates it received and issued, which
contexts it stores, and the slatepacks in circulation by their text. It is lawful, so it
witnesses that the laws can be met, and the concrete runs of the development use it.
-/

namespace GoblinPay.Sample

open Async

structure Wallet where
  received : List String
  issued : List String
  contexts : List String
  /-- what the slatepack texts in circulation decode to -/
  packs : List (String × Slate)
  deriving DecidableEq

def upstream : Upstream Wallet where
  slateFromSlatepackMessage w armor :=
    match w.packs.lookup armor with
    | some slate => .ok slate
    | none => .error "not a slatepack"
  createSlatepackMessage _ slate := .ok (slate.state.toText ++ ":" ++ slate.id)
  receiveTx _ slate w :=
    if slate.id ∈ w.received then
      (.error ("Transaction with ID " ++ slate.id ++ " has already been received"), w)
    else (.ok { slate with state := .standard2 }, { w with received := slate.id :: w.received })
  issueInvoiceTx x amount w :=
    if x.text ∈ w.issued then (.error "slate id in use", w)
    else (.ok ⟨x.text, .invoice1, amount, none⟩,
      { w with issued := x.text :: w.issued, contexts := x.text :: w.contexts })
  finalizeTx _ slate w :=
    if slate.id ∈ w.contexts then
      (.ok { slate with state := .invoice3 }, { w with contexts := w.contexts.filter fun id => id ≠ slate.id })
    else (.error "no stored context", w)
  cancelTx _ slateId w := (.ok (), { w with contexts := w.contexts.filter fun id => id ≠ slateId })
  loggedExcess _ slateId := some ("excess:" ++ slateId)
  holdsContext w slateId := w.contexts.contains slateId
  hasReceived w slateId := w.received.contains slateId
  hasIssued w slateId := w.issued.contains slateId
  intoVersion slate version := .ok ⟨version, slate⟩
  isUuid _ := true
  verifyProof _ := true
  proofToJson _ := .ok "proof"
  -- one round of hashing always gives a scalar; the key names its material
  sha256 material := material
  isScalar _ := true
  xonlyHex secret := String.ofList (secret.map fun b => Char.ofNat b.toNat)
  publicKeyFromHex := some
  -- nothing is encrypted: the text of a wrap is that of its rumor, from a payer named by it
  payloadVersion _ := .ok 2
  decryptV2 _ _ content := .ok content
  decryptV3 _ _ content _ := .ok content
  eventFromJson json := .ok ⟨json, 13, "payer", json, [], 0, ""⟩
  verifyEvent _ := .ok ()
  unsignedEventFromJson json := .ok ⟨json, 14, "payer", json, [], 0⟩

def wallet : Wallet := ⟨[], [], [], []⟩

def world : World Wallet := .fresh wallet 1000

/-- Ingest on with the key `m`, memo matching by default, no webhook. -/
def config : Config := ⟨.memo, none, none, 10, true, some [109], true, 1, 0⟩

/-- A received slate. -/
def received (slateId : String) (amount : UInt64) : Received := ⟨slateId, amount, "S2:" ++ slateId, "k", none⟩

/-- The till keeps the laws of the grin wallet. -/
theorem lawful : upstream.Lawful where
  receive_new {x slate w s' w'} h := by
    by_cases hm : slate.id ∈ w.received <;> simp [upstream, hm] at h ⊢
    simp [← h.1]
  receive_logs {x slate w s' w'} h id := by
    by_cases hm : slate.id ∈ w.received <;> simp [upstream, hm] at h ⊢
    simp [← h.2]
  receive_error {x slate w m w'} h id := by
    by_cases hm : slate.id ∈ w.received <;> simp [upstream, hm] at h ⊢
    rw [← h.2]
  receive_context x slate w id := by
    by_cases hm : slate.id ∈ w.received <;> simp [upstream, hm]
  receive_issued x slate w id := by
    by_cases hm : slate.id ∈ w.received <;> simp [upstream, hm]
  issue_new {x a w s' w'} h := by
    by_cases hm : x.text ∈ w.issued <;> simp [upstream, hm] at h ⊢
    simp [← h.1, hm]
  issue_context {x a w s' w'} h id := by
    by_cases hm : x.text ∈ w.issued <;> simp [upstream, hm] at h ⊢
    simp [← h.1, ← h.2]
  issue_logs {x a w s' w'} h id := by
    by_cases hm : x.text ∈ w.issued <;> simp [upstream, hm] at h ⊢
    simp [← h.1, ← h.2]
  issue_error {x a w m w'} h id := by
    by_cases hm : x.text ∈ w.issued <;> simp [upstream, hm] at h ⊢
    simp [← h.2]
  finalize_context {x slate w s' w'} h := by
    by_cases hm : slate.id ∈ w.contexts <;> simp [upstream, hm] at h ⊢
    simp [← h.2, and_comm]
  finalize_error {x slate w m w'} h id := by
    by_cases hm : slate.id ∈ w.contexts <;> simp [upstream, hm] at h ⊢
    simp [← h.2]
  finalize_issued x slate w id := by
    by_cases hm : slate.id ∈ w.contexts <;> simp [upstream, hm]
  cancel_context {x sid w w'} h id := by
    simp [upstream] at h ⊢
    simp [← h, and_comm]
  cancel_error {x sid w m w'} h id := by simp [upstream] at h
  cancel_issued x sid w id := by simp [upstream]

end GoblinPay.Sample
