import GoblinPay.Nostr.SignedReceipt
import GoblinPay.Nostr.Wrap
import GoblinPay.Outcome
import GoblinPay.Sample

/-!
# Gift wraps

`gp-nostr/src/wrap.rs`: a rumor is encrypted into a seal its author signs, and the seal into a wrap an ephemeral key signs. The
layers are opened by `unwrapGiftWrap`.
-/

namespace GoblinPay

/-- The encryption of the layers. -/
inductive WrapVersion
  | v2 | v3
  deriving DecidableEq, Repr

/-- An unsigned event whose id need not be computed yet. -/
structure Rumor where
  id : Option String
  kind : Nat
  pubkey : String
  content : String
  tags : List (List String)
  createdAt : UInt64
  deriving DecidableEq, Repr

structure EventBuilder where
  kind : Nat
  content : String
  tags : List (List String)
  createdAt : UInt64
  deriving DecidableEq, Repr

/-- What a wrap takes from the environment: the nonces, the times, each up to two days back, and the ephemeral key. -/
structure Draws where
  sealNonce : List UInt8
  wrapNonce : List UInt8
  sealTime : UInt64
  wrapTime : UInt64
  ephemeral : Secret

/-- What sealing calls of `nostr_sdk` and `nip44`. -/
structure Sealing where
  /-- under the conversation key of a secret and a public key -/
  encryptV2 : (nonce : List UInt8) → Secret → String → String → Except String String
  encryptV3 : (nonce : List UInt8) → Secret → String → String → (kind : Nat) → Except String String
  signWithKeys : Secret → EventBuilder → Except String NostrEvent
  /-- the wrap of a seal under an ephemeral key, in version 2 -/
  giftWrapFromSeal : Draws → String → NostrEvent → Except String NostrEvent
  eventId : Rumor → String
  eventAsJson : NostrEvent → String
  unsignedEventAsJson : UnsignedEvent → String

namespace Wrap

open Outcome

variable {W : Type} (U : Upstream W) (S : Sealing)

/-- `UnsignedEvent::ensure_id` -/
def ensureId (rumor : Rumor) : UnsignedEvent :=
  ⟨rumor.id.getD (S.eventId rumor), rumor.kind, rumor.pubkey, rumor.content, rumor.tags, rumor.createdAt⟩

/-- A rumor, sealed by its sender and wrapped for its receiver under an ephemeral key. -/
def giftWrap (draws : Draws) (sender : Secret) (receiver : String) (rumor : Rumor) (version : WrapVersion) :
    Except WrapError NostrEvent :=
  -- the id is fixed before the rumor is encrypted
  let rumor := ensureId S rumor
  match version with
  | .v2 => do
    let content ← (S.encryptV2 draws.sealNonce sender receiver (S.unsignedEventAsJson rumor)).mapError .crypto
    let sealed ← (S.signWithKeys sender ⟨sealKind, content, [], draws.sealTime⟩).mapError .event
    (S.giftWrapFromSeal draws receiver sealed).mapError .event
  | .v3 => do
    let content ← (S.encryptV3 draws.sealNonce sender receiver (S.unsignedEventAsJson rumor) sealKind).mapError .crypto
    let sealed ← (S.signWithKeys sender ⟨sealKind, content, [], draws.sealTime⟩).mapError .event
    let wrapped ← (S.encryptV3 draws.wrapNonce draws.ephemeral receiver (S.eventAsJson sealed) wrapKind).mapError .crypto
    (S.signWithKeys draws.ephemeral ⟨wrapKind, wrapped, [["p", receiver]], draws.wrapTime⟩).mapError .event

/-! ## Opening what was wrapped -/

/-- The conversation of a secret and a public key is that of another such pair, from the same end or from the other. -/
def Converse (k : Secret) (p : String) (a : Secret) (q : String) : Prop :=
  U.xonlyHex k = U.xonlyHex a ∧ p = q ∨ U.xonlyHex k = q ∧ p = U.xonlyHex a

/-- The symbolic model: what was encrypted is decrypted in its conversation, for version 3 under its kind, and nowhere else; the
version byte names the scheme; what was written as JSON is read back; and what was signed verifies. -/
structure Symbolic : Prop where
  version_v2 : ∀ {n a q m c}, S.encryptV2 n a q m = .ok c → U.payloadVersion c = .ok 2
  version_v3 : ∀ {n a q m kind c}, S.encryptV3 n a q m kind = .ok c → U.payloadVersion c = .ok 3
  opens_v2 : ∀ {n a q m c k p}, S.encryptV2 n a q m = .ok c → Converse U k p a q → U.decryptV2 k p c = .ok m
  closed_v2 : ∀ {n a q m c k p}, S.encryptV2 n a q m = .ok c → ¬ Converse U k p a q → ∃ e, U.decryptV2 k p c = .error e
  opens_v3 : ∀ {n a q m c k p kind}, S.encryptV3 n a q m kind = .ok c → Converse U k p a q → U.decryptV3 k p c kind = .ok m
  closed_v3 : ∀ {n a q m c k p kind kind'}, S.encryptV3 n a q m kind = .ok c → ¬ (Converse U k p a q ∧ kind' = kind) →
    ∃ e, U.decryptV3 k p c kind' = .error e
  event_json : ∀ e, U.eventFromJson (S.eventAsJson e) = .ok e
  unsigned_json : ∀ e, U.unsignedEventFromJson (S.unsignedEventAsJson e) = .ok e
  signed : ∀ {k b e}, S.signWithKeys k b = .ok e →
    e.pubkey = U.xonlyHex k ∧ e.kind = b.kind ∧ e.content = b.content ∧ U.verifyEvent e = .ok ()
  wrapped : ∀ {draws receiver sealed wrap}, S.giftWrapFromSeal draws receiver sealed = .ok wrap →
    wrap.kind = wrapKind ∧ ∃ n ephemeral, wrap.pubkey = U.xonlyHex ephemeral ∧
      S.encryptV2 n ephemeral receiver (S.eventAsJson sealed) = .ok wrap.content

/-- A text encrypted for a layer, in either version. -/
inductive Layer (a : Secret) (q text : String) (kind : Nat) (content : String) : Prop
  | v2 {n : List UInt8} (h : S.encryptV2 n a q text = .ok content)
  | v3 {n : List UInt8} (h : S.encryptV3 n a q text kind = .ok content)

variable {U S}

/-- A layer opens in its conversation. -/
theorem decryptLayer_opens (h : Symbolic U S) {a k : Secret} {p q text content : String} {kind : Nat} (hlayer : Layer S a q text kind content)
    (hconverse : Converse U k p a q) : decryptLayer U k p content kind = .ok text := by
  cases hlayer with
  | v2 henc =>
    rw [decryptLayer, h.version_v2 henc, h.opens_v2 henc hconverse]
    rfl
  | v3 henc =>
    rw [decryptLayer, h.version_v3 henc, h.opens_v3 henc hconverse]
    rfl

theorem decryptLayer_closed (h : Symbolic U S) {a k : Secret} {p q text content : String} {kind : Nat}
    (hlayer : Layer S a q text kind content) (hother : ¬ Converse U k p a q) : ∃ e, decryptLayer U k p content kind = .error e := by
  cases hlayer with
  | v2 henc =>
    obtain ⟨e, he⟩ := h.closed_v2 henc hother
    refine ⟨.crypto e, ?_⟩
    rw [decryptLayer, h.version_v2 henc]
    exact congrArg (Except.mapError WrapError.crypto) he
  | v3 henc =>
    obtain ⟨e, he⟩ := h.closed_v3 henc fun hboth => hother hboth.1
    refine ⟨.crypto e, ?_⟩
    rw [decryptLayer, h.version_v3 henc]
    exact congrArg (Except.mapError WrapError.crypto) he

variable (U) in
/-- A wrap that opens is a wrap, its seal is one and verifies, and the rumor is by the key of the seal. -/
structure Opens (receiver : Secret) (wrap : NostrEvent) (u : Unwrapped) (sealJson rumorJson : String) (sealed : NostrEvent) : Prop where
  wrap_kind : wrap.kind = wrapKind
  wrap_opens : decryptLayer U receiver wrap.pubkey wrap.content wrapKind = .ok sealJson
  sealed_parses : U.eventFromJson sealJson = .ok sealed
  sealed_verifies : U.verifyEvent sealed = .ok ()
  sealed_kind : sealed.kind = sealKind
  sealed_opens : decryptLayer U receiver sealed.pubkey sealed.content sealKind = .ok rumorJson
  rumor_parses : U.unsignedEventFromJson rumorJson = .ok u.rumor
  sender : u.sender = sealed.pubkey
  author : u.rumor.pubkey = u.sender

/-- A wrap opens to a rumor if and only if each of its layers does. -/
theorem unwrapGiftWrap_iff {receiver : Secret} {wrap : NostrEvent} {u : Unwrapped} :
    unwrapGiftWrap U receiver wrap = .ok u ↔ ∃ sealJson rumorJson sealed, Opens U receiver wrap u sealJson rumorJson sealed := by
  constructor
  · intro h
    unfold unwrapGiftWrap at h
    split at h
    · cases h
    rename_i hkind
    obtain ⟨sealJson, hwrap, h⟩ := bind_ok.1 h
    obtain ⟨sealed, hparse, h⟩ := bind_ok.1 h
    obtain ⟨_, hverify, h⟩ := bind_ok.1 h
    split at h
    · cases h
    rename_i hsealed
    obtain ⟨rumorJson, hopen, h⟩ := bind_ok.1 h
    obtain ⟨rumor, hrumor, h⟩ := bind_ok.1 h
    split at h
    · cases h
    rename_i hauthor
    cases h
    exact ⟨sealJson, rumorJson, sealed, Decidable.not_not.1 hkind, hwrap, mapError_ok.1 hparse, mapError_ok.1 hverify,
      Decidable.not_not.1 hsealed, hopen, mapError_ok.1 hrumor, rfl, Decidable.not_not.1 hauthor⟩
  · rintro ⟨sealJson, rumorJson, sealed, h⟩
    obtain ⟨sender, rumor⟩ := u
    obtain rfl : sender = sealed.pubkey := h.sender
    unfold unwrapGiftWrap
    rw [if_neg (Decidable.not_not.2 h.wrap_kind)]
    refine bind_ok.2 ⟨sealJson, h.wrap_opens, bind_ok.2 ⟨sealed, mapError_ok.2 h.sealed_parses, bind_ok.2 ⟨(), ?_, ?_⟩⟩⟩
    · exact mapError_ok.2 h.sealed_verifies
    rw [if_neg (Decidable.not_not.2 h.sealed_kind)]
    refine bind_ok.2 ⟨rumorJson, h.sealed_opens, bind_ok.2 ⟨rumor, mapError_ok.2 h.rumor_parses, ?_⟩⟩
    rw [if_neg (Decidable.not_not.2 h.author)]
    rfl

variable (U S) in
/-- A rumor under a seal under a wrap, each layer in either version. -/
structure Wraps (sender ephemeral : Secret) (receiver : String) (rumor : UnsignedEvent) (sealed wrap : NostrEvent) : Prop where
  sealed_pubkey : sealed.pubkey = U.xonlyHex sender
  sealed_kind : sealed.kind = sealKind
  sealed_verifies : U.verifyEvent sealed = .ok ()
  sealed_layer : Layer S sender receiver (S.unsignedEventAsJson rumor) sealKind sealed.content
  wrap_pubkey : wrap.pubkey = U.xonlyHex ephemeral
  wrap_kind : wrap.kind = wrapKind
  wrap_layer : Layer S ephemeral receiver (S.eventAsJson sealed) wrapKind wrap.content

/-- What `gift_wrap` made is a wrap of that rumor. -/
theorem wraps_giftWrap (h : Symbolic U S) {draws : Draws} {sender : Secret} {receiver : String} {rumor : Rumor} {version : WrapVersion}
    {wrap : NostrEvent} (hwrap : giftWrap S draws sender receiver rumor version = .ok wrap) :
    ∃ ephemeral sealed, Wraps U S sender ephemeral receiver (ensureId S rumor) sealed wrap := by
  cases version with
  | v2 =>
    obtain ⟨content, hcontent, hwrap⟩ := bind_ok.1 hwrap
    obtain ⟨sealed, hsealed, hwrap⟩ := bind_ok.1 hwrap
    obtain ⟨hkey, hkind, hcopy, hverify⟩ := h.signed (mapError_ok.1 hsealed)
    obtain ⟨houter, n, ephemeral, hephemeral, henc⟩ := h.wrapped (mapError_ok.1 hwrap)
    have inner : Layer S sender receiver (S.unsignedEventAsJson (ensureId S rumor)) sealKind sealed.content := by
      rw [hcopy]
      exact .v2 (mapError_ok.1 hcontent)
    exact ⟨ephemeral, sealed, hkey, hkind, hverify, inner, hephemeral, houter, .v2 henc⟩
  | v3 =>
    obtain ⟨content, hcontent, hwrap⟩ := bind_ok.1 hwrap
    obtain ⟨sealed, hsealed, hwrap⟩ := bind_ok.1 hwrap
    obtain ⟨wrapped, hwrapped, hwrap⟩ := bind_ok.1 hwrap
    obtain ⟨hkey, hkind, hcopy, hverify⟩ := h.signed (mapError_ok.1 hsealed)
    obtain ⟨hephemeral, houter, hcopied, -⟩ := h.signed (mapError_ok.1 hwrap)
    have inner : Layer S sender receiver (S.unsignedEventAsJson (ensureId S rumor)) sealKind sealed.content := by
      rw [hcopy]
      exact .v3 (mapError_ok.1 hcontent)
    have outer : Layer S draws.ephemeral receiver (S.eventAsJson sealed) wrapKind wrap.content := by
      rw [hcopied]
      exact .v3 (mapError_ok.1 hwrapped)
    exact ⟨draws.ephemeral, sealed, hkey, hkind, hverify, inner, hephemeral, houter, outer⟩

/-- The receiver opens both layers, and finds the sender and the rumor. -/
theorem unwrap_wraps (h : Symbolic U S) {sender ephemeral receiver : Secret} {rumor : UnsignedEvent} {sealed wrap : NostrEvent}
    (hwraps : Wraps U S sender ephemeral (U.xonlyHex receiver) rumor sealed wrap) (hauthor : rumor.pubkey = U.xonlyHex sender) :
    unwrapGiftWrap U receiver wrap = .ok ⟨U.xonlyHex sender, rumor⟩ := by
  have outer : decryptLayer U receiver wrap.pubkey wrap.content wrapKind = .ok (S.eventAsJson sealed) :=
    decryptLayer_opens h hwraps.wrap_layer (Or.inr ⟨rfl, hwraps.wrap_pubkey⟩)
  have inner : decryptLayer U receiver sealed.pubkey sealed.content sealKind = .ok (S.unsignedEventAsJson rumor) :=
    decryptLayer_opens h hwraps.sealed_layer (Or.inr ⟨rfl, hwraps.sealed_pubkey⟩)
  exact unwrapGiftWrap_iff.2 ⟨_, _, sealed, hwraps.wrap_kind, outer, h.event_json sealed, hwraps.sealed_verifies,
    hwraps.sealed_kind, inner, h.unsigned_json rumor, hwraps.sealed_pubkey.symm, hauthor⟩

/-- Nobody else opens the wrap. -/
theorem unwrap_other (h : Symbolic U S) {sender ephemeral other : Secret} {receiver : String} {rumor : UnsignedEvent}
    {sealed wrap : NostrEvent} (hwraps : Wraps U S sender ephemeral receiver rumor sealed wrap) (hother : U.xonlyHex other ≠ receiver) :
    ∃ e, unwrapGiftWrap U other wrap = .error e := by
  have apart : ¬ Converse U other wrap.pubkey ephemeral receiver := by
    rintro (⟨hsame, hpub⟩ | ⟨hsame, -⟩)
    · rw [hwraps.wrap_pubkey] at hpub
      exact hother (hsame.trans hpub)
    · exact hother hsame
  obtain ⟨e, he⟩ := decryptLayer_closed h hwraps.wrap_layer apart
  refine ⟨e, ?_⟩
  unfold unwrapGiftWrap
  rw [if_neg (Decidable.not_not.2 hwraps.wrap_kind)]
  exact congrArg (· >>= _) he

/-- A rumor wrapped by its author opens for its receiver as it was, with its id, and for nobody else; and whatever event opens, is a
wrap around a seal that verifies, by the sender, who is the author of the rumor. -/
theorem giftWrap_authentic (h : Symbolic U S) :
    (∀ {draws sender receiver rumor version wrap}, rumor.pubkey = U.xonlyHex sender →
      giftWrap S draws sender (U.xonlyHex receiver) rumor version = .ok wrap →
      unwrapGiftWrap U receiver wrap = .ok ⟨U.xonlyHex sender, ensureId S rumor⟩ ∧
      ∀ other, U.xonlyHex other ≠ U.xonlyHex receiver → ∃ e, unwrapGiftWrap U other wrap = .error e) ∧
    ∀ {receiver wrap u}, unwrapGiftWrap U receiver wrap = .ok u →
      wrap.kind = 1059 ∧ u.rumor.pubkey = u.sender ∧ ∃ sealJson sealed,
        decryptLayer U receiver wrap.pubkey wrap.content wrapKind = .ok sealJson ∧ U.eventFromJson sealJson = .ok sealed ∧
        sealed.kind = 13 ∧ U.verifyEvent sealed = .ok () ∧ sealed.pubkey = u.sender := by
  constructor
  · intro draws sender receiver rumor version wrap hauthor hwrap
    obtain ⟨ephemeral, sealed, hwraps⟩ := wraps_giftWrap h hwrap
    exact ⟨unwrap_wraps h hwraps hauthor, fun other hother => unwrap_other h hwraps hother⟩
  · intro receiver wrap u hopen
    obtain ⟨sealJson, _, sealed, opens⟩ := unwrapGiftWrap_iff.1 hopen
    exact ⟨opens.wrap_kind, opens.author, sealJson, sealed, opens.wrap_opens, opens.sealed_parses, opens.sealed_kind,
      opens.sealed_verifies, opens.sender.symm⟩

/-! ## A scheme

Ciphertexts that name their version, the two ends of their conversation and their kind, and signatures that name the key. -/

open Json

def text (j : Json) : String := String.ofList j.render

def parse (s : String) : Except String Json := ((Json.read 128 s.toList).map Except.ok).getD (.error "malformed")

theorem parse_text {j : Json} (h : j.depth < 128) : parse (text j) = .ok j := by
  rw [parse, text, String.toList_ofList, Json.read_render j (by decide), if_pos h]
  rfl

def natJson (n : Nat) : Json := .string (String.ofList (Nat.toDigits 10 n))

def toNat : Json → Option Nat
  | .string s => some (Nat.ofDigitChars 10 s.toList 0)
  | _ => none

theorem toNat_natJson (n : Nat) : toNat (natJson n) = some n := by
  rw [natJson, toNat, String.toList_ofList, Nat.ofDigitChars_ten_toDigits]

def tagsJson (tags : List (List String)) : Json := .array (tags.map fun tag => .array (tag.map Json.string))

def toTag : Json → Option (List String)
  | .array parts => parts.mapM toStr
  | _ => none

def toTags : Json → Option (List (List String))
  | .array tags => tags.mapM toTag
  | _ => none

theorem depthItems_le {items : List Json} {n : Nat} (h : ∀ item ∈ items, item.depth ≤ n) : depthItems items ≤ n := by
  induction items with
  | nil => exact Nat.zero_le n
  | cons item items ih =>
    rw [depthItems]
    exact Nat.max_le.2 ⟨h item List.mem_cons_self, ih fun i hi => h i (List.mem_cons_of_mem item hi)⟩

theorem depth_tagsJson (tags : List (List String)) : (tagsJson tags).depth ≤ 2 := by
  rw [tagsJson, Json.depth]
  refine Nat.succ_le_succ (depthItems_le fun item hitem => ?_)
  obtain ⟨tag, -, rfl⟩ := List.mem_map.1 hitem
  rw [Json.depth]
  refine Nat.succ_le_succ (depthItems_le fun part hpart => ?_)
  obtain ⟨s, -, rfl⟩ := List.mem_map.1 hpart
  exact Nat.le_refl _

theorem mapM_map {α β : Type} {f : α → β} {g : β → Option α} (h : ∀ a, g (f a) = some a) (as : List α) : (as.map f).mapM g = some as := by
  induction as with
  | nil => rfl
  | cons a as ih =>
    rw [List.map_cons, List.mapM_cons, h, ih]
    rfl

/-- Tags are read back. -/
theorem toTags_tagsJson (tags : List (List String)) : toTags (tagsJson tags) = some tags := by
  have part : ∀ s, toStr (Json.string s) = some s := fun _ => rfl
  have tag : ∀ tag : List String, toTag (.array (tag.map Json.string)) = some tag := fun tag => mapM_map part tag
  exact mapM_map (f := fun tag : List String => Json.array (tag.map Json.string)) (g := toTag) tag tags

def rumorJson (e : UnsignedEvent) : Json :=
  .array [.string e.id, natJson e.kind, .string e.pubkey, .string e.content, tagsJson e.tags, ofUInt64 e.createdAt]

def toRumor : Json → Except String UnsignedEvent
  | .array [.string id, kind, .string pubkey, .string content, tags, createdAt] =>
    match toNat kind, toTags tags, toUInt64 createdAt with
    | some kind, some tags, some createdAt => .ok ⟨id, kind, pubkey, content, tags, createdAt⟩
    | _, _, _ => .error "malformed"
  | _ => .error "malformed"

/-- An unsigned event is read back. -/
theorem toRumor_rumorJson (e : UnsignedEvent) : toRumor (rumorJson e) = .ok e := by
  have createdAt : toUInt64 (ofUInt64 e.createdAt) = some e.createdAt := JsonNumber.toUInt64_ofUInt64 e.createdAt
  simp only [toRumor, rumorJson, toNat_natJson, toTags_tagsJson, createdAt]

def eventJson (e : NostrEvent) : Json :=
  .array [.string e.id, natJson e.kind, .string e.pubkey, .string e.content, tagsJson e.tags, ofUInt64 e.createdAt, .string e.sig]

def toEvent : Json → Except String NostrEvent
  | .array [.string id, kind, .string pubkey, .string content, tags, createdAt, .string sig] =>
    match toNat kind, toTags tags, toUInt64 createdAt with
    | some kind, some tags, some createdAt => .ok ⟨id, kind, pubkey, content, tags, createdAt, sig⟩
    | _, _, _ => .error "malformed"
  | _ => .error "malformed"

/-- A signed event is read back. -/
theorem toEvent_eventJson (e : NostrEvent) : toEvent (eventJson e) = .ok e := by
  have createdAt : toUInt64 (ofUInt64 e.createdAt) = some e.createdAt := JsonNumber.toUInt64_ofUInt64 e.createdAt
  simp only [toEvent, eventJson, toNat_natJson, toTags_tagsJson, createdAt]

/-- A sealed letter: its two ends, its text, and the kind it is bound to in version 3. -/
def cipher (a q m : String) (kind : Option Nat) : Json := .array [.string a, .string q, .string m, kind.elim .null natJson]

theorem parse_cipher (a q m : String) (kind : Option Nat) : parse (text (cipher a q m kind)) = .ok (cipher a q m kind) := by
  refine parse_text ?_
  cases kind <;> simp [cipher, natJson, Json.depth, depthItems]

def version : Json → Except String Nat
  | .array [_, _, _, kind] => .ok (if (toNat kind).isNone then 2 else 3)
  | _ => .error "malformed"

def decipher (k p : String) (kind : Option Nat) : Json → Except String String
  | .array [.string a, .string q, .string m, bound] =>
    if toNat bound = kind ∧ (k = a ∧ p = q ∨ k = q ∧ p = a) then .ok m else .error "not authentic"
  | _ => .error "malformed"

theorem toNat_elim (kind : Option Nat) : toNat (kind.elim .null natJson) = kind := by
  cases kind with
  | none => rfl
  | some kind => exact toNat_natJson kind

theorem version_cipher (a q m : String) (kind : Option Nat) : version (cipher a q m kind) = .ok (if kind.isNone then 2 else 3) := by
  simp only [version, cipher, toNat_elim]

/-- A letter opens at either end, under its own kind, and nowhere else. -/
theorem decipher_cipher (a q m k p : String) (kind kind' : Option Nat) : decipher k p kind' (cipher a q m kind) =
    if kind = kind' ∧ (k = a ∧ p = q ∨ k = q ∧ p = a) then .ok m else .error "not authentic" := by
  simp only [decipher, cipher, toNat_elim]

namespace Toy

def upstream : Upstream Sample.Wallet := { Sample.upstream with
  payloadVersion c := parse c >>= version
  decryptV2 k p c := parse c >>= decipher (Sample.upstream.xonlyHex k) p none
  decryptV3 k p c kind := parse c >>= decipher (Sample.upstream.xonlyHex k) p (some kind)
  eventFromJson s := parse s >>= toEvent
  unsignedEventFromJson s := parse s >>= toRumor
  verifyEvent e := if e.sig = e.pubkey then .ok () else .error "invalid signature" }

def encryptV2 (_ : List UInt8) (a : Secret) (q m : String) : Except String String := .ok (text (cipher (upstream.xonlyHex a) q m none))

def sign (k : Secret) (b : EventBuilder) : Except String NostrEvent :=
  .ok ⟨"", b.kind, upstream.xonlyHex k, b.content, b.tags, b.createdAt, upstream.xonlyHex k⟩

def sealing : Sealing where
  encryptV2 := encryptV2
  encryptV3 _ a q m kind := .ok (text (cipher (upstream.xonlyHex a) q m (some kind)))
  signWithKeys := sign
  giftWrapFromSeal draws receiver sealed := do
    let content ← encryptV2 draws.wrapNonce draws.ephemeral receiver (text (eventJson sealed))
    sign draws.ephemeral ⟨wrapKind, content, [["p", receiver]], draws.wrapTime⟩
  eventId rumor := rumor.content
  eventAsJson e := text (eventJson e)
  unsignedEventAsJson e := text (rumorJson e)

theorem depth_eventJson (e : NostrEvent) : (eventJson e).depth < 128 := by
  have tags := depth_tagsJson e.tags
  simp only [eventJson, natJson, ofUInt64, Json.depth, depthItems]
  omega

theorem depth_rumorJson (e : UnsignedEvent) : (rumorJson e).depth < 128 := by
  have tags := depth_tagsJson e.tags
  simp only [rumorJson, natJson, ofUInt64, Json.depth, depthItems]
  omega

/-- The scheme of letters has the laws. -/
theorem symbolic : Symbolic upstream sealing where
  version_v2 {n a q m c} h := by
    obtain rfl : text (cipher (upstream.xonlyHex a) q m none) = c := Except.ok.inj h
    show parse _ >>= version = _
    rw [parse_cipher]
    exact version_cipher (upstream.xonlyHex a) q m none
  version_v3 {n a q m kind c} h := by
    obtain rfl : text (cipher (upstream.xonlyHex a) q m (some kind)) = c := Except.ok.inj h
    show parse _ >>= version = _
    rw [parse_cipher]
    exact version_cipher (upstream.xonlyHex a) q m (some kind)
  opens_v2 {n a q m c k p} h hconverse := by
    obtain rfl : text (cipher (upstream.xonlyHex a) q m none) = c := Except.ok.inj h
    show parse _ >>= decipher _ p none = _
    rw [parse_cipher]
    exact (decipher_cipher ..).trans (if_pos ⟨rfl, hconverse⟩)
  closed_v2 {n a q m c k p} h hother := by
    obtain rfl : text (cipher (upstream.xonlyHex a) q m none) = c := Except.ok.inj h
    refine ⟨"not authentic", ?_⟩
    show parse _ >>= decipher _ p none = _
    rw [parse_cipher]
    exact (decipher_cipher ..).trans (if_neg fun hboth => hother hboth.2)
  opens_v3 {n a q m c k p kind} h hconverse := by
    obtain rfl : text (cipher (upstream.xonlyHex a) q m (some kind)) = c := Except.ok.inj h
    show parse _ >>= decipher _ p (some kind) = _
    rw [parse_cipher]
    exact (decipher_cipher ..).trans (if_pos ⟨rfl, hconverse⟩)
  closed_v3 {n a q m c k p kind kind'} h hother := by
    obtain rfl : text (cipher (upstream.xonlyHex a) q m (some kind)) = c := Except.ok.inj h
    refine ⟨"not authentic", ?_⟩
    show parse _ >>= decipher _ p (some kind') = _
    rw [parse_cipher]
    refine (decipher_cipher ..).trans (if_neg fun hboth => hother ⟨hboth.2, ?_⟩)
    exact (Option.some.inj hboth.1).symm
  event_json e := by
    show parse (text (eventJson e)) >>= toEvent = _
    rw [parse_text (depth_eventJson e)]
    exact toEvent_eventJson e
  unsigned_json e := by
    show parse (text (rumorJson e)) >>= toRumor = _
    rw [parse_text (depth_rumorJson e)]
    exact toRumor_rumorJson e
  signed {k b e} h := by
    cases h
    exact ⟨rfl, rfl, rfl, if_pos rfl⟩
  wrapped {draws receiver sealed wrap} h := by
    cases h
    exact ⟨rfl, [], draws.ephemeral, rfl, rfl⟩

def draws : Draws := ⟨[1], [2], 100, 200, [101]⟩

def rumor : Rumor := ⟨none, 14, "a", "hello", [["p", "b"]], 300⟩

theorem hello_opens : ∃ wrap, giftWrap sealing draws [97] "b" rumor .v3 = .ok wrap ∧
    unwrapGiftWrap upstream [98] wrap = .ok ⟨"a", ⟨"hello", 14, "a", "hello", [["p", "b"]], 300⟩⟩ ∧
    (∃ e, unwrapGiftWrap upstream [97] wrap = .error e) ∧ wrap.kind = 1059 := by
  have author : rumor.pubkey = upstream.xonlyHex [97] := by decide
  obtain ⟨wraps, opened⟩ := giftWrap_authentic symbolic
  have wrapped : giftWrap sealing draws [97] (upstream.xonlyHex [98]) rumor .v3 = .ok _ := rfl
  obtain ⟨opens, closed⟩ := wraps author wrapped
  have apart : upstream.xonlyHex [97] ≠ upstream.xonlyHex [98] := by decide
  exact ⟨_, wrapped, opens, closed [97] apart, (opened opens).1⟩

end Toy

end Wrap

end GoblinPay
