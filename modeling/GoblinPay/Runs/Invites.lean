import GoblinPay.Runs.Doors

/-!
# Which invoices invite an amount

An invoice invites a payment that merely has its amount when its effective mode is `amount`; on the
Foreign API, whose page offers the plain send, an invoice armed on the grin1 rail does too. The relay
and the paste form hand the matcher the configured default; `receive_tx` hands it `amount`.
-/

namespace GoblinPay

open Async Sql

/-- The invoice invites an amount-only payment through the door `d`. -/
def Invoice.Invites (inv : Invoice) (cfg : Config) : Door → Prop
  | .relay .. | .paste .. => inv.effectiveMode cfg.matchMode = .amount
  | .foreign _ => inv.effectiveMode cfg.matchMode = .amount ∨ inv.isGrin1 = true

section

variable {W : Type} (U : Upstream W) (cfg : Config)

/-- Neither the identity the payment came in on nor its memo names an open invoice. The Foreign API
has neither. -/
def Door.AmountOnly (d : Door) (w : World W) : Prop :=
  match d with
  | .foreign _ => True
  | .relay .. | .paste .. => w.db.derivedCandidates cfg.matchMode d.recipient = [] ∧
      ∀ memo, d.memo = some memo → w.db.memoCandidates cfg.matchMode memo = []

/-- Wherever the door stops, an amount-only payment settled only an invoice that invites one. -/
def SettlesInvited (d : Door) (w : World W) : Prop :=
  d.AmountOnly cfg w → ∀ xs j, Settled w ((d.code U cfg).exec (handler U) xs w).2 j →
    ∃ inv, w.db.invoice.get j = some inv ∧ inv.Invites cfg d

variable {U cfg}

theorem Db.Leads.get {db : Db} {now : Time} {mode : MatchMode} {incoming : IncomingPayment} {inv : Invoice}
    (h : db.Leads now mode incoming inv) : db.invoice.get inv.id = some inv := by
  obtain ⟨n, hn⟩ := Db.leads_iff.1 h
  exact (Db.get_of_resolve hn).1

/-- A payment that no identity and no memo resolves leads to invoices matched by their amount. -/
theorem Db.Leads.of_amountOnly {db : Db} {now : Time} {mode : MatchMode} {incoming : IncomingPayment} {inv : Invoice}
    (h : db.Leads now mode incoming inv) (noDerived : db.derivedCandidates mode incoming.recipientHex = [])
    (noMemo : ∀ memo, incoming.memo = some memo → db.memoCandidates mode memo = []) : inv.effectiveMode mode = .amount := by
  cases h with
  | derived found =>
    rw [noDerived] at found
    cases found
  | memo _ carries found =>
    rw [noMemo _ carries] at found
    cases found
  | amount _ _ found =>
    obtain ⟨-, hp⟩ := Table.mem_select.1 (first_subset found)
    simp only [Invoice.openIn, Bool.and_eq_true, decide_eq_true_eq] at hp
    exact hp.1.2.2

variable (U cfg) in
/-- The relay and the paste form settle by amount only what invites it. The Foreign API does if and
only if the wallet does not take the slate, or every invoice that the payment leads to under the
fixed default `amount` invites it or refuses the amount. -/
theorem settlesInvited_iff (d : Door) (w : World W) :
    SettlesInvited U cfg d w ↔ ∀ inSlate, d = .foreign inSlate → ∀ slate, d.sent U w.wallet = some slate →
      d.Takeable U w.wallet → ∀ inv, w.db.Leads w.now .amount (d.incoming slate) inv →
        inv.Invites cfg d ∨ Matching.mismatch slate.amount inv.expectedAmount ≠ none := by
  have invited : ∀ {slate : Slate} {inv : Invoice}, w.db.Leads w.now (d.mode cfg) (d.incoming slate) inv →
      ((∃ inv', w.db.invoice.get inv.id = some inv' ∧ inv'.Invites cfg d) ↔ inv.Invites cfg d) := by
    intro slate inv hleads
    constructor
    · rintro ⟨inv', hget, hinv⟩
      rw [hleads.get] at hget
      cases hget
      exact hinv
    · exact fun hinv => ⟨inv, hleads.get, hinv⟩
  constructor
  · rintro settles inSlate rfl slate hsent htakes inv hleads
    have all := (door_settles_iff U cfg (.foreign inSlate) w _).1 (settles trivial) slate hsent htakes inv hleads
    exact all.imp_left (invited hleads).1
  · intro cond amountOnly
    refine (door_settles_iff U cfg d w _).2 fun slate hsent htakes inv hleads => ?_
    rw [invited hleads]
    cases d with
    | foreign inSlate => exact cond inSlate rfl slate hsent htakes inv hleads
    | relay armor ctx =>
      obtain ⟨noDerived, noMemo⟩ := amountOnly
      exact Or.inl (hleads.of_amountOnly noDerived noMemo)
    | paste armor inv' =>
      obtain ⟨noDerived, noMemo⟩ := amountOnly
      exact Or.inl (hleads.of_amountOnly noDerived noMemo)

end

/-! ## A plain send -/

/-- An open invoice for 100 nanogrin without a mode of its own, off the rail: a memo invoice under
`Sample.config`. -/
def offRail : World Sample.Wallet :=
  { Sample.world with db := { Db.empty with invoice := ⟨[(Invoice.row Sample.upstream ⟨some "order", .grin 100, none, none, none⟩
      [109] "m" .memo "i" "tok").toInvoice 10], by decide⟩ } }

def plainSend : Door := .foreign ⟨4, ⟨"t", .standard1, 100, none⟩⟩

/-- A plain send of its amount pays it all the same. -/
theorem plainSend_uninvited : ¬ SettlesInvited Sample.upstream Sample.config plainSend offRail := by
  intro h
  obtain ⟨inv, row, status⟩ : ∃ inv, ((plainSend.code Sample.upstream Sample.config).exec (handler Sample.upstream)
      (List.replicate 12 {}) offRail).2.db.invoice.get "i" = some inv ∧ inv.status = .paid := by decide
  obtain ⟨inv', hget, invites⟩ := h trivial (List.replicate 12 {}) "i" (.paid row status fun inv₀ h₀ => by
    obtain ⟨inv, hinv, hopen⟩ : ∃ inv, offRail.db.invoice.get "i" = some inv ∧ inv.status ≠ .paid := by decide
    rw [hinv] at h₀
    cases h₀
    exact hopen)
  obtain ⟨inv, hinv, hmode, hrail⟩ : ∃ inv, offRail.db.invoice.get "i" = some inv ∧
    inv.effectiveMode Sample.config.matchMode ≠ .amount ∧ inv.isGrin1 = false := by decide
  rw [hinv] at hget
  cases hget
  rcases invites with h | h
  · exact hmode h
  · rw [hrail] at h
    cases h

/-! ## The page's offer -/

section

variable {W : Type} (U : Upstream W) (cfg : Config)

/-- In the state `w` the page of `inv` may offer the plain send. -/
def MayPlainSend (w : World W) (inv : Invoice) : Prop :=
  ∃ xs, (inv.plainSendAllowed.run.exec (handler U) xs w).1 = .ret (.ok true)

/-- A `receive_tx` that meets no failure and hands the S2 back marked the invoice `i` paid and settled no
other. -/
def MatchedTo (inSlate : VersionedSlate) (w : World W) (i : String) : Prop :=
  ∀ xs, (∀ x ∈ xs, x.fault = none) → (((Door.foreign inSlate).code U cfg).exec (handler U) xs w).1 = .ret true →
    SettledAlone w (((Door.foreign inSlate).code U cfg).exec (handler U) xs w).2 i

/-- A plain send of `amount` leads to `inv` before every other invoice: no derived invoice stores the
empty identity and `inv` is strictly the oldest of the invoices matched by this amount, or it is
strictly the oldest that stores the empty identity. -/
def ComesFirst (w : World W) (amount : UInt64) (inv : Invoice) : Prop :=
  (w.db.derivedCandidates .amount "" = [] ∧ inv.effectiveMode .amount = .amount ∧
      ∀ other ∈ w.db.amountCandidates .amount amount w.now, other ≠ inv → inv.createdAt < other.createdAt) ∨
    inv ∈ w.db.derivedCandidates .amount "" ∧
      ∀ other ∈ w.db.derivedCandidates .amount "", other ≠ inv → inv.createdAt < other.createdAt

variable {U cfg} {w : World W} {inv : Invoice} {inSlate : VersionedSlate}

/-- The offer is made for an exact positive amount. -/
theorem positive_of_mayPlainSend (h : MayPlainSend U w inv) {amount : Int64} (hamount : inv.expectedAmount = some amount) :
    0 < amount := by
  obtain ⟨xs, h⟩ := h
  have refused : ∀ {xs : List Answer}, ((Prog.ret (.ok false) : Io (Except SqlxError Bool)).exec (handler U) xs w).1 ≠
      .ret (.ok true) := by
    intro xs hret
    cases xs <;> cases hret
  by_contra hle
  have hle : amount ≤ 0 := by grind
  unfold Invoice.plainSendAllowed at h
  rw [hamount] at h
  dsimp only at h
  rw [if_pos hle] at h
  split at h <;> exact refused h

/-- Being the only invoice a plain send leads to. -/
theorem leads_only_iff (hget : w.db.invoice.get inv.id = some inv) (hopen : inv.status = .open) (hdue : inv.due w.now = false)
    (slateId : String) {amount : UInt64} (hamount : inv.expectedAmount = some amount.toInt64) :
    (∀ other, w.db.Leads w.now .amount ⟨slateId, amount, "", none⟩ other ↔ other = inv) ↔ ComesFirst w amount inv := by
  by_cases hderived : w.db.derivedCandidates .amount "" = []
  · have byAmount : ∀ other, w.db.Leads w.now .amount ⟨slateId, amount, "", none⟩ other ↔
        other ∈ first Invoice.createdAt (w.db.amountCandidates .amount amount w.now) := by
      intro other
      constructor
      · rintro (found | ⟨_, carries, _⟩ | ⟨_, _, found⟩)
        · rw [hderived] at found
          cases found
        · cases carries
        · exact found
      · exact fun found => .amount hderived (fun _ h => by cases h) found
    have candidate : inv ∈ w.db.amountCandidates .amount amount w.now ↔ inv.effectiveMode .amount = .amount := by
      simp [Db.amountCandidates, Table.mem_select, hget, hamount, hdue, hopen, Invoice.openIn]
    simp only [byAmount, first_unique, candidate, ComesFirst, hderived, true_and, List.not_mem_nil, false_and, or_false]
  · have byIdentity : ∀ other, w.db.Leads w.now .amount ⟨slateId, amount, "", none⟩ other ↔
        other ∈ first Invoice.createdAt (w.db.derivedCandidates .amount "") := by
      intro other
      constructor
      · rintro (found | ⟨noDerived, _, _⟩ | ⟨noDerived, _, _⟩)
        · exact found
        · exact absurd noDerived hderived
        · exact absurd noDerived hderived
      · exact fun found => .derived found
    simp only [byIdentity, first_unique, ComesFirst, hderived, false_and, false_or]

/-- What a plain send carries is the slate itself. -/
theorem Door.sent_foreign {inSlate : VersionedSlate} {wallet : W} {slate : Slate}
    (hsent : (Door.foreign inSlate).sent U wallet = some slate) : slate = inSlate.slate := by
  simp only [Door.sent] at hsent
  split at hsent
  · exact (Option.some.inj hsent).symm
  · cases hsent

/-- Where every send is matched to `inv`, the resolvers find it whatever the choice among the ties. -/
theorem MatchedTo.resolve {w : World W} {inv : Invoice} {inSlate : VersionedSlate} (hget : w.db.invoice.get inv.id = some inv)
    (matched : MatchedTo U cfg inSlate w inv.id) (takeable : (Door.foreign inSlate).Takeable U w.wallet) (n : Nat) :
    w.db.resolve w.now .amount ⟨inSlate.slate.id, inSlate.slate.amount, "", none⟩ n = some inv := by
  obtain ⟨x₀, hf, htakes⟩ := takeable
  obtain ⟨received, hreceived⟩ := Option.isSome_iff_exists.1 htakes
  obtain ⟨slate, hsent, -⟩ := Door.amount_of_takes U hreceived
  obtain rfl := Door.sent_foreign hsent
  obtain ⟨xs, b, hret, hxs, ⟨-, rfl, unsettled⟩ | ⟨other, resolved, ⟨m, -, rfl, unsettled⟩ | ⟨-, rfl, settles⟩⟩⟩ :=
    Door.runs U cfg hsent hf htakes n
  · exact absurd (((matched xs hxs hret).only inv.id).2 rfl) (unsettled _)
  · exact absurd (((matched xs hxs hret).only inv.id).2 rfl) (unsettled _)
  · have hid := ((matched xs hxs hret).only other.id).1 ((settles.only other.id).2 rfl)
    obtain ⟨hget', -⟩ := Db.get_of_resolve resolved
    rw [hid, hget] at hget'
    cases hget'
    exact resolved

variable (U cfg) in
/-- A plain send that the page of `inv` offers is matched to `inv` and to no other invoice if and only
if the wallet does not take the slate or the payment leads to `inv` before every other invoice. -/
theorem matchedTo_iff (w : World W) (inv : Invoice) (inSlate : VersionedSlate) (hget : w.db.invoice.get inv.id = some inv) (hopen : inv.status = .open) (hdue : inv.due w.now = false)
    (allowed : MayPlainSend U w inv) (hamount : inv.expectedAmount = some inSlate.slate.amount.toInt64) :
    MatchedTo U cfg inSlate w inv.id ↔
      ((Door.foreign inSlate).Takeable U w.wallet → ComesFirst w inSlate.slate.amount inv) := by
  have pays : Matching.mismatch inSlate.slate.amount inv.expectedAmount = none := by
    have positive := positive_of_mayPlainSend allowed hamount
    rw [hamount, Matching.mismatch, Matching.clamp_of_pos positive, UInt64.toUInt64_toInt64]
    simp
  rw [← leads_only_iff hget hopen hdue inSlate.slate.id hamount]
  constructor
  · intro matched takeable other
    have found := matched.resolve hget takeable
    rw [Db.leads_iff]
    constructor
    · rintro ⟨n, hn⟩
      rw [found] at hn
      exact (Option.some.inj hn).symm
    · rintro rfl
      exact ⟨0, found 0⟩
  · intro cond xs hxs hret
    rcases (request_door (A := fun _ x => x.fault = none) fun _ _ h => h).soloExec xs
      (fun ev hev => hxs _ (Prog.input_mem_of_events hev)) with ⟨b, hb, hends, _⟩ | ⟨hstopped, _⟩
    swap
    · exact absurd hret (hstopped true)
    rw [hb] at hret
    cases hret
    have only : ∀ {n other}, (Door.foreign inSlate).Takeable U w.wallet →
        w.db.resolve w.now .amount ⟨inSlate.slate.id, inSlate.slate.amount, "", none⟩ n = some other → other = inv :=
      fun takes resolved => (cond takes _).1 (Db.leads_iff.2 ⟨_, resolved⟩)
    generalize (((Door.foreign inSlate).code U cfg).exec (handler U) xs w).2 = w' at hends
    generalize List.foldl _ false _ = g at hends
    cases hends with
    | failed fault =>
      obtain ⟨β, e, x, hf, fault⟩ := fault
      exact absurd hf fault
    | unmatched sent takes hx resolved =>
      obtain rfl := Door.sent_foreign sent
      exact absurd ((cond takes inv).2 rfl) (Db.not_leads_of_resolve resolved inv)
    | rejected sent takes hx resolved guard =>
      obtain rfl := Door.sent_foreign sent
      obtain rfl := only takes resolved
      rw [pays] at guard
      cases guard
    | settled sent takes hx resolved _ settles =>
      obtain rfl := Door.sent_foreign sent
      obtain rfl := only takes resolved
      exact settles

end

/-- An invoice for 100 nanogrin without a mode of its own, stored at `createdAt`. -/
def hundred (id : String) (createdAt : Time) : Invoice :=
  (Invoice.row Sample.upstream ⟨none, .grin 100, none, none, none⟩ [109] "m" .memo id id).toInvoice createdAt

/-- `x` on the rail, alone. -/
def alone : World Sample.Wallet :=
  { Sample.world with db := { Db.empty with invoice := ⟨[(hundred "x" 20).arm "sid" "pack"], by decide⟩ } }

theorem alone_matched : MatchedTo Sample.upstream Sample.config ⟨4, ⟨"t", .standard1, 100, none⟩⟩ alone "x" :=
  (matchedTo_iff Sample.upstream Sample.config alone ((hundred "x" 20).arm "sid" "pack")
    ⟨4, ⟨"t", .standard1, 100, none⟩⟩ rfl rfl rfl ⟨[{}], rfl⟩ rfl).2 fun _ => Or.inl ⟨by decide, by decide, by decide⟩

/-- `x` on the rail, and an older invoice off it. -/
def crowded : World Sample.Wallet :=
  { Sample.world with db := { Db.empty with invoice := ⟨[hundred "old" 10, (hundred "x" 20).arm "sid" "pack"], by decide⟩ } }

/-- The page of `x` offers the plain send, and the older invoice gets it. -/
theorem crowded_unmatched : crowded.db.invoice.get "x" = some ((hundred "x" 20).arm "sid" "pack") ∧
    ((hundred "x" 20).arm "sid" "pack").status = .open ∧ ((hundred "x" 20).arm "sid" "pack").due crowded.now = false ∧
    MayPlainSend Sample.upstream crowded ((hundred "x" 20).arm "sid" "pack") ∧
    ((hundred "x" 20).arm "sid" "pack").expectedAmount = some 100 ∧
    ¬ MatchedTo Sample.upstream Sample.config ⟨4, ⟨"t", .standard1, 100, none⟩⟩ crowded "x" := by
  refine ⟨rfl, rfl, rfl, ⟨[{}], rfl⟩, rfl, fun matched => ?_⟩
  obtain ⟨inv, row, status⟩ : ∃ inv, (((Door.foreign ⟨4, ⟨"t", .standard1, 100, none⟩⟩).code Sample.upstream Sample.config).exec
      (handler Sample.upstream) (List.replicate 12 {}) crowded).2.db.invoice.get "old" = some inv ∧ inv.status = .paid := by decide
  have hret : (((Door.foreign ⟨4, ⟨"t", .standard1, 100, none⟩⟩).code Sample.upstream Sample.config).exec
      (handler Sample.upstream) (List.replicate 12 {}) crowded).1 = .ret true := rfl
  have := ((matched (List.replicate 12 {}) (fun x hx => by rw [List.eq_of_mem_replicate hx]) hret).only "old").1
    (.paid row status fun inv₀ h₀ => by
      obtain rfl : hundred "old" 10 = inv₀ := Option.some.inj h₀
      decide)
  exact absurd this (by decide)

end GoblinPay
