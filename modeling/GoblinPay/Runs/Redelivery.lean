import GoblinPay.Nostr.Service
import GoblinPay.Runs.Doors
import GoblinPay.Runs.Outside

/-!
# A wrap that comes again

The wallet logs a slate before the ledger has a row for it, and a slate that is logged is refused from
then on. `Custody` keeps what a delivery did with the slate it took in; `custody_run` says that no slate
is lost in a run whose deliveries get from the wallet to the row, whatever else fails and wherever else
the process stops.
-/

namespace GoblinPay

open Async Sql

/-- Reconcile finds the S2 of the payment `t`, and who it is for. -/
def Resendable {W : Type} (s : World W) (t : String) : Prop :=
  ∃ p, s.db.payment.get t = some p ∧ p.payer.isSome = true ∧ p.s2Armor.isSome = true

/-- What the rest of the server does between two operations: it leaves the payments of the relays their
rows. -/
structure Meanwhile (W : Type) where
  step : World W → World W
  keeps : ∀ s t, Resendable s t → Resendable (step s) t

/-- What became of the slates the wallet took in. -/
structure Custody where
  taken : List String := []
  /-- taken, and neither recorded nor refused -/
  held : List String := []
  /-- the amount of the last slate -/
  amount : UInt64 := 0
  /-- what the invoice found for it asks for -/
  expected : Option Int64 := none
  /-- their record was undone over a wrong amount -/
  refused : List String := []

def Custody.gain {β : Type} (a : Custody) : Eff β → β → Custody
  | .receiveTx slate, .ok _ =>
    { a with taken := slate.id :: a.taken, held := slate.id :: a.held, amount := slate.amount, expected := none }
  | .sql (.insertPayment row), .ok _ =>
    { a with held := a.held.filter fun t => !(t = row.slateId && row.payer.isSome && row.s2Armor.isSome) }
  | .sql (.expectedAmount _), .ok expected => { a with expected := expected }
  | .sql (.deletePayment t), _ =>
    if Matching.mismatch a.amount a.expected = none then { a with held := t :: a.held }
    else { a with refused := t :: a.refused }
  | _, _ => a

/-- The operations from the wallet's receive to the row. -/
def Eff.Between {β : Type} : Eff β → Prop
  | .retrieveTxs _ | .createSlatepackMessage _ | .sql (.insertPayment _) => True
  | _ => False

/-- An operation on the way to the row succeeded. -/
def Eff.secures {β : Type} : Eff β → β → Bool
  | .retrieveTxs _, r => r.toOption.join.isSome
  | .createSlatepackMessage _, r => r.isOk
  | .sql (.insertPayment _), r => r.isOk
  | _, _ => true

/-- The proof of the slate received can be built. -/
def Eff.Proves {W β : Type} (U : Upstream W) : Eff β → β → Prop
  | .receiveTx slate, .ok s2 => ∀ excess, (GpWallet.buildProof U s2 slate.amount excess).isOk = true
  | _, _ => True

/-- An operation that neither takes a slate nor touches a row, and none of the wallet's other writes. -/
def Eff.Idle {β : Type} : Eff β → Prop
  | .receiveTx _ | .issueInvoiceTx _ | .finalizeTx _ | .cancelTx _ | .retrieveTxs _ | .createSlatepackMessage _
  | .sql (.insertPayment _) | .sql (.deletePayment _) => False
  | _ => True

section

variable {W : Type} {U : Upstream W}

/-! ## One operation -/

/-- Every slate taken is recorded, refused or held. -/
def InCustody (a : Custody) (s : World W) : Prop := ∀ t ∈ a.taken, Resendable s t ∨ t ∈ a.refused ∨ t ∈ a.held

/-- A record goes by its delete only. -/
theorem Resendable.kept {β : Type} {e : Eff β} {x : Answer} {s : World W} {t : String} (h : Resendable s t)
    (hdelete : e.write ≠ some (.delete t)) : Resendable (act U x s e).2 t := by
  obtain ⟨p, hp, hpayer, hs2⟩ := h
  have change := e.payment_change U x s t
  unfold Resendable
  rw [hp] at change
  generalize (act U x s e).2.db.payment.get t = after at change
  cases change with
  | keep => exact ⟨p, rfl, hpayer, hs2⟩
  | link | deepen | reply => exact ⟨_, rfl, hpayer, hs2⟩
  | delete by_ => exact absurd by_ hdelete

/-- An insert that succeeds leaves a row that can be sent again, if it names the payer and holds the S2. -/
theorem resendable_insert {row : PaymentRow} {x : Answer} {s : World W} {u : Unit}
    (hok : (act U x s (.sql (.insertPayment row))).1 = .ok u) (hpayer : row.payer.isSome = true)
    (hs2 : row.s2Armor.isSome = true) : Resendable (act U x s (.sql (.insertPayment row))).2 row.slateId := by
  obtain ⟨-, hq, hs⟩ := act_sql_ok hok
  rw [hs]
  cases hins : s.db.payment.insert (row.toPayment s.now) with
  | none => simp [Stmt.exec, inserted, hins] at hq
  | some tab =>
    have rows : (s.exec (.insertPayment row) x.choice).db = { s.db with payment := tab } := by
      simp only [World.exec, Stmt.exec, inserted, hins]
    refine ⟨row.toPayment s.now, ?_, hpayer, hs2⟩
    rw [rows, Table.get_insert hins]
    exact if_pos rfl

theorem InCustody.step {β : Type} {a : Custody} {s : World W} (h : InCustody a s) (e : Eff β) (x : Answer) :
    InCustody (a.gain e (act U x s e).1) (act U x s e).2 := by
  have kept : ∀ t ∈ a.taken, e.write ≠ some (.delete t) →
      Resendable (act U x s e).2 t ∨ t ∈ a.refused ∨ t ∈ a.held := fun t ht hw => (h t ht).imp_left fun hr => hr.kept hw
  cases e with
  | receiveTx slate =>
    cases hr : (act U x s (.receiveTx slate)).1 with
    | error m => exact fun t ht => kept t ht nofun
    | ok s2 =>
      intro t ht
      rcases List.mem_cons.1 ht with rfl | ht
      · exact Or.inr (Or.inr List.mem_cons_self)
      · exact (kept t ht nofun).imp_right (Or.imp_right (List.mem_cons_of_mem _))
  | sql q =>
    cases q with
    | insertPayment row =>
      cases hr : (act U x s (.sql (.insertPayment row))).1 with
      | error m => exact fun t ht => kept t ht nofun
      | ok u =>
        intro t ht
        by_cases hrow : t = row.slateId ∧ row.payer.isSome = true ∧ row.s2Armor.isSome = true
        · obtain ⟨rfl, hpayer, hs2⟩ := hrow
          exact Or.inl (resendable_insert hr hpayer hs2)
        · refine (kept t ht nofun).imp_right (Or.imp_right fun hheld => List.mem_filter.2 ⟨hheld, ?_⟩)
          simp only [Bool.not_eq_true', Bool.and_eq_false_iff, decide_eq_false_iff_not]
          grind
    | expectedAmount i =>
      cases hr : (act U x s (.sql (.expectedAmount i))).1 with
      | error m => exact fun t ht => kept t ht nofun
      | ok expected => exact fun t ht => kept t ht nofun
    | deletePayment t =>
      intro t' ht'
      have ht' : t' ∈ a.taken := by
        revert ht'
        simp only [Custody.gain]
        split <;> exact id
      by_cases same : t' = t
      · subst same
        simp only [Custody.gain]
        split
        · exact Or.inr (Or.inr List.mem_cons_self)
        · exact Or.inr (Or.inl List.mem_cons_self)
      · have still := kept t' ht' fun hw => same (by cases hw; rfl)
        simp only [Custody.gain]
        split
        · exact still.imp_right (Or.imp_right (List.mem_cons_of_mem _))
        · exact still.imp_right (Or.imp_left (List.mem_cons_of_mem _))
    | _ => exact fun t ht => kept t ht nofun
  | _ => exact fun t ht => kept t ht nofun

end

/-! ## The way to the receiver -/

section

variable {W χ Own : Type} {U : Upstream W} {cfg : Config} {master : Secret} {H : Handler Eff χ (World W)}
  {before : {β : Type} → Unit → Own → Eff β → World W → Prop} {allowed : {β : Type} → Unit → Eff β → χ → World W → Prop}
  {gain : {β : Type} → Own → Eff β → β → Own} {K : Own → World W → Prop} {N : String → Prop} {α : Type}

variable (before allowed gain K) in
/-- Idle operations may be issued where `K` holds, and keep it. -/
def IdleKeeps (H : Handler Eff χ (World W)) : Prop :=
  ∀ (β : Type) (e : Eff β) g s, e.Idle → K g s →
    before () g e s ∧ ∀ x, allowed () e x s → K (gain g e (H.act e x s).1) (H.act e x s).2

/-- `K` holds at the end, and a slate is only answered for if `N` does. -/
def Answers (K : Own → World W → Prop) (N : String → Prop) (out : IngestOutcome) (g : Own) (s : World W) : Prop :=
  K g s ∧ ∀ t amount reply, out = .received t amount reply → N t

variable (idle : IdleKeeps before allowed gain K H)

include idle

theorem idle_carry {p : Io α} (hp : p.Only Eff.Idle) {g : Own} {s : World W} (hK : K g s) :
    Meets (.alone H (fun _ => True) before allowed gain) () (fun _ g s => K g s) p g s :=
  Meets.of_only_carry (K := K) hp hK
    (fun g s s' hr _ hK => by
      obtain rfl : s' = s := hr
      exact hK)
    (fun e g s he _ hK => (idle _ e g s he hK).1) fun e x g s he _ hK hx => (idle _ e g s he hK).2 x hx

theorem idle_call {β : Type} {Q : α → Own → World W → Prop} {e : Eff β} {f : β → Io α} {g : Own} {s : World W} (he : e.Idle)
    (hK : K g s) (hf : ∀ b g s, K g s → Meets (.alone H (fun _ => True) before allowed gain) () Q (f b) g s) :
    Meets (.alone H (fun _ => True) before allowed gain) () Q (Prog.call e >>= f) g s :=
  Meets.andThen (idle_carry idle (Prog.Only.call he) hK) fun b g s _ hK => hf b g s hK

theorem idle_mark {key : String} {out : IngestOutcome} {g : Own} {s : World W} (hK : K g s)
    (hout : ∀ t amount reply, out ≠ .received t amount reply) :
    Meets (.alone H (fun _ => True) before allowed gain) () (Answers K N) (Ingest.mark key >>= fun _ => .ret out) g s :=
  idle_call (e := .mark key) idle trivial hK fun _ _ _ hK =>
    Meets.aloneRet ⟨hK, fun t amount reply h => absurd h (hout t amount reply)⟩

theorem idle_drop {wrapId rumorId reason : String} {g : Own} {s : World W} (hK : K g s) :
    Meets (.alone H (fun _ => True) before allowed gain) () (Answers K N) (Ingest.drop wrapId rumorId reason) g s :=
  idle_call (e := .mark wrapId) idle trivial hK fun _ _ _ hK => idle_mark idle hK nofun

variable (receive : ∀ armor ctx g s, K g s → Meets (.alone H (fun _ => True) before allowed gain) ()
    (fun r g s => K g s ∧ ∀ payment, r = .ok payment → N payment.slateId) (WalletReceiver.receive U cfg armor ctx) g s)

include receive

theorem idle_handOff {wrapId : String} {keys : Secret} {u : Unwrapped} {g : Own} {s : World W} (hK : K g s) :
    Meets (.alone H (fun _ => True) before allowed gain) () (Answers K N) (Ingest.handOff U cfg wrapId keys u) g s := by
  refine Meets.andThen (receive _ _ g s hK) fun r g s _ h => ?_
  obtain ⟨hK, hN⟩ := h
  cases r with
  | ok payment =>
    refine idle_call (e := .mark wrapId) idle trivial hK fun _ g s hK => ?_
    refine idle_call (e := .mark u.rumor.id) idle trivial hK fun _ g s hK => ?_
    refine idle_call (e := .mark ("slate:" ++ payment.slateId)) idle trivial hK fun _ g s hK => ?_
    refine Meets.aloneRet ⟨hK, fun t amount reply h => ?_⟩
    cases h
    exact hN payment rfl
  | error e =>
    cases e with
    | duplicate => exact idle_drop idle hK
    | rejected m => exact idle_drop idle hK
    | failed m => exact Meets.aloneRet ⟨hK, nofun⟩

theorem idle_screen {wrapId : String} {keys : Secret} {u : Unwrapped} {g : Own} {s : World W} (hK : K g s) :
    Meets (.alone H (fun _ => True) before allowed gain) () (Answers K N) (Ingest.screen U cfg master wrapId keys u) g s := by
  refine idle_call (e := .isSeen u.rumor.id) idle trivial hK fun duplicate g s hK => ?_
  split
  · exact idle_drop idle hK
  · refine idle_call (e := .allow u.sender Ingest.ratePerSenderPerHour 3600 (some Ingest.rateMapCap)) idle trivial hK
      fun ok g s hK => ?_
    cases ok with
    | true => exact idle_handOff idle receive hK
    | false => exact Meets.aloneRet ⟨hK, nofun⟩

/-- A wrap is handled by idle operations, except for the receive of its slatepack. -/
theorem idle_handleWrap (event : NostrEvent) {g : Own} {s : World W} (hK : K g s) :
    Meets (.alone H (fun _ => True) before allowed gain) () (Answers K N) (Ingest.handleWrap U cfg master event) g s := by
  have resolve : (Ingest.recipientKeys U master event).Only Eff.Idle := by
    unfold Ingest.recipientKeys
    split
    · exact only_resolve trivial master _
    · exact trivial
  unfold Ingest.handleWrap
  split
  · exact Meets.aloneRet ⟨hK, nofun⟩
  split
  · exact idle_mark idle hK nofun
  refine idle_call (e := .isSeen event.id) idle trivial hK fun seen g s hK => ?_
  cases seen with
  | true => exact Meets.aloneRet ⟨hK, nofun⟩
  | false =>
    refine idle_call (e := .allow "\x00global" Ingest.globalUnwrapPerMin 60 none) idle trivial hK fun ok g s hK => ?_
    cases ok with
    | false => exact Meets.aloneRet ⟨hK, nofun⟩
    | true =>
      refine Meets.andThen (idle_carry idle resolve hK) fun keys g s _ hK => ?_
      cases keys with
      | none => exact idle_mark idle hK nofun
      | some keys =>
        cases hu : Wrap.unwrapGiftWrap U keys event with
        | error e =>
          simp only [hu]
          exact idle_mark idle hK nofun
        | ok u =>
          simp only [hu]
          exact idle_screen idle receive hK

end

/-! ## A delivery -/

section

variable {W : Type} (U : Upstream W)

/-- The operations of the relay service in a server that does more. -/
def serving : Handler Eff (Answer × Meanwhile W) (World W) := (handler U).among Meanwhile.step

/-- The contract of a delivery that gets from the wallet to the row: it holds nothing, but on this way. -/
abbrev carrying : Discipline (serving U) Unit Custody :=
  .alone (serving U) (fun _ => True) (fun _ a e _ => ¬ e.Between → a.held = [])
    (fun _ e x s => e.secures ((serving U).act e x s).1 = true ∧ e.Proves U ((serving U).act e x s).1) fun a => a.gain

variable {U} {cfg : Config} {master : Secret} {a : Custody} {s : World W} {α : Type}

theorem Custody.gain_idle {β : Type} {e : Eff β} (he : e.Idle) (a : Custody) (b : β) :
    (a.gain e b).held = a.held ∧ (a.gain e b).amount = a.amount := by
  cases e with
  | sql q =>
    cases q with
    | insertPayment | deletePayment => exact he.elim
    | expectedAmount i => cases b <;> exact ⟨rfl, rfl⟩
    | _ => exact ⟨rfl, rfl⟩
  | receiveTx => exact he.elim
  | _ => exact ⟨rfl, rfl⟩

/-- Idle operations change nothing of what a delivery holds. -/
theorem carrying_idle (P : UInt64 → Prop) : IdleKeeps (fun _ a e _ => ¬ e.Between → a.held = [])
    (fun _ e x s => e.secures ((serving U).act e x s).1 = true ∧ e.Proves U ((serving U).act e x s).1) (fun a => a.gain)
    (fun (a : Custody) _ => a.held = [] ∧ P a.amount) (serving U) := by
  intro β e a s he ha
  refine ⟨fun _ => ha.1, fun x _ => ?_⟩
  obtain ⟨hheld, hamount⟩ := a.gain_idle he ((serving U).act e x s).1
  rw [hheld, hamount]
  exact ha

/-- From the receive to the armor: what was taken in is what goes to the ledger. -/
theorem carrying_bundle {slate s2 : Slate} (hid : s2.id = slate.id) (ha : a.held = [slate.id] ∧ a.amount = slate.amount)
    (hproves : ∀ excess, (GpWallet.buildProof U s2 slate.amount excess).isOk = true) :
    Meets (carrying U) () (fun r a' _ => ∃ received, r = .ok received ∧ received.slateId = slate.id ∧
      received.amount = slate.amount ∧ a'.held = [slate.id] ∧ a'.amount = slate.amount)
      (GpWallet.bundle U s2 slate.id slate.amount).run a s := by
  have between : ∀ {β : Type} {e : Eff β}, e.Between → ¬ e.Between → a.held = [] := fun h h' => absurd h h'
  refine Meets.tryThen (P := fun r a' _ => ∃ excess, r = .ok excess ∧ a' = a) ?_ (fun excess a' s' _ h => ?_)
    fun e a' s' _ h => ?_
  · refine alone_upstream (between trivial) (fun x o hx ho => ?_) fun x m hx hm => ?_
    · have found := hx.1
      rw [ho] at found
      obtain ⟨excess, rfl⟩ := Option.isSome_iff_exists.1 (show o.isSome = true from found)
      exact Meets.aloneRet ⟨excess, rfl, rfl⟩
    · have found := hx.1
      rw [hm] at found
      cases found
  · obtain ⟨excess', -, rfl⟩ := h
    cases hproof : GpWallet.buildProof U s2 slate.amount excess with
    | error e =>
      have hproved := hproves excess
      rw [hproof] at hproved
      cases hproved
    | ok proof =>
      refine alone_upstream (between trivial) (fun x armor hx harmor => ?_) fun x m hx hm => ?_
      · exact Meets.aloneRet ⟨_, rfl, hid, rfl, ha.1, ha.2⟩
      · have armored := hx.1
        rw [hm] at armored
        cases armored
  · obtain ⟨excess, h, -⟩ := h
    cases h

variable (U) in
/-- The wallet's part: it fails with nothing taken in, or goes on to the ledger. -/
theorem carrying_receiveSlatepack (hU : U.Lawful) (armor : String) (ha : a.held = []) :
    Meets (carrying U) () (fun r a' _ => (∀ e, r = .error e → a'.held = []) ∧
      ∀ received, r = .ok received → a'.held = [received.slateId] ∧ a'.amount = received.amount)
      (GpWallet.receiveSlatepack U armor).run a s := by
  refine alone_upstream (fun _ => ha) (fun x slate _ _ => ?_) fun x m _ _ => ⟨fun _ _ => ha, nofun⟩
  split
  · refine alone_upstream (fun _ => ha) (fun x s2 hx hs2 => ?_) fun x m _ _ => ⟨fun _ _ => ha, nofun⟩
    have hproves := hx.2
    rw [hs2] at hproves
    have taken : (act U x.1 (x.2.step _) (.receiveTx slate)).1 = .ok s2 := hs2
    obtain ⟨-, w', hw, -⟩ := act_receiveTx_ok taken
    refine (carrying_bundle (hU.receive_new hw).1 ⟨?_, rfl⟩ hproves).mono fun r a' s' _ h => ?_
    · change slate.id :: a.held = [slate.id]
      rw [ha]
    · obtain ⟨received, rfl, hid, hamount, hheld, hamount'⟩ := h
      refine ⟨nofun, fun received' h => ?_⟩
      cases h
      rw [hid, hamount]
      exact ⟨hheld, hamount'⟩
  · exact Meets.aloneRet ⟨fun _ _ => ha, nofun⟩

theorem Eff.OfMatch.idle {β : Type} {e : Eff β} (h : e.OfMatch) : e.Idle := by
  cases e with
  | sql q => cases q <;> first | exact trivial | exact (Bool.false_ne_true h).elim
  | _ => exact h.elim

/-- The match holds nothing, and where it refuses the amount, the custody knows why. -/
theorem carrying_matchPayment (mode : MatchMode) (incoming : IncomingPayment) (ha : a.held = [] ∧ a.amount = incoming.amount) :
    Meets (carrying U) () (fun r a' _ => a'.held = [] ∧
      ∀ res m, r = .ok res → res.amountMismatch = some m → Matching.mismatch a'.amount a'.expected ≠ none)
      (Matching.matchPayment mode incoming).run a s := by
  have carry : ∀ {β : Type} {p : Io β} {a : Custody} {s : World W}, p.Only Eff.OfMatch →
      a.held = [] ∧ a.amount = incoming.amount →
      Meets (carrying U) () (fun _ a' _ => a'.held = [] ∧ a'.amount = incoming.amount) p a s := fun hp ha =>
    idle_carry (carrying_idle (· = incoming.amount)) (Prog.Only.mono hp fun _ he => he.idle) ha
  have settle : ∀ i u {a : Custody} {s : World W}, a.held = [] ∧ a.amount = incoming.amount →
      Meets (carrying U) () (fun r a' _ => a'.held = [] ∧
        ∀ res m, r = .ok res → res.amountMismatch = some m → Matching.mismatch a'.amount a'.expected ≠ none)
        (Matching.settle incoming.slateId i u).run a s := by
    intro i u a s ha
    refine Meets.tryThen (carry (Matching.only_markMatched incoming.slateId i) ha) (fun _ a s _ ha => ?_) fun e a s _ ha =>
      Meets.aloneRet ⟨ha.1, nofun⟩
    refine Meets.tryThen (carry (p := (sql (.linkPayment incoming.slateId i u)).run) (Prog.Only.call rfl) ha)
      (fun _ a s _ ha => ?_) fun e a s _ ha => Meets.aloneRet ⟨ha.1, nofun⟩
    refine Meets.aloneRet ⟨ha.1, fun res m h hm => ?_⟩
    cases h
    cases hm
  refine Meets.tryThen (carry (p := (sql (.userForPubkey incoming.recipientHex)).run) (Prog.Only.call rfl) ha)
    (fun user a s _ ha => ?_) fun e a s _ ha => Meets.aloneRet ⟨ha.1, nofun⟩
  refine Meets.tryThen (carry (Matching.only_resolve mode incoming) ha) (fun found a s _ ha => ?_) fun e a s _ ha =>
    Meets.aloneRet ⟨ha.1, nofun⟩
  cases found with
  | none => exact settle none _ ha
  | some id =>
    refine Meets.tryThen (P := fun r a' _ => (a'.held = [] ∧ a'.amount = incoming.amount) ∧
      ∀ expected, r = .ok expected → a'.expected = expected) ?_ (fun expected a s _ h => ?_) fun e a s _ h =>
        Meets.aloneRet ⟨h.1.1, nofun⟩
    · refine Meets.aloneStep (fun _ => ha.1) fun x _ => ?_
      cases ((serving U).act (.sql (.expectedAmount id)) x s).1 with
      | error e => exact Meets.aloneRet ⟨ha, nofun⟩
      | ok expected =>
        refine Meets.aloneRet ⟨ha, fun expected' h => ?_⟩
        cases h
        rfl
    · obtain ⟨ha, hexpected⟩ := h
      split
      · rename_i m hm
        refine Meets.aloneRet ⟨ha.1, fun res m' _ _ => ?_⟩
        rw [ha.2, hexpected expected rfl, hm]
        exact nofun
      · exact settle (some id) _ ha

theorem Eff.OfNotify.idle {β : Type} {e : Eff β} (h : e.OfNotify) : e.Idle := by
  rcases h with _ | _ | ⟨⟨⟩⟩ <;> exact trivial

/-- The ledger's part: the row is inserted, and deleted for a wrong amount only. -/
theorem carrying_persistAndMatch {received : Received} {payer : String} (rc : String) (memo : Option String) (mode : MatchMode)
    (wh : Option (String × String)) (hheld : a.held = [received.slateId]) (hamount : a.amount = received.amount) :
    Meets (carrying U) () (fun _ a' _ => a'.held = [])
      (Record.persistAndMatch received (some payer) rc memo mode wh) a s := by
  refine Meets.andThen (I := fun _ a' _ => a'.held = [] ∧ a'.amount = received.amount) ?_ fun _ a s _ ha => ?_
  · refine Meets.aloneStep (fun h => absurd trivial h) fun x hx => ?_
    have inserted := hx.1
    cases hr : ((serving U).act (.sql (.insertPayment (Record.paymentRow received (some payer) rc))) x s).1 with
    | error e =>
      rw [hr] at inserted
      cases inserted
    | ok u =>
      refine Meets.aloneRet ⟨?_, hamount⟩
      simp [Custody.gain, hheld, Record.paymentRow]
  refine Meets.andThen (carrying_matchPayment mode ⟨received.slateId, received.amount, rc, memo⟩ ha) fun r a s _ h => ?_
  obtain ⟨ha, hrefuses⟩ := h
  unfold Record.conclude
  split
  · rename_i m hm
    have refused : Matching.mismatch a.amount a.expected ≠ none := by
      cases r with
      | error e => cases hm
      | ok res => exact hrefuses res m rfl hm
    refine Meets.andThen (I := fun _ a' _ => a'.held = []) ?_ fun _ _ _ _ ha => Meets.aloneRet ha
    refine Meets.aloneStep (fun _ => ha) fun x _ => Meets.aloneRet ?_
    simp only [Custody.gain, if_neg refused]
    exact ha
  · have notified := Prog.Only.mono (Record.only_notify received (some payer) (Record.orUnmatched r) wh) fun _ he => he.idle
    exact Meets.andThen (idle_carry (carrying_idle fun _ => True) notified ⟨ha, trivial⟩) fun _ _ _ _ ha => Meets.aloneRet ha.1

variable (cfg) in
theorem carrying_receive (hU : U.Lawful) (armor : String) (ctx : IncomingContext) (ha : a.held = []) :
    Meets (carrying U) () (fun _ a' _ => a'.held = []) (WalletReceiver.receive U cfg armor ctx) a s := by
  refine Meets.andThen (carrying_receiveSlatepack U hU armor ha) fun r a s _ h => ?_
  cases r with
  | error e => exact Meets.aloneRet (h.1 e rfl)
  | ok received =>
    obtain ⟨hheld, hamount⟩ := h.2 received rfl
    exact Meets.andThen (f := fun out => .ret (WalletReceiver.outcome received out))
      (carrying_persistAndMatch ctx.recipientHex ctx.memo cfg.matchMode cfg.webhookPair hheld hamount)
      fun _ _ _ _ ha => Meets.aloneRet ha

theorem only_dispatches : Dispatches Eff.Idle where
  deliver _ := trivial
  replied _ := trivial
  unreplied := trivial
  snapshot := trivial

variable (U cfg master) in
theorem only_boot : (Service.boot U cfg master).Only Eff.Idle := by
  have snapshot : (Directory.refreshSnapshot U cfg master).Only Eff.Idle := by
    refine Prog.Only.bind (Prog.Only.bind (Prog.Only.call (e := Eff.sql (.selectDerivedInvoices _)) trivial) fun _ => ?_)
      fun _ => Prog.Only.call (e := Eff.setSnapshot _) trivial
    refine Prog.Only.bind (Prog.Only.call (e := Eff.sql (.watchedPubkeys _)) trivial) fun r => ?_
    split <;> exact trivial
  refine Prog.Only.bind (Prog.Only.call (e := Eff.restart) trivial) fun _ => Prog.Only.bind snapshot fun _ => ?_
  exact only_dispatches.reconcile master

variable (cfg master) in
theorem carrying_handle (hU : U.Lawful) (event : NostrEvent) (ha : a.held = []) :
    Meets (carrying U) () (fun _ a' _ => a'.held = []) (Service.handle U cfg master event) a s := by
  refine Meets.andThen (idle_handleWrap (N := fun _ => True) (carrying_idle fun _ => True) (fun armor ctx a s ha => ?_) event
    ⟨ha, trivial⟩) fun out a s _ h => ?_
  · exact (carrying_receive cfg hU armor ctx ha.1).mono fun _ _ _ _ ha => ⟨⟨ha, trivial⟩, fun _ _ => trivial⟩
  · have ha := h.1
    cases out with
    | received t amount pending =>
      exact (idle_carry (carrying_idle fun _ => True) (only_dispatches.reply t pending) ha).mono fun _ _ _ _ ha => ha.1
    | dropped | rateLimited | failed => exact Meets.aloneRet ha.1

end

/-! ## Received before -/

section

variable {W : Type} (U : Upstream W) (cfg : Config) (master : Secret)

/-- Some handling of some wrap, on its own from `s` on, answers the slate `t` with its S2. -/
def Yields (s : World W) (t : String) : Prop :=
  ∃ event xs amount reply, ((Ingest.handleWrap U cfg master event).exec (handler U) xs s).1 = .ret (.received t amount reply)

/-- An operation that leaves the wallet alone. -/
def Eff.SparesWallet {β : Type} (e : Eff β) : Prop := ∀ x s, (act U x s e).2.wallet = s.wallet

variable {U cfg master} {s : World W} {t : String} {α : Type}

theorem Eff.Idle.sparesWallet {β : Type} {e : Eff β} (h : e.Idle) : e.SparesWallet U := by
  intro x s
  cases e with
  | receiveTx | issueInvoiceTx | finalizeTx | cancelTx => exact h.elim
  | sql q => simp only [act]; split <;> rfl
  | _ => rfl

theorem sparesWallet_sql {β : Type} (q : Stmt β) : (Eff.sql q).SparesWallet U := by
  intro x s
  simp only [act]
  split <;> rfl

/-- The contract of a program for which the wallet has received `t`. -/
abbrev refusing (U : Upstream W) : Discipline (handler U) Unit Unit :=
  .alone (handler U) (fun _ => True) (fun _ _ _ _ => True) (fun _ _ _ _ => True) fun _ _ _ => ()

theorem refusing_carry {p : Io α} (hp : p.Only fun e => e.SparesWallet U) (ht : U.hasReceived s.wallet t = true) :
    Meets (refusing U) () (fun _ _ s => U.hasReceived s.wallet t = true) p () s :=
  Meets.of_only_carry (K := fun (_ : Unit) (s : World W) => U.hasReceived s.wallet t = true) hp ht
    (fun _ s s' hr _ hK => by
      obtain rfl : s' = s := hr
      exact hK)
    (fun _ _ _ _ _ _ => trivial) fun e x _ s he _ hK _ => by
      change U.hasReceived (act U x s e).2.wallet t = true
      rw [he x s]
      exact hK

theorem refusing_bundle {s2 slate : Slate} (ht : U.hasReceived s.wallet t = true) :
    Meets (refusing U) () (fun r _ s => U.hasReceived s.wallet t = true ∧ ∀ received, r = .ok received → received.slateId = s2.id)
      (GpWallet.bundle U s2 slate.id slate.amount).run () s := by
  have kernel : (GpWallet.slateKernelExcess slate.id).run.Only fun e => e.SparesWallet U :=
    Prog.Only.bindExcept (Prog.Only.bindExcept (Prog.Only.lift (Prog.Only.call fun _ _ => rfl)) fun r => by
      cases r <;> exact trivial) fun r => by cases r <;> exact trivial
  refine Meets.tryThen (refusing_carry kernel ht) (fun excess _ s _ ht => ?_) fun e _ s _ ht => Meets.aloneRet ⟨ht, nofun⟩
  cases hproof : GpWallet.buildProof U s2 slate.amount excess with
  | error e => exact Meets.aloneRet ⟨ht, nofun⟩
  | ok proof =>
    refine alone_upstream trivial (fun x armor _ _ => Meets.aloneRet ⟨ht, fun received h => ?_⟩) fun x m _ _ => ⟨ht, nofun⟩
    cases h
    rfl

/-- A slate that was received stays received, whatever becomes of a receive. -/
theorem received_receiveTx (hU : U.Lawful) (x : Answer) (slate : Slate) (ht : U.hasReceived s.wallet t = true) :
    U.hasReceived (act U x s (.receiveTx slate)).2.wallet t = true := by
  unfold act
  dsimp only
  split
  · exact ht
  · rcases hr : U.receiveTx x slate s.wallet with ⟨_ | s2, w'⟩
    · exact (hU.receive_error hr t).2 ht
    · exact (hU.receive_logs hr t).2 (Or.inr ht)

theorem refusing_receiveSlatepack (hU : U.Lawful) (armor : String) (ht : U.hasReceived s.wallet t = true) :
    Meets (refusing U) () (fun r _ s => U.hasReceived s.wallet t = true ∧ ∀ received, r = .ok received → received.slateId ≠ t)
      (GpWallet.receiveSlatepack U armor).run () s := by
  refine alone_upstream trivial (fun x slate _ _ => ?_) fun x m _ _ => ⟨ht, nofun⟩
  split
  · have ht₁ : U.hasReceived (act U x s (.slateFromSlatepackMessage (Text.trim armor))).2.wallet t = true := ht
    refine alone_upstream trivial (fun y s2 _ hs2 => ?_) fun y m _ _ => ⟨received_receiveTx hU y slate ht₁, nofun⟩
    obtain ⟨-, w', hw, -⟩ := act_receiveTx_ok (U := U) (x := y) hs2
    obtain ⟨hid, fresh⟩ := hU.receive_new hw
    refine (refusing_bundle (received_receiveTx hU y slate ht₁)).mono fun r _ s _ h => ⟨h.1, fun received hr => ?_⟩
    rw [h.2 received hr, hid]
    rintro rfl
    exact fresh ht
  · exact Meets.aloneRet ⟨ht, nofun⟩

theorem refusing_receive (hU : U.Lawful) (armor : String) (ctx : IncomingContext) (ht : U.hasReceived s.wallet t = true) :
    Meets (refusing U) () (fun r _ s => U.hasReceived s.wallet t = true ∧ ∀ payment, r = .ok payment → payment.slateId ≠ t)
      (WalletReceiver.receive U cfg armor ctx) () s := by
  refine Meets.andThen (refusing_receiveSlatepack hU armor ht) fun r _ s _ h => ?_
  cases r with
  | error e => exact Meets.aloneRet ⟨h.1, nofun⟩
  | ok received =>
    have persist : (Record.persistAndMatch received (some ctx.payerHex) ctx.recipientHex ctx.memo cfg.matchMode
        cfg.webhookPair).Only fun e => e.SparesWallet U := by
      refine Prog.Only.bind (Prog.Only.bind (Prog.Only.call (sparesWallet_sql _)) fun _ => trivial) fun _ => ?_
      refine Prog.Only.bind (Prog.Only.mono (Matching.only_matchPayment _ _) fun _ he => he.idle.sparesWallet) fun res => ?_
      unfold Record.conclude
      split
      · exact Prog.Only.bind (Prog.Only.bind (Prog.Only.call (sparesWallet_sql _)) fun _ => trivial) fun _ => trivial
      · exact Prog.Only.bind (Prog.Only.mono (Record.only_notify _ _ _ _) fun _ he => he.idle.sparesWallet) fun _ => trivial
    refine Meets.andThen (f := fun out => .ret (WalletReceiver.outcome received out)) (refusing_carry persist h.1)
      fun out _ s _ ht => Meets.aloneRet ⟨ht, fun payment hp => ?_⟩
    cases out with
    | matched res =>
      cases hp
      exact h.2 received rfl
    | rejected m => cases hp

variable (cfg master) in
/-- What the wallet has received no handling answers any more. -/
theorem not_yields (hU : U.Lawful) (ht : U.hasReceived s.wallet t = true) : ¬ Yields U cfg master s t := by
  rintro ⟨event, xs, amount, reply, hret⟩
  have idle : IdleKeeps (fun _ _ _ _ => True) (fun _ _ _ _ => True) (fun _ _ _ => ())
      (fun (_ : Unit) (s : World W) => U.hasReceived s.wallet t = true) (handler U) := by
    refine fun β e _ s he ht => ⟨trivial, fun x _ => ?_⟩
    change U.hasReceived (act U x s e).2.wallet t = true
    rw [he.sparesWallet x s]
    exact ht
  have handled : Meets (refusing U) () (Answers (fun (_ : Unit) (s : World W) => U.hasReceived s.wallet t = true) (· ≠ t))
      (Ingest.handleWrap U cfg master event) () s :=
    idle_handleWrap idle (fun armor ctx _ s ht => refusing_receive hU armor ctx ht) event ht
  rcases handled.aloneExec xs fun _ _ => trivial with ⟨out, hout, -, answered⟩ | ⟨_, e, k, hstop, -⟩
  · rw [hret] at hout
    cases hout
    exact answered t amount reply rfl rfl
  · rw [hret] at hstop
    cases hstop

end

/-! ## Deliveries and starts -/

/-- A wrap is handled to the end or until the process stops, or the process starts and reconciles; with
what the environment answers, and the rest of the server does, at each operation. -/
structure Episode (W : Type) where
  /-- none for a process start -/
  wrap : Option NostrEvent
  inputs : List (Answer × Meanwhile W)

section

variable {W : Type} (U : Upstream W) (cfg : Config) (master : Secret)

namespace Episode

variable (ep : Episode W)

def code : Io Unit :=
  match ep.wrap with
  | some event => Service.handle U cfg master event
  | none => Service.boot U cfg master

def after (c : Custody × World W) : Custody × World W :=
  (((ep.code U cfg master).events (serving U) () ep.inputs c.2).foldl (fun a ev => a.gain ev.eff (ev.answer (serving U))) c.1,
    ((ep.code U cfg master).exec (serving U) ep.inputs c.2).2)

/-- Nothing fails between the wallet's receive and the row, and the process does not stop there. -/
structure Spared (s : World W) : Prop where
  answers : ∀ ev ∈ (ep.code U cfg master).events (serving U) () ep.inputs s, ev.eff.secures (ev.answer (serving U)) = true
  proofs : ∀ ev ∈ (ep.code U cfg master).events (serving U) () ep.inputs s, ev.eff.Proves U (ev.answer (serving U))
  stop : ((ep.code U cfg master).exec (serving U) ep.inputs s).1.Next fun e => ¬ e.Between

end Episode

def course (eps : List (Episode W)) (c : Custody × World W) : Custody × World W := eps.foldl (fun c ep => ep.after U cfg master c) c

/-- Every episode of a course is spared, in the state it finds. -/
def AllSpared : List (Episode W) → Custody × World W → Prop
  | [], _ => True
  | ep :: eps, c => ep.Spared U cfg master c.2 ∧ AllSpared eps (ep.after U cfg master c)

variable {U cfg master} {ep : Episode W} {c : Custody × World W}

theorem Episode.inCustody (h : InCustody c.1 c.2) : InCustody (ep.after U cfg master c).1 (ep.after U cfg master c).2 := by
  refine Prog.exec_carries (H := serving U) (K := InCustody) (fun a => a.gain) (fun e x a s h => ?_) () ep.inputs
    (ep.code U cfg master) h
  have still : InCustody a (x.2.step s) := fun t ht => (h t ht).imp_left (x.2.keeps s t)
  exact still.step e x.1

theorem Episode.holds_nothing (hU : U.Lawful) (spared : ep.Spared U cfg master c.2) (h : c.1.held = []) :
    (ep.after U cfg master c).1.held = [] := by
  have walk : Meets (carrying U) () (fun _ a' _ => a'.held = []) (ep.code U cfg master) c.1 c.2 := by
    unfold Episode.code
    split
    · exact carrying_handle cfg master hU _ h
    · exact (idle_carry (carrying_idle fun _ => True) (only_boot U cfg master) ⟨h, trivial⟩).mono fun _ _ _ _ h => h.1
  rcases walk.aloneExec ep.inputs fun ev hev => ⟨spared.answers ev hev, spared.proofs ev hev⟩ with
    ⟨_, -, hend⟩ | ⟨_, e, k, hstop, hend⟩
  · exact hend
  · have stop := spared.stop
    rw [hstop] at stop
    exact hend stop

theorem course_custody (hU : U.Lawful) (eps : List (Episode W)) (spared : AllSpared U cfg master eps c)
    (hheld : c.1.held = []) (h : InCustody c.1 c.2) :
    (course U cfg master eps c).1.held = [] ∧ InCustody (course U cfg master eps c).1 (course U cfg master eps c).2 := by
  induction eps generalizing c with
  | nil => exact ⟨hheld, h⟩
  | cons ep eps ih => exact ih spared.2 (Episode.holds_nothing hU spared.1 hheld) (Episode.inCustody h)

variable (U cfg master) in
/-- Every slate a course takes in is recorded with its S2, was refused for its amount, or would still be
answered. -/
def NothingLost (c : Custody × World W) : Prop :=
  ∀ t ∈ c.1.taken, Resendable c.2 t ∨ t ∈ c.1.refused ∨ Yields U cfg master c.2 t

variable (cfg master) in
/-- Deliveries and starts in any order, with any other failures and stops: if no delivery fails or stops
between the wallet's receive and the row, no slate is lost. -/
theorem nothingLost_course (hU : U.Lawful) (eps : List (Episode W)) (s : World W) (spared : AllSpared U cfg master eps ({}, s)) :
    NothingLost U cfg master (course U cfg master eps ({}, s)) := by
  obtain ⟨hheld, hcustody⟩ := course_custody hU eps spared rfl nofun
  intro t ht
  rcases hcustody t ht with hstored | hrefused | hheld'
  · exact Or.inl hstored
  · exact Or.inr (Or.inl hrefused)
  · rw [hheld] at hheld'
    cases hheld'

end

/-! ## One wrap, twice -/

def Meanwhile.nothing {W : Type} : Meanwhile W := ⟨id, fun _ _ h => h⟩

/-- A payment to the master key; the process stops after `n` operations on it, or it is over by then. -/
def arrival (n : Nat) : Episode Sample.Wallet where
  wrap := some ⟨"wrap", 1059, "ephemeral", "BEGINSLATEPACK.ENDSLATEPACK.", [["p", "m"]], 0, ""⟩
  inputs := List.replicate n ({}, .nothing)

def newStart : Episode Sample.Wallet := ⟨none, List.replicate 9 ({}, .nothing)⟩

def circulating : World Sample.Wallet :=
  { Sample.world with
    wallet := { Sample.wallet with packs := [("BEGINSLATEPACK.ENDSLATEPACK.", ⟨"t", .standard1, 100, none⟩)] } }

/-- The process stops after `n` operations, starts again, and the wrap is delivered again. -/
def redelivery (n : Nat) : List (Episode Sample.Wallet) := [arrival n, newStart, arrival 18]

/-- The sample wallet's proofs verify. -/
theorem Sample.proves {β : Type} (e : Eff β) (b : β) : e.Proves Sample.upstream b := by
  cases e with
  | receiveTx slate =>
    cases b with
    | error m => exact trivial
    | ok s2 =>
      intro excess
      unfold GpWallet.buildProof
      split
      · rfl
      · split <;> rfl
  | _ => exact trivial

/-- The row was inserted before the stop. -/
theorem redelivery_kept : NothingLost Sample.upstream Sample.config [109]
    (course Sample.upstream Sample.config [109] (redelivery 9) ({}, circulating)) := by
  refine nothingLost_course Sample.config [109] Sample.lawful (redelivery 9) circulating
    ⟨⟨by decide, fun ev _ => Sample.proves ev.eff _, fun h => h⟩, ⟨by decide, fun ev _ => Sample.proves ev.eff _, trivial⟩,
      ⟨by decide, fun ev _ => Sample.proves ev.eff _, trivial⟩, trivial⟩

/-- The wallet had the slate and the ledger no row yet: neither the start nor the second delivery makes up
for it. -/
theorem redelivery_lost : ¬ NothingLost Sample.upstream Sample.config [109]
    (course Sample.upstream Sample.config [109] (redelivery 6) ({}, circulating)) := by
  intro h
  rcases h "t" (by decide) with ⟨p, hp, -⟩ | hrefused | hyields
  · have missing : (course Sample.upstream Sample.config [109] (redelivery 6) ({}, circulating)).2.db.payment.get "t" = none := by
      decide
    rw [missing] at hp
    cases hp
  · revert hrefused
    decide
  · exact not_yields Sample.config [109] Sample.lawful (by decide) hyields

end GoblinPay
