import GoblinPay.Runs.Doors
import GoblinPay.Runs.Reboot

/-!
# A reply that must not go out

A slate that pays the wrong amount is recorded first, with an S2 the boot-time reconcile can send, and
the record is undone after the match. An `Account` keeps what an execution did to that record;
`withheld_iff` says from it when the S2 stayed in.
-/

namespace GoblinPay

open Async Sql

/-- The payment `t` waits in the work list of the boot-time reconcile. -/
def Listed {W : Type} (s : World W) (t : String) : Prop := ∃ p, s.db.payment.get t = some p ∧ p.unreplied = true

/-- What an execution did to the record of its payment. -/
structure Account where
  attempted : Bool := false
  inserted : Bool := false
  /-- a statement of `match_payment` failed -/
  failed : Bool := false
  deleted : Bool := false

def Account.gain {β : Type} (a : Account) : Eff β → β → Account
  | .sql (.insertPayment _), r => { a with attempted := true, inserted := r.isOk }
  | .sql (.deletePayment _), r => { a with deleted := r.isOk }
  | .sql q, r => { a with failed := a.failed || (q.ofMatch && !r.isOk) }
  | _, _ => a

/-- The account of a program's execution on its own. -/
def account {W α : Type} (U : Upstream W) (p : Io α) (xs : List Answer) (w : World W) : Account :=
  (p.events (handler U) () xs w).foldl (fun a ev => a.gain ev.eff (ev.answer (handler U))) {}

/-- Whether the door looks at the outcome before it hands the S2 back. -/
def Door.heeds : Door → Bool
  | .relay .. | .paste .. => true
  | .foreign _ => false

/-- The operations of a notification, which say nothing about the record. -/
def Eff.Inert {β : Type} (e : Eff β) : Prop :=
  (∀ wr, e.write = some wr → ∃ payload, wr = .enqueue payload) ∧ ∀ (a : Account) b, a.gain e b = a

section

variable {W : Type} {U : Upstream W} {s s' : World W} {t : String}

/-- Listed is what the boot-time reconcile reads. -/
theorem listed_iff : Listed s t ↔ ∃ pending ∈ unrepliedOf s.db, pending.slateId = t := by
  simp only [unrepliedOf, List.mem_map, List.mem_filterMap, Table.mem_select]
  constructor
  · rintro ⟨p, hget, hp⟩
    obtain ⟨payer, s2, hpayer, hs2⟩ : ∃ payer s2, p.payer = some payer ∧ p.s2Armor = some s2 := by
      simp only [Payment.unreplied, Bool.and_eq_true, Option.isSome_iff_exists] at hp
      obtain ⟨⟨-, s2, hs2⟩, payer, hpayer⟩ := hp
      exact ⟨payer, s2, hpayer, hs2⟩
    have hkey : p.slateId = t := Table.key_of_get hget
    refine ⟨_, ⟨(p.slateId, payer, s2, p.recipient), ⟨p, ⟨by rw [hkey]; exact hget, hp⟩, ?_⟩, rfl⟩, hkey⟩
    simp [hpayer, hs2]
  · rintro ⟨_, ⟨row, ⟨p, ⟨hget, hp⟩, hrow⟩, rfl⟩, rfl⟩
    refine ⟨p, ?_, hp⟩
    simp only [Option.bind_eq_bind, Option.bind_eq_some_iff, Option.some.injEq] at hrow
    obtain ⟨_, -, _, -, rfl⟩ := hrow
    exact hget

theorem inert_notify (r : Received) (payer : Option String) (matched : MatchResult) (wh : Option (String × String)) :
    (Record.notify r payer matched wh).Only Eff.Inert := by
  refine Prog.Only.mono (Record.only_notify r payer matched wh) fun e he => ⟨fun wr hwr => ?_, fun a b => ?_⟩
  · rcases he with _ | _ | ⟨⟨⟩⟩ <;> cases hwr
    exact ⟨_, rfl⟩
  · rcases he with _ | _ | ⟨⟨⟩⟩ <;> simp [Account.gain, Stmt.ofMatch]

/-- A payment enters the work list by its insert only, and leaves it by a delete, a reply or a
confirmation. -/
theorem Listed.iff_of_change {β : Type} {e : Eff β} {now : Time}
    (change : PaymentChange e now t (s.db.payment.get t) (s'.db.payment.get t))
    (hw : ∀ wr, e.write = some wr → (∃ i n, wr = .pay i n) ∨ (∃ n i, wr = .link n i) ∨ ∃ payload, wr = .enqueue payload) :
    Listed s' t ↔ Listed s t := by
  have other : ∀ {wr}, e.write = some wr → (∀ n i, wr ≠ .link n i) → (∀ i n, wr ≠ .pay i n) → (∀ p, wr ≠ .enqueue p) → False := by
    intro wr h hlink hpay henqueue
    obtain ⟨i, n, h⟩ | ⟨n, i, h⟩ | ⟨p, h⟩ := hw wr h
    · exact hpay i n h
    · exact hlink n i h
    · exact henqueue p h
  unfold Listed
  generalize s.db.payment.get t = before, s'.db.payment.get t = after at change
  cases change with
  | keep => rfl
  | link =>
    constructor
    · rintro ⟨p, hp, h⟩
      cases hp
      exact ⟨_, rfl, h⟩
    · rintro ⟨p, hp, h⟩
      cases hp
      exact ⟨_, rfl, h⟩
  | insert by_ | delete by_ | deepen by_ | reply by_ =>
    exact (other by_ (fun _ _ h => by cases h) (fun _ _ h => by cases h) fun _ h => by cases h).elim

/-- The work list against the account: what the door left in it is the row of a named payer that was
inserted and not deleted. -/
def Tracks (d : Door) (w : World W) (a : Account) (s : World W) : Prop :=
  (∀ t, Listed s t → Listed w t) ↔ (d.payer.isSome = true → a.inserted = true → a.deleted = true)

variable {A : {β : Type} → Eff β → Answer → Prop} {d : Door} {w : World W} {cfg : Config} {r : Received}

theorem Tracks.congr {a a' : Account} (h : Tracks d w a s) (listed : ∀ t, Listed s' t ↔ Listed s t)
    (hinserted : a'.inserted = a.inserted) (hdeleted : a'.deleted = a.deleted) : Tracks d w a' s' := by
  unfold Tracks at h ⊢
  simp only [listed, hinserted, hdeleted]
  exact h

/-- The row's insert: a fresh row with a payer is in the work list at once. -/
theorem request_recordInsert (rc : String) (hdb : s.db = w.db) (hnow : s.now = w.now) :
    Meets (request U (Tracks d w) A fun a => a.gain) () (fun _ a s' => a.attempted = true ∧ a.failed = false ∧ a.deleted = false ∧
      Tracks d w a s' ∧ s'.db.invoice = w.db.invoice ∧ s'.now = w.now ∧ ∀ t, t ≠ r.slateId → Listed s' t → Listed w t)
      (discard (sql (.insertPayment (Record.paymentRow r d.payer rc))).run) {} s := by
  have idle : ∀ t, Listed s t ↔ Listed w t := fun t => by simp only [Listed, hdb]
  have start : ∀ {a : Account}, a.inserted = false → Tracks d w a s := by
    intro a ha
    simp [Tracks, idle, ha]
  refine request_sql (q := .insertPayment (Record.paymentRow r d.payer rc)) (f := fun _ => .ret ()) (start rfl)
    (fun x b _ _ hb => ?_) fun x e _ _ => ?_
  · obtain ⟨tab, hins⟩ : ∃ tab, s.db.payment.insert ((Record.paymentRow r d.payer rc).toPayment s.now) = some tab := by
      cases hins : s.db.payment.insert ((Record.paymentRow r d.payer rc).toPayment s.now) with
      | none => simp [Stmt.exec, inserted, hins] at hb
      | some tab => exact ⟨tab, rfl⟩
    have rows : (s.exec (.insertPayment (Record.paymentRow r d.payer rc)) x.choice).db = { s.db with payment := tab } := by
      simp only [World.exec, Stmt.exec, inserted, hins]
    have listed : ∀ t, Listed (s.exec (.insertPayment (Record.paymentRow r d.payer rc)) x.choice) t ↔
        (t = r.slateId ∧ d.payer.isSome = true) ∨ Listed w t := by
      intro t
      have fresh := Table.get_of_insert hins
      rw [← idle]
      simp only [Listed, rows, Table.get_insert hins]
      by_cases ht : t = r.slateId
      · subst ht
        have fresh : s.db.payment.get r.slateId = none := fresh
        simp [Record.paymentRow, PaymentRow.toPayment, Payment.unreplied, fresh]
      · have : ((Record.paymentRow r d.payer rc).toPayment s.now).slateId ≠ t := fun h => ht h.symm
        simp [this, ht]
    refine Meets.soloRet ⟨rfl, rfl, rfl, ?_, by rw [rows, ← hdb], hnow, fun t ht hl => ?_⟩
    · have unlisted : ¬ Listed w r.slateId := by
        rw [← idle]
        rintro ⟨p, hp, -⟩
        rw [show s.db.payment.get r.slateId = none from Table.get_of_insert hins] at hp
        cases hp
      simp only [Tracks, listed, Account.gain]
      cases hpayer : d.payer with
      | none => simp
      | some payer =>
        simp only [Option.isSome_some, and_true, true_implies, Except.isOk, Except.toBool, Bool.false_eq_true, iff_false]
        exact fun h => unlisted (h r.slateId (Or.inl rfl))
    · exact ((listed t).1 hl).resolve_left fun h => ht h.1
  · refine Meets.soloRet ⟨rfl, rfl, rfl, start rfl, by rw [hdb], hnow, fun t _ hl => (idle t).1 hl⟩

theorem Account.gain_match_ok {β : Type} (a : Account) {q : Stmt β} (b : β) (h : q.ofMatch = true) :
    a.gain (.sql q) (.ok b) = a := by
  cases q <;> first | exact (Bool.false_ne_true h).elim | simp [Account.gain, Stmt.ofMatch, Except.isOk, Except.toBool]

theorem Account.gain_match_error {β : Type} (a : Account) {q : Stmt β} (e : SqlxError) (h : q.ofMatch = true) :
    a.gain (.sql q) (.error e) = { a with failed := true } := by
  cases q <;> first | exact (Bool.false_ne_true h).elim | simp [Account.gain, Stmt.ofMatch, Except.isOk, Except.toBool]

/-- What the matched outcome owes: a failed match, or a guard that let the amount pass. -/
theorem request_matchedRecord {a : Account} {res : MatchResult} {payer : Option String} {wh : Option (String × String)}
    {passes : Prop} (hres : res.amountMismatch = none) (hT : Tracks d w a s) (ha : a.attempted = true) (hwhy : a.failed = true ∨ passes) :
    Meets (request U (Tracks d w) A fun a => a.gain) () (fun out a s' => Tracks d w a s' ∧ a.attempted = true ∧
      ((∃ res, out = .matched res) ∧ (a.failed = true ∨ passes) ∨ ∃ m, out = .rejected m ∧ a.failed = false ∧ ¬ passes))
      (Record.conclude r payer wh res) a s := by
  unfold Record.conclude
  rw [hres]
  refine Meets.andThen (Meets.of_only_carry (K := fun a' s' => a' = a ∧ ∀ t, Listed s' t ↔ Listed s t)
    (inert_notify r payer res wh) ⟨rfl, fun _ => Iff.rfl⟩ (fun _ _ _ hr _ hK => ?_) (fun _ a' s' _ _ hK => ?_)
    fun e x a' s' he _ hK _ => ?_) fun _ a' s' _ hK => ?_
  · obtain rfl := hr
    exact hK
  · obtain ⟨rfl, listed⟩ := hK
    exact hT.congr listed rfl rfl
  · obtain ⟨rfl, listed⟩ := hK
    refine ⟨he.2 _ _, fun t => ?_⟩
    rw [← listed t]
    exact Listed.iff_of_change (e.payment_change U x s' t) fun wr hwr => Or.inr (Or.inr (he.1 wr hwr))
  · obtain ⟨rfl, listed⟩ := hK
    exact Meets.soloRet ⟨hT.congr listed rfl rfl, ha, Or.inl ⟨⟨res, rfl⟩, hwhy⟩⟩

/-- Recording and matching a slate that resolves to `inv`: the S2 goes out where a statement of the
match failed or the guard let the amount pass, and the record stays where it was not deleted. -/
theorem request_record {inv : Invoice} (hdb : s.db = w.db) (hnow : s.now = w.now)
    (hA : ∀ x, OnSql A x → w.db.resolve w.now (d.mode cfg) ⟨r.slateId, r.amount, d.recipient, d.memo⟩ x.choice = some inv) :
    Meets (request U (Tracks d w) A fun a => a.gain) () (fun out a s' => Tracks d w a s' ∧ a.attempted = true ∧
      ((∃ res, out = .matched res) ∧ (a.failed = true ∨ Matching.mismatch r.amount inv.expectedAmount = none) ∨
        ∃ m, out = .rejected m ∧ a.failed = false ∧ ¬ Matching.mismatch r.amount inv.expectedAmount = none))
      (d.record cfg r) {} s := by
  refine Meets.andThen (request_recordInsert d.recipient hdb hnow) fun _ a s₁ _ h₁ => ?_
  obtain ⟨ha, hfailed, hdeleted, hT, hinvoice, hnow₁, others⟩ := h₁
  have found : ∀ x, OnSql A x → s₁.db.resolve s₁.now (d.mode cfg) ⟨r.slateId, r.amount, d.recipient, d.memo⟩ x.choice = some inv :=
    fun x hx => by rw [hnow₁, Db.resolve_congr hinvoice, hA x hx]
  have paid : ∀ (s₂ : World W) i, Tracks d w a s₂ → Tracks d w a (s₂.exec (.markPaid i r.slateId) 0) := fun s₂ i h =>
    h.congr (fun t => Listed.iff_of_change ((Stmt.markPaid i r.slateId).payment_change s₂.now 0 s₂.db t) fun wr hwr => by
      cases hwr
      exact Or.inl ⟨_, _, rfl⟩) rfl rfl
  have linked : ∀ (s₂ : World W) i u, Tracks d w a s₂ → Tracks d w a (s₂.exec (.linkPayment r.slateId i u) 0) := fun s₂ i u h =>
    h.congr (fun t => Listed.iff_of_change ((Stmt.linkPayment r.slateId i u).payment_change s₂.now 0 s₂.db t) fun wr hwr => by
      cases hwr
      exact Or.inr (Or.inl ⟨_, _, rfl⟩)) rfl rfl
  refine Meets.andThen (request_matchPayment (fun q b hq => a.gain_match_ok b hq) hT fun _ inv _ _ _ => paid s₁ inv.id hT)
    fun res a₂ s₂ _ hends => ?_
  have failed : ∀ {β : Type} (q : Stmt β) (e e' : SqlxError) (s₂ : World W), q.ofMatch = true → Tracks d w a s₂ →
      Meets (request U (Tracks d w) A fun a => a.gain) ()
        (fun out a s' => Tracks d w a s' ∧ a.attempted = true ∧
          ((∃ res, out = .matched res) ∧ (a.failed = true ∨ Matching.mismatch r.amount inv.expectedAmount = none) ∨
            ∃ m, out = .rejected m ∧ a.failed = false ∧ ¬ Matching.mismatch r.amount inv.expectedAmount = none))
        (Record.conclude r d.payer cfg.webhookPair (Record.orUnmatched (.error e))) (a.gain (.sql q) (.error e')) s₂ := by
    intro β q e e' s₂ hq hT₂
    rw [a.gain_match_error e' hq]
    exact request_matchedRecord rfl (hT₂.congr (fun _ => Iff.rfl) rfl rfl) ha (Or.inl rfl)
  cases hends with
  | failed _ _ undecided =>
    obtain ⟨β, q, e, hq, rfl⟩ := undecided
    exact failed q _ e s₁ (Stmt.ofMatch_of_decides hq) hT
  | unlinked => exact failed _ _ _ _ rfl (paid _ _ hT)
  | unmatched hx resolved | forgotten hx resolved =>
    rw [found _ hx] at resolved
    cases resolved
  | settled hx resolved guard =>
    rw [found _ hx] at resolved
    cases resolved
    exact request_matchedRecord rfl (linked _ _ _ (paid _ _ hT)) ha (Or.inr guard)
  | @rejected _ _ m hx resolved guard =>
    rw [found _ hx] at resolved
    cases resolved
    have refused : ¬ Matching.mismatch r.amount inv.expectedAmount = none := by rw [guard]; simp
    refine request_sql (q := .deletePayment r.slateId) (f := fun _ => .ret (PersistOutcome.rejected m)) hT (fun x b _ _ _ => ?_)
      fun x e _ _ => ?_
    · refine Meets.soloRet ⟨?_, ha, Or.inr ⟨m, rfl, hfailed, refused⟩⟩
      refine iff_of_true (fun t hl => ?_) fun _ _ => rfl
      obtain ⟨p, hp, hlisted⟩ := hl
      simp only [World.exec, Stmt.exec, Table.get_delete] at hp
      obtain ⟨hget, hkept⟩ := Option.filter_eq_some_iff.1 hp
      refine others t (fun ht => ?_) ⟨p, hget, hlisted⟩
      rw [← ht] at hkept
      simp [Table.key_of_get hget] at hkept
    · exact Meets.soloRet ⟨hT.congr (fun _ => Iff.rfl) rfl hdeleted.symm, ha, Or.inr ⟨m, rfl, hfailed, refused⟩⟩

variable (cfg) in
/-- A whole door for a slate that resolves to `inv`: with the outcome, its account tells whether the S2
is handed back. -/
theorem request_withheld {slate : Slate} {inv : Invoice} (hsent : d.sent U w.wallet = some slate)
    (hA : ∀ x, OnSql A x → w.db.resolve w.now (d.mode cfg) (d.incoming slate) x.choice = some inv) :
    Meets (request U (Tracks d w) A fun a => a.gain) () (fun b a s' => Tracks d w a s' ∧
      (b = true ↔ a.attempted = true ∧
        (d.heeds = false ∨ a.failed = true ∨ Matching.mismatch slate.amount inv.expectedAmount = none)))
      (d.code U cfg) {} w := by
  have idle : ∀ w' : W, Tracks d w {} { w with wallet := w' } := fun w' =>
    iff_of_true (fun _ hl => hl) fun _ h => by cases h
  have silent : ∀ {β : Type} (e : Eff β) b, e.OfReceive → ({} : Account).gain e b = {} := by
    intro β e b he
    cases e <;> first | exact he.elim | rfl
  rw [Door.code_eq]
  refine Meets.andThen (request_take silent idle d) fun received a s _ hr => ?_
  obtain ⟨rfl, ⟨w', rfl⟩, taken⟩ := hr
  cases received with
  | none => exact Meets.soloRet ⟨idle w', by simp⟩
  | some received =>
    have hamount : received.amount = slate.amount := by
      rcases taken with ⟨x, -, htakes⟩ | ⟨h, -⟩
      · obtain ⟨slate', hsent', hamount⟩ := Door.amount_of_takes U htakes.symm
        rw [hsent] at hsent'
        cases hsent'
        exact hamount
      · cases h
    have found : ∀ x, OnSql A x → w.db.resolve w.now (d.mode cfg) ⟨received.slateId, received.amount, d.recipient, d.memo⟩
        x.choice = some inv := fun x hx => by
      rw [hamount]
      exact hA x hx
    refine Meets.andThen (request_record rfl rfl found) fun out a s _ hout => ?_
    rw [hamount] at hout
    obtain ⟨hT, ha, ⟨⟨res, rfl⟩, why⟩ | ⟨m, rfl, hfailed, refused⟩⟩ := hout
    · exact Meets.soloRet ⟨hT, by simp [Door.hands_matched, ha, why]⟩
    · refine Meets.soloRet ⟨hT, ?_⟩
      cases d <;> simp [Door.hands, Door.heeds, ha, hfailed, refused]

variable (U cfg) in
/-- The S2 stayed in: the door did not hand it back, and it put no payment in the work list of the
boot-time reconcile. -/
def Withheld (d : Door) (w : World W) (xs : List Answer) : Prop :=
  ((d.code U cfg).exec (handler U) xs w).1 ≠ .ret true ∧
    ∀ t, Listed ((d.code U cfg).exec (handler U) xs w).2 t → Listed w t

/-- The guard refuses a wrong amount unless the stored amount is negative and nothing is paid. -/
theorem mismatch_iff {amount : UInt64} {expected : Int64} (hwrong : (amount.toNat : Int) ≠ expected.toInt) :
    Matching.mismatch amount (some expected) ≠ none ↔ 0 ≤ expected ∨ amount ≠ 0 := by
  have refuses : Matching.mismatch amount (some expected) ≠ none ↔ amount ≠ Matching.clamp expected := by
    simp [Matching.mismatch]
  rw [refuses]
  by_cases hneg : 0 ≤ expected
  · refine iff_of_true (fun h => hwrong ?_) (Or.inl hneg)
    rw [h]
    exact Matching.toNat_clamp.2 hneg
  · rw [Matching.clamp_of_neg (by grind)]
    simp [hneg]

variable (U cfg) in
/-- A slate of the wrong amount for the invoice it resolves to, through any door, failing and stopped
anywhere: its S2 stays in if and only if an answer was only given by a door that heeds the outcome, of
a match none of whose statements failed and whose guard refused, and the relay's record, once inserted,
was deleted. -/
theorem withheld_iff (d : Door) (w : World W) (xs : List Answer) {slate : Slate} {inv : Invoice} {expected : Int64}
    (hsent : d.sent U w.wallet = some slate)
    (hres : ∀ x ∈ xs, w.db.resolve w.now (d.mode cfg) (d.incoming slate) x.choice = some inv)
    (hexpected : inv.expectedAmount = some expected) (hwrong : (slate.amount.toNat : Int) ≠ expected.toInt) :
    Withheld U cfg d w xs ↔
      ((∃ b, ((d.code U cfg).exec (handler U) xs w).1 = .ret b) → (account U (d.code U cfg) xs w).attempted = true →
        d.heeds = true ∧ (account U (d.code U cfg) xs w).failed = false ∧ (0 ≤ expected ∨ slate.amount ≠ 0)) ∧
      (d.payer.isSome = true → (account U (d.code U cfg) xs w).inserted = true →
        (account U (d.code U cfg) xs w).deleted = true) := by
  have found : ∀ x, OnSql (fun _ x => x ∈ xs) x → w.db.resolve w.now (d.mode cfg) (d.incoming slate) x.choice = some inv := by
    rintro x ⟨β, q, hx⟩
    exact hres x hx
  have guard := mismatch_iff hwrong
  rw [← hexpected] at guard
  unfold Withheld
  rcases (request_withheld cfg hsent found).soloExec xs (fun ev hev => Prog.input_mem_of_events hev) with
    ⟨b, hb, hT, hhanded⟩ | ⟨hstopped, hT⟩
  · refine and_congr ?_ hT
    rw [hb]
    have returned : ∃ b', (Prog.ret b : Io Bool) = .ret b' := ⟨b, rfl⟩
    have answered : (Prog.ret b : Io Bool) ≠ .ret true ↔ ¬ b = true := by simp
    rw [answered, hhanded, ← guard]
    simp only [returned, true_implies, account]
    cases d.heeds <;> simp
  · refine and_congr (iff_of_true (hstopped true) ?_) hT
    rintro ⟨b, hb⟩
    exact absurd hb (hstopped b)

end

/-! ## A short payment -/

/-- An open invoice for 100 nanogrin under the derived key `mi`, and a slate of 60 in circulation. -/
def shortWorld : World Sample.Wallet :=
  { Sample.world with
    db := { Db.empty with invoice := ⟨[(Invoice.row Sample.upstream ⟨none, .grin 100, none, some .derived, none⟩
      [109] "m" .memo "i" "tok").toInvoice 10], by decide⟩ }
    wallet := { Sample.wallet with packs := [("pack", ⟨"t", .standard1, 60, none⟩)] } }

def short : Door := .relay "pack" ⟨"payer", "mi", none⟩

/-- No failure: the payer gets nothing. -/
theorem short_withheld : Withheld Sample.upstream Sample.config short shortWorld (List.replicate 12 {}) := by
  obtain ⟨inv, resolved, hexpected⟩ : ∃ inv, shortWorld.db.resolve shortWorld.now (short.mode Sample.config)
    (short.incoming ⟨"t", .standard1, 60, none⟩) 0 = some inv ∧ inv.expectedAmount = some 100 := ⟨_, rfl, rfl⟩
  have chosen : ∀ x ∈ List.replicate 12 ({} : Answer), x.choice = 0 := by decide
  refine (withheld_iff Sample.upstream Sample.config short shortWorld (List.replicate 12 {}) rfl (fun x hx => ?_)
    hexpected (by decide)).2 ⟨fun _ _ => ⟨rfl, by decide, Or.inl (by decide)⟩, fun _ _ => by decide⟩
  rw [chosen x hx]
  exact resolved

/-- The first resolver meets a locked database. -/
def locked : List Answer :=
  List.replicate 6 ({} : Answer) ++ ({ fault := some "locked" } : Answer) :: List.replicate 5 ({} : Answer)

/-- The S2 goes out. -/
theorem short_handed : short.sent Sample.upstream shortWorld.wallet = some ⟨"t", .standard1, 60, none⟩ ∧
    (∃ inv, (∀ x ∈ locked, shortWorld.db.resolve shortWorld.now (short.mode Sample.config)
      (short.incoming ⟨"t", .standard1, 60, none⟩) x.choice = some inv) ∧ inv.expectedAmount = some 100) ∧
    ¬ Withheld Sample.upstream Sample.config short shortWorld locked := by
  obtain ⟨inv, resolved, hexpected⟩ : ∃ inv, shortWorld.db.resolve shortWorld.now (short.mode Sample.config)
    (short.incoming ⟨"t", .standard1, 60, none⟩) 0 = some inv ∧ inv.expectedAmount = some 100 := ⟨_, rfl, rfl⟩
  have chosen : ∀ x ∈ locked, x.choice = 0 := by decide
  refine ⟨rfl, ⟨inv, fun x hx => ?_, hexpected⟩, fun withheld => withheld.1 rfl⟩
  rw [chosen x hx]
  exact resolved

end GoblinPay
