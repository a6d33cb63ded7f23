import GoblinPay.Runs.Solo

/-!
# What one payment resolves to

`match_payment` on its own is a function of the ledger: the three resolvers look for the open
invoice one after the other (`Db.resolve`), the amount guard lets the payment pass or not, and the
invoice is marked paid and linked. `Matching.Ends` lists the ways it can end, failures included.
-/

namespace GoblinPay

open Async Sql

namespace Db

/-- The invoice the three resolvers find, one after the other; `n` breaks the ties. -/
def resolve (db : Db) (now : Time) (mode : MatchMode) (incoming : IncomingPayment) (n : Nat) : Option Invoice :=
  (oldest (db.derivedCandidates mode incoming.recipientHex) n).or <|
    (incoming.memo.bind fun memo => oldest (db.memoCandidates mode memo) n).or <|
      oldest (db.amountCandidates mode incoming.amount now) n

variable {db : Db} {now : Time} {mode : MatchMode} {incoming : IncomingPayment} {n : Nat} {inv : Invoice}

/-- What is found is an open row of the ledger. -/
theorem get_of_resolve (h : db.resolve now mode incoming n = some inv) :
    db.invoice.get inv.id = some inv ∧ inv.status = .open := by
  have isOpen : ∀ {m : MatchMode} {b : Bool}, (b && inv.openIn mode m) = true → inv.status = .open := by
    intro m b hb
    simp only [Invoice.openIn, Bool.and_eq_true, decide_eq_true_eq] at hb
    exact hb.2.1
  rcases Option.or_eq_some_iff.1 h with hd | ⟨-, h⟩
  · obtain ⟨hget, hp⟩ := get_of_oldest hd
    exact ⟨hget, isOpen hp⟩
  rcases Option.or_eq_some_iff.1 h with hm | ⟨-, ha⟩
  · obtain ⟨memo, -, hm⟩ := Option.bind_eq_some_iff.1 hm
    obtain ⟨hget, hp⟩ := get_of_oldest hm
    exact ⟨hget, isOpen hp⟩
  · obtain ⟨hget, hp⟩ := get_of_oldest ha
    exact ⟨hget, isOpen (Bool.and_eq_true_iff.1 hp).1⟩

/-- The resolvers read the invoices and nothing else of the database. -/
theorem resolve_congr {db' : Db} (h : db'.invoice = db.invoice) :
    db'.resolve now mode incoming n = db.resolve now mode incoming n := by
  simp only [resolve, derivedCandidates, memoCandidates, amountCandidates, h]

/-- The invoices a payment can lead to: of the first resolver that finds an open one, those no older
one comes before. -/
inductive Leads (db : Db) (now : Time) (mode : MatchMode) (incoming : IncomingPayment) (inv : Invoice) : Prop
  | derived (found : inv ∈ first Invoice.createdAt (db.derivedCandidates mode incoming.recipientHex))
  | memo {memo : String} (noDerived : db.derivedCandidates mode incoming.recipientHex = [])
      (carries : incoming.memo = some memo) (found : inv ∈ first Invoice.createdAt (db.memoCandidates mode memo))
  | amount (noDerived : db.derivedCandidates mode incoming.recipientHex = [])
      (noMemo : ∀ memo, incoming.memo = some memo → db.memoCandidates mode memo = [])
      (found : inv ∈ first Invoice.createdAt (db.amountCandidates mode incoming.amount now))

/-- The resolvers find one of these, and each of them for some choice among the ties. -/
theorem leads_iff : db.Leads now mode incoming inv ↔ ∃ n, db.resolve now mode incoming n = some inv := by
  have none : ∀ {rows : List Invoice}, rows = [] → ∀ n, oldest rows n = none := fun h n => oldest_eq_none.2 h
  constructor
  · rintro (found | ⟨noDerived, carries, found⟩ | ⟨noDerived, noMemo, found⟩)
    · obtain ⟨n, hn⟩ := pick_of_mem found
      have hd : oldest (db.derivedCandidates mode incoming.recipientHex) n = some inv := hn
      exact ⟨n, by rw [resolve, hd, Option.some_or]⟩
    · obtain ⟨n, hn⟩ := pick_of_mem found
      have hm : (incoming.memo.bind fun memo => oldest (db.memoCandidates mode memo) n) = some inv := by
        rw [carries]
        exact hn
      exact ⟨n, by rw [resolve, none noDerived, hm, Option.none_or, Option.some_or]⟩
    · obtain ⟨n, hn⟩ := pick_of_mem found
      have hm : (incoming.memo.bind fun memo => oldest (db.memoCandidates mode memo) n) = .none := by
        rw [Option.bind_eq_none_iff]
        exact fun memo hmemo => none (noMemo memo hmemo) n
      have ha : oldest (db.amountCandidates mode incoming.amount now) n = some inv := hn
      exact ⟨n, by rw [resolve, none noDerived, hm, ha, Option.none_or, Option.none_or]⟩
  · rintro ⟨n, h⟩
    rcases Option.or_eq_some_iff.1 h with hd | ⟨hd, h⟩
    · exact .derived (pick_mem hd)
    have noDerived := oldest_eq_none.1 hd
    rcases Option.or_eq_some_iff.1 h with hm | ⟨hm, ha⟩
    · obtain ⟨memo, carries, hm⟩ := Option.bind_eq_some_iff.1 hm
      exact .memo noDerived carries (pick_mem hm)
    · exact .amount noDerived (fun memo hmemo => oldest_eq_none.1 (Option.bind_eq_none_iff.1 hm memo hmemo)) (pick_mem ha)

/-- Where nothing is found, the payment leads nowhere. -/
theorem not_leads_of_resolve (h : db.resolve now mode incoming n = none) (inv : Invoice) : ¬ db.Leads now mode incoming inv := by
  obtain ⟨hd, hm, ha⟩ : oldest (db.derivedCandidates mode incoming.recipientHex) n = none ∧
      (incoming.memo.bind fun memo => oldest (db.memoCandidates mode memo) n) = none ∧
      oldest (db.amountCandidates mode incoming.amount now) n = none := by
    simpa [resolve, Option.or_eq_none_iff] using h
  have empty : ∀ {rows : List Invoice}, oldest rows n = none → inv ∉ first Invoice.createdAt rows := fun h hmem => by
    rw [oldest_eq_none.1 h] at hmem
    cases hmem
  rintro (found | ⟨_, carries, found⟩ | ⟨_, _, found⟩)
  · exact empty hd found
  · exact empty (Option.bind_eq_none_iff.1 hm _ carries) found
  · exact empty ha found

end Db

/-- The users a received pubkey may credit: those of its assignments, or none. -/
def Db.Owner (db : Db) (pubkey : String) : Option String → Prop
  | some user => ∃ ep ∈ db.endpub.rows, ep.pubkey = pubkey ∧ ep.userId = user
  | none => ∀ ep ∈ db.endpub.rows, ep.pubkey ≠ pubkey

/-- The one the query returns; `n` breaks the ties. -/
def Db.ownerAt (db : Db) (pubkey : String) (n : Nat) : Option String :=
  (pick (db.endpub.select fun ep => ep.pubkey = pubkey) n).map Endpub.userId

theorem Db.owner_iff {db : Db} {pubkey : String} {user : Option String} :
    db.Owner pubkey user ↔ ∃ n, db.ownerAt pubkey n = user := by
  have assigned : ∀ ep, ep ∈ (db.endpub.select fun ep => ep.pubkey = pubkey) ↔ ep ∈ db.endpub.rows ∧ ep.pubkey = pubkey :=
    fun ep => by simp [Table.select]
  constructor
  · intro h
    cases user with
    | none =>
      have empty : db.endpub.select (fun ep => ep.pubkey = pubkey) = [] :=
        List.eq_nil_iff_forall_not_mem.2 fun ep hep => h ep ((assigned ep).1 hep).1 ((assigned ep).1 hep).2
      exact ⟨0, by rw [ownerAt, empty]; rfl⟩
    | some user =>
      obtain ⟨ep, hep, hpubkey, rfl⟩ := h
      obtain ⟨n, hn⟩ := pick_of_mem ((assigned ep).2 ⟨hep, hpubkey⟩)
      exact ⟨n, by rw [ownerAt, hn]; rfl⟩
  · rintro ⟨n, rfl⟩
    rcases h : pick (db.endpub.select fun ep => ep.pubkey = pubkey) n with _ | ep
    · rw [ownerAt, h]
      intro ep hep hpubkey
      have hmem := (assigned ep).2 ⟨hep, hpubkey⟩
      rw [pick_eq_none.1 h] at hmem
      cases hmem
    · obtain ⟨hep, hpubkey⟩ := (assigned ep).1 (pick_mem h)
      rw [ownerAt, h]
      exact ⟨ep, hep, hpubkey, rfl⟩

/-- The statements of `match_payment`. -/
def Stmt.ofMatch {β : Type} : Stmt β → Bool
  | .userForPubkey _ | .resolveDerived _ _ | .resolveMemo _ _ | .resolveAmount _ _ | .expectedAmount _
  | .markPaid _ _ | .linkPayment .. => true
  | _ => false

/-- Those that decide it: what comes after them is the link. -/
def Stmt.decides {β : Type} : Stmt β → Bool
  | .userForPubkey _ | .resolveDerived _ _ | .resolveMemo _ _ | .resolveAmount _ _ | .expectedAmount _ | .markPaid _ _ => true
  | _ => false

theorem Stmt.ofMatch_of_decides {β : Type} {q : Stmt β} (h : q.decides = true) : q.ofMatch = true := by
  cases q <;> first | rfl | cases h

def Eff.OfMatch {β : Type} : Eff β → Prop
  | .sql q => q.ofMatch = true
  | _ => False

namespace Matching

theorem only_resolve (mode : MatchMode) (incoming : IncomingPayment) : (resolve mode incoming).run.Only Eff.OfMatch := by
  refine Prog.Only.bindExcept (Prog.Only.call rfl) fun id => ?_
  cases id with
  | some id => exact trivial
  | none =>
    refine Prog.Only.bindExcept ?_ fun id => ?_
    · cases incoming.memo with
      | some memo => exact Prog.Only.call rfl
      | none => exact trivial
    · cases id with
      | some id => exact trivial
      | none => exact Prog.Only.call rfl

theorem only_markMatched (slateId : String) (invoiceId : Option String) :
    (markMatched slateId invoiceId).run.Only Eff.OfMatch := by
  cases invoiceId with
  | none => exact trivial
  | some id => exact Prog.Only.bindExcept (Prog.Only.call rfl) fun _ => trivial

theorem only_settle (slateId : String) (invoiceId userId : Option String) :
    (settle slateId invoiceId userId).run.Only Eff.OfMatch :=
  Prog.Only.bindExcept (only_markMatched slateId invoiceId) fun _ =>
    Prog.Only.bindExcept (Prog.Only.call rfl) fun _ => trivial

theorem only_matchPayment (mode : MatchMode) (incoming : IncomingPayment) :
    (matchPayment mode incoming).run.Only Eff.OfMatch := by
  refine Prog.Only.bindExcept (Prog.Only.call rfl) fun user => Prog.Only.bindExcept (only_resolve mode incoming) fun id => ?_
  cases id with
  | none => exact only_settle _ none _
  | some id =>
    refine Prog.Only.bindExcept (Prog.Only.call rfl) fun expected => ?_
    split
    · exact trivial
    · exact only_settle _ (some id) _

end Matching

section

variable {W Own : Type} {U : Upstream W} {P : Own → World W → Prop}
  {A : {β : Type} → Eff β → Answer → Prop}
  {gain : {β : Type} → Own → Eff β → β → Own} {g : Own} {s : World W} {mode : MatchMode} {incoming : IncomingPayment}

/-- What a program knows after a statement that decides the match failed. -/
def Undecided (gain : {β : Type} → Own → Eff β → β → Own) (g g' : Own) : Prop :=
  ∃ (β : Type) (q : Stmt β) (e : SqlxError), q.decides = true ∧ g' = gain g (.sql q) (.error e)

/-- The ways `match_payment` can end, on its own from the state `s`, with what it knows then. -/
inductive Matching.Ends (B : Answer → Prop) (gain : {β : Type} → Own → Eff β → β → Own) (mode : MatchMode)
    (incoming : IncomingPayment) (g : Own) (s : World W) : Except SqlxError MatchResult → Own → World W → Prop
  /-- before it was decided -/
  | failed {x : Answer} {e : SqlxError} {g' : Own} (hx : B x) (fault : x.fault ≠ none) (undecided : Undecided gain g g') :
      Ends B gain mode incoming g s (.error e) g' s
  | unmatched {x : Answer} {user : Option String} (hx : B x)
      (resolved : s.db.resolve s.now mode incoming x.choice = none)
      (owner : ∃ y, B y ∧ s.db.ownerAt incoming.recipientHex y.choice = user) :
      Ends B gain mode incoming g s (.ok { userId := user }) g (s.exec (.linkPayment incoming.slateId none user) 0)
  /-- nothing found, and the owner was not recorded -/
  | forgotten {x y : Answer} {user : Option String} {e : SqlxError} (hx : B x)
      (resolved : s.db.resolve s.now mode incoming x.choice = none) (hy : B y) (fault : y.fault ≠ none) :
      Ends B gain mode incoming g s (.error e) (gain g (.sql (.linkPayment incoming.slateId none user)) (.error e)) s
  | rejected {x : Answer} {inv : Invoice} {m : AmountMismatch} (hx : B x)
      (resolved : s.db.resolve s.now mode incoming x.choice = some inv)
      (guard : Matching.mismatch incoming.amount inv.expectedAmount = some m) :
      Ends B gain mode incoming g s (.ok { amountMismatch := some m }) g s
  /-- paid, and the payment was not linked -/
  | unlinked {x y : Answer} {inv : Invoice} {user : Option String} {e : SqlxError} (hx : B x)
      (resolved : s.db.resolve s.now mode incoming x.choice = some inv)
      (guard : Matching.mismatch incoming.amount inv.expectedAmount = none) (hy : B y) (fault : y.fault ≠ none) :
      Ends B gain mode incoming g s (.error e) (gain g (.sql (.linkPayment incoming.slateId (some inv.id) user)) (.error e))
        (s.exec (.markPaid inv.id incoming.slateId) 0)
  | settled {x : Answer} {inv : Invoice} {user : Option String} (hx : B x)
      (resolved : s.db.resolve s.now mode incoming x.choice = some inv)
      (guard : Matching.mismatch incoming.amount inv.expectedAmount = none)
      (owner : ∃ y, B y ∧ s.db.ownerAt incoming.recipientHex y.choice = user) :
      Ends B gain mode incoming g s (.ok { invoiceId := some inv.id, userId := user }) g
        ((s.exec (.markPaid inv.id incoming.slateId) 0).exec (.linkPayment incoming.slateId (some inv.id) user) 0)

section

variable (hok : ∀ {β : Type} (q : Stmt β) b, q.ofMatch = true → gain g (.sql q) (.ok b) = g)

include hok

/-- A read of the match, which only a fault makes fail. -/
theorem request_matchRead {α β : Type} {Q : α → Own → World W → Prop} {q : Stmt β} {f : Except SqlxError β → Io α}
    (hq : q.decides = true) (hread : q.IsRead) (hP : P g s) (answers : ∀ n e, (q.exec s.now n s.db).1 ≠ .error e)
    (hf : ∀ x b, OnSql A x → (q.exec s.now x.choice s.db).1 = .ok b → Meets (request U P A gain) () Q (f (.ok b)) g s)
    (herror : ∀ x e g', OnSql A x → x.fault ≠ none → Undecided gain g g' →
      Meets (request U P A gain) () Q (f (.error e)) g' s) :
    Meets (request U P A gain) () Q ((sql q).run >>= f) g s := by
  refine request_sql hP (fun x b hx _ hexec => ?_) fun x e hx he =>
    herror x e _ hx (fault_of_error he (answers _)) ⟨_, q, e, hq, rfl⟩
  rw [hok q b (Stmt.ofMatch_of_decides hq), World.exec_read hread]
  exact hf x b hx hexec

/-- The resolvers find what `Db.resolve` says, or one of them failed. -/
theorem request_resolve (hP : P g s) :
    Meets (request U P A gain) () (fun (r : Except SqlxError (Option String)) g' s' => s' = s ∧
      ((∃ x, OnSql A x ∧ g' = g ∧ r = .ok ((s.db.resolve s.now mode incoming x.choice).map Invoice.id)) ∨
        ∃ x e, OnSql A x ∧ x.fault ≠ none ∧ Undecided gain g g' ∧ r = .error e))
      (Matching.resolve mode incoming).run g s := by
  have failed : ∀ (x : Answer) (e : SqlxError) (g' : Own), OnSql A x → x.fault ≠ none → Undecided gain g g' →
      Meets (request U P A gain) () (fun (r : Except SqlxError (Option String)) g' s' => s' = s ∧
        ((∃ x, OnSql A x ∧ g' = g ∧ r = .ok ((s.db.resolve s.now mode incoming x.choice).map Invoice.id)) ∨
          ∃ x e, OnSql A x ∧ x.fault ≠ none ∧ Undecided gain g g' ∧ r = .error e))
        (.ret (.error e)) g' s := fun x e g' hx hf hg => Meets.soloRet ⟨rfl, Or.inr ⟨x, e, hx, hf, hg, rfl⟩⟩
  refine request_matchRead hok (q := .resolveDerived mode incoming.recipientHex) (f := ExceptT.bindCont _) rfl trivial
    hP (fun _ _ h => by cases h) (fun x b hx hexec => ?_) failed
  obtain rfl : (Db.oldest (s.db.derivedCandidates mode incoming.recipientHex) x.choice).map Invoice.id = b := by
    simpa [Stmt.exec] using hexec
  cases hd : Db.oldest (s.db.derivedCandidates mode incoming.recipientHex) x.choice with
  | some inv => exact Meets.soloRet ⟨rfl, Or.inl ⟨x, hx, rfl, by simp [Db.resolve, hd]⟩⟩
  | none =>
    -- no derived candidate, whatever breaks the ties
    have derived : ∀ n, Db.oldest (s.db.derivedCandidates mode incoming.recipientHex) n = none := fun n =>
      Db.oldest_eq_none.2 (Db.oldest_eq_none.1 hd)
    have amount : (∀ n, (incoming.memo.bind fun memo => Db.oldest (s.db.memoCandidates mode memo) n) = none) →
        Meets (request U P A gain) () (fun (r : Except SqlxError (Option String)) g' s' => s' = s ∧
          ((∃ x, OnSql A x ∧ g' = g ∧ r = .ok ((s.db.resolve s.now mode incoming x.choice).map Invoice.id)) ∨
            ∃ x e, OnSql A x ∧ x.fault ≠ none ∧ Undecided gain g g' ∧ r = .error e))
          (sql (.resolveAmount mode incoming.amount)).run g s := by
      intro memo
      rw [← Prog.bind_ret (sql (.resolveAmount mode incoming.amount)).run]
      refine request_matchRead hok (q := .resolveAmount mode incoming.amount) rfl trivial hP
        (fun _ _ h => by cases h) (fun y b hy hexec => ?_) failed
      obtain rfl : (Db.oldest (s.db.amountCandidates mode incoming.amount s.now) y.choice).map Invoice.id = b := by
        simpa [Stmt.exec] using hexec
      exact Meets.soloRet ⟨rfl, Or.inl ⟨y, hy, rfl, by simp [Db.resolve, derived, memo]⟩⟩
    cases hmemo : incoming.memo with
    | none => exact amount fun n => by rw [hmemo]; rfl
    | some text =>
      refine request_matchRead hok (q := .resolveMemo mode text) (f := ExceptT.bindCont _) rfl trivial hP
        (fun _ _ h => by cases h) (fun y b hy hexec => ?_) failed
      obtain rfl : (Db.oldest (s.db.memoCandidates mode text) y.choice).map Invoice.id = b := by
        simpa [Stmt.exec] using hexec
      cases hm : Db.oldest (s.db.memoCandidates mode text) y.choice with
      | some inv => exact Meets.soloRet ⟨rfl, Or.inl ⟨y, hy, rfl, by simp [Db.resolve, derived, hmemo, hm]⟩⟩
      | none =>
        refine amount fun n => ?_
        rw [hmemo]
        exact Db.oldest_eq_none.2 (Db.oldest_eq_none.1 hm)

/-- Marking the resolved invoice paid. -/
theorem request_markMatched (hP : P g s) (i : String) :
    Meets (request U P A gain) () (fun (r : Except SqlxError Unit) g' s' => match r with
      | .ok _ => g' = g ∧ s' = s.exec (.markPaid i incoming.slateId) 0
      | .error _ => s' = s ∧ Undecided gain g g' ∧ ∃ x, OnSql A x ∧ x.fault ≠ none)
      (Matching.markMatched incoming.slateId (some i)).run g s := by
  refine request_sqlThen hP (fun x b hx _ _ => ?_) fun x e hx he => ?_
  · rw [hok (.markPaid i incoming.slateId) b rfl]
    exact Meets.soloRet ⟨rfl, rfl⟩
  · exact ⟨rfl, ⟨_, .markPaid i incoming.slateId, e, rfl, rfl⟩, x, hx, fault_of_error he fun _ h => by cases h⟩

/-- `match_payment` ends in one of the ways of `Matching.Ends`. -/
theorem request_matchPayment (hP : P g s)
    (hpaid : ∀ x inv, OnSql A x → s.db.resolve s.now mode incoming x.choice = some inv →
      Matching.mismatch incoming.amount inv.expectedAmount = none →
      P g (s.exec (.markPaid inv.id incoming.slateId) 0)) :
    Meets (request U P A gain) () (fun r g' s' => Matching.Ends (OnSql A) gain mode incoming g s r g' s')
      (Matching.matchPayment mode incoming).run g s := by
  have failed : ∀ (x : Answer) (e : SqlxError) (g' : Own), OnSql A x → x.fault ≠ none → Undecided gain g g' →
      Meets (request U P A gain) () (fun r g' s' => Matching.Ends (OnSql A) gain mode incoming g s r g' s') (.ret (.error e)) g' s :=
    fun x e g' hx hf hg => Meets.soloRet (.failed hx hf hg)
  refine request_matchRead hok (q := .userForPubkey incoming.recipientHex) (f := ExceptT.bindCont _) rfl trivial
    hP (fun _ _ h => by cases h) (fun z user hz hexec => ?_) failed
  have owner : ∃ y, OnSql A y ∧ s.db.ownerAt incoming.recipientHex y.choice = user.map Prod.fst := by
    refine ⟨z, hz, ?_⟩
    obtain rfl : (pick (s.db.endpub.select fun ep => ep.pubkey = incoming.recipientHex) z.choice).map Endpub.key = user := by
      simpa [Stmt.exec] using hexec
    rw [Option.map_map]
    rfl
  refine Meets.andThen (f := ExceptT.bindCont _) (request_resolve hok hP) fun r g' s' _ hr => ?_
  obtain ⟨rfl, ⟨x, hx, rfl, rfl⟩ | ⟨x, e, hx, hf, hg, rfl⟩⟩ := hr
  swap
  · exact failed x e g' hx hf hg
  cases hres : s'.db.resolve s'.now mode incoming x.choice with
  | none =>
    refine request_sqlThen hP (fun y b hy _ _ => ?_) fun y e hy he =>
      .forgotten hx hres hy (fault_of_error he fun _ h => by cases h)
    rw [hok (.linkPayment incoming.slateId none (user.map Prod.fst)) b rfl]
    exact Meets.soloRet (.unmatched hx hres owner)
  | some inv =>
    obtain ⟨hget, hopen⟩ := Db.get_of_resolve hres
    have expected : ∀ n, ((Stmt.expectedAmount inv.id).exec s'.now n s'.db).1 = .ok inv.expectedAmount := fun n => by
      simp [Stmt.exec, hget]
    refine request_matchRead hok (q := .expectedAmount inv.id) (f := ExceptT.bindCont _) rfl trivial hP
      (fun n e h => by rw [expected] at h; cases h) (fun y b hy hexec => ?_) failed
    obtain rfl : inv.expectedAmount = b := by
      rw [expected] at hexec
      exact Except.ok.inj hexec
    cases hm : Matching.mismatch incoming.amount inv.expectedAmount with
    | some m =>
      simp only [ExceptT.bindCont, hm]
      exact Meets.soloRet (.rejected hx hres hm)
    | none =>
      simp only [ExceptT.bindCont, hm]
      refine Meets.tryThen (request_markMatched hok hP inv.id) (fun _ g'' s'' _ hr => ?_) fun e g'' s'' _ hr => ?_
      · obtain ⟨rfl, rfl⟩ := hr
        refine request_sqlThen (hpaid x inv hx hres hm) (fun z b _ _ _ => ?_) fun z e hz he =>
          .unlinked hx hres hm hz (fault_of_error he fun _ h => by cases h)
        rw [hok (.linkPayment incoming.slateId (some inv.id) (user.map Prod.fst)) b rfl]
        exact Meets.soloRet (.settled hx hres hm owner)
      · obtain ⟨rfl, hfailed, z, hz, hf⟩ := hr
        exact failed z e g'' hz hf hfailed

end

end

end GoblinPay
