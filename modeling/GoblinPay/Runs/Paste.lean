import GoblinPay.Runs.Invites

/-!
# The paste form

The form on the page of an invoice reads its row, expired lazily, and re-enters the resolvers with the
row's recipient and order reference. Nothing pins the match to the page's invoice.
-/

namespace GoblinPay

open Async Sql

section

variable {W : Type} (U : Upstream W) (cfg : Config)

/-- The ledger once the page's read has expired what it reads. -/
def World.lapsed (w : World W) (token : String) : World W := w.exec (.expireIfDueToken token) 0

/-- The door the form of the page of `X` opens for a pasted S1. -/
def pasteDoor (armor : String) (X : Invoice) : Door := .paste (Text.trim armor) X

/-- In an execution on `xs`, the form of the page of `X` answers a slate of `amount` with the S2 only if it
pays exactly `N` and `X` is what becomes paid by it, and it settles no other invoice. -/
structure Pinned (token armor : String) (w : World W) (X : Invoice) (N : Int64) (amount : UInt64) (xs : List Answer) : Prop where
  replies : ∀ res, ((Checkout.manualSlatepack U cfg token armor).exec (handler U) xs w).1 = .ret (.ok res) → res.ok = true →
    (amount.toNat : Int) = N.toInt ∧ SettledAlone w ((Checkout.manualSlatepack U cfg token armor).exec (handler U) xs w).2 X.id
  others : ∀ j, Settled w ((Checkout.manualSlatepack U cfg token armor).exec (handler U) xs w).2 j → j = X.id

variable {U cfg} {A : {β : Type} → Eff β → Answer → Prop} {s : World W} {token armor : String} {X : Invoice}

theorem World.lapsed_same (s : World W) (token : String) : SameSettled s (s.lapsed token) := .of_exec rfl

/-- The page's read. -/
theorem request_getByToken {Q : Bool → World W → Prop} (hQ : Q false s) (hQ' : Q false (s.lapsed token)) :
    Meets (matching U Q A) () (fun (r : Except SqlxError (Option Invoice)) g s' => g = false ∧
      ((∃ e, r = .error e ∧ Faulty A ∧ SameSettled s s') ∨
        s' = s.lapsed token ∧ r = .ok ((s.lapsed token).db.invoice.rows.find? fun inv => inv.token = some token)))
      (Invoice.getByToken token).run false s := by
  refine request_sqlThen hQ (fun x b _ _ _ => ?_) fun x e hx he => ?_
  · rw [undecided_ok]
    change Meets _ _ _ (sql (.selectByToken token)).run _ (s.lapsed token)
    rw [← Prog.bind_ret (sql (.selectByToken token)).run]
    refine request_sql hQ' (fun x b _ _ hb => ?_) fun x e hx he => ?_
    · rw [World.exec_read (q := .selectByToken token) trivial, undecided_ok]
      exact Meets.soloRet ⟨rfl, Or.inr ⟨rfl, hb.symm⟩⟩
    · obtain ⟨_, _, hx'⟩ := hx
      exact Meets.soloRet ⟨undecided_other _ rfl, Or.inl ⟨e, rfl, ⟨_, _, x, hx', fault_of_error he fun _ h => by cases h⟩,
        World.lapsed_same s token⟩⟩
  · obtain ⟨_, _, hx'⟩ := hx
    exact ⟨undecided_other _ rfl, Or.inl ⟨e, rfl, ⟨_, _, x, hx', fault_of_error he fun _ h => by cases h⟩, .refl s⟩⟩

/-- The ways the form can end for a pasted S1: without a look at the slate, or as the door of the page's
row does. -/
inductive PageEnds (U : Upstream W) (A : {β : Type} → Eff β → Answer → Prop) (cfg : Config) (d : Door) (s : World W) :
    Bool → Except HttpError PasteResult → World W → Prop
  /-- the page's read or the decoding failed -/
  | faulted {r : Except HttpError PasteResult} {s' : World W} (fault : Faulty A) (silent : ∀ res, r = .ok res → res.ok = false) :
      PageEnds U A cfg d s false r s'
  | unloaded {res : PasteResult} {s' : World W} (unloaded : cfg.walletLoaded = false) (silent : res.ok = false) :
      PageEnds U A cfg d s false (.ok res) s'
  | door {g : Bool} {res : PasteResult} {s' : World W} (loaded : cfg.walletLoaded = true) (ends : Door.Ends U A cfg d s g res.ok s') :
      PageEnds U A cfg d s g (.ok res) s'

/-- What the form can settle. -/
abbrev PageLanded (U : Upstream W) (A : {β : Type} → Eff β → Answer → Prop) (cfg : Config) (d : Door) (s : World W) :
    World W → Bool → World W → Prop :=
  Landed fun j => cfg.walletLoaded = true ∧ d.Lands U A cfg s j

variable (cfg) in
/-- The form, for a pasted S1. -/
theorem request_manualSlatepack {slate : Slate}
    (hX : ((s.lapsed token).db.invoice.rows.find? fun inv => inv.token = some token) = some X)
    (hS1 : (pasteDoor armor X).sent U s.wallet = some slate) :
    Meets (matching U (PageLanded U A cfg (pasteDoor armor X) (s.lapsed token) s) A) ()
      (fun r g s' => PageLanded U A cfg (pasteDoor armor X) (s.lapsed token) s g s' ∧
        PageEnds U A cfg (pasteDoor armor X) (s.lapsed token) g r s')
      (Checkout.manualSlatepack U cfg token armor) false s := by
  have lapsed := World.lapsed_same s token
  refine Meets.andThen (request_getByToken (.same (.refl s) false) (.same lapsed false)) fun r g s' _ hr => ?_
  obtain ⟨rfl, ⟨e, rfl, hfault, same⟩ | ⟨rfl, rfl⟩⟩ := hr
  · exact Meets.soloRet ⟨.same same false, .faulted hfault fun _ h => by cases h⟩
  rw [hX]
  by_cases hloaded : cfg.walletLoaded = true
  swap
  · simp only [hloaded, Bool.false_eq_true, if_false]
    exact Meets.soloRet ⟨.same lapsed false, .unloaded (by simpa using hloaded) rfl⟩
  obtain ⟨hdecode, hstate⟩ : U.slateFromSlatepackMessage s.wallet (Text.trim (Text.trim armor)) = .ok slate ∧
      slate.state = .standard1 := by
    obtain ⟨hdecode, hstate⟩ := Option.filter_eq_some_iff.1 hS1
    refine ⟨?_, by simpa using hstate⟩
    cases hr : U.slateFromSlatepackMessage s.wallet (Text.trim (Text.trim armor)) with
    | error e =>
      rw [hr] at hdecode
      cases hdecode
    | ok slate' =>
      rw [hr] at hdecode
      cases hdecode
      rfl
  simp only [hloaded, if_true]
  refine Meets.andThen (I := fun (r : Except WalletError (String × SlateState)) g s' => g = false ∧ s' = s.lapsed token ∧
    ((∃ e, r = .error e) ∧ Faulty A ∨ r = .ok (slate.id, .standard1))) ?_ fun r g s' _ hr => ?_
  · refine request_upstream (.same lapsed false) (fun x a hx ha => ?_) fun x m hx hm => ?_
    · obtain ⟨-, hread⟩ := Answer.of_orElse_ok ha
      obtain rfl : slate = a := Except.ok.inj (hdecode.symm.trans hread)
      exact Meets.soloRet ⟨rfl, rfl, Or.inr (by rw [← hstate])⟩
    · rcases Answer.of_orElse_error hm with hf | hread
      · exact ⟨rfl, rfl, Or.inl ⟨⟨_, rfl⟩, _, _, x, hx, hf⟩⟩
      · cases hdecode.symm.trans hread
  · obtain ⟨rfl, rfl, ⟨⟨e, rfl⟩, hfault⟩ | rfl⟩ := hr
    · refine Meets.soloRet ⟨.same lapsed false, .faulted hfault fun res h => ?_⟩
      cases h
      rfl
    · have landed : ∀ {g : Bool} {s' : World W}, Landed ((pasteDoor armor X).Lands U A cfg (s.lapsed token)) (s.lapsed token) g s' →
          PageLanded U A cfg (pasteDoor armor X) (s.lapsed token) s g s' := fun h j hj =>
        have ⟨hg, hlands⟩ := h j (lapsed.before.1 hj)
        ⟨hg, hloaded, hlands⟩
      refine Meets.andThen (Meets.of_map (f := PasteResult.ok) (request_door (d := pasteDoor armor X) fun g s' hs' => landed hs'))
        fun res g s' _ hr => ?_
      exact Meets.soloRet ⟨landed hr.2, .door hloaded hr.1⟩

/-- The page's read finds the row of `X` with its terms. -/
theorem find_lapsed {w : World W} (hX : (w.db.invoice.rows.find? fun inv => inv.token = some token) = some X) :
    ∃ Y, ((w.lapsed token).db.invoice.rows.find? fun inv => inv.token = some token) = some Y ∧
      Y.id = X.id ∧ Y.expectedAmount = X.expectedAmount ∧ Y.recipientPubkey = X.recipientPubkey ∧ Y.orderRef = X.orderRef := by
  have kept : ((w.lapsed token).db.invoice.rows.find? fun inv => inv.token = some token) =
      (w.db.invoice.rows.find? fun inv => inv.token = some token).map fun r =>
        if r.token = some token && r.overdue w.now then r.expire else r := by
    simp only [World.lapsed, World.exec, Stmt.exec, Db.setInvoice, Table.update, List.find?_map]
    congr 2
    funext r
    simp only [Function.comp]
    split <;> rfl
  refine ⟨if X.token = some token && X.overdue w.now then X.expire else X, by rw [kept, hX]; rfl, ?_⟩
  split <;> exact ⟨rfl, rfl, rfl, rfl⟩

/-- What the guard lets pass for the row of `X` is exactly `N` unless `N` is negative. -/
theorem exact_iff {amount : UInt64} {N : Int64} (guard : Matching.mismatch amount (some N) = none) :
    (amount.toNat : Int) = N.toInt ↔ 0 ≤ N := by
  have hamount : amount = Matching.clamp N := by
    by_contra hne
    simp [Matching.mismatch, hne] at guard
  rw [hamount, Matching.toNat_clamp]

/-- Every invoice the payment leads to from the form of the page of `X`. -/
def PasteLeads (cfg : Config) (token armor : String) (w : World W) (X : Invoice) (slate : Slate) (inv : Invoice) : Prop :=
  (w.lapsed token).db.Leads w.now cfg.matchMode ((pasteDoor armor X).incoming slate) inv

/-! ## One execution -/

section Execution

variable {w : World W} {X Y : Invoice} {N : Int64} {slate : Slate} {xs : List Answer}

/-- An execution in which a statement that decides the match failed, and that answered, handed the S2
back for nothing. -/
theorem pinned_of_failed (hY : ((w.lapsed token).db.invoice.rows.find? fun inv => inv.token = some token) = some Y)
    (hS1 : (pasteDoor armor Y).sent U w.wallet = some slate)
    (failed : matchFailed U (Checkout.manualSlatepack U cfg token armor) xs w = true) :
    Pinned U cfg token armor w X N slate.amount xs ↔
      ∀ r, ((Checkout.manualSlatepack U cfg token armor).exec (handler U) xs w).1 ≠ .ret r := by
  rcases (request_manualSlatepack cfg (A := fun _ _ => True) hY hS1).soloExec xs (fun _ _ => trivial) with
    ⟨r, hr, landed, hends⟩ | ⟨hstopped, landed⟩
  · change PageLanded U _ cfg (pasteDoor armor Y) (w.lapsed token) w (matchFailed U (Checkout.manualSlatepack U cfg token armor) xs w) _ at landed
    change PageEnds U _ cfg (pasteDoor armor Y) (w.lapsed token) (matchFailed U (Checkout.manualSlatepack U cfg token armor) xs w) r _ at hends
    rw [failed] at landed hends
    have unsettled : ∀ j, ¬ Settled w ((Checkout.manualSlatepack U cfg token armor).exec (handler U) xs w).2 j :=
      fun j hj => Bool.noConfusion (landed j hj).1
    refine iff_of_false (fun pinned => ?_) fun h => h r hr
    generalize ((Checkout.manualSlatepack U cfg token armor).exec (handler U) xs w).2 = w' at hends
    cases hends with
    | @door _ res _ loaded ends =>
      have hok : res.ok = true := by
        generalize res.ok = b at ends
        cases ends
        rfl
      exact unsettled X.id (((pinned.replies res hr hok).2.only X.id).2 rfl)
  · change PageLanded U _ cfg (pasteDoor armor Y) (w.lapsed token) w (matchFailed U (Checkout.manualSlatepack U cfg token armor) xs w) _ at landed
    rw [failed] at landed
    exact iff_of_true ⟨fun res hret => absurd hret (hstopped _), fun j hj => Bool.noConfusion (landed j hj).1⟩ hstopped

/-- The payment leads to what the resolvers find for some choice. -/
theorem pasteLeads_iff {inv : Invoice} : PasteLeads cfg token armor w Y slate inv ↔ ∃ n,
    (w.lapsed token).db.resolve (w.lapsed token).now ((pasteDoor armor Y).mode cfg) ((pasteDoor armor Y).incoming slate) n =
      some inv :=
  Db.leads_iff

/-- What the guard lets pass for the row of the page. -/
theorem exact_of_leads {inv : Invoice} (hget : (w.lapsed token).db.invoice.get X.id = some Y) (hN : Y.expectedAmount = some N)
    (hleads : PasteLeads cfg token armor w Y slate inv) (hinv : inv.id = X.id)
    (guard : Matching.mismatch slate.amount inv.expectedAmount = none) : (slate.amount.toNat : Int) = N.toInt ↔ 0 ≤ N := by
  have row := hleads.get
  rw [hinv, hget] at row
  obtain rfl := Option.some.inj row
  rw [hN] at guard
  exact exact_iff guard

/-- An execution whose match was decided is pinned where the payment leads to `X` alone. -/
theorem pinned_of_leads (hY : ((w.lapsed token).db.invoice.rows.find? fun inv => inv.token = some token) = some Y)
    (hget : (w.lapsed token).db.invoice.get X.id = some Y) (hN : Y.expectedAmount = some N)
    (hS1 : (pasteDoor armor Y).sent U w.wallet = some slate)
    (leads : cfg.walletLoaded = true → (pasteDoor armor Y).Takeable U w.wallet →
      (∃ inv, PasteLeads cfg token armor w Y slate inv) ∧ ∀ inv, PasteLeads cfg token armor w Y slate inv →
        (inv.id = X.id ∧ 0 ≤ N) ∨ Matching.mismatch slate.amount inv.expectedAmount ≠ none)
    (decided : matchFailed U (Checkout.manualSlatepack U cfg token armor) xs w = false) :
    Pinned U cfg token armor w X N slate.amount xs := by
  have carried : ∀ {slate'}, (pasteDoor armor Y).sent U (w.lapsed token).wallet = some slate' → slate' = slate := fun h =>
    Option.some.inj (h.symm.trans hS1)
  have others : ∀ {g w'}, PageLanded U (fun _ _ => True) cfg (pasteDoor armor Y) (w.lapsed token) w g w' →
      ∀ j, Settled w w' j → j = X.id := by
    intro g w' landed j hj
    obtain ⟨-, hloaded, slate', sent, takes, y, inv, -, resolved, guard, rfl⟩ := landed j hj
    obtain rfl := carried sent
    exact (((leads hloaded takes).2 inv (pasteLeads_iff.2 ⟨_, resolved⟩)).resolve_right fun hne => hne guard).1
  rcases (request_manualSlatepack cfg (A := fun _ _ => True) hY hS1).soloExec xs (fun _ _ => trivial) with
    ⟨r, hr, landed, hends⟩ | ⟨hstopped, landed⟩
  swap
  · exact ⟨fun res hret => absurd hret (hstopped _), others landed⟩
  refine ⟨fun res hret hok => ?_, others landed⟩
  change PageEnds U _ cfg (pasteDoor armor Y) (w.lapsed token) (matchFailed U (Checkout.manualSlatepack U cfg token armor) xs w) r _ at hends
  rw [decided] at hends
  obtain rfl : r = .ok res := by
    rw [hr] at hret
    cases hret
    rfl
  generalize ((Checkout.manualSlatepack U cfg token armor).exec (handler U) xs w).2 = w' at hends
  cases hends with
  | faulted _ silent =>
    rw [silent res rfl] at hok
    cases hok
  | unloaded _ silent =>
    rw [silent] at hok
    cases hok
  | door hloaded ends =>
    rw [hok] at ends
    generalize hb : true = b at ends
    cases ends with
    | declined | refused | rejected => cases hb
    | unmatched sent takes _ resolved =>
      obtain rfl := carried sent
      obtain ⟨⟨inv, hleads⟩, -⟩ := leads hloaded takes
      exact absurd hleads (Db.not_leads_of_resolve resolved inv)
    | settled sent takes _ resolved guard settles =>
      obtain rfl := carried sent
      have hleads := pasteLeads_iff.2 ⟨_, resolved⟩
      obtain ⟨hinv, hpos⟩ := ((leads hloaded takes).2 _ hleads).resolve_right fun hne => hne guard
      rw [← hinv]
      exact ⟨(exact_of_leads hget hN hleads hinv guard).2 hpos, settles.before (World.lapsed_same w token).symm⟩

/-- A form with a wallet that takes the slate can end as the resolvers decide, for every choice among the
ties, and no statement fails. -/
theorem page_runs (hY : ((w.lapsed token).db.invoice.rows.find? fun inv => inv.token = some token) = some Y)
    (hS1 : (pasteDoor armor Y).sent U w.wallet = some slate) (hloaded : cfg.walletLoaded = true)
    (htakes : (pasteDoor armor Y).Takeable U w.wallet) (n : Nat) :
    ∃ xs res, ((Checkout.manualSlatepack U cfg token armor).exec (handler U) xs w).1 = .ret (.ok res) ∧
      matchFailed U (Checkout.manualSlatepack U cfg token armor) xs w = false ∧
      (pasteDoor armor Y).Decided cfg slate (w.lapsed token) n res.ok
        ((Checkout.manualSlatepack U cfg token armor).exec (handler U) xs w).2 := by
  obtain ⟨x₀, hf, htakes⟩ := htakes
  have smoothly : ¬ Faulty fun {β : Type} (e : Eff β) x => x = smooth x₀ n e := by
    rintro ⟨β, e, x, rfl, fault⟩
    exact fault (smooth_fault hf n e)
  obtain ⟨xs, a, hret, hev, -⟩ := Prog.exec_total (handler U) () (smooth x₀ n) (Checkout.manualSlatepack U cfg token armor) w
  rcases (request_manualSlatepack cfg (A := fun e x => x = smooth x₀ n e) hY hS1).soloExec xs hev with ⟨r, hr, -, hends⟩ | ⟨hstopped, -⟩
  swap
  · exact absurd hret (hstopped a)
  change PageEnds U _ cfg (pasteDoor armor Y) (w.lapsed token) (matchFailed U (Checkout.manualSlatepack U cfg token armor) xs w) r _ at hends
  generalize hg : matchFailed U (Checkout.manualSlatepack U cfg token armor) xs w = g at hends
  cases hends with
  | faulted fault => exact absurd fault smoothly
  | unloaded hno =>
    rw [hloaded] at hno
    cases hno
  | @door _ res _ _ ends =>
    refine ⟨xs, res, hr, ?_, ends.decided hS1 hf htakes⟩
    rw [hg]
    by_contra failed
    rw [Bool.not_eq_false] at failed
    rw [failed] at ends
    generalize res.ok = b, ((Checkout.manualSlatepack U cfg token armor).exec (handler U) xs w).2 = w' at ends
    cases ends with
    | failed fault => exact smoothly fault

/-- Where every such execution is pinned, the payment leads to `X` or is refused. -/
theorem leads_of_pinned (hY : ((w.lapsed token).db.invoice.rows.find? fun inv => inv.token = some token) = some Y)
    (hget : (w.lapsed token).db.invoice.get X.id = some Y) (hN : Y.expectedAmount = some N)
    (hS1 : (pasteDoor armor Y).sent U w.wallet = some slate) (hloaded : cfg.walletLoaded = true)
    (htakes : (pasteDoor armor Y).Takeable U w.wallet)
    (pinned : ∀ xs, matchFailed U (Checkout.manualSlatepack U cfg token armor) xs w = false →
      Pinned U cfg token armor w X N slate.amount xs) :
    (∃ inv, PasteLeads cfg token armor w Y slate inv) ∧ ∀ inv, PasteLeads cfg token armor w Y slate inv →
      (inv.id = X.id ∧ 0 ≤ N) ∨ Matching.mismatch slate.amount inv.expectedAmount ≠ none := by
  have lapsed := World.lapsed_same w token
  -- an S2 that settles nothing breaks the pin, so every choice finds an invoice
  have found : ∀ n, ∃ inv, (w.lapsed token).db.resolve (w.lapsed token).now ((pasteDoor armor Y).mode cfg)
      ((pasteDoor armor Y).incoming slate) n = some inv ∧
        ((inv.id = X.id ∧ 0 ≤ N) ∨ Matching.mismatch slate.amount inv.expectedAmount ≠ none) := by
    intro n
    obtain ⟨xs, res, hret, decided, ends⟩ := page_runs hY hS1 hloaded htakes n
    rcases ends with ⟨-, hok, unsettled⟩ | ⟨inv, resolved, ⟨m, guard, -, -⟩ | ⟨guard, hok, settles⟩⟩
    · obtain ⟨-, alone⟩ := (pinned xs decided).replies res hret hok
      exact absurd (lapsed.before.1 ((alone.only X.id).2 rfl)) (unsettled _)
    · exact ⟨inv, resolved, Or.inr (by rw [guard]; simp)⟩
    · obtain ⟨hexact, alone⟩ := (pinned xs decided).replies res hret hok
      have hinv := (alone.only inv.id).1 (lapsed.before.2 ((settles.only inv.id).2 rfl))
      have hleads := pasteLeads_iff.2 ⟨n, resolved⟩
      exact ⟨inv, resolved, Or.inl ⟨hinv, (exact_of_leads hget hN hleads hinv guard).1 hexact⟩⟩
  constructor
  · obtain ⟨inv, resolved, -⟩ := found 0
    exact ⟨inv, pasteLeads_iff.2 ⟨0, resolved⟩⟩
  · intro inv hleads
    obtain ⟨n, hn⟩ := pasteLeads_iff.1 hleads
    obtain ⟨inv', resolved, h⟩ := found n
    rw [hn] at resolved
    cases resolved
    exact h

end Execution

variable (U cfg) in
/-- Where no statement of the match before the link fails, the form of the page of `X` is pinned to `X` if
and only if it has no wallet, or the wallet does not take the slate, or the payment leads somewhere and,
wherever it leads, to `X` with an amount that is not negative or to an invoice that refuses its amount.
Where one fails, it is if and only if the process stops before it answers. -/
theorem pinned_iff (w : World W) (X : Invoice) {N : Int64} (slate : Slate)
    (hX : (w.db.invoice.rows.find? fun inv => inv.token = some token) = some X) (hN : X.expectedAmount = some N)
    (hS1 : (pasteDoor armor X).sent U w.wallet = some slate) :
    ((∀ xs, matchFailed U (Checkout.manualSlatepack U cfg token armor) xs w = false →
        Pinned U cfg token armor w X N slate.amount xs) ↔
      (cfg.walletLoaded = true → (pasteDoor armor X).Takeable U w.wallet →
        (∃ inv, PasteLeads cfg token armor w X slate inv) ∧
          ∀ inv, PasteLeads cfg token armor w X slate inv →
            (inv.id = X.id ∧ 0 ≤ N) ∨ Matching.mismatch slate.amount inv.expectedAmount ≠ none)) ∧
    ∀ xs, matchFailed U (Checkout.manualSlatepack U cfg token armor) xs w = true →
      (Pinned U cfg token armor w X N slate.amount xs ↔
        ∀ r, ((Checkout.manualSlatepack U cfg token armor).exec (handler U) xs w).1 ≠ .ret r) := by
  obtain ⟨Y, hY, hid, hamount, hrecipient, href⟩ := find_lapsed hX
  have hget : (w.lapsed token).db.invoice.get X.id = some Y := by
    rw [← hid]
    exact Table.get_of_mem (List.mem_of_find?_eq_some hY)
  have leads_iff : ∀ inv, PasteLeads cfg token armor w X slate inv ↔ PasteLeads cfg token armor w Y slate inv := by
    intro inv
    simp only [PasteLeads, pasteDoor, Door.incoming, Door.recipient, Door.memo, hrecipient, href]
  simp only [leads_iff]
  rw [← hamount] at hN
  refine ⟨⟨fun pinned hloaded htakes => leads_of_pinned hY hget hN hS1 hloaded htakes pinned,
    fun leads xs decided => pinned_of_leads hY hget hN hS1 leads decided⟩, fun xs failed => pinned_of_failed hY hS1 failed⟩

end

/-! ## Two pages -/

/-- `lateWorld` with a slate of 100 nanogrin in circulation. -/
def pasteWorld : World Sample.Wallet :=
  { lateWorld with wallet := { Sample.wallet with packs := [("pack", ⟨"t", .standard1, 100, none⟩)] } }

/-- On the page of the open invoice `b`, the form is pinned. -/
theorem page_pinned : Pinned Sample.upstream Sample.config "b" "pack" pasteWorld (lateInvoice "b" .amount 20) 100 100
    (List.replicate 16 {}) := by
  refine (pinned_iff Sample.upstream Sample.config pasteWorld (lateInvoice "b" .amount 20) ⟨"t", .standard1, 100, none⟩
    rfl rfl (by decide)).1.2 (fun _ _ => ⟨⟨_, Db.leads_iff.2 ⟨0, rfl⟩⟩, ?_⟩) _ (by decide)
  rintro inv (found | ⟨_, carries, _⟩ | ⟨_, _, found⟩)
  · cases found
  · cases carries
  · obtain rfl := List.mem_singleton.1 (show inv ∈ [lateInvoice "b" .amount 20] from found)
    exact Or.inl ⟨rfl, by decide⟩

/-- On the page of the expired invoice `a`, it hands the S2 back and settles `b`. -/
theorem page_unpinned : ¬ Pinned Sample.upstream Sample.config "a" "pack" pasteWorld (lateInvoice "a" .derived 10).expire 100 100
    (List.replicate 16 {}) := by
  intro pinned
  obtain ⟨inv, row, status⟩ : ∃ inv, ((Checkout.manualSlatepack Sample.upstream Sample.config "a" "pack").exec
      (handler Sample.upstream) (List.replicate 16 {}) pasteWorld).2.db.invoice.get "b" = some inv ∧ inv.status = .paid := by
    decide
  have := pinned.others "b" (.paid row status fun inv₀ h₀ => by
    obtain rfl : lateInvoice "b" .amount 20 = inv₀ := Option.some.inj h₀
    decide)
  exact absurd this (by decide)

end GoblinPay
