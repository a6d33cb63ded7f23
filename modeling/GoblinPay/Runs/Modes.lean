import GoblinPay.Runs.Identities
import GoblinPay.Sample

/-!
# Matching modes

An invoice stores the mode its request asked for and NULL where it asked for none, and every
query fills the NULL with the default it is handed. The recipient key is fixed at creation. So an
invoice keeps behaving as created under every default exactly when its request stated a mode.
-/

namespace GoblinPay

open Async Sql

section

variable {W : Type} (U : Upstream W)

/-- The operation created the invoice `i` for the request `body`. -/
structure CreatedFor (ev : Happening W) (cfg : Config) (body : CreateInvoiceBody) (i : String) : Prop where
  asked : ∃ ttl, ev.head.call = .createInvoice cfg ttl body
  absent : ev.state.db.invoice.get i = none
  created : ∃ inv, (ev.after (handler U)).db.invoice.get i = some inv

/-- Under the default mode `d`, the invoice behaves as under the configuration `cfg` it was created
with: the resolvers and the snapshot query select it in the same states, and its recipient key is
the one that goes with how it is matched. -/
structure KeepsBehaving (cfg : Config) (sk : Secret) (d : MatchMode) (inv : Invoice) (db : Db) : Prop where
  mode : inv.effectiveMode d = inv.effectiveMode cfg.matchMode
  derived : ∀ recipient, inv ∈ db.derivedCandidates d recipient ↔ inv ∈ db.derivedCandidates cfg.matchMode recipient
  memo : ∀ memo, inv ∈ db.memoCandidates d memo ↔ inv ∈ db.memoCandidates cfg.matchMode memo
  amount : ∀ amount now, inv ∈ db.amountCandidates d amount now ↔ inv ∈ db.amountCandidates cfg.matchMode amount now
  listed : (inv.id, inv.recipientPubkey) ∈ derivedRows { cfg with matchMode := d } db ↔
    (inv.id, inv.recipientPubkey) ∈ derivedRows cfg db
  onMaster : inv.effectiveMode cfg.matchMode ≠ .derived →
    inv.recipientPubkey = some (U.xonlyHex sk) ∧ ∀ recipient, inv ∉ db.derivedCandidates d recipient
  onChild : inv.effectiveMode cfg.matchMode = .derived →
    inv.recipientPubkey = some (Derive.invoicePubkeyHex U sk inv.id) ∧ (inv.status = .open →
      ∃ secret, (snapshotOf U { cfg with matchMode := d } sk db).lookup (Derive.invoicePubkeyHex U sk inv.id) =
        some secret)

/-- What a row that stores the mode `stored` and the key `recipient` for the invoice `i` owes its
request. -/
structure StoresMode (cfg : Config) (body : CreateInvoiceBody) (i : String) (stored : Option MatchMode)
    (recipient : Option String) : Prop where
  mode : stored = none ↔ body.matchMode = none
  key : ∃ sk, cfg.keys = some sk ∧ recipient = some (
    if stored.getD cfg.matchMode = .derived then Derive.invoicePubkeyHex U sk i else U.xonlyHex sk)

/-- What a call owes where it stores an invoice: the mode its request stated, and a recipient to
go with it. -/
def ModeWrite (h : Head Call (World W)) (_ : World W) (wr : Write) : Prop :=
  ∀ cfg ttl body row, h.call = .createInvoice cfg ttl body → wr = .create row →
    StoresMode U cfg body row.id row.matchMode (some row.recipientPubkey)

variable {U} {T : List (Happening W)} {h : Head Call (World W)} {g : Unit} {s : World W}

/-- Pricing leaves the mode alone. -/
theorem modes_priceIfFiat (ttl : Int64) (params : NewInvoice) :
    Meets (watch U T (ModeWrite U)) h (fun r _ _ => ∀ p, r = .ok p → p.matchMode = params.matchMode)
      (Invoices.priceIfFiat ttl params) g s := by
  have ended : ∀ (r : Except HttpError NewInvoice) g s, (∀ p, r = .ok p → p.matchMode = params.matchMode) →
      Meets (watch U T (ModeWrite U)) h (fun r _ _ => ∀ p, r = .ok p → p.matchMode = params.matchMode) (.ret r) g s :=
    fun _ _ _ hr _ _ _ => hr
  unfold Invoices.priceIfFiat
  split
  · refine Meets.andThen (I := fun _ _ _ => True) (watch_of_quiet (Prog.Only.call rfl)) fun r g s _ _ => ?_
    split
    · refine ended _ _ _ fun p hp => ?_
      cases hp
      rfl
    · exact ended _ _ _ fun p hp => by cases hp
  · refine ended _ _ _ fun p hp => ?_
    cases hp
    rfl

/-- What is inserted for a request stores its mode. -/
theorem modes_createWith {cfg : Config} {ttl : Int64} {body : CreateInvoiceBody} {sk : Secret} {params : NewInvoice}
    (hcall : h.call = .createInvoice cfg ttl body) (hkeys : cfg.keys = some sk)
    (hmode : params.matchMode = none ↔ body.matchMode = none) :
    Meets (watch U T (ModeWrite U)) h (fun _ _ _ => True) (Invoices.createWith U cfg sk params) g s := by
  refine watch_of_writes (Invoices.footprint_createWith
    (P := fun wr => (∃ id token, wr = .create (Invoice.row U params sk (U.xonlyHex sk) cfg.matchMode id token)) ∨
      ∃ i sid, wr = .arm i sid) U cfg sk params (fun id token => Or.inl ⟨id, token, rfl⟩)
    fun i sid => Or.inr ⟨i, sid, rfl⟩).writes ?_
  rintro wr s hwr cfg' ttl' body' row hcall' rfl
  rw [hcall] at hcall'
  cases hcall'
  obtain ⟨id, token, hrow⟩ | ⟨i, sid, harm⟩ := hwr
  · cases hrow
    exact ⟨hmode, sk, hkeys, rfl⟩
  · cases harm

theorem modes_createInvoice {cfg : Config} {ttl : Int64} {body : CreateInvoiceBody}
    (hcall : h.call = .createInvoice cfg ttl body) :
    Meets (watch U T (ModeWrite U)) h (fun _ _ _ => True) (Invoices.createInvoice U cfg ttl body) g s := by
  have ended : ∀ (r : Except HttpError Invoice) g s,
      Meets (watch U T (ModeWrite U)) h (fun _ _ _ => True) (.ret r) g s := fun _ _ _ _ _ _ => trivial
  unfold Invoices.createInvoice
  split
  · exact ended _ _ _
  · rename_i sk hkeys
    split
    · exact ended _ _ _
    · exact ended _ _ _
    · rename_i amount matchMode _ hbody
      have hmode : matchMode = none ↔ body.matchMode = none := by
        unfold Invoices.bodyMode at hbody
        split at hbody
        · rename_i hnone
          cases hbody
          exact iff_of_true rfl hnone
        · rename_i m hsome
          split at hbody
          · cases hbody
            exact iff_of_false (by simp) (by simp [hsome])
          · cases hbody
      refine Meets.andThen (modes_priceIfFiat ttl _) fun r g s _ hr => ?_
      split
      · exact ended _ _ _
      · rename_i params
        refine modes_createWith hcall hkeys ?_
        rw [hr params rfl]
        exact hmode

theorem modes_call (c : Call) (s : World W) :
    Meets (watch U T (ModeWrite U)) ⟨c, s⟩ (fun _ _ _ => True) (code U c) () s := by
  by_cases hrail : c.IsRail
  · refine watch_rail (fun wr s hwr cfg ttl body row hcall hrow => ?_) hrail
    subst hrow
    exact hwr.elim
  · cases c with
    | createInvoice cfg ttl body => exact (modes_createInvoice rfl).andThen fun _ _ _ _ _ _ _ _ => trivial
    | _ =>
      refine watch_of_writes (Call.writes U hrail) fun wr s hwr cfg ttl body row hcall hrow => ?_
      cases hcall

/-! ## Runs -/

/-- The row of an invoice created in a run stores what its request stated, to the end of the run. -/
theorem storesMode_run {w : World W} {ms : Run} {ev : Happening W} (hev : ev ∈ history U w ms) {cfg : Config}
    {body : CreateInvoiceBody} {i : String} (hc : CreatedFor U ev cfg body i) {inv : Invoice}
    (hget : (after U w ms).state.db.invoice.get i = some inv) :
    StoresMode U cfg body inv.id inv.matchMode inv.recipientPubkey := by
  obtain ⟨ttl, hcall⟩ := hc.asked
  obtain ⟨inv₀, hget₀⟩ := hc.created
  have change := ev.eff.invoice_change U ev.input ev.state i
  have hafter : (act U ev.input ev.state ev.eff).2.db.invoice.get i = some inv₀ := hget₀
  rw [hc.absent, hafter] at change
  cases change with
  | create hby hid =>
    have stored := watch_run modes_call hev hby cfg ttl body _ hcall rfl
    obtain ⟨inv', hget', hterms⟩ := terms_kept_after hev i _ hget₀
    obtain rfl : inv' = inv := Option.some.inj (hget'.symm.trans hget)
    rw [Table.key_of_get hget, hterms.matchMode, hterms.recipientPubkey, ← hid]
    exact stored

theorem openIn_congr {inv : Invoice} {d d' : MatchMode} (h : inv.effectiveMode d' = inv.effectiveMode d) (mode : MatchMode) :
    inv.openIn d' mode = inv.openIn d mode := by
  simp only [Invoice.openIn, h]

variable (U) in
/-- Every invoice of the run keeps behaving as created, whatever the default mode becomes. -/
def BehavesAsCreated (w : World W) (ms : Run) : Prop :=
  ∀ ev ∈ history U w ms, ∀ cfg body i sk, CreatedFor U ev cfg body i → cfg.keys = some sk → ∀ inv,
    (after U w ms).state.db.invoice.get i = some inv → ∀ d, KeepsBehaving U cfg sk d inv (after U w ms).state.db

/-- In every run, an invoice keeps behaving as created under the default `d` if and only if its
request stated a mode or `d` is the default it was created under. -/
theorem keepsBehaving_iff (U : Upstream W) (w : World W) (ms : Run) {ev : Happening W} (hev : ev ∈ history U w ms)
    {cfg : Config} {body : CreateInvoiceBody} {i : String} {sk : Secret} (hc : CreatedFor U ev cfg body i)
    (hkeys : cfg.keys = some sk) {inv : Invoice} (hget : (after U w ms).state.db.invoice.get i = some inv)
    (d : MatchMode) :
    KeepsBehaving U cfg sk d inv (after U w ms).state.db ↔ body.matchMode ≠ none ∨ d = cfg.matchMode := by
  have stored := storesMode_run hev hc hget
  obtain ⟨sk', hkeys', hrecipient⟩ := stored.key
  rw [← Invoice.effectiveMode] at hrecipient
  obtain rfl : sk = sk' := Option.some.inj (hkeys.symm.trans hkeys')
  generalize (after U w ms).state.db = db at hget ⊢
  constructor
  · intro keeps
    by_cases hmode : body.matchMode = none
    · -- no stored mode: the effective mode is the default
      have hnone := stored.mode.2 hmode
      have := keeps.mode
      rw [Invoice.effectiveMode, Invoice.effectiveMode, hnone] at this
      exact Or.inr this
    · exact Or.inl hmode
  · intro hcond
    have same : inv.effectiveMode d = inv.effectiveMode cfg.matchMode := by
      obtain hmode | rfl := hcond
      · obtain ⟨m, hm⟩ := Option.ne_none_iff_exists'.1 (mt stored.mode.1 hmode)
        rw [Invoice.effectiveMode, Invoice.effectiveMode, hm]
        rfl
      · rfl
    have opens := openIn_congr same
    have selected : ∀ (p : Invoice → Bool), inv ∈ db.invoice.select p ↔ p inv = true := fun p => by
      rw [Table.mem_select, Table.key_of_get hget]
      simp [hget]
    refine ⟨same, fun r => ?_, fun memo => ?_, fun amount now => ?_, ?_, fun hne => ⟨?_, fun r hmem => ?_⟩,
      fun hderived => ⟨?_, fun hopen => ?_⟩⟩
    · simp only [Db.derivedCandidates, selected, opens]
    · simp only [Db.memoCandidates, selected, opens]
    · simp only [Db.amountCandidates, selected, opens]
    · have listed : ∀ c : Config, (inv.id, inv.recipientPubkey) ∈ derivedRows c db ↔ inv.openIn c.matchMode .derived = true := by
        intro c
        rw [derivedRows, List.mem_map]
        constructor
        · rintro ⟨inv', hmem, hpair⟩
          obtain ⟨hget', hopen⟩ := Table.mem_select.1 hmem
          obtain rfl : inv' = inv := by
            rw [(Prod.mk.inj hpair).1, Table.key_of_get hget, hget] at hget'
            exact (Option.some.inj hget').symm
          exact hopen
        · intro hopen
          exact ⟨inv, (selected _).2 hopen, rfl⟩
      rw [listed, listed, opens]
    · rw [hrecipient, if_neg hne]
    · simp only [Db.derivedCandidates, selected, Invoice.openIn, Bool.and_eq_true, decide_eq_true_eq] at hmem
      exact hne (same.symm.trans hmem.2.2)
    · rw [hrecipient, if_pos hderived]
    · refine Snapshot.lookup_foldl (f := Endpub.pubkey) (Or.inr (Snapshot.lookup_foldl
        (f := fun row : String × Option String => row.2.getD (Derive.invoicePubkeyHex U sk row.1)) (Or.inl ?_)))
      refine ⟨(inv.id, inv.recipientPubkey), List.mem_map.2 ⟨inv, (selected _).2 ?_, rfl⟩, ?_⟩
      · simp [Invoice.openIn, hopen, same, hderived]
      · rw [hrecipient, if_pos hderived]
        rfl

end

/-! ## Two requests -/

/-- `POST /invoice` for 100 under the default `memo`, with or without a mode of its own. -/
def modeRun (mode : Option String) : Run :=
  [.start (.createInvoice Sample.config 900 { amountGrin := some 100, matchMode := mode }),
   .run 0 { text := "i" }, .run 0 { text := "tok" }, .run 0 {}, .run 0 {}, .run 0 {}]

theorem modeRun_created (mode : Option String) (h : mode = none ∨ mode = some "memo") :
    CreatedFor Sample.upstream ((history Sample.upstream Sample.world (modeRun mode)).get
      ⟨2, by obtain rfl | rfl := h <;> decide⟩) Sample.config { amountGrin := some 100, matchMode := mode } "i" := by
  obtain rfl | rfl := h <;> exact ⟨⟨_, rfl⟩, by decide, Option.isSome_iff_exists.1 (by decide)⟩

/-- A stated mode outlives every change of the default. -/
theorem modeRun_stated : ∃ inv, (after Sample.upstream Sample.world (modeRun (some "memo"))).state.db.invoice.get "i" =
    some inv ∧ KeepsBehaving Sample.upstream Sample.config [109] .derived inv
      (after Sample.upstream Sample.world (modeRun (some "memo"))).state.db := by
  obtain ⟨inv, hget⟩ := Option.isSome_iff_exists.1 (show ((after Sample.upstream Sample.world
    (modeRun (some "memo"))).state.db.invoice.get "i").isSome = true by decide)
  exact ⟨inv, hget, (keepsBehaving_iff Sample.upstream Sample.world (modeRun (some "memo")) (List.get_mem _ ⟨2, by decide⟩)
    (modeRun_created _ (Or.inr rfl)) rfl hget .derived).2 (Or.inl (by decide))⟩

/-- An invoice created without one changes its resolver with the default. -/
theorem modeRun_defaulted : ¬ BehavesAsCreated Sample.upstream Sample.world (modeRun none) := by
  intro behaves
  obtain ⟨inv, hget, hmode⟩ : ∃ inv, (after Sample.upstream Sample.world (modeRun none)).state.db.invoice.get "i" =
    some inv ∧ inv.matchMode = none := by decide
  have := (behaves _ (List.get_mem _ ⟨2, by decide⟩) _ _ "i" [109] (modeRun_created none (Or.inl rfl)) rfl inv hget .derived).mode
  rw [Invoice.effectiveMode, Invoice.effectiveMode, hmode] at this
  cases this

end GoblinPay
