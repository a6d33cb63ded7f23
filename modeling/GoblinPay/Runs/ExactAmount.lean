import GoblinPay.Runs.Watch
import GoblinPay.Sample

/-!
# Exact amounts

An invoice for an exact amount is meant to be paid in full. The amount crosses from `u64`
into SQLite's `i64` at creation and back through `max(0) as u64` in the guard, so the guard
compares the original amounts below `2^63` only: above, the stored amount is negative, the
guard reads it as 0, and what pays the invoice is a payment of 0.
-/

namespace GoblinPay

open Async

/-! ## The conversions -/

/-- `expected.max(0) as u64` gives the stored amount back below `2^63`, and 0 above. -/
theorem clamp_toInt64 (N : UInt64) : Matching.clamp N.toInt64 = if N < 9223372036854775808 then N else 0 := by
  have hN := N.toNat_lt
  have hmax : max N.toInt64 0 = if N.toInt64 ≤ 0 then 0 else N.toInt64 := rfl
  have hle : N.toInt64 ≤ 0 ↔ N = 0 ∨ ¬ N < 9223372036854775808 := by
    rw [Int64.le_iff_toInt_le, toInt_toInt64, Int64.toInt_zero, UInt64.lt_iff_toNat_lt, ← UInt64.toNat_inj]
    simp only [UInt64.reduceToNat]
    split <;> omega
  rw [Matching.clamp, hmax]
  by_cases h : N.toInt64 ≤ 0
  · rw [if_pos h]
    rcases hle.1 h with rfl | h
    · rfl
    · rw [if_neg h]
      rfl
  · rw [if_neg h, if_pos, UInt64.toUInt64_toInt64]
    grind

/-- The SQL equality of `resolve_amount` between the stored and the received amount. -/
def sqlEqual (N a : UInt64) : Prop := N.toInt64 = a.toInt64

/-- The guard of `match_payment` lets the received amount `a` pass for a stored `N`. -/
def guardPasses (N a : UInt64) : Prop := Matching.mismatch a (some N.toInt64) = none

theorem sqlEqual_iff {N a : UInt64} : sqlEqual N a ↔ a = N := by
  constructor
  · intro h
    have := congrArg Int64.toUInt64 h
    simpa using this.symm
  · rintro rfl
    rfl

theorem guardPasses_iff {N a : UInt64} : guardPasses N a ↔ a = if N < 9223372036854775808 then N else 0 := by
  rw [guardPasses, Matching.mismatch, clamp_toInt64]
  simp

/-- The guard decides equality with `N` exactly below `2^63`, with or without the SQL equality
in front of it. -/
theorem decides_iff {N : UInt64} : ((∀ a, guardPasses N a ↔ a = N) ↔ N < 9223372036854775808) ∧
    ((∀ a, sqlEqual N a ∧ guardPasses N a ↔ a = N) ↔ N < 9223372036854775808) := by
  have zero : ¬ N < 9223372036854775808 → N ≠ 0 := by grind
  simp only [guardPasses_iff, sqlEqual_iff]
  by_cases hN : N < 9223372036854775808
  · simp [hN]
  · simp [hN, zero hN, (zero hN).symm]

/-! ## The protocol -/

section

variable {W : Type} (U : Upstream W) (T : List (Happening W))

/-- The guard has passed for the row under `i`. -/
def Guarded (a : UInt64) (i : String) (s : World W) : Prop :=
  ∃ inv, s.db.invoice.get i = some inv ∧ Matching.mismatch a inv.expectedAmount = none

theorem Guarded.stable {a : UInt64} {i : String} {s s' : World W} (h : Guarded a i s) (hr : TermsKept s s') :
    Guarded a i s' := by
  obtain ⟨inv, hi, hm⟩ := h
  obtain ⟨inv', hi', ht⟩ := hr i inv hi
  exact ⟨inv', hi', by rw [ht.expectedAmount]; exact hm⟩

/-- What a call owes where it writes: an invoice is stored for the amount asked for, and a
received payment marks an invoice paid only behind the guard. -/
inductive ExactWrite (h : Head Call (World W)) (s : World W) : Write → Prop
  | create {row : InvoiceRow} (asked : ∀ cfg ttl body, h.call = .createInvoice cfg ttl body →
      ∀ N, body.amountGrin = some N → row.expectedAmount = some N.toInt64) : ExactWrite h s (.create row)
  | pay {i t : String} {a : UInt64} (received : Receives U T h t a) (guarded : Guarded a i s) :
      ExactWrite h s (.pay i t)
  | settle {i t : String} (finalized : Finalizes U T h t) : ExactWrite h s (.pay i t)
  | other {wr : Write} (create : ∀ row, wr ≠ .create row) (pay : ∀ i t, wr ≠ .pay i t) : ExactWrite h s wr

variable {U T} {h : Head Call (World W)} {g : Unit} {s : World W}

/-- Behind the guard, `mark_paid` is owed nothing more. -/
theorem exact_settle {r : Received} (hr : Receives U T h r.slateId r.amount) {i : String}
    (user : Option String) (hi : Guarded r.amount i s) :
    Meets (watch U T (ExactWrite U T)) h (OnOk fun _ _ _ => True) (Matching.settle r.slateId (some i) user).run g s := by
  have link : Prog.Writes (fun wr => wr = .link r.slateId (some i))
      (do sql (.linkPayment r.slateId (some i) user)
          pure { invoiceId := some i, userId := user } : ExceptT SqlxError Io MatchResult).run :=
    Prog.Writes.bindExcept (writes_sql rfl rfl) fun _ => trivial
  refine Meets.tryOk (P := fun _ _ _ => True) ?_ fun _ _ _ _ _ => ?_
  · refine Meets.sqlThen (K := Guarded r.amount i) hi (fun _ _ hr _ hK => hK.stable hr) ?_ ?_ ?_
    · rintro s - hK wr hwr
      cases hwr
      exact .pay hr hK
    · exact fun _ _ _ _ _ _ _ _ _ _ => trivial
    · exact fun _ _ _ _ => Meets.failed _
  · refine watchOk_of_writes link fun wr s hwr => ?_
    subst hwr
    exact .other (fun _ h => by cases h) fun _ _ h => by cases h

/-- `match_payment` marks an invoice paid only after the guard has passed for its row. -/
theorem exact_matchPayment {r : Received} (hr : Receives U T h r.slateId r.amount) (rc : String)
    (memo : Option String) (mode : MatchMode) :
    Meets (watch U T (ExactWrite U T)) h (OnOk fun _ _ _ => True)
      (Matching.matchPayment mode ⟨r.slateId, r.amount, rc, memo⟩).run g s := by
  refine Meets.tryOk (watchOk_of_quiet (quiet_sql rfl)) fun _ _ _ _ _ => ?_
  refine Meets.tryOk (watchOk_of_quiet (Matching.footprint_resolve _ _).quiet) fun id _ _ _ _ => ?_
  cases id with
  | none =>
    refine watchOk_of_writes (Matching.footprint_settle (P := fun wr => wr = .link r.slateId none) _ none _ (fun _ h => by cases h) rfl).writes fun wr s hwr => ?_
    subst hwr
    exact .other (fun _ h => by cases h) fun _ _ h => by cases h
  | some i =>
    have hread : ∀ g s, Meets (watch U T (ExactWrite U T)) h
        (OnOk fun expected _ s => Guarded r.amount i s ∨ Matching.mismatch r.amount expected ≠ none)
        (sql (.expectedAmount i)).run g s := by
      intro g s
      refine watch_read (q := .expectedAmount i) trivial (fun x s expected _ _ hq => ?_) fun expected s s' hr hK => ?_
      · simp only [Stmt.exec] at hq
        split at hq
        · rename_i inv hi
          obtain rfl : inv.expectedAmount = expected := by simpa using hq
          by_cases hm : Matching.mismatch r.amount inv.expectedAmount = none
          · exact Or.inl ⟨inv, hi, hm⟩
          · exact Or.inr hm
        · cases hq
      · exact hK.imp_left fun hi => hi.stable hr
    refine Meets.tryOk (hread _ _) fun expected g s _ hK => ?_
    split
    · exact fun _ _ _ => trivial
    · rename_i hm
      exact exact_settle hr _ (hK.resolve_right fun hne => hne hm)

theorem exact_receive {r : Received} (hr : Receives U T h r.slateId r.amount) (payer : Option String)
    (rc : String) (memo : Option String) (mode : MatchMode) (wh : Option (String × String)) :
    Meets (watch U T (ExactWrite U T)) h (fun _ _ _ => True)
      (Record.persistAndMatch r payer rc memo mode wh) g s := by
  refine Meets.andThen (watch_of_writes (P := fun wr => ∃ row, wr = .insert row)
    (Prog.Writes.bind (writes_sql rfl ⟨_, rfl⟩) fun _ => trivial) ?_) fun _ _ _ _ _ => ?_
  · rintro _ s ⟨row, rfl⟩
    exact .other (fun _ h => by cases h) fun _ _ h => by cases h
  · refine Meets.andThen (exact_matchPayment hr rc memo mode) fun _ _ _ _ _ => ?_
    refine watch_of_writes (Record.footprint_conclude (P := fun wr => (∃ t, wr = .delete t) ∨ ∃ p, wr = .enqueue p)
      _ _ _ _ (Or.inl ⟨_, rfl⟩) fun p => Or.inr ⟨p, rfl⟩).writes ?_
    rintro _ s (⟨t, rfl⟩ | ⟨p, rfl⟩) <;> exact .other (fun _ h => by cases h) fun _ _ h => by cases h

theorem exact_settleFinalized {f : FinalizedInvoice} (hf : Finalizes U T h f.slateId)
    (wh : Option (String × String)) :
    Meets (watch U T (ExactWrite U T)) h (fun _ _ _ => True) (Foreign.settleFinalized f wh) g s := by
  refine watch_of_writes (Foreign.footprint_settleFinalized
    (P := fun wr => (∃ row, wr = .insert row) ∨ (∃ i, wr = .pay i f.slateId) ∨ ∃ p, wr = .enqueue p) _ _
    (fun _ => Or.inl ⟨_, rfl⟩) (fun i => Or.inr (Or.inl ⟨i, rfl⟩)) fun p => Or.inr (Or.inr ⟨p, rfl⟩)).writes ?_
  rintro _ s (⟨row, rfl⟩ | ⟨i, rfl⟩ | ⟨p, rfl⟩)
  · exact .other (fun _ h => by cases h) fun _ _ h => by cases h
  · exact .settle hf
  · exact .other (fun _ h => by cases h) fun _ _ h => by cases h

/-- What `createWith` inserts carries the amount of its parameters. -/
theorem exact_createWith {cfg : Config} {params : NewInvoice} (sk : Secret)
    (hparams : ∀ cfg ttl body, h.call = .createInvoice cfg ttl body → ∀ N, body.amountGrin = some N →
      params.amount.expectedAmount = some N.toInt64) :
    Meets (watch U T (ExactWrite U T)) h (fun _ _ _ => True) (Invoices.createWith U cfg sk params) g s := by
  refine watch_of_writes (Invoices.footprint_createWith
    (P := fun wr => (∃ row, wr = .create row ∧ row.expectedAmount = params.amount.expectedAmount) ∨
      ∃ i sid, wr = .arm i sid) U cfg sk params (fun id token => Or.inl ⟨_, rfl, rfl⟩)
    fun i sid => Or.inr ⟨i, sid, rfl⟩).writes ?_
  rintro _ s (⟨row, rfl, hrow⟩ | ⟨i, sid, rfl⟩)
  · exact .create fun cfg ttl body hcall N hN => hrow.trans (hparams cfg ttl body hcall N hN)
  · exact .other (fun _ h => by cases h) fun _ _ h => by cases h

/-- `POST /invoice` stores the amount it was asked for. -/
theorem exact_createInvoice {cfg : Config} {ttl : Int64} {body : CreateInvoiceBody}
    (hcall : h.call = .createInvoice cfg ttl body) :
    Meets (watch U T (ExactWrite U T)) h (fun _ _ _ => True) (Invoices.createInvoice U cfg ttl body) g s := by
  have ended : ∀ (r : Except HttpError Invoice) g s,
      Meets (watch U T (ExactWrite U T)) h (fun _ _ _ => True) (.ret r) g s := fun _ _ _ _ _ _ => trivial
  have stored : ∀ {params : NewInvoice}, (∀ N, body.amountGrin = some N →
      params.amount.expectedAmount = some N.toInt64) → ∀ cfg ttl body, h.call = .createInvoice cfg ttl body →
      ∀ N, body.amountGrin = some N → params.amount.expectedAmount = some N.toInt64 := by
    intro params hparams cfg' ttl' body' hcall' N hN
    rw [hcall] at hcall'
    cases hcall'
    exact hparams N hN
  unfold Invoices.createInvoice
  split
  · exact ended _ _ _
  · rename_i sk _
    split
    · exact ended _ _ _
    · exact ended _ _ _
    · rename_i amount matchMode ha _
      rcases hN : body.amountGrin with _ | N
      · refine Meets.andThen (watch_of_quiet (Invoices.footprint_priceIfFiat _ _).quiet) fun r _ _ _ _ => ?_
        split
        · exact ended _ _ _
        · exact exact_createWith sk (stored fun N hN' => by rw [hN] at hN'; cases hN')
      · obtain rfl : amount = .grin N := by simpa [Invoices.amountSpec, hN] using ha.symm
        -- a Grin amount is not priced
        refine exact_createWith sk (stored fun N' hN' => ?_)
        rw [hN] at hN'
        cases hN'
        rfl

theorem exact_call (c : Call) (s : World W) :
    Meets (watch U T (ExactWrite U T)) ⟨c, s⟩ (fun _ _ _ => True) (code U c) () s := by
  by_cases hrail : c.IsRail
  · refine Rails.meets (watch_rails (fun t s => ?_) (fun _ s _ => ?_) ?_ ?_) hrail
    · exact .other (fun _ h => by cases h) fun _ _ h => by cases h
    · exact .other (fun _ h => by cases h) fun _ _ h => by cases h
    · exact fun r payer rc memo mode wh _ _ hr => exact_receive hr payer rc memo mode wh
    · exact fun f wh _ _ hf => exact_settleFinalized hf wh
  · have hw := Call.writes U hrail
    cases c with
    | createInvoice cfg ttl body => exact (exact_createInvoice rfl).andThen fun _ _ _ _ _ _ _ _ => trivial
    | _ =>
      refine watch_of_writes hw fun wr s hwr => .other (fun row h => ?_) fun i t h => ?_
      · subst h
        simp [Call.mayWrite] at hwr
      · subst h
        simp [Call.mayWrite] at hwr

/-! ## Runs -/

variable (U)

/-- The operation created the invoice `i`, for a request that asked for exactly `N`. -/
structure Creates (ev : Happening W) (i : String) (N : UInt64) : Prop where
  asked : ∃ cfg ttl body, ev.head.call = .createInvoice cfg ttl body ∧ body.amountGrin = some N
  absent : ev.state.db.invoice.get i = none
  created : ∃ inv, (ev.after (handler U)).db.invoice.get i = some inv

/-- A payment that `match_payment` let pay an invoice for exactly `N` was received with `N`. -/
def PaidInFull (w : World W) (ms : Run) : Prop :=
  ∀ created ∈ history U w ms, ∀ paid ∈ history U w ms, ∀ i t N, Creates U created i N → Pays U paid i t →
    ¬ Finalizes U (history U w ms) paid.head t → Receives U (history U w ms) paid.head t N

variable {U}

theorem Creates.write {ev : Happening W} {i : String} {N : UInt64} (hc : Creates U ev i N) :
    ∃ row, ev.eff.write = some (.create row) ∧ ∃ inv, (ev.after (handler U)).db.invoice.get i = some inv ∧
      inv.expectedAmount = row.expectedAmount := by
  have change := ev.eff.invoice_change U ev.input ev.state i
  obtain ⟨inv, hinv⟩ := hc.created
  have hafter : (act U ev.input ev.state ev.eff).2.db.invoice.get i = some inv := hinv
  rw [hc.absent, hafter] at change
  cases change with
  | create hby hid => exact ⟨_, hby, _, hinv, rfl⟩

/-- In every run, an invoice created for exactly `N` that `match_payment` moved to paid was paid
by a payment received with an amount that is `N` if and only if `N` fits SQLite's integers; and
for these `N` only do the stored value, the SQL equality and the guard decide equality with `N`. -/
theorem paidInFull_iff (U : Upstream W) (w : World W) (ms : Run) (N : UInt64) :
    (∀ created ∈ history U w ms, ∀ paid ∈ history U w ms, ∀ i t, Creates U created i N → Pays U paid i t →
      ¬ Finalizes U (history U w ms) paid.head t →
      ∃ a, Receives U (history U w ms) paid.head t a ∧ (a = N ↔ N < 9223372036854775808)) ∧
    ((∀ a, guardPasses N a ↔ a = N) ↔ N < 9223372036854775808) ∧
    ((∀ a, sqlEqual N a ∧ guardPasses N a ↔ a = N) ↔ N < 9223372036854775808) := by
  refine ⟨fun created hcreated paid hpaid i t hc hp hmatch => ?_, decides_iff⟩
  -- the row was stored for `N`, and keeps its terms to the end of the run
  obtain ⟨row, hrow, inv, hinv, hterms⟩ := hc.write
  have hamount : inv.expectedAmount = some N.toInt64 := by
    obtain ⟨cfg, ttl, body, hcall, hN⟩ := hc.asked
    cases watch_run exact_call hcreated hrow with
    | create asked => rw [hterms, asked cfg ttl body hcall N hN]
    | other create _ => exact absurd rfl (create row)
  obtain ⟨last, hlast, hkept⟩ := terms_kept_after hcreated i inv hinv
  cases watch_run exact_call hpaid hp.write with
  | settle finalized => exact absurd finalized hmatch
  | other _ pay => exact absurd rfl (pay i t)
  | pay received guarded =>
    -- and the guard read the same amount from it
    obtain ⟨inv', hi', hm⟩ := (guarded.stable (paid.eff.terms_kept U paid.input paid.state)).stable (terms_kept_after hpaid)
    obtain rfl : last = inv' := Option.some.inj (hlast.symm.trans hi')
    rw [hkept.expectedAmount, hamount] at hm
    refine ⟨_, received, ?_⟩
    rw [guardPasses_iff.1 hm]
    by_cases hN : N < 9223372036854775808
    · simp [hN]
    · simp only [hN, if_false, iff_false]
      grind

/-! ## Two runs -/

/-- `POST /invoice` for exactly `N` in derived mode, then a payment of `a` to its child key. -/
def exactRun (N a : UInt64) : Run :=
  [.start (.createInvoice Sample.config 900 { amountGrin := some N, matchMode := some "derived" }),
   .run 0 { text := "i" }, .run 0 { text := "tok" }, .run 0 {}, .run 0 {}, .run 0 {},
   .start (.receive (Sample.received "t" a) (some "payer") "mi" none .memo none),
   .run 1 {}, .run 1 {}, .run 1 {}, .run 1 {}, .run 1 {}, .run 1 {}]

/-- The two operations of such a run, and the conditions of `paidInFull_iff` on them. -/
theorem exactRun_paid : ∃ a, Receives Sample.upstream (history Sample.upstream Sample.world (exactRun 100 100))
    ((history Sample.upstream Sample.world (exactRun 100 100)).get ⟨9, by decide⟩).head "t" a ∧
    (a = 100 ↔ (100 : UInt64) < 9223372036854775808) := by
  have free : (history Sample.upstream Sample.world (exactRun 100 100)).all (fun ev => !ev.eff.movesSlate) = true := by
    decide
  refine (paidInFull_iff Sample.upstream Sample.world (exactRun 100 100) 100).1 _ (List.get_mem _ ⟨2, by decide⟩)
    _ (List.get_mem _ ⟨9, by decide⟩) "i" "t" ?_ ?_ fun hf => ?_
  · exact ⟨⟨_, _, _, rfl, rfl⟩, by decide, Option.isSome_iff_exists.1 (by decide)⟩
  · exact ⟨by decide, by decide⟩
  · obtain ⟨f, wh, hcall, -⟩ := hf.of_slateFree free
    cases hcall

/-- An invoice for `2^63` nanogrin is paid by nothing. -/
theorem exactRun_empty : ¬ PaidInFull Sample.upstream Sample.world (exactRun 9223372036854775808 0) := by
  have free : (history Sample.upstream Sample.world (exactRun 9223372036854775808 0)).all
      (fun ev => !ev.eff.movesSlate) = true := by decide
  intro h
  have hr := h _ (List.get_mem _ ⟨2, by decide⟩) _ (List.get_mem _ ⟨9, by decide⟩) "i" "t" 9223372036854775808
    ⟨⟨_, _, _, rfl, rfl⟩, by decide, Option.isSome_iff_exists.1 (by decide)⟩
    ⟨by decide, by decide⟩ fun hf => by
      obtain ⟨f, wh, hcall, -⟩ := hf.of_slateFree free
      cases hcall
  obtain ⟨r, payer, rc, memo, mode, wh, hcall, -, ha⟩ := hr.of_slateFree free
  cases hcall
  exact absurd ha (by decide)

end

end GoblinPay
