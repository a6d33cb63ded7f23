import GoblinPay.Runs.Resolve
import GoblinPay.Sample
import Mathlib.Data.Fintype.EquivFin

/-!
# Recording a payment twice

A second `persist_and_match` of one slate finds the row of the first, and goes on: it matches again
against a ledger the first call has changed, links the row to what it finds now, and takes the row back
when the guard refuses. `repeatSafe_iff` says on which ledgers none of this shows.
-/

namespace GoblinPay

open Async Sql

/-- One received payment, as `persist_and_match` gets it. -/
structure Recording where
  received : Received
  payer : Option String
  recipient : String
  memo : Option String
  mode : MatchMode
  webhook : Option (String × String)

namespace Recording

def run (a : Recording) : Io PersistOutcome :=
  Record.persistAndMatch a.received a.payer a.recipient a.memo a.mode a.webhook

/-- The call up to the matching, and its outcome. -/
def matched (a : Recording) : Io (Except SqlxError MatchResult) := do
  discard <| (sql (.insertPayment (Record.paymentRow a.received a.payer a.recipient))).run
  (Matching.matchPayment a.mode ⟨a.received.slateId, a.received.amount, a.recipient, a.memo⟩).run

theorem run_eq (a : Recording) :
    a.run = a.matched >>= fun r => Record.conclude a.received a.payer a.webhook (Record.orUnmatched r) := by
  rw [matched, Prog.bind_assoc]
  rfl

def slateId (a : Recording) : String := a.received.slateId

def incoming (a : Recording) : IncomingPayment := ⟨a.received.slateId, a.received.amount, a.recipient, a.memo⟩

/-- The ledger after the insert: the row is there, a new one or the one that was. -/
def inserted {W : Type} (a : Recording) (s : World W) : World W :=
  s.exec (.insertPayment (Record.paymentRow a.received a.payer a.recipient)) 0

end Recording

section

variable {W : Type} {U : Upstream W} {A : {β : Type} → Eff β → Answer → Prop} {B : Answer → Prop} {T : String → Prop}
  {a : Recording} {s s' : World W} {wh : Option (String × String)}

/-- What a notification leaves, where the ids drawn for it satisfy `T`. -/
structure Told (T : String → Prop) (wh : Option (String × String)) (s s' : World W) : Prop where
  invoices : s'.db.invoice = s.db.invoice
  payments : s'.db.payment = s.db.payment
  endpubs : s'.db.endpub = s.db.endpub
  now : s'.now = s.now
  silent : wh = none → s'.db.delivery = s.db.delivery
  queued : wh ≠ none → ∃ e, T e ∧ (s.db.delivery.get e = none →
    s'.db.delivery.rows.length = s.db.delivery.rows.length + 1)

/-- How a call ends that is alone and that no failure meets. -/
inductive Recording.Ends (a : Recording) (B : Answer → Prop) (T : String → Prop) (s : World W) : PersistOutcome → World W → Prop
  | unmatched {x : Answer} {user : Option String} {s' : World W} (hx : B x)
      (resolved : s.db.resolve s.now a.mode a.incoming x.choice = none)
      (owner : ∃ y, B y ∧ s.db.ownerAt a.recipient y.choice = user)
      (told : Told T a.webhook ((a.inserted s).exec (.linkPayment a.slateId none user) 0) s') :
      Ends a B T s (.matched { userId := user }) s'
  | rejected {x : Answer} {inv : Invoice} {m : AmountMismatch} (hx : B x)
      (resolved : s.db.resolve s.now a.mode a.incoming x.choice = some inv)
      (guard : Matching.mismatch a.received.amount inv.expectedAmount = some m) :
      Ends a B T s (.rejected m) ((a.inserted s).exec (.deletePayment a.slateId) 0)
  | settled {x : Answer} {inv : Invoice} {user : Option String} {s' : World W} (hx : B x)
      (resolved : s.db.resolve s.now a.mode a.incoming x.choice = some inv)
      (guard : Matching.mismatch a.received.amount inv.expectedAmount = none)
      (owner : ∃ y, B y ∧ s.db.ownerAt a.recipient y.choice = user)
      (told : Told T a.webhook (((a.inserted s).exec (.markPaid inv.id a.slateId) 0).exec
        (.linkPayment a.slateId (some inv.id) user) 0) s') :
      Ends a B T s (.matched { invoiceId := some inv.id, userId := user }) s'

/-! ## One call -/

theorem Recording.inserted_invoice : (a.inserted s).db.invoice = s.db.invoice := by
  simp only [inserted, World.exec, Stmt.exec, GoblinPay.inserted]
  split <;> rfl

theorem Recording.inserted_endpub : (a.inserted s).db.endpub = s.db.endpub := by
  simp only [inserted, World.exec, Stmt.exec, GoblinPay.inserted]
  split <;> rfl

theorem Recording.inserted_delivery : (a.inserted s).db.delivery = s.db.delivery := by
  simp only [inserted, World.exec, Stmt.exec, GoblinPay.inserted]
  split <;> rfl

/-- Looking up an invoice that is not open expires nothing. -/
theorem exec_expireIfDueId {i : String} {inv : Invoice} (hrow : s.db.invoice.get i = some inv) (hstatus : inv.status ≠ .open)
    (n : Nat) : s.exec (.expireIfDueId i) n = s := by
  have rows : s.db.invoice.update (fun inv => inv.id = i && inv.overdue s.now) Invoice.expire (fun _ => rfl) = s.db.invoice := by
    refine Table.eq_of_rows ((List.map_congr_left fun r hr => ?_).trans (List.map_id _))
    have hkeep : ¬ (decide (r.id = i) && r.overdue s.now) = true := fun h => by
      simp only [Invoice.overdue, Bool.and_eq_true, decide_eq_true_eq] at h
      obtain ⟨hid, hopen, -⟩ := h
      rw [← hid, Table.get_of_mem hr] at hrow
      exact hstatus (Option.some.inj hrow ▸ hopen)
    rw [if_neg hkeep]
    rfl
  simp only [World.exec, Stmt.exec, Db.setInvoice, rows]

theorem request_getSettled {i : String} {inv : Invoice} (hrow : s.db.invoice.get i = some inv) (hstatus : inv.status ≠ .open) :
    Meets (plainRequest U A fun _ => True) () (fun _ _ s' => s' = s) (Invoice.get i).run () s := by
  refine request_sqlThen (q := .expireIfDueId i) trivial (fun x b _ _ _ => ?_) fun _ _ _ _ => rfl
  rw [exec_expireIfDueId hrow hstatus, ← Prog.bind_ret (sql (.selectInvoice i)).run]
  exact request_sql (q := .selectInvoice i) (f := .ret) trivial (fun _ _ _ _ _ => Meets.soloRet rfl) fun _ _ _ _ => Meets.soloRet rfl

theorem request_orderRef {invoiceId : Option String}
    (settled : ∀ i, invoiceId = some i → ∃ inv, s.db.invoice.get i = some inv ∧ inv.status ≠ .open) :
    Meets (plainRequest U A fun _ => True) () (fun _ _ s' => s' = s) (Record.orderRef invoiceId) () s := by
  cases invoiceId with
  | none => exact Meets.soloRet rfl
  | some i =>
    obtain ⟨inv, hrow, hstatus⟩ := settled i rfl
    refine Meets.andThen (request_getSettled hrow hstatus) fun r _ s' _ hs => ?_
    split <;> exact Meets.soloRet hs

theorem request_enqueue {url : String} {payload : WebhookPayload} {wh : String × String}
    (faultless : ∀ x, OnSql A x → x.fault = none) (drawn : T payload.eventId) :
    Meets (plainRequest U A fun _ => True) () (fun _ _ s' => Told T (some wh) s s') (discard (enqueue url payload).run) () s := by
  refine request_sql (q := .enqueue url payload) trivial (fun x b hx _ hb => Meets.soloRet ?_) fun x e hx he => Meets.soloRet ?_
  · cases hins : s.db.delivery.insert (payload.toDelivery url s.now) with
    | none => simp [Stmt.exec, inserted, hins] at hb
    | some tab =>
      have new : s.exec (.enqueue url payload) x.choice = { s with db := { s.db with delivery := tab } } := by
        simp [World.exec, Stmt.exec, inserted, hins]
      rw [new]
      refine ⟨rfl, rfl, rfl, rfl, (fun hnone => by cases hnone), fun _ => ⟨payload.eventId, drawn, fun _ => ?_⟩⟩
      simp [Table.rows_insert hins]
  · refine ⟨rfl, rfl, rfl, rfl, (fun hnone => by cases hnone), fun _ => ⟨payload.eventId, drawn, fun hfree => ?_⟩⟩
    -- a free id is not refused
    refine absurd (fault_of_error he fun e' he' => ?_) (not_not.2 (faultless x hx))
    cases hins : s.db.delivery.insert (payload.toDelivery url s.now) with
    | none => exact Table.insert_eq_none.1 hins hfree
    | some tab => simp [Stmt.exec, inserted, hins] at he'

/-- The notification of a settled or unmatched payment changes the queue, and nothing else of the database. -/
theorem request_told {matched : MatchResult} (faultless : ∀ x, OnSql A x → x.fault = none) (drawn : ∀ x, A .randomId x → T x.text)
    (settled : ∀ i, matched.invoiceId = some i → ∃ inv, s.db.invoice.get i = some inv ∧ inv.status ≠ .open) :
    Meets (plainRequest U A fun _ => True) () (fun _ _ s' => Told T wh s s') (Record.notify a.received a.payer matched wh) () s := by
  cases wh with
  | none => exact Meets.soloRet ⟨rfl, rfl, rfl, rfl, fun _ => rfl, fun h => absurd rfl h⟩
  | some wh =>
    refine Meets.andThen (request_orderRef settled) fun ref _ s' _ hs => ?_
    obtain rfl := hs
    refine Meets.soloStep trivial fun x hx => Meets.soloStep trivial fun y _ => ?_
    exact request_enqueue faultless (drawn x hx)

/-- The insert leaves the row, whether or not it was there. -/
theorem recording_inserted (faultless : ∀ x, OnSql A x → x.fault = none) :
    Meets (plainRequest U A fun _ => True) () (fun _ _ s' => s' = a.inserted s)
      (discard (sql (.insertPayment (Record.paymentRow a.received a.payer a.recipient))).run) () s := by
  refine request_sql (q := .insertPayment _) trivial (fun _ _ _ _ _ => Meets.soloRet rfl) fun x e hx he => Meets.soloRet ?_
  simp only [act, faultless x hx] at he
  have unchanged : ((Stmt.insertPayment (Record.paymentRow a.received a.payer a.recipient)).exec s.now 0 s.db).2 = s.db :=
    Stmt.exec_error he
  simp only [Recording.inserted, World.exec]
  rw [unchanged]

theorem recording_matched (faultless : ∀ x, OnSql A x → x.fault = none) :
    Meets (plainRequest U A fun _ => True) ()
      (fun r g' s' => Matching.Ends (OnSql A) (fun _ _ _ => ()) a.mode a.incoming () (a.inserted s) r g' s') a.matched () s := by
  refine Meets.andThen (recording_inserted faultless) fun _ _ s₁ _ hs => ?_
  obtain rfl := hs
  exact request_matchPayment (fun _ _ _ => rfl) trivial fun _ _ _ _ _ => trivial

theorem Recording.resolve_inserted (n : Nat) :
    (a.inserted s).db.resolve (a.inserted s).now a.mode a.incoming n = s.db.resolve s.now a.mode a.incoming n :=
  Db.resolve_congr inserted_invoice

variable (U) in
/-- A call that is alone and that no failure meets ends in one of the ways of `Recording.Ends`. -/
theorem request_recording (faultless : ∀ x, OnSql A x → x.fault = none) (drawn : ∀ x, A .randomId x → T x.text) :
    Meets (plainRequest U A fun _ => True) () (fun out _ s' => a.Ends (OnSql A) T s out s') a.run () s := by
  have owner : ∀ n, (a.inserted s).db.ownerAt a.recipient n = s.db.ownerAt a.recipient n := fun n => by
    rw [Db.ownerAt, Recording.inserted_endpub, Db.ownerAt]
  rw [a.run_eq]
  refine Meets.andThen (recording_matched faultless) fun res _ s₂ _ hends => ?_
  cases hends with
  | failed hx fault => exact absurd (faultless _ hx) fault
  | unlinked _ _ _ hy fault | forgotten _ _ hy fault => exact absurd (faultless _ hy) fault
  | unmatched hx resolved hown =>
    rw [Recording.resolve_inserted] at resolved
    obtain ⟨y, hy, hown⟩ := hown
    rw [show a.incoming.recipientHex = a.recipient from rfl, owner] at hown
    refine Meets.andThen (request_told faultless drawn fun i hi => by cases hi) fun _ _ s' _ told => ?_
    exact Meets.soloRet (.unmatched hx resolved ⟨y, hy, hown⟩ told)
  | rejected hx resolved guard =>
    rw [Recording.resolve_inserted] at resolved
    refine request_sql (q := .deletePayment a.slateId) trivial (fun _ _ _ _ _ => Meets.soloRet (.rejected hx resolved guard))
      fun x e hx' he => ?_
    exact absurd (fault_of_error he fun _ h => by cases h) (not_not.2 (faultless x hx'))
  | @settled _ inv user hx resolved guard hown =>
    obtain ⟨hget, hopen⟩ := Db.get_of_resolve resolved
    rw [Recording.resolve_inserted] at resolved
    obtain ⟨y, hy, hown⟩ := hown
    rw [show a.incoming.recipientHex = a.recipient from rfl, owner] at hown
    refine Meets.andThen (request_told faultless drawn fun i hi => ?_) fun _ _ s' _ told => ?_
    · obtain rfl : inv.id = i := Option.some.inj hi
      refine ⟨inv.pay a.slateId (a.inserted s).now, ?_, fun hnone => by cases hnone⟩
      refine (get_markPaid (a.inserted s) inv.id a.slateId inv.id 0).trans ?_
      rw [hget]
      simp [hopen]
    · exact Meets.soloRet (.settled hx resolved guard ⟨y, hy, hown⟩ told)

/-- What an execution on answers of `B` came to. -/
theorem Recording.ends_of_exec {xs : List Answer} {out : PersistOutcome} (faultless : ∀ x, B x → x.fault = none)
    (hxs : ∀ x ∈ xs, B x) (hexec : a.run.exec (handler U) xs s = (.ret out, s')) :
    a.Ends B (fun e => ∃ x, B x ∧ x.text = e) s out s' := by
  have contract := request_recording U (A := fun _ x => B x) (T := fun e => ∃ x, B x ∧ x.text = e) (a := a) (s := s)
    (fun x ⟨_, _, hx⟩ => faultless x hx) fun x hx => ⟨x, hx, rfl⟩
  rcases contract.soloExec xs fun ev hev => hxs _ (Prog.input_mem_of_events hev) with ⟨out', hret, hends⟩ | ⟨hstop, -⟩
  · rw [hexec] at hret hends
    cases hret
    cases hends with
    | unmatched hx resolved owner told =>
      obtain ⟨_, _, hx⟩ := hx
      obtain ⟨y, ⟨_, _, hy⟩, howner⟩ := owner
      exact .unmatched hx resolved ⟨y, hy, howner⟩ told
    | rejected hx resolved guard =>
      obtain ⟨_, _, hx⟩ := hx
      exact .rejected hx resolved guard
    | settled hx resolved guard owner told =>
      obtain ⟨_, _, hx⟩ := hx
      obtain ⟨y, ⟨_, _, hy⟩, howner⟩ := owner
      exact .settled hx resolved guard ⟨y, hy, howner⟩ told
  · rw [hexec] at hstop
    exact absurd rfl (hstop out)

variable (U a s) in
/-- On one answer to everything, a call returns. -/
theorem Recording.returns (x : Answer) :
    ∃ xs out s', (∀ y ∈ xs, y = x) ∧ a.run.exec (handler U) xs s = (.ret out, s') := by
  obtain ⟨xs, out, hret, -, hxs⟩ := Prog.exec_total (handler U) () (fun _ => x) a.run s
  refine ⟨xs, out, _, fun y hy => ?_, Prod.ext hret rfl⟩
  obtain ⟨_, _, h⟩ := hxs y hy
  exact h

/-! ## The row of the payment -/

theorem Recording.inserted_of_row {p : Payment} (h : s.db.payment.get a.slateId = some p) : a.inserted s = s := by
  have conflict : s.db.payment.insert ((Record.paymentRow a.received a.payer a.recipient).toPayment s.now) = none :=
    Table.insert_eq_none.2 (by
      rw [show ((Record.paymentRow a.received a.payer a.recipient).toPayment s.now).slateId = a.slateId from rfl, h]
      exact Option.some_ne_none p)
  simp [inserted, World.exec, Stmt.exec, GoblinPay.inserted, conflict]

theorem Recording.rows_inserted (h : s.db.payment.get a.slateId = none) : (a.inserted s).db.payment.rows =
    s.db.payment.rows ++ [(Record.paymentRow a.received a.payer a.recipient).toPayment s.now] := by
  cases hins : s.db.payment.insert ((Record.paymentRow a.received a.payer a.recipient).toPayment s.now) with
  | none => exact absurd h (Table.insert_eq_none.1 hins)
  | some tab =>
    have rows := Table.rows_insert hins
    simp [inserted, World.exec, Stmt.exec, GoblinPay.inserted, hins, rows]

theorem Recording.row_inserted : ∃ p, (a.inserted s).db.payment.get a.slateId = some p := by
  cases h : s.db.payment.get a.slateId with
  | some p => exact ⟨p, by rw [inserted_of_row h, h]⟩
  | none =>
    have hmem : (Record.paymentRow a.received a.payer a.recipient).toPayment s.now ∈ (a.inserted s).db.payment.rows := by
      rw [rows_inserted h]
      exact List.mem_append_right _ (List.mem_singleton.2 rfl)
    exact ⟨_, Table.get_of_mem hmem⟩

/-- The link a call leaves on the payment's row, and the user. -/
theorem get_linked {t : String} {i u : Option String} {p : Payment} (h : s.db.payment.get t = some p) :
    (s.exec (.linkPayment t i u) 0).db.payment.get t = some (p.link i u) := by
  have linked : (s.exec (.linkPayment t i u) 0).db.payment.get t =
      (s.db.payment.get t).map fun p => if p.slateId = t then p.link i u else p := by
    refine (Table.get_update s.db.payment _ (Payment.link i u) (fun _ => rfl) _).trans ?_
    simp
  rw [linked, h]
  simp [Table.key_of_get h]

/-- Linking a row to what it is linked to leaves the table as it was. -/
theorem linked_again {t : String} {i u : Option String} {p : Payment} (h : s.db.payment.get t = some p) (hp : p.link i u = p) :
    (s.exec (.linkPayment t i u) 0).db.payment = s.db.payment := by
  refine Table.eq_of_rows ((List.map_congr_left fun r hr => ?_).trans (List.map_id _))
  by_cases hid : r.slateId = t
  · have hget := Table.get_of_mem hr
    rw [hid, h] at hget
    obtain rfl := Option.some.inj hget
    simp [hid, hp]
  · simp [hid]

theorem get_deleted {t : String} : (s.exec (.deletePayment t) 0).db.payment.get t = none := by
  have deleted : (s.exec (.deletePayment t) 0).db.payment.get t = (s.db.payment.get t).filter fun p => !decide (p.slateId = t) :=
    Table.get_delete s.db.payment _ t
  rw [deleted]
  cases h : s.db.payment.get t with
  | none => rfl
  | some p => simp [Table.key_of_get h]

/-- The insert of a row that was not there and its deletion leave the table as it was. -/
theorem Recording.deleted_payment (h : s.db.payment.get a.slateId = none) :
    ((a.inserted s).exec (.deletePayment a.slateId) 0).db.payment = s.db.payment := by
  refine Table.eq_of_rows ?_
  change (a.inserted s).db.payment.rows.filter (fun p => !decide (p.slateId = a.slateId)) = _
  rw [rows_inserted h, List.filter_append]
  have others : s.db.payment.rows.filter (fun p => !decide (p.slateId = a.slateId)) = s.db.payment.rows := by
    refine List.filter_eq_self.2 fun p hp => ?_
    have hne : p.slateId ≠ a.slateId := fun hid => by
      have hget := Table.get_of_mem hp
      rw [hid, h] at hget
      cases hget
    simp [hne]
  have own : [(Record.paymentRow a.received a.payer a.recipient).toPayment s.now].filter
      (fun p => !decide (p.slateId = a.slateId)) = [] := by
    simp [Record.paymentRow, PaymentRow.toPayment, slateId]
  rw [others, own, List.append_nil]

/-! ## Two calls -/

/-- Some time passes. -/
def World.later (w : World W) (secs : Nat) : World W := { w with now := w.now + secs }

/-- What it takes for a second call to have changed nothing: `w` before the calls, `w₁` and `w₂` after each. -/
structure Recording.Repeated (a : Recording) (w w₁ w₂ : World W) (out₁ : PersistOutcome) : Prop where
  invoices : w₂.db.invoice = w₁.db.invoice
  payments : w₂.db.payment = w₁.db.payment
  keepsLink : ∀ p i, w.db.payment.get a.slateId = some p → p.invoiceId = some i →
    ∃ p', w₂.db.payment.get a.slateId = some p' ∧ p'.invoiceId = some i
  notifies : w₂.db.delivery.rows.length ≤ w.db.delivery.rows.length + 1
  rejected : ∀ m, out₁ = .rejected m → w₁.db.invoice = w.db.invoice ∧ w₁.db.payment = w.db.payment

variable (U) in
/-- Two calls, the second `secs` after the first, are safe on the ledger `w`. -/
def Recording.RepeatSafe (a : Recording) (secs : Nat) (w : World W) : Prop :=
  ∀ xs ys out₁ out₂ w₁ w₂, (∀ x ∈ xs, x.fault = none) → (∀ x ∈ ys, x.fault = none) →
    a.run.exec (handler U) xs w = (.ret out₁, w₁) → a.run.exec (handler U) ys (w₁.later secs) = (.ret out₂, w₂) →
    a.Repeated w w₁ w₂ out₁

/-- No invoice the payment leads to takes its amount. If it leads to one, there is no row for the slate yet and it leads to
one at the second call too; if to none, nobody is notified, the row, if there is one, is not linked, and the recipient's key is
that of one user at most. -/
structure Recording.Repeatable (a : Recording) (secs : Nat) (w : World W) : Prop where
  refuses : ∀ inv, w.db.Leads w.now a.mode a.incoming inv → Matching.mismatch a.received.amount inv.expectedAmount ≠ none
  unrecorded : ∀ inv, w.db.Leads w.now a.mode a.incoming inv → w.db.payment.get a.slateId = none ∧
    ∃ inv', w.db.Leads (w.now + secs) a.mode a.incoming inv'
  unmatched : (∀ inv, ¬ w.db.Leads w.now a.mode a.incoming inv) → a.webhook = none ∧
    (∀ p, w.db.payment.get a.slateId = some p → p.invoiceId = none) ∧
    ∀ u u', w.db.Owner a.recipient u → w.db.Owner a.recipient u' → u = u'

variable {db : Db} {now : Time} {mode : MatchMode} {incoming : IncomingPayment} {inv : Invoice} {secs : Nat}

/-- A later payment leads to no invoice whose amount an earlier one would not have met. -/
theorem Db.Leads.earlier (h : db.Leads (now + secs) mode incoming inv) :
    ∃ inv', db.Leads now mode incoming inv' ∧ inv'.expectedAmount = inv.expectedAmount := by
  rcases h with found | ⟨noDerived, carries, found⟩ | ⟨noDerived, noMemo, found⟩
  · exact ⟨inv, .derived found, rfl⟩
  · exact ⟨inv, .memo noDerived carries found, rfl⟩
  · have expects : ∀ {inv : Invoice} {now : Time}, inv ∈ db.amountCandidates mode incoming.amount now →
        inv.expectedAmount = some incoming.amount.toInt64 := fun h => by
      obtain ⟨-, hp⟩ := List.mem_filter.1 h
      simp only [Bool.and_eq_true, decide_eq_true_eq] at hp
      exact hp.1.1
    have candidate : inv ∈ db.amountCandidates mode incoming.amount now := by
      obtain ⟨hmem, hp⟩ := List.mem_filter.1 (first_subset found)
      refine List.mem_filter.2 ⟨hmem, ?_⟩
      simp only [Bool.and_eq_true, Bool.not_eq_true'] at hp ⊢
      refine ⟨hp.1, ?_⟩
      cases hdue : inv.due now with
      | false => rfl
      | true =>
        obtain ⟨e, he, hle⟩ := (Option.any_eq_true _ _).1 hdue
        have alive := hp.2
        rw [Invoice.due, he, Option.any_some, decide_eq_false_iff_not] at alive
        exact absurd (le_trans (of_decide_eq_true hle) (Int.le_add_of_nonneg_right (Int.natCast_nonneg secs))) alive
    have nonempty : first Invoice.createdAt (db.amountCandidates mode incoming.amount now) ≠ [] := fun hnil => by
      rw [first_eq_nil] at hnil
      rw [hnil] at candidate
      cases candidate
    obtain ⟨inv', hinv'⟩ := List.exists_mem_of_ne_nil _ nonempty
    refine ⟨inv', .amount noDerived noMemo hinv', ?_⟩
    rw [expects (first_subset hinv'), expects candidate]

theorem Db.Leads.congr {db' : Db} (h : db.Leads now mode incoming inv) (hdb : db'.invoice = db.invoice) :
    db'.Leads now mode incoming inv := by
  obtain ⟨n, hn⟩ := leads_iff.1 h
  exact leads_iff.2 ⟨n, by rw [resolve_congr hdb, hn]⟩

/-- A payment that leads nowhere leads nowhere later, as long as the invoices stay. -/
theorem World.noLeads_later {w w₁ : World W} (invoices : w₁.db.invoice = w.db.invoice) (same : w₁.now = w.now)
    (noLeads : ∀ inv, ¬ w.db.Leads w.now mode incoming inv) (inv : Invoice) :
    ¬ (w₁.later secs).db.Leads (w₁.later secs).now mode incoming inv := by
  intro hl
  have hl' : w.db.Leads (w.now + secs) mode incoming inv := by
    rw [← same]
    exact hl.congr invoices.symm
  obtain ⟨inv', hinv', -⟩ := hl'.earlier
  exact noLeads inv' hinv'

/-- What is left of an unmatched call, the queue apart. -/
theorem Told.unmatched {u : Option String} (told : Told T wh ((a.inserted s).exec (.linkPayment a.slateId none u) 0) s') :
    s'.db.invoice = s.db.invoice ∧ s'.db.endpub = s.db.endpub ∧ s'.now = s.now ∧
      ∃ p : Payment, s'.db.payment.get a.slateId = some (p.link none u) := by
  obtain ⟨p, hp⟩ : ∃ p, (a.inserted s).db.payment.get a.slateId = some p := Recording.row_inserted
  refine ⟨told.invoices.trans Recording.inserted_invoice, told.endpubs.trans Recording.inserted_endpub, told.now, p, ?_⟩
  rw [told.payments]
  exact get_linked hp

/-- What is left of a call that settled `inv`: it is paid, and the row is linked to it. -/
theorem Told.settled {u : Option String} (found : s.db.invoice.get inv.id = some inv ∧ inv.status = .open)
    (told : Told T wh (((a.inserted s).exec (.markPaid inv.id a.slateId) 0).exec
      (.linkPayment a.slateId (some inv.id) u) 0) s') :
    (∃ r, s'.db.invoice.get inv.id = some r ∧ r.status = .paid) ∧
      ∃ p : Payment, s'.db.payment.get a.slateId = some (p.link (some inv.id) u) := by
  constructor
  · refine ⟨inv.pay a.slateId (a.inserted s).now, ?_, rfl⟩
    rw [told.invoices]
    refine (get_markPaid (a.inserted s) inv.id a.slateId inv.id 0).trans ?_
    rw [Recording.inserted_invoice, found.1]
    simp [found.2]
  · obtain ⟨p, hp⟩ : ∃ p, (a.inserted s).db.payment.get a.slateId = some p := Recording.row_inserted
    refine ⟨p, ?_⟩
    rw [told.payments]
    exact get_linked hp

/-- A refused call on a ledger without the payment's row leaves the tables as they were. -/
theorem Recording.Ends.refused {out : PersistOutcome} (h : a.Ends B T s out s')
    (leads : ∃ inv, s.db.Leads s.now a.mode a.incoming inv)
    (refuses : ∀ inv, s.db.Leads s.now a.mode a.incoming inv → Matching.mismatch a.received.amount inv.expectedAmount ≠ none)
    (unrecorded : s.db.payment.get a.slateId = none) :
    s'.db.invoice = s.db.invoice ∧ s'.db.payment = s.db.payment ∧ s'.db.delivery = s.db.delivery ∧ s'.now = s.now := by
  cases h with
  | unmatched _ resolved =>
    obtain ⟨inv, hinv⟩ := leads
    exact absurd hinv (Db.not_leads_of_resolve resolved inv)
  | settled _ resolved guard => exact absurd guard (refuses _ (Db.leads_iff.2 ⟨_, resolved⟩))
  | rejected => exact ⟨inserted_invoice, deleted_payment unrecorded, inserted_delivery, rfl⟩

/-- A call whose payment leads nowhere is unmatched. -/
theorem Recording.Ends.idle {out : PersistOutcome} (h : a.Ends B T s out s')
    (noLeads : ∀ inv, ¬ s.db.Leads s.now a.mode a.incoming inv) :
    (∀ m, out ≠ .rejected m) ∧ ∃ u, (∃ y, B y ∧ s.db.ownerAt a.recipient y.choice = u) ∧
      Told T a.webhook ((a.inserted s).exec (.linkPayment a.slateId none u) 0) s' := by
  cases h with
  | rejected _ resolved | settled _ resolved => exact absurd (Db.leads_iff.2 ⟨_, resolved⟩) (noLeads _)
  | unmatched _ _ owner told =>
    refine ⟨fun m h => ?_, _, owner, told⟩
    cases h

namespace Recording.Repeatable

variable {w w₁ w₂ : World W} {out₁ out₂ : PersistOutcome}

/-- The payment leads to invoices that refuse it: neither call leaves anything. -/
theorem refused (h : a.Repeatable secs w) {B' : Answer → Prop} {T' : String → Prop} (ends₁ : a.Ends B T w out₁ w₁)
    (ends₂ : a.Ends B' T' (w₁.later secs) out₂ w₂) (hinv : w.db.Leads w.now a.mode a.incoming inv) :
    a.Repeated w w₁ w₂ out₁ := by
  obtain ⟨unrecorded, inv', hinv'⟩ := h.unrecorded inv hinv
  obtain ⟨invoices, payments, deliveries, same⟩ := ends₁.refused ⟨inv, hinv⟩ h.refuses unrecorded
  have leads : ∀ inv, (w₁.later secs).db.Leads (w₁.later secs).now a.mode a.incoming inv ↔
      w.db.Leads (w.now + secs) a.mode a.incoming inv := fun inv => by
    have later : (w₁.later secs).now = w.now + secs := by rw [← same]; rfl
    rw [later]
    exact ⟨fun hl => hl.congr invoices.symm, fun hl => hl.congr invoices⟩
  have refuses : ∀ inv, (w₁.later secs).db.Leads (w₁.later secs).now a.mode a.incoming inv →
      Matching.mismatch a.received.amount inv.expectedAmount ≠ none := fun inv hl => by
    obtain ⟨inv'', hl'', he⟩ := ((leads inv).1 hl).earlier
    rw [← he]
    exact h.refuses inv'' hl''
  have absent : (w₁.later secs).db.payment.get a.slateId = none := by
    change w₁.db.payment.get a.slateId = none
    rw [payments]
    exact unrecorded
  obtain ⟨invoices', payments', deliveries', -⟩ := ends₂.refused ⟨inv', (leads inv').2 hinv'⟩ refuses absent
  refine ⟨invoices', payments', fun p i hp _ => ?_, ?_, fun m _ => ⟨invoices, payments⟩⟩
  · rw [unrecorded] at hp
    cases hp
  · rw [deliveries']
    exact Nat.le_succ_of_le (le_of_eq (by rw [← deliveries]; rfl))

/-- The payment leads nowhere: the second call links the row to nobody new, and nobody hears of either. -/
theorem idle (h : a.Repeatable secs w) {B' : Answer → Prop} {T' : String → Prop} (ends₁ : a.Ends B T w out₁ w₁)
    (ends₂ : a.Ends B' T' (w₁.later secs) out₂ w₂) (noLeads : ∀ inv, ¬ w.db.Leads w.now a.mode a.incoming inv) :
    a.Repeated w w₁ w₂ out₁ := by
  obtain ⟨noWebhook, unlinked, oneOwner⟩ := h.unmatched noLeads
  obtain ⟨accepted, u, ⟨y, -, hy⟩, told⟩ := ends₁.idle noLeads
  obtain ⟨invoices, endpubs, same, p, row⟩ := told.unmatched
  obtain ⟨-, u', ⟨z, -, hz⟩, told'⟩ := ends₂.idle (World.noLeads_later invoices same noLeads)
  rw [inserted_of_row (s := w₁.later secs) row] at told'
  obtain rfl : u' = u := by
    refine oneOwner u' u (Db.owner_iff.2 ⟨z.choice, ?_⟩) (Db.owner_iff.2 ⟨y.choice, hy⟩)
    rw [Db.ownerAt, ← endpubs]
    exact hz
  have deliveries : w₂.db.delivery = w.db.delivery :=
    (told'.silent noWebhook).trans ((told.silent noWebhook).trans inserted_delivery)
  refine ⟨told'.invoices, told'.payments.trans (linked_again row rfl), fun q i hq hi => ?_, ?_,
    fun m hm => absurd hm (accepted m)⟩
  · rw [unlinked q hq] at hi
    cases hi
  · rw [deliveries]
    exact Nat.le_succ _

/-- On such a ledger the calls are safe. -/
theorem safe (h : a.Repeatable secs w) : a.RepeatSafe U secs w := by
  intro xs ys out₁ out₂ w₁ w₂ hxs hys hexec₁ hexec₂
  have ends₁ := ends_of_exec (fun _ hx => hx) hxs hexec₁
  have ends₂ := ends_of_exec (fun _ hx => hx) hys hexec₂
  by_cases hleads : ∃ inv, w.db.Leads w.now a.mode a.incoming inv
  · obtain ⟨inv, hinv⟩ := hleads
    exact h.refused ends₁ ends₂ hinv
  · exact h.idle ends₁ ends₂ fun inv hinv => hleads ⟨inv, hinv⟩

end Recording.Repeatable

theorem exists_fresh {ρ : Type} {key : ρ → String} (t : Table key) : ∃ e, t.get e = none := by
  obtain ⟨e, he⟩ := Infinite.exists_notMem_finset (t.rows.map key).toFinset
  exact ⟨e, Table.get_eq_none.2 fun h => he (List.mem_toFinset.2 h)⟩

namespace Recording.RepeatSafe

variable {w : World W}

/-- The ends of a first call every statement of which is answered by `x`, and of a second one answered by `y`. -/
theorem calls (safe : a.RepeatSafe U secs w) {x : Answer} (hx : x.fault = none) :
    ∃ out₁ w₁, a.Ends (· = x) (fun e => x.text = e) w out₁ w₁ ∧ ∀ y : Answer, y.fault = none →
      ∃ out₂ w₂, a.Ends (· = y) (fun e => y.text = e) (w₁.later secs) out₂ w₂ ∧ a.Repeated w w₁ w₂ out₁ := by
  obtain ⟨xs, out₁, w₁, hxs, hexec₁⟩ := a.returns U w x
  have ends₁ := ends_of_exec (B := (· = x)) (fun _ h => h ▸ hx) hxs hexec₁
  refine ⟨out₁, w₁, by simpa using ends₁, fun y hy => ?_⟩
  obtain ⟨ys, out₂, w₂, hys, hexec₂⟩ := a.returns U (w₁.later secs) y
  have ends₂ := ends_of_exec (B := (· = y)) (fun _ h => h ▸ hy) hys hexec₂
  exact ⟨out₂, w₂, by simpa using ends₂, safe xs ys out₁ out₂ w₁ w₂ (fun z hz => hxs z hz ▸ hx)
    (fun z hz => hys z hz ▸ hy) hexec₁ hexec₂⟩

/-- No invoice takes the amount: a second call would not find it open, and take the link away or give it to another. -/
theorem refuses (safe : a.RepeatSafe U secs w) (hl : w.db.Leads w.now a.mode a.incoming inv) :
    Matching.mismatch a.received.amount inv.expectedAmount ≠ none := by
  intro guard
  obtain ⟨n, hn⟩ := Db.leads_iff.1 hl
  obtain ⟨out₁, w₁, ends₁, second⟩ := safe.calls (x := { choice := n }) rfl
  obtain ⟨out₂, w₂, ends₂, repeated⟩ := second {} rfl
  cases ends₁ with
  | unmatched hx resolved =>
    rw [hx, hn] at resolved
    cases resolved
  | rejected hx resolved refused =>
    rw [hx, hn] at resolved
    cases resolved
    rw [guard] at refused
    cases refused
  | settled hx resolved _ _ told =>
    rw [hx, hn] at resolved
    cases resolved
    obtain ⟨⟨r, paid, hr⟩, p, row⟩ := told.settled (Db.get_of_resolve hn)
    have still : a.inserted (w₁.later secs) = w₁.later secs := inserted_of_row row
    have kept := row
    rw [← repeated.payments] at kept
    cases ends₂ with
    | unmatched _ _ _ told' =>
      rw [still] at told'
      rw [told'.payments, get_linked (s := w₁.later secs) row] at kept
      have link := congrArg Payment.invoiceId (Option.some.inj kept)
      cases link
    | rejected =>
      rw [get_deleted] at kept
      cases kept
    | @settled _ inv' u' _ _ resolved' _ _ told' =>
      rw [still] at told'
      have linked := get_linked (s := (w₁.later secs).exec (.markPaid inv'.id a.slateId) 0) (i := some inv'.id) (u := u') row
      rw [told'.payments, linked] at kept
      have link : some inv'.id = some inv.id := congrArg Payment.invoiceId (Option.some.inj kept)
      obtain ⟨hget', hopen'⟩ := Db.get_of_resolve resolved'
      rw [Option.some.inj link] at hget'
      obtain rfl : r = inv' := Option.some.inj (paid.symm.trans hget')
      rw [hr] at hopen'
      cases hopen'

/-- So a first call whose payment leads to an invoice is rejected, and takes its row back. -/
theorem rejects (safe : a.RepeatSafe U secs w) (hl : w.db.Leads w.now a.mode a.incoming inv) :
    ∃ w₁ : World W, w₁.db.payment.get a.slateId = none ∧ w₁.now = w.now ∧ w₁.db.invoice = w.db.invoice ∧ w₁.db.payment = w.db.payment ∧
      ∃ out₂ w₂, a.Ends (· = {}) (fun e => ({} : Answer).text = e) (w₁.later secs) out₂ w₂ ∧
        w₂.db.payment = w₁.db.payment := by
  obtain ⟨n, hn⟩ := Db.leads_iff.1 hl
  obtain ⟨out₁, w₁, ends₁, second⟩ := safe.calls (x := { choice := n }) rfl
  obtain ⟨out₂, w₂, ends₂, repeated⟩ := second {} rfl
  cases ends₁ with
  | unmatched hx resolved =>
    rw [hx, hn] at resolved
    cases resolved
  | settled hx resolved guard =>
    rw [hx, hn] at resolved
    cases resolved
    exact absurd guard (safe.refuses hl)
  | rejected =>
    obtain ⟨invoices, payments⟩ := repeated.rejected _ rfl
    exact ⟨(a.inserted w).exec (.deletePayment a.slateId) 0, get_deleted, rfl, invoices, payments, out₂, w₂, ends₂,
      repeated.payments⟩

theorem unrecorded (safe : a.RepeatSafe U secs w) (hl : w.db.Leads w.now a.mode a.incoming inv) :
    w.db.payment.get a.slateId = none := by
  obtain ⟨w₁, gone, -, -, payments, -⟩ := safe.rejects hl
  rw [← payments]
  exact gone

/-- If it led nowhere any more, the second call would leave a row. -/
theorem leadsAgain (safe : a.RepeatSafe U secs w) (hl : w.db.Leads w.now a.mode a.incoming inv) :
    ∃ inv', w.db.Leads (w.now + secs) a.mode a.incoming inv' := by
  by_contra hnone
  obtain ⟨w₁, gone, same, invoices, -, out₂, w₂, ends₂, payments⟩ := safe.rejects hl
  have noLeads : ∀ inv, ¬ (w₁.later secs).db.Leads (w₁.later secs).now a.mode a.incoming inv := fun inv hl => by
    have later : (w₁.later secs).now = w.now + secs := by rw [← same]; rfl
    rw [later] at hl
    exact hnone ⟨inv, hl.congr invoices.symm⟩
  obtain ⟨-, u, -, told⟩ := ends₂.idle noLeads
  obtain ⟨-, -, -, p, row⟩ := told.unmatched
  rw [payments, gone] at row
  cases row

/-- Two calls of a payment that leads nowhere. -/
theorem idles (safe : a.RepeatSafe U secs w) (noLeads : ∀ inv, ¬ w.db.Leads w.now a.mode a.incoming inv)
    {x : Answer} (hx : x.fault = none) : ∃ w₁,
    Told (fun e => x.text = e) a.webhook ((a.inserted w).exec (.linkPayment a.slateId none (w.db.ownerAt a.recipient x.choice)) 0) w₁ ∧
    ∀ y : Answer, y.fault = none → ∃ out₁ w₂, a.Repeated w w₁ w₂ out₁ ∧
      Told (fun e => y.text = e) a.webhook
        ((w₁.later secs).exec (.linkPayment a.slateId none (w.db.ownerAt a.recipient y.choice)) 0) w₂ := by
  obtain ⟨out₁, w₁, ends₁, second⟩ := safe.calls hx
  obtain ⟨-, u, ⟨_, hx', rfl⟩, told⟩ := ends₁.idle noLeads
  rw [hx'] at told
  refine ⟨w₁, told, fun y hy => ?_⟩
  obtain ⟨out₂, w₂, ends₂, repeated⟩ := second y hy
  obtain ⟨invoices, endpubs, same, p, row⟩ := told.unmatched
  obtain ⟨-, u', ⟨_, hy', hu'⟩, told'⟩ := ends₂.idle (World.noLeads_later invoices same noLeads)
  have owner : (w₁.later secs).db.ownerAt a.recipient y.choice = w.db.ownerAt a.recipient y.choice := by
    rw [Db.ownerAt, show (w₁.later secs).db.endpub = w.db.endpub from endpubs, ← Db.ownerAt]
  rw [hy', owner] at hu'
  rw [inserted_of_row (s := w₁.later secs) row, ← hu'] at told'
  exact ⟨out₁, w₂, repeated, told'⟩

theorem noWebhook (safe : a.RepeatSafe U secs w) (noLeads : ∀ inv, ¬ w.db.Leads w.now a.mode a.incoming inv) :
    a.webhook = none := by
  by_contra hwh
  -- two free ids, one for each notification
  obtain ⟨e₁, he₁⟩ := exists_fresh w.db.delivery
  obtain ⟨w₁, told, second⟩ := safe.idles noLeads (x := { text := e₁ }) rfl
  obtain ⟨e₂, he₂⟩ := exists_fresh w₁.db.delivery
  obtain ⟨_, w₂, repeated, told'⟩ := second { text := e₂ } rfl
  obtain ⟨_, rfl, once⟩ := told.queued hwh
  obtain ⟨_, rfl, twice⟩ := told'.queued hwh
  have base : ((a.inserted w).exec (.linkPayment a.slateId none (w.db.ownerAt a.recipient 0)) 0).db.delivery = w.db.delivery :=
    inserted_delivery
  have first : w₁.db.delivery.rows.length = w.db.delivery.rows.length + 1 := by
    rw [once (by rw [base]; exact he₁), base]
  have second : w₂.db.delivery.rows.length = w₁.db.delivery.rows.length + 1 := twice he₂
  have bound := repeated.notifies
  omega

theorem unlinked (safe : a.RepeatSafe U secs w) (noLeads : ∀ inv, ¬ w.db.Leads w.now a.mode a.incoming inv)
    {p : Payment} (hp : w.db.payment.get a.slateId = some p) : p.invoiceId = none := by
  by_contra hlinked
  obtain ⟨i, hi⟩ := Option.ne_none_iff_exists'.1 hlinked
  obtain ⟨w₁, told, second⟩ := safe.idles noLeads (x := {}) rfl
  obtain ⟨_, w₂, repeated, -⟩ := second {} rfl
  obtain ⟨p', hp', hi'⟩ := repeated.keepsLink p i hp hi
  obtain ⟨-, -, -, q, row⟩ := told.unmatched
  rw [repeated.payments, row] at hp'
  obtain rfl := Option.some.inj hp'
  cases hi'

theorem oneOwner (safe : a.RepeatSafe U secs w) (noLeads : ∀ inv, ¬ w.db.Leads w.now a.mode a.incoming inv)
    {u u' : Option String} (hu : w.db.Owner a.recipient u) (hu' : w.db.Owner a.recipient u') : u = u' := by
  obtain ⟨n, rfl⟩ := Db.owner_iff.1 hu
  obtain ⟨n', rfl⟩ := Db.owner_iff.1 hu'
  obtain ⟨w₁, told, second⟩ := safe.idles noLeads (x := { choice := n }) rfl
  obtain ⟨_, w₂, repeated, told'⟩ := second { choice := n' } rfl
  obtain ⟨-, -, -, p, row⟩ := told.unmatched
  have row' := get_linked (s := w₁.later secs) (i := none) (u := w.db.ownerAt a.recipient n') row
  rw [← told'.payments, repeated.payments, row] at row'
  exact congrArg Payment.userId (Option.some.inj row')

end Recording.RepeatSafe

variable (U a secs) in
/-- Recording a payment twice is safe on these ledgers and no others: once it settles an invoice, a second call takes the link
away or gives it to another invoice. -/
theorem repeatSafe_iff (w : World W) : a.RepeatSafe U secs w ↔ a.Repeatable secs w := by
  constructor
  · intro safe
    exact ⟨fun inv hl => safe.refuses hl, fun inv hl => ⟨safe.unrecorded hl, safe.leadsAgain hl⟩,
      fun noLeads => ⟨safe.noWebhook noLeads, fun p hp => safe.unlinked noLeads hp, fun u u' => safe.oneOwner noLeads⟩⟩
  · exact Recording.Repeatable.safe

variable (U a) in
/-- With a failing DELETE a refused payment is rejected all the same, and its row stays. -/
theorem Recording.rejected_undeleted {w : World W} {m : AmountMismatch} {x : Answer}
    (resolved : w.db.resolve w.now a.mode a.incoming 0 = some inv)
    (guard : Matching.mismatch a.received.amount inv.expectedAmount = some m) (fails : x.fault ≠ none) :
    ∃ xs, (∀ y ∈ xs, y.fault = none) ∧ a.run.exec (handler U) (xs ++ [x]) w = (.ret (.rejected m), a.inserted w) ∧
      ∃ p, (a.inserted w).db.payment.get a.slateId = some p := by
  obtain ⟨xs, r, hret, hev, hxs⟩ := Prog.exec_total (handler U) () (fun _ => ({} : Answer)) a.matched w
  obtain ⟨used, left, rfl, onward⟩ := Prog.exec_bind (p := a.matched) (Prod.ext hret rfl)
    (f := fun r => Record.conclude a.received a.payer a.webhook (Record.orUnmatched r))
  have contract := recording_matched (U := U) (A := fun _ y => y = {}) (a := a) (s := w) fun y ⟨_, _, hy⟩ => hy ▸ rfl
  obtain ⟨_, hr, ends⟩ | ⟨hstop, -⟩ := contract.soloExec (used ++ left) hev
  swap
  · exact absurd hret (hstop r)
  obtain rfl := Prog.ret.inj (hret.symm.trans hr)
  refine ⟨used, fun y hy => ?_, ?_, row_inserted⟩
  · obtain ⟨_, _, rfl⟩ := hxs y (List.mem_append_left _ hy)
    rfl
  rw [a.run_eq, onward]
  generalize hs : ((a.matched).exec (handler U) (used ++ left) w).2 = s at ends
  have first : ∀ {y : Answer}, OnSql (fun _ y => y = {}) y → y = {} := fun ⟨_, _, hy⟩ => hy
  cases ends with
  | failed hy fault | unlinked _ _ _ hy fault | forgotten _ _ hy fault => exact absurd (first hy ▸ rfl) fault
  | unmatched hy found =>
    rw [resolve_inserted, first hy, resolved] at found
    cases found
  | settled hy found taken =>
    rw [resolve_inserted, first hy, resolved] at found
    cases found
    exact absurd (guard.symm.trans taken) nofun
  | rejected hy found refused =>
    rw [resolve_inserted, first hy, resolved] at found
    cases found
    obtain rfl := Option.some.inj (guard.symm.trans refused)
    refine (congrArg (Prog.exec (handler U) [x] _) hs).trans ?_
    obtain ⟨f, hf⟩ := Option.ne_none_iff_exists'.1 fails
    change (Prog.await (Eff.sql (.deletePayment a.slateId)) _).exec (handler U) [x] (a.inserted w) = _
    simp only [Prog.exec, handler, act, hf]
    rfl

end

/-! ## One order, paid once and recorded twice -/

/-- An open invoice with the reference `order 7`. -/
def ordered : World Sample.Wallet :=
  let row := Invoice.row Sample.upstream ⟨some "order 7", .grin 100, none, some .memo, none⟩ [109] "m" .memo "i" "tok"
  { Sample.world with db := { Db.empty with invoice := ⟨[row.toInvoice 10], List.nodup_singleton _⟩ } }

/-- The payment of that order. -/
def orderPayment : Recording :=
  ⟨Sample.received "t" 100, some "payer", "m", some "order 7", .memo, some ("url", "secret")⟩

/-- The ledger after a call of it whose notification draws the id `event`. -/
def World.recordOrder (w : World Sample.Wallet) (event : String) : World Sample.Wallet :=
  (orderPayment.run.exec (handler Sample.upstream) (List.replicate 12 { text := event }) w).2

/-- The second call matches nothing any more, takes the link of the first away, and notifies again. -/
theorem orderPayment_unlinked : ¬ orderPayment.RepeatSafe Sample.upstream 0 ordered := by
  intro h
  have faultless : ∀ event, ∀ x ∈ List.replicate 12 ({ text := event } : Answer), x.fault = none := by
    intro event x hx
    rw [List.eq_of_mem_replicate hx]
  have first : orderPayment.run.exec (handler Sample.upstream) (List.replicate 12 { text := "e1" }) ordered =
      (.ret (.matched { invoiceId := some "i" }), ordered.recordOrder "e1") := Prod.ext rfl rfl
  have second : orderPayment.run.exec (handler Sample.upstream) (List.replicate 12 { text := "e2" })
      ((ordered.recordOrder "e1").later 0) = (.ret (.matched {}), (ordered.recordOrder "e1").recordOrder "e2") :=
    Prod.ext rfl rfl
  have same := (h _ _ _ _ _ _ (faultless "e1") (faultless "e2") first second).payments
  have link := congrArg (fun payment => (payment.get "t").bind Payment.invoiceId) same
  have linked : ((ordered.recordOrder "e1").db.payment.get "t").bind Payment.invoiceId = some "i" := rfl
  have unlinked : (((ordered.recordOrder "e1").recordOrder "e2").db.payment.get "t").bind Payment.invoiceId = none := rfl
  rw [unlinked, linked] at link
  cases link

end GoblinPay
