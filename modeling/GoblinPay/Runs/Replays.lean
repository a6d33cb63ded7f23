import GoblinPay.Runs.Links
import GoblinPay.Sample

/-!
# Replays of one settlement

An onion return and a browser paste may both settle one finalized slate, and either may be stopped
and replayed. Two things make that safe: a second payment row for the slate breaks the primary key,
and only one `mark_paid` of an invoice finds it open, which is the call that notifies.
-/

namespace GoblinPay

open Async Sql

section

variable {W : Type}

/-- An invoice of the ledger `w` for which the slate was issued. -/
structure IssuedFor (w : World W) (t : String) (inv : Invoice) : Prop where
  row : w.db.invoice.get inv.id = some inv
  slate : inv.slateId = some t

/-- The invoice was open in `w` and the slate has paid it since. -/
structure Flipped (w : World W) (t : String) (inv : Invoice) (s : World W) : Prop where
  issued : IssuedFor w t inv
  wasOpen : inv.status = .open
  paid : ∃ now, s.db.invoice.get inv.id = some (inv.pay t now)

/-- The deliveries queued since `w`. -/
def queuedSince (w s : World W) : List Delivery := s.db.delivery.rows.drop w.db.delivery.rows.length

/-- What replays of one settlement leave of the ledger they started from. -/
structure Replayed (w : World W) (f : FinalizedInvoice) (s : World W) : Prop where
  invoices : ∀ i, s.db.invoice.get i = w.db.invoice.get i ∨ ∃ inv, inv.id = i ∧ Flipped w f.slateId inv s
  payments : ∀ p, s.db.payment.get f.slateId = some p →
    ∃ inv now, IssuedFor w f.slateId inv ∧ p = (Foreign.paymentRow inv f).toPayment now
  kept : s.db.delivery.rows = w.db.delivery.rows ++ queuedSince w s
  once : ((queuedSince w s).map fun d => d.body.invoiceId).Nodup
  queued : ∀ d ∈ queuedSince w s, ∃ inv, Flipped w f.slateId inv s ∧ d.body.invoiceId = some inv.id
  unknown : (∀ inv, ¬ IssuedFor w f.slateId inv) → s.db = w.db

/-- What a call owes after its `mark_paid` found the invoice `i` open: it is the one that notifies. -/
def Owes (w : World W) (t : String) (g : Option String) (s : World W) : Prop :=
  ∀ i, g = some i → (∃ inv, inv.id = i ∧ Flipped w t inv s) ∧ ∀ d ∈ queuedSince w s, d.body.invoiceId ≠ some i

/-- The slate has a payment row. -/
def HasPayment (t : String) (s : World W) : Prop := s.db.payment.get t ≠ none

/-- What a lookup by slate id found. -/
def Eff.finds {β : Type} : Eff β → β → Option Invoice
  | .sql (.selectBySlateId _), .ok found => found
  | _, _ => none

/-- The operations of a settlement, and what it knows when it issues them; lookups find none but the invoices `only`. -/
inductive Replaying (w : World W) (f : FinalizedInvoice) (only : String → Prop) (g : Option String) : {β : Type} → Eff β → Prop
  | read : Replaying w f only g (.sql (.selectBySlateId f.slateId))
  | insert {inv : Invoice} (issued : IssuedFor w f.slateId inv) :
      Replaying w f only g (.sql (.insertPayment (Foreign.paymentRow inv f)))
  | pay {inv : Invoice} (issued : IssuedFor w f.slateId inv) : Replaying w f only g (.sql (.markPaid inv.id f.slateId))
  | draw : Replaying w f only g .randomId
  | clock : Replaying w f only g .clock
  | elapse (secs : Nat) : Replaying w f only g (.elapse secs)
  | enqueue {i url : String} {payload : WebhookPayload} (names : payload.invoiceId = some i) (owed : g = some i) (found : only i) :
      Replaying w f only g (.sql (.enqueue url payload))

variable {U : Upstream W} {w s s' : World W} {f : FinalizedInvoice} {only : String → Prop} {g : Option String} {t : String} {inv : Invoice}

theorem Replayed.base (unpaid : w.db.payment.get f.slateId = none) : Replayed w f w := by
  have none_queued : queuedSince w w = [] := List.drop_length
  refine ⟨fun _ => Or.inl rfl, fun p hp => ?_, by simp [none_queued], by simp [none_queued], by simp [none_queued], fun _ => rfl⟩
  rw [unpaid] at hp
  cases hp

theorem queuedSince_congr (hdb : s'.db.delivery = s.db.delivery) : queuedSince w s' = queuedSince w s := by
  rw [queuedSince, hdb, queuedSince]

/-- Where the invoices stay as they are, what the slate has paid stays paid. -/
theorem Flipped.congr (h : Flipped w t inv s) (hdb : s'.db.invoice = s.db.invoice) : Flipped w t inv s' :=
  ⟨h.issued, h.wasOpen, by rw [hdb]; exact h.paid⟩

theorem Flipped.unique {inv' : Invoice} (h : Flipped w t inv s) (issued : IssuedFor w t inv') (hid : inv.id = inv'.id) :
    inv = inv' := by
  have hrow := h.issued.row
  rw [hid, issued.row] at hrow
  exact (Option.some.inj hrow).symm

/-- The row of an invoice of the slate. -/
theorem Replayed.row (h : Replayed w f s) (issued : IssuedFor w f.slateId inv) :
    s.db.invoice.get inv.id = some inv ∨ Flipped w f.slateId inv s := by
  rcases h.invoices inv.id with hrow | ⟨inv', hid, hflip⟩
  · exact Or.inl (hrow.trans issued.row)
  · obtain rfl := hflip.unique issued hid
    exact Or.inr hflip

/-- What the lookup by slate id finds is an invoice of the slate, possibly paid since. -/
theorem Replayed.found (h : Replayed w f s) {r : Invoice} (hr : r ∈ s.db.invoice.rows) (slate : r.slateId = some f.slateId) :
    ∃ inv, IssuedFor w f.slateId inv ∧ inv.id = r.id ∧ inv.expectedAmount = r.expectedAmount := by
  rcases h.invoices r.id with hrow | ⟨inv, hid, hflip⟩
  · rw [Table.get_of_mem hr] at hrow
    exact ⟨r, ⟨hrow.symm, slate⟩, rfl, rfl⟩
  · obtain ⟨now, hpaid⟩ := hflip.paid
    rw [hid, Table.get_of_mem hr] at hpaid
    refine ⟨inv, hflip.issued, hid, ?_⟩
    rw [Option.some.inj hpaid]
    rfl

/-! ## What each statement leaves -/

/-- Nothing of what replays leave depends on anything but the database. -/
theorem Replayed.congr (h : Replayed w f s) (hdb : s'.db = s.db) : Replayed w f s' := by
  obtain ⟨db, now, wallet, posted, outbox, memory⟩ := s'
  obtain rfl : db = s.db := hdb
  refine ⟨fun i => (h.invoices i).imp id fun ⟨inv, hid, hf⟩ => ⟨inv, hid, hf.congr rfl⟩, h.payments, h.kept, h.once,
    fun d hd => ?_, h.unknown⟩
  obtain ⟨inv, hf, hn⟩ := h.queued d hd
  exact ⟨inv, hf.congr rfl, hn⟩

/-- The insert records the payment, or one was recorded before. -/
theorem Replayed.insert (h : Replayed w f s) (issued : IssuedFor w f.slateId inv) (n : Nat) :
    Replayed w f (s.exec (.insertPayment (Foreign.paymentRow inv f)) n) ∧
      HasPayment f.slateId (s.exec (.insertPayment (Foreign.paymentRow inv f)) n) ∧
      (s.exec (.insertPayment (Foreign.paymentRow inv f)) n).db.invoice = s.db.invoice ∧
      (s.exec (.insertPayment (Foreign.paymentRow inv f)) n).db.delivery = s.db.delivery := by
  cases hins : s.db.payment.insert ((Foreign.paymentRow inv f).toPayment s.now) with
  | none =>
    have same : s.exec (.insertPayment (Foreign.paymentRow inv f)) n = s := by simp [World.exec, Stmt.exec, inserted, hins]
    rw [same]
    exact ⟨h, Table.insert_eq_none.1 hins, rfl, rfl⟩
  | some tab =>
    have new : s.exec (.insertPayment (Foreign.paymentRow inv f)) n = { s with db := { s.db with payment := tab } } := by
      simp [World.exec, Stmt.exec, inserted, hins]
    have row : tab.get f.slateId = some ((Foreign.paymentRow inv f).toPayment s.now) := by
      rw [Table.get_insert hins]
      exact if_pos rfl
    rw [new]
    refine ⟨⟨fun i => (h.invoices i).imp id (Exists.imp fun inv hflip => hflip.imp id fun hf => hf.congr rfl), fun p hp => ?_, h.kept, h.once,
      fun d hd => ?_, fun hnone => absurd issued (hnone inv)⟩, ?_, rfl, rfl⟩
    · obtain rfl := Option.some.inj (row.symm.trans hp)
      exact ⟨inv, s.now, issued, rfl⟩
    · obtain ⟨inv', hf, hn⟩ := h.queued d hd
      exact ⟨inv', hf.congr rfl, hn⟩
    · intro hnone
      exact Option.some_ne_none _ (row.symm.trans hnone)

/-- What the slate has paid, no later `mark_paid` changes. -/
theorem Flipped.markPaid (h : Flipped w t inv s) (i u : String) (n : Nat) : Flipped w t inv (s.exec (.markPaid i u) n) := by
  obtain ⟨now, hpaid⟩ := h.paid
  refine ⟨h.issued, h.wasOpen, now, ?_⟩
  rw [get_markPaid, hpaid]
  simp [Invoice.pay]

theorem Owes.mono (h : Owes w t g s) (flips : ∀ inv, Flipped w t inv s → Flipped w t inv s')
    (queue : ∀ d ∈ queuedSince w s', d ∈ queuedSince w s ∨ d.body.invoiceId ≠ g) : Owes w t g s' := by
  rintro i rfl
  obtain ⟨⟨inv, hid, hf⟩, unqueued⟩ := h i rfl
  refine ⟨⟨inv, hid, flips inv hf⟩, fun d hd => ?_⟩
  rcases queue d hd with hd | hne
  · exact unqueued d hd
  · exact hne

theorem Replayed.not_owed (h : Replayed w f s) (issued : IssuedFor w f.slateId inv) (stillOpen : ¬ Flipped w f.slateId inv s) :
    ∀ d ∈ queuedSince w s, d.body.invoiceId ≠ some inv.id := by
  intro d hd hn
  obtain ⟨inv', hf, hn'⟩ := h.queued d hd
  obtain rfl := hf.unique issued (Option.some.inj (hn'.symm.trans hn))
  exact stillOpen hf

/-- The `mark_paid` of an invoice of the slate flips it if it finds it open, and says so. -/
theorem Replayed.markPaid (h : Replayed w f s) (issued : IssuedFor w f.slateId inv) (n : Nat) :
    Replayed w f (s.exec (.markPaid inv.id f.slateId) n) ∧
      (((Stmt.markPaid inv.id f.slateId).exec s.now n s.db).1 = .ok true → ¬ Flipped w f.slateId inv s ∧
        Owes w f.slateId (some inv.id) (s.exec (.markPaid inv.id f.slateId) n)) := by
  have queue : queuedSince w (s.exec (.markPaid inv.id f.slateId) n) = queuedSince w s := queuedSince_congr rfl
  have flips : s.db.invoice.get inv.id = some inv → inv.status = .open →
      Flipped w f.slateId inv (s.exec (.markPaid inv.id f.slateId) n) := fun hrow hopen => by
    refine ⟨issued, hopen, s.now, ?_⟩
    rw [get_markPaid, hrow]
    simp [hopen]
  refine ⟨⟨fun i => ?_, h.payments, by rw [queue]; exact h.kept, by rw [queue]; exact h.once, fun d hd => ?_,
    fun hnone => absurd issued (hnone inv)⟩, fun hans => ?_⟩
  · by_cases hi : inv.id = i
    · subst hi
      rcases h.row issued with hrow | hflip
      · by_cases hopen : inv.status = .open
        · exact Or.inr ⟨inv, rfl, flips hrow hopen⟩
        · refine Or.inl ?_
          rw [get_markPaid, hrow, issued.row]
          simp [hopen]
      · exact Or.inr ⟨inv, rfl, hflip.markPaid _ _ n⟩
    · refine (h.invoices i).imp (fun hrow => ?_) fun ⟨inv', hid, hf⟩ => ⟨inv', hid, hf.markPaid _ _ n⟩
      rw [get_markPaid, ← hrow]
      cases hget : s.db.invoice.get i with
      | none => rfl
      | some r =>
        have hr : r.id ≠ inv.id := fun hr => hi (hr.symm.trans (Table.key_of_get hget))
        simp [hr]
  · rw [queue] at hd
    obtain ⟨inv', hf, hn⟩ := h.queued d hd
    exact ⟨inv', hf.markPaid _ _ n, hn⟩
  · -- the row was open, and is flipped now that it changed the row, so the row was open
    have affected := of_decide_eq_true (Except.ok.inj hans)
    obtain ⟨r, hr, hopen⟩ := Table.affected_key.1 affected
    have hnot : ¬ Flipped w f.slateId inv s := fun hf => by
      obtain ⟨now, hpaid⟩ := hf.paid
      rw [hpaid] at hr
      obtain rfl := Option.some.inj hr
      simp [Invoice.pay] at hopen
    have hrow := (h.row issued).resolve_right hnot
    rw [hrow] at hr
    obtain rfl := Option.some.inj hr
    refine ⟨hnot, fun i hi => ?_⟩
    obtain rfl : inv.id = i := Option.some.inj hi
    refine ⟨⟨inv, rfl, flips hrow (of_decide_eq_true hopen)⟩, ?_⟩
    rw [queue]
    exact h.not_owed issued hnot

/-- The notification of the invoice a call owes one for is queued, or refused for its id. -/
theorem Replayed.enqueue {i url : String} {payload : WebhookPayload} (h : Replayed w f s) (owes : Owes w f.slateId (some i) s)
    (names : payload.invoiceId = some i) (n : Nat) : Replayed w f (s.exec (.enqueue url payload) n) ∧
      (s.exec (.enqueue url payload) n).db.invoice = s.db.invoice ∧
      (s.exec (.enqueue url payload) n).db.payment = s.db.payment ∧
      ∀ d ∈ queuedSince w (s.exec (.enqueue url payload) n), d ∈ queuedSince w s ∨ d.body.invoiceId = some i := by
  obtain ⟨⟨inv, hid, hflip⟩, unqueued⟩ := owes i rfl
  cases hins : s.db.delivery.insert (payload.toDelivery url s.now) with
  | none =>
    have same : s.exec (.enqueue url payload) n = s := by simp [World.exec, Stmt.exec, inserted, hins]
    rw [same]
    exact ⟨h, rfl, rfl, fun d hd => Or.inl hd⟩
  | some tab =>
    have new : s.exec (.enqueue url payload) n = { s with db := { s.db with delivery := tab } } := by
      simp [World.exec, Stmt.exec, inserted, hins]
    have queue : queuedSince w { s with db := { s.db with delivery := tab } } =
        queuedSince w s ++ [payload.toDelivery url s.now] := by
      have hrows := Table.rows_insert hins
      simp only [queuedSince, hrows]
      rw [h.kept, List.append_assoc, List.drop_left, List.drop_left]
    have mem : ∀ d, d ∈ queuedSince w { s with db := { s.db with delivery := tab } } ↔
        d ∈ queuedSince w s ∨ d = payload.toDelivery url s.now := fun d => by
      rw [queue, List.mem_append, List.mem_singleton]
    rw [new]
    refine ⟨⟨fun j => (h.invoices j).imp id (Exists.imp fun inv hflip => hflip.imp id fun hf => hf.congr rfl), h.payments, ?_, ?_, fun d hd => ?_,
      fun hnone => absurd hflip.issued (hnone inv)⟩, rfl, rfl, fun d hd => ?_⟩
    · rw [queue, ← List.append_assoc, ← h.kept]
      exact Table.rows_insert hins
    · rw [queue, List.map_append, List.map_singleton]
      refine List.nodup_append.2 ⟨h.once, List.nodup_singleton _, fun a ha b hb => ?_⟩
      obtain ⟨d, hd, rfl⟩ := List.mem_map.1 ha
      rw [List.mem_singleton.1 hb]
      exact names ▸ unqueued d hd
    · rcases (mem d).1 hd with hd | rfl
      · obtain ⟨inv', hf, hn⟩ := h.queued d hd
        exact ⟨inv', hf.congr rfl, hn⟩
      · exact ⟨inv, hflip.congr rfl, hid ▸ names⟩
    · rcases (mem d).1 hd with hd | rfl
      · exact Or.inl hd
      · exact Or.inr names

/-! ## The contract -/

/-- A statement, as opposed to a draw of randomness or a look at the clock. -/
def Eff.isSql {β : Type} : Eff β → Bool
  | .sql _ => true
  | _ => false

variable (U w f only) in
/-- A call of the replays: statements do not fail, the slate's payment row stays, and so does what the call owes. -/
def replaying : Discipline (handler U) (Head Call (World W)) (Option String) where
  inv := Replayed w f
  rely _ g s s' := (HasPayment f.slateId s → HasPayment f.slateId s') ∧ (Owes w f.slateId g s → Owes w f.slateId g s')
  before _ g e _ := Replaying w f only g e
  allowed _ e x s := (e.isSql → x.fault = none) ∧ ∀ inv ∈ e.finds (act U x s e).1, only inv.id
  gain g e b := match e, b with
    | .sql (.markPaid i _), .ok true => some i
    | .sql (.enqueue _ _), _ => none
    | _, _ => g
  rely_refl _ _ _ := ⟨id, id⟩
  rely_trans h h' := ⟨h'.1 ∘ h.1, h'.2 ∘ h.2⟩

variable {h : Head Call (World W)}

theorem replaying_sql {α β : Type} {q : Stmt β} {k : Except SqlxError β → Io α} {Q : α → Option String → World W → Prop}
    {K : World W → Prop} (hK : K s)
    (keep : ∀ s s', (HasPayment f.slateId s → HasPayment f.slateId s') → K s → K s') (hb : Replaying w f only g (.sql q))
    (hok : ∀ (x : Answer) s, Replayed w f s → K s → (∀ inv ∈ (Eff.sql q).finds (q.exec s.now x.choice s.db).1, only inv.id) →
      Meets (replaying U w f only) h Q (k (q.exec s.now x.choice s.db).1)
        ((replaying U w f only).gain g (.sql q) (q.exec s.now x.choice s.db).1) (s.exec q x.choice)) :
    Meets (replaying U w f only) h Q ((sql q).run >>= k) g s := by
  refine Meets.sqlSure (K := K) (fun _ _ hx => hx.1 rfl) hK (fun s s' hr _ => keep s s' hr.1) (fun _ _ _ => hb) fun x s hi hK hx => ?_
  have found := hx.2
  simp only [act, hx.1 rfl] at found
  exact hok x s hi hK found

theorem replaying_enqueue {i url : String} {payload : WebhookPayload} (names : payload.invoiceId = some i) (found : only i)
    (hp : HasPayment f.slateId s) :
    Meets (replaying U w f only) h (fun _ _ s => HasPayment f.slateId s) (discard (enqueue url payload).run) (some i) s := by
  refine replaying_sql (K := HasPayment f.slateId) hp (fun _ _ hk hp => hk hp) (.enqueue names rfl found) fun x s _ hp _ => ?_
  have kept : HasPayment f.slateId (s.exec (.enqueue url payload) x.choice) := by
    rw [HasPayment, payment_enqueue]
    exact hp
  rcases (Stmt.exec s.now x.choice s.db (.enqueue url payload)).1 with e | u
  · exact fun s' hr _ => hr.1 kept
  · exact fun s' hr _ => hr.1 kept

/-- The call whose `mark_paid` found the invoice open notifies. -/
theorem replaying_notify {r : Invoice} (found : only r.id) (wh : Option (String × String)) (hp : HasPayment f.slateId s) :
    Meets (replaying U w f only) h (fun _ _ s => HasPayment f.slateId s) (Foreign.notify r f wh) (some r.id) s := by
  have keep : ∀ g s s', (replaying U w f only).rely h g s s' → Replayed w f s' → HasPayment f.slateId s → HasPayment f.slateId s' :=
    fun _ _ _ hr _ hp => hr.1 hp
  cases wh with
  | none => exact fun s' hr _ => hr.1 hp
  | some wh =>
    refine Meets.step (K := HasPayment f.slateId) hp (keep _) (fun _ _ _ => .draw) fun x s _ hp _ => ?_
    refine Meets.step (K := HasPayment f.slateId) hp (keep _) (fun _ _ _ => .clock) fun y s _ hp _ => ?_
    exact replaying_enqueue rfl found hp

/-- Once a replay has completed, the payment of an issued slate has its row. -/
theorem replaying_settle (wh : Option (String × String)) :
    Meets (replaying U w f only) h (fun _ _ s => (∃ inv, IssuedFor w f.slateId inv) → HasPayment f.slateId s)
      (Foreign.settleFinalized f wh) none s := by
  refine replaying_sql (K := fun _ => True) trivial (fun _ _ _ h => h) .read fun x s hi _ hfound => ?_
  rcases hpick : pick (s.db.invoice.select fun inv => inv.slateId = some f.slateId) x.choice with _ | r
  · -- the slate was issued for no invoice
    have unknown : ∀ inv, ¬ IssuedFor w f.slateId inv := fun inv issued => by
      have here : ∃ r ∈ s.db.invoice.rows, r.slateId = some f.slateId := by
        rcases hi.row issued with hrow | hflip
        · exact ⟨inv, Table.mem_of_get hrow, issued.slate⟩
        · obtain ⟨now, hpaid⟩ := hflip.paid
          exact ⟨inv.pay f.slateId now, Table.mem_of_get hpaid, issued.slate⟩
      obtain ⟨r, hr, hslate⟩ := here
      have hmem : r ∈ s.db.invoice.select fun inv => inv.slateId = some f.slateId :=
        List.mem_filter.2 ⟨hr, decide_eq_true hslate⟩
      rw [pick_eq_none.1 hpick] at hmem
      cases hmem
    simp only [Stmt.exec, hpick]
    intro s' _ _ issued
    obtain ⟨inv, issued⟩ := issued
    exact absurd issued (unknown inv)
  · obtain ⟨hr, hslate⟩ := List.mem_filter.1 (pick_mem hpick)
    obtain ⟨inv, issued, hid, hexp⟩ := hi.found hr (of_decide_eq_true hslate)
    have row : Foreign.paymentRow r f = Foreign.paymentRow inv f := by
      simp [Foreign.paymentRow, Foreign.settledAmount, hid, hexp]
    have found : only r.id := hfound r (by simp [Stmt.exec, hpick, Eff.finds])
    simp only [Stmt.exec, hpick]
    refine replaying_sql (K := fun _ => True) trivial (fun _ _ _ h => h) (row ▸ .insert issued) fun y s hi _ _ => ?_
    have hp : HasPayment f.slateId (s.exec (.insertPayment (Foreign.paymentRow r f)) y.choice) := by
      rw [row]
      exact (hi.insert issued y.choice).2.1
    refine replaying_sql (K := HasPayment f.slateId) hp (fun _ _ hk hp => hk hp) (hid ▸ .pay issued) fun z s _ hp _ => ?_
    have paid : HasPayment f.slateId (s.exec (.markPaid r.id f.slateId) z.choice) := hp
    rcases hans : ((Stmt.markPaid r.id f.slateId).exec s.now z.choice s.db).1 with e | changed
    · exact fun s' hr _ _ => hr.1 paid
    cases changed with
    | true => exact (replaying_notify found wh paid).mono fun _ _ _ _ hp _ => hp
    | false => exact fun s' hr _ _ => hr.1 paid

theorem Owes.congr (h : Owes w t g s) (invoices : s'.db.invoice = s.db.invoice) (deliveries : s'.db.delivery = s.db.delivery) :
    Owes w t g s' :=
  h.mono (fun _ hf => hf.congr invoices) fun d hd => by
    rw [queuedSince_congr deliveries] at hd
    exact Or.inl hd

/-- Whatever a replay does next, the ledger stays one that replays leave, and every call, the others included, still owes
what it owed; no two owe the same notification. -/
theorem replaying_step {β : Type} {e : Eff β} {x : Answer} (hi : Replayed w f s) (owes : Owes w f.slateId g s)
    (hb : Replaying w f only g e) (hx : e.isSql → x.fault = none) :
    (Replayed w f (act U x s e).2 ∧ Owes w f.slateId ((replaying U w f only).gain g e (act U x s e).1) (act U x s e).2) ∧
    (HasPayment f.slateId s → HasPayment f.slateId (act U x s e).2) ∧
    ∀ g', Owes w f.slateId g' s → (∀ i, g = some i → g' ≠ some i) →
      Owes w f.slateId g' (act U x s e).2 ∧ ∀ i, (replaying U w f only).gain g e (act U x s e).1 = some i → g' ≠ some i := by
  have quiet : ∀ s' : World W, s'.db = s.db → (Replayed w f s' ∧ Owes w f.slateId g s') ∧
      (HasPayment f.slateId s → HasPayment f.slateId s') ∧
      ∀ g', Owes w f.slateId g' s → (∀ i, g = some i → g' ≠ some i) → Owes w f.slateId g' s' ∧ ∀ i, g = some i → g' ≠ some i := by
    intro s' hdb
    have invoices := congrArg Db.invoice hdb
    have deliveries := congrArg Db.delivery hdb
    refine ⟨⟨hi.congr hdb, owes.congr invoices deliveries⟩, fun hp => ?_, fun g' owes' hne => ⟨owes'.congr invoices deliveries, hne⟩⟩
    rw [HasPayment, hdb]
    exact hp
  have sql : ∀ {β : Type} (q : Stmt β), x.fault = none →
      act U x s (.sql q) = ((q.exec s.now x.choice s.db).1, s.exec q x.choice) := fun q hf => by
    simp [act, hf, World.exec]
  cases hb with
  | read =>
    rw [sql _ (hx rfl)]
    exact quiet _ rfl
  | draw => exact quiet _ rfl
  | clock => exact quiet _ rfl
  | elapse secs => exact quiet _ rfl
  | insert issued =>
    rw [sql _ (hx rfl)]
    obtain ⟨hi', hp, invoices, deliveries⟩ := hi.insert issued x.choice
    exact ⟨⟨hi', owes.congr invoices deliveries⟩, fun _ => hp, fun g' owes' hne => ⟨owes'.congr invoices deliveries, hne⟩⟩
  | @pay inv issued =>
    rw [sql _ (hx rfl)]
    obtain ⟨hi', flipped⟩ := hi.markPaid issued x.choice
    have still : ∀ {g'}, Owes w f.slateId g' s → Owes w f.slateId g' (s.exec (.markPaid inv.id f.slateId) x.choice) :=
      fun owes' => owes'.mono (fun _ hf => hf.markPaid _ _ _) fun d hd => by
        rw [queuedSince_congr rfl] at hd
        exact Or.inl hd
    refine ⟨⟨hi', ?_⟩, fun hp => hp, fun g' owes' hne => ⟨still owes', ?_⟩⟩
    · rcases hans : ((Stmt.markPaid inv.id f.slateId).exec s.now x.choice s.db).1 with e | changed
      · exact still owes
      cases changed with
      | true => exact (flipped hans).2
      | false => exact still owes
    · rcases hans : ((Stmt.markPaid inv.id f.slateId).exec s.now x.choice s.db).1 with e | changed
      · exact hne
      cases changed with
      | false => exact hne
      | true =>
        -- whoever owes this notification already had seen the invoice flipped
        rintro i hi rfl
        obtain rfl : inv.id = i := Option.some.inj hi
        obtain ⟨⟨inv', hid, hf⟩, -⟩ := owes' inv.id rfl
        obtain rfl := hf.unique issued hid
        exact (flipped hans).1 hf
  | @enqueue i url payload names owed _ =>
    rw [sql _ (hx rfl)]
    obtain ⟨hi', invoices, payments, queue⟩ := hi.enqueue (owed ▸ owes) names x.choice
    refine ⟨⟨hi', fun j hj => by cases hj⟩, fun hp => ?_, fun g' owes' hne => ⟨?_, fun j hj => by cases hj⟩⟩
    · rw [HasPayment, payments]
      exact hp
    · refine owes'.mono (fun _ hf => hf.congr invoices) fun d hd => (queue d hd).imp_right fun hn => ?_
      rw [hn]
      exact (hne i owed).symm

variable (U w f only) in
/-- Replays of one settlement, each at its own pace. -/
def replays : Protocol (handler U) (code U) (Option String) where
  toDiscipline := replaying U w f only
  init := none
  owns _ g s := Owes w f.slateId g s
  apart _ g _ g' := ∀ i, g = some i → g' ≠ some i
  admits c _ := (∃ wh, c = .settle f wh) ∨ ∃ secs, c = .elapse secs
  post h _ _ s := (∃ wh, h.call = .settle f wh) → (∃ inv, IssuedFor w f.slateId inv) → HasPayment f.slateId s
  start_owns _ _ := fun i hi => by cases hi
  start_apart _ _ _ _ := ⟨fun _ _ => Option.some_ne_none _ ∘ Eq.symm, fun _ hi => absurd hi.symm (Option.some_ne_none _)⟩
  start_meets := by
    rintro c s - (⟨wh, rfl⟩ | ⟨secs, rfl⟩) -
    · exact Meets.andThen (replaying_settle wh) fun _ _ _ _ hp s' hr _ _ issued => hr.1 (hp issued)
    · refine Meets.step (K := fun _ => True) trivial (fun _ _ _ _ h => h) (fun _ _ _ => .elapse secs) fun x s _ _ _ => ?_
      rintro s' - - ⟨wh, hcall⟩
      cases hcall
  owns_stable howns hr := hr.2 howns
  keeps hi howns hb hx := (replaying_step hi howns hb hx.1).1
  yields hi howns howns' hapart hb hx := by
    obtain ⟨-, hp, others⟩ := replaying_step hi howns hb hx.1
    exact ⟨hp, fun h => (others _ h hapart).1⟩
  apart_gain hi howns howns' hapart _ hb hx := by
    obtain ⟨-, -, others⟩ := replaying_step hi howns hb hx.1
    have hne := (others _ howns' hapart).2
    exact ⟨hne, fun i hi' h => hne i h hi'⟩

/-! ## Runs -/

variable {ms : Run}

variable (U) in
/-- Replays of the settlement `f` and nothing else but the passing of time, on a ledger without a payment row for the
slate, where no statement fails for a reason outside the ledger. -/
structure Replays (w : World W) (f : FinalizedInvoice) (ms : Run) : Prop where
  calls : ∀ h ∈ Pool.heads (after U w ms), (∃ wh, h.call = .settle f wh) ∨ ∃ secs, h.call = .elapse secs
  succeeds : ∀ ev ∈ history U w ms, ev.eff.isSql → ev.input.fault = none
  unpaid : w.db.payment.get f.slateId = none

variable (U) in
/-- The first `mark_paid` of the invoice `i` in the run found it open. -/
def FirstFindsOpen (w : World W) (ms : Run) (i : String) : Prop :=
  ∃ ms₁ k x ms₂ ev, ms = ms₁ ++ .run k x :: ms₂ ∧ Pool.event? (after U w ms₁) k x = some ev ∧
    (∃ t, ev.eff.write = some (.pay i t)) ∧ (∀ ev' ∈ history U w ms₁, ∀ t, ev'.eff.write ≠ some (.pay i t)) ∧
    ∃ inv, ev.state.db.invoice.get i = some inv ∧ inv.status = .open

variable (U) in
/-- A lookup of the run found the invoice `i`. -/
def Finds (w : World W) (ms : Run) (i : String) : Prop :=
  ∃ ev ∈ history U w ms, ∃ inv ∈ ev.eff.finds (ev.answer (handler U)), inv.id = i

variable (U) in
/-- What the replays come to, wherever they stop. -/
structure SettledOnce (w : World W) (f : FinalizedInvoice) (ms : Run) : Prop where
  recorded : (∃ task ∈ (after U w ms).tasks, (∃ wh, task.head.call = .settle f wh) ∧ ∃ r, task.rest = .ret r) →
    (∃ inv, IssuedFor w f.slateId inv) → ∃ inv p, IssuedFor w f.slateId inv ∧
      (∀ r, r ∈ (after U w ms).state.db.payment.rows ∧ r.slateId = f.slateId ↔ r = p) ∧ p.invoiceId = some inv.id ∧
      p.amount.toInt = max (inv.expectedAmount.getD f.amount.toInt64).toInt 0
  settles : ∀ inv, IssuedFor w f.slateId inv →
    (PaidWith inv.id f.slateId (after U w ms).state ↔ inv.PaidBy f.slateId ∨ FirstFindsOpen U w ms inv.id)
  notifies : ∃ new, (after U w ms).state.db.delivery.rows = w.db.delivery.rows ++ new ∧
    (new.map fun d => d.body.invoiceId).Nodup ∧
    (∀ d ∈ new, ∃ inv, IssuedFor w f.slateId inv ∧ inv.status = .open ∧ d.body.invoiceId = some inv.id) ∧
    ((∀ i i', Finds U w ms i → Finds U w ms i' → i = i') → new.length ≤ 1)
  unknown : (∀ inv, ¬ IssuedFor w f.slateId inv) → (after U w ms).state.db = w.db

/-- The guard's clamp, back in the ledger. -/
theorem toInt_clamp (e : Int64) : (Matching.clamp e).toInt64.toInt = max e.toInt 0 := by
  by_cases h : 0 ≤ e
  · have hclamp := Matching.toNat_clamp.2 h
    have := Int64.le_iff_toInt_le.1 h
    have := Int64.toInt_lt e
    rw [toInt_toInt64]
    simp only [Int64.toInt_zero] at *
    split <;> omega
  · have hneg : e < 0 := by grind
    have := Int64.lt_iff_toInt_lt.1 hneg
    rw [Matching.clamp_of_neg hneg]
    simp only [Int64.toInt_zero] at this
    have hzero : (0 : UInt64).toInt64.toInt = 0 := by decide
    rw [hzero, max_eq_right (by omega)]

/-- Only the `mark_paid` of an invoice touches its row. -/
theorem Replaying.get_eq {β : Type} {e : Eff β} {x : Answer} {i : String} (hb : Replaying w f only g e)
    (hne : ∀ t, e.write ≠ some (.pay i t)) : (act U x s e).2.db.invoice.get i = s.db.invoice.get i := by
  have change := e.invoice_change U x s i
  generalize (act U x s e).2.db.invoice.get i = r at change ⊢
  generalize s.db.invoice.get i = r₀ at change ⊢
  cases change with
  | keep => rfl
  | pay by_ => exact absurd by_ (hne _)
  | create by_ | expire by_ | sweep by_ | arm by_ | confirm by_ => cases hb <;> cases by_

/-- The `mark_paid` that finds an invoice open pays it with the slate. -/
theorem Replaying.paidWith {β : Type} {e : Eff β} {x : Answer} {i : String} (hb : Replaying w f only g e)
    (he : ∃ t, e.write = some (.pay i t)) (succeeds : e.isSql → x.fault = none)
    (hopen : ∃ inv, s.db.invoice.get i = some inv ∧ inv.status = .open) : PaidWith i f.slateId (act U x s e).2 := by
  obtain ⟨t, he⟩ := he
  obtain ⟨inv, hrow, hopen⟩ := hopen
  cases hb with
  | @pay inv' issued =>
    obtain ⟨hid, -⟩ : inv'.id = i ∧ f.slateId = t := by simpa [Eff.write] using he
    have done : (act U x s (.sql (.markPaid inv'.id f.slateId))).2 = s.exec (.markPaid inv'.id f.slateId) x.choice := by
      simp [act, succeeds rfl, World.exec]
    refine ⟨inv.pay f.slateId s.now, ?_, Or.inl rfl, rfl⟩
    rw [done, get_markPaid, hrow, hid]
    simp [hopen, Table.key_of_get hrow]
  | _ => cases he

/-- Whatever a replay does, a delivery that is new in the queue names an invoice a lookup found. -/
theorem Replaying.queue {β : Type} {e : Eff β} {x : Answer} (hb : Replaying w f only g e) {d : Delivery}
    (hd : d ∈ (act U x s e).2.db.delivery.rows) : d ∈ s.db.delivery.rows ∨ ∃ i, only i ∧ d.body.invoiceId = some i := by
  rcases e.queue_change U x s d hd with old | ⟨_, hwrite, rfl⟩
  · exact Or.inl old
  · cases hb with
    | enqueue names _ found =>
      cases hwrite
      exact Or.inr ⟨_, found, names⟩
    | _ => cases hwrite

/-- What holds of the deliveries that were not in the queue at the start holds of those queued since. -/
theorem queued_found {P : Delivery → Prop} (kept : s.db.delivery.rows = w.db.delivery.rows ++ queuedSince w s)
    (new : ∀ d ∈ s.db.delivery.rows, d ∈ w.db.delivery.rows ∨ P d) : ∀ d ∈ queuedSince w s, P d := by
  intro d hd
  have mem : d ∈ s.db.delivery.rows := kept ▸ List.mem_append_right _ hd
  refine (new d mem).resolve_left fun old => ?_
  have apart := s.db.delivery.nodup.of_map
  rw [kept] at apart
  exact (List.nodup_append.1 apart).2.2 d old d hd rfl

/-- Deliveries that name different invoices and all the same one are one at most. -/
theorem length_le_one_of_ids {new : List Delivery} (once : (new.map fun d => d.body.invoiceId).Nodup)
    (same : ∀ d ∈ new, ∀ d' ∈ new, d.body.invoiceId = d'.body.invoiceId) : new.length ≤ 1 := by
  cases new with
  | nil => exact Nat.zero_le 1
  | cons d rest =>
    have ids : ((d :: rest).map fun d => d.body.invoiceId) ⊆ [d.body.invoiceId] := by
      intro i hi
      obtain ⟨d', hd', rfl⟩ := List.mem_map.1 hi
      exact List.mem_singleton.2 (same d' hd' d List.mem_cons_self)
    have bound := once.length_le_of_subset ids
    rwa [List.length_map] at bound

theorem Replays.admitted (hr : Replays U w f ms) : (replays U w f (Finds U w ms)).Admitted (Pool.start w) ms :=
  ⟨fun ev hev => ⟨hr.succeeds ev hev, fun inv hinv => ⟨ev, hev, inv, hinv, rfl⟩⟩, hr.calls, List.pairwise_of_forall fun _ _ => trivial⟩

/-- What the ledger has become is accounted for, wherever the replays are. -/
theorem Replays.replayed (hr : Replays U w f ms) : Replayed w f (after U w ms).state :=
  (Protocol.end_run (D := replays U w f (Finds U w ms)) (.base hr.unpaid) (fun _ => trivial) hr.admitted).1

/-- Every operation of the run is one of a settlement. -/
theorem Replays.replaying (hr : Replays U w f ms) {ev : Happening W} (hev : ev ∈ history U w ms) :
    ∃ g, Replaying w f (Finds U w ms) g ev.eff := by
  obtain ⟨-, g, -, hb⟩ :=
    Protocol.mem_trace_before (D := replays U w f (Finds U w ms)) (.base hr.unpaid) (fun _ => trivial) hr.admitted hev
  exact ⟨g, hb⟩

/-- A replay that returned has left the one row of its slate. -/
theorem Replays.recorded (hr : Replays U w f ms) (issued : ∃ inv, IssuedFor w f.slateId inv)
    (returned : ∃ task ∈ (after U w ms).tasks, (∃ wh, task.head.call = .settle f wh) ∧ ∃ r, task.rest = .ret r) :
    ∃ inv p, IssuedFor w f.slateId inv ∧ (∀ r, r ∈ (after U w ms).state.db.payment.rows ∧ r.slateId = f.slateId ↔ r = p) ∧
      p.invoiceId = some inv.id ∧ p.amount.toInt = max (inv.expectedAmount.getD f.amount.toInt64).toInt 0 := by
  obtain ⟨task, htask, hcall, r, hret⟩ := returned
  obtain ⟨_, hpost⟩ :=
    Protocol.post_run (D := replays U w f (Finds U w ms)) (.base hr.unpaid) (fun _ => trivial) hr.admitted htask hret
  obtain ⟨p, hp⟩ := Option.ne_none_iff_exists'.1 (hpost hcall issued)
  obtain ⟨inv, now, issued, rfl⟩ := hr.replayed.payments p hp
  refine ⟨inv, (Foreign.paymentRow inv f).toPayment now, issued, fun r => ⟨?_, ?_⟩, rfl, toInt_clamp _⟩
  · rintro ⟨hmem, hid⟩
    have hget := Table.get_of_mem hmem
    rw [hid] at hget
    exact Option.some.inj (hget.symm.trans hp)
  · rintro rfl
    exact ⟨Table.mem_of_get hp, rfl⟩

/-- As long as no `mark_paid` of the run names an invoice, its row is as it was. -/
theorem Replays.row_kept (hr : Replays U w f ms) {ms' : Run} {i : String}
    (hms' : ∀ ev ∈ history U w ms', ev ∈ history U w ms ∧ ∀ t, ev.eff.write ≠ some (.pay i t)) :
    (after U w ms').state.db.invoice.get i = w.db.invoice.get i := by
  refine Pool.inv_run (handler U) (code U) (P := Pool.start w) (I := fun s => s.db.invoice.get i = w.db.invoice.get i) rfl
    fun ev hev h => ?_
  obtain ⟨_, hb⟩ := hr.replaying (hms' ev hev).1
  exact (hb.get_eq (hms' ev hev).2).trans h

/-- An invoice that was open is marked paid by the first `mark_paid` that names it. -/
theorem Replays.finds_open (hr : Replays U w f ms) {inv : Invoice} (issued : IssuedFor w f.slateId inv)
    (flipped : Flipped w f.slateId inv (after U w ms).state) : FirstFindsOpen U w ms inv.id := by
  have marked : ∃ ev ∈ history U w ms, ∃ t, ev.eff.write = some (.pay inv.id t) := by
    by_contra hnone
    obtain ⟨now, hpay⟩ := flipped.paid
    have hrow := hr.row_kept fun ev hev => ⟨hev, fun t ht => hnone ⟨ev, hev, t, ht⟩⟩
    have hst := congrArg (Option.map Invoice.status) ((hrow.trans issued.row).symm.trans hpay)
    simp [flipped.wasOpen, Invoice.pay] at hst
  obtain ⟨ms₁, k, x, ms₂, ev, rfl, he, hev, first⟩ := Pool.first_event (handler U) (code U) marked
  refine ⟨ms₁, k, x, ms₂, ev, rfl, he, hev, fun ev' hev' t ht => first ev' hev' ⟨t, ht⟩, inv, ?_, flipped.wasOpen⟩
  rw [Pool.state_of_event he, ← issued.row]
  refine hr.row_kept fun ev' hev' => ⟨?_, fun t ht => first ev' hev' ⟨t, ht⟩⟩
  rw [history, Pool.trace_append]
  exact List.mem_append_left _ hev'

/-- An invoice paid by the slate was so, or a `mark_paid` of the run found it open. -/
theorem Replays.paid_of (hr : Replays U w f ms) {inv : Invoice} (issued : IssuedFor w f.slateId inv)
    (paid : PaidWith inv.id f.slateId (after U w ms).state) : inv.PaidBy f.slateId ∨ FirstFindsOpen U w ms inv.id := by
  obtain ⟨inv', hrow, hpaid⟩ := paid
  rcases hr.replayed.row issued with same | flipped
  · obtain rfl : inv = inv' := Option.some.inj (same.symm.trans hrow)
    exact Or.inl hpaid
  · exact Or.inr (hr.finds_open issued flipped)

/-- Once paid by the slate, an invoice stays so. -/
theorem Replays.paid (hr : Replays U w f ms) {inv : Invoice} (issued : IssuedFor w f.slateId inv)
    (h : inv.PaidBy f.slateId ∨ FirstFindsOpen U w ms inv.id) : PaidWith inv.id f.slateId (after U w ms).state := by
  have lasts : ∀ {β : Type} (e : Eff β) x s, PaidWith inv.id f.slateId s → PaidWith inv.id f.slateId (act U x s e).2 :=
    fun _ _ _ hp => hp.kept
  rcases h with hpaid | ⟨ms₁, k, x, ms₂, ev, rfl, he, ⟨t, hev⟩, -, inv', hrow, hopen⟩
  · exact Pool.inv_run (handler U) (code U) (P := Pool.start w) (I := PaidWith inv.id f.slateId) ⟨inv, issued.row, hpaid⟩
      fun ev _ => lasts ev.eff ev.input ev.state
  · have hmem : ev ∈ history U w (ms₁ ++ .run k x :: ms₂) := Pool.mem_trace_of_event (handler U) (code U) he
    obtain ⟨_, hb⟩ := hr.replaying hmem
    have marked := hb.paidWith (U := U) (s := ev.state) ⟨t, hev⟩ (hr.succeeds ev hmem) ⟨inv', hrow, hopen⟩
    exact Pool.rel_of_mem_trace (handler U) (code U) (R := fun s s' => PaidWith inv.id f.slateId s → PaidWith inv.id f.slateId s')
      (fun _ h => h) (fun h h' hp => h' (h hp)) (fun ev _ => lasts ev.eff ev.input ev.state) hmem marked

/-- Where every lookup finds the same invoice, at most one delivery is queued. -/
theorem Replays.notified_once (hr : Replays U w f ms) (same : ∀ i i', Finds U w ms i → Finds U w ms i' → i = i') :
    (queuedSince w (after U w ms).state).length ≤ 1 := by
  have found : ∀ d ∈ queuedSince w (after U w ms).state, ∃ i, Finds U w ms i ∧ d.body.invoiceId = some i := by
    refine queued_found hr.replayed.kept ?_
    refine Pool.inv_run (handler U) (code U) (P := Pool.start w)
      (I := fun s => ∀ d ∈ s.db.delivery.rows, d ∈ w.db.delivery.rows ∨ ∃ i, Finds U w ms i ∧ d.body.invoiceId = some i)
      (fun d hd => Or.inl hd) fun ev hev queued d hd => ?_
    obtain ⟨_, hb⟩ := hr.replaying hev
    exact hb.queue hd |>.elim (queued d) Or.inr
  refine length_le_one_of_ids hr.replayed.once fun d hd d' hd' => ?_
  obtain ⟨i, hi, hn⟩ := found d hd
  obtain ⟨i', hi', hn'⟩ := found d' hd'
  rw [hn, hn', same i i' hi hi']

/-- However replays of one settlement interleave and wherever they stop, the slate is settled once. -/
theorem replays_settleOnce (hr : Replays U w f ms) : SettledOnce U w f ms where
  recorded returned issued := hr.recorded issued returned
  settles inv issued := ⟨hr.paid_of issued, hr.paid issued⟩
  notifies := by
    refine ⟨queuedSince w (after U w ms).state, hr.replayed.kept, hr.replayed.once, ?_, hr.notified_once⟩
    intro d hd
    obtain ⟨inv, flipped, hn⟩ := hr.replayed.queued d hd
    exact ⟨inv, flipped.issued, flipped.wasOpen, hn⟩
  unknown := hr.replayed.unknown

end

/-! ## One slate, two invoices -/

/-- An invoice of the slate `t`. -/
def sharedInvoice (id : String) (nano : UInt64) : Invoice :=
  ((Invoice.row Sample.upstream ⟨none, .grin nano, none, some .amount, none⟩ [109] "m" .memo id id).toInvoice 10).arm "t" "pack"

/-- `a` expects more than SQLite's integers hold, and `t` has paid `c`. -/
def sharedWorld : World Sample.Wallet :=
  { Sample.world with db := { Db.empty with
      invoice := ⟨[sharedInvoice "a" 18446744073709551610, (sharedInvoice "c" 70).pay "t" 20], by decide⟩ } }

def sharedFinal : FinalizedInvoice := ⟨"t", 0, "kernel"⟩

/-- Two replays, of which the first notifies. -/
def sharedRun : Run :=
  .start (.settle sharedFinal (some ("url", "secret"))) :: List.replicate 6 (.run 0 { text := "e1" }) ++
  .start (.settle sharedFinal (some ("url", "secret"))) :: List.replicate 6 (.run 1 { text := "e2" })

theorem sharedRun_replays : Replays Sample.upstream sharedWorld sharedFinal sharedRun where
  calls h hh := by
    have hmem : h.call ∈ (Pool.heads (after Sample.upstream sharedWorld sharedRun)).map Head.call := List.mem_map_of_mem hh
    have calls : (Pool.heads (after Sample.upstream sharedWorld sharedRun)).map Head.call =
        List.replicate 2 (.settle sharedFinal (some ("url", "secret"))) := by decide
    rw [calls] at hmem
    exact Or.inl ⟨_, List.eq_of_mem_replicate hmem⟩
  succeeds := by decide
  unpaid := by decide

theorem shared_settledOnce : SettledOnce Sample.upstream sharedWorld sharedFinal sharedRun := replays_settleOnce sharedRun_replays

def Write.paid : Write → Option String
  | .pay i _ => some i
  | _ => none

/-- The payment row does not carry the amount its invoice expects, and `c` ends paid by the slate though no `mark_paid` names
it. -/
theorem shared_not_once : Replays Sample.upstream sharedWorld sharedFinal sharedRun ∧
    (∃ p, (after Sample.upstream sharedWorld sharedRun).state.db.payment.get "t" = some p ∧ p.invoiceId = some "a" ∧
      (sharedInvoice "a" 18446744073709551610).expectedAmount = some (-6) ∧ p.amount = 0) ∧
    ∃ inv, (after Sample.upstream sharedWorld sharedRun).state.db.invoice.get "c" = some inv ∧ inv.status = .paid ∧
      inv.paidPaymentId = some "t" ∧ ∀ ev ∈ history Sample.upstream sharedWorld sharedRun,
        ∀ t, ev.eff.write ≠ some (.pay "c" t) := by
  have unmarked : (history Sample.upstream sharedWorld sharedRun).all (fun ev => ev.eff.write.bind Write.paid ≠ some "c") = true := by
    decide
  have paid : ∃ inv, (after Sample.upstream sharedWorld sharedRun).state.db.invoice.get "c" = some inv ∧ inv.status = .paid ∧
      inv.paidPaymentId = some "t" := by decide
  obtain ⟨inv, hget, hstatus, hpaid⟩ := paid
  refine ⟨sharedRun_replays, by decide, inv, hget, hstatus, hpaid, fun ev hev t ht => ?_⟩
  have := List.all_eq_true.1 unmarked ev hev
  rw [ht] at this
  simp [Write.paid] at this

end GoblinPay
