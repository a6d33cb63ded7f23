import GoblinPay.Runs.Outside
import GoblinPay.Runs.Solo
import GoblinPay.Sample
import GoblinPay.Server.Payments

/-!
# Passes of the confirmation poll

A pass records the depth of a payment, which takes it off the work list, and only then confirms the
invoice and queues the notification. `Carried` is what must hold at every stop; `carried_passes` says that
it does in a run whose passes get through the second half once they are in it, and that strands no payment
between two passes.
-/

namespace GoblinPay

open Async Sql

section

variable {W : Type}

/-- A payment of a paid invoice has reached the required depth. -/
def Stranded (required : Int64) (s : World W) (t : String) : Prop :=
  ∃ p i inv, s.db.payment.get t = some p ∧ p.invoiceId = some i ∧ s.db.invoice.get i = some inv ∧ inv.status = .paid ∧
    required ≤ p.confirmations

/-- The `payment.confirmed` delivery of the invoice was queued. -/
def Notified (s : World W) (i : String) : Prop :=
  ∃ d ∈ s.db.delivery.rows, d.eventType = .paymentConfirmed ∧ d.body.invoiceId = some i

/-- A payment of a paid or confirmed invoice that has reached the required depth is done with, down to the
delivery, or it is in the work list. -/
def Carried (policy : ConfirmPolicy) (s : World W) : Prop :=
  ∀ t p i inv, s.db.payment.get t = some p → p.invoiceId = some i → s.db.invoice.get i = some inv →
    inv.status = .paid ∨ inv.status = .confirmed → policy.required ≤ p.confirmations →
    (inv.status = .confirmed ∧ (policy.webhookUrl.isSome = true → Notified s i)) ∨ p.pending policy.required = true

/-- The invariant of the passes. -/
structure UpToDate (policy : ConfirmPolicy) (s : World W) : Prop where
  stranded : ∀ t, ¬ Stranded policy.required s t
  notified : ∀ i inv, s.db.invoice.get i = some inv → inv.status = .confirmed → policy.webhookUrl.isSome = true → Notified s i

theorem UpToDate.carried {policy : ConfirmPolicy} {s : World W} (h : UpToDate policy s) : Carried policy s := by
  intro t p i inv hp hi hinv hstatus hdepth
  rcases hstatus with hpaid | hconfirmed
  · exact absurd ⟨p, i, inv, hp, hi, hinv, hpaid, hdepth⟩ (h.stranded t)
  · exact Or.inl ⟨hconfirmed, h.notified i inv hinv hconfirmed⟩

/-- An operation of the second half: the transition of a paid invoice, and what follows it. -/
def Eff.Vital {β : Type} (s : World W) : Eff β → Prop
  | .sql (.markConfirmed i) => ∃ inv, s.db.invoice.get i = some inv ∧ inv.status = .paid
  | .sql (.loadForWebhook _) | .sql (.enqueue ..) | .randomId | .clock => True
  | _ => False

def Eff.answered {β : Type} : Eff β → β → Bool
  | .sql _, r => r.isOk
  | _, _ => true

variable (U : Upstream W) (policy : ConfirmPolicy)

/-- The contract of a pass that gets through the second half. -/
abbrev polling : Discipline (handler U) Unit Unit :=
  .alone (handler U) (fun _ => True) (fun _ _ e s => ¬ e.Vital s → UpToDate policy s)
    (fun _ e x s => e.Vital s → e.answered (act U x s e).1 = true) fun _ _ _ => ()

variable {U policy} {s : World W}

/-- Reading the node changes nothing. -/
theorem polling_confirmStatus (excess : String) (h : UpToDate policy s) :
    Meets (polling U policy) () (fun _ _ s' => s' = s) (GpWallet.confirmStatus excess).run () s := by
  refine alone_upstream (fun _ => h) (fun x tip _ _ => ?_) fun x m _ _ => rfl
  exact alone_upstream (fun _ => h) (fun y height _ _ => Meets.aloneRet rfl) fun y m _ _ => rfl

/-- Up to date but for payments of the invoice `i`. -/
structure BehindOn (policy : ConfirmPolicy) (i : String) (s : World W) : Prop where
  behind : ∀ t, Stranded policy.required s t → ∃ p, s.db.payment.get t = some p ∧ p.invoiceId = some i
  notified : ∀ j inv, s.db.invoice.get j = some inv → inv.status = .confirmed → policy.webhookUrl.isSome = true → Notified s j

/-- Up to date but for the notification of the invoice `i`. -/
structure Unannounced (policy : ConfirmPolicy) (i : String) (s : World W) : Prop where
  stranded : ∀ t, ¬ Stranded policy.required s t
  notified : ∀ j inv, j ≠ i → s.db.invoice.get j = some inv → inv.status = .confirmed → policy.webhookUrl.isSome = true →
    Notified s j

variable {i : String} {n : Nat}

theorem BehindOn.upToDate (h : BehindOn policy i s) (unpaid : ∀ inv, s.db.invoice.get i = some inv → inv.status ≠ .paid) :
    UpToDate policy s := by
  refine ⟨fun t hstranded => ?_, h.notified⟩
  obtain ⟨p, hp, hi⟩ := h.behind t hstranded
  obtain ⟨p', j, inv, hp', hj, hinv, hpaid, -⟩ := hstranded
  rw [hp] at hp'
  cases hp'
  rw [hi] at hj
  cases hj
  exact unpaid inv hinv hpaid

/-- The transition confirms every paid invoice that was behind. -/
theorem BehindOn.confirm (h : BehindOn policy i s) : Unannounced policy i (s.exec (.markConfirmed i) n) := by
  refine ⟨fun t hstranded => ?_, fun j inv' hj hinv' hconfirmed hurl => ?_⟩
  · obtain ⟨p, j, inv', hp, hlink, hinv', hpaid, hdepth⟩ := hstranded
    rw [get_markConfirmed] at hinv'
    obtain ⟨inv, hinv, rfl⟩ := Option.map_eq_some_iff.1 hinv'
    split at hpaid
    · cases hpaid
    · rename_i other
      obtain ⟨p', hp', hi⟩ := h.behind t ⟨p, j, inv, hp, hlink, hinv, hpaid, hdepth⟩
      have hp : s.db.payment.get t = some p := hp
      rw [hp'] at hp
      cases hp
      rw [hi] at hlink
      cases hlink
      simp [Table.key_of_get hinv, hpaid] at other
  · rw [get_markConfirmed] at hinv'
    obtain ⟨inv, hinv, rfl⟩ := Option.map_eq_some_iff.1 hinv'
    rw [if_neg (by simp [Table.key_of_get hinv, hj])] at hconfirmed
    exact h.notified j inv hinv hconfirmed hurl

/-- A notification that is queued is the one missing. -/
theorem Unannounced.announce (h : Unannounced policy i s) {url : String} {payload : WebhookPayload} {u : Unit}
    (hok : ((Stmt.enqueue url payload).exec s.now n s.db).1 = .ok u) (htype : payload.eventType = .paymentConfirmed)
    (hinvoice : payload.invoiceId = some i) : UpToDate policy (s.exec (.enqueue url payload) n) := by
  obtain ⟨tab, hins⟩ : ∃ tab, s.db.delivery.insert (payload.toDelivery url s.now) = some tab := by
    cases hins : s.db.delivery.insert (payload.toDelivery url s.now) with
    | none => simp [Stmt.exec, inserted, hins] at hok
    | some tab => exact ⟨tab, rfl⟩
  have rows : (s.exec (.enqueue url payload) n).db = { s.db with delivery := tab } := by
    simp only [World.exec, Stmt.exec, inserted, hins]
  have queued : Notified (s.exec (.enqueue url payload) n) i := by
    refine ⟨payload.toDelivery url s.now, ?_, htype, hinvoice⟩
    rw [rows]
    exact Table.mem_of_get ((Table.get_insert hins _).trans (if_pos rfl))
  have kept : ∀ j, Notified s j → Notified (s.exec (.enqueue url payload) n) j := by
    rintro j ⟨d, hd, hd'⟩
    refine ⟨d, ?_, hd'⟩
    rw [rows]
    refine Table.mem_of_get ((Table.get_insert hins (Delivery.id d)).trans ?_)
    have hget := Table.get_of_mem hd
    split
    · rename_i same
      rw [← same, Table.get_of_insert hins] at hget
      cases hget
    · exact hget
  refine ⟨fun t hstranded => ?_, fun j inv hinv hconfirmed hurl => ?_⟩
  · rw [Stranded, rows] at hstranded
    exact h.stranded t hstranded
  · rw [rows] at hinv
    by_cases hj : j = i
    · rw [hj]
      exact queued
    · exact kept j (h.notified j inv hj hinv hconfirmed hurl)

/-! ## The walk of a pass -/

variable {α β : Type} {Q : α → Unit → World W → Prop}

/-- A statement of the second half succeeds. -/
theorem polling_vital {q : Stmt β} {f : Except SqlxError β → Io α} (hvital : (Eff.sql q).Vital s)
    (hok : ∀ (x : Answer) b, (q.exec s.now x.choice s.db).1 = .ok b → Meets (polling U policy) () Q (f (.ok b)) () (s.exec q x.choice)) :
    Meets (polling U policy) () Q ((sql q).run >>= f) () s := by
  refine Meets.aloneStep (k := f) (fun h => absurd hvital h) fun x hx => ?_
  have answered := hx hvital
  rcases hr : (act U x s (.sql q)).1 with e | b
  · rw [hr] at answered
    cases answered
  · obtain ⟨-, hq, hs⟩ := act_sql_ok hr
    simp only [handler, hr, hs]
    exact hok x b hq

/-- A statement that changes nothing the invariant reads. -/
theorem polling_sql {q : Stmt β} {f : Except SqlxError β → Io α} (h : UpToDate policy s)
    (hok : ∀ (x : Answer) b, (q.exec s.now x.choice s.db).1 = .ok b → Meets (polling U policy) () Q (f (.ok b)) () (s.exec q x.choice))
    (herror : ∀ e, Meets (polling U policy) () Q (f (.error e)) () s) :
    Meets (polling U policy) () Q ((sql q).run >>= f) () s := by
  refine Meets.aloneStep (k := f) (fun _ => h) fun x _ => ?_
  rcases hr : (act U x s (.sql q)).1 with e | b
  · have hs := act_sql_error hr
    simp only [handler, hr, hs]
    exact herror e
  · obtain ⟨-, hq, hs⟩ := act_sql_ok hr
    simp only [handler, hr, hs]
    exact hok x b hq

/-- Up to date again, and no payment changed. -/
def Resumed (policy : ConfirmPolicy) (s : World W) (_ : Unit) (_ : Unit) (s' : World W) : Prop :=
  UpToDate policy s' ∧ s'.db.payment = s.db.payment

theorem polling_enqueue {url : String} {payload : WebhookPayload} (h : Unannounced policy i s)
    (htype : payload.eventType = .paymentConfirmed) (hinvoice : payload.invoiceId = some i) :
    Meets (polling U policy) () (Resumed policy s) (discard (enqueue url payload).run) () s := by
  have queued : Meets (polling U policy) () (fun _ _ s' => Resumed policy s () () s') (sql (.enqueue url payload)).run () s :=
    polling_vital (q := .enqueue url payload) (f := .ret) trivial fun z _ hz =>
      Meets.aloneRet ⟨h.announce hz htype hinvoice, payment_enqueue _ url payload _⟩
  refine Meets.andThen (f := fun _ => .ret ()) (Meets.tryThen queued (fun _ _ s _ h => ?_) fun _ _ s _ h => ?_)
    fun _ _ s _ h => Meets.aloneRet h
  · exact Meets.aloneRet h
  · exact Meets.aloneRet h

theorem polling_notifyConfirmed {url t : String} {height : Option Int64} {confirmations : UInt64}
    (h : Unannounced policy i s) (hrow : (s.db.payment.get t).isSome = true) :
    Meets (polling U policy) () (Resumed policy s) (Payments.notifyConfirmed url t i height confirmations) () s := by
  refine polling_vital (q := .loadForWebhook t) trivial fun x row hrow' => ?_
  obtain ⟨p, hp⟩ := Option.isSome_iff_exists.1 hrow
  rw [World.exec_read (q := .loadForWebhook t) trivial]
  simp only [Stmt.exec, hp, Option.map_some, Except.ok.injEq] at hrow'
  subst hrow'
  refine Meets.aloneStep (fun h => absurd trivial h) fun y _ => ?_
  refine Meets.aloneStep (fun h => absurd trivial h) fun y' _ => ?_
  exact polling_enqueue h rfl rfl

/-- Whether the transition takes place. -/
theorem markConfirmed_answers {b : Bool} (hb : ((Stmt.markConfirmed i).exec s.now n s.db).1 = .ok b) :
    b = true ↔ ∃ inv, s.db.invoice.get i = some inv ∧ inv.status = .paid := by
  obtain rfl := Except.ok.inj hb
  rw [decide_eq_true_eq, Table.affected_pos]
  constructor
  · rintro ⟨inv, hinv, hp⟩
    simp only [Bool.and_eq_true, decide_eq_true_eq] at hp
    obtain ⟨rfl, hpaid⟩ := hp
    exact ⟨inv, Table.get_of_mem hinv, hpaid⟩
  · rintro ⟨inv, hinv, hpaid⟩
    exact ⟨inv, Table.mem_of_get hinv, by simp [Table.key_of_get hinv, hpaid]⟩

theorem polling_finalizeInvoice {t : String} {height : Option Int64} {confirmations : UInt64}
    (h : BehindOn policy i s) (hrow : (s.db.payment.get t).isSome = true) :
    Meets (polling U policy) () (Resumed policy s) (Payments.finalizeInvoice policy t i height confirmations) () s := by
  have unpaid : (¬ ∃ inv, s.db.invoice.get i = some inv ∧ inv.status = .paid) → UpToDate policy s := fun hno =>
    h.upToDate fun inv hinv hpaid => hno ⟨inv, hinv, hpaid⟩
  by_cases hpaid : ∃ inv, s.db.invoice.get i = some inv ∧ inv.status = .paid
  · refine polling_vital (q := .markConfirmed i) hpaid fun x b hb => ?_
    obtain rfl : b = true := (markConfirmed_answers hb).2 hpaid
    have confirmed : Unannounced policy i (s.exec (.markConfirmed i) x.choice) := h.confirm
    dsimp only
    split
    · exact polling_notifyConfirmed confirmed hrow
    · rename_i hurl
      refine Meets.aloneRet ⟨⟨confirmed.stranded, fun j inv _ _ hset => ?_⟩, rfl⟩
      rw [hurl] at hset
      cases hset
  · refine polling_sql (q := .markConfirmed i) (unpaid hpaid) (fun x b hb => ?_) fun e => Meets.aloneRet ⟨unpaid hpaid, rfl⟩
    obtain rfl : b = false := Bool.eq_false_iff.2 fun hb' => hpaid ((markConfirmed_answers hb).1 hb')
    refine Meets.aloneRet ⟨⟨h.confirm.stranded, fun j inv' hinv' hconfirmed hurl => ?_⟩, rfl⟩
    rw [get_markConfirmed] at hinv'
    obtain ⟨inv, hinv, rfl⟩ := Option.map_eq_some_iff.1 hinv'
    split at hconfirmed
    · rename_i hthis
      simp only [Bool.and_eq_true, decide_eq_true_eq] at hthis
      refine absurd ⟨inv, ?_, hthis.2⟩ hpaid
      rw [← hthis.1, Table.key_of_get hinv]
      exact hinv
    · exact h.notified j inv hinv hconfirmed hurl

/-- Recording the depth of a payment strands that payment at most. -/
theorem UpToDate.deepen {t : String} {height : Option Int64} {c : Int64} (h : UpToDate policy s) {t' : String}
    (hstranded : Stranded policy.required (s.exec (.updateDepth height c t) n) t') : t' = t ∧ policy.required ≤ c := by
  obtain ⟨p', i, inv, hp', hlink, hinv, hpaid, hdepth⟩ := hstranded
  rw [get_updateDepth] at hp'
  obtain ⟨p, hp, rfl⟩ := Option.map_eq_some_iff.1 hp'
  split at hlink
  · rename_i same
    rw [if_pos same] at hdepth
    exact ⟨(Table.key_of_get hp).symm.trans same, hdepth⟩
  · rename_i other
    rw [if_neg other] at hdepth
    exact absurd ⟨p, i, inv, hp, hlink, hinv, hpaid, hdepth⟩ (h.stranded t')

/-- The entries of the work list still say what their payments are linked to. -/
def Listing (s : World W) (pending : List (String × String × Option String)) : Prop :=
  ∀ entry ∈ pending, ∃ p, s.db.payment.get entry.1 = some p ∧ p.invoiceId = entry.2.2

theorem Listing.deepen {pending : List (String × String × Option String)} (h : Listing s pending) {t : String}
    {height : Option Int64} {c : Int64} : Listing (s.exec (.updateDepth height c t) n) pending := by
  intro entry hentry
  obtain ⟨p, hp, hlink⟩ := h entry hentry
  refine ⟨_, (get_updateDepth _).trans (by rw [hp, Option.map_some]), ?_⟩
  split <;> exact hlink

theorem polling_confirmOne {t : String} {link : Option String} {status : ConfirmStatus}
    {rest : List (String × String × Option String)} (h : UpToDate policy s)
    (hrow : ∃ p, s.db.payment.get t = some p ∧ p.invoiceId = link) (hrest : Listing s rest) :
    Meets (polling U policy) () (fun _ _ s' => UpToDate policy s' ∧ Listing s' rest)
      (Payments.confirmOne policy t link status) () s := by
  obtain ⟨p, hp, hlink⟩ := hrow
  unfold Payments.confirmOne
  dsimp only
  refine polling_sql (q := .updateDepth _ _ t) h (fun x _ _ => ?_) fun e => Meets.aloneRet ⟨h, hrest⟩
  have hget : (s.exec (.updateDepth (status.height.map UInt64.toInt64) (status.confirmations.getD 0).toInt64 t) x.choice).db.payment.get t =
      some (p.atDepth (status.height.map UInt64.toInt64) (status.confirmations.getD 0).toInt64 s.now) := by
    rw [get_updateDepth, hp, Option.map_some, if_pos (Table.key_of_get hp)]
  have listed : Listing (s.exec (.updateDepth (status.height.map UInt64.toInt64) (status.confirmations.getD 0).toInt64 t) x.choice) rest :=
    hrest.deepen
  have stranded : ∀ t', Stranded policy.required (s.exec (.updateDepth (status.height.map UInt64.toInt64)
      (status.confirmations.getD 0).toInt64 t) x.choice) t' → t' = t ∧ policy.required ≤ (status.confirmations.getD 0).toInt64 :=
    fun _ => h.deepen
  have notified : ∀ j inv, (s.exec (.updateDepth (status.height.map UInt64.toInt64) (status.confirmations.getD 0).toInt64 t)
      x.choice).db.invoice.get j = some inv → inv.status = .confirmed → policy.webhookUrl.isSome = true →
      Notified (s.exec (.updateDepth (status.height.map UInt64.toInt64) (status.confirmations.getD 0).toInt64 t) x.choice) j :=
    h.notified
  generalize s.exec (.updateDepth (status.height.map UInt64.toInt64) (status.confirmations.getD 0).toInt64 t) x.choice = s₁ at *
  dsimp only
  split
  · cases link with
    | some i =>
      have behind : BehindOn policy i s₁ := ⟨fun t' ht' => ?_, notified⟩
      · refine (polling_finalizeInvoice behind (by rw [hget]; rfl)).mono fun _ _ s' _ h => ⟨h.1, fun entry hentry => ?_⟩
        rw [h.2]
        exact listed entry hentry
      · obtain ⟨rfl, -⟩ := stranded t' ht'
        exact ⟨_, hget, hlink⟩
    | none =>
      refine Meets.aloneRet ⟨⟨fun t' ht' => ?_, notified⟩, listed⟩
      obtain ⟨rfl, -⟩ := stranded t' ht'
      obtain ⟨p', i, _, hp', hi, -⟩ := ht'
      rw [hget] at hp'
      cases hp'
      rw [show (p.atDepth _ _ s.now).invoiceId = none from hlink] at hi
      cases hi
  · rename_i shallow
    exact Meets.aloneRet ⟨⟨fun t' ht' => shallow (stranded t' ht').2, notified⟩, listed⟩

theorem polling_confirmAll {pending : List (String × String × Option String)} (h : UpToDate policy s) (hlist : Listing s pending) :
    Meets (polling U policy) () (fun _ _ s' => UpToDate policy s') (Payments.confirmAll policy pending) () s := by
  induction pending generalizing s with
  | nil => exact Meets.aloneRet h
  | cons entry rest ih =>
    obtain ⟨t, kernelExcess, link⟩ := entry
    have hrow := hlist (t, kernelExcess, link) List.mem_cons_self
    have hrest : Listing s rest := fun entry hentry => hlist entry (List.mem_cons_of_mem _ hentry)
    refine Meets.andThen (polling_confirmStatus kernelExcess h) fun r _ s' _ hs' => ?_
    subst hs'
    cases r with
    | error e => exact ih h hrest
    | ok status =>
      dsimp only
      split
      · exact Meets.andThen (polling_confirmOne h hrow hrest) fun _ _ s' _ h => ih h.1 h.2
      · exact ih h hrest

variable (U policy) in
/-- A pass that gets through its second halves keeps the invariant. -/
theorem polling_confirmPending (h : UpToDate policy s) :
    Meets (polling U policy) () (fun _ _ s' => UpToDate policy s') (Payments.confirmPending policy).run () s := by
  refine Meets.tryThen (P := fun r _ s' => s' = s ∧ ∀ pending, r = .ok pending → Listing s pending) ?_
    (fun pending _ s' _ hs' => ?_) fun e _ s' _ hs' => Meets.aloneRet (by rw [hs'.1]; exact h)
  · refine polling_sql (q := .selectPending policy.required) (f := .ret) h (fun x pending hpending => ?_) fun e =>
      Meets.aloneRet ⟨rfl, nofun⟩
    refine Meets.aloneRet ⟨rfl, fun pending' heq entry hentry => ?_⟩
    cases heq
    obtain rfl := Except.ok.inj hpending
    obtain ⟨p, hp, hentry⟩ := List.mem_filterMap.1 hentry
    obtain ⟨kernel, -, rfl⟩ := Option.map_eq_some_iff.1 hentry
    exact ⟨p, Table.get_of_mem (List.mem_filter.1 hp).1, rfl⟩
  · obtain ⟨rfl, hlist⟩ := hs'
    exact Meets.andThen (f := fun u => (.ret (.ok u) : Io (Except SqlxError Unit))) (polling_confirmAll h (hlist pending rfl))
      fun _ _ s' _ h => Meets.aloneRet h

end

/-! ## Pass after pass -/

/-- One pass, from the state it finds, with the threshold its process was started with. -/
structure Pass (W : Type) where
  required : Int64
  found : World W
  inputs : List Answer

section

variable {W : Type}

/-- What the rest of the server does between two passes, and a restart with a new threshold: no payment of
a paid invoice comes to the required depth this way. -/
structure Lull (old new : Int64) (s s' : World W) : Prop where
  /-- neither by a lower threshold -/
  lowered : ∀ t p i inv, s'.db.payment.get t = some p → p.invoiceId = some i → s'.db.invoice.get i = some inv →
    inv.status = .paid → p.confirmations < old → p.confirmations < new
  /-- nor by a link, or a transition of the invoice, that comes after the depth -/
  late : ∀ t, Stranded old s' t → Stranded old s t
  /-- only the poll confirms -/
  confirmed : ∀ i inv', s'.db.invoice.get i = some inv' → inv'.status = .confirmed →
    ∃ inv, s.db.invoice.get i = some inv ∧ inv.status = .confirmed
  queued : ∀ i, Notified s i → Notified s' i

variable (U : Upstream W) (url : Option String)

namespace Pass

variable (pass : Pass W)

def after : World W :=
  ((Payments.confirmPending ⟨pass.required, url⟩).run.exec (handler U) pass.inputs pass.found).2

/-- The pass neither fails nor stops in a second half. -/
structure Through : Prop where
  answers : ∀ ev ∈ (Payments.confirmPending ⟨pass.required, url⟩).run.events (handler U) () pass.inputs pass.found,
    ev.eff.Vital ev.state → ev.eff.answered (ev.answer (handler U)) = true
  stop : ((Payments.confirmPending ⟨pass.required, url⟩).run.exec (handler U) pass.inputs pass.found).1.Next
    fun e => ¬ e.Vital (pass.after U url)

end Pass

/-- Every pass gets through, and none is preceded by more than a lull. -/
def Unbroken : Int64 → World W → List (Pass W) → Prop
  | _, _, [] => True
  | required, s, pass :: passes =>
    Lull required pass.required s pass.found ∧ pass.Through U url ∧ Unbroken pass.required (pass.after U url) passes

/-- The threshold in force and the state after the passes. -/
def passed : Int64 → World W → List (Pass W) → Int64 × World W
  | required, s, [] => (required, s)
  | _, _, pass :: passes => passed pass.required (pass.after U url) passes

variable {U url} {s s' : World W} {old new : Int64}

theorem UpToDate.lull (h : UpToDate ⟨old, url⟩ s) (lull : Lull old new s s') : UpToDate ⟨new, url⟩ s' := by
  refine ⟨fun t hstranded => ?_, fun i inv' hinv' hconfirmed hurl => ?_⟩
  · obtain ⟨p, i, inv, hp, hi, hinv, hpaid, hdepth⟩ := hstranded
    by_cases hold : p.confirmations < old
    · have shallow := lull.lowered t p i inv hp hi hinv hpaid hold
      have hdepth : new ≤ p.confirmations := hdepth
      grind
    · have deep : old ≤ p.confirmations := by grind
      exact h.stranded t (lull.late t ⟨p, i, inv, hp, hi, hinv, hpaid, deep⟩)
  · obtain ⟨inv, hinv, hconfirmed⟩ := lull.confirmed i inv' hinv' hconfirmed
    exact lull.queued i (h.notified i inv hinv hconfirmed hurl)

theorem UpToDate.pass {pass : Pass W} (h : UpToDate ⟨pass.required, url⟩ pass.found) (through : pass.Through U url) :
    UpToDate ⟨pass.required, url⟩ (pass.after U url) := by
  rcases (polling_confirmPending U ⟨pass.required, url⟩ h).aloneExec pass.inputs through.answers with
    ⟨_, -, hend⟩ | ⟨_, e, k, hstop, hend⟩
  · exact hend
  · have stop := through.stop
    rw [hstop] at stop
    exact hend stop

theorem upToDate_passes {passes : List (Pass W)} (h : UpToDate ⟨old, url⟩ s) (unbroken : Unbroken U url old s passes) :
    UpToDate ⟨(passed U url old s passes).1, url⟩ (passed U url old s passes).2 := by
  induction passes generalizing old s with
  | nil => exact h
  | cons pass passes ih =>
    obtain ⟨lull, through, rest⟩ := unbroken
    exact ih ((h.lull lull).pass through) rest

variable (U url) in
/-- In every run of passes from an empty server that neither fail nor stop in a second half, and between
which no payment is stranded, what has the required depth is done with or in the work list. -/
theorem carried_passes (wallet : W) (now : Time) (required : Int64) (passes : List (Pass W))
    (unbroken : Unbroken U url required (World.fresh wallet now) passes) :
    Carried ⟨(passed U url required (World.fresh wallet now) passes).1, url⟩
      (passed U url required (World.fresh wallet now) passes).2 := by
  have start : UpToDate ⟨required, url⟩ (World.fresh wallet now) := by
    refine ⟨?_, fun i inv hinv => (World.fresh_invoice hinv).elim⟩
    rintro t ⟨p, i, inv, hp, -⟩
    cases hp
  exact (upToDate_passes start unbroken).carried

end

/-! ## One pass -/

/-- From a server that has notified nobody: shallow payments and no confirmed invoice. -/
theorem Lull.of_shallow {W : Type} {s s' : World W} {old new : Int64}
    (shallow : ∀ p ∈ s'.db.payment.rows, p.confirmations < old ∧ p.confirmations < new)
    (unconfirmed : ∀ inv ∈ s'.db.invoice.rows, inv.status ≠ .confirmed) (silent : s.db.delivery.rows = []) :
    Lull old new s s' where
  lowered _ _ _ _ hp _ _ _ _ := (shallow _ (Table.mem_of_get hp)).2
  late t := by
    rintro ⟨p, i, inv, hp, -, -, -, hdepth⟩
    have := (shallow p (Table.mem_of_get hp)).1
    grind
  confirmed i inv' hinv' hconfirmed := absurd hconfirmed (unconfirmed inv' (Table.mem_of_get hinv'))
  queued i := by
    rintro ⟨d, hd, -⟩
    rw [silent] at hd
    cases hd

/-- An invoice for 100, paid by the payment `t`. -/
def paidWorld : World Sample.Wallet :=
  { Sample.world with
    db := { Db.empty with
      invoice := ⟨[((Invoice.row Sample.upstream ⟨none, .grin 100, none, some .derived, none⟩ [109] "m" .memo "i" "tok").toInvoice
        10).pay "t" 20], by decide⟩
      payment := ⟨[(Record.paymentRow (Sample.received "t" 100) (some "payer") "mi").toPayment 15 |>.link (some "i") none],
        by decide⟩ } }

/-- The kernel is at depth 16; the statement after the depth's update meets the answer `x`. -/
def sixteenDeep (x : Answer) : Pass Sample.Wallet where
  required := 10
  found := paidWorld
  inputs := [{}, { tip := 20 }, { kernelHeight := some 5 }, {}, x, {}, { text := "e" }, {}, {}]

theorem sixteenDeep_carried : Carried ⟨10, some "url"⟩ ((sixteenDeep {}).after Sample.upstream (some "url")) := by
  refine carried_passes Sample.upstream (some "url") Sample.wallet 1000 10 [sixteenDeep {}]
    ⟨Lull.of_shallow (by decide) (by decide) rfl, ⟨?_, trivial⟩, trivial⟩
  have answered : ∀ ev ∈ (Payments.confirmPending ⟨10, some "url"⟩).run.events (handler Sample.upstream) ()
      (sixteenDeep {}).inputs (sixteenDeep {}).found, ev.eff.answered (ev.answer (handler Sample.upstream)) = true := by decide
  exact fun ev hev _ => answered ev hev

/-- The transition fails once: the payment is off the work list, and the invoice stays paid. -/
theorem sixteenDeep_stranded :
    ¬ Carried ⟨10, some "url"⟩ ((sixteenDeep { fault := some "locked" }).after Sample.upstream (some "url")) := by
  intro carried
  obtain ⟨p, hp, hi, hdepth, hgone⟩ : ∃ p,
      ((sixteenDeep { fault := some "locked" }).after Sample.upstream (some "url")).db.payment.get "t" = some p ∧
      (p.invoiceId = some "i" ∧ (10 : Int64) ≤ p.confirmations ∧ p.pending 10 = false) := by decide
  obtain ⟨inv, hinv, hpaid⟩ : ∃ inv,
      ((sixteenDeep { fault := some "locked" }).after Sample.upstream (some "url")).db.invoice.get "i" = some inv ∧
      inv.status = .paid := by decide
  rcases carried "t" p "i" inv hp hi hinv (Or.inl hpaid) hdepth with ⟨hconfirmed, -⟩ | hpending
  · rw [hpaid] at hconfirmed
    cases hconfirmed
  · rw [hgone] at hpending
    cases hpending

end GoblinPay
