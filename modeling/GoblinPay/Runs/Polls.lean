import GoblinPay.Connectors.Medusa
import GoblinPay.Runs.Rails
import GoblinPay.Sample

/-!
# Webhooks and polls of a Medusa store

A store hears of an order in two ways: the server's webhooks, and its own reads of the invoice. `Store` is
the server with the answers its clients get, and the sessions whose webhook was answered. What a webhook
says stays true of the invoice, so a later poll finds it paid, or confirmed: `pathsAgree_of_tended` is about the
runs in which it finds it paid, which is the one status `mapStatus` takes for captured.
-/

namespace GoblinPay

open Async Sql Medusa

/-! ## A store -/

/-- What a call answers its client. -/
inductive Response
  | invoice (r : Except HttpError (Invoice × Int64))
  | reply (r : Reply)

/-- Either way Medusa asks for the status of a session. -/
inductive Poll
  | authorize | status
  deriving DecidableEq

def Poll.run : Poll → Get → SessionData → Except MedusaError (SessionStatus × SessionData)
  | .authorize => authorizePayment
  | .status => getPaymentStatus

section

variable {W Amount : Type}

/-- The server, and the sessions for which a webhook was answered `SUCCESSFUL`. -/
structure Store (W : Type) where
  server : Pool Eff Call (World W) Response
  answered : List String

/-- A move of the server, or a webhook that arrives; `retrieve` is what Medusa's payment module answers. -/
inductive StoreMove (Amount : Type)
  | server (m : Move Call Answer)
  | webhook (request : WebhookRequest) (retrieve : String → Except String Amount)

variable (U : Upstream W)

def respond : Call → Io Response
  | .getInvoice id => .invoice <$> Invoices.getInvoice id
  | c => .reply <$> code U c

variable (hmac : String → RawBody → String) (secret : String) [Zero Amount]

def Store.step (store : Store W) : StoreMove Amount → Store W
  | .server m => { store with server := Pool.step (handler U) (respond U) store.server m }
  | .webhook request retrieve =>
    match getWebhookActionAndData hmac secret retrieve request with
    | ⟨.successful, some (sessionId, _)⟩ => { store with answered := sessionId :: store.answered }
    | _ => store

def Store.run (w : World W) (ms : List (StoreMove Amount)) : Store W :=
  ms.foldl (Store.step U hmac secret) ⟨Pool.start w, []⟩

/-- The moves of the server. -/
def StoreMove.ofServer : StoreMove Amount → Option (Move Call Answer)
  | .server m => some m
  | .webhook .. => none

/-- The call is a poll for the session with `data`, and reported `status`. -/
def Reported (data : SessionData) (status : SessionStatus) (t : Task Eff Call (World W) Response) : Prop :=
  ∃ (poll : Poll) (stored : InvoiceJson) (r : Except HttpError (Invoice × Int64)) (data' : SessionData),
    data.goblinpay = some stored ∧ t.head.call = .getInvoice stored.invoiceId ∧ t.rest = .ret (.invoice r) ∧
      poll.run (fun _ => r.map fun answer => answer.1.json) data = .ok (status, data')

/-- Once a webhook of the session was answered, or a poll has reported it captured, every later poll of its
invoice does. -/
def PathsAgree (w : World W) (ms : List (StoreMove Amount)) (sessionId : String) (data : SessionData) : Prop :=
  ∀ m₁ m₂, ms = m₁ ++ m₂ →
    (sessionId ∈ (Store.run U hmac secret w m₁).answered ∨
      ∃ t ∈ (Store.run U hmac secret w m₁).server.tasks, Reported data .captured t) →
    ∀ j t status, (Store.run U hmac secret w m₁).server.tasks.length ≤ j →
      (Store.run U hmac secret w ms).server.tasks[j]? = some t → Reported data status t → status = .captured

/-! ## The invoice of the order -/

/-- The invoice is paid, or even confirmed. -/
def InHand (i : String) (s : World W) : Prop :=
  ∃ inv, s.db.invoice.get i = some inv ∧ (inv.status = .paid ∨ inv.status = .confirmed)

def Final (i : String) (s : World W) : Prop := ∃ inv, s.db.invoice.get i = some inv ∧ inv.status = .confirmed

/-- A statement that reads a payment for the webhook. -/
def Eff.loads {β : Type} : Eff β → Option String
  | .sql (.loadForWebhook t) => some t
  | _ => none

/-- The payment is recorded as one of the invoice. -/
def Attached (t i : String) (s : World W) : Prop := ∃ p, s.db.payment.get t = some p ∧ p.invoiceId = some i

/-- What is asked of the operations of the server: the order `ref` is that of the invoice `i` alone, the invoice is
not expired when it is marked paid, and a payment of it is not notified as confirmed before it is paid. -/
structure Tended (ref i : String) (T : List (Happening W)) : Prop where
  sole : ∀ ev ∈ T, ∀ j inv, ev.state.db.invoice.get j = some inv → inv.orderRef = some ref → j = i
  paysLive : ∀ ev ∈ T, ∀ t, ev.eff.write = some (.pay i t) →
    ∃ inv, ev.state.db.invoice.get i = some inv ∧ inv.status ≠ .expired
  loadsPaid : ∀ ev ∈ T, ∀ t, ev.eff.loads = some t → Attached t i ev.state → InHand i ev.state

variable {U} {ref i : String} {s : World W} {β : Type} {e : Eff β} {x : Answer}

theorem InHand.act (h : InHand i s) : InHand i (act U x s e).2 := by
  obtain ⟨inv, hget, hstatus⟩ := h
  have change := e.invoice_change U x s i
  rw [hget] at change
  generalize hr : (GoblinPay.act U x s e).2.db.invoice.get i = r at change
  have notOpen : inv.status ≠ .open := fun hopen => by
    rw [hopen] at hstatus
    rcases hstatus with h | h <;> cases h
  cases change with
  | keep => exact ⟨inv, hr, hstatus⟩
  | expire hby => exact absurd (Eff.open_of_lapses hby) notOpen
  | sweep _ hopen | pay _ hopen => exact absurd hopen notOpen
  | arm => exact ⟨_, hr, hstatus⟩
  | confirm => exact ⟨_, hr, Or.inr rfl⟩

theorem Final.act (h : Final i s) : Final i (act U x s e).2 := by
  obtain ⟨inv, hget, hstatus⟩ := h
  have change := e.invoice_change U x s i
  rw [hget] at change
  generalize hr : (GoblinPay.act U x s e).2.db.invoice.get i = r at change
  cases change with
  | keep => exact ⟨inv, hr, hstatus⟩
  | expire hby => exact absurd ((Eff.open_of_lapses hby).symm.trans hstatus) (by decide)
  | sweep _ hopen | pay _ hopen => exact absurd (hopen.symm.trans hstatus) (by decide)
  | arm => exact ⟨_, hr, hstatus⟩
  | confirm => exact ⟨_, hr, rfl⟩

/-- Marked while it is not expired, an invoice is paid. -/
theorem InHand.markPaid {inv : Invoice} (hget : s.db.invoice.get i = some inv) (live : inv.status ≠ .expired) (t : String) (n : Nat) :
    InHand i (s.exec (.markPaid i t) n) := by
  have after := get_markPaid s i t i n
  rw [hget] at after
  cases hstatus : inv.status with
  | expired => exact absurd hstatus live
  | «open» =>
    refine ⟨inv.pay t s.now, ?_, Or.inl rfl⟩
    rw [after]
    simp [Table.key_of_get hget, hstatus]
  | paid | confirmed =>
    refine ⟨inv, ?_, by simp [hstatus]⟩
    rw [after]
    simp [hstatus]

/-! ## The contract -/

/-- A webhook for the order is queued once the invoice is paid. -/
def Truthful (ref i : String) (s : World W) : Prop := ∀ d ∈ s.db.delivery.rows, d.body.orderRef = some ref → InHand i s

variable (U ref i) in
def telling (T : List (Happening W)) : Discipline (handler U) (Head Call (World W)) Unit where
  inv := Truthful ref i
  rely _ _ s s' := (InHand i s → InHand i s') ∧ (Final i s → Final i s')
  before _ _ e s := ∀ payload, e.write = some (.enqueue payload) → payload.orderRef = some ref → InHand i s
  allowed h e x s := (⟨h, e, x, s⟩ : Happening W) ∈ T
  gain _ _ _ := ()
  rely_refl _ _ _ := ⟨id, id⟩
  rely_trans h h' := ⟨h'.1 ∘ h.1, h'.2 ∘ h.2⟩

/-- The write is no webhook for the order. -/
def Write.Discreet (ref : String) (wr : Write) : Prop := ∀ payload, wr = .enqueue payload → payload.orderRef ≠ some ref

variable {T : List (Happening W)} {h : Head Call (World W)} {g : Unit} {α : Type} {C : Prop}

/-- A program that queues nothing for the order; `C` is why the invoice is paid. -/
theorem telling_discreet {p : Io α} (hp : Prog.Writes (Write.Discreet ref) p) (hC : C → InHand i s) :
    Meets (telling U ref i T) h (fun _ _ s => C → InHand i s) p g s :=
  Meets.of_only_keep hp hC (fun _ _ _ hr _ hC hc => hr.1 (hC hc))
    (fun _ _ _ he _ _ payload hwr href => absurd href (he _ hwr payload rfl)) fun _ _ _ _ _ hC _ hc => (hC hc).act

theorem telling_sql {q : Stmt β} {f : Except SqlxError β → Io α} {Q : α → Unit → World W → Prop}
    (hq : ∀ payload, (Eff.sql q).write ≠ some (.enqueue payload)) (hC : C → InHand i s)
    (hok : ∀ x s b, (C → InHand i s) → (⟨h, .sql q, x, s⟩ : Happening W) ∈ T → (q.exec s.now x.choice s.db).1 = .ok b →
      Meets (telling U ref i T) h Q (f (.ok b)) g (s.exec q x.choice))
    (herror : ∀ s e, (C → InHand i s) → Meets (telling U ref i T) h Q (f (.error e)) g s) :
    Meets (telling U ref i T) h Q ((sql q).run >>= f) g s :=
  Meets.sqlRun hC (fun _ _ hr _ hC hc => hr.1 (hC hc)) (fun _ _ _ payload hwr => absurd hwr (hq payload))
    (fun x s b _ hC hx hb => hok x s b hC hx hb) fun s e _ hC => herror s e hC

theorem InHand.exec (U : Upstream W) {q : Stmt β} (h : InHand i s) (n : Nat) : InHand i (s.exec q n) := by
  have kept : InHand i (GoblinPay.act U { choice := n } s (.sql q)).2 := h.act
  exact kept

/-- The end of a program, with what it has learned. -/
theorem telling_ret {a : α} {P : α → World W → Prop} (hC : C → InHand i s) (hP : P a s)
    (stable : ∀ s s', (InHand i s → InHand i s') ∧ (Final i s → Final i s') → P a s → P a s') :
    Meets (telling U ref i T) h (fun a _ s => (C → InHand i s) ∧ P a s) (.ret a) g s :=
  fun s' hr _ => ⟨fun hc => hr.1 (hC hc), stable s s' hr hP⟩

/-! ## The programs -/

/-- A row read by its id: `P` holds of it where it is read. -/
theorem telling_get {P : Except SqlxError (Option Invoice) → World W → Prop} (hC : C → InHand i s) (j : String)
    (stable : ∀ r s s', (InHand i s → InHand i s') ∧ (Final i s → Final i s') → P r s → P r s') (failed : ∀ e s, P (.error e) s)
    (read : ∀ x s, (C → InHand i s) → (⟨h, .sql (.selectInvoice j), x, s⟩ : Happening W) ∈ T → P (.ok (s.db.invoice.get j)) s) :
    Meets (telling U ref i T) h (fun r _ s => (C → InHand i s) ∧ P r s) (Invoice.get j).run g s := by
  refine telling_sql (q := .expireIfDueId j) (f := ExceptT.bindCont fun _ => sql (.selectInvoice j)) (fun _ => nofun) hC
    (fun x s b hC _ _ => ?_) fun s e hC => telling_ret hC (failed e s) (stable _)
  have select : Meets (telling U ref i T) h (fun r _ s => (C → InHand i s) ∧ P r s) ((sql (.selectInvoice j)).run >>= .ret) g
      (s.exec (.expireIfDueId j) x.choice) := by
    refine telling_sql (q := .selectInvoice j) (fun _ => nofun) (fun hc => (hC hc).exec U _) (fun y s b hC hy hb => ?_)
      fun s e hC => telling_ret hC (failed e s) (stable _)
    obtain rfl : s.db.invoice.get j = b := Except.ok.inj hb
    exact telling_ret hC (read y s hC hy) (stable _)
  rwa [Prog.bind_ret] at select

theorem telling_orderRef (hT : Tended ref i T) {invoiceId : Option String} (hC : C → InHand i s) :
    Meets (telling U ref i T) h (fun r _ s => (C → InHand i s) ∧ (r = some ref → invoiceId = some i))
      (Record.orderRef invoiceId) g s := by
  cases invoiceId with
  | none => exact telling_ret hC (fun h => by cases h) fun _ _ _ h => h
  | some j =>
    have get : Meets (telling U ref i T) h (fun r _ s => (C → InHand i s) ∧
        ∀ inv, r = .ok (some inv) → inv.orderRef = some ref → j = i) (Invoice.get j).run g s :=
      telling_get hC j (fun _ _ _ _ h => h) (fun _ _ _ h => by cases h) fun x s _ hx inv hr =>
        hT.sole _ hx j inv (Except.ok.inj hr)
    refine Meets.andThen get fun r g s _ hr => ?_
    obtain ⟨hC, names⟩ := hr
    split
    · exact telling_ret hC (fun href => congrArg some (names _ rfl href)) fun _ _ _ h => h
    · exact telling_ret hC (fun h => by cases h) fun _ _ _ h => h

theorem telling_quiet {e : Eff β} {k : β → Io α} {Q : α → Unit → World W → Prop} (he : e.Quiet) (hC : C → InHand i s)
    (hk : ∀ b s, (C → InHand i s) → Meets (telling U ref i T) h Q (k b) g s) : Meets (telling U ref i T) h Q (.await e k) g s :=
  Meets.step (K := fun s => C → InHand i s) hC (fun _ _ hr _ hC hc => hr.1 (hC hc))
    (fun _ _ _ payload hwr => by
      rw [show e.write = none from he] at hwr
      cases hwr)
    fun _ _ _ hC _ => hk _ _ fun hc => (hC hc).act

/-- A webhook is queued for the order only where the invoice is paid. -/
theorem telling_enqueue {url : String} {payload : WebhookPayload} (hC : payload.orderRef = some ref → InHand i s) :
    Meets (telling U ref i T) h (fun _ _ _ => True) (discard (enqueue url payload).run) g s := by
  refine Meets.sqlRun (q := .enqueue url payload) (K := fun s => payload.orderRef = some ref → InHand i s) hC
    (fun _ _ hr _ hC hc => hr.1 (hC hc)) (fun s _ hC p hwr href => ?_) (fun x s b _ _ _ _ => ?_) fun s e _ _ => ?_
  · cases hwr
    exact hC href
  · exact fun _ _ _ => trivial
  · exact fun _ _ _ => trivial

theorem telling_received {sid : String} {a : UInt64} {payer inv order user : Option String} {url : String}
    (hC : order = some ref → InHand i s) :
    Meets (telling U ref i T) h (fun _ _ _ => True) (do
      let payload ← WebhookPayload.received sid a payer inv order user
      discard <| (enqueue url payload).run : Io Unit) g s :=
  telling_quiet rfl hC fun _ _ hC => telling_quiet rfl hC fun _ _ hC => telling_enqueue hC

theorem telling_confirmed {sid : String} {a : UInt64} {payer inv order user : Option String} {height : Option UInt64} {n : UInt64}
    {url : String} (hC : order = some ref → InHand i s) :
    Meets (telling U ref i T) h (fun _ _ _ => True) (do
      let payload ← WebhookPayload.confirmed sid a payer inv order user height n
      discard <| (enqueue url payload).run : Io Unit) g s :=
  telling_quiet rfl hC fun _ _ hC => telling_quiet rfl hC fun _ _ hC => telling_enqueue hC

theorem telling_notify (hT : Tended ref i T) (r : Received) (payer : Option String) {matched : MatchResult}
    (wh : Option (String × String)) (hC : matched.invoiceId = some i → InHand i s) :
    Meets (telling U ref i T) h (fun _ _ _ => True) (Record.notify r payer matched wh) g s := by
  unfold Record.notify
  split
  · exact fun _ _ _ => trivial
  · refine Meets.andThen (telling_orderRef hT hC) fun order g s _ hr => ?_
    exact telling_received fun href => hr.1 (hr.2 href)

/-- What `match_payment` reports as matched was marked paid. -/
theorem telling_settle (hT : Tended ref i T) (sid : String) (invoiceId user : Option String) :
    Meets (telling U ref i T) h (fun r _ s => (Record.orUnmatched r).invoiceId = some i → InHand i s)
      (Matching.settle sid invoiceId user).run g s := by
  have link : ∀ (g : Unit) s, (invoiceId = some i → InHand i s) →
      Meets (telling U ref i T) h (fun r _ s => (Record.orUnmatched r).invoiceId = some i → InHand i s)
        (do sql (.linkPayment sid invoiceId user)
            pure { invoiceId, userId := user } : ExceptT SqlxError Io MatchResult).run g s := fun g s hC => by
    refine telling_sql (f := ExceptT.bindCont _) (fun _ => nofun) hC (fun x s b hC _ _ => ?_) fun s e _ => ?_
    · exact fun _ hr _ hi => hr.1 ((hC hi).exec U _)
    · exact fun _ _ _ hi => by cases hi
  cases invoiceId with
  | none => exact link g s fun hi => by cases hi
  | some j =>
    refine telling_sql (C := False) ?_ False.elim (fun x s b _ hx _ => ?_) fun s e _ => ?_
    · exact fun payload hwr => by cases hwr
    · refine link () _ fun hi => ?_
      obtain rfl := Option.some.inj hi
      obtain ⟨inv, hget, live⟩ := hT.paysLive _ hx sid rfl
      exact InHand.markPaid hget live sid _
    · exact fun _ _ _ hi => by cases hi

theorem telling_matchPayment (hT : Tended ref i T) (mode : MatchMode) (incoming : IncomingPayment) :
    Meets (telling U ref i T) h (fun r _ s => (Record.orUnmatched r).invoiceId = some i → InHand i s)
      (Matching.matchPayment mode incoming).run g s := by
  have failed : ∀ (e : SqlxError) (g : Unit) s, Meets (telling U ref i T) h
      (fun r _ s => (Record.orUnmatched r).invoiceId = some i → InHand i s) (.ret (.error e)) g s :=
    fun e g s _ _ _ hi => by cases hi
  have quiet : ∀ {α : Type} {p : Io α} (g : Unit) s, Prog.Quiet p →
      Meets (telling U ref i T) h (fun _ _ s => False → InHand i s) p g s := fun g s hp =>
    telling_discreet hp.writes False.elim
  refine Meets.tryThen (quiet g s (quiet_sql rfl)) (fun user g s _ _ => ?_) fun e g s _ _ => failed e g s
  refine Meets.tryThen (quiet g s (Matching.footprint_resolve mode incoming).quiet) (fun found g s _ _ => ?_) fun e g s _ _ => failed e g s
  cases found with
  | none => exact telling_settle hT _ _ _
  | some j =>
    refine Meets.tryThen (quiet g s (quiet_sql rfl)) (fun expected g s _ _ => ?_) fun e g s _ _ => failed e g s
    split
    · exact fun _ _ _ hi => by cases hi
    · exact telling_settle hT _ _ _

theorem telling_persistAndMatch (hT : Tended ref i T) (r : Received) (payer : Option String) (rc : String) (memo : Option String)
    (mode : MatchMode) (wh : Option (String × String)) :
    Meets (telling U ref i T) h (fun _ _ _ => True) (Record.persistAndMatch r payer rc memo mode wh) g s := by
  have insert : Prog.Writes (Write.Discreet ref) (discard (sql (.insertPayment (Record.paymentRow r payer rc))).run) :=
    Prog.Writes.bind (writes_sql rfl fun _ => nofun) fun _ => trivial
  refine Meets.andThen (telling_discreet (C := False) insert False.elim) fun _ g s _ _ => ?_
  refine Meets.andThen (telling_matchPayment hT _ _) fun matched g s _ hC => ?_
  unfold Record.conclude
  split
  · refine Meets.andThen (I := fun _ _ _ => True) ?_ fun _ _ _ _ _ _ _ _ => trivial
    have delete : Prog.Writes (Write.Discreet ref) (discard (sql (.deletePayment r.slateId)).run) :=
      Prog.Writes.bind (writes_sql rfl fun _ => nofun) fun _ => trivial
    exact (telling_discreet (C := False) delete False.elim).mono fun _ _ _ _ _ => trivial
  · exact Meets.andThen (telling_notify hT r payer wh hC) fun _ _ _ _ _ _ _ _ => trivial

theorem telling_settleFinalized (hT : Tended ref i T) (f : FinalizedInvoice) (wh : Option (String × String)) :
    Meets (telling U ref i T) h (fun _ _ _ => True) (Foreign.settleFinalized f wh) g s := by
  refine telling_sql (C := False) (q := .selectBySlateId f.slateId) (fun _ => nofun) False.elim (fun x s row _ hx hrow => ?_)
    fun s e _ => fun _ _ _ => trivial
  cases row with
  | none => exact fun _ _ _ => trivial
  | some inv =>
    have names : inv.orderRef = some ref → inv.id = i :=
      hT.sole _ hx inv.id inv (Db.get_of_pick (Except.ok.inj hrow)).1
    have insert : Prog.Writes (Write.Discreet ref) (discard (sql (.insertPayment (Foreign.paymentRow inv f))).run) :=
      Prog.Writes.bind (writes_sql rfl fun _ => nofun) fun _ => trivial
    refine Meets.andThen (telling_discreet (C := False) insert False.elim) fun _ g s _ _ => ?_
    refine telling_sql (C := False) (q := .markPaid inv.id f.slateId) (fun _ => nofun) False.elim (fun y s b _ hy _ => ?_)
      fun s e _ => fun _ _ _ => trivial
    cases b with
    | false => exact fun _ _ _ => trivial
    | true =>
      change Meets _ _ _ (Foreign.notify inv f wh) _ _
      unfold Foreign.notify
      split
      · exact fun _ _ _ => trivial
      · refine telling_received fun href => ?_
        obtain rfl := names href
        obtain ⟨inv', hget, live⟩ := hT.paysLive _ hy f.slateId rfl
        exact InHand.markPaid hget live _ _

theorem telling_finalizeInvoice (hT : Tended ref i T) (policy : ConfirmPolicy) (sid j : String) (height : Option Int64) (n : UInt64) :
    Meets (telling U ref i T) h (fun _ _ _ => True) (Payments.finalizeInvoice policy sid j height n) g s := by
  refine telling_sql (C := False) (q := .markConfirmed j) (fun _ => nofun) False.elim (fun x s b _ _ _ => ?_)
    fun s e _ => fun _ _ _ => trivial
  cases b with
  | false => exact fun _ _ _ => trivial
  | true =>
    dsimp only
    split
    swap
    · exact fun _ _ _ => trivial
    refine telling_sql (C := False) (q := .loadForWebhook sid) (fun _ => nofun) False.elim (fun y s row _ hy hrow => ?_)
      fun s e _ => fun _ _ _ => trivial
    cases row with
    | none => exact fun _ _ _ => trivial
    | some row =>
      refine telling_confirmed fun href => ?_
      obtain ⟨p, hp, rfl⟩ := Option.map_eq_some_iff.1 (Except.ok.inj hrow)
      obtain ⟨inv, hlink, hinv⟩ := Option.bind_eq_some_iff.1 href
      obtain ⟨k, hk, hget⟩ := Option.bind_eq_some_iff.1 hlink
      obtain rfl := hT.sole _ hy k inv hget hinv
      exact hT.loadsPaid _ hy sid rfl ⟨p, hp, hk⟩

theorem telling_confirmOne (hT : Tended ref i T) (policy : ConfirmPolicy) (sid : String) (invoiceId : Option String)
    (status : ConfirmStatus) :
    Meets (telling U ref i T) h (fun _ _ _ => True) (Payments.confirmOne policy sid invoiceId status) g s := by
  refine telling_sql (C := False) ?_ False.elim (fun x s b _ _ _ => ?_) fun s e _ => fun _ _ _ => trivial
  · exact fun payload hwr => by cases hwr
  · dsimp only
    split
    · cases invoiceId with
      | none => exact fun _ _ _ => trivial
      | some j => exact telling_finalizeInvoice hT policy sid j _ _
    · exact fun _ _ _ => trivial

theorem telling_confirmAll (hT : Tended ref i T) (policy : ConfirmPolicy) (pending : List (String × String × Option String)) :
    Meets (telling U ref i T) h (fun _ _ _ => True) (Payments.confirmAll policy pending) g s := by
  induction pending generalizing g s with
  | nil => exact fun _ _ _ => trivial
  | cons row pending ih =>
    obtain ⟨sid, excess, invoiceId⟩ := row
    have quiet : Meets (telling U ref i T) h (fun _ _ s => False → InHand i s) (GpWallet.confirmStatus excess).run g s :=
      telling_discreet (GpWallet.footprint_confirmStatus excess).writes False.elim
    refine Meets.andThen quiet fun r g s _ _ => ?_
    split
    · split
      · exact Meets.andThen (telling_confirmOne hT policy sid invoiceId _) fun _ _ _ _ _ => ih
      · exact ih
    · exact ih

theorem telling_confirmPending (hT : Tended ref i T) (policy : ConfirmPolicy) :
    Meets (telling U ref i T) h (fun _ _ _ => True) (Payments.confirmPending policy).run g s := by
  refine telling_sql (C := False) ?_ False.elim (fun x s pending _ _ _ => ?_) fun s e _ => fun _ _ _ => trivial
  · exact fun payload hwr => by cases hwr
  · exact Meets.andThen (I := fun _ _ _ => True) (f := fun a => .ret (Except.ok a)) (telling_confirmAll hT policy pending)
      fun _ _ _ _ _ _ _ _ => trivial

theorem telling_confirmPoll (hT : Tended ref i T) (policy : ConfirmPolicy) (passes : Nat) :
    Meets (telling U ref i T) h (fun _ _ _ => True) (Payments.confirmPoll policy passes) g s := by
  induction passes generalizing g s with
  | zero => exact fun _ _ _ => trivial
  | succ passes ih =>
    refine Meets.andThen (I := fun _ _ _ => True) ?_ fun _ g s _ _ => ih
    exact Meets.andThen (telling_confirmPending hT policy) fun _ _ _ _ _ _ _ _ => trivial

variable (U ref i T) in
theorem telling_rails (hT : Tended ref i T) (h : Head Call (World W)) : Rails U T h (telling U ref i T) where
  quiet e g s he payload hwr := by
    rw [show e.write = none from he] at hwr
    cases hwr
  replied t g s payload hwr := by cases hwr
  post _ final g s _ payload hwr := by cases hwr
  mem e x s hx := hx
  receive r payer rc memo mode wh g s _ := telling_persistAndMatch hT r payer rc memo mode wh
  settle f wh g s _ := telling_settleFinalized hT f wh

/-- Every call but the poll of the confirmations and the rails queues nothing. -/
theorem telling_code (hT : Tended ref i T) (c : Call) (s : World W) :
    Meets (telling U ref i T) ⟨c, s⟩ (fun _ _ _ => True) (code U c) g s := by
  by_cases hrail : c.IsRail
  · exact (telling_rails U ref i T hT ⟨c, s⟩).meets hrail
  · by_cases hpoll : ∃ policy passes, c = .confirmPoll policy passes
    · obtain ⟨policy, passes, rfl⟩ := hpoll
      exact Meets.andThen (telling_confirmPoll hT policy passes) fun _ _ _ _ _ _ _ _ => trivial
    · have discreet : Prog.Writes (Write.Discreet ref) (code U c) := by
        refine Prog.Only.mono (Call.writes U hrail) fun e he wr hwr payload hp => ?_
        have may := he wr hwr
        subst hp
        cases c <;> simp [Call.mayWrite] at may hpoll
      exact (telling_discreet (C := False) discreet False.elim).mono fun _ _ _ _ _ => trivial

/-- What a poll's answer tells of the invoice: as it was when the poll was made, and as it is. -/
structure PollTells (i : String) (h : Head Call (World W)) (inv : Invoice) (s : World W) : Prop where
  since : InHand i h.born → inv.status = .paid ∨ inv.status = .confirmed
  inHand : inv.status = .paid ∨ inv.status = .confirmed → InHand i s
  final : inv.status = .confirmed → Final i s

/-- The answer to a client that polls the invoice `i`. -/
def PollPost (i : String) (h : Head Call (World W)) (r : Response) (s : World W) : Prop :=
  ∀ inv n, r = .invoice (.ok (inv, n)) → h.call = .getInvoice i → PollTells i h inv s

theorem PollTells.stable {inv : Invoice} {s' : World W} (hp : PollTells i h inv s)
    (hr : (InHand i s → InHand i s') ∧ (Final i s → Final i s')) : PollTells i h inv s' :=
  ⟨hp.since, fun hs => hr.1 (hp.inHand hs), fun hs => hr.2 (hp.final hs)⟩

theorem telling_getInvoice (j : String) (hborn : InHand i h.born → InHand i s) :
    Meets (telling U ref i T) h (fun r _ s => ∀ inv n, r = .ok (inv, n) → j = i → PollTells i h inv s)
      (Invoices.getInvoice j) g s := by
  have get : Meets (telling U ref i T) h (fun r _ s => (InHand i h.born → InHand i s) ∧
      ∀ inv, r = .ok (some inv) → j = i → PollTells i h inv s) (Invoice.get j).run g s := by
    refine telling_get hborn j (fun _ _ _ hr hp inv he hj => (hp inv he hj).stable hr) (fun _ _ _ h => by cases h)
      fun x s hC _ inv hr hj => ?_
    subst hj
    have hget : s.db.invoice.get j = some inv := Except.ok.inj hr
    refine ⟨fun hb => ?_, fun hs => ⟨inv, hget, hs⟩, fun hs => ⟨inv, hget, hs⟩⟩
    obtain ⟨inv', hget', hstatus⟩ := hC hb
    obtain rfl := Option.some.inj (hget'.symm.trans hget)
    exact hstatus
  refine Meets.andThen get fun r g s _ hr => ?_
  split
  · exact fun _ _ _ _ _ h => by cases h
  · exact fun _ _ _ _ _ h => by cases h
  · rename_i inv
    have tells : j = i → PollTells i h inv s := hr.2 inv rfl
    have depth : Meets (telling U ref i T) h (fun _ _ s => j = i → PollTells i h inv s) (Invoice.confirmations inv.id).run g s := by
      refine Meets.of_only_keep (Invoice.footprint_confirmations _).quiet tells (fun _ _ _ hr _ hp hj => (hp hj).stable hr) ?_ ?_
      · intro β e g s he _ _ payload hwr
        rw [show e.write = none from he] at hwr
        cases hwr
      · exact fun e x s _ _ hp _ hj => (hp hj).stable ⟨InHand.act, Final.act⟩
    refine Meets.andThen depth fun n g s _ hp => ?_
    split
    all_goals
      intro s' hr _ inv' n' he hj
      cases he
      exact (hp hj).stable hr

theorem telling_respond (hT : Tended ref i T) (c : Call) (s : World W) :
    Meets (telling U ref i T) ⟨c, s⟩ (fun r _ s' => PollPost i ⟨c, s⟩ r s') (respond U c) () s := by
  have others : Meets (telling U ref i T) ⟨c, s⟩ (fun r _ s' => PollPost i ⟨c, s⟩ r s') (.reply <$> code U c) () s :=
    Meets.andThen (f := fun a => .ret (Response.reply a)) (telling_code hT c s) fun _ _ _ _ _ _ _ _ _ _ h => by cases h
  cases c with
  | getInvoice j =>
    refine Meets.andThen (f := fun a => .ret (Response.invoice a)) (telling_getInvoice j id) fun r g s' _ hr => ?_
    intro s'' hrely _ inv n he hcall
    cases he
    cases hcall
    exact (hr inv n rfl rfl).stable hrely
  | _ => exact others

variable (U ref i T) in
/-- The protocol of the server in a run that is tended. -/
def tellingProtocol (hT : Tended ref i T) : Protocol (handler U) (respond U) Unit where
  toDiscipline := telling U ref i T
  init := ()
  post h r _ s := PollPost i h r s
  start_meets {c s} _ _ _ := telling_respond hT c s
  keeps {β h g e x s} hi _ hb _ := by
    refine ⟨fun d hd href => ?_, trivial⟩
    rcases e.queue_change U x s d hd with old | ⟨_, hwr, rfl⟩
    · exact (hi d old href).act
    · exact InHand.act (hb _ hwr href)
  yields _ _ _ _ _ _ := ⟨InHand.act, Final.act⟩

end

/-! ## Runs -/

section

variable {W Amount : Type} [Zero Amount] (U : Upstream W) (hmac : String → RawBody → String) (secret : String)

abbrev serverMoves (ms : List (StoreMove Amount)) : Run := ms.filterMap StoreMove.ofServer

/-- What a store does with the webhooks does not reach the server. -/
theorem Store.server_run (w : World W) (ms : List (StoreMove Amount)) :
    (Store.run U hmac secret w ms).server = Pool.run (handler U) (respond U) (Pool.start w) (serverMoves ms) := by
  have from_ : ∀ store : Store W, (ms.foldl (Store.step U hmac secret) store).server =
      Pool.run (handler U) (respond U) store.server (serverMoves ms) := by
    induction ms with
    | nil => exact fun _ => rfl
    | cons m ms ih =>
      intro store
      cases m with
      | server m => exact ih _
      | webhook request retrieve =>
        have same : (Store.step U hmac secret store (.webhook request retrieve)).server = store.server := by
          simp only [Store.step]
          split <;> rfl
        exact (ih _).trans (congrArg (fun P => Pool.run (handler U) (respond U) P (serverMoves ms)) same)
  exact from_ _

/-- A request whose signature verifies was posted by the server: it carries a delivery of the queue. -/
def Genuine (w : World W) (ms : List (StoreMove Amount)) : Prop :=
  ∀ m₁ request retrieve m₂, ms = m₁ ++ .webhook request retrieve :: m₂ → verifySignature hmac secret request = true →
    ∃ d ∈ (Store.run U hmac secret w m₁).server.state.db.delivery.rows, request.data = some d.body.data

variable {U hmac secret} {w : World W} {ms : List (StoreMove Amount)} {sessionId : String}

/-- A session that was answered was named by a request whose signature verified. -/
theorem answered_cases (h : sessionId ∈ (Store.run U hmac secret w ms).answered) :
    ∃ m₁ request retrieve m₂, ms = m₁ ++ .webhook request retrieve :: m₂ ∧ verifySignature hmac secret request = true ∧
      (request.data.getD {}).orderRef = some sessionId := by
  induction ms using List.reverseRecOn with
  | nil => cases h
  | append_singleton ms m ih =>
    rw [Store.run, List.foldl_append] at h
    have before : sessionId ∈ (Store.run U hmac secret w ms).answered → ∃ m₁ request retrieve m₂,
        ms ++ [m] = m₁ ++ .webhook request retrieve :: m₂ ∧ verifySignature hmac secret request = true ∧
          (request.data.getD {}).orderRef = some sessionId := fun h => by
      obtain ⟨m₁, request, retrieve, m₂, rfl, rest⟩ := ih h
      exact ⟨m₁, request, retrieve, m₂ ++ [m], by simp, rest⟩
    cases m with
    | server m => exact before h
    | webhook request retrieve =>
      simp only [List.foldl_cons, List.foldl_nil, Store.step] at h
      split at h
      swap
      · exact before h
      rename_i id amount hresult
      rcases List.mem_cons.1 h with rfl | h
      swap
      · exact before h
      refine ⟨ms, request, retrieve, [], rfl, ?_⟩
      unfold getWebhookActionAndData at hresult
      split at hresult
      swap
      · cases hresult
      rename_i verified
      refine ⟨verified, ?_⟩
      dsimp only at hresult
      split at hresult
      · cases hresult
      rename_i ref href
      split at hresult
      · cases hresult
      split at hresult
      · cases hresult
        exact href
      · cases hresult

/-- What a poll reports is the status of the invoice it read. -/
theorem Reported.read {data : SessionData} {status : SessionStatus} {t : Task Eff Call (World W) Response} (h : Reported data status t) :
    ∃ stored inv n, data.goblinpay = some stored ∧ t.head.call = .getInvoice stored.invoiceId ∧
      t.rest = .ret (.invoice (.ok (inv, n))) ∧ status = mapStatus inv.status.asStr := by
  obtain ⟨poll, stored, r, data', hdata, hcall, hrest, hrun⟩ := h
  have fetched : ∃ json, fetchInvoice (fun _ => r.map fun answer => answer.1.json) data = .ok json ∧ status = mapStatus json.status := by
    cases hfetch : fetchInvoice (fun _ => r.map fun answer => answer.1.json) data with
    | error e => cases poll <;> simp [Poll.run, authorizePayment, getPaymentStatus, hfetch, bind, Except.bind] at hrun
    | ok json =>
      refine ⟨json, rfl, ?_⟩
      cases poll <;> simp [Poll.run, authorizePayment, getPaymentStatus, hfetch, bind, Except.bind, pure, Except.pure] at hrun <;>
        exact hrun.1.symm
  obtain ⟨json, hjson, hstatus⟩ := fetched
  rw [fetchInvoice, hdata] at hjson
  dsimp only at hjson
  split at hjson
  · cases hjson
  cases r with
  | error e => cases hjson
  | ok answer =>
    cases hjson
    exact ⟨stored, answer.1, answer.2, hdata, hcall, hrest, hstatus⟩

theorem mapStatus_captured {status : InvoiceStatus} : mapStatus status.asStr = .captured ↔ status = .paid := by
  cases status <;> decide

theorem InHand.run {i : String} {P : Pool Eff Call (World W) Response} (h : InHand i P.state) (ms : Run) :
    InHand i (Pool.run (handler U) (respond U) P ms).state :=
  Pool.inv_run (handler U) (respond U) h fun _ _ h => h.act

/-- In a run in which the order is tended to and its invoice is not confirmed, the webhooks and the polls of the store agree. -/
theorem pathsAgree_of_tended (U : Upstream W) (hmac : String → RawBody → String) (secret : String) (w : World W)
    (ms : List (StoreMove Amount)) (sessionId : String) (data : SessionData) (stored : InvoiceJson)
    (hdata : data.goblinpay = some stored) (genuine : Genuine U hmac secret w ms)
    (truthful : Truthful sessionId stored.invoiceId w)
    (tended : Tended sessionId stored.invoiceId (Pool.trace (handler U) (respond U) (Pool.start w) (serverMoves ms)))
    (unconfirmed : ¬ Final stored.invoiceId (Store.run U hmac secret w ms).server.state) :
    PathsAgree U hmac secret w ms sessionId data := by
  intro m₁ m₂ hms before j t status hj ht reported
  have admitted : (tellingProtocol U sessionId stored.invoiceId _ tended).Admitted (Pool.start w) (serverMoves ms) :=
    ⟨fun _ hev => hev, fun _ _ => trivial, List.pairwise_of_forall fun _ _ => trivial⟩
  have upTo : ∀ {n₁ n₂}, ms = n₁ ++ n₂ →
      (tellingProtocol U sessionId stored.invoiceId _ tended).Admitted (Pool.start w) (serverMoves n₁) := fun h =>
    (show (tellingProtocol U sessionId stored.invoiceId _ tended).Admitted _ (_ ++ _) by
      rw [← List.filterMap_append, ← h]
      exact admitted).take
  have polled : ∀ {n₁ n₂}, ms = n₁ ++ n₂ → ∀ t ∈ (Store.run U hmac secret w n₁).server.tasks, ∀ {status}, Reported data status t →
      ∃ inv, status = mapStatus inv.status.asStr ∧
        PollTells stored.invoiceId t.head inv (Store.run U hmac secret w n₁).server.state := fun h t ht _ hrep => by
    obtain ⟨stored', inv, n, hdata', hcall, hrest, hstatus⟩ := hrep.read
    obtain rfl : stored' = stored := Option.some.inj (hdata'.symm.trans hdata)
    rw [Store.server_run] at ht ⊢
    obtain ⟨_, post⟩ := (tellingProtocol U sessionId stored'.invoiceId _ tended).post_run truthful (fun _ => trivial) (upTo h) ht hrest
    exact ⟨inv, hstatus, post inv n rfl hcall⟩
  have inHand : InHand stored.invoiceId (Store.run U hmac secret w m₁).server.state := by
    rcases before with answered | ⟨t', ht', captured⟩
    · obtain ⟨n₁, request, retrieve, n₂, rfl, verified, names⟩ := answered_cases answered
      have hms' : ms = n₁ ++ .webhook request retrieve :: (n₂ ++ m₂) := by rw [hms]; simp
      obtain ⟨d, hd, hdata'⟩ := genuine _ _ _ _ hms' verified
      rw [hdata'] at names
      have there : InHand stored.invoiceId (Store.run U hmac secret w n₁).server.state := by
        rw [Store.server_run] at hd ⊢
        exact ((tellingProtocol U sessionId stored.invoiceId _ tended).end_run truthful (fun _ => trivial) (upTo hms')).1 d hd names
      rw [Store.server_run] at there ⊢
      rw [serverMoves, List.filterMap_append, Pool.run_append]
      exact there.run _
    · obtain ⟨inv, hstatus, tells⟩ := polled hms t' ht' captured
      exact tells.inHand (Or.inl (mapStatus_captured.1 hstatus.symm))
  have later : InHand stored.invoiceId t.head.born := by
    rw [Store.server_run, hms, serverMoves, List.filterMap_append, Pool.run_append] at ht
    rw [Store.server_run] at hj inHand
    obtain ⟨n₁, n₂, -, hborn⟩ := Pool.born_of_new (handler U) (respond U) hj ht
    rw [hborn]
    exact inHand.run _
  obtain ⟨inv, hstatus, tells⟩ := polled (show ms = ms ++ [] from (List.append_nil ms).symm) t (List.mem_of_getElem? ht) reported
  rcases tells.since later with paid | confirmed
  · rw [hstatus]
    exact mapStatus_captured.2 paid
  · exact absurd (tells.final confirmed) unconfirmed

end

/-! ## Two runs -/

/-- An open invoice for 100 to the session `s`. -/
def sessionWorld : World Sample.Wallet :=
  let row := Invoice.row Sample.upstream ⟨some "s", .grin 100, none, some .memo, none⟩ [109] "m" .memo "i" "tok"
  { Sample.world with db := { Db.empty with invoice := ⟨[row.toInvoice 10], List.nodup_singleton _⟩ } }

def sessionData : SessionData := ⟨some ⟨"i", "open"⟩⟩

def signed (secret : String) : RawBody → String
  | .string body => secret ++ body
  | .buffer bytes => secret ++ String.ofList (bytes.map fun b => Char.ofNat b.toNat)

/-- It is paid, the store hears of it, and polls; with `confirm`, the kernel is found in between. -/
def sessionRun (confirm : Bool) : List (StoreMove Nat) :=
  let server (ms : Run) : List (StoreMove Nat) := ms.map .server
  let request : WebhookRequest :=
    ⟨some (.string "body"), some "sha256=secretbody", some ⟨some "e", some "payment.received", some "s", some "i", some "t", none⟩⟩
  server (.start (.receive (Sample.received "t" 100) (some "payer") "m" (some "s") .memo (some ("url", "secret"))) ::
    List.replicate 13 (.run 0 { text := "e" })) ++
  [.webhook request fun _ => .ok 100] ++
  server (if confirm then [.start (.confirmPoll ⟨1, none⟩ 1), .run 1 {}, .run 1 { tip := 5 }, .run 1 { kernelHeight := some 5 },
    .run 1 {}, .run 1 {}] else [.start .expirySweep]) ++
  server (.start (.getInvoice "i") :: List.replicate 3 (.run 2 {}))

/-- A webhook carries what is in the queue. -/
def StoreMove.carried (deliveries : List Delivery) : StoreMove Nat → Bool
  | .webhook request _ => deliveries.any fun d => request.data = some d.body.data
  | _ => true

/-- Every request of the run carries a delivery of the queue. -/
theorem sessionRun_genuine : Genuine Sample.upstream signed "secret" sessionWorld (sessionRun false) := by
  have carried : ((List.range (sessionRun false).length).all fun k => ((sessionRun false)[k]?).all (StoreMove.carried
      (Store.run Sample.upstream signed "secret" sessionWorld ((sessionRun false).take k)).server.state.db.delivery.rows)) = true := by
    decide
  intro m₁ request retrieve m₂ hms _
  have here := List.all_eq_true.1 carried m₁.length (List.mem_range.2 (by rw [hms]; simp))
  rw [hms] at here
  simpa [StoreMove.carried] using here

theorem sessionRun_agree : PathsAgree Sample.upstream signed "secret" sessionWorld (sessionRun false) "s" sessionData ∧
    ∃ t ∈ (Store.run Sample.upstream signed "secret" sessionWorld (sessionRun false)).server.tasks,
      Reported sessionData .captured t := by
  have tended : (Pool.trace (handler Sample.upstream) (respond Sample.upstream) (Pool.start sessionWorld)
      (serverMoves (sessionRun false))).all (fun ev => ev.state.db.invoice.rows.all (fun inv => inv.id = "i" && inv.status ≠ .expired) &&
        (ev.state.db.invoice.get "i").isSome && ev.eff.loads.isNone) = true := by decide
  have each := fun ev hev => List.all_eq_true.1 tended ev hev
  simp only [Bool.and_eq_true, List.all_eq_true, decide_eq_true_eq] at each
  have unconfirmed : (Store.run Sample.upstream signed "secret" sessionWorld (sessionRun false)).server.state.db.invoice.rows.all
      (fun inv => inv.status ≠ .confirmed) = true := by decide
  refine ⟨pathsAgree_of_tended _ _ _ _ _ "s" sessionData ⟨"i", "open"⟩ rfl sessionRun_genuine (fun d hd => by cases hd) ⟨?_, ?_, ?_⟩ ?_, ?_⟩
  · intro ev hev j inv hget _
    rw [← Table.key_of_get hget]
    exact ((each ev hev).1.1 inv (Table.mem_of_get hget)).1
  · intro ev hev t _
    obtain ⟨inv, hget⟩ := Option.isSome_iff_exists.1 (each ev hev).1.2
    exact ⟨inv, hget, ((each ev hev).1.1 inv (Table.mem_of_get hget)).2⟩
  · intro ev hev t ht
    have none := (each ev hev).2
    rw [ht] at none
    cases none
  · rintro ⟨inv, hget, hstatus⟩
    have := List.all_eq_true.1 unconfirmed inv (Table.mem_of_get hget)
    simp [hstatus] at this
  · exact ⟨_, List.mem_of_getElem? (i := 2) rfl, .status, _, _, _, rfl, rfl, rfl, rfl⟩

/-- Once the invoice is confirmed, a poll calls the captured payment pending. -/
theorem sessionRun_pending : ¬ PathsAgree Sample.upstream signed "secret" sessionWorld (sessionRun true) "s" sessionData := by
  intro agree
  have reported : ∃ t, (Store.run Sample.upstream signed "secret" sessionWorld (sessionRun true)).server.tasks[2]? = some t ∧
      Reported sessionData .pending t := ⟨_, rfl, .status, _, _, _, rfl, rfl, rfl, rfl⟩
  obtain ⟨t, ht, pending⟩ := reported
  have captured := agree ((sessionRun true).take 15) ((sessionRun true).drop 15) (List.take_append_drop 15 _).symm
    (Or.inl (by decide)) 2 t .pending (by decide) ht pending
  cases captured

end GoblinPay
