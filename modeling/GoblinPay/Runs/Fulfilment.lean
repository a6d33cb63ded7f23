import GoblinPay.Async.Pool
import GoblinPay.Connectors.WooCommerce
import GoblinPay.Server.Webhookd

/-!
# Deliveries that were acknowledged

The delivery worker and the runs of a shop's webhook, interleaved at single operations: a run that is never
scheduled again died where it was. The plugin records an event before it settles the order, so an event is
acknowledged with its order completed in the runs in which nobody finds an event recorded whose order is still to be
completed (`acknowledged_of_settled`).
-/

namespace GoblinPay

open Async WooCommerce Webhookd

/-! ## The system -/

inductive HookCall (Raw : Type)
  | enqueue (url : String) (payload : WebhookPayload)
  /-- one pass of the delivery worker -/
  | drain
  /-- the shop serves the `n`-th request -/
  | serve (n : Nat)
  /-- a request from elsewhere -/
  | foreign (request : RestRequest Raw)
  | elapse (secs : Nat)

/-- The shop's configuration and the server's: the digests, the two secrets, and the text of a payload. -/
structure HookSetup (Raw : Type) where
  php : Php Raw
  webhookSecret : String
  /-- `GP_WEBHOOK_SECRET` -/
  secret : String
  toBody : WebhookPayload → Raw

section

variable {Raw : Type} (S : HookSetup Raw)

/-- The request that posts a delivery. -/
def HookSetup.request (d : Delivery) : RestRequest Raw where
  raw := S.toBody d.body
  signature := "sha256=" ++ S.php.hmac S.secret (S.toBody d.body)
  delivery := d.id
  data := some d.body.data

def serve (n : Nat) : HookIo Unit := do
  match ← Prog.call (.accept n) with
  | none => pure ()
  | some d =>
    let response ← handleWebhook S.php S.webhookSecret (S.request d)
    Prog.call (.respond n response.status)

def hookCode : HookCall Raw → HookIo Unit
  | .enqueue url payload => do discard (enqueue url payload).run
  | .drain => do discard drain.run
  | .serve n => serve S n
  | .foreign request => do discard (handleWebhook S.php S.webhookSecret request)
  | .elapse secs => Prog.call (.elapse secs)

abbrev HookRun (Raw : Type) := List (Move (HookCall Raw) HookAnswer)
abbrev HookEvent (Raw : Type) := Event HookEff (HookCall Raw) HookAnswer Shop

def hookTrace (s : Shop) (ms : HookRun Raw) : List (HookEvent Raw) := Pool.trace hookHandler (hookCode S) (Pool.start s) ms

def hookAfter (s : Shop) (ms : HookRun Raw) : Shop := (Pool.run hookHandler (hookCode S) (Pool.start s) ms).state

end

/-! ## The contract of the shop -/

/-- The id a statement marks as delivered. -/
def QueueStmt.marks {β : Type} : QueueStmt β → Option String
  | .markDelivered id => some id
  | _ => none

namespace HookEff

variable {β : Type}

/-- The transient an operation looks up. -/
def looksUp : HookEff β → Option String
  | .getTransient key => some key
  | _ => none

/-- The order an operation completes. -/
def completes : HookEff β → Option Int
  | .paymentComplete order _ => some order.id
  | _ => none

/-- The delivery an operation marks as delivered. -/
def marks : HookEff β → Option String
  | .queue q => q.marks
  | _ => none

def responds : HookEff β → Option (Nat × Nat)
  | .respond n status => some (n, status)
  | _ => none

/-- An operation that acknowledges nothing. -/
def Silent (e : HookEff β) : Prop := e.marks = none ∧ e.responds = none

end HookEff

/-- The order is completed. -/
def Completed (o : Int) (s : Shop) : Prop := ∃ order, s.orders.get o = some order ∧ order.isPaid = true

/-- The order of the invoice: it is a Goblin order for that invoice, and it is completed or can be. -/
def Matching (o : Int) (invoiceId : String) (s : Shop) : Prop :=
  ∃ order, s.orders.get o = some order ∧ order.paymentMethod = gatewayId ∧
    ¬ (order.invoiceId ≠ "" ∧ invoiceId ≠ "" ∧ order.invoiceId ≠ invoiceId) ∧
    (order.isPaid = true ∨ order.awaitsPayment = true)

/-- Whoever acknowledges the event `payload` has its order completed: the shop in a response, the server in its queue. -/
structure Acknowledged (o : Int) (payload : WebhookPayload) (s : Shop) : Prop where
  response : ∀ n status, (n, status) ∈ s.responses → ∃ d, s.sent[n]? = some d ∧
    (isSuccess status = true → d.body = payload → Completed o s)
  queue : ∀ id d, s.deliveries.get id = some d → d.body = payload → d.delivered = true → Completed o s

/-- The event's order is settled wherever the event is found recorded, and completing the order succeeds. -/
structure SettledFirst {Raw : Type} (key : String) (o : Int) (T : List (HookEvent Raw)) : Prop where
  lookup : ∀ ev ∈ T, ev.eff.looksUp = some key → key ∈ ev.state.transients → ev.input.expired = false → Completed o ev.state
  complete : ∀ ev ∈ T, ev.eff.completes = some o → ev.input.fault = none

/-- The delivery is in the queue, whatever became of it. -/
def Queued (d : Delivery) (s : Shop) : Prop := ∃ row, s.deliveries.get d.id = some row ∧ row.body = d.body

/-- What no operation undoes. -/
structure Later (s s' : Shop) (o : Int) : Prop where
  completed : Completed o s → Completed o s'
  sent : ∀ (n : Nat) d, s.sent[n]? = some d → s'.sent[n]? = some d
  queued : ∀ d, Queued d s → Queued d s'

variable {o : Int} {s s' s'' : Shop} {payload : WebhookPayload} {invoiceId : String}

theorem Later.refl : Later s s o := ⟨id, fun _ _ => id, fun _ => id⟩

theorem Later.trans (h : Later s s' o) (h' : Later s' s'' o) : Later s s'' o where
  completed hs := h'.completed (h.completed hs)
  sent n d hd := h'.sent n d (h.sent n d hd)
  queued d hd := h'.queued d (h.queued d hd)

/-! ### Operations -/

theorem QueueStmt.exec_get {β : Type} (q : QueueStmt β) (now : Time) (queue : Sql.Table Delivery.id) (id : String) (row : Delivery)
    (h : queue.get id = some row) : ∃ row', (q.exec now queue).2.get id = some row' ∧ row'.body = row.body := by
  cases q with
  | enqueue url payload =>
    simp only [QueueStmt.exec]
    cases hins : queue.insert (payload.toDelivery url now) with
    | none => exact ⟨row, h, rfl⟩
    | some queue' =>
      refine ⟨row, ?_, rfl⟩
      have absent := Sql.Table.get_of_insert hins
      rw [Sql.Table.get_insert hins, if_neg, h]
      rintro rfl
      rw [absent] at h
      cases h
  | due => exact ⟨row, h, rfl⟩
  | markDelivered id' =>
    refine ⟨if row.id = id' then row.deliver else row, ?_, ?_⟩
    · simp only [QueueStmt.exec, Sql.Table.get_update, h, Option.map_some, decide_eq_true_eq]
    · split <;> rfl
  | nextAttempts id' =>
    simp only [QueueStmt.exec]
    split
    · exact ⟨row, h, rfl⟩
    · split <;> exact ⟨row, h, rfl⟩
  | reschedule id' attempts backoff =>
    simp only [QueueStmt.exec]
    split
    · rename_i nextAttemptAt _
      refine ⟨if row.id = id' then row.reschedule attempts nextAttemptAt else row, ?_, ?_⟩
      · simp only [Sql.Table.get_update, h, Option.map_some, decide_eq_true_eq]
      · split <;> rfl
    · split <;> exact ⟨row, h, rfl⟩

/-- A row that is delivered was, or is marked now. -/
theorem QueueStmt.exec_delivered {β : Type} (q : QueueStmt β) (now : Time) (queue : Sql.Table Delivery.id) (id : String) (row : Delivery)
    (h : (q.exec now queue).2.get id = some row) (hdelivered : row.delivered = true) :
    ∃ row', queue.get id = some row' ∧ row'.body = row.body ∧ (row'.delivered = true ∨ q.marks = some id) := by
  cases q with
  | enqueue url payload =>
    simp only [QueueStmt.exec] at h
    cases hins : queue.insert (payload.toDelivery url now) with
    | none =>
      rw [hins] at h
      exact ⟨row, h, rfl, Or.inl hdelivered⟩
    | some queue' =>
      rw [hins] at h
      rw [Sql.Table.get_insert hins] at h
      split at h
      · cases h
        cases hdelivered
      · exact ⟨row, h, rfl, Or.inl hdelivered⟩
  | due => exact ⟨row, h, rfl, Or.inl hdelivered⟩
  | markDelivered id' =>
    simp only [QueueStmt.exec, Sql.Table.get_update, Option.map_eq_some_iff] at h
    obtain ⟨row', hrow', rfl⟩ := h
    have key := Sql.Table.key_of_get hrow'
    refine ⟨row', hrow', by split <;> rfl, ?_⟩
    split at hdelivered
    · rename_i hid
      exact Or.inr (by simp [QueueStmt.marks, ← key, of_decide_eq_true hid])
    · exact Or.inl hdelivered
  | nextAttempts id' =>
    have same : ((QueueStmt.nextAttempts id').exec now queue).2 = queue := by
      simp only [QueueStmt.exec]
      split
      · rfl
      · split <;> rfl
    rw [same] at h
    exact ⟨row, h, rfl, Or.inl hdelivered⟩
  | reschedule id' attempts backoff =>
    simp only [QueueStmt.exec] at h
    split at h
    · simp only [Sql.Table.get_update, Option.map_eq_some_iff] at h
      obtain ⟨row', hrow', rfl⟩ := h
      refine ⟨row', hrow', by split <;> rfl, Or.inl ?_⟩
      split at hdelivered
      · exact hdelivered
      · exact hdelivered
    · split at h <;> exact ⟨row, h, rfl, Or.inl hdelivered⟩

variable {β : Type} {e : HookEff β} {x : HookAnswer}

/-- What an operation does to an order: it keeps it, or completes it. -/
theorem HookEff.order_change (e : HookEff β) (x : HookAnswer) {order : WcOrder} (h : s.orders.get o = some order) :
    ∃ order', (hookHandler.act e x s).2.orders.get o = some order' ∧ order'.paymentMethod = order.paymentMethod ∧
      order'.invoiceId = order.invoiceId ∧ (order'.status = order.status ∨ order'.isPaid = true) := by
  have kept : (hookHandler.act e x s).2.orders = s.orders → ∃ order', (hookHandler.act e x s).2.orders.get o = some order' ∧
      order'.paymentMethod = order.paymentMethod ∧ order'.invoiceId = order.invoiceId ∧
      (order'.status = order.status ∨ order'.isPaid = true) := fun same => ⟨order, by rw [same, h], rfl, rfl, Or.inl rfl⟩
  cases e with
  | paymentComplete loaded transactionId =>
    simp only [hookHandler]
    split
    · exact ⟨order, h, rfl, rfl, Or.inl rfl⟩
    split
    swap
    · exact ⟨order, h, rfl, rfl, Or.inl rfl⟩
    refine ⟨if order.id = loaded.id then order.complete loaded.needsProcessing transactionId else order, ?_, ?_, ?_, ?_⟩
    · simp only [Shop.updateOrder, Sql.Table.get_update, h, Option.map_some, decide_eq_true_eq]
    · split <;> rfl
    · split <;> rfl
    · split
      · right
        simp only [WcOrder.complete, WcOrder.isPaid]
        cases loaded.needsProcessing <;> rfl
      · exact Or.inl rfl
  | addOrderNote id note =>
    refine ⟨if order.id = id then order.addNote note else order, ?_, ?_, ?_, ?_⟩
    · simp only [hookHandler, Shop.updateOrder, Sql.Table.get_update, h, Option.map_some, decide_eq_true_eq]
    · split <;> rfl
    · split <;> rfl
    · left
      split <;> rfl
  | queue q =>
    refine kept ?_
    simp only [hookHandler]
    split <;> rfl
  | response n =>
    refine kept ?_
    simp only [hookHandler]
    split <;> rfl
  | getTransient key =>
    refine kept ?_
    simp only [hookHandler]
    split <;> rfl
  | _ => exact kept rfl

theorem WcOrder.isPaid_congr {order order' : WcOrder} (h : order'.status = order.status) : order'.isPaid = order.isPaid := by
  simp only [WcOrder.isPaid, h]

theorem Completed.act (h : Completed o s) : Completed o (hookHandler.act e x s).2 := by
  obtain ⟨order, hget, hpaid⟩ := h
  obtain ⟨order', hget', -, -, same | paid⟩ := e.order_change x hget
  · exact ⟨order', hget', by rw [WcOrder.isPaid_congr same, hpaid]⟩
  · exact ⟨order', hget', paid⟩

theorem Matching.act (h : Matching o invoiceId s) : Matching o invoiceId (hookHandler.act e x s).2 := by
  obtain ⟨order, hget, hmethod, hknown, hstatus⟩ := h
  obtain ⟨order', hget', hmethod', hknown', hstatus'⟩ := e.order_change x hget
  refine ⟨order', hget', hmethod'.trans hmethod, by rw [hknown']; exact hknown, ?_⟩
  rcases hstatus' with same | paid
  · refine hstatus.imp (fun hpaid => ?_) fun hawaits => ?_
    · rw [WcOrder.isPaid_congr same, hpaid]
    · simp only [WcOrder.awaitsPayment, same]
      exact hawaits
  · exact Or.inl paid

/-- The requests and the queue are only added to. -/
theorem HookEff.later (e : HookEff β) (x : HookAnswer) : Later s (hookHandler.act e x s).2 o := by
  refine ⟨Completed.act, fun n d hd => ?_, fun d hd => ?_⟩
  · cases e with
    | send delivery =>
      simp only [hookHandler]
      rw [List.getElem?_append_left (List.getElem?_eq_some_iff.1 hd).1, hd]
    | _ =>
      simp only [hookHandler]
      repeat' split
      all_goals exact hd
  · obtain ⟨row, hrow, hbody⟩ := hd
    cases e with
    | queue q =>
      simp only [hookHandler]
      split
      · exact ⟨row, hrow, hbody⟩
      · obtain ⟨row', hrow', hbody'⟩ := q.exec_get s.now s.deliveries _ _ hrow
        exact ⟨row', hrow', hbody'.trans hbody⟩
    | _ =>
      simp only [hookHandler]
      repeat' split
      all_goals exact ⟨row, hrow, hbody⟩

/-- What an operation owes so that the event stays acknowledged as it should be. -/
def Honest (o : Int) (payload : WebhookPayload) (e : HookEff β) (s : Shop) : Prop :=
  (∀ n status, e.responds = some (n, status) → ∃ d, s.sent[n]? = some d ∧ (isSuccess status = true → d.body = payload → Completed o s)) ∧
  ∀ id d, e.marks = some id → s.deliveries.get id = some d → d.body = payload → Completed o s

theorem Acknowledged.act (h : Acknowledged o payload s) (hb : Honest o payload e s) :
    Acknowledged o payload (hookHandler.act e x s).2 := by
  have later : Later s (hookHandler.act e x s).2 o := e.later x
  refine ⟨fun n status hmem => ?_, fun id d hget hbody hdelivered => ?_⟩
  · have before : (n, status) ∈ s.responses ∨ e.responds = some (n, status) := by
      cases e with
      | respond n' status' =>
        rcases List.mem_cons.1 hmem with heq | hmem
        · exact Or.inr (congrArg some heq.symm)
        · exact Or.inl hmem
      | _ =>
        left
        simp only [hookHandler] at hmem
        repeat' split at hmem
        all_goals exact hmem
    rcases before with hmem | hresponds
    · obtain ⟨d, hd, hpaid⟩ := h.response n status hmem
      exact ⟨d, later.sent n d hd, fun hs hb => later.completed (hpaid hs hb)⟩
    · obtain ⟨d, hd, hpaid⟩ := hb.1 n status hresponds
      exact ⟨d, later.sent n d hd, fun hs hb => later.completed (hpaid hs hb)⟩
  · have before : ∃ row, s.deliveries.get id = some row ∧ row.body = d.body ∧ (row.delivered = true ∨ e.marks = some id) := by
      cases e with
      | queue q =>
        simp only [hookHandler] at hget
        split at hget
        · exact ⟨d, hget, rfl, Or.inl hdelivered⟩
        · exact q.exec_delivered s.now s.deliveries id d hget hdelivered
      | _ =>
        refine ⟨d, ?_, rfl, Or.inl hdelivered⟩
        simp only [hookHandler] at hget
        repeat' split at hget
        all_goals exact hget
    obtain ⟨row, hrow, hbody', hwas | hmarks⟩ := before
    · exact later.completed (h.queue id row hrow (hbody'.trans hbody) hwas)
    · exact later.completed (hb.2 id row hmarks hrow (hbody'.trans hbody))

/-! ## The programs -/

section

variable {Raw : Type}

/-- The event is settled wherever it is found recorded: what the environment owes one operation. -/
def SettlesFirst (key : String) (o : Int) (e : HookEff β) (x : HookAnswer) (s : Shop) : Prop :=
  (e.looksUp = some key → key ∈ s.transients → x.expired = false → Completed o s) ∧ (e.completes = some o → x.fault = none)

/-- The contract of the worker and of the shop. -/
def fulfilling (η : Type) (key : String) (o : Int) (payload : WebhookPayload) : Discipline hookHandler η Unit where
  inv s := Acknowledged o payload s ∧ Matching o (payload.invoiceId.getD "") s
  rely _ _ s s' := Later s s' o
  before _ _ e s := Honest o payload e s
  allowed _ e x s := SettlesFirst key o e x s
  gain _ _ _ := ()
  rely_refl _ _ _ := .refl
  rely_trans h h' := h.trans h'

variable {η : Type} {h : η} {key : String} {g : Unit} {α : Type} {Q : α → Unit → Shop → Prop} {K : Shop → Prop}

theorem HookEff.Silent.honest {e : HookEff β} (he : e.Silent) : Honest o payload e s := by
  refine ⟨fun n status hr => ?_, fun id d hm => ?_⟩
  · rw [he.2] at hr
    cases hr
  · rw [he.1] at hm
    cases hm

/-- A program that acknowledges nothing. -/
theorem fulfilling_silent {p : HookIo α} (hp : p.Only HookEff.Silent) :
    Meets (fulfilling η key o payload) h (fun _ _ _ => True) p g s :=
  Meets.of_only hp fun _ _ _ he => he.honest

/-- An operation that acknowledges nothing, where something holds that stays. -/
theorem fulfilling_step {e : HookEff β} {k : β → HookIo α} (he : e.Silent) (hK : K s) (stable : ∀ s s', Later s s' o → K s → K s')
    (hk : ∀ x s, Matching o (payload.invoiceId.getD "") s → K s → SettlesFirst key o e x s →
      Meets (fulfilling η key o payload) h Q (k (hookHandler.act e x s).1) () (hookHandler.act e x s).2) :
    Meets (fulfilling η key o payload) h Q (Prog.call e >>= k) g s :=
  Meets.step (k := k) hK (fun _ _ hr _ hK => stable _ _ hr hK) (fun _ _ _ => he.honest) fun x s hi hK hx => hk x s hi.2 hK hx

theorem fulfilling_ret {a : α} {P : Shop → Prop} (hP : P s) (stable : ∀ s s', Later s s' o → P s → P s') :
    Meets (fulfilling η key o payload) h (fun _ _ s => P s) (.ret a) g s := fun s' hr _ => stable s s' hr hP

theorem Completed.later (s s' : Shop) (hl : Later s s' o) : Completed o s → Completed o s' := hl.completed

/-- The shop's answer to a request is the only thing that acknowledges it. -/
theorem only_handleWebhook (php : Php Raw) (webhookSecret : String) (request : RestRequest Raw) :
    (handleWebhook php webhookSecret request).Only HookEff.Silent := by
  have applies : ∀ order data, (applyEvent order data).Only HookEff.Silent := fun order data => by
    unfold applyEvent settleOrder
    repeat' split
    all_goals first | exact trivial | exact Prog.Only.call ⟨rfl, rfl⟩ | skip
    exact Prog.Only.bind (Prog.Only.bind (Prog.Only.call ⟨rfl, rfl⟩) fun _ => trivial) fun _ => Prog.Only.call ⟨rfl, rfl⟩
  have events : ∀ data, (handleEvent php data).Only HookEff.Silent := fun data => by
    unfold handleEvent
    dsimp only
    split
    · exact trivial
    refine Prog.Only.bind (Prog.Only.call ⟨rfl, rfl⟩) fun order => ?_
    split
    · exact trivial
    split
    · exact trivial
    split
    · exact trivial
    · exact Prog.Only.bind (applies _ _) fun _ => trivial
  unfold handleWebhook
  split
  · exact trivial
  split
  · exact trivial
  split
  · exact trivial
  refine Prog.Only.bind ?_ fun found => ?_
  · unfold processedBefore
    split
    · exact trivial
    refine Prog.Only.bind (Prog.Only.call ⟨rfl, rfl⟩) fun found => ?_
    split
    · exact trivial
    · exact Prog.Only.bind (Prog.Only.call ⟨rfl, rfl⟩) fun _ => trivial
  · split
    · exact trivial
    · exact events _

/-- A note leaves a completed order completed. -/
theorem fulfilling_note (hpaid : Completed o s) (id : Int) (note : String) :
    Meets (fulfilling η key o payload) h (fun _ _ s => Completed o s) (Prog.call (.addOrderNote id note)) g s :=
  fulfilling_step (k := .ret) ⟨rfl, rfl⟩ hpaid Completed.later fun _ _ _ hpaid _ => fulfilling_ret hpaid.act Completed.later

/-- A confirmation completes its order. -/
theorem fulfilling_applyEvent {order : WcOrder} {data : WebhookData} (htype : data.eventType = some "payment.confirmed")
    (hid : order.id = o) (hloaded : order.isPaid = true → Completed o s) (hstatus : order.isPaid = true ∨ order.awaitsPayment = true) :
    Meets (fulfilling η key o payload) h (fun _ _ s => Completed o s) (applyEvent order data) g s := by
  have confirmed : some "payment.confirmed" ≠ some "payment.received" := by decide
  unfold applyEvent
  rw [if_neg (htype ▸ confirmed), if_pos htype]
  split
  · rename_i hpaid
    exact fulfilling_note (hloaded hpaid) _ _
  rename_i hunpaid
  have awaits : order.awaitsPayment = true := hstatus.resolve_left hunpaid
  unfold settleOrder
  rw [if_neg hunpaid]
  refine fulfilling_step (K := fun _ => True) ⟨rfl, rfl⟩ trivial (fun _ _ _ h => h) fun x s hmatching _ hx => ?_
  have sure : x.fault = none := hx.2 (congrArg some hid)
  have completed : Completed o (hookHandler.act (.paymentComplete order (data.slateId.getD "")) x s).2 := by
    obtain ⟨row, hrow, -⟩ := hmatching
    refine ⟨row.complete order.needsProcessing (data.slateId.getD ""), ?_, ?_⟩
    · have key := Sql.Table.key_of_get hrow
      simp only [hookHandler, sure, Option.isSome_none, Bool.false_eq_true, if_false, awaits, if_true, Shop.updateOrder,
        Sql.Table.get_update, hrow, Option.map_some, hid, decide_eq_true_eq, key]
    · simp only [WcOrder.complete, WcOrder.isPaid]
      cases order.needsProcessing <;> rfl
  exact fulfilling_note completed _ _

/-- The event that is not found recorded. -/
theorem fulfilling_handleEvent {php : Php Raw} {ref : String} (htype : payload.eventType = .paymentConfirmed)
    (href : payload.orderRef = some ref) (hne : ref ≠ "") :
    Meets (fulfilling η key (php.intval ref) payload) h (fun _ _ s => Completed (php.intval ref) s) (handleEvent php payload.data) g s := by
  have names : payload.data.orderRef.getD "" = ref := by simp [WebhookPayload.data, href]
  have type : payload.data.eventType = some "payment.confirmed" := by simp [WebhookPayload.data, htype, EventType.asStr]
  unfold handleEvent
  simp only [names]
  rw [if_neg hne]
  refine fulfilling_step (K := fun _ => True) ⟨rfl, rfl⟩ trivial (fun _ _ _ h => h) fun x s hmatching _ _ => ?_
  obtain ⟨order, hget, hmethod, hknown, hstatus⟩ := hmatching
  have loaded : (hookHandler.act (.wcGetOrder (php.intval ref)) x s).1 = some order := hget
  have same : (hookHandler.act (.wcGetOrder (php.intval ref)) x s).2 = s := rfl
  rw [loaded, same]
  have known : payload.data.invoiceId = payload.invoiceId := rfl
  dsimp only
  rw [known, if_neg (not_not.2 hmethod), if_neg hknown]
  refine Meets.andThen (fulfilling_applyEvent type (Sql.Table.key_of_get hget) (fun hpaid => ⟨order, hget, hpaid⟩) hstatus) ?_
  exact fun _ _ _ _ hpaid => fulfilling_ret hpaid Completed.later

/-- Whoever is told that the event arrived has its order completed. -/
theorem fulfilling_handleWebhook (S : HookSetup Raw) {d : Delivery} {ref : String} (hbody : d.body = payload)
    (htype : payload.eventType = .paymentConfirmed) (href : payload.orderRef = some ref) (hne : ref ≠ "") :
    Meets (fulfilling η (eventKey S.php payload.eventId) (S.php.intval ref) payload) h
      (fun r _ s => isSuccess r.status = true → Completed (S.php.intval ref) s) (handleWebhook S.php S.webhookSecret (S.request d)) g s := by
  have id : (S.request d).data = some payload.data ∧ payload.data.eventId = some payload.eventId := ⟨by rw [← hbody]; rfl, rfl⟩
  have refused : ∀ {r : RestResponse} {s : Shop}, isSuccess r.status = false →
      Meets (fulfilling η (eventKey S.php payload.eventId) (S.php.intval ref) payload) h
        (fun r _ s => isSuccess r.status = true → Completed (S.php.intval ref) s) (.ret r) g s := fun hr _ _ _ hs => by
    rw [hr] at hs
    cases hs
  unfold handleWebhook
  split
  · exact refused rfl
  split
  · exact refused rfl
  rw [id.1]
  dsimp only
  rw [id.2, Option.getD_some]
  have event : ∀ (g : Unit) s, Meets (fulfilling η (eventKey S.php payload.eventId) (S.php.intval ref) payload) h
      (fun r _ s => isSuccess r.status = true → Completed (S.php.intval ref) s) (handleEvent S.php payload.data) g s := fun g s =>
    (fulfilling_handleEvent htype href hne).mono fun _ _ _ _ hpaid _ => hpaid
  unfold processedBefore
  split
  · exact event g s
  refine fulfilling_step (K := fun _ => True) ⟨rfl, rfl⟩ trivial (fun _ _ _ h => h) fun x s _ _ hx => ?_
  cases hfound : (hookHandler.act (.getTransient (eventKey S.php payload.eventId)) x s).1 with
  | true =>
    have found : x.expired = false ∧ eventKey S.php payload.eventId ∈ s.transients := by simpa [hookHandler] using hfound
    have paid : Completed (S.php.intval ref) s := hx.1 rfl found.2 found.1
    exact fun s' hr _ _ => hr.completed paid.act
  | false =>
    refine fulfilling_step (K := fun _ => True) ⟨rfl, rfl⟩ trivial (fun _ _ _ h => h) fun y s _ _ _ => ?_
    exact event () _

/-- What stays as the system goes on, a program carries to its end. -/
theorem fulfilling_frame {p : HookIo α} (hp : Meets (fulfilling η key o payload) h Q p g s) (hK : K s)
    (stable : ∀ s s', Later s s' o → K s → K s') : Meets (fulfilling η key o payload) h (fun a g s => Q a g s ∧ K s) p g s := by
  induction p generalizing g s with
  | ret a => exact fun s' hr hi => ⟨hp s' hr hi, stable s s' hr hK⟩
  | await e k ih =>
    intro s' hr hi
    obtain ⟨hb, hk⟩ := hp s' hr hi
    exact ⟨hb, fun x hx => ih _ (hk x hx) (stable _ _ (e.later x) (stable _ _ hr hK))⟩

theorem fulfilling_serve (S : HookSetup Raw) (n : Nat) {ref : String} (htype : payload.eventType = .paymentConfirmed)
    (href : payload.orderRef = some ref) (hne : ref ≠ "") :
    Meets (fulfilling η (eventKey S.php payload.eventId) (S.php.intval ref) payload) h (fun _ _ _ => True) (serve S n) g s := by
  refine fulfilling_step (K := fun _ => True) ⟨rfl, rfl⟩ trivial (fun _ _ _ h => h) fun x s _ _ _ => ?_
  have answered : (hookHandler.act (.accept n) x s).1 = s.sent[n]? := rfl
  have same : (hookHandler.act (.accept n) x s).2 = s := rfl
  rw [answered, same]
  cases hsent : s.sent[n]? with
  | none => exact fun _ _ _ => trivial
  | some d =>
    have handled : Meets (fulfilling η (eventKey S.php payload.eventId) (S.php.intval ref) payload) h
        (fun r _ s => isSuccess r.status = true → d.body = payload → Completed (S.php.intval ref) s)
        (handleWebhook S.php S.webhookSecret (S.request d)) () s := by
      by_cases hbody : d.body = payload
      · exact (fulfilling_handleWebhook S hbody htype href hne).mono fun _ _ _ _ hpaid hs _ => hpaid hs
      · exact (fulfilling_silent (only_handleWebhook S.php S.webhookSecret _)).mono fun _ _ _ _ _ _ hb => absurd hb hbody
    refine Meets.andThen (fulfilling_frame handled hsent fun _ _ hr hsent => hr.sent n d hsent) fun r g s _ hr => ?_
    obtain ⟨hpaid, hsent⟩ := hr
    intro s' hr _
    have answers : ∃ d, s'.sent[n]? = some d ∧ (isSuccess r.status = true → d.body = payload → Completed (S.php.intval ref) s') :=
      ⟨d, hr.sent n d hsent, fun hs hb => hr.completed (hpaid hs hb)⟩
    refine ⟨⟨fun n' status heq => ?_, fun id row hmarks => ?_⟩, fun _ _ _ _ _ => trivial⟩
    · cases heq
      exact answers
    · cases hmarks

/-- A response that says the event arrived is one of the shop. -/
theorem fulfilling_post (d : Delivery) :
    Meets (fulfilling η key o payload) h (fun r _ s => ∀ status, r = .ok status → isSuccess status = true → d.body = payload → Completed o s)
      (post d) g s := by
  refine fulfilling_step (K := fun _ => True) ⟨rfl, rfl⟩ trivial (fun _ _ _ h => h) fun x s _ _ _ => ?_
  have number : (hookHandler.act (.send d) x s).1 = s.sent.length := rfl
  have posted : (hookHandler.act (.send d) x s).2.sent[s.sent.length]? = some d := List.getElem?_concat_length
  rw [number]
  refine Meets.step (K := fun t => t.sent[s.sent.length]? = some d) posted (fun _ _ hr _ hd => hr.sent _ d hd)
    (fun _ _ _ => HookEff.Silent.honest ⟨rfl, rfl⟩) fun y t hi hsent _ => ?_
  intro t' hr _ status heq hs hb
  have there : (s.sent.length, status) ∈ t.responses := by
    simp only [hookHandler] at heq
    split at heq
    · rename_i hlookup
      cases heq
      obtain ⟨_, _, hsplit, -⟩ := List.lookup_eq_some_iff.1 hlookup
      rw [hsplit]
      exact List.mem_append_right _ List.mem_cons_self
    · cases heq
    · cases heq
  obtain ⟨d', hd', hpaid⟩ := hi.1.response _ _ there
  obtain rfl : d = d' := Option.some.inj (hsent.symm.trans hd')
  exact hr.completed (Completed.act (hpaid hs hb))

theorem only_markFailed (id : String) : (markFailed id).run.Only HookEff.Silent :=
  Prog.Only.bindExcept (Prog.Only.call ⟨rfl, rfl⟩) fun _ => Prog.Only.call ⟨rfl, rfl⟩

theorem fulfilling_deliver {d : Delivery} (hd : Queued d s) :
    Meets (fulfilling η key o payload) h (fun _ _ _ => True) (deliver d).run g s := by
  have posted : Meets (fulfilling η key o payload) h (fun r _ s => (∀ (a : Except String Nat) status, r = .ok a → a = .ok status → isSuccess status = true →
      d.body = payload → Completed o s) ∧ Queued d s) (liftM (post d) : ExceptT SqlxError HookIo (Except String Nat)).run g s := by
    refine Meets.andThen (f := fun a => .ret (Except.ok a)) (fulfilling_frame (fulfilling_post d) hd fun _ _ hr hd => hr.queued d hd)
      fun r g s _ hr => ?_
    intro s' hrely _
    refine ⟨fun a status heq ha hs hb => ?_, hrely.queued d hr.2⟩
    cases heq
    exact hrely.completed (hr.1 status ha hs hb)
  refine Meets.tryThen posted (fun r g s _ hr => ?_) fun _ _ _ _ _ _ _ _ => trivial
  obtain ⟨hpaid, hd⟩ := hr
  split
  · split
    · rename_i status hs
      intro s' hrely _
      refine ⟨⟨fun n status hresponds => ?_, fun id row hmarks hget hbody => ?_⟩, fun _ _ _ _ _ => trivial⟩
      · cases hresponds
      · cases hmarks
        obtain ⟨row', hrow', hbody'⟩ := hrely.queued d hd
        obtain rfl : row' = row := Option.some.inj (hrow'.symm.trans hget)
        exact hrely.completed (hpaid _ _ rfl rfl hs (hbody'.symm.trans hbody))
    · exact fulfilling_silent (only_markFailed d.id)
  · exact fulfilling_silent (only_markFailed d.id)

theorem fulfilling_deliverAll {ds : List Delivery} (hds : ∀ d ∈ ds, Queued d s) :
    Meets (fulfilling η key o payload) h (fun _ _ _ => True) (deliverAll ds).run g s := by
  induction ds generalizing g s with
  | nil => exact fun _ _ _ => trivial
  | cons d rest ih =>
    have rest_queued : ∀ d ∈ rest, Queued d s := fun d hd => hds d (List.mem_cons_of_mem _ hd)
    have first : Meets (fulfilling η key o payload) h (fun _ _ s => True ∧ ∀ d ∈ rest, Queued d s) (deliver d).run g s :=
      fulfilling_frame (fulfilling_deliver (hds d List.mem_cons_self)) rest_queued fun _ _ hr hrest d hd => hr.queued d (hrest d hd)
    exact Meets.tryThen first (fun _ _ _ _ hr => ih hr.2) fun _ _ _ _ _ _ _ _ => trivial

theorem fulfilling_drain : Meets (fulfilling η key o payload) h (fun _ _ _ => True) drain.run g s := by
  have due : Meets (fulfilling η key o payload) h (fun r _ s => ∀ ds, r = .ok ds → ∀ d ∈ ds, Queued d s) (due batch).run g s := by
    refine fulfilling_step (K := fun _ => True) ⟨rfl, rfl⟩ trivial (fun _ _ _ h => h) fun x s _ _ _ => ?_
    intro s' hr _ ds heq d hd
    simp only [hookHandler] at heq hr
    split at heq
    · cases heq
    · rename_i hfault
      rw [hfault] at hr
      cases heq
      have there := (List.mem_insertionSort _).1 (List.mem_of_mem_take hd)
      exact hr.queued d ⟨d, (Sql.Table.mem_select.1 there).1, rfl⟩
  exact Meets.tryThen due (fun ds _ _ _ hr => fulfilling_deliverAll (hr ds rfl)) fun _ _ _ _ _ _ _ _ => trivial

/-- The protocol of the worker and the shop. -/
def fulfillingProtocol (S : HookSetup Raw) {ref : String} (htype : payload.eventType = .paymentConfirmed)
    (href : payload.orderRef = some ref) (hne : ref ≠ "") : Protocol hookHandler (hookCode S) Unit where
  toDiscipline := fulfilling (Head (HookCall Raw) Shop) (eventKey S.php payload.eventId) (S.php.intval ref) payload
  init := ()
  start_meets {c s} _ _ _ := by
    cases c with
    | enqueue url payload' =>
      refine fulfilling_silent (Prog.Only.bind ?_ fun _ => trivial)
      exact Prog.Only.bindExcept (Prog.Only.call ⟨rfl, rfl⟩) fun _ => trivial
    | drain => exact Meets.andThen fulfilling_drain fun _ _ _ _ _ _ _ _ => trivial
    | serve n => exact fulfilling_serve S n htype href hne
    | foreign request => exact fulfilling_silent (Prog.Only.bind (only_handleWebhook S.php S.webhookSecret request) fun _ => trivial)
    | elapse secs => exact fulfilling_silent (Prog.Only.call ⟨rfl, rfl⟩)
  keeps hi _ hb _ := ⟨⟨hi.1.act hb, hi.2.act⟩, trivial⟩
  yields {_ _ _ _ _ e x _} _ _ _ _ _ _ := e.later x

/-- In a run in which nobody finds the event recorded before its order is settled, whoever acknowledges the event has its order completed. -/
theorem acknowledged_of_settled (S : HookSetup Raw) (s : Shop) (ms : HookRun Raw) (payload : WebhookPayload) (ref : String)
    (htype : payload.eventType = .paymentConfirmed) (href : payload.orderRef = some ref) (hne : ref ≠ "")
    (matching : Matching (S.php.intval ref) (payload.invoiceId.getD "") s) (unanswered : s.responses = [])
    (undelivered : ∀ id d, s.deliveries.get id = some d → d.body = payload → d.delivered = false)
    (settled : SettledFirst (eventKey S.php payload.eventId) (S.php.intval ref) (hookTrace S s ms)) :
    Acknowledged (S.php.intval ref) payload (hookAfter S s ms) := by
  have start : Acknowledged (S.php.intval ref) payload s := by
    refine ⟨fun n status hmem => ?_, fun id d hget hbody hdelivered => ?_⟩
    · rw [unanswered] at hmem
      cases hmem
    · rw [undelivered id d hget hbody] at hdelivered
      cases hdelivered
  have admitted : (fulfillingProtocol S htype href hne).Admitted (Pool.start s) ms :=
    ⟨fun ev hev => ⟨settled.lookup ev hev, settled.complete ev hev⟩, fun _ _ => trivial, List.pairwise_of_forall fun _ _ => trivial⟩
  exact ((fulfillingProtocol S htype href hne).end_run ⟨start, matching⟩ (fun _ => trivial) admitted).1.1

end

/-! ## Two posts -/

/-- The signature names its secret, and the shop has order `7`. -/
def shopSetup : HookSetup String := ⟨⟨fun secret raw => secret ++ raw, id, fun ref => if ref = "7" then 7 else 0⟩, "k", "k", fun p => p.eventId⟩

def confirmedEvent : WebhookPayload :=
  ⟨"e", .paymentConfirmed, 1000, ⟨"t", 100, "0.0000001", .confirmed, none, some 5, some 1⟩, some "i", some "7", none⟩

/-- The confirmation of order `7` is due. -/
def shop : Shop where
  now := 1000
  deliveries := ⟨[confirmedEvent.toDelivery "url" 1000], List.nodup_singleton _⟩
  sent := []
  responses := []
  transients := []
  orders := ⟨[⟨7, .onHold, gatewayId, "i", "", true, []⟩], List.nodup_singleton _⟩

theorem shop_matching : Matching 7 "i" shop := ⟨_, rfl, rfl, by decide, Or.inr rfl⟩

theorem shop_undelivered (id : String) (d : Delivery) (h : shop.deliveries.get id = some d) : d.delivered = false := by
  obtain rfl := List.mem_singleton.1 (Sql.Table.mem_of_get h)
  rfl

/-- The first post is answered by the run of the webhook that serves it. -/
def servedRun : HookRun String :=
  [.start .drain, .run 0 {}, .run 0 {}, .start (.serve 0)] ++ List.replicate 7 (.run 1 {}) ++ List.replicate 2 (.run 0 {})

/-- That run dies once it has recorded the event; the worker gives up waiting, and posts again when the backoff is over. -/
def retriedRun : HookRun String :=
  [.start .drain, .run 0 {}, .run 0 {}, .start (.serve 0), .run 1 {}, .run 1 {}, .run 1 {},
   .run 0 { fault := some "timeout" }, .run 0 {}, .run 0 {}, .start (.elapse 30), .run 2 {},
   .start .drain, .run 3 {}, .run 3 {}, .start (.serve 1), .run 4 {}, .run 4 {}, .run 4 {}, .run 3 {}, .run 3 {}]

theorem servedRun_acknowledged : Acknowledged 7 confirmedEvent (hookAfter shopSetup shop servedRun) ∧
    ∃ d, (hookAfter shopSetup shop servedRun).deliveries.get "e" = some d ∧ d.delivered = true := by
  have settled : (hookTrace shopSetup shop servedRun).all (fun ev =>
      (ev.eff.looksUp.isNone || ev.state.transients.isEmpty) && ev.input.fault.isNone) = true := by decide
  have each := List.all_eq_true.1 settled
  simp only [Bool.and_eq_true, Bool.or_eq_true] at each
  refine ⟨acknowledged_of_settled shopSetup shop servedRun confirmedEvent "7" rfl rfl (by decide) shop_matching rfl
    (fun id d h _ => shop_undelivered id d h) ⟨fun ev hev hlook hmem _ => ?_, fun ev hev _ => ?_⟩, by decide⟩
  · rcases (each ev hev).1 with none | empty
    · rw [hlook] at none
      cases none
    · rw [List.isEmpty_iff.1 empty] at hmem
      cases hmem
  · exact Option.isNone_iff_eq_none.1 (each ev hev).2

/-- The second post is answered from the mark of the dead run: delivered, and the order is not completed. -/
theorem retriedRun_lost : (∀ ev ∈ hookTrace shopSetup shop retriedRun, ev.input.expired = false ∧ (ev.eff.completes = some 7 → ev.input.fault = none)) ∧
    ¬ Acknowledged 7 confirmedEvent (hookAfter shopSetup shop retriedRun) := by
  have steady : (hookTrace shopSetup shop retriedRun).all (fun ev => !ev.input.expired && ev.eff.completes.isNone) = true := by decide
  have each := List.all_eq_true.1 steady
  simp only [Bool.and_eq_true, Bool.not_eq_true'] at each
  refine ⟨fun ev hev => ⟨(each ev hev).1, fun hcompletes => ?_⟩, fun acknowledged => ?_⟩
  · have none := (each ev hev).2
    rw [hcompletes] at none
    cases none
  · obtain ⟨d, hget, hbody, hdelivered⟩ : ∃ d, (hookAfter shopSetup shop retriedRun).deliveries.get "e" = some d ∧
        d.body = confirmedEvent ∧ d.delivered = true := by decide
    obtain ⟨order, horder, hpaid⟩ := acknowledged.queue "e" d hget hbody hdelivered
    have unpaid : ((hookAfter shopSetup shop retriedRun).orders.get 7).any WcOrder.isPaid = false := by decide
    rw [horder] at unpaid
    simp [hpaid] at unpaid

end GoblinPay
