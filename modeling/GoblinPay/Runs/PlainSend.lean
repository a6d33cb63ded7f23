import GoblinPay.Async.Process
import GoblinPay.Runs.Lifecycle

/-!
# The plain-send panel

Invoices keep the order they were created in, whatever runs. Of the open invoices of the rail that expect
one amount the earliest may offer a plain send, the others may not; and when it leaves the status `open`
the next one takes its place.
-/

namespace GoblinPay

open Async Sql

/-! ## The order of creation -/

/-- `a` was created before `b`. -/
def Earlier (order : List String) (a b : String) : Prop := [a, b].Sublist order

theorem Earlier.asymm {order : List String} {a b : String} (hnodup : order.Nodup) (h : Earlier order a b) :
    ¬ Earlier order b a := by
  intro h'
  unfold Earlier at h h'
  induction order with
  | nil => cases h
  | cons c order ih =>
    obtain ⟨hc, hnodup⟩ := List.nodup_cons.1 hnodup
    have mem : ∀ {x y : String}, [x, y].Sublist order → x ∈ order ∧ y ∈ order := fun hs =>
      ⟨hs.subset List.mem_cons_self, hs.subset (List.mem_cons_of_mem _ List.mem_cons_self)⟩
    cases h with
    | cons _ h =>
      cases h' with
      | cons _ h' => exact ih hnodup h h'
      | cons_cons _ h' => exact hc (mem h).2
    | cons_cons _ h =>
      have hb : b ∈ order := h.subset List.mem_cons_self
      cases h' with
      | cons _ h' => exact hc (mem h').2
      | cons_cons _ _ => exact hc hb

/-- The invoice an operation creates, going by its answer. -/
def Eff.creates {β : Type} (e : Eff β) (answer : β) : Option String :=
  match e, answer with
  | .sql (.insertInvoice row), .ok () => some row.id
  | _, _ => none

section

variable {W γ ρ : Type} (U : Upstream W)

/-- The invoices of a history, in the order of their creation. -/
def creations (T : List (Event Eff γ Answer (World W))) : List String :=
  T.filterMap fun ev => ev.eff.creates (ev.answer (handler U))

theorem ids_setInvoice (db : Db) (p : Invoice → Bool) (f : Invoice → Invoice) (hf : ∀ r, (f r).id = r.id) :
    (db.setInvoice p f hf).invoice.rows.map Invoice.id = db.invoice.rows.map Invoice.id := by
  simp only [Db.setInvoice, Table.update, List.map_map]
  apply List.map_congr_left
  intro inv _
  by_cases hp : p inv <;> simp [hp, hf]

/-- Whatever statement runs, the invoices keep their order, and a new one comes last. -/
theorem Stmt.ids_exec {β : Type} (q : Stmt β) (now : Time) (choice : Nat) (db : Db) :
    (q.exec now choice db).2.invoice.rows.map Invoice.id =
      db.invoice.rows.map Invoice.id ++ ((Eff.sql q).creates (q.exec now choice db).1).toList := by
  cases q with
  | insertInvoice row =>
    simp only [Stmt.exec]
    split
    · simp [Eff.creates]
    · rcases hins : db.invoice.insert (row.toInvoice now) with _ | tab
      · simp [inserted, Eff.creates]
      · simp [inserted, Eff.creates, Table.rows_insert hins, InvoiceRow.toInvoice]
  | expireIfDueId | expireIfDueToken | expireDue | markPaid | attachGrin1 | markConfirmed | markExpired =>
    exact (ids_setInvoice _ _ _ _).trans (List.append_nil _).symm
  | expectedAmount i => simp only [Stmt.exec]; split <;> simp [Eff.creates]
  | selectAssignment u e => simp only [Stmt.exec]; split <;> simp [Eff.creates]
  | enqueue url payload => simp only [Stmt.exec, inserted]; split <;> simp [Eff.creates]
  | insertUser id rotate => simp only [Stmt.exec, inserted]; split <;> simp [Eff.creates]
  | insertPayment row => simp only [Stmt.exec, inserted]; split <;> simp [Eff.creates]
  | insertAssignment u e pk =>
    simp only [Stmt.exec]
    split
    · simp [Eff.creates]
    · split <;> simp [Eff.creates]
  | _ => simp [Stmt.exec, Eff.creates, Db.setPayment, Db.setUser]

theorem Eff.ids_act {β : Type} (e : Eff β) (x : Answer) (w : World W) :
    (act U x w e).2.db.invoice.rows.map Invoice.id =
      w.db.invoice.rows.map Invoice.id ++ (e.creates (act U x w e).1).toList := by
  cases e with
  | sql q =>
    cases hf : x.fault with
    | none =>
      simp only [act, hf]
      exact q.ids_exec _ _ _
    | some m => cases q <;> simp [act, hf, Eff.creates]
  | receiveTx s => simp only [act]; split <;> simp [Eff.creates]
  | issueInvoiceTx a => simp only [act]; split <;> simp [Eff.creates]
  | finalizeTx s => simp only [act]; split <;> simp [Eff.creates]
  | cancelTx sid => simp only [act]; split <;> simp [Eff.creates]
  | _ => simp [act, Eff.creates, World.restart]

theorem creations_cons (ev : Event Eff γ Answer (World W)) (T : List (Event Eff γ Answer (World W))) :
    creations U (ev :: T) = (ev.eff.creates (ev.answer (handler U))).toList ++ creations U T := by
  cases hev : ev.eff.creates (ev.answer (handler U)) <;> simp [creations, hev]

/-- A run adds its creations to the invoices, in their order. -/
theorem ids_run (code : γ → Io ρ) (P : Pool Eff γ (World W) ρ) (ms : List (Move γ Answer)) :
    (Pool.run (handler U) code P ms).state.db.invoice.rows.map Invoice.id =
      P.state.db.invoice.rows.map Invoice.id ++ creations U (Pool.trace (handler U) code P ms) := by
  induction ms generalizing P with
  | nil => simp [Pool.run, Pool.trace, creations]
  | cons m ms ih =>
    cases m with
    | start c => exact ih (Pool.step (handler U) code P (.start c))
    | run i x =>
      have hrest := ih (Pool.step (handler U) code P (.run i x))
      obtain ⟨h, β, e, k, -, he, hs⟩ | ⟨he, hs⟩ := Pool.step_run (handler U) code P i x
      · have hstate : (Pool.step (handler U) code P (.run i x)).state = (act U x P.state e).2 := by
          rw [hs]
          rfl
        have htrace : Pool.trace (handler U) code P (.run i x :: ms) =
            ⟨h, e, x, P.state⟩ :: Pool.trace (handler U) code (Pool.step (handler U) code P (.run i x)) ms := by
          rw [Pool.trace, he, Option.toList_some, List.singleton_append]
        rw [Pool.run, hrest, hstate, e.ids_act, htrace, creations_cons, List.append_assoc]
        rfl
      · rw [Pool.run, hrest, hs, Pool.trace, he, hs]
        rfl

end

/-! ## Who may offer a plain send -/

/-- The open invoices of the rail that expect the amount. -/
structure Invoice.Claims (amount : Int64) (inv : Invoice) : Prop where
  rail : inv.isGrin1 = true
  isOpen : inv.status = .open
  expects : inv.expectedAmount = some amount

/-- `inv` claims the amount, and was created before every other invoice that does. -/
structure Leads {W : Type} (w : World W) (order : List String) (amount : Int64) (inv : Invoice) : Prop where
  row : w.db.invoice.get inv.id = some inv
  claims : inv.Claims amount
  earliest : ∀ other, w.db.invoice.get other.id = some other → other.Claims amount → other ≠ inv →
    Earlier order inv.id other.id

section

variable {W : Type} (U : Upstream W) {w : World W} {amount : Int64} {inv : Invoice}

/-- `plain_send_allowed` answers `yes` in the state `w`, when its statement does not fail. -/
def PlainSend (w : World W) (inv : Invoice) (yes : Bool) : Prop :=
  ∀ x xs, x.fault = none → ((Invoice.plainSendAllowed inv).run.exec (handler U) (x :: xs) w).1 = .ret (.ok yes)

theorem plainSend_off (h : inv.isGrin1 = false ∨ ∀ amount, inv.expectedAmount = some amount → amount ≤ 0) :
    PlainSend U w inv false := by
  intro x xs _
  have hret : (Invoice.plainSendAllowed inv).run = .ret (.ok false) := by
    unfold Invoice.plainSendAllowed
    rcases h with hrail | hamount
    · rw [hrail]
      rfl
    · split
      · split
        · rfl
        · rename_i amount hexp
          rw [if_pos (hamount amount hexp)]
          rfl
      · rfl
  rw [hret]
  exact congrArg Prod.fst (Prog.exec_ret _ _ _ _)

/-- The invoices created before `inv` that hold its amount. -/
def rivals (db : Db) (amount : Int64) (inv : Invoice) : List Invoice :=
  (db.earlierInvoices inv.id).filter fun other =>
    other.isGrin1 && other.status = .open && other.expectedAmount = some amount

theorem plainSend_rivals (hrail : inv.isGrin1 = true) (hexp : inv.expectedAmount = some amount) (hpos : 0 < amount) :
    PlainSend U w inv (rivals w.db amount inv).isEmpty := by
  intro x xs hx
  have hle : ¬ amount ≤ 0 := by
    rw [Int64.not_le]
    exact hpos
  obtain ⟨k, hprog, hk⟩ : ∃ k, (Invoice.plainSendAllowed inv).run = .await (Eff.sql (.countEarlierGrin1 amount inv.id)) k ∧
      ∀ n, k (.ok n) = .ret (.ok (n == 0)) := by
    unfold Invoice.plainSendAllowed
    rw [if_pos hrail, hexp]
    dsimp only
    rw [if_neg hle]
    exact ⟨_, rfl, fun _ => rfl⟩
  have hact : (act U x w (.sql (.countEarlierGrin1 amount inv.id))).1 = .ok (rivals w.db amount inv).length := by
    simp only [act, hx]
    rfl
  have hempty : ((rivals w.db amount inv).length == 0) = (rivals w.db amount inv).isEmpty := by
    cases rivals w.db amount inv <;> rfl
  rw [hprog, Prog.exec]
  dsimp only [handler]
  rw [hact, hk, Prog.exec_ret, hempty]

theorem earlierInvoices_eq {db : Db} {pre post : List Invoice} (hrows : db.invoice.rows = pre ++ inv :: post) :
    db.earlierInvoices inv.id = pre := by
  have hrow : db.invoice.get inv.id = some inv :=
    Table.get_of_mem (hrows ▸ List.mem_append_right pre List.mem_cons_self)
  have hnodup := db.invoice.nodup
  rw [hrows, List.map_append, List.map_cons] at hnodup
  have hpre : ∀ other ∈ pre, decide (other.id ≠ inv.id) = true := by
    intro other hother
    have hdisjoint := (List.nodup_append.1 hnodup).2.2
    simpa using hdisjoint _ (List.mem_map_of_mem hother) _ List.mem_cons_self
  have hstop : (inv :: post).takeWhile (fun other => decide (other.id ≠ inv.id)) = [] :=
    List.takeWhile_cons_of_neg (by simp)
  rw [Db.earlierInvoices, hrow, if_pos Option.isSome_some, hrows, List.takeWhile_append_of_pos hpre, hstop, List.append_nil]

/-- What the count's WHERE clause says of a row. -/
theorem claims_iff {other : Invoice} :
    (other.isGrin1 && other.status = .open && other.expectedAmount = some amount) = true ↔ other.Claims amount := by
  simp only [Bool.and_eq_true, decide_eq_true_eq, and_assoc]
  exact ⟨fun ⟨h, h', h''⟩ => ⟨h, h', h''⟩, fun h => ⟨h.rail, h.isOpen, h.expects⟩⟩

/-- Where the invoices stand in the order of creation, an invoice without rivals leads, and no other does. -/
theorem rivals_isEmpty_iff {order : List String} (horder : w.db.invoice.rows.map Invoice.id = order)
    (hrow : w.db.invoice.get inv.id = some inv) (hclaims : inv.Claims amount) :
    (rivals w.db amount inv).isEmpty = true ↔ Leads w order amount inv := by
  obtain ⟨pre, post, hrows⟩ := List.append_of_mem (Table.mem_of_get hrow)
  have hnodup := w.db.invoice.nodup
  have hids : order = pre.map Invoice.id ++ inv.id :: post.map Invoice.id := by
    rw [← horder, hrows, List.map_append, List.map_cons]
  rw [horder] at hnodup
  have hmem : ∀ other, w.db.invoice.get other.id = some other ↔ other ∈ pre ∨ other = inv ∨ other ∈ post := by
    intro other
    rw [← Table.mem_rows_iff, hrows, List.mem_append, List.mem_cons]
  rw [List.isEmpty_iff, rivals, earlierInvoices_eq hrows, List.filter_eq_nil_iff]
  constructor
  · intro hno
    refine ⟨hrow, hclaims, ?_⟩
    intro other hother hc hne
    rcases (hmem other).1 hother with hother | rfl | hother
    · exact absurd (claims_iff.2 hc) (hno other hother)
    · exact absurd rfl hne
    · rw [hids]
      have hlast : [inv.id, other.id].Sublist (inv.id :: post.map Invoice.id) :=
        (List.singleton_sublist.2 (List.mem_map_of_mem hother)).cons_cons inv.id
      exact hlast.trans (List.sublist_append_right _ _)
  · intro hleads other hother hc
    have hne : other ≠ inv := by
      rintro rfl
      rw [hids] at hnodup
      exact (List.nodup_append.1 hnodup).2.2 _ (List.mem_map_of_mem hother) _ List.mem_cons_self rfl
    have hafter := hleads.earliest other ((hmem other).2 (Or.inl hother)) (claims_iff.1 hc) hne
    have hbefore : Earlier order other.id inv.id := by
      rw [hids]
      have hfirst : [other.id].Sublist (pre.map Invoice.id) := List.singleton_sublist.2 (List.mem_map_of_mem hother)
      exact hfirst.append (List.singleton_sublist.2 List.mem_cons_self)
    exact hafter.asymm hnodup hbefore

/-- Some claimant leads. -/
theorem exists_leads {order : List String} (horder : w.db.invoice.rows.map Invoice.id = order)
    (hrow : w.db.invoice.get inv.id = some inv) (hclaims : inv.Claims amount) : ∃ leader, Leads w order amount leader := by
  have hsome : (w.db.invoice.rows.find? fun other =>
      other.isGrin1 && other.status = .open && other.expectedAmount = some amount).isSome = true :=
    List.find?_isSome.2 ⟨inv, Table.mem_of_get hrow, claims_iff.2 hclaims⟩
  obtain ⟨leader, hleader⟩ := Option.isSome_iff_exists.1 hsome
  obtain ⟨hc, pre, post, hrows, hpre⟩ := List.find?_eq_some_iff_append.1 hleader
  have hget : w.db.invoice.get leader.id = some leader :=
    Table.get_of_mem (hrows ▸ List.mem_append_right pre List.mem_cons_self)
  refine ⟨leader, (rivals_isEmpty_iff horder hget (claims_iff.1 hc)).1 ?_⟩
  rw [List.isEmpty_iff, rivals, earlierInvoices_eq hrows, List.filter_eq_nil_iff]
  intro other hother hc
  have hno := hpre other hother
  rw [hc] at hno
  cases hno

theorem Leads.unique {order : List String} {leader : Invoice} (hnodup : order.Nodup) (h : Leads w order amount leader)
    (h' : Leads w order amount inv) : leader = inv := by
  by_contra hne
  exact (h.earliest inv h'.row h'.claims (Ne.symm hne)).asymm hnodup (h'.earliest leader h.row h.claims hne)

/-- The operation that takes a claimant out of `open` lets no other invoice in. -/
theorem claims_before {β : Type} {e : Eff β} {x : Answer} {leader : Invoice} (hrow : w.db.invoice.get leader.id = some leader)
    (hopen : leader.status = .open)
    (hleft : ∀ after, (act U x w e).2.db.invoice.get leader.id = some after → after.status ≠ .open)
    (hafter : (act U x w e).2.db.invoice.get inv.id = some inv) (hclaims : inv.Claims amount) :
    w.db.invoice.get inv.id = some inv := by
  have hchange := e.invoice_change U x w inv.id
  rw [hafter] at hchange
  have hleader := e.invoice_change U x w leader.id
  rw [hrow] at hleader
  -- the operation expires, sweeps or pays the leader
  have hby : e.write = none ∨ ∃ i, e.write = some (.expire i) ∨ ∃ t, e.write = some (.pay i t) := by
    generalize hr : (act U x w e).2.db.invoice.get leader.id = r at hleader hleft
    cases hleader with
    | keep => exact absurd hopen (hleft leader rfl)
    | expire hlapse => exact Or.inl (Eff.write_of_lapses hlapse)
    | sweep hw _ => exact Or.inr ⟨_, Or.inl hw⟩
    | pay hw _ => exact Or.inr ⟨_, Or.inr ⟨_, hw⟩⟩
    | arm _ => exact (hleft _ rfl hopen).elim
    | confirm _ hpaid =>
      rw [hopen] at hpaid
      cases hpaid
  generalize w.db.invoice.get inv.id = r at hchange
  generalize hs : some inv = r' at hchange
  cases hchange with
  | keep => rfl
  | create hw _ => simp [hw] at hby
  | arm hw => simp [hw] at hby
  | expire _ =>
    cases hs
    exact absurd hclaims.isOpen nofun
  | sweep _ _ =>
    cases hs
    exact absurd hclaims.isOpen nofun
  | pay _ _ =>
    cases hs
    exact absurd hclaims.isOpen nofun
  | confirm _ _ =>
    cases hs
    exact absurd hclaims.isOpen nofun

/-- A claimant of the state answers yes exactly if it leads. -/
theorem plainSend_leads {order : List String} (horder : w.db.invoice.rows.map Invoice.id = order) (hpos : 0 < amount)
    (hrow : w.db.invoice.get inv.id = some inv) (hclaims : inv.Claims amount) {leader : Invoice}
    (hleads : Leads w order amount leader) : PlainSend U w inv (decide (inv = leader)) := by
  have hanswer := plainSend_rivals U (w := w) hclaims.rail hclaims.expects hpos
  have hiff := rivals_isEmpty_iff horder hrow hclaims
  have hnodup : order.Nodup := horder ▸ w.db.invoice.nodup
  have hsame : (rivals w.db amount inv).isEmpty = decide (inv = leader) := by
    rw [Bool.eq_iff_iff, hiff, decide_eq_true_iff]
    constructor
    · intro h
      exact h.unique hnodup hleads
    · rintro rfl
      exact hleads
  rw [← hsame]
  exact hanswer

end

/-! ## Over a run -/

section

variable {W γ ρ : Type} (U : Upstream W) (code : γ → Io ρ) (wallet : W) (now : Time)

/-- The state a run from an empty database leads to, and the invoices it created in their order. -/
def reached (ms : List (Move γ Answer)) : World W := (Pool.run (handler U) code (Pool.start (World.fresh wallet now)) ms).state

def created (ms : List (Move γ Answer)) : List String :=
  creations U (Pool.trace (handler U) code (Pool.start (World.fresh wallet now)) ms)

theorem ids_reached (ms : List (Move γ Answer)) :
    (reached U code wallet now ms).db.invoice.rows.map Invoice.id = created U code wallet now ms :=
  ids_run U code (Pool.start (World.fresh wallet now)) ms

theorem created_append (ms : List (Move γ Answer)) (m : Move γ Answer) :
    ∃ more, created U code wallet now (ms ++ [m]) = created U code wallet now ms ++ more := by
  refine ⟨creations U (Pool.trace (handler U) code (Pool.run (handler U) code (Pool.start (World.fresh wallet now)) ms) [m]), ?_⟩
  unfold created creations
  rw [Pool.trace_append, List.filterMap_append]

/-- What the panel's gate answers in a state. -/
structure PlainSendGate (w : World W) (order : List String) : Prop where
  /-- of the claimants of an amount, one answers yes: the earliest -/
  one : ∀ amount inv, 0 < amount → w.db.invoice.get inv.id = some inv → inv.Claims amount →
    ∃ leader, Leads w order amount leader ∧
      ∀ other, w.db.invoice.get other.id = some other → other.Claims amount → PlainSend U w other (decide (other = leader))
  /-- off the rail, without an amount or with one that is not positive, the answer is no -/
  off : ∀ inv : Invoice, inv.isGrin1 = false ∨ inv.expectedAmount = none ∨
    (∃ amount, inv.expectedAmount = some amount ∧ amount ≤ 0) → PlainSend U w inv false

/-- In the step to `w'` the leader of `w` leaves `open`, and of the others that claim the amount `next` is the
earliest. -/
structure Succeeds (w w' : World W) (order : List String) (amount : Int64) (leader next : Invoice) : Prop where
  leads : Leads w order amount leader
  left : ∀ after, w'.db.invoice.get leader.id = some after → after.status ≠ .open
  row : w'.db.invoice.get next.id = some next
  claims : next.Claims amount
  earliest : ∀ other, w.db.invoice.get other.id = some other → other.Claims amount → other ≠ leader → other ≠ next →
    Earlier order next.id other.id

theorem plainSendGate_reached (ms : List (Move γ Answer)) :
    PlainSendGate U (reached U code wallet now ms) (created U code wallet now ms) where
  one amount inv hpos hrow hclaims := by
    obtain ⟨leader, hleads⟩ := exists_leads (ids_reached U code wallet now ms) hrow hclaims
    refine ⟨leader, hleads, ?_⟩
    intro other hother hc
    exact plainSend_leads U (ids_reached U code wallet now ms) hpos hother hc hleads
  off inv h := by
    apply plainSend_off
    refine h.imp_right ?_
    rintro (hnone | ⟨a, ha, hle⟩) amount hexp
    · rw [hnone] at hexp
      cases hexp
    · rw [ha] at hexp
      cases hexp
      exact hle

theorem leads_succeeds {ms : List (Move γ Answer)} {m : Move γ Answer} {amount : Int64} {leader next : Invoice}
    (h : Succeeds (reached U code wallet now ms) (reached U code wallet now (ms ++ [m])) (created U code wallet now ms) amount
      leader next) :
    Leads (reached U code wallet now (ms ++ [m])) (created U code wallet now (ms ++ [m])) amount next := by
  have before : ∀ inv : Invoice, (reached U code wallet now (ms ++ [m])).db.invoice.get inv.id = some inv →
      inv.Claims amount → (reached U code wallet now ms).db.invoice.get inv.id = some inv := by
    intro inv hrow hclaims
    have hleft := h.left
    unfold reached at hrow hleft ⊢
    rw [Pool.run_append, Pool.run, Pool.run] at hrow hleft
    cases m with
    | start c => exact hrow
    | run i x =>
      obtain ⟨head, β, e, k, -, -, hs⟩ | ⟨-, hs⟩ := Pool.step_run (handler U) code
        (Pool.run (handler U) code (Pool.start (World.fresh wallet now)) ms) i x
      · rw [hs] at hrow hleft
        exact claims_before U h.leads.row h.leads.claims.isOpen hleft hrow hclaims
      · rw [hs] at hrow
        exact hrow
  refine ⟨h.row, h.claims, ?_⟩
  intro other hother hc hne
  have hnotleader : other ≠ leader := by
    rintro rfl
    exact h.left other hother hc.isOpen
  obtain ⟨more, hmore⟩ := created_append U code wallet now ms m
  rw [hmore]
  exact (h.earliest other (before other hother hc) hc hnotleader hne).trans (List.sublist_append_left _ _)

/-- Wherever a run from an empty database leads, the gate lets the earliest claimant of an amount through and no
other invoice, and when that one leaves `open` the next. -/
theorem plainSend_run (ms : List (Move γ Answer)) :
    PlainSendGate U (reached U code wallet now ms) (created U code wallet now ms) ∧
      ∀ m amount leader next, 0 < amount →
        Succeeds (reached U code wallet now ms) (reached U code wallet now (ms ++ [m])) (created U code wallet now ms) amount
          leader next →
        PlainSend U (reached U code wallet now (ms ++ [m])) next true := by
  refine ⟨plainSendGate_reached U code wallet now ms, ?_⟩
  intro m amount leader next hpos h
  have hleads := leads_succeeds U code wallet now h
  have hanswer := plainSend_leads U (ids_reached U code wallet now (ms ++ [m])) hpos h.row h.claims hleads
  simpa using hanswer

end

end GoblinPay
