import GoblinPay.Runs.Rotation
import GoblinPay.Runs.Watch
import GoblinPay.Sql.Total

/-!
# Reported balances

Amounts are stored `as i64` and added up by SQLite. `reports_iff` says in which states the admin listing reports the
amounts that were credited, `credited_iff` which operations take nothing away from a user, and `balances_run` both of
every run.
-/

namespace GoblinPay

open Async Sql

/-! ## What is credited -/

namespace Payment

/-- The amount that was stored `as i64`. -/
def original (p : Payment) : UInt64 := p.amount.toUInt64

/-- What the payment adds to a user's balance. -/
def creditTo (user : String) (p : Payment) : Nat := if p.userId = some user then p.original.toNat else 0

end Payment

def Db.credited (db : Db) (user : String) : Nat := db.payment.total (Payment.creditTo user)

/-- `list_with_balances`, without failures: a line for each user, with what was credited. -/
def Reports {W : Type} (U : Upstream W) (w : World W) : Prop :=
  ∀ xs r, (∀ x ∈ xs, x.fault = none) → (Endpub.listWithBalances.run.exec (handler U) xs w).1 = .ret r →
    ∃ lines, r = .ok lines ∧ lines.map (fun line => (line.userId, line.balance.toInt)) =
      (w.db.user.rows.mergeSort fun a b => b.createdAt ≤ a.createdAt).map fun u => (u.id, (w.db.credited u.id : Int))

/-! ## The sum -/

section

variable {db : Db} {user : String} {as : List Int64}

theorem toInt_of_original {a : Int64} (h : a.toUInt64.toNat < 2 ^ 63) : a.toInt = a.toUInt64.toNat := by
  have hcast := toInt_toInt64 a.toUInt64
  rw [if_pos h] at hcast
  simpa using hcast

/-- Adding up `i64`s whose originals stay below the cap. -/
theorem foldlM_sum {acc : Int64} (hacc : 0 ≤ acc.toInt)
    (h : acc.toInt + ((as.map fun a => a.toUInt64.toNat).sum : Nat) < 2 ^ 63) :
    ∃ b, as.foldlM (fun sum amount =>
        if -2 ^ 63 ≤ sum.toInt + amount.toInt ∧ sum.toInt + amount.toInt < 2 ^ 63 then some (sum + amount) else none) acc =
      some b ∧ b.toInt = acc.toInt + ((as.map fun a => a.toUInt64.toNat).sum : Nat) := by
  induction as generalizing acc with
  | nil => exact ⟨acc, rfl, by simp⟩
  | cons a as ih =>
    rw [List.map_cons, List.sum_cons] at h
    have ha : a.toInt = a.toUInt64.toNat := toInt_of_original (by omega)
    have hsum : (acc + a).toInt = acc.toInt + a.toInt := toInt_add (by omega) (by omega)
    obtain ⟨b, hb, hb'⟩ := @ih (acc + a) (by omega) (by omega)
    refine ⟨b, ?_, ?_⟩
    · rw [List.foldlM_cons, if_pos (by omega)]
      exact hb
    · rw [hb', hsum, ha, List.map_cons, List.sum_cons]
      omega

theorem credited_eq : db.credited user =
    (((db.payment.select fun p => p.userId = some user).map Payment.amount).map fun a => a.toUInt64.toNat).sum := by
  rw [Db.credited, Table.total, Table.select, List.map_map]
  induction db.payment.rows with
  | nil => rfl
  | cons p rows ih =>
    rw [List.map_cons, List.sum_cons, ih]
    by_cases hp : p.userId = some user
    · rw [List.filter_cons_of_pos (by simpa using hp), List.map_cons, List.sum_cons, Payment.creditTo, if_pos hp]
      rfl
    · rw [List.filter_cons_of_neg (by simpa using hp), Payment.creditTo, if_neg hp, Nat.zero_add]

theorem exec_sumAmount (h : db.credited user < 2 ^ 63) : ∃ b : Int64, b.toInt = db.credited user ∧
    ∀ now choice, ((Stmt.sumAmount user).exec now choice db).1 = .ok b := by
  have hzero : (0 : Int64).toInt = 0 := rfl
  rw [credited_eq] at h
  have hbound : (0 : Int64).toInt + ((((db.payment.select fun p => p.userId = some user).map Payment.amount).map
      fun a => a.toUInt64.toNat).sum : Nat) < 2 ^ 63 := by
    rw [hzero]
    omega
  obtain ⟨b, hb, hsum⟩ := foldlM_sum (Int.le_of_eq hzero.symm) hbound
  refine ⟨b, ?_, ?_⟩
  · rw [hsum, hzero, credited_eq, Int.zero_add]
  · intro now choice
    show (sumInteger _).elim _ _ = _
    rw [sumInteger, hb]
    rfl

end

/-! ## The listing -/

section

variable {W : Type} {U : Upstream W} {s : World W} {users : List User}

theorem balances_meets (h : ∀ u ∈ users, s.db.credited u.id < 2 ^ 63) :
    Meets (plainRequest U Faultless fun _ => True) () (fun r _ s' => s' = s ∧ ∃ lines, r = .ok lines ∧
        lines.map (fun line => (line.userId, line.balance.toInt)) = users.map fun u => (u.id, (s.db.credited u.id : Int)))
      (Endpub.balances users).run () s := by
  induction users with
  | nil => exact Meets.soloRet ⟨rfl, [], rfl, rfl⟩
  | cons u users ih =>
    obtain ⟨b, hb, hsum⟩ := exec_sumAmount (h u List.mem_cons_self)
    refine faultless_sql (b := s.db.highestEndpub u.id) (fun _ => rfl) ?_
    intro _
    refine faultless_sql (b := b) (fun choice => hsum s.now choice) ?_
    intro _
    refine Meets.tryThen (ih fun v hv => h v (List.mem_cons_of_mem u hv)) ?_ ?_
    · rintro lines _ s' _ ⟨rfl, lines', hlines, hmap⟩
      cases hlines
      exact Meets.soloRet ⟨rfl, _, rfl, by rw [List.map_cons, List.map_cons, hmap, hb]⟩
    · rintro e _ s' _ ⟨-, lines, hlines, -⟩
      cases hlines

/-- The listing reports what was credited if and only if that is below the cap for every user. -/
theorem reports_iff : Reports U s ↔ ∀ u ∈ s.db.user.rows, s.db.credited u.id < 2 ^ 63 := by
  constructor
  · intro h u hu
    obtain ⟨xs, hxs, r, hr⟩ := exists_faultless U Endpub.listWithBalances.run s
    obtain ⟨lines, -, hmap⟩ := h xs r hxs hr
    have hmem : (u.id, (s.db.credited u.id : Int)) ∈ lines.map fun line => (line.userId, line.balance.toInt) := by
      rw [hmap]
      exact List.mem_map.2 ⟨u, (List.mergeSort_perm _ _).mem_iff.2 hu, rfl⟩
    obtain ⟨line, -, hline⟩ := List.mem_map.1 hmem
    have hlt := line.balance.toInt_lt
    rw [(Prod.mk.inj hline).2] at hlt
    omega
  · intro h xs r hxs hr
    have hmeets : Meets (plainRequest U Faultless fun _ => True) () (fun r _ s' => s' = s ∧ ∃ lines, r = .ok lines ∧
        lines.map (fun line => (line.userId, line.balance.toInt)) =
          (s.db.user.rows.mergeSort fun a b => b.createdAt ≤ a.createdAt).map fun u => (u.id, (s.db.credited u.id : Int)))
        Endpub.listWithBalances.run () s := by
      refine faultless_sql (b := s.db.user.rows.mergeSort fun a b => b.createdAt ≤ a.createdAt) (fun _ => rfl) ?_
      intro _
      exact balances_meets fun u hu => h u ((List.mergeSort_perm _ _).mem_iff.1 hu)
    exact (faultless_exec hmeets hxs hr).2

end

/-! ## What takes credit away -/

/-- The statement takes a payment of some amount from the user it is credited to. -/
def Stmt.Uncredits {β : Type} (db : Db) : Stmt β → Prop
  | .linkPayment t _ user =>
    ∃ p u, db.payment.get t = some p ∧ p.userId = some u ∧ user ≠ some u ∧ p.amount ≠ 0
  | .deletePayment t => ∃ p u, db.payment.get t = some p ∧ p.userId = some u ∧ p.amount ≠ 0
  | _ => False

def Eff.Uncredits {β : Type} (x : Answer) (db : Db) : Eff β → Prop
  | .sql q => x.fault = none ∧ q.Uncredits db
  | _ => False

section

variable {β : Type} {db : Db} {p : Payment} {u t : String} {user : Option String}

theorem Payment.original_pos (h : p.amount ≠ 0) : 0 < p.original.toNat := by
  refine Nat.pos_of_ne_zero ?_
  intro hz
  have hzero : p.original = 0 := UInt64.toNat_inj.1 hz
  have hback : p.amount = p.original.toInt64 := (Int64.toInt64_toUInt64 p.amount).symm
  rw [hzero] at hback
  exact h hback

theorem Payment.creditTo_zero (h : p.amount = 0) : p.creditTo u = 0 := by
  unfold Payment.creditTo Payment.original
  rw [h]
  split <;> rfl

theorem Payment.creditTo_self (h : p.userId = some u) : p.creditTo u = p.original.toNat := if_pos h

theorem Payment.creditTo_other (h : p.userId ≠ some u) : p.creditTo u = 0 := if_neg h

/-- Crediting a payment anew takes nothing away unless it was credited to someone else. -/
theorem credit_link {i : Option String} : (∀ u, p.creditTo u ≤ (p.link i user).creditTo u) ↔
    ¬ ∃ u, p.userId = some u ∧ user ≠ some u ∧ p.amount ≠ 0 := by
  constructor
  · rintro h ⟨u, hu, hne, hamount⟩
    have hle := h u
    have hnew : (p.link i user).creditTo u = 0 := Payment.creditTo_other hne
    have hpos := Payment.original_pos hamount
    rw [Payment.creditTo_self hu, hnew] at hle
    omega
  · intro h u
    by_cases hu : p.userId = some u
    · by_cases hne : user = some u
      · have hnew : (p.link i user).creditTo u = p.original.toNat := Payment.creditTo_self hne
        rw [hnew, Payment.creditTo_self hu]
      · have hamount : p.amount = 0 := by
          by_contra hamount
          exact h ⟨u, hu, hne, hamount⟩
        rw [Payment.creditTo_zero hamount]
        exact Nat.zero_le _
    · rw [Payment.creditTo_other hu]
      exact Nat.zero_le _

theorem credited_link (t : String) (i user : Option String) (now : Time) (choice : Nat) (db : Db) :
    (∀ u, db.credited u ≤ ((Stmt.linkPayment t i user).exec now choice db).2.credited u) ↔ ¬ (Stmt.linkPayment t i user).Uncredits db := by
  have hkey : ∀ p : Payment, (p.link i user).slateId = p.slateId := fun _ => rfl
  cases hget : db.payment.get t with
  | none =>
    have hsame : ∀ u, ((Stmt.linkPayment t i user).exec now choice db).2.credited u = db.credited u := fun u =>
      Table.total_update_none hkey hget
    refine ⟨?_, fun _ u => Nat.le_of_eq (hsame u).symm⟩
    rintro - ⟨p, u, hp, -⟩
    rw [hget] at hp
    cases hp
  | some p =>
    have hchange : ∀ u, ((Stmt.linkPayment t i user).exec now choice db).2.credited u + p.creditTo u =
        db.credited u + (p.link i user).creditTo u := fun u => Table.total_update_key hkey hget
    have hcredit : (∀ u, db.credited u ≤ ((Stmt.linkPayment t i user).exec now choice db).2.credited u) ↔
        ∀ u, p.creditTo u ≤ (p.link i user).creditTo u := by
      refine forall_congr' ?_
      intro u
      have := hchange u
      omega
    rw [hcredit, credit_link]
    simp only [Stmt.Uncredits, hget, Option.some.injEq]
    constructor
    · rintro h ⟨p', u, rfl, hu⟩
      exact h ⟨u, hu⟩
    · rintro h ⟨u, hu⟩
      exact h ⟨p, u, rfl, hu⟩

theorem credited_delete (t : String) (now : Time) (choice : Nat) (db : Db) :
    (∀ u, db.credited u ≤ ((Stmt.deletePayment t).exec now choice db).2.credited u) ↔ ¬ (Stmt.deletePayment t).Uncredits db := by
  cases hget : db.payment.get t with
  | none =>
    have hsame : ∀ u, ((Stmt.deletePayment t).exec now choice db).2.credited u = db.credited u := fun u =>
      Table.total_delete_none hget
    refine ⟨?_, fun _ u => Nat.le_of_eq (hsame u).symm⟩
    rintro - ⟨p, u, hp, -⟩
    rw [hget] at hp
    cases hp
  | some p =>
    have hchange : ∀ u, ((Stmt.deletePayment t).exec now choice db).2.credited u + p.creditTo u = db.credited u := fun u =>
      Table.total_delete_key hget
    constructor
    · rintro h ⟨p', u, hp', hu, hamount⟩
      rw [hget] at hp'
      cases hp'
      have hle := h u
      have hsum := hchange u
      have hpos := Payment.original_pos hamount
      rw [Payment.creditTo_self hu] at hsum
      omega
    · intro h u
      have hsum := hchange u
      have hzero : p.creditTo u = 0 := by
        by_cases hu : p.userId = some u
        · refine Payment.creditTo_zero ?_
          by_contra hamount
          exact h ⟨p, u, hget, hu, hamount⟩
        · exact Payment.creditTo_other hu
      omega

/-- A new row adds its own amount. -/
theorem credited_insert (row : PaymentRow) (now : Time) (choice : Nat) (db : Db) (u : String) :
    db.credited u ≤ ((Stmt.insertPayment row).exec now choice db).2.credited u := by
  simp only [Stmt.exec, inserted]
  cases hins : db.payment.insert (row.toPayment now) with
  | none => exact Nat.le_refl _
  | some tab =>
    have hsum : tab.total (Payment.creditTo u) = db.payment.total (Payment.creditTo u) + (row.toPayment now).creditTo u :=
      Table.total_insert hins
    exact Nat.le.intro hsum.symm

/-- A statement takes nothing away from any user if and only if it does not take a credited payment away. -/
theorem Stmt.credited_iff (q : Stmt β) (now : Time) (choice : Nat) (db : Db) :
    (∀ u, db.credited u ≤ (q.exec now choice db).2.credited u) ↔ ¬ q.Uncredits db := by
  cases q with
  | linkPayment t i user => exact credited_link t i user now choice db
  | deletePayment t => exact credited_delete t now choice db
  | insertPayment row => exact ⟨fun _ h => h, fun _ u => credited_insert row now choice db u⟩
  | updateDepth height c t =>
    have hkey : ∀ p : Payment, (p.atDepth height c now).slateId = p.slateId := fun _ => rfl
    have hcredit : ∀ u, ∀ p : Payment, (p.atDepth height c now).creditTo u = p.creditTo u := fun _ _ => rfl
    exact ⟨fun _ h => h, fun _ u => Nat.le_of_eq (Table.total_update hkey (hcredit u)).symm⟩
  | markReplied t =>
    have hkey : ∀ p : Payment, p.reply.slateId = p.slateId := fun _ => rfl
    have hcredit : ∀ u, ∀ p : Payment, p.reply.creditTo u = p.creditTo u := fun _ _ => rfl
    exact ⟨fun _ h => h, fun _ u => Nat.le_of_eq (Table.total_update hkey (hcredit u)).symm⟩
  | insertInvoice row =>
    refine ⟨fun _ h => h, fun _ u => Nat.le_of_eq ?_⟩
    simp only [Stmt.exec, inserted]
    split
    · rfl
    · split <;> rfl
  | expectedAmount _ | selectAssignment _ _ | enqueue _ _ | insertUser _ _ =>
    refine ⟨fun _ h => h, fun _ u => Nat.le_of_eq ?_⟩
    simp only [Stmt.exec, inserted]
    split <;> rfl
  | insertAssignment user epoch pubkey =>
    refine ⟨fun _ h => h, fun _ u => Nat.le_of_eq ?_⟩
    simp only [Stmt.exec]
    split
    · rfl
    · split <;> rfl
  | _ => exact ⟨fun _ h => h, fun _ u => Nat.le_refl _⟩

theorem Eff.credited_iff {W : Type} (U : Upstream W) (e : Eff β) (x : Answer) (w : World W) :
    (∀ u, w.db.credited u ≤ (act U x w e).2.db.credited u) ↔ ¬ e.Uncredits x w.db := by
  cases e with
  | sql q =>
    cases hf : x.fault with
    | none =>
      simp only [act, hf, Eff.Uncredits, true_and]
      exact q.credited_iff w.now x.choice w.db
    | some m =>
      simp only [act, hf, Eff.Uncredits]
      simp
  | receiveTx | issueInvoiceTx | finalizeTx | cancelTx =>
    refine ⟨fun _ h => h, fun _ u => Nat.le_of_eq ?_⟩
    simp only [act]
    split <;> rfl
  | _ => exact ⟨fun _ h => h, fun _ u => Nat.le_refl _⟩

end

/-! ## Runs -/

section

variable {W : Type} (U : Upstream W)

/-- At every step of the run, nobody's credit shrinks, and the listing reports it. -/
def Accounted (w : World W) (ms : Run) : Prop :=
  ∀ ev ∈ history U w ms, Reports U (ev.after (handler U)) ∧
    ∀ u, ev.state.db.credited u ≤ (ev.after (handler U)).db.credited u

/-- The amounts come from receives, or from invoices that were settled. -/
def AmountWrite (T : List (Happening W)) (h : Head Call (World W)) (_ : World W) (wr : Write) : Prop :=
  ∀ row, wr = .insert row → Receives U T h row.slateId row.amount.toUInt64 ∨ Finalizes U T h row.slateId

variable {U}

theorem amount_call {T : List (Happening W)} (c : Call) (s : World W) :
    Meets (watch U T (AmountWrite U T)) ⟨c, s⟩ (fun _ _ _ => True) (code U c) () s := by
  by_cases hrail : c.IsRail
  · refine Rails.meets (h := ⟨c, s⟩) (watch_rails ?_ ?_ ?_ ?_) hrail
    · exact fun t s row h => by cases h
    · exact fun final s _ row h => by cases h
    · intro r payer rc memo mode wh g s hr
      have hwrites : Prog.Writes (fun wr => ∀ row, wr = .insert row → row.slateId = r.slateId ∧ row.amount = r.amount.toInt64)
          (Record.persistAndMatch r payer rc memo mode wh) := by
        refine (Record.footprint_persistAndMatch r payer rc memo mode wh ?_ ?_ ?_ ?_ ?_).writes
        · intro row h
          cases h
          exact ⟨rfl, rfl⟩
        · exact fun i row h => by cases h
        · exact fun i row h => by cases h
        · exact fun row h => by cases h
        · exact fun p row h => by cases h
      refine watch_of_writes hwrites ?_
      intro wr s hwr row h
      obtain ⟨hid, hamount⟩ := hwr row h
      left
      rw [hid, hamount, UInt64.toUInt64_toInt64]
      exact hr
    · intro f wh g s hf
      have hwrites : Prog.Writes (fun wr => ∀ row, wr = .insert row → row.slateId = f.slateId) (Foreign.settleFinalized f wh) := by
        refine (Foreign.footprint_settleFinalized f wh ?_ ?_ ?_).writes
        · intro inv row h
          cases h
          rfl
        · exact fun i row h => by cases h
        · exact fun p row h => by cases h
      refine watch_of_writes hwrites ?_
      intro wr s hwr row h
      right
      rw [hwr row h]
      exact hf
  · refine watch_of_writes (Call.writes U hrail) ?_
    rintro wr s hwr row rfl
    cases c <;> simp [Call.mayWrite] at hwr

/-- Every payment in the database has the amount that was received, unless it settled an invoice. -/
theorem amounts_run (wallet : W) (now : Time) (ms : Run) (t : String) (p : Payment)
    (hp : (after U (World.fresh wallet now) ms).state.db.payment.get t = some p) :
    ∃ h ∈ Pool.heads (after U (World.fresh wallet now) ms),
      Receives U (history U (World.fresh wallet now) ms) h t p.original ∨
        Finalizes U (history U (World.fresh wallet now) ms) h t := by
  refine Pool.inv_run (handler U) (code U) (P := Pool.start (World.fresh wallet now))
    (I := fun s => ∀ t p, s.db.payment.get t = some p → ∃ h ∈ Pool.heads (after U (World.fresh wallet now) ms),
      Receives U (history U (World.fresh wallet now) ms) h t p.original ∨
        Finalizes U (history U (World.fresh wallet now) ms) h t) ?_ ?_ t p hp
  · intro t p hp
    cases hp
  · intro ev hev hbefore t p hp
    have change := ev.eff.payment_change U ev.input ev.state t
    have hafter : (act U ev.input ev.state ev.eff).2.db.payment.get t = some p := hp
    rw [hafter] at change
    generalize hrow : ev.state.db.payment.get t = r at change
    cases change with
    | keep => exact hbefore t p hrow
    | @insert row hby hid =>
      have hwrite := watch_run (fun c s => amount_call c s) hev hby row rfl
      rw [hid] at hwrite
      exact ⟨ev.head, Pool.head_mem (handler U) (code U) hev, hwrite⟩
    | @link q => exact hbefore t q hrow
    | @deepen q => exact hbefore t q hrow
    | @reply q => exact hbefore t q hrow

variable (U) in
/-- A run is accounted for if and only if at every step of it the original amounts credited to each user stay below
`2^63`, and no payment of some amount is taken from the user it is credited to. In every run the amount of a payment
is what was received. -/
theorem balances_run (wallet : W) (now : Time) (ms : Run) :
    (Accounted U (World.fresh wallet now) ms ↔ ∀ ev ∈ history U (World.fresh wallet now) ms,
      (∀ u ∈ (ev.after (handler U)).db.user.rows, (ev.after (handler U)).db.credited u.id < 2 ^ 63) ∧
        ¬ ev.eff.Uncredits ev.input ev.state.db) ∧
      ∀ p ∈ (after U (World.fresh wallet now) ms).state.db.payment.rows,
        ∃ h ∈ Pool.heads (after U (World.fresh wallet now) ms),
          Receives U (history U (World.fresh wallet now) ms) h p.slateId p.original ∨
            Finalizes U (history U (World.fresh wallet now) ms) h p.slateId := by
  constructor
  · refine forall_congr' fun ev => forall_congr' fun hev => and_congr reports_iff ?_
    exact ev.eff.credited_iff U ev.input ev.state
  · intro p hp
    exact amounts_run wallet now ms p.slateId p (Table.get_of_mem hp)

end

/-- A user is created, and a payment of `2^63` nanogrin comes in at her endpub. -/
def hugeRun : Run :=
  [.start (.createUser [109] (some "alice") none),
    .start (.receive (Sample.received "t" 9223372036854775808) none (Derive.endpubPubkeyHex Sample.upstream [109] "alice" 0)
      none .memo none)] ++ List.replicate 4 (.run 0 {}) ++ List.replicate 5 (.run 1 {})

/-- It is credited, and the listing does not report it. -/
theorem hugeRun_unaccounted : ¬ Accounted Sample.upstream Sample.world hugeRun := by
  intro h
  have hhuge : ∃ ev ∈ history Sample.upstream Sample.world hugeRun,
      ∃ u ∈ (ev.after (handler Sample.upstream)).db.user.rows,
        ¬ (ev.after (handler Sample.upstream)).db.credited u.id < 2 ^ 63 := by decide
  obtain ⟨ev, hev, u, hu, hover⟩ := hhuge
  exact hover (reports_iff.1 (h ev hev).1 u hu)

end GoblinPay
