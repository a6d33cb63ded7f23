import GoblinPay.Server.System

/-!
# Rules for the server's programs

The rules of `Meets` for the operations the server awaits, and for each helper program the
operations it is made of.
-/

namespace GoblinPay

open Async

section

variable {β : Type}

/-- A statement that fails changes nothing. -/
theorem Stmt.exec_error {q : Stmt β} {now : Time} {choice : Nat} {db : Db} {e : SqlxError}
    (h : (q.exec now choice db).1 = .error e) : (q.exec now choice db).2 = db := by
  cases q with
  | insertInvoice row =>
    simp only [Stmt.exec] at h ⊢
    split at h
    · rw [if_pos ‹_›]
    · rw [if_neg ‹_›]
      rcases hins : db.invoice.insert (row.toInvoice now) with _ | tab
      · rfl
      · simp [inserted, hins] at h
  | expectedAmount i => simp only [Stmt.exec] at h ⊢; split <;> rfl
  | selectAssignment u e => simp only [Stmt.exec] at h ⊢; split <;> rfl
  | sumAmount userId => rfl
  | enqueue url payload =>
    simp only [Stmt.exec] at h ⊢
    rcases hins : db.delivery.insert (payload.toDelivery url now) with _ | tab
    · rfl
    · simp [inserted, hins] at h
  | insertUser id rotate =>
    simp only [Stmt.exec] at h ⊢
    rcases hins : db.user.insert ⟨id, rotate, 0, now, now⟩ with _ | tab
    · rfl
    · simp [inserted, hins] at h
  | insertPayment row =>
    simp only [Stmt.exec] at h ⊢
    rcases hins : db.payment.insert (row.toPayment now) with _ | tab
    · rfl
    · simp [inserted, hins] at h
  | insertAssignment u epoch pk =>
    simp only [Stmt.exec] at h ⊢
    split at h
    · cases h
    · split at h
      · cases h
      · rw [if_neg ‹_›]
  | _ => cases h

/-- A call into the wallet, the node or a relay inside a function that returns its error. -/
theorem GpWallet.upstream_bind {α γ : Type} {e : Eff (Except String γ)} {wrap : String → WalletError}
    {f : γ → ExceptT WalletError Io α} : (GpWallet.upstream e wrap >>= f).run = .await e fun r => match r with
      | .ok a => (f a).run
      | .error m => .ret (.error (wrap m)) :=
  congrArg (Prog.await e) (funext fun r => by cases r <;> rfl)

variable {W : Type} {U : Upstream W}

/-- The world after the engine ran a statement. -/
def World.exec (w : World W) (q : Stmt β) (choice : Nat) : World W :=
  { w with db := (q.exec w.now choice w.db).2 }

/-- The statements that only read. -/
def Stmt.IsRead : Stmt β → Prop
  | .selectInvoice _ | .selectByToken _ | .selectBySlateId _ | .selectRecent _ | .dueGrin1Slates
  | .countEarlierGrin1 _ _ | .confirmations _ | .resolveDerived _ _ | .resolveMemo _ _ | .resolveAmount _ _ | .expectedAmount _
  | .selectAssignment _ _ | .selectUser _ | .selectUsers | .selectUsersByAge | .currentEndpub _ | .sumAmount _
  | .elapsedSince _ | .watchedPubkeys _ | .userForPubkey _ | .selectPending _ | .loadForWebhook _ | .selectUnreplied
  | .selectDerivedInvoices _ => True
  | _ => False

theorem World.exec_read {q : Stmt β} (h : q.IsRead) (w : World W) (choice : Nat) : w.exec q choice = w := by
  cases q with
  | expectedAmount i => simp only [World.exec, Stmt.exec]; split <;> rfl
  | selectAssignment u e => simp only [World.exec, Stmt.exec]; split <;> rfl
  | _ => first | rfl | exact h.elim

theorem payment_enqueue (s : World W) (url : String) (payload : WebhookPayload) (n : Nat) :
    (s.exec (.enqueue url payload) n).db.payment = s.db.payment := by
  simp only [World.exec, Stmt.exec, inserted]
  split <;> rfl

theorem get_markPaid (s : World W) (i t j : String) (n : Nat) : (s.exec (.markPaid i t) n).db.invoice.get j =
    (s.db.invoice.get j).map fun r => if r.id = i && r.status = .open then r.pay t s.now else r :=
  Sql.Table.get_update s.db.invoice _ (Invoice.pay t s.now) (fun _ => rfl) _

theorem get_markConfirmed {s : World W} {i : String} {n : Nat} (j : String) : (s.exec (.markConfirmed i) n).db.invoice.get j =
    (s.db.invoice.get j).map fun inv => if inv.id = i && inv.status = .paid then inv.confirm s.now else inv :=
  Sql.Table.get_update s.db.invoice (fun inv => inv.id = i && inv.status = .paid) (Invoice.confirm s.now) (fun _ => rfl) j

theorem get_updateDepth {s : World W} {t : String} {height : Option Int64} {c : Int64} {n : Nat} (t' : String) :
    (s.exec (.updateDepth height c t) n).db.payment.get t' =
      (s.db.payment.get t').map fun p => if p.slateId = t then p.atDepth height c s.now else p := by
  refine (Sql.Table.get_update s.db.payment (fun p => p.slateId = t) (Payment.atDepth height c s.now) (fun _ => rfl) t').trans ?_
  simp only [decide_eq_true_eq]

theorem act_sql_error {q : Stmt β} {x : Answer} {w : World W} {e : SqlxError}
    (h : (act U x w (.sql q)).1 = .error e) : (act U x w (.sql q)).2 = w := by
  rcases hf : x.fault with _ | m
  · simp only [act, hf] at h ⊢
    rw [Stmt.exec_error h]
  · simp [act, hf]

theorem act_sql_ok {q : Stmt β} {x : Answer} {w : World W} {b : β}
    (h : (act U x w (.sql q)).1 = .ok b) :
    x.fault = none ∧ (q.exec w.now x.choice w.db).1 = .ok b ∧ (act U x w (.sql q)).2 = w.exec q x.choice := by
  rcases hf : x.fault with _ | m
  · simp only [act, hf] at h ⊢
    exact ⟨trivial, h, rfl⟩
  · simp [act, hf] at h

end

section Rules

variable {W η Own α β : Type} {U : Upstream W} {D : Discipline (handler U) η Own} {h : η}
  {Q : α → Own → World W → Prop} {g : Own} {s : World W} {K : World W → Prop} {q : Stmt β}

/-- Leaving a program with knowledge `K`. -/
theorem Meets.leave {a : α} (hK : K s) (keep : ∀ s s', D.rely h g s s' → D.inv s' → K s → K s')
    (hQ : ∀ s, D.inv s → K s → Q a g s) : Meets D h Q (.ret a) g s :=
  fun s' hr hi => hQ s' hi (keep s s' hr hi hK)

/-- A statement whose answer, good or bad, the program looks at itself. -/
theorem Meets.sqlRun {f : Except SqlxError β → Io α} (hK : K s)
    (keep : ∀ s s', D.rely h g s s' → D.inv s' → K s → K s')
    (hb : ∀ s, D.inv s → K s → D.before h g (.sql q) s)
    (hok : ∀ x s b, D.inv s → K s → D.allowed h (.sql q) x s → (q.exec s.now x.choice s.db).1 = .ok b →
      Meets D h Q (f (.ok b)) (D.gain g (.sql q) (.ok b)) (s.exec q x.choice))
    (herror : ∀ s e, D.inv s → K s → Meets D h Q (f (.error e)) (D.gain g (.sql q) (.error e)) s) :
    Meets D h Q ((sql q).run >>= f) g s := by
  refine Meets.step (k := f) hK keep hb fun x s hi hK hx => ?_
  rcases hr : (act U x s (.sql q)).1 with e | b
  · have hs := act_sql_error hr
    simp only [handler, hr, hs]
    exact herror s e hi hK
  · obtain ⟨hf, hq, hs⟩ := act_sql_ok hr
    simp only [handler, hr, hs]
    exact hok x s b hi hK hx hq

/-- Where no statement is answered by a fault, a statement answers what the engine computes. -/
theorem Meets.sqlSure {f : Except SqlxError β → Io α} (sure : ∀ x s, D.allowed h (.sql q) x s → x.fault = none) (hK : K s)
    (keep : ∀ s s', D.rely h g s s' → D.inv s' → K s → K s')
    (hb : ∀ s, D.inv s → K s → D.before h g (.sql q) s)
    (hok : ∀ (x : Answer) s, D.inv s → K s → D.allowed h (.sql q) x s → Meets D h Q (f (q.exec s.now x.choice s.db).1)
      (D.gain g (.sql q) (q.exec s.now x.choice s.db).1) (s.exec q x.choice)) :
    Meets D h Q ((sql q).run >>= f) g s := by
  refine Meets.step (k := f) hK keep hb fun x s hi hK hx => ?_
  simp only [handler, act, sure x s hx]
  exact hok x s hi hK hx

/-- A statement inside a function that returns its error. -/
theorem Meets.sqlThen {Q : Except SqlxError α → Own → World W → Prop} {f : β → ExceptT SqlxError Io α}
    (hK : K s) (keep : ∀ s s', D.rely h g s s' → D.inv s' → K s → K s')
    (hb : ∀ s, D.inv s → K s → D.before h g (.sql q) s)
    (hok : ∀ x s b, D.inv s → K s → D.allowed h (.sql q) x s → (q.exec s.now x.choice s.db).1 = .ok b →
      Meets D h Q (f b).run (D.gain g (.sql q) (.ok b)) (s.exec q x.choice))
    (herror : ∀ s e, D.inv s → K s →
      Meets D h Q (.ret (.error e)) (D.gain g (.sql q) (.error e)) s) :
    Meets D h Q (sql q >>= f).run g s :=
  Meets.sqlRun (f := ExceptT.bindCont f) hK keep hb hok herror

end Rules

end GoblinPay
