import GoblinPay.Sample

/-!
# The status of a payment

`received`, then `replied`, then `confirmed`. The poll and the reply leg write the column without looking at
it. The poll writes the highest value; `mark_replied` does not, and it goes back where the poll came first.
-/

namespace GoblinPay

open Async Sql

/-- How far a payment has come. -/
def PaymentStatus.rank : PaymentStatus → Nat
  | .received => 0
  | .replied => 1
  | .confirmed => 2

theorem PaymentStatus.rank_le (s : PaymentStatus) : s.rank ≤ 2 := by
  cases s <;> decide

theorem PaymentStatus.rank_le_replied {s : PaymentStatus} (h : s ≠ .confirmed) : s.rank ≤ 1 := by
  cases s with
  | received | replied => decide
  | confirmed => exact absurd rfl h

section

variable {W : Type}

variable (U : Upstream W) in
/-- Between any two states of the run, the status of a payment that stayed recorded does not go back. -/
def StatusForward (w : World W) (ms : Run) : Prop :=
  ∀ m₁ m₂ m₃ t p p', ms = m₁ ++ m₂ ++ m₃ → (after U w m₁).state.db.payment.get t = some p →
    (∀ ev ∈ Pool.trace (handler U) (code U) (after U w m₁) m₂, (ev.after (handler U)).db.payment.get t ≠ none) →
    (after U w (m₁ ++ m₂)).state.db.payment.get t = some p' → p.status.rank ≤ p'.status.rank

variable {U : Upstream W} {t : String} {s : World W} {β : Type} {e : Eff β} {x : Answer}

theorem get_markReplied {p : Payment} (hwrite : e.write = some (.reply t)) (hx : x.fault = none)
    (hp : s.db.payment.get t = some p) : (act U x s e).2.db.payment.get t = some p.reply := by
  cases e with
  | sql q =>
    cases q with
    | markReplied u =>
      cases hwrite
      simp only [act, hx, Stmt.exec]
      refine (Table.get_update s.db.payment (fun r => r.slateId = t) Payment.reply (fun _ => rfl) t).trans ?_
      rw [hp, Option.map_some, if_pos (decide_eq_true (Table.key_of_get hp))]
    | _ => cases hwrite
  | _ => cases hwrite

/-- The operation does not take a confirmed payment back. -/
def KeepsConfirmed (ev : Happening W) : Prop :=
  ∀ t p, ev.eff.write = some (.reply t) → ev.input.fault = none → ev.state.db.payment.get t = some p → p.status ≠ .confirmed

/-- What one operation leaves of how far a payment has come. -/
theorem KeepsConfirmed.forward {ev : Happening W} (h : KeepsConfirmed ev) {n : Nat}
    (hbefore : ∃ p, ev.state.db.payment.get t = some p ∧ n ≤ p.status.rank)
    (recorded : (ev.after (handler U)).db.payment.get t ≠ none) :
    ∃ p, (ev.after (handler U)).db.payment.get t = some p ∧ n ≤ p.status.rank := by
  obtain ⟨p, hp, hrank⟩ := hbefore
  rcases hf : ev.input.fault with _ | m
  swap
  · have same : (ev.after (handler U)).db = ev.state.db := ev.eff.db_of_fault U ev.input ev.state hf
    rw [same]
    exact ⟨p, hp, hrank⟩
  have change := ev.eff.payment_change U ev.input ev.state t
  rw [hp] at change
  generalize hafter : (ev.after (handler U)).db.payment.get t = after at *
  have hafter : (act U ev.input ev.state ev.eff).2.db.payment.get t = after := hafter
  rw [hafter] at change
  cases change with
  | keep => exact ⟨p, rfl, hrank⟩
  | link => exact ⟨_, rfl, hrank⟩
  | delete => exact absurd rfl recorded
  | deepen => exact ⟨_, rfl, hrank.trans p.status.rank_le⟩
  | reply by_ => exact ⟨_, rfl, hrank.trans (PaymentStatus.rank_le_replied (h t p by_ hf hp))⟩

/-- In a run, the status only moves forward if and only if no reply is marked on a confirmed payment. -/
theorem statusForward_iff (U : Upstream W) (w : World W) (ms : Run) :
    StatusForward U w ms ↔ ∀ ev ∈ history U w ms, KeepsConfirmed ev := by
  constructor
  · intro forward ev hev t p hwrite hf hp hconfirmed
    obtain ⟨m₁, i, y, m₃, rfl, he, hstate, hnext⟩ := Pool.mem_trace (handler U) (code U) hev
    have replied : (ev.after (handler U)).db.payment.get t = some p.reply := get_markReplied hwrite hf hp
    have hafter : (after U w (m₁ ++ [.run i y])).state = ev.after (handler U) := by
      rw [after, Pool.run_append]
      exact hnext
    have back := forward m₁ [.run i y] m₃ t p p.reply (by simp) (by rw [after, ← hstate]; exact hp) ?_ (by rw [hafter]; exact replied)
    · rw [hconfirmed] at back
      have : ¬ (2 : Nat) ≤ 1 := by decide
      exact this back
    · intro ev' hev'
      obtain rfl : ev' = ev := by simpa [Pool.trace, after, he] using hev'
      rw [replied]
      exact Option.some_ne_none _
  · intro keeps m₁ m₂ m₃ t p p' hms hp recorded hp'
    have invariant : ∃ q, (after U w (m₁ ++ m₂)).state.db.payment.get t = some q ∧ p.status.rank ≤ q.status.rank := by
      rw [after, Pool.run_append]
      refine Pool.inv_run (handler U) (code U) (P := after U w m₁)
        (I := fun s => ∃ q, s.db.payment.get t = some q ∧ p.status.rank ≤ q.status.rank) ⟨p, hp, le_refl _⟩ ?_
      intro ev hev hbefore
      refine KeepsConfirmed.forward (keeps ev ?_) hbefore (recorded ev hev)
      rw [hms, history, Pool.trace_append, Pool.trace_append]
      exact List.mem_append_left _ (List.mem_append_right _ hev)
    obtain ⟨q, hq, hrank⟩ := invariant
    rw [hp'] at hq
    cases hq
    exact hrank

end

/-! ## Two runs -/

/-- A payment whose reply has not left, found at boot. -/
def unrepliedWorld : World Sample.Wallet :=
  { Sample.world with
    db := { Db.empty with
      payment := ⟨[(Record.paymentRow (Sample.received "t" 100) (some "payer") "m").toPayment 15], by decide⟩ } }

/-- The reconcile at boot sends the reply, and then marks it; the poll finds the kernel at depth 1, before
or after the mark. -/
def bootRun (pollFirst : Bool) : Run :=
  let poll : Run := [.run 1 {}, .run 1 { tip := 5 }, .run 1 { kernelHeight := some 5 }, .run 1 {}]
  [.start (.boot Sample.config [109]), .start (.confirmPoll ⟨10, none⟩ 1)] ++ List.replicate 6 (.run 0 {}) ++
    if pollFirst then poll ++ [.run 0 {}] else [.run 0 {}] ++ poll

/-- Where the write marks a reply, no payment is confirmed. -/
def Write.repliesEarly (db : Db) : Write → Bool
  | .reply _ => db.payment.rows.all fun p => p.status ≠ .confirmed
  | _ => true

theorem bootRun_forward : StatusForward Sample.upstream unrepliedWorld (bootRun false) ∧
    ∃ p, (after Sample.upstream unrepliedWorld (bootRun false)).state.db.payment.get "t" = some p ∧ p.status = .confirmed := by
  have fresh : ∀ ev ∈ history Sample.upstream unrepliedWorld (bootRun false), ev.eff.write.all (Write.repliesEarly ev.state.db) = true := by
    decide
  refine ⟨(statusForward_iff _ _ _).2 fun ev hev t p hwrite _ hp => ?_, by decide⟩
  have here := fresh ev hev
  rw [hwrite] at here
  simpa using List.all_eq_true.1 here p (Table.mem_of_get hp)

/-- The poll confirms the payment while the reply is on its way, and the mark takes it back. -/
theorem bootRun_back : ¬ StatusForward Sample.upstream unrepliedWorld (bootRun true) := by
  intro forward
  have confirmed : ∃ p, (after Sample.upstream unrepliedWorld ((bootRun true).take 12)).state.db.payment.get "t" = some p ∧
      p.status = .confirmed := by decide
  have replied : ∃ p, (after Sample.upstream unrepliedWorld ((bootRun true).take 12 ++ [.run 0 {}])).state.db.payment.get "t" = some p ∧
      p.status = .replied := by decide
  have recorded : ∀ ev ∈ Pool.trace (handler Sample.upstream) (code Sample.upstream)
      (after Sample.upstream unrepliedWorld ((bootRun true).take 12)) [.run 0 {}],
      ((ev.after (handler Sample.upstream)).db.payment.get "t").isSome = true := by decide
  obtain ⟨p, hp, hconfirmed⟩ := confirmed
  obtain ⟨p', hp', hreplied⟩ := replied
  have back := forward ((bootRun true).take 12) [.run 0 {}] [] "t" p p' rfl hp
    (fun ev hev => Option.isSome_iff_ne_none.1 (recorded ev hev)) hp'
  rw [hconfirmed, hreplied] at back
  have : ¬ (2 : Nat) ≤ 1 := by decide
  exact this back

end GoblinPay
