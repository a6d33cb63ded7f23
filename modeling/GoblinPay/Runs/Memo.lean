import GoblinPay.Nostr.Note
import GoblinPay.Runs.Resolve
import GoblinPay.Sample

/-!
# References in the subject of a payment

A memo invoice stores its order reference as the store sent it. The payer's copy travels in the subject tag
and is sanitized on the way in, so the two agree on the references that `sanitize_note` leaves alone.
-/

namespace GoblinPay

open Async Sql Text

variable {W : Type}

theorem exec_resolveMemo {U : Upstream W} {w : World W} {default : MatchMode} {note : String} {x : Answer} (hx : x.fault = none) :
    ((Matching.resolveMemo default (some note)).run.exec (handler U) [x] w).1 =
      .ret (.ok ((Db.oldest (w.db.memoCandidates default note) x.choice).map Invoice.id)) := by
  change Prog.ret (act U x w (.sql (.resolveMemo default note))).1 = _
  simp only [act, hx]
  rfl

/-- The memo of a payment whose subject is the reference of an open memo invoice, the only one with it,
resolves to that invoice if and only if the reference is tidy. -/
theorem resolvesMemo_iff (U : Upstream W) (w : World W) (default : MatchMode) (inv : Invoice) (ref : String)
    (tags : List (List String)) (x : Answer) (stored : w.db.invoice.get inv.id = some inv) (isOpen : inv.status = .open)
    (byMemo : inv.effectiveMode default = .memo) (hasRef : inv.orderRef = some ref)
    (only : ∀ other ∈ w.db.invoice.rows, other.status = .open → other.effectiveMode default = .memo →
      other.orderRef = some ref → other.id = inv.id)
    (subject : Protocol.tagValue "subject" tags = some ref) (answered : x.fault = none) :
    ((Matching.resolveMemo default (Protocol.extractSubject tags)).run.exec (handler U) [x] w).1 = .ret (.ok (some inv.id)) ↔
      Tidy ref := by
  have memo : Protocol.extractSubject tags = Protocol.sanitizeNote ref := by
    rw [Protocol.extractSubject, subject, Option.bind_some]
  rw [memo, ← Protocol.sanitizeNote_eq_self]
  constructor
  · intro found
    cases hnote : Protocol.sanitizeNote ref with
    | none =>
      rw [hnote] at found
      cases found
    | some note =>
      rw [hnote, exec_resolveMemo answered] at found
      have found : (Db.oldest (w.db.memoCandidates default note) x.choice).map Invoice.id = some inv.id := by
        simpa using found
      obtain ⟨other, hother, hid⟩ := Option.map_eq_some_iff.1 found
      obtain ⟨hget, hcand⟩ := Db.get_of_oldest hother
      rw [hid, stored] at hget
      obtain rfl := Option.some.inj hget
      have hnote : inv.orderRef = some note := by
        simp only [Bool.and_eq_true, decide_eq_true_eq] at hcand
        exact hcand.1
      exact congrArg some (Option.some.inj (hnote.symm.trans hasRef))
  · intro hnote
    rw [hnote, exec_resolveMemo answered]
    have candidate : inv ∈ w.db.memoCandidates default ref :=
      Table.mem_select.2 ⟨stored, by simp [Invoice.openIn, isOpen, byMemo, hasRef]⟩
    cases hfound : Db.oldest (w.db.memoCandidates default ref) x.choice with
    | none =>
      rw [Db.oldest_eq_none.1 hfound] at candidate
      cases candidate
    | some other =>
      obtain ⟨hget, hcand⟩ := Db.get_of_oldest hfound
      simp only [Invoice.openIn, Bool.and_eq_true, decide_eq_true_eq] at hcand
      have same := only other (Table.mem_of_get hget) hcand.2.1 hcand.2.2 hcand.1
      rw [Option.map_some, same]

/-! ## Two references -/

/-- An open memo invoice with the reference `ref`, as `create` stores it. -/
def notedInvoice (ref : String) : Invoice :=
  (Invoice.row Sample.upstream ⟨some ref, .grin 100, none, some .memo, none⟩ [109] "m" .memo "i" "tok").toInvoice 10

def noted (ref : String) : World Sample.Wallet :=
  { Sample.world with db := { Db.empty with invoice := ⟨[notedInvoice ref], List.nodup_singleton _⟩ } }

/-- What the memo of a payment with the subject `ref` resolves to. -/
def resolvedMemo (ref : String) : Prog Eff (Except SqlxError (Option String)) :=
  ((Matching.resolveMemo .memo (Protocol.extractSubject [["goblin", "1"], ["subject", ref]])).run.exec
    (handler Sample.upstream) [{}] (noted ref)).1

theorem tidy_resolved : resolvedMemo "order 7" = .ret (.ok (some "i")) := by
  have tidy : Tidy "order 7" := Protocol.sanitizeNote_eq_self.1 (by decide)
  refine (resolvesMemo_iff Sample.upstream (noted "order 7") .memo (notedInvoice "order 7") "order 7"
    [["goblin", "1"], ["subject", "order 7"]] {} rfl rfl rfl rfl (fun other h _ _ _ => ?_) rfl rfl).2 tidy
  obtain rfl := List.mem_singleton.1 h
  rfl

/-- The spaces collapse on the way, and the reference is not found. -/
theorem spaced_unresolved : resolvedMemo "order  7" ≠ .ret (.ok (some "i")) := by
  have unresolved : resolvedMemo "order  7" = .ret (.ok none) := by rfl
  rw [unresolved]
  exact nofun

end GoblinPay
