import GoblinPay.Async.Serial
import GoblinPay.Machine
import GoblinPay.Server.Webhookd

/-!
# The delivery queue

One worker passes over the queue and records what became of its posts, while events are enqueued and responses come
in; every operation has its own reading of the clock. The log keeps what was enqueued, listed, posted and recorded.
`QueueKept` relates each row and each post to the log before it, and `deliveries_run` reads off what becomes of a
delivery: its terms stay, its attempts are few and spaced, and none follows a success.
-/

namespace GoblinPay

open Async Webhookd

/-! ## The backoff -/

/-- `min(30 * 2^(k-1), 3600)` seconds. -/
def delay (k : Nat) : Int := min (30 * 2 ^ (k - 1)) 3600

theorem delay_mono {k l : Nat} (h : k ≤ l) : delay k ≤ delay l := by
  have hpow : (2 : Int) ^ (k - 1) ≤ 2 ^ (l - 1) := by
    exact_mod_cast Nat.pow_le_pow_right (by decide) (by omega)
  unfold delay
  omega

/-- An `i64` that an operation yields, if it does not overflow. -/
def checked (n : Int) : Option Int64 := if -2 ^ 63 ≤ n ∧ n < 2 ^ 63 then some (Int64.ofInt n) else none

/-- `backoff_secs` with every operation checked: the difference, the shift by less than 64 bits, and the product. -/
def backoffChecked (attempts : Int64) : Option Int64 :=
  if attempts ≤ 0 then some 0
  else do
    let less ← checked (attempts.toInt - 1)
    let shift := (min less 20).toInt
    let power ← if 0 ≤ shift ∧ shift < 64 then checked (2 ^ shift.toNat) else none
    let product ← checked (30 * power.toInt)
    some (min product 3600)

section

variable {attempts : Int64}

/-- The shift stays below 21, and the product below the cap of an `i64`. -/
theorem shift_eq (h : 0 < attempts) : (min (attempts - 1) 20).toInt = min (attempts.toInt - 1) 20 := by
  rw [toInt_min, toInt_less h]
  rfl

theorem pow_shift (n : Nat) : (1 : Int) ≤ 2 ^ (min n 20) ∧ (2 : Int) ^ (min n 20) ≤ 2 ^ 20 := by
  constructor
  · exact_mod_cast Nat.one_le_two_pow
  · exact_mod_cast Nat.pow_le_pow_right (by decide) (Nat.min_le_right n 20)

/-- Past the twentieth doubling the cap decides. -/
theorem min_pow_shift (n : Nat) : min (30 * (2 : Int) ^ (min n 20)) 3600 = min (30 * 2 ^ n) 3600 := by
  rcases Nat.le_total n 20 with hle | hge
  · rw [Nat.min_eq_left hle]
  · have hlarge : (2 : Int) ^ 20 ≤ 2 ^ n := by
      exact_mod_cast Nat.pow_le_pow_right (by decide) hge
    rw [Nat.min_eq_right hge]
    omega

/-- `backoff_secs` is the delay, for every count that occurs. -/
theorem backoffSecs_toInt (h : 0 < attempts) : (backoffSecs attempts).toInt = delay attempts.toInt.toNat := by
  have hpos : 0 < attempts.toInt := Int64.lt_iff_toInt_lt.1 h
  have hnot : ¬ attempts ≤ 0 := by
    rw [Int64.le_iff_toInt_le]
    have hzero : (0 : Int64).toInt = 0 := rfl
    omega
  have hshift : (min (attempts - 1) 20).toInt.toNat = min (attempts.toInt.toNat - 1) 20 := by
    rw [shift_eq h]
    omega
  obtain ⟨hlow, hhigh⟩ := pow_shift (attempts.toInt.toNat - 1)
  have hcap := min_pow_shift (attempts.toInt.toNat - 1)
  rw [backoffSecs, if_neg hnot]
  dsimp only [backoffBase, backoffCap]
  rw [hshift, Int64.toInt_ofInt_of_le (by omega) (by omega), delay, ← hcap]
  omega

/-- None of its operations overflows. -/
theorem backoffChecked_eq (attempts : Int64) : backoffChecked attempts = some (backoffSecs attempts) := by
  unfold backoffChecked backoffSecs
  split
  · rfl
  rename_i hnot
  have hpos : 0 < attempts.toInt := by
    rw [Int64.le_iff_toInt_le] at hnot
    have hzero : (0 : Int64).toInt = 0 := rfl
    omega
  have h : 0 < attempts := Int64.lt_iff_toInt_lt.2 hpos
  have hlt := attempts.toInt_lt
  have hless : checked (attempts.toInt - 1) = some (attempts - 1) := by
    rw [checked, if_pos (by omega)]
    exact congrArg some (Int64.toInt_inj.1 (by rw [Int64.toInt_ofInt_of_le (by omega) (by omega), toInt_less h]))
  have hshift := shift_eq h
  have hnat : (min (attempts - 1) 20).toInt.toNat = min (attempts.toInt.toNat - 1) 20 := by
    rw [hshift]
    omega
  obtain ⟨hlow, hhigh⟩ := pow_shift (attempts.toInt.toNat - 1)
  have hcap := min_pow_shift (attempts.toInt.toNat - 1)
  have hpower : checked (2 ^ (min (attempts - 1) 20).toInt.toNat) = some (Int64.ofInt (2 ^ (min (attempts.toInt.toNat - 1) 20))) := by
    rw [hnat, checked, if_pos (by omega)]
  have hproduct : checked (30 * (Int64.ofInt (2 ^ (min (attempts.toInt.toNat - 1) 20))).toInt) =
      some (Int64.ofInt (30 * 2 ^ (min (attempts.toInt.toNat - 1) 20))) := by
    rw [Int64.toInt_ofInt_of_le (by omega) (by omega), checked, if_pos (by omega)]
  have hrange : 0 ≤ (min (attempts - 1) 20).toInt ∧ (min (attempts - 1) 20).toInt < 64 := by
    rw [hshift]
    omega
  simp only [hless, Option.bind_eq_bind, Option.bind_some, if_pos hrange, hpower, hproduct, Option.some.injEq]
  rw [← Int64.toInt_inj, toInt_min, Int64.toInt_ofInt_of_le (by omega) (by omega)]
  dsimp only [backoffBase, backoffCap]
  rw [hnat, Int64.toInt_ofInt_of_le (by omega) (by omega)]
  have hcap' : (3600 : Int64).toInt = 3600 := rfl
  omega

end

/-! ## The runs -/

inductive QueueCall
  | drain
  | markDelivered (id : String)
  | markFailed (id : String)

/-- A tick of the worker, or one of its marks alone. -/
def queueCode : QueueCall → HookIo Unit
  | .drain => do discard drain.run
  | .markDelivered id => do discard (markDelivered id).run
  | .markFailed id => do discard (markFailed id).run

/-- What goes on while the worker waits. -/
inductive Elsewhere
  | enqueue (url : String) (payload : WebhookPayload)
  | respond (n status : Nat)

def elsewhere : Elsewhere → Op HookEff
  | .enqueue url payload => ⟨_, .queue (.enqueue url payload)⟩
  | .respond n status => ⟨_, .respond n status⟩

inductive QueueEntry
  | enqueued (url : String) (payload : WebhookPayload)
  /-- the due deliveries were read -/
  | listed
  | sent (d : Delivery)
  | delivered (id : String)
  | failed (id : String)
  deriving DecidableEq

/-- Each entry with the reading of the clock. -/
abbrev QueueLog := List (QueueEntry × Time)

/-- What a statement enters if it succeeds: a mark, where there is a row to record it in. -/
def QueueStmt.entry {β : Type} (s : Shop) : QueueStmt β → Option QueueEntry
  | .enqueue url payload => some (.enqueued url payload)
  | .due _ _ => some .listed
  | .markDelivered id => if (s.deliveries.get id).isSome then some (.delivered id) else none
  | .nextAttempts _ => none
  | .reschedule id _ _ => if (s.deliveries.get id).isSome then some (.failed id) else none

/-- What is noted of an operation. -/
def HookEff.entry {β : Type} (e : HookEff β) (answer : β) (s : Shop) : Option (QueueEntry × Time) :=
  match e with
  | .queue q =>
    match answer with
    | .ok _ => (q.entry s).map fun r => (r, s.now)
    | .error _ => none
  | .send d => some (.sent d, s.now)
  | _ => none

/-- The clock may read anything when an operation is performed. -/
def queueHandler : Handler HookEff (HookAnswer × Time) (Shop × QueueLog) :=
  (hookHandler.noting HookEff.entry).among fun t s => ({ s.1 with now := t }, s.2)

abbrev QueueRun := List (Turn QueueCall (HookAnswer × Time) Elsewhere)

/-- The shop and the log after a run from an empty queue. -/
def queueAfter (s : Shop) (ts : QueueRun) : Shop × QueueLog :=
  (Serial.run queueHandler queueCode elsewhere (Serial.start ({ s with deliveries := .empty }, [])) ts).state

/-! ## The log -/

namespace QueueEntry

def fails (id : String) : QueueEntry → Bool
  | .failed i => i = id
  | _ => false

/-- A success or a failure was recorded. -/
def marks (id : String) : QueueEntry → Bool
  | .failed i => i = id
  | .delivered i => i = id
  | _ => false

def sends (id : String) : QueueEntry → Bool
  | .sent d => d.id = id
  | _ => false

/-- The delivery whose row an entry made or changed. -/
def about : QueueEntry → Option String
  | .enqueued _ payload => some payload.eventId
  | .delivered id => some id
  | .failed id => some id
  | .listed => none
  | .sent _ => none

end QueueEntry

/-- How many entries of the log satisfy `p`. -/
def tally (p : QueueEntry → Bool) (h : QueueLog) : Nat := h.countP fun r => p r.1

abbrev failuresOf (id : String) : QueueLog → Nat := tally (QueueEntry.fails id)
abbrev marksOf (id : String) : QueueLog → Nat := tally (QueueEntry.marks id)
abbrev sendsOf (id : String) : QueueLog → Nat := tally (QueueEntry.sends id)

section

variable {p : QueueEntry → Bool} {h h' h₁ h₂ : QueueLog} {r x : QueueEntry × Time}

theorem tally_append : tally p (h ++ h') = tally p h + tally p h' := List.countP_append

theorem tally_cons : tally p (r :: h) = tally p h + if p r.1 then 1 else 0 := List.countP_cons

theorem tally_snoc : tally p (h ++ [r]) = tally p h + if p r.1 then 1 else 0 := by
  rw [tally_append, tally_cons]
  have hnil : tally p [] = 0 := rfl
  omega

theorem tally_eq_zero : tally p h = 0 ↔ ∀ r ∈ h, p r.1 = false := by
  simp [tally, List.countP_eq_zero]

/-- An entry of a log that has grown by one is the new one, or stands where it stood. -/
theorem split_snoc (he : h ++ [r] = h₁ ++ x :: h₂) :
    (h₁ = h ∧ x = r ∧ h₂ = []) ∨ ∃ h₃, h₂ = h₃ ++ [r] ∧ h = h₁ ++ x :: h₃ := by
  rcases List.eq_nil_or_concat h₂ with rfl | ⟨h₃, y, rfl⟩
  · left
    obtain ⟨rfl, hx⟩ := List.append_inj' he rfl
    cases hx
    exact ⟨rfl, rfl, rfl⟩
  · right
    rw [List.concat_eq_append, ← List.cons_append, ← List.append_assoc] at he
    obtain ⟨hh, hr⟩ := List.append_inj' he rfl
    cases hr
    exact ⟨h₃, by rw [List.concat_eq_append], hh⟩

/-- The last entry that satisfies `p`. -/
theorem exists_last (ht : tally p h ≠ 0) : ∃ h₁ r h₂, h = h₁ ++ r :: h₂ ∧ p r.1 = true ∧ tally p h₂ = 0 := by
  induction h with
  | nil => exact absurd rfl ht
  | cons r h ih =>
    by_cases hz : tally p h = 0
    · refine ⟨[], r, h, rfl, ?_, hz⟩
      rw [tally_cons, hz] at ht
      simpa using ht
    · obtain ⟨h₁, x, h₂, he, hx, hz⟩ := ih hz
      exact ⟨r :: h₁, x, h₂, by rw [he, List.cons_append], hx, hz⟩

end

/-! ## The contract -/

/-- What the log says of a row. -/
structure RowKept (h : QueueLog) (d : Delivery) : Prop where
  enqueued : ∃ t, (.enqueued d.url d.body, t) ∈ h ∧ d.body.eventId = d.id
  delivered : d.delivered = true ↔ ∃ t, (.delivered d.id, t) ∈ h
  attempts : d.attempts.toInt = min (marksOf d.id h) (2 ^ 63 - 1)
  next : ∀ h₁ t h₂, h = h₁ ++ (.failed d.id, t) :: h₂ → failuresOf d.id h₂ = 0 →
    d.nextAttemptAt = t + delay (marksOf d.id h₁ + 1)

/-- The delivery was listed at a reading past its next attempt, and no failure was recorded since. -/
def ListedDue (h : QueueLog) (d : Delivery) : Prop :=
  ∃ h₁ t h₂, h = h₁ ++ (.listed, t) :: h₂ ∧ failuresOf d.id h₂ = 0 ∧ d.nextAttemptAt ≤ t

structure Posted (h : QueueLog) (d : Delivery) : Prop where
  row : RowKept h d
  pending : d.delivered = false
  below : d.attempts < maxAttempts
  listed : ListedDue h d

/-- The queue and its log. -/
structure QueueKept (s : Shop × QueueLog) : Prop where
  rows : ∀ id d, s.1.deliveries.get id = some d → RowKept s.2 d
  fresh : ∀ id, s.1.deliveries.get id = none → ∀ r ∈ s.2, r.1.about ≠ some id
  terms : ∀ url payload t, (.enqueued url payload, t) ∈ s.2 →
    ∃ d, s.1.deliveries.get payload.eventId = some d ∧ d.url = url ∧ d.body = payload
  posts : ∀ h₁ d t h₂, s.2 = h₁ ++ (.sent d, t) :: h₂ → Posted h₁ d

/-! ## One operation -/

section

variable {s : Shop} {h : QueueLog} {d : Delivery} {r : QueueEntry × Time}

theorem RowKept.next_snoc (hd : RowKept h d) (hr : r.1 ≠ .failed d.id) :
    ∀ h₁ t h₂, h ++ [r] = h₁ ++ (.failed d.id, t) :: h₂ → failuresOf d.id h₂ = 0 →
      d.nextAttemptAt = t + delay (marksOf d.id h₁ + 1) := by
  intro h₁ t h₂ he hz
  rcases split_snoc he with ⟨-, hx, -⟩ | ⟨h₃, rfl, hh⟩
  · rw [← hx] at hr
    exact absurd rfl hr
  · rw [failuresOf, tally_snoc] at hz
    exact hd.next h₁ t h₃ hh (Nat.add_eq_zero_iff.1 hz).1

theorem RowKept.enqueued_snoc (hd : RowKept h d) : ∃ t, (.enqueued d.url d.body, t) ∈ h ++ [r] ∧ d.body.eventId = d.id := by
  obtain ⟨t, ht, hid⟩ := hd.enqueued
  exact ⟨t, List.mem_append_left _ ht, hid⟩

/-- An entry that marks no delivery says nothing more of its row. -/
theorem RowKept.snoc (hd : RowKept h d) (hr : QueueEntry.marks d.id r.1 = false) : RowKept (h ++ [r]) d := by
  have hdelivered : r.1 ≠ .delivered d.id := by
    intro he
    simp [he, QueueEntry.marks] at hr
  have hfailed : r.1 ≠ .failed d.id := by
    intro he
    simp [he, QueueEntry.marks] at hr
  constructor
  · exact hd.enqueued_snoc
  · rw [hd.delivered]
    constructor
    · rintro ⟨t, ht⟩
      exact ⟨t, List.mem_append_left _ ht⟩
    · rintro ⟨t, ht⟩
      rcases List.mem_append.1 ht with ht | ht
      · exact ⟨t, ht⟩
      · cases List.mem_singleton.1 ht
        exact absurd rfl hdelivered
  · rw [marksOf, tally_snoc, hr]
    exact hd.attempts
  · exact hd.next_snoc hfailed

/-- The posts recorded before an entry are those recorded after it, unless it is a post. -/
theorem QueueKept.posts_snoc (hk : QueueKept (s, h)) (hr : ∀ d, r.1 = .sent d → Posted h d) :
    ∀ h₁ d t h₂, h ++ [r] = h₁ ++ (.sent d, t) :: h₂ → Posted h₁ d := by
  intro h₁ d t h₂ he
  rcases split_snoc he with ⟨rfl, hx, -⟩ | ⟨h₃, -, hh⟩
  · exact hr d (congrArg Prod.fst hx.symm)
  · exact hk.posts h₁ d t h₃ hh

theorem QueueKept.of_deliveries {s' : Shop} (hk : QueueKept (s, h)) (hs : s'.deliveries = s.deliveries) :
    QueueKept (s', h) := by
  constructor
  · intro id d hd
    exact hk.rows id d (by rw [← hs]; exact hd)
  · intro id hd
    exact hk.fresh id (by rw [← hs]; exact hd)
  · intro url payload t ht
    rw [hs]
    exact hk.terms url payload t ht
  · exact hk.posts

/-- A listing or a post. -/
theorem QueueKept.quiet (hk : QueueKept (s, h)) (ha : r.1.about = none)
    (hm : ∀ id, QueueEntry.marks id r.1 = false) (hr : ∀ d, r.1 = .sent d → Posted h d) : QueueKept (s, h ++ [r]) := by
  constructor
  · intro id d hd
    exact (hk.rows id d hd).snoc (hm d.id)
  · intro id hd x hx
    rcases List.mem_append.1 hx with hx | hx
    · exact hk.fresh id hd x hx
    · rw [List.mem_singleton.1 hx, ha]
      exact nofun
  · intro url payload t ht
    rcases List.mem_append.1 ht with ht | ht
    · exact hk.terms url payload t ht
    · rw [← List.mem_singleton.1 ht] at ha
      cases ha
  · exact hk.posts_snoc hr

/-- A row nobody has heard of before. -/
theorem RowKept.fresh {url : String} {payload : WebhookPayload} {now t : Time}
    (hnone : ∀ r ∈ h, r.1.about ≠ some payload.eventId) :
    RowKept (h ++ [(.enqueued url payload, t)]) (payload.toDelivery url now) := by
  have hmarks : marksOf payload.eventId h = 0 := by
    refine tally_eq_zero.2 ?_
    intro r hr
    have habout := hnone r hr
    cases hr1 : r.1 with
    | failed i | delivered i =>
      rw [hr1] at habout
      simpa [QueueEntry.marks, QueueEntry.about] using habout
    | enqueued url payload | listed | sent d => rfl
  constructor
  · exact ⟨t, List.mem_append_right _ List.mem_cons_self, rfl⟩
  · constructor
    · exact nofun
    · rintro ⟨t', ht'⟩
      rcases List.mem_append.1 ht' with ht' | ht'
      · exact absurd rfl (hnone _ ht')
      · cases List.mem_singleton.1 ht'
  · show (0 : Int) = min (marksOf payload.eventId (h ++ [(.enqueued url payload, t)])) (2 ^ 63 - 1)
    have hentry : QueueEntry.marks payload.eventId (.enqueued url payload) = false := rfl
    rw [marksOf, tally_snoc, ← marksOf, hmarks, hentry]
    decide
  · intro h₁ t' h₂ he _
    rcases split_snoc he with ⟨-, hx, -⟩ | ⟨h₃, -, hh⟩
    · cases hx
    · have hmem : (QueueEntry.failed payload.eventId, t') ∈ h := by
        rw [hh]
        exact List.mem_append_right _ List.mem_cons_self
      exact absurd rfl (hnone _ hmem)

theorem QueueKept.enqueue (hk : QueueKept (s, h)) {url : String} {payload : WebhookPayload} {now t : Time}
    {queue : Sql.Table Delivery.id} (hins : s.deliveries.insert (payload.toDelivery url now) = some queue) :
    QueueKept ({ s with deliveries := queue }, h ++ [(.enqueued url payload, t)]) := by
  have hget := Sql.Table.get_insert hins
  have hnew : s.deliveries.get payload.eventId = none := Sql.Table.get_of_insert hins
  have hnone := hk.fresh _ hnew
  constructor
  · intro id d hd
    rw [hget] at hd
    split at hd
    · cases hd
      exact RowKept.fresh hnone
    · exact (hk.rows id d hd).snoc rfl
  · intro id hd x hx
    rw [hget] at hd
    split at hd
    · cases hd
    rename_i hne
    rcases List.mem_append.1 hx with hx | hx
    · exact hk.fresh id hd x hx
    · cases List.mem_singleton.1 hx
      intro he
      exact hne (Option.some.inj he)
  · intro url' payload' t' ht
    show ∃ d, queue.get payload'.eventId = some d ∧ _
    rw [hget]
    rcases List.mem_append.1 ht with ht | ht
    · have hne : ¬ (payload.toDelivery url now).id = payload'.eventId := by
        intro he
        exact hnone _ ht (congrArg some he.symm)
      rw [if_neg hne]
      exact hk.terms url' payload' t' ht
    · cases List.mem_singleton.1 ht
      have hid : (payload.toDelivery url now).id = payload.eventId := rfl
      rw [if_pos hid]
      exact ⟨payload.toDelivery url now, rfl, rfl, rfl⟩
  · refine hk.posts_snoc ?_
    intro d he
    cases he

/-- A mark on a row that is there: the other rows and the terms of all stay. -/
theorem QueueKept.mark (hk : QueueKept (s, h)) {id : String} {f : Delivery → Delivery} (hf : ∀ d, (f d).id = d.id)
    {row : Delivery} (hrow : s.deliveries.get id = some row) (hterms : ∀ d, (f d).url = d.url ∧ (f d).body = d.body)
    (ha : r.1.about = some id) (hm : ∀ i, QueueEntry.marks i r.1 = decide (id = i)) (hkept : RowKept (h ++ [r]) (f row)) :
    QueueKept ({ s with deliveries := s.deliveries.update (fun d => d.id = id) f hf }, h ++ [r]) := by
  have hget : ∀ i, (s.deliveries.update (fun d => d.id = id) f hf).get i =
      (s.deliveries.get i).map fun d => if d.id = id then f d else d := by
    intro i
    simp
  constructor
  · intro i d hd
    rw [hget] at hd
    obtain ⟨d₀, hd₀, rfl⟩ := Option.map_eq_some_iff.1 hd
    obtain rfl := Sql.Table.key_of_get hd₀
    by_cases hid : d₀.id = id
    · rw [if_pos hid]
      rw [hid, hrow] at hd₀
      cases hd₀
      exact hkept
    · rw [if_neg hid]
      refine (hk.rows d₀.id d₀ hd₀).snoc ?_
      rw [hm]
      exact decide_eq_false (Ne.symm hid)
  · intro i hd x hx
    rw [hget, Option.map_eq_none_iff] at hd
    rcases List.mem_append.1 hx with hx | hx
    · exact hk.fresh i hd x hx
    · rw [List.mem_singleton.1 hx, ha]
      rintro ⟨rfl⟩
      rw [hrow] at hd
      cases hd
  · intro url payload t ht
    rcases List.mem_append.1 ht with ht | ht
    · obtain ⟨d, hd, hurl, hbody⟩ := hk.terms url payload t ht
      rw [hget, hd]
      refine ⟨if d.id = id then f d else d, rfl, ?_⟩
      split
      · rw [(hterms d).1, (hterms d).2]
        exact ⟨hurl, hbody⟩
      · exact ⟨hurl, hbody⟩
    · have hx := List.mem_singleton.1 ht
      have hno := hm id
      rw [← hx] at hno
      simp [QueueEntry.marks] at hno
  · refine hk.posts_snoc ?_
    intro d he
    rw [he] at ha
    cases ha

theorem nextAttempts_toInt {a : Int64} (ha : d.nextAttempts = some a) : a.toInt = d.attempts.toInt + 1 := by
  unfold Delivery.nextAttempts at ha
  split at ha
  · rename_i hlt
    cases ha
    exact toInt_next hlt
  · cases ha

theorem attempts_deliver : d.deliver.attempts.toInt = min (d.attempts.toInt + 1) (2 ^ 63 - 1) := by
  have hlt := d.attempts.toInt_lt
  unfold Delivery.deliver
  cases ha : d.nextAttempts with
  | some a =>
    have ha' := nextAttempts_toInt ha
    have halt := a.toInt_lt
    show a.toInt = _
    omega
  | none =>
    have hmax : ¬ d.attempts < Int64.maxValue := by
      intro hlt
      rw [Delivery.nextAttempts, if_pos hlt] at ha
      cases ha
    rw [Int64.lt_iff_toInt_lt] at hmax
    have hvalue : Int64.maxValue.toInt = 2 ^ 63 - 1 := rfl
    show d.attempts.toInt = _
    omega

/-- A delivery that is marked keeps to the log. -/
theorem RowKept.deliver {t : Time} (hd : RowKept h d) : RowKept (h ++ [(.delivered d.id, t)]) d.deliver := by
  have hmark : QueueEntry.marks d.id (.delivered d.id) = true := decide_eq_true rfl
  constructor
  · exact hd.enqueued_snoc
  · constructor
    · intro _
      exact ⟨t, List.mem_append_right _ List.mem_cons_self⟩
    · exact fun _ => rfl
  · rw [attempts_deliver, hd.attempts, Delivery.id_deliver, marksOf, tally_snoc, hmark]
    simp only [if_true]
    omega
  · exact hd.next_snoc nofun

/-- A delivery whose attempt failed keeps to the log. -/
theorem RowKept.fail {t next : Time} {a : Int64} (hd : RowKept h d) (ha : d.nextAttempts = some a)
    (hnext : t.plus (backoffSecs a) = some next) : RowKept (h ++ [(.failed d.id, t)]) (d.reschedule a next) := by
  have hmark : QueueEntry.marks d.id (.failed d.id) = true := decide_eq_true rfl
  have ha' := nextAttempts_toInt ha
  have halt := a.toInt_lt
  have hattempts := hd.attempts
  constructor
  · exact hd.enqueued_snoc
  · show d.delivered = true ↔ _
    rw [hd.delivered]
    constructor
    · rintro ⟨t', ht'⟩
      exact ⟨t', List.mem_append_left _ ht'⟩
    · rintro ⟨t', ht'⟩
      rcases List.mem_append.1 ht' with ht' | ht'
      · exact ⟨t', ht'⟩
      · cases List.mem_singleton.1 ht'
  · show a.toInt = _
    rw [Delivery.id_reschedule, marksOf, tally_snoc, hmark, ← marksOf]
    simp only [if_true]
    omega
  · intro h₁ t' h₂ he hz
    rcases split_snoc he with ⟨rfl, hx, -⟩ | ⟨h₃, rfl, -⟩
    · cases hx
      have hpos : 0 < a := by
        rw [Int64.lt_iff_toInt_lt]
        show 0 < a.toInt
        omega
      have hcount : a.toInt.toNat = marksOf d.id h₁ + 1 := by omega
      rw [Time.plus] at hnext
      split at hnext
      · cases hnext
        show t + (backoffSecs a).toInt = _
        rw [backoffSecs_toInt hpos, hcount, Delivery.id_reschedule]
      · cases hnext
    · have hfails : QueueEntry.fails d.id (.failed d.id) = true := decide_eq_true rfl
      rw [Delivery.id_reschedule, failuresOf, tally_snoc, hfails] at hz
      simp at hz

end

/-! ## The worker -/

/-- Listed as due, and still as it was listed. -/
structure Ready (s : Shop × QueueLog) (d : Delivery) : Prop where
  here : s.1.deliveries.get d.id = some d
  pending : d.delivered = false
  below : d.attempts < maxAttempts
  listed : ListedDue s.2 d

/-- What the worker owes: it posts what is ready, and puts off by the backoff of the next attempt. -/
def QueueStmt.Owes {β : Type} (s : Shop) : QueueStmt β → Prop
  | .reschedule id attempts backoff =>
    ∀ d, s.deliveries.get id = some d → d.nextAttempts = some attempts ∧ backoff = backoffSecs attempts
  | _ => True

def HookEff.Owes {β : Type} (e : HookEff β) (s : Shop × QueueLog) : Prop :=
  match e with
  | .queue q => q.Owes s.1
  | .send d => Ready s d
  | _ => True

/-- Meanwhile deliveries are enqueued and requests answered. -/
structure QueueGrown (s s' : Shop × QueueLog) : Prop where
  rows : ∀ id d, s.1.deliveries.get id = some d → s'.1.deliveries.get id = some d
  log : ∃ h, s'.2 = s.2 ++ h ∧ ∀ id, failuresOf id h = 0

def queueRules : Discipline queueHandler Unit Unit where
  inv := QueueKept
  rely _ _ := QueueGrown
  before _ _ e s := e.Owes s
  allowed _ _ _ _ := True
  gain _ _ _ := ()
  rely_refl _ _ s := ⟨fun _ _ hd => hd, [], (List.append_nil s.2).symm, fun _ => rfl⟩
  rely_trans h h' := by
    obtain ⟨l, hl, hz⟩ := h.log
    obtain ⟨l', hl', hz'⟩ := h'.log
    refine ⟨fun id d hd => h'.rows id d (h.rows id d hd), l ++ l', ?_, ?_⟩
    · rw [hl', hl, List.append_assoc]
    · intro id
      rw [failuresOf, tally_append, ← failuresOf, hz id, hz' id]

theorem Ready.posted {s : Shop × QueueLog} {d : Delivery} (hk : QueueKept s) (hd : Ready s d) : Posted s.2 d :=
  ⟨hk.rows d.id d hd.here, hd.pending, hd.below, hd.listed⟩

theorem ListedDue.append {h l : QueueLog} {d : Delivery} (hd : ListedDue h d) (hl : failuresOf d.id l = 0) :
    ListedDue (h ++ l) d := by
  obtain ⟨h₁, t, h₂, rfl, hz, ht⟩ := hd
  refine ⟨h₁, t, h₂ ++ l, by simp, ?_, ht⟩
  rw [failuresOf, tally_append, ← failuresOf, hz, hl]

/-- A delivery stays ready as long as its row stays and no failure of it is recorded. -/
theorem Ready.keep {s s' : Shop × QueueLog} {d : Delivery} {l : QueueLog} (hd : Ready s d)
    (hrow : s'.1.deliveries.get d.id = some d) (hl : s'.2 = s.2 ++ l) (hz : failuresOf d.id l = 0) : Ready s' d := by
  refine ⟨hrow, hd.pending, hd.below, ?_⟩
  rw [hl]
  exact hd.listed.append hz

theorem Ready.grown {s s' : Shop × QueueLog} {d : Delivery} (hd : Ready s d) (h : QueueGrown s s') : Ready s' d := by
  obtain ⟨l, hl, hz⟩ := h.log
  exact hd.keep (h.rows d.id d hd.here) hl (hz d.id)

/-- The operation marks no row under this id. -/
def QueueStmt.Spares {β : Type} (id : String) : QueueStmt β → Prop
  | .markDelivered i => i ≠ id
  | .reschedule i _ _ => i ≠ id
  | _ => True

def HookEff.Spares {β : Type} (id : String) : HookEff β → Prop
  | .queue q => q.Spares id
  | _ => True

section

variable {β : Type} {s : Shop} {h : QueueLog} {id : String} {d : Delivery}

theorem get_update_spared {i : String} {f : Delivery → Delivery} (hf : ∀ d, (f d).id = d.id) (hi : i ≠ id)
    (hd : s.deliveries.get id = some d) : (s.deliveries.update (fun d => d.id = i) f hf).get id = some d := by
  obtain rfl := Sql.Table.key_of_get hd
  rw [Sql.Table.get_update, hd, Option.map_some, if_neg (by simpa using Ne.symm hi)]

theorem QueueStmt.get_exec {q : QueueStmt β} (hq : q.Spares id) (hd : s.deliveries.get id = some d) :
    (q.exec s.now s.deliveries).2.get id = some d := by
  cases q with
  | enqueue url payload =>
    simp only [QueueStmt.exec]
    cases hins : s.deliveries.insert (payload.toDelivery url s.now) with
    | none => exact hd
    | some queue =>
      have hne : (payload.toDelivery url s.now).id ≠ id := by
        rintro rfl
        rw [Sql.Table.get_of_insert hins] at hd
        cases hd
      show queue.get id = some d
      rw [Sql.Table.get_insert hins, if_neg hne, hd]
  | due limit maxAttempts => exact hd
  | markDelivered i => exact get_update_spared Delivery.id_deliver hq hd
  | nextAttempts i =>
    simp only [QueueStmt.exec]
    split
    · exact hd
    · split
      · exact hd
      · exact hd
  | reschedule i attempts backoff =>
    simp only [QueueStmt.exec]
    split
    · rename_i next _
      exact get_update_spared (Delivery.id_reschedule attempts next) hq hd
    · split
      · exact hd
      · exact hd

theorem HookEff.get_act {e : HookEff β} (x : HookAnswer) (he : e.Spares id) (hd : s.deliveries.get id = some d) :
    (hookHandler.act e x s).2.deliveries.get id = some d := by
  cases e with
  | queue q =>
    simp only [hookHandler]
    split
    · exact hd
    · exact QueueStmt.get_exec he hd
  | getTransient key =>
    simp only [hookHandler]
    split
    · exact hd
    · exact hd
  | paymentComplete order transactionId =>
    simp only [hookHandler]
    split
    · exact hd
    · split
      · exact hd
      · exact hd
  | response n =>
    simp only [hookHandler]
    split
    · exact hd
    · exact hd
    · exact hd
  | elapse | send | accept | respond | setTransient | wcGetOrder | addOrderNote => exact hd

theorem HookEff.entry_spares {e : HookEff β} {answer : β} (he : e.Spares id) :
    failuresOf id (e.entry answer s).toList = 0 := by
  refine tally_eq_zero.2 ?_
  intro r hr
  rw [Option.mem_toList] at hr
  cases e with
  | queue q =>
    cases answer with
    | error m => cases hr
    | ok a =>
      obtain ⟨entry, hentry, rfl⟩ := Option.map_eq_some_iff.1 hr
      cases q with
      | enqueue url payload | due limit maxAttempts =>
        cases hentry
        rfl
      | nextAttempts i => cases hentry
      | markDelivered i =>
        simp only [QueueStmt.entry] at hentry
        split at hentry
        · cases hentry
          rfl
        · cases hentry
      | reschedule i attempts backoff =>
        simp only [QueueStmt.entry] at hentry
        split at hentry
        · cases hentry
          exact decide_eq_false he
        · cases hentry
  | send d =>
    cases hr
    rfl
  | elapse | response | accept | respond | getTransient | setTransient | wcGetOrder | paymentComplete | addOrderNote => cases hr

theorem QueueKept.append_nil (hk : QueueKept (s, h)) : QueueKept (s, h ++ (none : Option (QueueEntry × Time)).toList) := by
  rw [Option.toList_none, List.append_nil]
  exact hk

/-- An `UPDATE` of no row. -/
theorem update_absent {i : String} {f : Delivery → Delivery} (hf : ∀ d, (f d).id = d.id) (hi : s.deliveries.get i = none) :
    s.deliveries.update (fun d => d.id = i) f hf = s.deliveries := by
  apply Sql.Table.eq_of_rows
  show s.deliveries.rows.map _ = s.deliveries.rows
  refine List.map_congr_left (g := id) ?_ |>.trans (List.map_id _)
  intro d hd
  have hne : ¬ d.id = i := by
    rintro rfl
    rw [Sql.Table.get_of_mem hd] at hi
    cases hi
  simp [hne]

/-- Every statement keeps the queue to the log, where it marks only what was posted. -/
theorem QueueStmt.kept {q : QueueStmt β} (hk : QueueKept (s, h)) (ho : q.Owes s) :
    QueueKept ({ s with deliveries := (q.exec s.now s.deliveries).2 },
      h ++ (HookEff.entry (.queue q) (q.exec s.now s.deliveries).1 s).toList) := by
  cases q with
  | enqueue url payload =>
    simp only [QueueStmt.exec]
    cases hins : s.deliveries.insert (payload.toDelivery url s.now) with
    | none => exact hk.append_nil
    | some queue =>
      show QueueKept ({ s with deliveries := queue }, h ++ [(.enqueued url payload, s.now)])
      exact hk.enqueue hins
  | due limit maxAttempts =>
    show QueueKept (s, h ++ [(.listed, s.now)])
    refine hk.quiet rfl (fun _ => rfl) ?_
    intro d he
    cases he
  | nextAttempts i =>
    simp only [QueueStmt.exec]
    split
    · exact hk.append_nil
    · split
      · exact hk.append_nil
      · exact hk.append_nil
  | markDelivered i =>
    simp only [QueueStmt.exec, HookEff.entry, QueueStmt.entry]
    cases hrow : s.deliveries.get i with
    | none =>
      rw [update_absent Delivery.id_deliver hrow]
      exact hk.append_nil
    | some row =>
      obtain rfl := Sql.Table.key_of_get hrow
      exact hk.mark Delivery.id_deliver hrow (fun d => ⟨rfl, rfl⟩) rfl (fun _ => rfl) (hk.rows _ row hrow).deliver
  | reschedule i attempts backoff =>
    simp only [QueueStmt.exec, HookEff.entry, QueueStmt.entry]
    cases hrow : s.deliveries.get i with
    | none =>
      cases hnext : s.now.plus backoff with
      | none => exact hk.append_nil
      | some next =>
        simp only [Option.isSome_none, Bool.false_eq_true, if_false]
        rw [update_absent (Delivery.id_reschedule attempts next) hrow]
        exact hk.append_nil
    | some row =>
      obtain rfl := Sql.Table.key_of_get hrow
      obtain ⟨ha, rfl⟩ := ho row hrow
      cases hnext : s.now.plus (backoffSecs attempts) with
      | none => exact hk.append_nil
      | some next =>
        exact hk.mark (Delivery.id_reschedule attempts next) hrow (fun d => ⟨rfl, rfl⟩) rfl (fun _ => rfl)
          ((hk.rows _ row hrow).fail ha hnext)

/-- Every operation keeps the queue to the log, where it marks only what was posted. -/
theorem HookEff.kept {e : HookEff β} (x : HookAnswer) (hk : QueueKept (s, h)) (ho : e.Owes (s, h)) :
    QueueKept ((hookHandler.noting HookEff.entry).act e x (s, h)).2 := by
  cases e with
  | queue q =>
    show QueueKept ((hookHandler.act (.queue q) x s).2, h ++ (HookEff.entry (.queue q) (hookHandler.act (.queue q) x s).1 s).toList)
    simp only [hookHandler]
    cases x.fault with
    | some m => exact hk.append_nil
    | none => exact QueueStmt.kept hk ho
  | send d =>
    have hposted : Posted h d := Ready.posted hk ho
    show QueueKept ({ s with sent := s.sent ++ [d] }, h ++ [(.sent d, s.now)])
    have hk' : QueueKept ({ s with sent := s.sent ++ [d] }, h) := hk.of_deliveries rfl
    refine hk'.quiet rfl (fun _ => rfl) ?_
    intro d' he
    cases he
    exact hposted
  | getTransient key | response n =>
    refine QueueKept.append_nil (hk.of_deliveries ?_)
    simp only [hookHandler]
    split <;> rfl
  | paymentComplete order transactionId =>
    refine QueueKept.append_nil (hk.of_deliveries ?_)
    simp only [hookHandler]
    split
    · rfl
    · split
      · rfl
      · rfl
  | elapse | accept | respond | setTransient | wcGetOrder | addOrderNote => exact QueueKept.append_nil (hk.of_deliveries rfl)

end

section

variable {β : Type} {e : HookEff β} {x : HookAnswer × Time} {s : Shop × QueueLog} {id : String} {d : Delivery}

theorem queue_keeps (hk : QueueKept s) (ho : e.Owes s) : QueueKept (queueHandler.act e x s).2 := by
  have hk' : QueueKept ({ s.1 with now := x.2 }, s.2) := hk.of_deliveries rfl
  have ho' : e.Owes ({ s.1 with now := x.2 }, s.2) := by
    cases e with
    | queue q => cases q <;> exact ho
    | send d => exact ⟨ho.here, ho.pending, ho.below, ho.listed⟩
    | _ => exact trivial
  exact HookEff.kept x.1 hk' ho'

theorem queue_spares (he : e.Spares d.id) (hd : Ready s d) : Ready (queueHandler.act e x s).2 d := by
  have hrow : ({ s.1 with now := x.2 } : Shop).deliveries.get d.id = some d := hd.here
  exact hd.keep (HookEff.get_act x.1 he hrow) rfl (HookEff.entry_spares he)

theorem queue_grown (he : ∀ id, e.Spares id) : QueueGrown s (queueHandler.act e x s).2 := by
  constructor
  · intro id d hd
    have hrow : ({ s.1 with now := x.2 } : Shop).deliveries.get id = some d := hd
    exact HookEff.get_act x.1 (he id) hrow
  · exact ⟨_, rfl, fun id => HookEff.entry_spares (he id)⟩

theorem nextAttempts_answer {a : Int64} (h : (queueHandler.act (.queue (.nextAttempts id)) x s).1 = .ok a) :
    ∃ d, s.1.deliveries.get id = some d ∧ d.nextAttempts = some a := by
  change (hookHandler.act (.queue (.nextAttempts id)) x.1 { s.1 with now := x.2 }).1 = .ok a at h
  simp only [hookHandler, QueueStmt.exec] at h
  split at h
  · cases h
  · split at h
    · cases h
    · rename_i d hd
      split at h
      · cases h
      · rename_i a' ha
        cases h
        exact ⟨d, hd, ha⟩

/-- The deliveries a listing answers are ready. -/
theorem due_answer {limit : Nat} {ds : List Delivery}
    (h : (queueHandler.act (.queue (.due limit maxAttempts)) x s).1 = .ok ds) :
    (ds.map Delivery.id).Nodup ∧
      ∀ d ∈ ds, Ready (queueHandler.act (.queue (.due limit maxAttempts)) x s).2 d := by
  change (hookHandler.act (.queue (.due limit maxAttempts)) x.1 { s.1 with now := x.2 }).1 = .ok ds at h
  have hfault : x.1.fault = none := by
    cases hf : x.1.fault with
    | none => rfl
    | some m =>
      simp only [hookHandler, hf] at h
      cases h
  have hafter : (queueHandler.act (.queue (.due limit maxAttempts)) x s).2 =
      ({ s.1 with now := x.2 }, s.2 ++ [(.listed, x.2)]) := by
    simp only [queueHandler, Handler.among, Handler.noting, hookHandler, hfault, QueueStmt.exec, HookEff.entry,
      QueueStmt.entry, Option.map_some, Option.toList_some]
  simp only [hookHandler, hfault, QueueStmt.exec, Except.ok.injEq] at h
  subst h
  constructor
  · refine List.Nodup.sublist ((List.take_sublist _ _).map _) ?_
    have hperm := List.perm_insertionSort (fun d d' : Delivery => d.nextAttemptAt ≤ d'.nextAttemptAt)
      (s.1.deliveries.select fun d => !d.delivered && decide (d.attempts < maxAttempts) && decide (d.nextAttemptAt ≤ x.2))
    exact (hperm.map Delivery.id).nodup_iff.2 (s.1.deliveries.nodup.sublist (List.filter_sublist.map Delivery.id))
  · intro d hd
    obtain ⟨hrow, hp⟩ := Sql.Table.mem_select.1 ((List.mem_insertionSort _).1 (List.mem_of_mem_take hd))
    simp only [Bool.and_eq_true, Bool.not_eq_true', decide_eq_true_eq] at hp
    obtain ⟨⟨hpending, hbelow⟩, hdue⟩ := hp
    rw [hafter]
    exact ⟨hrow, hpending, hbelow, s.2, x.2, [], rfl, rfl, hdue⟩

end

/-- Whatever the others enqueue, what is ready stays ready. -/
def AllReady (ds : List Delivery) (s : Shop × QueueLog) : Prop := ∀ d ∈ ds, Ready s d

theorem AllReady.grown {ds : List Delivery} {s s' : Shop × QueueLog} (h : AllReady ds s) (hm : QueueGrown s s') :
    AllReady ds s' := fun d hd => (h d hd).grown hm

section

variable {ds : List Delivery} {s : Shop × QueueLog} {id : String}

theorem markDelivered_meets (hready : AllReady ds s) (hid : ∀ d ∈ ds, id ≠ d.id) :
    Meets queueRules () (fun _ _ s => AllReady ds s) (markDelivered id).run () s := by
  refine Meets.step (K := AllReady ds) hready (fun _ _ hr _ h => h.grown hr) (fun _ _ _ => trivial) ?_
  intro x s _ h _
  have hafter : AllReady ds (queueHandler.act (.queue (.markDelivered id)) x s).2 := fun d hd =>
    queue_spares (hid d hd) (h d hd)
  exact fun s' hr _ => hafter.grown hr

theorem markFailed_meets (hready : AllReady ds s) (hid : ∀ d ∈ ds, id ≠ d.id) :
    Meets queueRules () (fun _ _ s => AllReady ds s) (markFailed id).run () s := by
  refine Meets.step (K := AllReady ds) hready (fun _ _ hr _ h => h.grown hr) (fun _ _ _ => trivial) ?_
  intro x s _ h _
  have hafter : AllReady ds (queueHandler.act (.queue (.nextAttempts id)) x s).2 := fun d hd =>
    queue_spares trivial (h d hd)
  cases ha : (queueHandler.act (.queue (.nextAttempts id)) x s).1 with
  | error m => exact fun s' hr _ => hafter.grown hr
  | ok a =>
    -- the row is as the statement found it, since others only add rows
    obtain ⟨row, hrow, hnext⟩ := nextAttempts_answer ha
    have hstay : QueueGrown s (queueHandler.act (.queue (.nextAttempts id)) x s).2 := queue_grown fun _ => trivial
    refine Meets.step (K := fun s => AllReady ds s ∧ s.1.deliveries.get id = some row) ⟨hafter, hstay.rows id row hrow⟩
      (fun _ _ hr _ h => ⟨h.1.grown hr, hr.rows id row h.2⟩) ?_ ?_
    · rintro s _ ⟨-, hget⟩ d hd
      rw [hget] at hd
      cases hd
      exact ⟨hnext, rfl⟩
    · rintro x s _ ⟨h, -⟩ _
      have hend : AllReady ds (queueHandler.act (.queue (.reschedule id a (backoffSecs a))) x s).2 := fun d hd =>
        queue_spares (hid d hd) (h d hd)
      exact fun s' hr _ => hend.grown hr

theorem deliver_meets {d : Delivery} (hready : AllReady (d :: ds) s) (hid : ∀ d' ∈ ds, d.id ≠ d'.id) :
    Meets queueRules () (fun _ _ s => AllReady ds s) (deliver d).run () s := by
  refine Meets.step (K := AllReady (d :: ds)) hready (fun _ _ hr _ h => h.grown hr)
    (fun _ _ h => h d List.mem_cons_self) ?_
  intro x s _ h _
  have hsent : AllReady ds (queueHandler.act (.send d) x s).2 := fun d' hd =>
    queue_spares trivial (h d' (List.mem_cons_of_mem d hd))
  refine Meets.step (K := AllReady ds) hsent (fun _ _ hr _ h => h.grown hr) (fun _ _ _ => trivial) ?_
  intro y s' _ h _
  have hresponse : AllReady ds (queueHandler.act (.response (queueHandler.act (.send d) x s).1) y s').2 := fun d' hd =>
    queue_spares trivial (h d' hd)
  cases (queueHandler.act (.response (queueHandler.act (.send d) x s).1) y s').1 with
  | error m => exact markFailed_meets hresponse hid
  | ok status =>
    show Meets queueRules () _ (if isSuccess status then markDelivered d.id else markFailed d.id).run () _
    split
    · exact markDelivered_meets hresponse hid
    · exact markFailed_meets hresponse hid

/-- The worker marks each listed delivery once, after it was posted. -/
theorem deliverAll_meets (hready : AllReady ds s) (hnodup : (ds.map Delivery.id).Nodup) :
    Meets queueRules () (fun _ _ _ => True) (deliverAll ds).run () s := by
  induction ds generalizing s with
  | nil => exact fun _ _ _ => trivial
  | cons d ds ih =>
    rw [List.map_cons, List.nodup_cons] at hnodup
    obtain ⟨hnew, hnodup⟩ := hnodup
    have hid : ∀ d' ∈ ds, d.id ≠ d'.id := by
      intro d' hd he
      exact hnew (he ▸ List.mem_map_of_mem hd)
    refine Meets.tryThen (P := fun _ _ s => AllReady ds s) (deliver_meets hready hid) ?_ ?_
    · exact fun _ _ _ _ h => ih h hnodup
    · exact fun _ _ _ _ _ => fun _ _ _ => trivial

theorem drain_meets : Meets queueRules () (fun _ _ _ => True) drain.run () s := by
  intro s' _ _
  refine ⟨trivial, ?_⟩
  intro x _
  cases hds : (queueHandler.act (.queue (.due batch maxAttempts)) x s').1 with
  | error m => exact fun _ _ _ => trivial
  | ok ds =>
    obtain ⟨hnodup, hready⟩ := due_answer hds
    exact deliverAll_meets hready hnodup

end

theorem queueCode_meets (c : QueueCall) (s : Shop × QueueLog) :
    Meets queueRules () (fun _ _ _ => True) (queueCode c) () s := by
  have hnone : AllReady [] s := by
    intro d hd
    cases hd
  have hid : ∀ id, ∀ d ∈ ([] : List Delivery), id ≠ d.id := by
    intro id d hd
    cases hd
  cases c with
  | drain => exact drain_meets.andThen fun _ _ _ _ _ _ _ _ => trivial
  | markDelivered id => exact (markDelivered_meets hnone (hid id)).andThen fun _ _ _ _ _ _ _ _ => trivial
  | markFailed id => exact (markFailed_meets hnone (hid id)).andThen fun _ _ _ _ _ _ _ _ => trivial

theorem elsewhere_spares (i : Elsewhere) (id : String) : (elsewhere i).2.Spares id := by
  cases i <;> exact trivial

theorem elsewhere_owes (i : Elsewhere) (s : Shop × QueueLog) : (elsewhere i).2.Owes s := by
  cases i <;> exact trivial

theorem QueueKept.start (s : Shop) : QueueKept ({ s with deliveries := .empty }, []) := by
  constructor
  · intro id d hd
    cases hd
  · intro id _ r hr
    cases hr
  · intro url payload t ht
    cases ht
  · intro h₁ d t h₂ he
    simp at he

/-- However the worker and the rest of the process interleave, the queue keeps to the log. -/
theorem queueAfter_kept (s : Shop) (ts : QueueRun) : QueueKept (queueAfter s ts) := by
  refine Serial.inv_run (D := queueRules) (QueueKept.start s) ?_ ?_ ?_ ts
  · intro β e g x s hk ho
    exact ⟨trivial, queue_keeps hk ho⟩
  · intro i x s hk
    exact ⟨queue_keeps hk (elsewhere_owes i s), fun _ => queue_grown (elsewhere_spares i)⟩
  · intro c s _
    exact ⟨(), queueCode_meets c s⟩

/-! ## What becomes of a delivery -/

/-- The deliveries a listing would answer at a reading of the clock. -/
def listing (s : Shop) (now : Time) (limit : Nat) : List Delivery :=
  match (QueueStmt.exec now s.deliveries (.due limit maxAttempts)).1 with
  | .ok ds => ds
  | .error _ => []

structure Dependable (s : Shop) (h : QueueLog) : Prop where
  /-- a delivery keeps the URL and the body it was enqueued with -/
  terms : ∀ url payload t, (.enqueued url payload, t) ∈ h →
    ∃ d, s.deliveries.get payload.eventId = some d ∧ d.url = url ∧ d.body = payload
  /-- and is posted with them -/
  posted : ∀ d t, (.sent d, t) ∈ h → ∃ t₀, (.enqueued d.url d.body, t₀) ∈ h ∧ d.body.eventId = d.id
  /-- if before each post the earlier ones have their marks recorded, there are at most twelve -/
  few : ∀ id, (∀ h₁ d t h₂, h = h₁ ++ (.sent d, t) :: h₂ → d.id = id → sendsOf id h₁ ≤ marksOf id h₁) → sendsOf id h ≤ 12
  /-- after a recorded success there is no post, and none becomes due -/
  ended : ∀ h₁ id t₀ h₂, h = h₁ ++ (.delivered id, t₀) :: h₂ →
    sendsOf id h₂ = 0 ∧ ∀ now limit, ∀ d ∈ listing s now limit, d.id ≠ id
  /-- after the `k`-th recorded failure no post comes before the `k`-th delay is over, by a clock that has not gone back -/
  spaced : ∀ h₁ id t₀ h₂ d t h₃, h = h₁ ++ (.failed id, t₀) :: h₂ ++ (.sent d, t) :: h₃ → d.id = id →
    (t₀ :: h₂.map Prod.snd ++ [t]).Pairwise (· ≤ ·) → t₀ + delay (failuresOf id h₁ + 1) ≤ t
  /-- the next attempt is set by the last recorded failure -/
  next : ∀ d ∈ s.deliveries.rows, d.delivered = false → ∀ h₁ t₀ h₂, h = h₁ ++ (.failed d.id, t₀) :: h₂ →
    failuresOf d.id h₂ = 0 → d.nextAttemptAt = t₀ + delay (failuresOf d.id h₁ + 1)
  /-- when it comes, the delivery is due -/
  again : ∀ d ∈ s.deliveries.rows, d.delivered = false → d.attempts < 12 → ∀ now limit, s.deliveries.rows.length ≤ limit →
    (d ∈ listing s now limit ↔ d.nextAttemptAt ≤ now)

section

variable {s : Shop} {h h₁ h₂ h₃ : QueueLog} {id : String} {d : Delivery} {r : QueueEntry × Time} {t₀ t : Time}

theorem entry_of_fails (hr : QueueEntry.fails id r.1 = true) : r = (.failed id, r.2) := by
  obtain ⟨e, t⟩ := r
  cases e with
  | failed i =>
    obtain rfl : i = id := of_decide_eq_true hr
    rfl
  | _ => cases hr

theorem entry_of_sends (hr : QueueEntry.sends id r.1 = true) : ∃ d, d.id = id ∧ r = (.sent d, r.2) := by
  obtain ⟨e, t⟩ := r
  cases e with
  | sent d => exact ⟨d, of_decide_eq_true hr, rfl⟩
  | _ => cases hr

/-- A failure is a mark. -/
theorem failures_le_marks : failuresOf id h ≤ marksOf id h := by
  refine List.countP_mono_left ?_
  intro r _ hr
  rw [entry_of_fails hr]
  exact decide_eq_true rfl

/-- Without a success every mark is a failure. -/
theorem marks_eq_failures (hno : ∀ t, (.delivered id, t) ∉ h) : marksOf id h = failuresOf id h := by
  refine List.countP_congr ?_
  rintro ⟨e, t⟩ hr
  cases e with
  | delivered i =>
    have hne : i ≠ id := by
      rintro rfl
      exact hno t hr
    simp [QueueEntry.marks, QueueEntry.fails, hne]
  | _ => rfl

/-- What is pending was never marked delivered. -/
theorem RowKept.no_success (hd : RowKept h d) (hp : d.delivered = false) (t : Time) : (.delivered d.id, t) ∉ h := by
  intro ht
  rw [hd.delivered.2 ⟨t, ht⟩] at hp
  cases hp

theorem Posted.marks_lt (hd : Posted h d) : marksOf d.id h < 12 := by
  have hbelow : d.attempts.toInt < 12 := Int64.lt_iff_toInt_lt.1 hd.below
  have hattempts := hd.row.attempts
  omega

/-- Where every attempt is marked before the next, at most twelve are made. -/
theorem QueueKept.few (hk : QueueKept (s, h))
    (hmarks : ∀ h₁ d t h₂, h = h₁ ++ (.sent d, t) :: h₂ → d.id = id → sendsOf id h₁ ≤ marksOf id h₁) : sendsOf id h ≤ 12 := by
  by_cases hz : sendsOf id h = 0
  · omega
  -- the last post counts all of them, and it found fewer than twelve marks
  obtain ⟨h₁, r, h₂, he, hr, hlast⟩ := exists_last hz
  obtain ⟨d, rfl, hd⟩ := entry_of_sends hr
  rw [hd] at he
  have hlt := (hk.posts h₁ d r.2 h₂ he).marks_lt
  have hle := hmarks h₁ d r.2 h₂ he rfl
  have hall : sendsOf d.id h = sendsOf d.id h₁ + 1 := by
    have hentry : QueueEntry.sends d.id (.sent d) = true := decide_eq_true rfl
    rw [he, sendsOf, tally_append, tally_cons, hlast, hentry]
    simp
  omega

/-- After a success nothing is sent again. -/
theorem QueueKept.ended (hk : QueueKept (s, h)) (he : h = h₁ ++ (.delivered id, t₀) :: h₂) : sendsOf id h₂ = 0 := by
  refine tally_eq_zero.2 ?_
  intro r hr
  by_contra hsends
  obtain ⟨d, rfl, hd⟩ := entry_of_sends (Bool.not_eq_false _ ▸ hsends)
  rw [hd] at hr
  obtain ⟨a, b, rfl⟩ := List.append_of_mem hr
  have hposted := hk.posts (h₁ ++ (.delivered d.id, t₀) :: a) d r.2 b (by rw [he]; simp)
  exact hposted.row.no_success hposted.pending t₀ (by simp)

theorem mem_listing {now : Time} {limit : Nat} (hd : d ∈ listing s now limit) :
    s.deliveries.get d.id = some d ∧ d.delivered = false := by
  obtain ⟨hrow, hp⟩ := Sql.Table.mem_select.1 ((List.mem_insertionSort _).1 (List.mem_of_mem_take hd))
  simp only [Bool.and_eq_true, Bool.not_eq_true', decide_eq_true_eq] at hp
  exact ⟨hrow, hp.1.1⟩

theorem QueueKept.not_listed (hk : QueueKept (s, h)) (he : (.delivered id, t₀) ∈ h) {now : Time} {limit : Nat} :
    ∀ d ∈ listing s now limit, d.id ≠ id := by
  rintro d hd rfl
  obtain ⟨hrow, hpending⟩ := mem_listing hd
  exact (hk.rows d.id d hrow).no_success hpending t₀ he

/-- The next attempt is due a delay behind the last failure. -/
theorem QueueKept.next (hk : QueueKept (s, h)) (hd : d ∈ s.deliveries.rows) (hp : d.delivered = false)
    (he : h = h₁ ++ (.failed d.id, t₀) :: h₂) (hz : failuresOf d.id h₂ = 0) :
    d.nextAttemptAt = t₀ + delay (failuresOf d.id h₁ + 1) := by
  have hrow := hk.rows d.id d (Sql.Table.get_of_mem hd)
  have hno : ∀ t, (.delivered d.id, t) ∉ h₁ := by
    intro t ht
    exact hrow.no_success hp t (he ▸ List.mem_append_left _ ht)
  rw [← marks_eq_failures hno]
  exact hrow.next h₁ t₀ h₂ he hz

/-- A listing that no failure follows follows every failure. -/
theorem listed_after {l₁ l₂ : QueueLog} {t₁ : Time} (he : h₁ ++ (.failed id, t₀) :: h₂ = l₁ ++ (.listed, t₁) :: l₂)
    (hz : failuresOf id l₂ = 0) : (.listed, t₁) ∈ h₂ := by
  have hfails : QueueEntry.fails id (.failed id) = true := decide_eq_true rfl
  rcases List.append_eq_append_iff.1 he with ⟨a, rfl, ha⟩ | ⟨a, rfl, ha⟩
  · cases a with
    | nil => cases (List.cons.inj ha).1
    | cons y a =>
      rw [List.cons_append] at ha
      rw [(List.cons.inj ha).2]
      exact List.mem_append_right _ List.mem_cons_self
  · cases a with
    | nil => cases (List.cons.inj ha).1
    | cons y a =>
      rw [List.cons_append] at ha
      rw [(List.cons.inj ha).2, failuresOf, tally_append, tally_cons, hfails] at hz
      simp at hz

/-- No attempt is made before its delay has passed. -/
theorem QueueKept.spaced (hk : QueueKept (s, h)) (he : h = h₁ ++ (.failed d.id, t₀) :: h₂ ++ (.sent d, t) :: h₃)
    (hclock : (t₀ :: h₂.map Prod.snd ++ [t]).Pairwise (· ≤ ·)) : t₀ + delay (failuresOf d.id h₁ + 1) ≤ t := by
  have hposted := hk.posts (h₁ ++ (.failed d.id, t₀) :: h₂) d t h₃ he
  obtain ⟨l₁, t₁, l₂, hl, hz, hdue⟩ := hposted.listed
  have hwindow := List.pairwise_append.1 hclock
  have hlisted : t₁ ≤ t := by
    have hmem := listed_after hl hz
    exact hwindow.2.2 t₁ (List.mem_cons_of_mem _ (List.mem_map_of_mem (f := Prod.snd) hmem)) t List.mem_cons_self
  by_cases hlast : failuresOf d.id h₂ = 0
  · have hnext := hposted.row.next h₁ t₀ h₂ rfl hlast
    have hcount : failuresOf d.id h₁ + 1 ≤ marksOf d.id h₁ + 1 := Nat.succ_le_succ failures_le_marks
    calc t₀ + delay (failuresOf d.id h₁ + 1) ≤ t₀ + delay (marksOf d.id h₁ + 1) := Int.add_le_add_left (delay_mono hcount) t₀
      _ = d.nextAttemptAt := hnext.symm
      _ ≤ t₁ := hdue
      _ ≤ t := hlisted
  · -- the last failure came later, and put the delivery off for longer
    obtain ⟨a, r, b, rfl, hr, hb⟩ := exists_last hlast
    have hfailed := entry_of_fails hr
    have hlater : t₀ ≤ r.2 := by
      have hmem : r.2 ∈ (a ++ r :: b).map Prod.snd := List.mem_map_of_mem (List.mem_append_right _ List.mem_cons_self)
      exact List.rel_of_pairwise_cons hwindow.1 hmem
    have hnext := hposted.row.next (h₁ ++ (.failed d.id, t₀) :: a) r.2 b (by rw [← hfailed]; simp) hb
    have hcount : failuresOf d.id h₁ + 1 ≤ marksOf d.id (h₁ ++ (.failed d.id, t₀) :: a) + 1 := by
      refine Nat.succ_le_succ (Nat.le_trans failures_le_marks ?_)
      rw [marksOf, tally_append]
      omega
    calc t₀ + delay (failuresOf d.id h₁ + 1)
        ≤ r.2 + delay (marksOf d.id (h₁ ++ (.failed d.id, t₀) :: a) + 1) := Int.add_le_add hlater (delay_mono hcount)
      _ = d.nextAttemptAt := hnext.symm
      _ ≤ t₁ := hdue
      _ ≤ t := hlisted

/-- A pending delivery with attempts left is listed as soon as it is due. -/
theorem mem_listing_iff (hd : d ∈ s.deliveries.rows) (hp : d.delivered = false) (hb : d.attempts < 12) {now : Time}
    {limit : Nat} (hl : s.deliveries.rows.length ≤ limit) : d ∈ listing s now limit ↔ d.nextAttemptAt ≤ now := by
  have hlong : (s.deliveries.select fun d => !d.delivered && decide (d.attempts < maxAttempts) &&
      decide (d.nextAttemptAt ≤ now)).length ≤ limit := Nat.le_trans (List.length_filter_le _ _) hl
  simp only [listing, QueueStmt.exec]
  rw [List.take_of_length_le (by rw [List.length_insertionSort]; exact hlong), List.mem_insertionSort, Sql.Table.mem_select]
  have hmax : d.attempts < maxAttempts := hb
  simp [Sql.Table.get_of_mem hd, hp, hmax]

end

/-- In every run a delivery keeps its terms; it is posted at most twelve times if its marks are recorded, never
after a success, after a failure only when the backoff is over, and it is due again when its next attempt comes. The
backoff grows with the failures and is computed without overflow. -/
theorem deliveries_run (s : Shop) (ts : QueueRun) :
    Dependable (queueAfter s ts).1 (queueAfter s ts).2 ∧
      (∀ k l, k ≤ l → delay k ≤ delay l) ∧
      ∀ attempts, backoffChecked attempts = some (backoffSecs attempts) ∧
        (backoffSecs attempts).toInt = if attempts ≤ 0 then 0 else delay attempts.toInt.toNat := by
  have hk : QueueKept ((queueAfter s ts).1, (queueAfter s ts).2) := queueAfter_kept s ts
  refine ⟨?_, fun k l => delay_mono, ?_⟩
  · constructor
    · exact hk.terms
    · intro d t hd
      obtain ⟨h₁, h₂, he⟩ := List.append_of_mem hd
      obtain ⟨t₀, ht₀, hid⟩ := (hk.posts h₁ d t h₂ he).row.enqueued
      exact ⟨t₀, he ▸ List.mem_append_left _ ht₀, hid⟩
    · exact fun id => hk.few
    · intro h₁ id t₀ h₂ he
      have hmem : (.delivered id, t₀) ∈ (queueAfter s ts).2 := by
        rw [he]
        exact List.mem_append_right _ List.mem_cons_self
      exact ⟨hk.ended he, fun now limit => hk.not_listed hmem⟩
    · rintro h₁ id t₀ h₂ d t h₃ he rfl
      exact hk.spaced he
    · exact fun d hd hp h₁ t₀ h₂ => hk.next hd hp
    · exact fun d hd hp hb now limit => mem_listing_iff hd hp hb
  · intro attempts
    refine ⟨backoffChecked_eq attempts, ?_⟩
    split
    · rename_i hle
      rw [backoffSecs, if_pos hle]
      rfl
    · rename_i hnot
      refine backoffSecs_toInt (Int64.lt_iff_toInt_lt.2 ?_)
      rw [Int64.le_iff_toInt_le] at hnot
      omega

end GoblinPay
