import GoblinPay.Runs.Solo
import GoblinPay.Sample

/-!
# One maintenance tick

What a tick without failures does to the users: `Db.rotateElapsed` is its loop as a function of the database, and
`maintenance_iff` says when it rotates exactly those whose clock has elapsed. A tick with the global interval off
rotates nobody, whatever a user's own interval is.
-/

namespace GoblinPay

open Async Sql

/-! ## The clock of a user -/

namespace User

/-- The user's own interval, or else the global one. -/
def interval (globalInterval : Int64) (u : User) : Int64 := u.rotateInterval.getD globalInterval

/-- The interval is on and has elapsed since the last rotation. -/
def elapsed (globalInterval : Int64) (now : Time) (u : User) : Bool :=
  decide (0 < u.interval globalInterval) && decide ((u.interval globalInterval).toInt ≤ now - u.lastRotatedAt)

def rotated (now : Time) (u : User) : User := { u with epoch := u.epoch + 1, lastRotatedAt := now }

end User

/-- The tick from `db` to `db'` rotates exactly the users whose clock has elapsed. -/
structure Ticked (globalInterval : Int64) (now : Time) (db db' : Db) : Prop where
  rotates : ∀ u ∈ db.user.rows, u.elapsed globalInterval now = true → ∃ u', db'.user.get u.id = some u' ∧
    u' = { u with epoch := u'.epoch, lastRotatedAt := now } ∧ u'.epoch.toInt = u.epoch.toInt + 1 ∧
    ∃ ep, db'.endpub.get (u.id, u'.epoch) = some ep
  leaves : ∀ u ∈ db.user.rows, u.elapsed globalInterval now = false → db'.user.get u.id = some u ∧
    ∀ e, db'.endpub.get (u.id, e) = db.endpub.get (u.id, e)
  adds : ∀ id, db.user.get id = none → db'.user.get id = none
  endpubs : ∀ k ep, db.endpub.get k = some ep → db'.endpub.get k = some ep
  rest : db'.invoice = db.invoice ∧ db'.payment = db.payment ∧ db'.delivery = db.delivery

/-! ## The loop as a function -/

section

variable {W : Type} (U : Upstream W) (sk : Secret) (now : Time)

/-- The assignment `rotate` inserts. -/
def nextEndpub (u : User) : Endpub := ⟨u.id, u.epoch + 1, Derive.endpubPubkeyHex U sk u.id (u.epoch + 1), now⟩

/-- What `rotate` leaves. -/
def Db.rotate (db : Db) (u : User) : Db :=
  { db with
    user := db.user.update (fun v => v.id = u.id) (fun v => { v with epoch := u.epoch + 1, lastRotatedAt := now }) fun _ => rfl
    endpub := (db.endpub.insert (nextEndpub U sk now u)).getD db.endpub }

/-- What the loop of `rotate_due` leaves. -/
def Db.rotateElapsed (globalInterval : Int64) (users : List User) (db : Db) : Db :=
  users.foldl (fun db u => if u.elapsed globalInterval now then db.rotate U sk now u else db) db

variable {U sk now} {g : Int64} {db : Db} {u v : User} {users : List User} {id : String} {k : String × Int64}

namespace Db

theorem user_rotate : (db.rotate U sk now u).user.get id =
    (db.user.get id).map fun v => if v.id = u.id then { v with epoch := u.epoch + 1, lastRotatedAt := now } else v := by
  simp [Db.rotate]

theorem rotate_self (hu : db.user.get u.id = some u) : (db.rotate U sk now u).user.get u.id = some (u.rotated now) := by
  rw [user_rotate, hu, Option.map_some, if_pos rfl]
  rfl

theorem rotate_other (hid : id ≠ u.id) : (db.rotate U sk now u).user.get id = db.user.get id := by
  rw [user_rotate]
  cases hget : db.user.get id with
  | none => rfl
  | some v =>
    have hne : ¬ v.id = u.id := by
      rw [Table.key_of_get hget]
      exact hid
    rw [Option.map_some, if_neg hne]

/-- The assignments a rotation leaves are those before and the next one, unless its key was taken. -/
theorem endpub_rotate : (db.rotate U sk now u).endpub.get k =
    if k = (u.id, u.epoch + 1) then some ((db.endpub.get k).getD (nextEndpub U sk now u)) else db.endpub.get k := by
  have hkey : (nextEndpub U sk now u).key = (u.id, u.epoch + 1) := rfl
  show ((db.endpub.insert _).getD db.endpub).get k = _
  cases hins : db.endpub.insert (nextEndpub U sk now u) with
  | none =>
    have htaken := Table.insert_eq_none.1 hins
    rw [hkey] at htaken
    rw [Option.getD_none]
    split
    · rename_i hk
      subst hk
      cases hget : db.endpub.get (u.id, u.epoch + 1) with
      | none => exact absurd hget htaken
      | some ep => rfl
    · rfl
  | some tab =>
    have hfree := Table.get_of_insert hins
    rw [hkey] at hfree
    rw [Option.getD_some, Table.get_insert hins, hkey]
    by_cases hk : k = (u.id, u.epoch + 1)
    · subst hk
      rw [if_pos rfl, if_pos rfl, hfree, Option.getD_none]
    · rw [if_neg hk, if_neg (Ne.symm hk)]

theorem rotateElapsed_cons : db.rotateElapsed U sk now g (u :: users) =
    (if u.elapsed g now then db.rotate U sk now u else db).rotateElapsed U sk now g users := rfl

/-- The rows a loop has ahead of it, as it read them. -/
structure Ahead (db : Db) (users : List User) : Prop where
  rows : ∀ u ∈ users, db.user.get u.id = some u
  nodup : (users.map User.id).Nodup

theorem Ahead.head (h : Ahead db (u :: users)) : db.user.get u.id = some u ∧ ∀ v ∈ users, v.id ≠ u.id := by
  refine ⟨h.rows u List.mem_cons_self, ?_⟩
  intro v hv he
  exact (List.nodup_cons.1 h.nodup).1 (he ▸ List.mem_map_of_mem hv)

/-- Rotating one user leaves the rows ahead as they were read. -/
theorem Ahead.tail (h : Ahead db (u :: users)) :
    Ahead (if u.elapsed g now then db.rotate U sk now u else db) users := by
  refine ⟨?_, (List.nodup_cons.1 h.nodup).2⟩
  intro v hv
  have hrow := h.rows v (List.mem_cons_of_mem u hv)
  split
  · rw [rotate_other (h.head.2 v hv), hrow]
  · exact hrow

theorem user_rotateElapsed_other (hid : ∀ u ∈ users, id ≠ u.id) :
    (db.rotateElapsed U sk now g users).user.get id = db.user.get id := by
  induction users generalizing db with
  | nil => rfl
  | cons u users ih =>
    rw [rotateElapsed_cons, ih fun v hv => hid v (List.mem_cons_of_mem u hv)]
    split
    · exact rotate_other (hid u List.mem_cons_self)
    · rfl

theorem user_rotateElapsed (h : Ahead db users) (hu : u ∈ users) :
    (db.rotateElapsed U sk now g users).user.get u.id = some (if u.elapsed g now then u.rotated now else u) := by
  induction users generalizing db with
  | nil => cases hu
  | cons v users ih =>
    rw [rotateElapsed_cons]
    rcases List.mem_cons.1 hu with rfl | hmem
    · rw [user_rotateElapsed_other fun v hv => (h.head.2 v hv).symm]
      split
      · exact rotate_self h.head.1
      · exact h.head.1
    · exact ih h.tail hmem

theorem endpub_rotateElapsed_kept {ep : Endpub} (hep : db.endpub.get k = some ep) :
    (db.rotateElapsed U sk now g users).endpub.get k = some ep := by
  induction users generalizing db with
  | nil => exact hep
  | cons u users ih =>
    rw [rotateElapsed_cons]
    apply ih
    split
    · rw [endpub_rotate]
      split
      · rw [hep, Option.getD_some]
      · exact hep
    · exact hep

theorem endpub_rotateElapsed_other (hk : ∀ u ∈ users, u.elapsed g now = true → k.1 ≠ u.id) :
    (db.rotateElapsed U sk now g users).endpub.get k = db.endpub.get k := by
  induction users generalizing db with
  | nil => rfl
  | cons u users ih =>
    rw [rotateElapsed_cons, ih fun v hv => hk v (List.mem_cons_of_mem u hv)]
    split
    · rename_i he
      have hne : k ≠ (u.id, u.epoch + 1) := by
        rintro rfl
        exact hk u List.mem_cons_self he rfl
      rw [endpub_rotate, if_neg hne]
    · rfl

theorem endpub_rotateElapsed (hu : u ∈ users) (he : u.elapsed g now = true) :
    ∃ ep, (db.rotateElapsed U sk now g users).endpub.get (u.id, u.epoch + 1) = some ep := by
  induction users generalizing db with
  | nil => cases hu
  | cons v users ih =>
    rw [rotateElapsed_cons]
    rcases List.mem_cons.1 hu with rfl | hmem
    · rw [if_pos he]
      refine ⟨(db.endpub.get (u.id, u.epoch + 1)).getD (nextEndpub U sk now u), endpub_rotateElapsed_kept ?_⟩
      rw [endpub_rotate, if_pos rfl]
    · exact ih hmem

theorem rotateElapsed_rest : (db.rotateElapsed U sk now g users).invoice = db.invoice ∧
    (db.rotateElapsed U sk now g users).payment = db.payment ∧
    (db.rotateElapsed U sk now g users).delivery = db.delivery := by
  induction users generalizing db with
  | nil => exact ⟨rfl, rfl, rfl⟩
  | cons u users ih =>
    rw [rotateElapsed_cons]
    split
    · exact ih
    · exact ih

theorem ahead_rows : Ahead db db.user.rows := ⟨fun _ hu => Table.get_of_mem hu, db.user.nodup⟩

end Db

/-! ## The tick -/

variable {s : World W}

theorem exec_insertAssignment {userId pubkey : String} {e : Int64} (hu : db.user.get userId = some u) (choice : Nat) :
    (Stmt.insertAssignment userId e pubkey).exec now choice db =
      (.ok (), { db with endpub := (db.endpub.insert ⟨userId, e, pubkey, now⟩).getD db.endpub }) := by
  rw [Stmt.exec]
  cases db.endpub.insert ⟨userId, e, pubkey, now⟩ with
  | none => rfl
  | some t =>
    rw [hu]
    rfl

/-- The two statements of a rotation. -/
theorem exec_rotate (hu : db.user.get u.id = some u) (choice choice' : Nat) :
    (Stmt.insertAssignment u.id (u.epoch + 1) (Derive.endpubPubkeyHex U sk u.id (u.epoch + 1))).exec now choice
      ((Stmt.setEpoch u.id (u.epoch + 1)).exec now choice' db).2 = (.ok (), db.rotate U sk now u) := by
  have hrotated : (db.rotate U sk now u).user.get u.id = some (u.rotated now) := Db.rotate_self hu
  have huser : ((Stmt.setEpoch u.id (u.epoch + 1)).exec now choice' db).2.user.get u.id = some (u.rotated now) := hrotated
  exact exec_insertAssignment huser choice

theorem rotate_meets (hu : s.db.user.get u.id = some u) :
    Meets (plainRequest U Faultless fun _ => True) ()
      (fun r _ s' => (∃ ep, r = .ok ep) ∧ s' = { s with db := s.db.rotate U sk s.now u }) (Endpub.rotate U sk u.id).run () s := by
  refine faultless_sql (b := some u) (fun _ => congrArg Except.ok hu) ?_
  intro _
  refine faultless_sql (b := ()) (fun _ => rfl) ?_
  intro choice'
  refine faultless_sql (b := ()) (fun choice => congrArg Prod.fst (exec_rotate hu choice choice')) ?_
  intro choice
  have hs : ((s.exec (.setEpoch u.id (u.epoch + 1)) choice').exec (.insertAssignment u.id (u.epoch + 1)
      (Derive.endpubPubkeyHex U sk u.id (u.epoch + 1))) choice) = { s with db := s.db.rotate U sk s.now u } :=
    congrArg (fun r => { s with db := r.2 }) (exec_rotate hu choice choice')
  have hep : (s.db.rotate U sk s.now u).endpub.get (u.id, u.epoch + 1) =
      some ((s.db.endpub.get (u.id, u.epoch + 1)).getD (nextEndpub U sk s.now u)) := by
    rw [Db.endpub_rotate, if_pos rfl]
  change Meets _ () _ (sql (.selectAssignment u.id (u.epoch + 1))).run () ((s.exec (.setEpoch u.id (u.epoch + 1)) choice').exec
    (.insertAssignment u.id (u.epoch + 1) (Derive.endpubPubkeyHex U sk u.id (u.epoch + 1))) choice)
  rw [hs]
  refine faultless_end (b := (s.db.endpub.get (u.id, u.epoch + 1)).getD (nextEndpub U sk s.now u)) ?_ ?_
  · intro _
    simp only [Stmt.exec, hep]
  · intro choice
    refine ⟨⟨_, rfl⟩, ?_⟩
    simp only [World.exec, Stmt.exec, hep]

/-- The loop does what `Db.rotateElapsed` does. -/
theorem rotateUsers_meets {n : Nat} (h : Db.Ahead s.db users) :
    Meets (plainRequest U Faultless fun _ => True) ()
      (fun r _ s' => (∃ n, r = .ok n) ∧ s' = { s with db := s.db.rotateElapsed U sk s.now g users })
      (Endpub.rotateUsers U sk g users n).run () s := by
  induction users generalizing s n with
  | nil => exact Meets.soloRet ⟨⟨n, rfl⟩, rfl⟩
  | cons u users ih =>
    unfold Endpub.rotateUsers
    rw [Db.rotateElapsed_cons]
    have htail : Db.Ahead (if u.elapsed g s.now then s.db.rotate U sk s.now u else s.db) users := h.tail
    by_cases hoff : u.rotateInterval.getD g ≤ 0
    · have hno : u.elapsed g s.now = false := by
        have hnot : ¬ 0 < u.rotateInterval.getD g := Int64.not_lt.2 hoff
        simp only [User.elapsed, User.interval, hnot, decide_false, Bool.false_and]
      rw [if_neg (by rw [hno]; exact Bool.false_ne_true)] at htail ⊢
      simp only [if_pos hoff]
      exact ih htail
    · have hon : 0 < u.rotateInterval.getD g := Int64.not_le.1 hoff
      simp only [if_neg hoff]
      refine faultless_sql (b := s.now - u.lastRotatedAt) (fun _ => rfl) ?_
      intro _
      by_cases hge : (u.rotateInterval.getD g).toInt ≤ s.now - u.lastRotatedAt
      · have hyes : u.elapsed g s.now = true := by
          simp only [User.elapsed, User.interval, hon, hge, decide_true, Bool.and_self]
        rw [if_pos hyes] at htail ⊢
        simp only [if_pos hge]
        have hrotate : Meets (plainRequest U Faultless fun _ => True) ()
            (fun r _ s' => (∃ a, r = .ok a) ∧ s' = { s with db := s.db.rotate U sk s.now u })
            (discard (Endpub.rotate U sk u.id)).run () s := by
          refine Meets.tryThen (rotate_meets h.head.1) ?_ ?_
          · rintro ep _ s' _ ⟨-, rfl⟩
            exact Meets.soloRet ⟨⟨_, rfl⟩, rfl⟩
          · rintro e _ s' _ ⟨⟨ep, hep⟩, -⟩
            cases hep
        refine Meets.tryThen hrotate ?_ ?_
        · rintro _ _ s' _ ⟨-, rfl⟩
          have hnext := ih (n := n + 1) (s := { s with db := s.db.rotate U sk s.now u }) htail
          exact hnext
        · rintro e _ s' _ ⟨⟨a, ha⟩, -⟩
          cases ha
      · have hno : u.elapsed g s.now = false := by
          simp only [User.elapsed, User.interval, hge, decide_false, Bool.and_false]
        rw [if_neg (by rw [hno]; exact Bool.false_ne_true)] at htail ⊢
        simp only [if_neg hge]
        exact ih htail

theorem rotateDue_meets : Meets (plainRequest U Faultless fun _ => True) ()
    (fun _ _ s' => s' = { s with db := s.db.rotateElapsed U sk s.now g s.db.user.rows }) (Endpub.rotateDue U sk g).run () s := by
  refine faultless_sql (b := s.db.user.rows) (fun _ => rfl) ?_
  intro _
  exact (rotateUsers_meets Db.ahead_rows).mono fun _ _ _ _ h => h.2

/-- A refresh of the snapshot reads the database. -/
theorem refreshSnapshot_meets {cfg : Config} : Meets (plainRequest U Faultless fun _ => True) ()
    (fun _ _ s' => s'.db = s.db) (Directory.refreshSnapshot U cfg sk) () s := by
  refine request_sql trivial ?_ ?_
  · intro x rows _ _ _
    refine request_sql trivial ?_ ?_
    · intro y eps _ _ _
      exact Meets.soloStep trivial fun _ _ => Meets.soloRet rfl
    · intro y e _ _
      exact Meets.soloStep trivial fun _ _ => Meets.soloRet rfl
  · intro x e _ _
    refine request_sql trivial ?_ ?_
    · intro y eps _ _ _
      exact Meets.soloStep trivial fun _ _ => Meets.soloRet rfl
    · intro y e _ _
      exact Meets.soloStep trivial fun _ _ => Meets.soloRet rfl

/-- The database after a tick without failures. -/
theorem maintenance_meets {cfg : Config} : Meets (plainRequest U Faultless fun _ => True) ()
    (fun _ _ s' => s'.db = if 0 < cfg.endpubRotateInterval then
        s.db.rotateElapsed U sk s.now cfg.endpubRotateInterval s.db.user.rows else s.db)
    (Directory.maintenance U cfg sk) () s := by
  unfold Directory.maintenance
  split
  · have hdue : Meets (plainRequest U Faultless fun _ => True) ()
        (fun _ _ s' => s' = { s with db := s.db.rotateElapsed U sk s.now cfg.endpubRotateInterval s.db.user.rows })
        (discard (Endpub.rotateDue U sk cfg.endpubRotateInterval).run) () s := by
      refine Meets.andThen rotateDue_meets ?_
      rintro _ _ _ _ rfl
      exact Meets.soloRet rfl
    refine Meets.andThen hdue ?_
    rintro _ _ _ _ rfl
    exact refreshSnapshot_meets
  · exact refreshSnapshot_meets

/-! ## When it is the tick it should be -/

theorem not_next {e e' : Int64} (h : e'.toInt = e.toInt + 1) : e < Int64.maxValue := by
  have hlt := e'.toInt_lt
  have hmax : Int64.maxValue.toInt = 2 ^ 63 - 1 := rfl
  rw [Int64.lt_iff_toInt_lt, hmax]
  omega

theorem ticked_rotateElapsed (h : ∀ u ∈ db.user.rows, u.elapsed g now = true → u.epoch < Int64.maxValue) :
    Ticked g now db (db.rotateElapsed U sk now g db.user.rows) := by
  constructor
  · intro u hu he
    refine ⟨u.rotated now, ?_, rfl, toInt_next (h u hu he), Db.endpub_rotateElapsed hu he⟩
    rw [Db.user_rotateElapsed Db.ahead_rows hu, if_pos he]
  · intro u hu he
    constructor
    · rw [Db.user_rotateElapsed Db.ahead_rows hu, he]
      rfl
    · intro e
      refine Db.endpub_rotateElapsed_other ?_
      rintro v hv hv' hid
      have hsame : v = u := by
        have hget := Table.get_of_mem hv
        rw [← hid, Table.get_of_mem hu] at hget
        exact (Option.some.inj hget).symm
      rw [hsame, he] at hv'
      cases hv'
  · intro id hid
    rw [Db.user_rotateElapsed_other]
    · exact hid
    · rintro u hu rfl
      rw [Table.get_of_mem hu] at hid
      cases hid
  · exact fun k ep hep => Db.endpub_rotateElapsed_kept hep
  · exact Db.rotateElapsed_rest

theorem ticked_same (h : ∀ u ∈ db.user.rows, u.elapsed g now = false) : Ticked g now db db := by
  constructor
  · intro u hu he
    rw [h u hu] at he
    cases he
  · exact fun u hu _ => ⟨Table.get_of_mem hu, fun _ => rfl⟩
  · exact fun id hid => hid
  · exact fun k ep hep => hep
  · exact ⟨rfl, rfl, rfl⟩

end

/-- Every tick without failures rotates exactly the users whose clock has elapsed if and only if each of these finds
the global interval on and has an epoch to go to. -/
theorem maintenance_iff {W : Type} (U : Upstream W) (cfg : Config) (sk : Secret) (w : World W) :
    (∀ xs r, (∀ x ∈ xs, x.fault = none) → ((Directory.maintenance U cfg sk).exec (handler U) xs w).1 = .ret r →
      Ticked cfg.endpubRotateInterval w.now w.db ((Directory.maintenance U cfg sk).exec (handler U) xs w).2.db) ↔
    ∀ u ∈ w.db.user.rows, u.elapsed cfg.endpubRotateInterval w.now = true →
      0 < cfg.endpubRotateInterval ∧ u.epoch < Int64.maxValue := by
  constructor
  · intro h u hu he
    obtain ⟨xs, hxs, r, hr⟩ := exists_faultless U (Directory.maintenance U cfg sk) w
    obtain ⟨u', hu', -, hepoch, -⟩ := (h xs r hxs hr).rotates u hu he
    rw [faultless_exec maintenance_meets hxs hr] at hu'
    refine ⟨?_, not_next hepoch⟩
    by_contra hoff
    rw [if_neg hoff, Table.get_of_mem hu] at hu'
    cases hu'
    omega
  · intro h xs r hxs hr
    rw [faultless_exec maintenance_meets hxs hr]
    split
    · exact ticked_rotateElapsed fun u hu he => (h u hu he).2
    · rename_i hoff
      refine ticked_same ?_
      intro u hu
      by_contra he
      exact hoff (h u hu (Bool.not_eq_false _ ▸ he)).1

/-- A till with a user whose own interval is ten seconds, last rotated long ago; the global interval is off. -/
def overriding : World Sample.Wallet :=
  { Sample.world with db := { Db.empty with user := ⟨[⟨"alice", some 10, 0, 0, 0⟩], by decide⟩ } }

/-- Its ticks leave the user where she is. -/
theorem maintenance_overriding : ¬ ∀ xs r, (∀ x ∈ xs, x.fault = none) →
    ((Directory.maintenance Sample.upstream Sample.config [109]).exec (handler Sample.upstream) xs overriding).1 = .ret r →
    Ticked Sample.config.endpubRotateInterval overriding.now overriding.db
      ((Directory.maintenance Sample.upstream Sample.config [109]).exec (handler Sample.upstream) xs overriding).2.db := by
  intro h
  have htick := h [{}, {}, {}, {}] () (by decide) rfl
  obtain ⟨u', hu', -, hepoch, -⟩ := htick.rotates ⟨"alice", some 10, 0, 0, 0⟩ (by decide) (by decide)
  have hsame : some u' = some ⟨"alice", some 10, 0, 0, 0⟩ := hu'.symm
  cases hsame
  cases hepoch

end GoblinPay
