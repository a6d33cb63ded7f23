import GoblinPay.Runs.Identities
import GoblinPay.Sample

/-!
# The advertised endpub

A user's epoch and the assignment for it are two statements. Every call assigns only an epoch it has brought a
user to (`assigning`), so while no update of an epoch is a stale one the assignments never run ahead of the epochs.
They keep up exactly when every epoch a user was brought to got its assignment (`endpubs_iff`).
-/

namespace GoblinPay

open Async Sql

/-- The user and the epoch an insert that went through assigned an endpub to. -/
def Eff.assigned {β : Type} : Eff β → β → Option (String × Int64)
  | .sql (.insertAssignment user n _), .ok () => some (user, n)
  | _, _ => none

section

variable {W : Type} (U : Upstream W)

namespace Happening

def raises (ev : Happening W) : Option (String × Int64) := ev.eff.raised (ev.answer (handler U))

def assigns (ev : Happening W) : Option (String × Int64) := ev.eff.assigned (ev.answer (handler U))

/-- An update of a user's epoch finds the user there, or at the epoch before. -/
def Forward (ev : Happening W) : Prop := ∀ id n u, ev.raises U = some (id, n) → ev.state.db.user.get id = some u →
  n = u.epoch ∨ n.toInt = u.epoch.toInt + 1

instance (ev : Happening W) : Decidable (Forward U ev) :=
  decidable_of_iff (∀ k, ev.raises U = some k → ∀ u, ev.state.db.user.get k.1 = some u → k.2 = u.epoch ∨ k.2.toInt = u.epoch.toInt + 1)
    ⟨fun h id n u hk hu => h (id, n) hk u hu, fun h k hk u hu => h k.1 k.2 u hk hu⟩

end Happening

/-- What the users of a server are promised of their endpub. -/
structure Advertised (sk : Secret) (db : Db) (u : User) : Prop where
  current : ∃ ep, db.endpub.get (u.id, u.epoch) = some ep ∧ ep.pubkey = Derive.endpubPubkeyHex U sk u.id u.epoch ∧
    (∀ now choice, ((Stmt.currentEndpub u.id).exec now choice db).1 = .ok (some ep)) ∧
    ∀ overlap now choice, 0 ≤ overlap →
      ∃ eps, ((Stmt.watchedPubkeys (max overlap 0)).exec now choice db).1 = .ok eps ∧ ep ∈ eps
  contiguous : ∀ n, (∃ ep, db.endpub.get (u.id, n) = some ep) ↔ 0 ≤ n.toInt ∧ n.toInt ≤ u.epoch.toInt

/-! ## Epochs move on -/

/-- The user was brought to this epoch, or beyond. -/
def Reached (s : World W) (k : String × Int64) : Prop := ∃ u, s.db.user.get k.1 = some u ∧ 0 ≤ k.2.toInt ∧ k.2.toInt ≤ u.epoch.toInt

/-- Users stay, and their epochs do not go back. -/
def Onward (s s' : World W) : Prop :=
  ∀ id u, s.db.user.get id = some u → ∃ u', s'.db.user.get id = some u' ∧ u.epoch.toInt ≤ u'.epoch.toInt

/-- Epochs are counted from 0, and an assignment is for an epoch its user reached. -/
structure Counted (s : World W) : Prop where
  users : ∀ id u, s.db.user.get id = some u → 0 ≤ u.epoch.toInt
  endpubs : ∀ k ep, s.db.endpub.get k = some ep → Reached s k

variable {U} {s s' s'' : World W} {k : String × Int64} {ev : Happening W}

theorem Onward.refl (s : World W) : Onward s s := fun _ u hu => ⟨u, hu, Int.le_refl _⟩

theorem Onward.trans (h : Onward s s') (h' : Onward s' s'') : Onward s s'' := by
  intro id u hu
  obtain ⟨u', hu', hle⟩ := h id u hu
  obtain ⟨u'', hu'', hle'⟩ := h' id u' hu'
  exact ⟨u'', hu'', Int.le_trans hle hle'⟩

theorem Reached.onward (hr : Reached s k) (h : Onward s s') : Reached s' k := by
  obtain ⟨u, hu, hlow, hhigh⟩ := hr
  obtain ⟨u', hu', hle⟩ := h k.1 u hu
  exact ⟨u', hu', hlow, Int.le_trans hhigh hle⟩

theorem Happening.onward (hforward : ev.Forward U) : Onward ev.state (ev.after (handler U)) := by
  intro id u hu
  have change := ev.eff.user_change U ev.input ev.state id
  rw [hu] at change
  generalize hafter : (act U ev.input ev.state ev.eff).2.db.user.get id = r at change
  cases change with
  | keep => exact ⟨u, hafter, Int.le_refl _⟩
  | @raise _ n by_ =>
    refine ⟨_, hafter, ?_⟩
    rcases hforward id n u by_ hu with rfl | hn
    · exact Int.le_refl _
    · show u.epoch.toInt ≤ n.toInt
      omega
  | interval => exact ⟨_, hafter, Int.le_refl _⟩

/-- A statement that brings a user to an epoch leaves them there. -/
theorem Eff.raised_get {β : Type} {e : Eff β} {x : Answer} {id : String} {n : Int64} (h : e.raised (act U x s e).1 = some (id, n))
    (hfound : ∀ id n, e.write = some (.epoch id n) → ∃ u, s.db.user.get id = some u) :
    ∃ u, (act U x s e).2.db.user.get id = some u ∧ u.epoch = n := by
  cases e with
  | sql q =>
    cases q with
    | insertUser i interval =>
      rcases hr : (act U x s (.sql (.insertUser i interval))).1 with err | a
      · rw [hr] at h
        cases h
      · rw [hr] at h
        obtain ⟨rfl, rfl⟩ := Prod.mk.inj (Option.some.inj h)
        obtain ⟨-, hexec, hs⟩ := act_sql_ok hr
        rw [hs]
        simp only [World.exec, Stmt.exec, inserted] at hexec ⊢
        split at hexec
        · cases hexec
        · rename_i tab hins
          exact ⟨_, (Table.get_insert hins _).trans (if_pos rfl), rfl⟩
    | setEpoch i m =>
      rcases hr : (act U x s (.sql (.setEpoch i m))).1 with err | a
      · rw [hr] at h
        cases h
      · rw [hr] at h
        obtain ⟨rfl, rfl⟩ := Prod.mk.inj (Option.some.inj h)
        obtain ⟨-, -, hs⟩ := act_sql_ok hr
        obtain ⟨u, hu⟩ := hfound i m rfl
        have hid : u.id = i := Table.key_of_get hu
        refine ⟨{ u with epoch := m, lastRotatedAt := s.now }, ?_, rfl⟩
        rw [hs]
        simp only [World.exec, Stmt.exec, Db.setUser, Table.get_update, hu, Option.map_some, hid, decide_true, if_true]
    | _ => cases h
  | _ => cases h

theorem Happening.reached (hforward : ev.Forward U) (hc : Counted ev.state)
    (hfound : ∀ id n, ev.eff.write = some (.epoch id n) → ∃ u, ev.state.db.user.get id = some u)
    (hraises : ev.raises U = some k) : Reached (ev.after (handler U)) k := by
  obtain ⟨id, n⟩ := k
  obtain ⟨u', hu', rfl⟩ := Eff.raised_get hraises hfound
  refine ⟨u', hu', ?_, Int.le_refl _⟩
  cases hu : ev.state.db.user.get id with
  | some u =>
    have hlow := hc.users id u hu
    rcases hforward id u'.epoch u hraises hu with he | he
    · rw [he]
      exact hlow
    · rw [he]
      omega
  | none =>
    have change := ev.eff.user_change U ev.input ev.state id
    rw [hu, hu'] at change
    cases change with
    | create => exact Int.le_refl _

theorem Happening.counted (hforward : ev.Forward U) (hc : Counted ev.state)
    (hassign : ∀ id n pubkey, ev.eff.write = some (.assign id n pubkey) → Reached ev.state (id, n)) : Counted (ev.after (handler U)) := by
  constructor
  · intro id u' hu'
    have change := ev.eff.user_change U ev.input ev.state id
    generalize hbefore : ev.state.db.user.get id = r at change
    have hafter : (act U ev.input ev.state ev.eff).2.db.user.get id = some u' := hu'
    rw [hafter] at change
    cases change with
    | keep => exact hc.users id u' hbefore
    | create => exact Int.le_refl _
    | @raise u n by_ =>
      have hlow := hc.users id u hbefore
      show 0 ≤ n.toInt
      rcases hforward id n u by_ hbefore with rfl | hn
      · exact hlow
      · omega
    | @interval u => exact hc.users id u hbefore
  · intro k ep hep
    have change := ev.eff.endpub_change U ev.input ev.state k
    generalize hbefore : ev.state.db.endpub.get k = r at change
    have hafter : (act U ev.input ev.state ev.eff).2.db.endpub.get k = some ep := hep
    rw [hafter] at change
    cases change with
    | keep => exact (hc.endpubs k ep hbefore).onward (Happening.onward hforward)
    | assign by_ hk =>
      subst hk
      exact (hassign _ _ _ by_).onward (Happening.onward hforward)

/-! ## A call assigns what it raised -/

section

variable (T : List (Happening W))

/-- A call assigns an epoch only when it brought the user there; `Own` is what it brought users to. -/
def assigning : Discipline (handler U) (Head Call (World W)) (List (String × Int64)) where
  inv := Counted
  rely _ _ := Onward
  before _ g e s := (∀ id n pubkey, e.write = some (.assign id n pubkey) → (id, n) ∈ g) ∧
    ∀ id n, e.write = some (.epoch id n) → ∃ u, s.db.user.get id = some u
  allowed h e x s := (⟨h, e, x, s⟩ : Happening W) ∈ T
  gain g e b := (e.raised b).toList ++ g
  rely_refl _ _ := Onward.refl
  rely_trans := Onward.trans

variable {T} {h : Head Call (World W)} {g : List (String × Int64)} {α : Type} {P : Write → Prop}

/-- A program that neither assigns nor updates an epoch meets the contract anywhere. -/
theorem assigning_of_writes {p : Io α} (hp : Prog.Writes P p) (hassign : ∀ id n pubkey, ¬ P (.assign id n pubkey))
    (hepoch : ∀ id n, ¬ P (.epoch id n)) : Meets (assigning (U := U) T) h (fun _ _ _ => True) p g s :=
  Meets.of_only hp fun _ _ _ he =>
    ⟨fun id n pubkey hwr => absurd (he _ hwr) (hassign id n pubkey), fun id n hwr => absurd (he _ hwr) (hepoch id n)⟩

theorem assigning_of_quiet {p : Io α} (hp : Prog.Quiet p) : Meets (assigning (U := U) T) h (fun _ _ _ => True) p g s :=
  assigning_of_writes (P := fun _ => False) hp.writes (fun _ _ _ h => h) fun _ _ h => h

theorem assigningOk_of_quiet {ε : Type} {m : ExceptT ε Io α} (hm : Prog.Quiet m.run) :
    Meets (assigning (U := U) T) h (OnOk fun _ _ _ => True) m.run g s :=
  (assigning_of_quiet hm).mono fun r _ _ _ _ => by cases r <;> trivial

theorem assigning_done {p : Io α} (hp : Meets (assigning (U := U) T) h (fun _ _ _ => True) p g s) :
    Meets (assigning (U := U) T) h (fun _ _ _ => True) (Prog.done p) g s :=
  hp.andThen fun _ _ _ _ _ _ _ _ => trivial

theorem assigning_ok {m : ExceptT SqlxError Io α} (hm : Meets (assigning (U := U) T) h (OnOk fun _ _ _ => True) m.run g s) :
    Meets (assigning (U := U) T) h (fun _ _ _ => True) m.run g s := hm.mono fun _ _ _ _ _ => trivial

section

variable {master : Secret} {user : String} {n : Int64}

theorem assigning_assign (hg : (user, n) ∈ g) :
    Meets (assigning (U := U) T) h (OnOk fun _ _ _ => True) (Endpub.assign U master user n).run g s := by
  refine Meets.sqlThen (K := fun _ => True) trivial (fun _ _ _ _ h => h) ?_ ?_ fun _ e _ _ => Meets.failed e
  · intro s _ _
    constructor
    · intro id m pubkey hwr
      cases hwr
      exact hg
    · intro id m hwr
      cases hwr
  · intro x s _ _ _ _ _
    exact assigningOk_of_quiet (quiet_sql rfl)

theorem assigning_rotate : Meets (assigning (U := U) T) h (OnOk fun _ _ _ => True) (Endpub.rotate U master user).run g s := by
  refine Meets.sqlThen (K := fun _ => True) trivial (fun _ _ _ _ h => h) (fun _ _ _ => ⟨nofun, nofun⟩) ?_
    fun _ e _ _ => Meets.failed e
  intro x s row _ _ _ hrow
  obtain rfl : s.db.user.get user = row := Except.ok.inj hrow
  cases hu : s.db.user.get user with
  | none => exact Meets.failed _
  | some u =>
    -- the user the row was read of is still there when the epoch is set
    refine Meets.sqlThen (K := fun s => ∃ u, s.db.user.get user = some u) ⟨u, hu⟩ ?_ ?_ ?_ fun _ e _ _ => Meets.failed e
    · rintro s s' hr _ ⟨u, hu⟩
      obtain ⟨u', hu', -⟩ := hr user u hu
      exact ⟨u', hu'⟩
    · rintro s _ hfound
      constructor
      · intro id m pubkey hwr
        cases hwr
      · intro id m hwr
        cases hwr
        exact hfound
    · intro x s b _ _ _ _
      exact assigning_assign List.mem_cons_self

theorem assigning_rotateUsers {interval : Int64} {users : List User} {m : Nat} :
    Meets (assigning (U := U) T) h (OnOk fun _ _ _ => True) (Endpub.rotateUsers U master interval users m).run g s := by
  induction users generalizing m g s with
  | nil => exact fun _ _ _ => trivial
  | cons u users ih =>
    unfold Endpub.rotateUsers
    dsimp only
    split
    · exact ih
    · refine Meets.tryOk (assigningOk_of_quiet (quiet_sql rfl)) ?_
      intro elapsed g s _ _
      split
      · refine Meets.tryOk (P := fun _ _ _ => True) (Meets.tryOk assigning_rotate fun _ _ _ _ _ _ _ _ => trivial) ?_
        intro _ g s _ _
        exact ih
      · exact ih

theorem assigning_maintenance {cfg : Config} : Meets (assigning (U := U) T) h (fun _ _ _ => True) (Directory.maintenance U cfg master) g s := by
  have refresh : ∀ g s, Meets (assigning (U := U) T) h (fun _ _ _ => True) (Directory.refreshSnapshot U cfg master) g s :=
    fun _ _ => assigning_of_quiet (Directory.quiet_refreshSnapshot U cfg master)
  unfold Directory.maintenance
  split
  · have hdue : Meets (assigning (U := U) T) h (OnOk fun _ _ _ => True) (Endpub.rotateDue U master cfg.endpubRotateInterval).run g s :=
      Meets.tryOk (assigningOk_of_quiet (quiet_sql rfl)) fun _ _ _ _ _ => assigning_rotateUsers
    have hdiscard : Meets (assigning (U := U) T) h (fun _ _ _ => True) (discard (Endpub.rotateDue U master cfg.endpubRotateInterval).run) g s :=
      Meets.andThen hdue fun _ _ _ _ _ _ _ _ => trivial
    exact Meets.andThen hdiscard fun _ g s _ _ => refresh g s
  · exact refresh g s

theorem assigning_createUser {id : Option String} {interval : Option Int64} :
    Meets (assigning (U := U) T) h (OnOk fun _ _ _ => True) (Endpub.createUser U master id interval).run g s := by
  have create : ∀ i g s, Meets (assigning (U := U) T) h (OnOk fun _ _ _ => True) (do
      sql (.insertUser i interval)
      let endpub ← Endpub.assign U master i 0
      let user ← Invoice.found (← sql (.selectUser i))
      pure (user, endpub) : ExceptT SqlxError Io (User × Endpub)).run g s := by
    intro i g s
    refine Meets.sqlThen (K := fun _ => True) trivial (fun _ _ _ _ h => h) (fun _ _ _ => ⟨nofun, nofun⟩) ?_
      fun _ e _ _ => Meets.failed e
    intro x s b _ _ _ _
    refine Meets.tryOk (assigning_assign List.mem_cons_self) ?_
    intro endpub g s _ _
    refine Meets.tryOk (assigningOk_of_quiet (quiet_sql rfl)) ?_
    intro row g s _ _
    exact Meets.tryOk (assigningOk_of_quiet (Invoice.footprint_found row).quiet) fun _ _ _ _ _ _ _ _ => trivial
  cases id with
  | some i => exact create i g s
  | none => exact Meets.tryOk (assigningOk_of_quiet footprint_draw.quiet) fun i g s _ _ => create i g s

end

theorem assigning_rails : Rails U T h (assigning (U := U) T) where
  quiet e g s he := by
    constructor
    · intro id n pubkey hwr
      rw [show e.write = none from he] at hwr
      cases hwr
    · intro id n hwr
      rw [show e.write = none from he] at hwr
      cases hwr
  replied _ _ _ := ⟨nofun, nofun⟩
  post _ _ _ _ _ := ⟨nofun, nofun⟩
  mem _ _ _ hx := hx
  receive r payer rc memo mode wh g s _ := by
    have hw : Prog.Writes Write.IsPayment (Record.persistAndMatch r payer rc memo mode wh) :=
      (Record.footprint_persistAndMatch r payer rc memo mode wh trivial (fun _ => trivial)
        (fun _ => trivial) trivial fun _ => trivial).writes
    exact assigning_of_writes hw (fun _ _ _ h => h) fun _ _ h => h
  settle f wh g s _ := by
    have hw : Prog.Writes Write.IsPayment (Foreign.settleFinalized f wh) :=
      (Foreign.footprint_settleFinalized f wh (fun _ => trivial) (fun _ => trivial) fun _ => trivial).writes
    exact assigning_of_writes hw (fun _ _ _ h => h) fun _ _ h => h

theorem assigning_call (c : Call) (s : World W) : Meets (assigning (U := U) T) ⟨c, s⟩ (fun _ _ _ => True) (code U c) g s := by
  by_cases hrail : c.IsRail
  · exact assigning_rails.meets hrail
  · cases c with
    | createUser master id interval => exact assigning_done (assigning_ok assigning_createUser)
    | rotateUser master id => exact assigning_done (assigning_ok assigning_rotate)
    | maintenance cfg master => exact assigning_done assigning_maintenance
    | _ =>
      refine assigning_of_writes (Call.writes U hrail) ?_ ?_
      · intros
        simp [Call.mayWrite]
      · intros
        simp [Call.mayWrite]

/-- While no update of an epoch is a stale one, epochs only move on and no assignment runs ahead of them. -/
def advancing (hforward : ∀ ev ∈ T, Happening.Forward U ev) : Protocol (handler U) (code U) (List (String × Int64)) where
  toDiscipline := assigning T
  init := []
  owns _ g s := ∀ k ∈ g, Reached s k
  start_owns _ _ := fun _ hk => by cases hk
  start_meets _ _ _ := assigning_call _ _
  owns_stable howns hr := fun k hk => (howns k hk).onward hr
  keeps {_ h g e x s} hc howns hb hx := by
    refine ⟨Happening.counted (hforward _ hx) hc fun id n pubkey hwr => howns _ (hb.1 id n pubkey hwr), fun k hk => ?_⟩
    rcases List.mem_append.1 hk with hk | hk
    · exact Happening.reached (hforward _ hx) hc hb.2 (Option.mem_toList.1 hk)
    · exact (howns k hk).onward (Happening.onward (hforward _ hx))
  yields _ _ _ _ _ hx := Happening.onward (hforward _ hx)

end

/-! ## Over a run -/

section

variable {wallet : W} {now : Time} {ms : Run}

theorem counted_fresh : Counted (World.fresh wallet now) where
  users _ _ h := by cases h
  endpubs _ _ h := by cases h

theorem advancing_admitted (hforward : ∀ ev ∈ history U (World.fresh wallet now) ms, Happening.Forward U ev) :
    (advancing hforward).Admitted (Pool.start (World.fresh wallet now)) ms :=
  ⟨fun _ hev => hev, fun _ _ => trivial, List.pairwise_of_forall fun _ _ => trivial⟩

theorem counted_run (hforward : ∀ ev ∈ history U (World.fresh wallet now) ms, Happening.Forward U ev) :
    Counted (after U (World.fresh wallet now) ms).state :=
  (Protocol.end_run (D := advancing hforward) counted_fresh (fun _ => trivial) (advancing_admitted hforward)).1

/-- An epoch a user was brought to is behind them at the end. -/
theorem raised_run (hforward : ∀ ev ∈ history U (World.fresh wallet now) ms, Happening.Forward U ev)
    (hev : ev ∈ history U (World.fresh wallet now) ms) (hraises : ev.raises U = some k) :
    Reached (after U (World.fresh wallet now) ms).state k := by
  obtain ⟨hc, _, -, -, hfound⟩ :=
    Protocol.mem_trace_before (D := advancing hforward) counted_fresh (fun _ => trivial) (advancing_admitted hforward) hev
  have hreached := Happening.reached (hforward ev hev) hc hfound hraises
  refine hreached.onward ?_
  exact Pool.rel_of_mem_trace (handler U) (code U) Onward.refl Onward.trans (fun ev hev => Happening.onward (hforward ev hev)) hev

/-- Every epoch a user has passed was raised to. -/
theorem raised_of_reached (hforward : ∀ ev ∈ history U (World.fresh wallet now) ms, Happening.Forward U ev)
    (hr : Reached (after U (World.fresh wallet now) ms).state k) :
    ∃ ev ∈ history U (World.fresh wallet now) ms, ev.raises U = some k := by
  obtain ⟨id, n⟩ := k
  obtain ⟨u, hu, hlow, hhigh⟩ := hr
  have fresh : ∀ id u, (World.fresh wallet now).db.user.get id = some u → ∀ n : Int64, 0 ≤ n.toInt → n.toInt ≤ u.epoch.toInt →
      ∃ ev ∈ history U (World.fresh wallet now) ms, ev.raises U = some (id, n) := by
    intro id u hu
    cases hu
  refine Pool.inv_run (handler U) (code U) (P := Pool.start (World.fresh wallet now)) (I := fun s => ∀ id u,
    s.db.user.get id = some u → ∀ n : Int64, 0 ≤ n.toInt → n.toInt ≤ u.epoch.toInt →
      ∃ ev ∈ history U (World.fresh wallet now) ms, ev.raises U = some (id, n)) fresh ?_ id u hu n hlow hhigh
  intro ev hev hbefore id u' hu' n hlow hhigh
  have change := ev.eff.user_change U ev.input ev.state id
  have hafter : (act U ev.input ev.state ev.eff).2.db.user.get id = some u' := hu'
  rw [hafter] at change
  generalize hget : ev.state.db.user.get id = r at change
  cases change with
  | keep => exact hbefore id u' hget n hlow hhigh
  | create by_ =>
    have hzero : n = 0 := Int64.toInt_inj.1 (Int.le_antisymm hhigh hlow)
    exact ⟨ev, hev, hzero ▸ by_⟩
  | @raise u m by_ =>
    have hm : n.toInt ≤ m.toInt := hhigh
    by_cases hnew : n = m
    · exact ⟨ev, hev, hnew ▸ by_⟩
    · refine hbefore id u hget n hlow ?_
      rcases hforward ev hev id m u by_ hget with rfl | hnext
      · exact hm
      · have hne : n.toInt ≠ m.toInt := fun h => hnew (Int64.toInt_inj.1 h)
        omega
  | @interval u => exact hbefore id u hget n hlow hhigh

theorem Eff.assigned_of_write {β : Type} {e : Eff β} {x : Answer} {id pubkey : String} {n : Int64}
    (h : e.write = some (.assign id n pubkey)) : e.assigned (act U x s e).1 = some (id, n) ∨ (act U x s e).2 = s := by
  cases e with
  | sql q =>
    cases q with
    | insertAssignment i m pk =>
      cases h
      rcases hr : (act U x s (.sql (.insertAssignment id n pubkey))).1 with err | a
      · exact Or.inr (act_sql_error hr)
      · exact Or.inl rfl
    | _ => cases h
  | _ => cases h

theorem Eff.assigned_get {β : Type} {e : Eff β} {x : Answer} (h : e.assigned (act U x s e).1 = some k) :
    ∃ ep, (act U x s e).2.db.endpub.get k = some ep := by
  cases e with
  | sql q =>
    cases q with
    | insertAssignment i m pk =>
      rcases hr : (act U x s (.sql (.insertAssignment i m pk))).1 with err | a
      · rw [hr] at h
        cases h
      · rw [hr] at h
        obtain rfl := Option.some.inj h
        obtain ⟨-, hexec, hs⟩ := act_sql_ok hr
        rw [hs]
        simp only [World.exec, Stmt.exec] at hexec ⊢
        cases hins : s.db.endpub.insert ⟨i, m, pk, s.now⟩ with
        | none => exact Option.ne_none_iff_exists'.1 (Table.insert_eq_none.1 hins)
        | some tab =>
          rw [hins] at hexec
          dsimp only at hexec ⊢
          split at hexec
          · rename_i huser
            rw [if_pos huser]
            exact ⟨_, (Table.get_insert hins _).trans (if_pos rfl)⟩
          · cases hexec
    | _ => cases h
  | _ => cases h

theorem assigned_of_new {ep : Endpub} (hbefore : ev.state.db.endpub.get k = none)
    (hafter : (ev.after (handler U)).db.endpub.get k = some ep) : ev.assigns U = some k := by
  have change := ev.eff.endpub_change U ev.input ev.state k
  have hgot : (act U ev.input ev.state ev.eff).2.db.endpub.get k = some ep := hafter
  rw [hbefore, hgot] at change
  cases change with
  | assign by_ hk =>
    subst hk
    rcases Eff.assigned_of_write (U := U) (x := ev.input) (s := ev.state) by_ with h | h
    · exact h
    · rw [h, hbefore] at hgot
      cases hgot

/-- An assignment was inserted for its key. -/
theorem assigned_of_endpub {ep : Endpub} (hep : (after U (World.fresh wallet now) ms).state.db.endpub.get k = some ep) :
    ∃ ev ∈ history U (World.fresh wallet now) ms, ev.assigns U = some k := by
  have fresh : ∀ k ep, (World.fresh wallet now).db.endpub.get k = some ep →
      ∃ ev ∈ history U (World.fresh wallet now) ms, ev.assigns U = some k := by
    intro k ep hep
    cases hep
  refine Pool.inv_run (handler U) (code U) (P := Pool.start (World.fresh wallet now)) (I := fun s => ∀ k ep,
    s.db.endpub.get k = some ep → ∃ ev ∈ history U (World.fresh wallet now) ms, ev.assigns U = some k) fresh ?_ k ep hep
  intro ev hev hkept k ep hafter
  cases hbefore : ev.state.db.endpub.get k with
  | some ep' => exact hkept k ep' hbefore
  | none => exact ⟨ev, hev, assigned_of_new hbefore hafter⟩

theorem endpub_kept {w : World W} {e : Eff α} {x : Answer} {ep : Endpub} (hep : w.db.endpub.get k = some ep) :
    (act U x w e).2.db.endpub.get k = some ep := by
  have change := e.endpub_change U x w k
  rw [hep] at change
  generalize (act U x w e).2.db.endpub.get k = r at change
  cases change with
  | keep => rfl

/-- An assignment that was inserted is there at the end. -/
theorem endpub_of_assigned (hev : ev ∈ history U (World.fresh wallet now) ms) (hassigns : ev.assigns U = some k) :
    ∃ ep, (after U (World.fresh wallet now) ms).state.db.endpub.get k = some ep := by
  obtain ⟨ep, hep⟩ := Eff.assigned_get hassigns
  refine ⟨ep, ?_⟩
  exact Pool.rel_of_mem_trace (handler U) (code U)
    (R := fun s s' => ∀ ep : Endpub, s.db.endpub.get k = some ep → s'.db.endpub.get k = some ep) (fun _ _ h => h)
    (fun h h' ep hep => h' ep (h ep hep)) (fun ev _ ep => endpub_kept) hev ep hep

/-- Assignments for just the epochs up to the user's own make the last of them the current endpub. -/
theorem advertised_of_contiguous {db : Db} {u : User} {sk : Secret} (hkeyed : Keyed U sk db) (hu : db.user.get u.id = some u)
    (hlow : 0 ≤ u.epoch.toInt)
    (hcontiguous : ∀ n, (∃ ep, db.endpub.get (u.id, n) = some ep) ↔ 0 ≤ n.toInt ∧ n.toInt ≤ u.epoch.toInt) : Advertised U sk db u := by
  refine ⟨?_, hcontiguous⟩
  obtain ⟨ep, hep⟩ := (hcontiguous u.epoch).2 ⟨hlow, Int.le_refl _⟩
  have hkey : ep.key = (u.id, u.epoch) := Table.key_of_get hep
  obtain ⟨huser, hepoch⟩ := Prod.mk.inj hkey
  have hbounds : ∀ ep' ∈ db.endpub.select (fun ep => ep.userId = u.id), 0 ≤ ep'.epoch.toInt ∧ ep'.epoch.toInt ≤ u.epoch.toInt := by
    intro ep' hep'
    obtain ⟨hget, hown⟩ := Table.mem_select.1 hep'
    refine (hcontiguous ep'.epoch).1 ⟨ep', ?_⟩
    rw [← of_decide_eq_true hown]
    exact hget
  refine ⟨ep, hep, ?_, fun _ _ => congrArg Except.ok ?_, fun overlap _ _ hoverlap => ⟨_, rfl, ?_⟩⟩
  · rw [hkeyed.endpub _ ep hep, huser, hepoch]
  · refine Db.highest_of_unique (Table.mem_select.2 ⟨?_, decide_eq_true huser⟩) ?_ ?_
    · rw [hkey]
      exact hep
    · intro ep' hep'
      rw [hepoch]
      exact (hbounds ep' hep').2
    · intro ep' hep' hge
      have hle := (hbounds ep' hep').2
      rw [hepoch] at hge
      have hnum : ep'.epoch = u.epoch := Int64.toInt_inj.1 (Int.le_antisymm hle hge)
      have hget := (Table.mem_select.1 hep').1
      have hkey' : ep'.key = (u.id, u.epoch) := by
        rw [← hnum, ← of_decide_eq_true (Table.mem_select.1 hep').2]
        rfl
      rw [hkey', hep] at hget
      exact (Option.some.inj hget).symm
  · refine Table.mem_select.2 ⟨?_, ?_⟩
    · rw [hkey]
      exact hep
    · have hmax : 0 ≤ (max overlap 0).toInt := by
        show 0 ≤ (if overlap ≤ 0 then 0 else overlap).toInt
        split
        · exact Int.le_refl _
        · exact Int64.le_iff_toInt_le.1 hoverlap
      rw [huser, hu, Option.any_some, hepoch]
      refine decide_eq_true ?_
      omega

/-- While no update of an epoch is a stale one: every user has the endpub they are promised if and only if every epoch
that a user was brought to got its assignment. -/
theorem endpubs_iff (U : Upstream W) (sk : Secret) (wallet : W) (now : Time) (ms : Run)
    (hid : ∀ h ∈ Pool.heads (after U (World.fresh wallet now) ms), ∀ k, h.call.identity = some k → k = sk)
    (hforward : ∀ ev ∈ history U (World.fresh wallet now) ms, Happening.Forward U ev) :
    (∀ id u, (after U (World.fresh wallet now) ms).state.db.user.get id = some u →
      Advertised U sk (after U (World.fresh wallet now) ms).state.db u) ↔
    ∀ ev ∈ history U (World.fresh wallet now) ms, ∀ k, Happening.raises U ev = some k →
      ∃ ev' ∈ history U (World.fresh wallet now) ms, Happening.assigns U ev' = some k := by
  constructor
  · intro h ev hev k hraises
    obtain ⟨id, n⟩ := k
    obtain ⟨u, hu, hlow, hhigh⟩ := raised_run hforward hev hraises
    have hid : u.id = id := Table.key_of_get hu
    obtain ⟨ep, hep⟩ := ((h id u hu).contiguous n).2 ⟨hlow, hhigh⟩
    rw [hid] at hep
    exact assigned_of_endpub hep
  · intro h id u hu
    have hcounted := counted_run hforward
    have hself : u.id = id := Table.key_of_get hu
    subst hself
    refine advertised_of_contiguous (keyed_run wallet now ms hid) hu (hcounted.users _ u hu) ?_
    intro n
    constructor
    · rintro ⟨ep, hep⟩
      obtain ⟨u', hu', hlow, hhigh⟩ := hcounted.endpubs _ ep hep
      obtain rfl : u = u' := Option.some.inj (hu.symm.trans hu')
      exact ⟨hlow, hhigh⟩
    · rintro ⟨hlow, hhigh⟩
      obtain ⟨ev, hev, hraises⟩ := raised_of_reached (k := (u.id, n)) hforward ⟨u, hu, hlow, hhigh⟩
      obtain ⟨ev', hev', hassigns⟩ := h ev hev _ hraises
      exact endpub_of_assigned hev' hassigns

end

/-- Alice is created, and her rotation reads her row and sets the epoch; the insert of the assignment is answered `x`. -/
def rotation (x : Answer) : Run :=
  [.start (.createUser [109] (some "alice") none), .run 0 {}, .run 0 {}, .run 0 {}, .run 0 {},
    .start (.rotateUser [109] "alice"), .run 1 {}, .run 1 {}, .run 1 x]

theorem endpubs_rotation :
    Advertised Sample.upstream [109] (after Sample.upstream Sample.world (rotation {})).state.db ⟨"alice", none, 1, 1000, 1000⟩ :=
  (endpubs_iff Sample.upstream [109] Sample.wallet 1000 (rotation {}) (by decide) (by decide)).2 (by decide) "alice" _ rfl

/-! ## A rotation cut short -/

/-- When that insert fails, she is at epoch 1 and has no endpub for it. -/
theorem rotation_unadvertised : ¬ ∀ ms : Run,
    (∀ h ∈ Pool.heads (after Sample.upstream Sample.world ms), ∀ k, h.call.identity = some k → k = [109]) →
    ∀ id u, (after Sample.upstream Sample.world ms).state.db.user.get id = some u →
      Advertised Sample.upstream [109] (after Sample.upstream Sample.world ms).state.db u := by
  intro h
  have hadvertised := h (rotation { fault := some "disk I/O error" }) (by decide) "alice" ⟨"alice", none, 1, 1000, 1000⟩ rfl
  obtain ⟨ep, hep, -⟩ := hadvertised.current
  cases hep

end

end GoblinPay
