import GoblinPay.Async.Unwinding
import GoblinPay.Runs.Visits

/-!
# The events of other senders

The markers of wraps and of rumors share one set, and the id of a rumor is what its sender wrote. A visit
reads and writes the markers its event names only, so the payments of one payer are out of the reach of
every event that names no id of a payment still to come.
-/

namespace GoblinPay

open Async

/-- An operation that touches, of the markers, those in `N` and those of slates. -/
def Eff.Within (N : String → Prop) {β : Type} : Eff β → Prop
  | .isSeen key => N key
  | .mark key => N key ∨ ∃ slateId, key = "slate:" ++ slateId
  | .restart => False
  | _ => True

theorem Eff.Outside.within {N : String → Prop} {β : Type} {e : Eff β} (h : e.Outside) : e.Within N := by
  cases e <;> first | exact h.elim | exact trivial

section

variable {W : Type} (U : Upstream W) (cfg : Config) (master : Secret)

/-- The ids an event names: its own, and that of a rumor some key finds in it. -/
def Names (event : NostrEvent) (id : String) : Prop :=
  id = event.id ∨ ∃ keys u, Wrap.unwrapGiftWrap U keys event = .ok u ∧ id = u.rumor.id

/-- Some key finds in the event a rumor under the seal of `payer`. -/
def SentBy (payer : String) (event : NostrEvent) : Prop :=
  ∃ keys u, Wrap.unwrapGiftWrap U keys event = .ok u ∧ u.sender = payer

variable {U cfg master}

variable (cfg master) in
/-- A visit touches the markers its event names, and no others but a slate's. -/
theorem within_handleWrap (event : NostrEvent) : (Ingest.handleWrap U cfg master event).Only (Eff.Within (Names U event)) := by
  have own : Names U event event.id := Or.inl rfl
  have rumor : ∀ keys u, Wrap.unwrapGiftWrap U keys event = .ok u → Names U event u.rumor.id := fun keys u hu => Or.inr ⟨keys, u, hu, rfl⟩
  have ingests : Ingests U (Eff.Within (Names U event)) event :=
    { outside := fun e he => he.within
      wrap := ⟨own, Or.inl own⟩
      rumor := fun keys u hu => ⟨rumor keys u hu, Or.inl (rumor keys u hu)⟩
      slate := fun slateId => Or.inr ⟨slateId, rfl⟩
      allow := fun _ _ _ _ => trivial
      snapshot := trivial }
  exact ingests.handleWrap cfg master

/-! ## Two runs -/

/-- The two states agree on the markers in `K`. -/
def Agree (K : String → Prop) (s t : World W) : Prop := ∀ key, K key → (key ∈ s.memory.seen ↔ key ∈ t.memory.seen)

/-- What a visit reads of the markers, it reads alike in states that agree on what its event names. -/
theorem ingesting_agree {K N : String → Prop} (hN : ∀ key, N key → K key) {β : Type} (e : Eff β) (x : Answer × World W)
    (s t : World W) (he : e.Within N) (h : Agree K s t) :
    ((ingesting U).act e x s).1 = ((ingesting U).act e x t).1 ∧ Agree K ((ingesting U).act e x s).2 ((ingesting U).act e x t).2 := by
  constructor
  · cases e
    case isSeen key =>
      have hkey := h key (hN key he)
      simp only [ingesting, Handler.amid, handler, act, World.keepSeen, List.contains_eq_mem, hkey]
    all_goals first | rfl | skip
    all_goals simp only [ingesting, Handler.amid, handler, act, World.keepSeen]
    all_goals first | (split <;> rfl) | (simp only [Memory.allow]; split <;> rfl)
  · have hrestart : ¬ e.Restarts := by cases e <;> first | exact fun h => h | exact he.elim
    intro key hkey
    rw [ingesting_seen hrestart, ingesting_seen hrestart, List.mem_append, List.mem_append, h key hkey]

/-- A visit leaves the markers outside its event's names alone. -/
theorem Visit.agree {K : String → Prop} (v : Visit W) (s : World W) (apart : ∀ key, Names U v.event key → ¬ K key)
    (noSlate : ∀ slateId, ¬ K ("slate:" ++ slateId)) : Agree K s (v.after U cfg master s) := by
  refine Prog.exec_keeps (K := fun t => Agree K s t) (within_handleWrap cfg master v.event) (fun e x t he hK => ?_)
    (fun _ _ => Iff.rfl) v.inputs
  have hrestart : ¬ e.Restarts := by cases e <;> first | exact fun h => h | exact he.elim
  intro key hkey
  rw [hK key hkey, ingesting_seen hrestart, List.mem_append]
  have unmarked : key ∉ e.marker.toList := by
    cases e <;> first | exact List.not_mem_nil | skip
    rename_i marked
    intro hmem
    obtain rfl : key = marked := by simpa [Eff.marker] using hmem
    rcases he with hnames | ⟨slateId, rfl⟩
    · exact apart _ hnames hkey
    · exact noSlate slateId hkey
  simp [unmarked]

open Classical in
variable (U cfg master) in
/-- Whether the slatepacks of `payer` reached the receiver, wrap by wrap. -/
noncomputable def deliveries (payer : String) (vs : List (Visit W)) (s : World W) : List Bool :=
  observed (fun v s => Visit.after U cfg master v s) (fun v s => v.reached U cfg master s) (fun v => SentBy U payer v.event) vs s

open Classical in
variable (U) in
/-- The payer's own visits in a run. -/
noncomputable def visitsOf (payer : String) (vs : List (Visit W)) : List (Visit W) := vs.filter fun v => SentBy U payer v.event

variable (U) in
/-- An id of the payer's events in the run. -/
def OwnId (payer : String) (vs : List (Visit W)) (key : String) : Prop :=
  ∃ v ∈ vs, SentBy U payer v.event ∧ Names U v.event key

variable (U) in
/-- No event of another sender names an id of an event of the payer's that comes after it. -/
def Apart (payer : String) (vs : List (Visit W)) : Prop :=
  ∀ past v rest, vs = past ++ v :: rest → ¬ SentBy U payer v.event → ∀ key, Names U v.event key → ¬ OwnId U payer rest key

theorem ownId_visitsOf {payer key : String} {vs : List (Visit W)} : OwnId U payer (visitsOf U payer vs) key ↔ OwnId U payer vs key := by
  classical
  constructor
  · rintro ⟨v, hv, hsent, hnames⟩
    exact ⟨v, (List.mem_filter.1 hv).1, hsent, hnames⟩
  · rintro ⟨v, hv, hsent, hnames⟩
    exact ⟨v, List.mem_filter.2 ⟨hv, decide_eq_true hsent⟩, hsent, hnames⟩

theorem OwnId.append {payer key : String} {past rest : List (Visit W)} (h : OwnId U payer rest key) : OwnId U payer (past ++ rest) key := by
  obtain ⟨v, hv, hsent, hnames⟩ := h
  exact ⟨v, List.mem_append_right _ hv, hsent, hnames⟩

/-- What the payer's visits still to come read of the markers is hidden from visits that name none of their ids. -/
theorem unwinds_visits (payer : String) : Unwinds (fun (v : Visit W) s => v.after U cfg master s) (fun v s => v.reached U cfg master s)
    (fun v => SentBy U payer v.event)
    (fun left v => (∀ key, Names U v.event key → ¬ OwnId U payer left key) ∧ ∀ slateId, ¬ OwnId U payer left ("slate:" ++ slateId))
    (fun left => Agree (OwnId U payer left)) := by
  have related : ∀ {left : List (Visit W)} {v : Visit W} {s t : World W}, SentBy U payer v.event → Agree (OwnId U payer (v :: left)) s t →
      Agree (OwnId U payer (v :: left)) (v.after U cfg master s) (v.after U cfg master t) ∧
        v.gates U cfg master s = v.gates U cfg master t := by
    intro left v s t hsent hR
    have names : ∀ key, Names U v.event key → OwnId U payer (v :: left) key := fun key hkey => ⟨v, List.mem_cons_self, hsent, hkey⟩
    exact Prog.exec_related (within_handleWrap cfg master v.event) (ingesting_agree names) hR ()
      (fun {_} (a : Gates) => a.gain) ({} : Gates) v.inputs
  constructor
  · exact fun {left v s} hok _ => v.agree s hok.1 hok.2
  · intro left v s t hsent hR key hkey
    have later : OwnId U payer ([v] ++ left) key := hkey.append
    exact (related hsent hR).1 key later
  · exact fun hsent hR => congrArg Gates.reached (related hsent hR).2
  · exact fun h key hkey => (h key hkey).symm
  · exact fun h h' key hkey => (h key hkey).trans (h' key hkey)

variable (U cfg master) in
/-- Two runs that differ in the events of other senders only, whose events name no id of an event of the payer's that comes
after them, deliver the payer's slatepacks alike, whatever the limiters, the directory and the receiver answer. -/
theorem deliveries_eq (payer : String) (s : World W) (vs vs' : List (Visit W)) (same : visitsOf U payer vs = visitsOf U payer vs')
    (hids : ∀ slateId, ¬ OwnId U payer vs ("slate:" ++ slateId)) (apart : Apart U payer vs) (apart' : Apart U payer vs') :
    deliveries U cfg master payer vs s = deliveries U cfg master payer vs' s := by
  classical
  have hids' : ∀ slateId, ¬ OwnId U payer vs' ("slate:" ++ slateId) := by
    intro slateId
    rw [← ownId_visitsOf, ← same, ownId_visitsOf]
    exact hids slateId
  have spared : ∀ {ws : List (Visit W)}, Apart U payer ws → (∀ slateId, ¬ OwnId U payer ws ("slate:" ++ slateId)) →
      Spared (fun v => SentBy U payer v.event) (fun left v => (∀ key, Names U v.event key → ¬ OwnId U payer left key) ∧
        ∀ slateId, ¬ OwnId U payer left ("slate:" ++ slateId)) ws := by
    intro ws apart noSlate past v rest hws hforeign
    refine ⟨fun key hnames h => apart past v rest hws hforeign key hnames (ownId_visitsOf.1 h), fun slateId h => noSlate slateId ?_⟩
    rw [hws, List.append_cons]
    exact (ownId_visitsOf.1 h).append
  exact (unwinds_visits payer).observed_eq (spared apart hids) (spared apart' hids') same fun _ _ => Iff.rfl

end

/-! ## A rival's rumor -/

namespace Sample

/-- The sample till, with a second sender: its rumors name the id `named`. -/
def rivalUpstream (named : String) : Upstream Wallet :=
  { upstream with
    eventFromJson := fun json => .ok ⟨json, 13, if json = "junk" then "rival" else "payer", json, [], 0, ""⟩
    unsignedEventFromJson := fun json =>
      .ok (if json = "junk" then ⟨named, 14, "rival", json, [], 0⟩ else ⟨json, 14, "payer", json, [], 0⟩) }

/-- The rival's wrap, with no payment in it. -/
def junk : Visit Wallet := ⟨⟨"evil", 1059, "ephemeral", "junk", [["p", "m"]], 0, ""⟩, List.replicate 30 ({}, world)⟩

variable {named : String}

theorem payment_sent : SentBy (rivalUpstream named) "payer" payment.event := ⟨[109], _, rfl, rfl⟩

theorem payment_names {id : String} (h : Names (rivalUpstream named) payment.event id) :
    id = "wrap" ∨ id = "BEGINSLATEPACK.ENDSLATEPACK." := by
  rcases h with rfl | ⟨keys, u, hu, rfl⟩
  · exact Or.inl rfl
  · cases hu
    exact Or.inr rfl

theorem junk_names {id : String} (h : Names (rivalUpstream named) junk.event id) : id = "evil" ∨ id = named := by
  rcases h with rfl | ⟨keys, u, hu, rfl⟩
  · exact Or.inl rfl
  · cases hu
    exact Or.inr rfl

theorem junk_foreign : ¬ SentBy (rivalUpstream named) "payer" junk.event := by
  rintro ⟨keys, u, hu, hsender⟩
  cases hu
  simp [junk] at hsender

theorem payment_visits : visitsOf (rivalUpstream named) "payer" [junk, payment] = visitsOf (rivalUpstream named) "payer" [payment] := by
  simp [visitsOf, junk_foreign, payment_sent]

end Sample

open Sample in
/-- A rival that names its own id does not stand in the payment's way. -/
theorem payment_delivered : deliveries (rivalUpstream "other") config [109] "payer" [junk, payment] world =
    deliveries (rivalUpstream "other") config [109] "payer" [payment] world := by
  have own : ∀ {id}, OwnId (rivalUpstream "other") "payer" [junk, payment] id → id = "wrap" ∨ id = "BEGINSLATEPACK.ENDSLATEPACK." := by
    rintro id ⟨v, hv, hsent, hnames⟩
    simp only [List.mem_cons, List.not_mem_nil, or_false] at hv
    rcases hv with rfl | rfl
    · exact absurd hsent junk_foreign
    · exact payment_names hnames
  refine deliveries_eq (rivalUpstream "other") config [109] "payer" world [junk, payment] [payment] payment_visits
    (fun slateId h => ?_) (fun past v rest hvs hforeign id hnames h => ?_) fun past v rest hvs hforeign id hnames h => ?_
  · rcases own h with h | h
    · exact absurd (congrArg (fun s => s.toList.head?) h) (by simp)
    · exact absurd (congrArg (fun s => s.toList.head?) h) (by simp)
  · have later : OwnId (rivalUpstream "other") "payer" [junk, payment] id := by
      rw [hvs, List.append_cons]
      exact h.append
    have hv : v ∈ [junk, payment] := hvs ▸ List.mem_append_right past List.mem_cons_self
    simp only [List.mem_cons, List.not_mem_nil, or_false] at hv
    rcases hv with rfl | rfl
    · rcases own later with rfl | rfl <;> rcases junk_names hnames with h | h <;> exact absurd h (by decide)
    · exact absurd payment_sent hforeign
  · have hv : v ∈ [payment] := hvs ▸ List.mem_append_right past List.mem_cons_self
    obtain rfl := List.mem_singleton.1 hv
    exact absurd payment_sent hforeign

open Sample in
/-- A rival that names the public id of the wrap does. -/
theorem payment_suppressed :
    visitsOf (rivalUpstream "wrap") "payer" [junk, payment] = visitsOf (rivalUpstream "wrap") "payer" [payment] ∧
    deliveries (rivalUpstream "wrap") config [109] "payer" [junk, payment] world ≠
      deliveries (rivalUpstream "wrap") config [109] "payer" [payment] world := by
  refine ⟨payment_visits, ?_⟩
  have marked : payment.reached (rivalUpstream "wrap") config [109] (junk.after (rivalUpstream "wrap") config [109] world) = false := by
    decide
  have fresh : payment.reached (rivalUpstream "wrap") config [109] world = true := by decide
  simp [deliveries, observed, junk_foreign, payment_sent, marked, fresh]

end GoblinPay
