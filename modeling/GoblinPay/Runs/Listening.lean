import GoblinPay.Async.Process
import GoblinPay.Nostr.Relay

/-!
# What the service listens to

`last_watched` is all the service remembers of what it asked the relays for. It is set at the start and
after a refresh whatever became of the catch-up, so it says what is subscribed to once some subscription has
succeeded, and what was fetched of the keys whose last fetch succeeded (`run_attentive`).
-/

namespace GoblinPay

open Async

namespace RelayEff

variable {β : Type}

/-- What is asked of the relays. -/
def asks : RelayEff β → Option RelayFilter
  | .fetchEvents filter | .subscribe filter => some filter
  | _ => none

def subscribesTo : RelayEff β → Option (Finset String)
  | .subscribe filter => some filter.pubkeys
  | _ => none

/-- The keys that a fetch covered since a subscription last went without them. -/
def cover (covered : Finset String) : RelayEff β → β → Finset String
  | .fetchEvents filter, .ok _ => covered ∪ filter.pubkeys
  | .subscribe filter, .ok _ => covered ∩ filter.pubkeys
  | _, _ => covered

/-- A fetch that asks for `key` fails. -/
def Misses (key : String) (e : RelayEff β) (x : RelayAnswer) : Prop :=
  match e with
  | .fetchEvents filter => key ∈ filter.pubkeys ∧ x.fault ≠ none
  | _ => False

/-- A fetch that asks for `key` succeeds. -/
def Catches (key : String) (e : RelayEff β) (x : RelayAnswer) : Prop :=
  match e with
  | .fetchEvents filter => key ∈ filter.pubkeys ∧ x.fault = none
  | _ => False

/-- A subscription succeeds. -/
def Subscribes (e : RelayEff β) (x : RelayAnswer) : Prop :=
  match e with
  | .subscribe _ => x.fault = none
  | _ => False

end RelayEff

namespace Relay

/-- What a run has done so far: the keys it covered, those whose last fetch failed, and whether it is subscribed. -/
structure Progress where
  covered : Finset String := ∅
  missed : Finset String := ∅
  subscribed : Bool := false

namespace Progress

variable {α β : Type}

def gain (g : Progress) : RelayEff β → β → Progress
  | .fetchEvents filter, .ok _ => { g with covered := g.covered ∪ filter.pubkeys, missed := g.missed \ filter.pubkeys }
  | .fetchEvents filter, .error _ => { g with missed := g.missed ∪ filter.pubkeys }
  | .subscribe filter, .ok _ => { g with covered := g.covered ∩ filter.pubkeys, subscribed := true }
  | _, _ => g

variable {g : Progress} {e : RelayEff β} {x : RelayAnswer} {s : Relays} {key : String}

theorem covered_gain (e : RelayEff β) (b : β) : (g.gain e b).covered = e.cover g.covered b := by
  cases e with
  | fetchEvents filter => cases b <;> rfl
  | subscribe filter => cases b <;> rfl
  | _ => rfl

theorem mem_missed_gain : key ∈ (g.gain e (relayHandler.act e x s).1).missed ↔
    e.Misses key x ∨ (key ∈ g.missed ∧ ¬ e.Catches key x) := by
  cases e with
  | fetchEvents filter =>
    rcases hx : x.fault with _ | m
    · simp [relayHandler, gain, RelayEff.Misses, RelayEff.Catches, hx]
    · simp [relayHandler, gain, RelayEff.Misses, RelayEff.Catches, hx, or_comm]
  | subscribe filter =>
    rcases hx : x.fault with _ | m <;> simp [relayHandler, gain, RelayEff.Misses, RelayEff.Catches, hx]
  | _ => simp [gain, RelayEff.Misses, RelayEff.Catches]

theorem subscribed_gain : (g.gain e (relayHandler.act e x s).1).subscribed = true ↔ e.Subscribes x ∨ g.subscribed = true := by
  cases e with
  | fetchEvents filter =>
    rcases hx : x.fault with _ | m <;> simp [relayHandler, gain, RelayEff.Subscribes, hx]
  | subscribe filter =>
    rcases hx : x.fault with _ | m <;> simp [relayHandler, gain, RelayEff.Subscribes, hx]
  | _ => simp [gain, RelayEff.Subscribes]

/-- The progress that the operations `T` come to. -/
def after (g : Progress) (T : List (Event RelayEff Unit RelayAnswer Relays)) : Progress :=
  T.foldl (fun g ev => g.gain ev.eff (ev.answer relayHandler)) g

variable {T : List (Event RelayEff Unit RelayAnswer Relays)}

/-- A key is missed where the last fetch that asked for it failed. -/
theorem mem_missed_after : key ∈ (g.after T).missed ↔
    Pending (fun ev => ev.eff.Misses key ev.input) (fun ev => ev.eff.Catches key ev.input) T ∨
      (key ∈ g.missed ∧ ∀ ev ∈ T, ¬ ev.eff.Catches key ev.input) := by
  induction T generalizing g with
  | nil => simp [after, Pending]
  | cons ev T ih =>
    refine (ih (g := g.gain ev.eff (ev.answer relayHandler))).trans ?_
    rw [Event.answer, mem_missed_gain, pending_cons, List.forall_mem_cons]
    tauto

theorem subscribed_after : (g.after T).subscribed = true ↔ (∃ ev ∈ T, ev.eff.Subscribes ev.input) ∨ g.subscribed = true := by
  induction T generalizing g with
  | nil => simp [after]
  | cons ev T ih =>
    refine (ih (g := g.gain ev.eff (ev.answer relayHandler))).trans ?_
    rw [Event.answer, subscribed_gain, List.exists_mem_cons_iff, or_left_comm, or_assoc]

end Progress

/-- The active subscription, if there is one, is for `last`, and of `last` the keys are covered whose last fetch succeeded. -/
structure Attentive (last : Finset String) (g : Progress) (s : Relays) : Prop where
  active : s.active.map RelayFilter.pubkeys = if g.subscribed then some last else none
  covered : ∀ key ∈ last, key ∈ g.covered ↔ key ∉ g.missed
  within : g.covered ⊆ last

/-- The contract of the service, whatever succeeds. -/
abbrev listening : Discipline relayHandler Unit Progress :=
  .solo relayHandler (fun _ _ => True) (fun _ _ _ => True) Progress.gain

variable {α : Type} {g : Progress} {last : Finset String} {s : Relays} {x : RelayAnswer} {filter : RelayFilter}

theorem fetch_ok (hx : x.fault = none) : relayHandler.act (.fetchEvents filter) x s = (.ok x.events, s) := by
  simp only [relayHandler, hx]

theorem fetch_error {m : String} (hx : x.fault = some m) :
    relayHandler.act (.fetchEvents filter) x s = (.error m, s) := by
  simp only [relayHandler, hx]

theorem subscribe_ok (hx : x.fault = none) : relayHandler.act (.subscribe filter) x s = (.ok (), ⟨some filter⟩) := by
  simp only [relayHandler, hx]

theorem subscribe_error {m : String} (hx : x.fault = some m) :
    relayHandler.act (.subscribe filter) x s = (.error m, s) := by
  simp only [relayHandler, hx]

theorem listening_lookback :
    Meets listening () (fun _ g' s' => g' = g ∧ s' = s) lookback g s :=
  Meets.soloCall trivial fun _ _ => Meets.soloRet ⟨rfl, rfl⟩

theorem listening_handleAll (events : List NostrEvent) :
    Meets listening () (fun _ g' s' => g' = g ∧ s' = s) (handleAll events) g s := by
  induction events with
  | nil => exact Meets.soloRet ⟨rfl, rfl⟩
  | cons event events ih => exact Meets.soloCall trivial fun _ _ => ih

/-- A catch-up covers the keys of its filter, or misses them. -/
theorem listening_catchUp (filter : RelayFilter) :
    Meets listening () (fun _ g' s' => s' = s ∧
      (g' = { g with covered := g.covered ∪ filter.pubkeys, missed := g.missed \ filter.pubkeys } ∨
        g' = { g with missed := g.missed ∪ filter.pubkeys })) (catchUp filter) g s := by
  refine Meets.soloCall trivial fun x _ => ?_
  rcases hx : x.fault with _ | m
  · rw [fetch_ok hx]
    refine (listening_handleAll x.events).mono fun _ g' s' _ h => ?_
    exact ⟨h.2, Or.inl h.1⟩
  · rw [fetch_error hx]
    exact Meets.soloRet ⟨rfl, Or.inr rfl⟩

/-- The start. -/
theorem listening_start (hs : s.active = none) : Meets listening () Attentive start {} s := by
  refine Meets.soloCall trivial fun x _ => ?_
  generalize (relayHandler.act RelayEff.watched x s).1.toFinset = last
  refine Meets.andThen listening_lookback fun since g s₁ _ h => ?_
  obtain ⟨rfl, rfl⟩ := h
  refine Meets.andThen (listening_catchUp _) fun _ g s₂ _ h => ?_
  obtain ⟨rfl, caught⟩ := h
  have covered : ∀ key ∈ last, key ∈ g.covered ↔ key ∉ g.missed := by
    intro key hkey
    rcases caught with rfl | rfl <;> simp [watchFilter, Progress.gain, hkey]
  have within : g.covered ⊆ last := by
    rcases caught with rfl | rfl <;> simp [watchFilter, Progress.gain]
  have unsubscribed : g.subscribed = false := by
    rcases caught with rfl | rfl <;> rfl
  refine Meets.soloCall trivial fun y _ => ?_
  rcases hy : y.fault with _ | m
  · rw [subscribe_ok hy]
    refine Meets.soloRet ⟨rfl, fun key hkey => ?_, Finset.inter_subset_right⟩
    simp [Progress.gain, watchFilter, hkey, covered key hkey]
  · rw [subscribe_error hy]
    refine Meets.soloRet ⟨?_, covered, within⟩
    simp [Progress.gain, hs, unsubscribed]

/-- A refresh tick keeps the subscription and the coverage, whatever succeeds. -/
theorem listening_refresh (h : Attentive last g s) :
    Meets listening () Attentive (refreshSubscription last) g s := by
  refine Meets.soloCall trivial fun x _ => ?_
  generalize hcurrent : (relayHandler.act RelayEff.watched x s).1.toFinset = current
  have added : (planRefresh last current).added.toFinset = current \ last := Finset.sort_toFinset _ _
  dsimp only
  split
  swap
  · exact Meets.soloRet h
  refine Meets.andThen listening_lookback fun since g₁ s₁ _ hg => ?_
  obtain ⟨rfl, rfl⟩ := hg
  refine Meets.soloCall trivial fun y _ => ?_
  rcases hy : y.fault with _ | m
  swap
  · rw [subscribe_error hy]
    exact Meets.soloRet h
  rw [subscribe_ok hy]
  dsimp only
  split
  · rename_i hnone
    rw [hnone, List.toFinset_nil] at added
    have kept : current ⊆ last := Finset.sdiff_eq_empty_iff_subset.1 added.symm
    refine Meets.soloRet ⟨rfl, fun key hkey => ?_, Finset.inter_subset_right⟩
    simp [Progress.gain, watchFilter, hkey, h.covered key (kept hkey)]
  · refine Meets.andThen (listening_catchUp _) fun _ g' s₂ _ hg => ?_
    obtain ⟨rfl, caught⟩ := hg
    refine Meets.soloRet ⟨?_, fun key hkey => ?_, ?_⟩
    · rcases caught with rfl | rfl <;> rfl
    · by_cases hlast : key ∈ last
      · rcases caught with rfl | rfl <;>
          simp [Progress.gain, watchFilter, added, hkey, hlast, h.covered key hlast]
      · have uncovered : key ∉ g₁.covered := fun hcovered => hlast (h.within hcovered)
        rcases caught with rfl | rfl <;>
          simp [Progress.gain, watchFilter, added, hkey, hlast, uncovered]
    · rcases caught with rfl | rfl
      · refine Finset.union_subset Finset.inter_subset_right ?_
        rw [watchFilter, added]
        exact Finset.sdiff_subset
      · exact Finset.inter_subset_right

theorem listening_serve (n : Nat) (h : Attentive last g s) : Meets listening () Attentive (serve n last) g s := by
  induction n generalizing last g s with
  | zero => exact Meets.soloRet h
  | succ n ih =>
    refine Meets.soloCall trivial fun x _ => ?_
    generalize (relayHandler.act RelayEff.turn x s).1 = turn
    cases turn with
    | event event => exact Meets.soloCall trivial fun _ _ => ih h
    | other => exact ih h
    | lagged => exact ih h
    | closed => exact Meets.soloRet h
    | tick => exact Meets.andThen (listening_refresh h) fun _ _ _ _ h => ih h

theorem listening_run (n : Nat) (hs : s.active = none) : Meets listening () Attentive (run n) {} s :=
  Meets.andThen (listening_start hs) fun _ _ _ _ h => listening_serve n h

/-- A tick that asks the relays for nothing found the set it knew. -/
theorem tick_idle {ys : List RelayAnswer} {last' : Finset String} {s' : Relays}
    (hret : (refreshSubscription last).exec relayHandler (x :: ys) s = (.ret last', s'))
    (idle : ∀ ev ∈ (refreshSubscription last).events relayHandler () (x :: ys) s, ev.eff.asks = none) :
    x.watched.toFinset = last := by
  by_contra hne
  have changed : (planRefresh last x.watched.toFinset).changed = true := decide_eq_true (Ne.symm hne)
  cases ys with
  | nil =>
    simp [refreshSubscription, relayHandler, Prog.exec, changed, lookback] at hret
  | cons y ys =>
    cases ys with
    | nil => simp [refreshSubscription, relayHandler, Prog.exec, changed, lookback] at hret
    | cons z ys =>
      simp [refreshSubscription, relayHandler, Prog.events, changed, lookback, RelayEff.asks] at idle

/-- A tick that finds the set it knew does nothing. -/
theorem tick_same {last : Finset String} (hsame : x.watched.toFinset = last) :
    (refreshSubscription last).exec relayHandler [x] s = (.ret last, s) ∧
      ∀ ev ∈ (refreshSubscription last).events relayHandler () [x] s, ev.eff.asks = none := by
  have unchanged : (planRefresh last x.watched.toFinset).changed = false := decide_eq_false (not_not.2 hsame.symm)
  constructor
  · simp [refreshSubscription, relayHandler, Prog.exec, unchanged]
  · simp [refreshSubscription, relayHandler, Prog.events, RelayEff.asks]

/-- A tick that finds another set subscribes to it, and remembers the old one if that fails. -/
theorem tick_retries (hne : x.watched.toFinset ≠ last) (y z : RelayAnswer) (ys : List RelayAnswer) :
    (∃ ev ∈ (refreshSubscription last).events relayHandler () (x :: y :: z :: ys) s,
      ev.eff.subscribesTo = some x.watched.toFinset) ∧
    (z.fault ≠ none → (refreshSubscription last).exec relayHandler (x :: y :: z :: ys) s = (.ret last, s)) := by
  have changed : (planRefresh last x.watched.toFinset).changed = true := decide_eq_true (Ne.symm hne)
  constructor
  · simp [refreshSubscription, relayHandler, Prog.events, changed, lookback, RelayEff.subscribesTo, watchFilter]
  · intro hz
    obtain ⟨m, hm⟩ := Option.ne_none_iff_exists'.1 hz
    simp [refreshSubscription, relayHandler, Prog.exec, changed, lookback, hm]

/-- The operations of a run. -/
def asked (n : Nat) (xs : List RelayAnswer) (s : Relays) : List (Event RelayEff Unit RelayAnswer Relays) :=
  (run n).events relayHandler () xs s

/-- The keys that a run covered. -/
def coveredIn (n : Nat) (xs : List RelayAnswer) (s : Relays) : Finset String :=
  (asked n xs s).foldl (fun c ev => RelayEff.cover c ev.eff (ev.answer relayHandler)) ∅

theorem covered_after (n : Nat) (xs : List RelayAnswer) (s : Relays) :
    (({} : Progress).after (asked n xs s)).covered = coveredIn n xs s := by
  refine (List.foldl_hom Progress.covered fun g (ev : Event RelayEff Unit RelayAnswer Relays) => ?_).symm
  exact (Progress.covered_gain ev.eff (ev.answer relayHandler)).symm

/-- Wherever a run has come to: a tick that does nothing leaves the subscription on the watched set if and only if some
subscription of the run succeeded; a key of the last watched set was covered if and only if the last fetch that asked for it
succeeded; and a tick that finds another set subscribes to it, as long as that fails. -/
theorem run_attentive (n : Nat) (xs : List RelayAnswer) (s₀ : Relays) (hs₀ : s₀.active = none)
    {last : Finset String} {s : Relays} (hret : (run n).exec relayHandler xs s₀ = (.ret last, s)) :
    ((∀ x ys last' s', (refreshSubscription last).exec relayHandler (x :: ys) s = (.ret last', s') →
      (∀ ev ∈ (refreshSubscription last).events relayHandler () (x :: ys) s, ev.eff.asks = none) →
        s.active.map RelayFilter.pubkeys = some x.watched.toFinset) ↔
      ∃ ev ∈ asked n xs s₀, ev.eff.Subscribes ev.input) ∧
    (∀ key ∈ last, key ∈ coveredIn n xs s₀ ↔
      ¬ Pending (fun ev => ev.eff.Misses key ev.input) (fun ev => ev.eff.Catches key ev.input) (asked n xs s₀)) ∧
    ∀ x y z ys, x.watched.toFinset ≠ last →
      (∃ ev ∈ (refreshSubscription last).events relayHandler () (x :: y :: z :: ys) s,
        ev.eff.subscribesTo = some x.watched.toFinset) ∧
      (z.fault ≠ none → (refreshSubscription last).exec relayHandler (x :: y :: z :: ys) s = (.ret last, s)) := by
  have attentive : Attentive last (({} : Progress).after (asked n xs s₀)) s := by
    rcases (listening_run n hs₀).soloExec xs fun _ _ => trivial with ⟨last', hlast, h⟩ | ⟨hstopped, -⟩
    · rw [hret] at hlast h
      cases hlast
      exact h
    · rw [hret] at hstopped
      exact absurd rfl (hstopped last)
  have subscribed : (({} : Progress).after (asked n xs s₀)).subscribed = true ↔ ∃ ev ∈ asked n xs s₀, ev.eff.Subscribes ev.input := by
    rw [Progress.subscribed_after]
    simp
  refine ⟨⟨fun follows => ?_, fun h x ys last' s' htick idle => ?_⟩, fun key hkey => ?_,
    fun x y z ys hne => tick_retries hne y z ys⟩
  · have same : ({ watched := last.sort (· ≤ ·) } : RelayAnswer).watched.toFinset = last := Finset.sort_toFinset _ _
    have active := follows { watched := last.sort (· ≤ ·) } [] last s (tick_same same).1 (tick_same same).2
    rw [attentive.active] at active
    by_contra hnone
    rw [← subscribed, Bool.not_eq_true] at hnone
    rw [hnone] at active
    cases active
  · rw [tick_idle htick idle, attentive.active, subscribed.2 h]
    rfl
  · rw [← covered_after, attentive.covered key hkey, Progress.mem_missed_after]
    simp

/-- The start with two keys, a lagging notification, and a tick. -/
def steady : List RelayAnswer :=
  [{ watched := ["m", "k"] }, { now := 300000 }, {}, {}, { turn := .lagged 3 }, {}, { watched := ["k", "m"] }]

theorem steady_attentive : ∃ s, (run 2).exec relayHandler steady ⟨none⟩ = (.ret {"m", "k"}, s) ∧
    {"m", "k"} ⊆ coveredIn 2 steady ⟨none⟩ := by
  have answered : ∀ x ∈ steady, x.fault = none := by decide
  have attentive := @run_attentive 2 steady ⟨none⟩ rfl {"m", "k"} _ rfl
  refine ⟨_, rfl, fun key hkey => (attentive.2.1 key hkey).2 ?_⟩
  rintro ⟨past, ev, since, htrace, missed, -⟩
  have sure := answered _ (Prog.input_mem_of_events (htrace ▸ List.mem_append_right past List.mem_cons_self))
  revert missed
  unfold RelayEff.Misses
  split
  · exact fun missed => missed.2 sure
  · exact id

/-- The start with the master key, whose subscription fails. -/
def deaf : List RelayAnswer := [{ watched := ["m"] }, { now := 300000 }, {}, { fault := some "no relay" }]

/-- The next tick finds no change, and there is no subscription. -/
theorem deaf_idle : ∃ s, (run 0).exec relayHandler deaf ⟨none⟩ = (.ret {"m"}, s) ∧
    (refreshSubscription {"m"}).exec relayHandler [{ watched := ["m"] }] s = (.ret {"m"}, s) ∧
    (∀ ev ∈ (refreshSubscription {"m"}).events relayHandler () [{ watched := ["m"] }] s, ev.eff.asks = none) ∧
    s.active.map RelayFilter.pubkeys ≠ some ["m"].toFinset := by
  refine ⟨⟨none⟩, rfl, rfl, fun ev hev => ?_, by decide⟩
  obtain rfl := List.mem_singleton.1 hev
  rfl

end Relay

end GoblinPay
