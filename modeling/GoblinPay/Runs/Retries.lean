import GoblinPay.Runs.Listening
import GoblinPay.Runs.Visits
import GoblinPay.Runs.Reboot

/-!
# Wraps that wait for another try

A wrap that ends rate limited or failed is left unmarked, and one that a lag skipped was never looked at; both
wait for a catch-up of their recipient's key. `attending` is the relay service with its ingest, and keeps the keys
that wait. A refresh tick fetches the keys that are new in the watched set and no others (`refresh_fetches`). New is
new against the set of the last refresh that went through, which the service remembers (`renewed_last`).
-/

namespace GoblinPay

open Async

/-- What the environment contributes to one operation of the service and its ingest. -/
structure Arrival (W : Type) where
  answer : RelayAnswer := {}
  /-- what the operations on a wrap are answered, and the world they find -/
  visit : List (Answer × World W) := []
  /-- the wraps a lag left out -/
  skipped : List NostrEvent := []

structure Serving (W : Type) where
  relays : Relays
  world : World W
  /-- ghost: the keys a wrap waits for, since their last fetch -/
  waiting : Finset String

/-- The keys that wraps are addressed to. -/
def recipients (events : List NostrEvent) : Finset String := (events.filterMap fun event => Protocol.tagValue "p" event.tags).toFinset

/-- What the directory says of the watched keys in the course of a run. -/
structure Renewal where
  /-- the set of the last refresh that went through -/
  last : Option (Finset String) := none
  /-- the set that was read last -/
  now : Option (Finset String) := none

namespace RelayEff

variable {W : Type} (U : Upstream W) (cfg : Config) (master : Secret) {β : Type}

/-- The world after an operation of the service. -/
def world (x : Arrival W) (s : World W) : RelayEff β → World W
  | .handle event => (⟨event, x.visit⟩ : Visit W).after U cfg master s
  | _ => s

/-- The keys a wrap was missed for: it ended rate limited or failed, or a lag skipped it. -/
def missed (x : Arrival W) (s : World W) : RelayEff β → Finset String
  | .handle event =>
    if ((⟨event, x.visit⟩ : Visit W).outcome U cfg master s).any fun o => !o.settled then recipients [event] else ∅
  | .turn =>
    match x.answer.turn with
    | .lagged _ => recipients x.skipped
    | _ => ∅
  | _ => ∅

/-- The keys that were fetched. -/
def fetched : RelayEff β → β → Finset String
  | .fetchEvents filter, .ok _ => filter.pubkeys
  | _, _ => ∅

/-- A refresh reads the set, and goes back to the one before if the subscription to it fails. -/
def renews (v : Renewal) : RelayEff β → β → Renewal
  | .watched, current => ⟨v.now, some current.toFinset⟩
  | .subscribe _, .error _ => ⟨v.last, v.last <|> v.now⟩
  | _, _ => v

end RelayEff

section

variable {W : Type} (U : Upstream W) (cfg : Config) (master : Secret)

/-- The relay service with its ingest. -/
def attending : Handler RelayEff (Arrival W) (Serving W) where
  act e x s := ((relayHandler.act e x.answer s.relays).1,
    ⟨(relayHandler.act e x.answer s.relays).2, e.world U cfg master x s.world,
      s.waiting \ e.fetched (relayHandler.act e x.answer s.relays).1 ∪ e.missed U cfg master x s.world⟩)

namespace Relay

abbrev Act (W : Type) := Event RelayEff Unit (Arrival W) (Serving W)

/-- A wrap for the key was missed. -/
def Misses (key : String) (ev : Act W) : Prop := key ∈ ev.eff.missed U cfg master ev.input ev.state.world

def Fetches (key : String) (ev : Act W) : Prop := key ∈ ev.eff.fetched (ev.answer (attending U cfg master))

/-- What the directory said in a history of the run. -/
def renewed (T : List (Act W)) : Renewal := T.foldl (fun v ev => RelayEff.renews v ev.eff (ev.answer (attending U cfg master))) {}

/-- The keys a tick fetches that is given `ys`. -/
def fetchedIn (last : Finset String) (ys : List (Arrival W)) (s : Serving W) : Finset String :=
  ((refreshSubscription last).events (attending U cfg master) () ys s).foldl
    (fun keys ev => keys ∪ ev.eff.fetched (ev.answer (attending U cfg master))) ∅

/-- A tick that runs to its end, and whose relay calls succeed. -/
structure Succeeds (last : Finset String) (ys : List (Arrival W)) (s : Serving W) : Prop where
  ended : ∃ last' s', (refreshSubscription last).exec (attending U cfg master) ys s = (.ret last', s')
  relays : ∀ ev ∈ (refreshSubscription last).events (attending U cfg master) () ys s, ev.eff.asks ≠ none → ev.input.answer.fault = none

/-- The run on the inputs `xs` comes with the history `T` to a tick that succeeds: the service knows the set `last`, and
the tick finds the state `s`. -/
def TicksIn (s₀ : Serving W) (xs : List (Arrival W)) (T : List (Act W)) (last : Finset String) (x : Arrival W)
    (ys : List (Arrival W)) (s : Serving W) : Prop :=
  ∃ n before t rest, xs = before ++ t :: (x :: ys ++ rest) ∧ t.answer.turn = .tick ∧
    (run n).exec (attending U cfg master) before s₀ = (.ret last, s) ∧
    (run n).events (attending U cfg master) () before s₀ = T ∧ T.length = before.length ∧
    Succeeds U cfg master last (x :: ys) s

/-- Every tick of the run that succeeds fetches the watched keys a wrap waits for. -/
def Retried (s₀ : Serving W) (xs : List (Arrival W)) : Prop :=
  ∀ T last x ys s, TicksIn U cfg master s₀ xs T last x ys s →
    ∀ key ∈ s.waiting, key ∈ x.answer.watched → key ∈ fetchedIn U cfg master last (x :: ys) s

/-- A key that a wrap was missed for, and that was not fetched since, is out of the watched set at the last refresh before
any successful tick that finds it watched. -/
def Spared (s₀ : Serving W) (xs : List (Arrival W)) : Prop :=
  ∀ T last x ys s, TicksIn U cfg master s₀ xs T last x ys s →
    ∀ past ev since key, T = past ++ ev :: since → Misses U cfg master key ev →
      (∀ ev' ∈ since, ¬ Fetches U cfg master key ev') → key ∈ x.answer.watched →
        ∀ keys ∈ (renewed U cfg master T).now, key ∉ keys

variable {U cfg master} {last current keys : Finset String} {s : Serving W} {α : Type}

/-- The contract of a refresh whose relay calls succeed. -/
abbrev refreshing (U : Upstream W) (cfg : Config) (master : Secret) : Discipline (attending U cfg master) Unit (Finset String) :=
  .solo (attending U cfg master) (fun _ _ => True) (fun e x _ => e.asks ≠ none → x.answer.fault = none)
    fun keys e b => keys ∪ e.fetched b

theorem refreshing_handleAll (events : List NostrEvent) :
    Meets (refreshing U cfg master) () (fun _ keys' _ => keys' = keys) (handleAll events) keys s := by
  induction events generalizing s with
  | nil => exact Meets.soloRet rfl
  | cons event events ih =>
    refine Meets.soloCall trivial fun _ _ => ?_
    rw [show keys ∪ RelayEff.fetched (.handle event) _ = keys from Finset.union_empty keys]
    exact ih

theorem refreshing_catchUp (filter : RelayFilter) :
    Meets (refreshing U cfg master) () (fun _ keys' _ => keys' = keys ∪ filter.pubkeys) (catchUp filter) keys s := by
  refine Meets.soloCall trivial fun x hx => ?_
  have answered : ((attending U cfg master).act (.fetchEvents filter) x s).1 = .ok x.answer.events := by
    simp only [attending, relayHandler, hx fun h => by cases h]
  rw [answered]
  exact refreshing_handleAll x.answer.events

variable (s) in
/-- The rest of a tick, once it has read the watched set. -/
theorem refreshing_rest (last current : Finset String) :
    Meets (refreshing U cfg master) () (fun _ keys _ => keys = current \ last)
      (if (planRefresh last current).changed then do
        let since ← lookback
        match ← Prog.call (.subscribe (watchFilter current since)) with
        | .error _ => pure last
        | .ok () =>
          if (planRefresh last current).added = [] then pure current
          else
            catchUp (watchFilter (planRefresh last current).added.toFinset since)
            pure current
      else pure last) ∅ s := by
  have added : (planRefresh last current).added.toFinset = current \ last := Finset.sort_toFinset _ _
  split
  · refine Meets.andThen (I := fun _ keys _ => keys = ∅) (Meets.soloCall trivial fun _ _ => Meets.soloRet rfl) fun since keys s _ hkeys => ?_
    subst hkeys
    refine Meets.soloCall trivial fun y hy => ?_
    have answered : ((attending U cfg master).act (.subscribe (watchFilter current since)) y s).1 = .ok () := by
      simp only [attending, relayHandler, hy fun h => by cases h]
    rw [answered]
    dsimp only
    split
    · rename_i hnone
      rw [hnone, List.toFinset_nil] at added
      exact Meets.soloRet added
    · refine Meets.andThen (refreshing_catchUp _) fun _ keys s _ hkeys => Meets.soloRet ?_
      rw [hkeys, ← added]
      exact Finset.empty_union _
  · rename_i unchanged
    have same : last = current := by simpa [planRefresh] using unchanged
    exact Meets.soloRet (by rw [same, sdiff_self]; rfl)

/-- A tick whose relay calls succeed fetches what is watched now and was not at the last refresh. -/
theorem refresh_fetches {x : Arrival W} {ys : List (Arrival W)} (h : Succeeds U cfg master last (x :: ys) s) :
    fetchedIn U cfg master last (x :: ys) s = x.answer.watched.toFinset \ last := by
  obtain ⟨⟨last', s', hret⟩, relays⟩ := h
  have rest := (refreshing_rest ((attending U cfg master).act .watched x s).2 last x.answer.watched.toFinset).soloExec ys fun ev hev => relays ev (List.mem_cons_of_mem _ hev)
  rcases rest with ⟨a, -, hkeys⟩ | ⟨stopped, -⟩
  · exact hkeys
  · exact absurd (congrArg Prod.fst hret) (stopped last')

variable (U cfg master) in
/-- A key waits if and only if a wrap was missed for it and it was not fetched since. -/
theorem waiting_iff (p : Prog RelayEff α) (xs : List (Arrival W)) (relays : Relays) (w : World W) (key : String) :
    key ∈ (p.exec (attending U cfg master) xs ⟨relays, w, ∅⟩).2.waiting ↔
      Pending (Misses U cfg master key) (Fetches U cfg master key) (p.events (attending U cfg master) () xs ⟨relays, w, ∅⟩) := by
  have pending := Prog.exec_pending (H := attending U cfg master) (fun s => key ∈ s.waiting)
    (Misses U cfg master key) (Fetches U cfg master key) () (fun e x s => by
      rw [or_comm]
      exact Finset.mem_union.trans (or_congr_left Finset.mem_sdiff)) xs p ⟨relays, w, ∅⟩
  refine pending.trans (or_iff_left fun h => ?_)
  exact absurd h.1 (Finset.notMem_empty _)

/-! ### What the service remembers -/

/-- The contract of the service that remembers what the directory said. -/
abbrev renewing (U : Upstream W) (cfg : Config) (master : Secret) : Discipline (attending U cfg master) Unit Renewal :=
  .solo (attending U cfg master) (fun _ _ => True) (fun _ _ _ => True) RelayEff.renews

/-- The service remembers the set of the last refresh that went through. -/
def Remembers (last : Finset String) (v : Renewal) (_ : Serving W) : Prop := v.now = some last

variable {v : Renewal}

theorem renewing_handleAll (events : List NostrEvent) : Meets (renewing U cfg master) () (fun _ v' _ => v' = v) (handleAll events) v s := by
  induction events generalizing s with
  | nil => exact Meets.soloRet rfl
  | cons event events ih => exact Meets.soloCall trivial fun _ _ => ih

/-- A catch-up says nothing of the watched set, fail as it may. -/
theorem renewing_catchUp (filter : RelayFilter) : Meets (renewing U cfg master) () (fun _ v' _ => v' = v) (catchUp filter) v s := by
  refine Meets.soloCall trivial fun x _ => ?_
  rcases ((attending U cfg master).act (.fetchEvents filter) x s).1 with _ | events
  · exact Meets.soloRet rfl
  · exact renewing_handleAll events

theorem renewing_lookback : Meets (renewing U cfg master) () (fun _ v' _ => v' = v) lookback v s :=
  Meets.soloCall trivial fun _ _ => Meets.soloRet rfl

/-- The start remembers the set it read, whether or not the subscription succeeds. -/
theorem renewing_start : Meets (renewing U cfg master) () Remembers start {} s := by
  refine Meets.soloCall trivial fun x _ => ?_
  refine Meets.andThen renewing_lookback fun since v₁ s₁ _ h => ?_
  subst h
  refine Meets.andThen (renewing_catchUp _) fun _ v₂ s₂ _ h => ?_
  subst h
  refine Meets.soloCall trivial fun y _ => ?_
  rcases ((attending U cfg master).act (.subscribe _) y s₂).1 with _ | _ <;> exact Meets.soloRet rfl

/-- A refresh remembers the set it read, or the one before if the subscription fails. -/
theorem renewing_refresh (h : v.now = some last) : Meets (renewing U cfg master) () Remembers (refreshSubscription last) v s := by
  refine Meets.soloCall trivial fun x _ => ?_
  rw [show RelayEff.renews v .watched _ = ⟨some last, some _⟩ from congrArg (Renewal.mk · _) h]
  dsimp only
  split
  · refine Meets.andThen renewing_lookback fun since v₁ s₁ _ hv => ?_
    subst hv
    refine Meets.soloCall trivial fun y _ => ?_
    rcases ((attending U cfg master).act (.subscribe _) y s₁).1 with _ | _
    · exact Meets.soloRet rfl
    · dsimp only
      split
      · exact Meets.soloRet rfl
      · refine Meets.andThen (renewing_catchUp _) fun _ v₂ s₂ _ hv => ?_
        subst hv
        exact Meets.soloRet rfl
  · rename_i unchanged
    have same : last = ((attending U cfg master).act RelayEff.watched x s).1.toFinset := by simpa [planRefresh] using unchanged
    exact Meets.soloRet (congrArg some same.symm)

theorem renewing_serve (n : Nat) (h : v.now = some last) : Meets (renewing U cfg master) () Remembers (serve n last) v s := by
  induction n generalizing last v s with
  | zero => exact Meets.soloRet h
  | succ n ih =>
    refine Meets.soloCall trivial fun x _ => ?_
    generalize ((attending U cfg master).act RelayEff.turn x s).1 = turn
    cases turn with
    | event event => exact Meets.soloCall trivial fun _ _ => ih h
    | other => exact ih h
    | lagged => exact ih h
    | closed => exact Meets.soloRet h
    | tick => exact Meets.andThen (renewing_refresh h) fun _ _ _ _ h => ih h

/-- At every turn of a run, what the service remembers is the set of the last refresh that went through. -/
theorem renewed_last {n : Nat} {xs : List (Arrival W)} {s₀ : Serving W}
    (hret : (run n).exec (attending U cfg master) xs s₀ = (.ret last, s)) :
    (renewed U cfg master ((run n).events (attending U cfg master) () xs s₀)).now = some last := by
  have runs : Meets (renewing U cfg master) () Remembers (run n) {} s₀ := Meets.andThen renewing_start fun _ _ _ _ h => renewing_serve n h
  rcases runs.soloExec xs fun _ _ => trivial with ⟨last', hlast, h⟩ | ⟨stopped, -⟩
  · rw [hret] at hlast
    cases hlast
    exact h
  · exact absurd (congrArg Prod.fst hret) (stopped last)

/-- In every run, the ticks that succeed fetch the watched keys that wraps wait for if and only if every key a wrap was missed
for, and that was not fetched since, was out of the watched set at the last refresh. -/
theorem retried_iff (U : Upstream W) (cfg : Config) (master : Secret) (relays : Relays) (w : World W) (xs : List (Arrival W)) :
    Retried U cfg master ⟨relays, w, ∅⟩ xs ↔ Spared U cfg master ⟨relays, w, ∅⟩ xs := by
  constructor
  · intro retried T last x ys s tick past ev since key hT missed kept hwatched keys hkeys
    have fetched := retried T last x ys s tick key
    obtain ⟨n, before, t, rest, -, -, hret, rfl, -, succeeds⟩ := tick
    rw [renewed_last hret, Option.mem_some_iff] at hkeys
    have waits := (waiting_iff U cfg master (run n) before relays w key).2 ⟨past, ev, since, hT, missed, kept⟩
    rw [hret] at waits
    have added := fetched waits hwatched
    rw [refresh_fetches succeeds, hkeys] at added
    exact (Finset.mem_sdiff.1 added).2
  · intro spared T last x ys s tick key waits hwatched
    have left := spared T last x ys s tick
    obtain ⟨n, before, t, rest, -, -, hret, rfl, -, succeeds⟩ := tick
    have pending := waiting_iff U cfg master (run n) before relays w key
    rw [hret] at pending
    obtain ⟨past, ev, since, hT, missed, kept⟩ := pending.1 waits
    rw [refresh_fetches succeeds]
    exact Finset.mem_sdiff.2 ⟨List.mem_toFinset.2 hwatched, left past ev since key hT missed kept hwatched last (renewed_last hret)⟩

end Relay

end

/-! ## A hiccup -/

namespace Relay

def till : World Sample.Wallet := World.fresh payerWallet 1000

/-- The catch-up of the start finds a payment to the master key, the wallet is busy when it is received, and a tick
finds the same watched set. -/
def hiccup : List (Arrival Sample.Wallet) :=
  let wrap : NostrEvent := ⟨"wrap", 1059, "payer", "BEGINSLATEPACK.ENDSLATEPACK.", [["p", "m"]], 0, ""⟩
  [{ answer := { watched := ["m"] } }, { answer := { now := 300000 } }, { answer := { events := [wrap] } },
   { visit := List.replicate 5 ({}, till) ++ [({ fault := some "busy" }, till)] }, {}, {}, { answer := { watched := ["m"] } }]

/-- The service before the tick. -/
def beforeTick : Prog RelayEff (Finset String) × Serving Sample.Wallet :=
  (run 0).exec (attending Sample.upstream Sample.config [109]) (hiccup.take 5) ⟨⟨none⟩, till, ∅⟩

theorem beforeTick_ret : beforeTick.1 = .ret {"m"} := rfl

theorem beforeTick_waiting : "m" ∈ beforeTick.2.waiting := by decide

/-- A tick that finds the set it knows. -/
theorem succeeds_same (s : Serving Sample.Wallet) :
    Succeeds Sample.upstream Sample.config [109] {"m"} [{ answer := { watched := ["m"] } }] s ∧
      fetchedIn Sample.upstream Sample.config [109] {"m"} [{ answer := { watched := ["m"] } }] s = ∅ := by
  refine ⟨⟨⟨{"m"}, _, rfl⟩, fun ev hev asks => ?_⟩, rfl⟩
  obtain rfl := List.mem_singleton.1 hev
  exact absurd rfl asks

/-- The payment is not fetched again, and neither is any other to that key. -/
theorem hiccup_forgotten : ¬ Retried Sample.upstream Sample.config [109] ⟨⟨none⟩, till, ∅⟩ hiccup := by
  intro retried
  have reached : beforeTick = (.ret {"m"}, beforeTick.2) := Prod.ext beforeTick_ret rfl
  have fetched := retried _ {"m"} { answer := { watched := ["m"] } } [] beforeTick.2
    ⟨0, hiccup.take 5, {}, [], rfl, rfl, reached, rfl, rfl, (succeeds_same _).1⟩ "m" beforeTick_waiting List.mem_cons_self
  rw [(succeeds_same _).2] at fetched
  exact absurd fetched (Finset.notMem_empty _)

end Relay

end GoblinPay
