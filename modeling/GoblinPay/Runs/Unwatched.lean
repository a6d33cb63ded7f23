import GoblinPay.Runs.Identities
import GoblinPay.Runs.Outside
import GoblinPay.Runs.Reboot

/-!
# Wraps to an identity that is not watched

A wrap whose recipient is missing from the snapshot is dropped for good. The snapshot is rebuilt from two
queries, and a query that fails leaves its part out, so what `heard_of_answered` needs of a run is that the query
which names the recipient was answered to the refresh whose snapshot the wrap meets.
-/

namespace GoblinPay

open Async Sql

/-! ## What a wrap came to -/

/-- What a call reports, with the outcome of a wrap. -/
inductive Heard
  | outcome (o : IngestOutcome)
  | reply (r : Reply)

namespace Service

section

variable {W : Type} (U : Upstream W)

/-- What `handle` does with an outcome. -/
def answer : IngestOutcome → Io Unit
  | .received slateId _ pending => reply U slateId pending
  | .dropped _ | .rateLimited | .failed _ => pure ()

end

end Service

section

variable {W : Type} (U : Upstream W)

def listen : Call → Io Heard
  | .handleEvent cfg master event => do
    let o ← Ingest.handleWrap U cfg master event
    Service.answer U o
    pure (.outcome o)
  | c => .reply <$> code U c

/-- What the call itself returns, which does not tell the outcome. -/
def Heard.toReply : Heard → Reply
  | .outcome _ => .done
  | .reply r => r

/-- Apart from the outcome it reports, `listen` is the code of the call. -/
theorem toReply_listen (c : Call) : (listen U c >>= fun heard => .ret heard.toReply) = code U c := by
  have returned : ∀ p : Io Reply, ((Heard.reply <$> p) >>= fun heard => .ret heard.toReply) = p :=
    fun p => (Prog.bind_assoc p (fun r => .ret (Heard.reply r)) _).trans (Prog.bind_ret p)
  cases c with
  | handleEvent cfg master event =>
    have handled : Service.handle U cfg master event = Ingest.handleWrap U cfg master event >>= Service.answer U := by
      unfold Service.handle
      congr 1
    simp only [listen, code, Prog.done, handled, Prog.bind_assoc]
    rfl
  | _ => exact returned _

/-- The operations of the run `ms`, and the server after it. -/
def heardIn (w : World W) (ms : Run) : List (Happening W) := Pool.trace (handler U) (listen U) (Pool.start w) ms

def heardAfter (w : World W) (ms : Run) : Pool Eff Call (World W) Heard := Pool.run (handler U) (listen U) (Pool.start w) ms

/-- A wrap for `r` was dropped as addressed to nobody. -/
def DroppedUnwatched (r : String) (t : Task Eff Call (World W) Heard) : Prop :=
  ∃ cfg master event, t.head.call = .handleEvent cfg master event ∧ Protocol.tagValue "p" event.tags = some r ∧
    t.rest = .ret (.outcome (.dropped "not a watched identity"))

/-- The snapshot has keys for `r`. -/
def Held (r : String) (map : Snapshot) : Prop := ∃ keys, (map.lookup r).bind (Directory.keysFromSecret U) = some keys

end

/-! ## The snapshot in a run -/

/-- The two queries a snapshot is built from. -/
inductive Scan
  | invoices | endpubs
  deriving DecidableEq

def Eff.scans {β : Type} : Eff β → Option Scan
  | .sql (.selectDerivedInvoices _) => some .invoices
  | .sql (.watchedPubkeys _) => some .endpubs
  | _ => none

/-- The map an operation puts in the place of the snapshot. -/
def Eff.sets {β : Type} : Eff β → Option Snapshot
  | .setSnapshot map => some map
  | _ => none

def Eff.Resolves {β : Type} : Eff β → Prop
  | .snapshot => True
  | _ => False

instance {β : Type} : DecidablePred (Eff.Resolves (β := β)) := fun e => by
  cases e <;> first | exact isTrue trivial | exact isFalse id

/-- Whether the process has built its snapshot. -/
def Eff.seeds {β : Type} (ready : Bool) : Eff β → Bool
  | .restart => false
  | .setSnapshot _ => true
  | _ => ready

/-- The configuration a call rebuilds the snapshot for. -/
def Call.refreshes : Call → Option Config
  | .boot cfg _ | .maintenance cfg _ => some cfg
  | _ => none

/-- The key of an invoice that is open in derived mode. -/
def OpenDerived (mode : MatchMode) (db : Db) (r : String) : Prop :=
  ∃ inv ∈ db.invoice.rows, inv.recipientPubkey = some r ∧ inv.status = .open ∧ inv.effectiveMode mode = .derived

/-- An endpub in the watch window of its user, as the current one is. -/
def InWindow (overlap : Int64) (db : Db) (r : String) : Prop :=
  ∃ ep ∈ db.endpub.rows, ep.pubkey = r ∧ ∃ u, db.user.get ep.userId = some u ∧
    u.epoch.toInt - (max overlap 0).toInt ≤ ep.epoch.toInt

def Scan.Names (cfg : Config) (db : Db) (r : String) : Scan → Prop
  | .invoices => OpenDerived cfg.matchMode db r
  | .endpubs => InWindow cfg.endpubOverlapEpochs db r

section

variable {W : Type} (U : Upstream W)

/-- To the refresh `h`, as the operations `T` show it, one of the two queries was answered, with rows that name `r`. -/
def Answered (scan : Scan) (r : String) (h : Head Call (World W)) (T : List (Happening W)) : Prop :=
  ∀ ev ∈ T, ev.head = h → ev.eff.scans = some scan →
    ev.input.fault = none ∧ ∀ cfg, h.call.refreshes = some cfg → scan.Names cfg ev.state.db r

/-- A call that handles a wrap to `r`. -/
def Call.WrapFor (r : String) (c : Call) : Prop :=
  ∃ cfg master event, c = .handleEvent cfg master event ∧ Protocol.tagValue "p" event.tags = some r

/-- Where a wrap to `r` asks the directory, one of the queries that name `r` was answered to the refresh that last put
a snapshot in place. -/
def Current (r : String) (T : List (Happening W)) : Prop :=
  ∀ T₁ put T₂ ev T₃, T = T₁ ++ put :: T₂ ++ ev :: T₃ → put.eff.sets ≠ none → (∀ ev' ∈ T₂, ev'.eff.sets = none) →
    ev.eff.Resolves → ev.head.call.WrapFor r → ∃ scan, Answered scan r put.head T₁

/-- The process of the last operation of `T` has built its snapshot. -/
def seeded (T : List (Happening W)) : Bool := T.foldl (fun ready ev => ev.eff.seeds ready) false

/-- The directory is asked by a process that has built its snapshot, as the start does before it listens. -/
def Listens (T : List (Happening W)) : Prop := ∀ T₁ ev T₂, T = T₁ ++ ev :: T₂ → ev.eff.Resolves → seeded T₁ = true

/-- The contract of the refresh `made`: what it puts in place holds `r`. -/
def seeding (r : String) (made : Head Call (World W)) (T : List (Happening W)) : Discipline (handler U) (Head Call (World W)) Unit where
  inv _ := True
  rely _ _ _ _ := True
  before h _ e _ := h = made → ∀ map, e.sets = some map → Held U r map
  allowed h e x s := (⟨h, e, x, s⟩ : Happening W) ∈ T
  gain _ _ _ := ()
  rely_refl _ _ _ := trivial
  rely_trans _ _ := trivial

variable {U} {scan : Scan} {r : String} {T : List (Happening W)} {h made : Head Call (World W)} {g : Unit} {s : World W} {α β : Type}

theorem Eff.Outside.sets {e : Eff β} (he : e.Outside) : e.sets = none := by
  cases e <;> first | exact he.elim | rfl

/-- A program that leaves the snapshot to others. -/
theorem seeding_of_only {p : Io α} (hp : p.Only fun e => e.sets = none) : Meets (seeding U r made T) h (fun _ _ _ => True) p g s :=
  Meets.of_only hp fun e _ _ he _ map hmap => by
    rw [he] at hmap
    cases hmap

/-- A query answers as its operation in the run does. -/
theorem seeding_scan {q : Stmt β} {P : Except SqlxError β → Prop}
    (hP : ∀ x s, (⟨h, .sql q, x, s⟩ : Happening W) ∈ T → P (act U x s (.sql q)).1) :
    Meets (seeding U r made T) h (fun a _ _ => P a) (sql q).run g s :=
  fun s' _ _ => ⟨fun _ _ => nofun, fun x hx _ _ _ => hP x s' hx⟩

/-- What a refresh builds holds `r`. -/
theorem seeding_buildSnapshot (hs : Derive.Samples U) (answered : Answered scan r h T) {cfg : Config} (hcfg : h.call.refreshes = some cfg)
    (sk : Secret) :
    Meets (seeding U r h T) h (fun map _ _ => Held U r map) (Directory.buildSnapshot U sk cfg.matchMode cfg.endpubOverlapEpochs) g s := by
  have invoices : Meets (seeding U r h T) h (fun rows _ _ => scan = .invoices →
      ∃ row ∈ rows.toOption.getD [], row.2.getD (Derive.invoicePubkeyHex U sk row.1) = r) (sql (.selectDerivedInvoices cfg.matchMode)).run g s := by
    refine seeding_scan fun x s hx hscan => ?_
    subst hscan
    obtain ⟨sure, names⟩ := answered _ hx rfl rfl
    obtain ⟨inv, hinv, hrecipient, hopen, hmode⟩ : OpenDerived cfg.matchMode s.db r := names cfg hcfg
    dsimp only at sure
    simp only [act, sure]
    exact named_of_open hinv hrecipient hopen hmode
  refine Meets.andThen invoices fun rows g s _ byInvoice => ?_
  have endpubs : Meets (seeding U r h T) h (fun eps _ _ => scan = .endpubs → ∃ rows, eps = .ok rows ∧ ∃ ep ∈ rows, ep.pubkey = r)
      (Endpub.watchedPubkeys cfg.endpubOverlapEpochs).run g s := by
    refine seeding_scan fun x s hx hscan => ?_
    subst hscan
    obtain ⟨sure, names⟩ := answered _ hx rfl rfl
    obtain ⟨ep, hep, hpub, u, hu, hepoch⟩ : InWindow cfg.endpubOverlapEpochs s.db r := names cfg hcfg
    dsimp only at sure
    simp only [act, sure]
    exact ⟨_, rfl, named_of_watched hep hpub hu hepoch⟩
  refine Meets.andThen endpubs fun eps g s _ byEndpub => ?_
  cases scan with
  | invoices =>
    cases eps with
    | ok eps => exact fun _ _ _ => held_of_rows hs eps (Or.inr (byInvoice rfl))
    | error e => exact fun _ _ _ => held_of_rows hs [] (Or.inr (byInvoice rfl))
  | endpubs =>
    obtain ⟨eps, rfl, named⟩ := byEndpub rfl
    exact fun _ _ _ => held_of_rows hs eps (Or.inl named)

theorem seeding_refresh (hs : Derive.Samples U) (answered : Answered scan r h T) {cfg : Config} (hcfg : h.call.refreshes = some cfg) (sk : Secret) :
    Meets (seeding U r h T) h (fun _ _ _ => True) (Directory.refreshSnapshot U cfg sk) g s := by
  refine Meets.andThen (seeding_buildSnapshot hs answered hcfg sk) fun map g s _ held => ?_
  intro s' _ _
  refine ⟨fun _ map' hmap => ?_, fun _ _ _ _ _ => trivial⟩
  cases hmap
  exact held

theorem seeding_code (hs : Derive.Samples U) (answered : Answered scan r made T) (c : Call) (s : World W) :
    Meets (seeding U r made T) ⟨c, s⟩ (fun _ _ _ => True) (listen U c) () s := by
  by_cases hmade : (⟨c, s⟩ : Head Call (World W)) = made
  swap
  · exact Meets.of_before (fun _ _ _ h => absurd h hmade) _ _ _
  subst hmade
  have silent : ∀ {α : Type} {p : Io α}, p.Only Eff.Silent → p.Only fun e => e.sets = none := fun hp => hp.mono fun _ he => he.outside.sets
  have dispatches : Dispatches fun e => e.sets = none := ⟨fun _ => rfl, fun _ => rfl, rfl, rfl⟩
  by_cases hc : c.OfRelays
  · cases c with
    | handleEvent cfg master event =>
      have ingests : Ingests U (fun e => e.sets = none) event :=
        { outside := fun e he => he.sets
          wrap := ⟨rfl, rfl⟩
          rumor := fun _ _ _ => ⟨rfl, rfl⟩
          slate := fun _ => rfl
          allow := fun _ _ _ _ => rfl
          snapshot := rfl }
      refine seeding_of_only (Prog.Only.bind (ingests.handleWrap cfg master) fun o => Prog.Only.bind ?_ fun _ => trivial)
      cases o with
      | received slateId amount pending => exact dispatches.reply slateId pending
      | dropped | rateLimited | failed => exact trivial
    | boot cfg master =>
      refine Meets.andThen (f := fun a => .ret (Heard.reply a)) (I := fun _ _ _ => True) ?_ fun _ _ _ _ _ _ _ _ => trivial
      refine Meets.andThen (I := fun _ _ _ => True) ?_ fun _ _ _ _ _ _ _ _ => trivial
      refine Meets.andThen (seeding_of_only (Prog.Only.call (e := Eff.restart) rfl)) fun _ g s _ _ => ?_
      refine Meets.andThen (seeding_refresh hs answered rfl master) fun _ g s _ _ => ?_
      exact seeding_of_only (dispatches.reconcile master)
    | maintenance cfg master =>
      refine Meets.andThen (f := fun a => .ret (Heard.reply a)) (I := fun _ _ _ => True) ?_ fun _ _ _ _ _ _ _ _ => trivial
      refine Meets.andThen (I := fun _ _ _ => True) ?_ fun _ _ _ _ _ _ _ _ => trivial
      unfold Directory.maintenance
      split
      · refine Meets.andThen (I := fun _ _ _ => True) ?_ fun _ _ _ _ _ => seeding_refresh hs answered rfl master
        have rotates : Prog.Footprint (fun _ => True) (discard (Endpub.rotateDue U master cfg.endpubRotateInterval).run) :=
          (Endpub.footprint_rotateDue U master _ (fun _ _ => trivial) fun _ _ => trivial).discard
        exact seeding_of_only (silent rotates.silent)
      · exact seeding_refresh hs answered rfl master
    | _ => exact hc.elim
  · have quiet : (code U c).Only fun e => e.sets = none := silent (Call.silent U hc)
    cases c <;> first | exact absurd trivial hc | exact seeding_of_only (Prog.Only.bind quiet fun _ => trivial)

variable (U) in
def seedingProtocol (hs : Derive.Samples U) (answered : Answered scan r made T) : Protocol (handler U) (listen U) Unit where
  toDiscipline := seeding U r made T
  init := ()
  start_meets {c s} _ _ _ := seeding_code hs answered c s
  keeps _ _ _ _ := ⟨trivial, trivial⟩
  yields _ _ _ _ _ _ := trivial

theorem Eff.Outside.memory {e : Eff β} (he : e.Outside) (x : Answer) : (act U x s e).2.memory = s.memory := by
  cases e <;> first | exact he.elim | rfl | (simp only [act]; split <;> rfl)

/-- A refresh replaces the snapshot, a start of the process empties it, and nothing else touches it. -/
theorem Eff.snapshot_act (e : Eff β) (x : Answer) :
    e.sets = some (act U x s e).2.memory.snapshot ∨
    ((act U x s e).2.memory.snapshot = [] ∧ ∀ ready, e.seeds ready = false) ∨
    ((act U x s e).2.memory.snapshot = s.memory.snapshot ∧ ∀ ready, e.seeds ready = ready) := by
  by_cases he : e.Outside
  · have same : ∀ ready, e.seeds ready = ready := by
      intro ready
      cases e <;> first | exact he.elim | rfl
    rw [Eff.Outside.memory he x]
    exact Or.inr (Or.inr ⟨rfl, same⟩)
  · cases e with
    | isSeen | mark | snapshot => exact Or.inr (Or.inr ⟨rfl, fun _ => rfl⟩)
    | allow key limit window cap =>
      refine Or.inr (Or.inr ⟨?_, fun _ => rfl⟩)
      simp only [act, Memory.allow]
      split <;> rfl
    | setSnapshot map => exact Or.inl rfl
    | restart => exact Or.inr (Or.inl ⟨rfl, fun _ => rfl⟩)
    | _ => exact absurd trivial he

/-- What puts a snapshot in place is no query, and leaves that snapshot. -/
theorem Eff.sets_act {e : Eff β} {map : Snapshot} (hmap : e.sets = some map) (x : Answer) :
    e.scans = none ∧ (act U x s e).2.memory.snapshot = map := by
  cases e with
  | setSnapshot map' =>
    cases hmap
    exact ⟨rfl, rfl⟩
  | _ => cases hmap

theorem Eff.seeds_cases (e : Eff β) : e.sets ≠ none ∨ (∀ ready, e.seeds ready = false) ∨ ∀ ready, e.seeds ready = ready := by
  cases e with
  | setSnapshot map => exact Or.inl nofun
  | restart => exact Or.inr (Or.inl fun _ => rfl)
  | _ => exact Or.inr (Or.inr fun _ => rfl)

/-- A process that has built its snapshot has one that some refresh put in place, and none replaced since. -/
theorem seeded_split (h : seeded T = true) : ∃ T₁ put T₂, T = T₁ ++ put :: T₂ ∧ put.eff.sets ≠ none ∧
    ∀ ev ∈ T₂, ev.eff.sets = none ∧ ∀ ready, ev.eff.seeds ready = ready := by
  induction T using List.reverseRecOn with
  | nil => cases h
  | append_singleton T ev ih =>
    have last : ev.eff.seeds (seeded T) = true := by
      rw [seeded, List.foldl_append] at h
      exact h
    by_cases hset : ev.eff.sets = none
    swap
    · exact ⟨T, ev, [], rfl, hset, by simp⟩
    obtain hput | hseeds | hseeds := ev.eff.seeds_cases
    · exact absurd hset hput
    · rw [hseeds] at last
      cases last
    · rw [hseeds] at last
      obtain ⟨T₁, put, T₂, rfl, hput, hkept⟩ := ih last
      refine ⟨T₁, put, T₂ ++ [ev], by simp, hput, fun ev' hev' => ?_⟩
      rcases List.mem_append.1 hev' with hev' | hev'
      · exact hkept ev' hev'
      · obtain rfl := List.mem_singleton.1 hev'
        exact ⟨hset, hseeds⟩

/-- What keeps the snapshot built, and puts none in place, leaves it as it was. -/
theorem Eff.snapshot_same {e : Eff β} (x : Answer) (hset : e.sets = none) (hseeds : ∀ ready, e.seeds ready = ready) :
    (act U x s e).2.memory.snapshot = s.memory.snapshot := by
  obtain hmap | ⟨-, hfalse⟩ | ⟨hsame, -⟩ := Eff.snapshot_act (U := U) (s := s) e x
  · rw [hset] at hmap
    cases hmap
  · exact absurd ((hseeds true).symm.trans (hfalse true)) nofun
  · exact hsame

/-- What the refresh put in place holds `r`. -/
theorem held_of_put {w : World W} {ms : Run} (hs : Derive.Samples U) {T₁ T₂ : List (Happening W)} {put : Happening W}
    (htrace : heardIn U w ms = T₁ ++ put :: T₂) (hput : put.eff.sets ≠ none) (answered : Answered scan r put.head T₁) :
    Held U r (put.after (handler U)).memory.snapshot := by
  obtain ⟨map, hmap⟩ := Option.ne_none_iff_exists'.1 hput
  obtain ⟨ms₁, i, x, ms₂, rfl, hevent, rfl⟩ := Pool.trace_split (handler U) (listen U) htrace
  have upTo : heardIn U w (ms₁ ++ [.run i x]) = heardIn U w ms₁ ++ [put] := by
    rw [heardIn, Pool.trace_append, Pool.trace, hevent, Option.toList_some]
    rfl
  have answered' : Answered scan r put.head (heardIn U w (ms₁ ++ [.run i x])) := by
    rw [upTo]
    intro ev hev hhead hscan
    rcases List.mem_append.1 hev with hev | hev
    · exact answered ev hev hhead hscan
    · obtain rfl := List.mem_singleton.1 hev
      rw [(Eff.sets_act (U := U) (s := ev.state) hmap ev.input).1] at hscan
      cases hscan
  have admitted : (seedingProtocol U hs answered').Admitted (Pool.start w) (ms₁ ++ [.run i x]) :=
    ⟨fun _ hev => hev, fun _ _ => trivial, List.pairwise_of_forall fun _ _ => trivial⟩
  have mem : put ∈ heardIn U w (ms₁ ++ [.run i x]) := by
    rw [upTo]
    exact List.mem_append_right _ (List.mem_singleton.2 rfl)
  obtain ⟨-, _, -, before⟩ := (seedingProtocol U hs answered').mem_trace_before trivial (fun _ => trivial) admitted mem
  have installed : (put.after (handler U)).memory.snapshot = map := (Eff.sets_act hmap put.input).2
  rw [installed]
  exact before rfl map hmap

/-! ## The wraps of a run -/

variable (U) in
/-- The contract of a wrap to `r`: where it asks the directory, the snapshot holds `r`. -/
def hearing (r : String) : Discipline (handler U) (Head Call (World W)) Unit where
  inv _ := True
  rely _ _ _ _ := True
  before _ _ _ _ := True
  allowed h e _ s := h.call.WrapFor r → e.Resolves → Held U r s.memory.snapshot
  gain _ _ _ := ()
  rely_refl _ _ _ := trivial
  rely_trans _ _ := trivial

/-- The wrap was not dropped as addressed to nobody. -/
def IngestOutcome.Watched : IngestOutcome → Prop
  | .dropped reason => reason ≠ "not a watched identity"
  | _ => True

instance : DecidablePred IngestOutcome.Watched
  | .dropped reason => inferInstanceAs (Decidable (reason ≠ "not a watched identity"))
  | .received .. | .rateLimited | .failed _ => .isTrue trivial

theorem hearing_any (p : Io α) : Meets (hearing U r) h (fun _ _ _ => True) p g s :=
  Meets.of_before (fun _ _ _ => trivial) p g s

theorem hearing_ret {o : IngestOutcome} (ho : o.Watched) : Meets (hearing U r) h (fun o _ _ => o.Watched) (.ret o) g s :=
  fun _ _ _ => ho

theorem hearing_drop {wrapId rumorId reason : String} (hreason : reason ≠ "not a watched identity") :
    Meets (hearing U r) h (fun o _ _ => o.Watched) (Ingest.drop wrapId rumorId reason) g s :=
  Meets.andThen (hearing_any _) fun _ _ _ _ _ => Meets.andThen (hearing_any _) fun _ _ _ _ _ => hearing_ret hreason

theorem hearing_handOff (cfg : Config) (wrapId : String) (keys : Secret) (u : Unwrapped) :
    Meets (hearing U r) h (fun o _ _ => o.Watched) (Ingest.handOff U cfg wrapId keys u) g s := by
  refine Meets.andThen (hearing_any _) fun result _ _ _ _ => ?_
  split
  · refine Meets.andThen (hearing_any _) fun _ _ _ _ _ => Meets.andThen (hearing_any _) fun _ _ _ _ _ => ?_
    exact Meets.andThen (hearing_any _) fun _ _ _ _ _ => hearing_ret trivial
  · exact hearing_drop (by decide)
  · exact hearing_drop (by decide)
  · exact hearing_ret trivial

/-- The reasons of the policy are its own. -/
theorem IngestContext.decide_reason {ctx : IngestContext} {reason : String} (h : ctx.decide = .drop reason) :
    reason ≠ "not a watched identity" := by
  unfold IngestContext.decide at h
  repeat' split at h
  all_goals cases h
  all_goals decide

theorem hearing_recipientKeys (hfor : h.call.WrapFor r) (master : Secret) {event : NostrEvent} (htag : Protocol.tagValue "p" event.tags = some r) :
    Meets (hearing U r) h (fun keys _ _ => keys ≠ none) (Ingest.recipientKeys U master event) g s := by
  unfold Ingest.recipientKeys
  rw [htag]
  dsimp only
  unfold Directory.resolve
  split
  · exact fun _ _ _ => nofun
  · refine fun s' _ _ => ⟨trivial, fun x hx _ _ _ hnone => ?_⟩
    obtain ⟨keys, hkeys⟩ : Held U r s'.memory.snapshot := hx hfor trivial
    exact absurd (hkeys.symm.trans hnone) nofun

theorem hearing_handleWrap (hfor : h.call.WrapFor r) (cfg : Config) (master : Secret) {event : NostrEvent} (htag : Protocol.tagValue "p" event.tags = some r) :
    Meets (hearing U r) h (fun o _ _ => o.Watched) (Ingest.handleWrap U cfg master event) g s := by
  unfold Ingest.handleWrap
  split
  · exact hearing_ret (by decide)
  split
  · exact Meets.andThen (hearing_any _) fun _ _ _ _ _ => hearing_ret (by decide)
  refine Meets.andThen (hearing_any _) fun seen _ _ _ _ => ?_
  split
  · exact hearing_ret (by decide)
  refine Meets.andThen (hearing_any _) fun ok _ _ _ _ => ?_
  split
  swap
  · exact hearing_ret trivial
  unfold Ingest.openWrap
  refine Meets.andThen (hearing_recipientKeys hfor master htag) fun keys _ _ _ hkeys => ?_
  split
  · exact absurd rfl hkeys
  split
  · exact Meets.andThen (hearing_any _) fun _ _ _ _ _ => hearing_ret (by decide)
  unfold Ingest.screen
  refine Meets.andThen (hearing_any _) fun duplicate _ _ _ _ => ?_
  split
  · rename_i reason hdecide
    exact hearing_drop (IngestContext.decide_reason hdecide)
  · refine Meets.andThen (hearing_any _) fun ok _ _ _ _ => ?_
    split
    · exact hearing_handOff cfg _ _ _
    · exact hearing_ret trivial

/-- What a call owes that handles a wrap to `r`. -/
def HeardPost (r : String) (h : Head Call (World W)) (a : Heard) : Prop :=
  ∀ cfg master event, h.call = .handleEvent cfg master event → Protocol.tagValue "p" event.tags = some r →
    ∀ o, a = .outcome o → o.Watched

theorem hearing_listen (c : Call) (s : World W) : Meets (hearing U r) ⟨c, s⟩ (fun a _ _ => HeardPost r ⟨c, s⟩ a) (listen U c) () s := by
  by_cases hc : ∃ cfg master event, c = .handleEvent cfg master event ∧ Protocol.tagValue "p" event.tags = some r
  · obtain ⟨cfg, master, event, rfl, htag⟩ := hc
    refine Meets.andThen (hearing_handleWrap ⟨cfg, master, event, rfl, htag⟩ cfg master htag) fun o g s' _ ho => ?_
    refine Meets.andThen (hearing_any _) fun _ _ _ _ _ _ _ _ => ?_
    intro _ _ _ _ _ o' ho'
    cases ho'
    exact ho
  · exact (hearing_any (listen U c)).mono fun a _ _ _ _ cfg master event hcall htag => absurd ⟨cfg, master, event, hcall, htag⟩ hc

variable (U r) in
def hearingProtocol : Protocol (handler U) (listen U) Unit where
  toDiscipline := hearing U r
  init := ()
  post h a _ _ := HeardPost r h a
  start_meets {c s} _ _ _ := hearing_listen c s
  keeps _ _ _ _ := ⟨trivial, trivial⟩
  yields _ _ _ _ _ _ := trivial

variable (U) in
/-- Where the refresh whose snapshot a wrap to `r` meets was answered a query that names `r`, the wrap is not dropped as
addressed to nobody. -/
theorem heard_of_answered (hs : Derive.Samples U) (w : World W) (ms : Run) (r : String)
    (current : Current r (heardIn U w ms)) (listens : Listens (heardIn U w ms)) :
    ∀ t ∈ (heardAfter U w ms).tasks, ¬ DroppedUnwatched r t := by
  have hears : (hearingProtocol U r).Admitted (Pool.start w) ms := by
    refine ⟨fun ev hev hfor hresolves => ?_, fun _ _ => trivial, List.pairwise_of_forall fun _ _ => trivial⟩
    obtain ⟨T, T₃, htrace⟩ := List.append_of_mem hev
    obtain ⟨T₁, put, T₂, rfl, hput, hkept⟩ := seeded_split (listens T ev T₃ htrace hresolves)
    obtain ⟨scan, answered⟩ := current T₁ put T₂ ev T₃ htrace hput (fun ev' hev' => (hkept ev' hev').1) hresolves hfor
    have first : heardIn U w ms = T₁ ++ put :: (T₂ ++ ev :: T₃) := by
      rw [heardIn, htrace, List.append_assoc, List.cons_append]
    have installed : Held U r (put.after (handler U)).memory.snapshot := held_of_put hs first hput answered
    have same : ev.state.memory.snapshot = (put.after (handler U)).memory.snapshot :=
      Pool.rel_between (handler U) (listen U) (R := fun s s' => s'.memory.snapshot = s.memory.snapshot) (fun _ => rfl)
        (fun h h' => h'.trans h) htrace fun ev' hev' => Eff.snapshot_same ev'.input (hkept ev' hev').1 (hkept ev' hev').2
    rw [same]
    exact installed
  rintro t ht ⟨cfg, master, event, hcall, htag, hrest⟩
  obtain ⟨_, post⟩ := (hearingProtocol U r).post_run trivial (fun _ => trivial) hears ht hrest
  exact post cfg master event hcall htag _ rfl rfl

end

/-! ## Two ticks -/

/-- An invoice is open under the derived key `mi`, and a wrap to it, handled in `n` operations, arrives after a tick
whose first query was answered by `fault`. -/
def tickRun (fault : Option String) (n : Nat) : Run :=
  [.start (.createInvoice Sample.config 900 { amountGrin := some 100, matchMode := some "derived" }),
   .run 0 { text := "i" }, .run 0 { text := "tok" }, .run 0 {}, .run 0 {}, .run 0 {}, .run 0 {},
   .start (.boot Sample.config [109])] ++ List.replicate 6 (.run 1 {}) ++
  [.start (.maintenance Sample.config [109]), .run 2 { fault := fault }, .run 2 {}, .run 2 {},
   .start (.handleEvent Sample.config [109]
     ⟨"wrap", 1059, "payer", "BEGINSLATEPACK.ENDSLATEPACK.", [["p", "mi"]], 0, ""⟩)] ++ List.replicate n (.run 3 {})

def tickTrace (fault : Option String) (n : Nat) : List (Happening Sample.Wallet) :=
  heardIn Sample.upstream (World.fresh payerWallet 1000) (tickRun fault n)

section

variable {mode : MatchMode} {db : Db} {r : String}

theorem OpenDerived.of_any (h : (db.invoice.rows.any fun inv =>
    inv.recipientPubkey = some r && inv.status = .open && inv.effectiveMode mode = .derived) = true) : OpenDerived mode db r := by
  simpa [OpenDerived, and_assoc] using h

theorem Listens.of_all {W : Type} {T : List (Happening W)} (h : ((List.range T.length).all fun k =>
    T[k]?.all fun ev => !ev.eff.Resolves || seeded (T.take k)) = true) : Listens T := by
  intro T₁ ev T₂ hT hresolves
  have here := List.all_eq_true.1 h T₁.length (List.mem_range.2 (by rw [hT]; simp))
  rw [hT] at here
  simpa [hresolves] using here

end

theorem DroppedUnwatched.of_any {W : Type} {r : String} {tasks : List (Task Eff Call (World W) Heard)} (h : (tasks.any fun t =>
    match t.head.call, t.rest with
    | .handleEvent _ _ event, .ret (.outcome o) => Protocol.tagValue "p" event.tags = some r && o = .dropped "not a watched identity"
    | _, _ => false) = true) : ∃ t ∈ tasks, DroppedUnwatched r t := by
  obtain ⟨t, ht, hmatch⟩ := List.any_eq_true.1 h
  refine ⟨t, ht, ?_⟩
  split at hmatch
  · rename_i cfg master event o hcall hrest
    simp only [Bool.and_eq_true, decide_eq_true_eq] at hmatch
    exact ⟨cfg, master, event, hcall, hmatch.1, by rw [hrest, hmatch.2]⟩
  · cases hmatch

theorem tickRun_heard : (∀ t ∈ (heardAfter Sample.upstream (World.fresh payerWallet 1000) (tickRun none 20)).tasks, ¬ DroppedUnwatched "mi" t) ∧
    "slate:t" ∈ (heardAfter Sample.upstream (World.fresh payerWallet 1000) (tickRun none 20)).state.memory.seen := by
  have openThere : (tickTrace none 20).all (fun ev => ev.input.fault.isNone && ev.head.call.refreshes.all fun cfg =>
      ev.state.db.invoice.rows.any fun inv =>
        inv.recipientPubkey = some "mi" && inv.status = .open && inv.effectiveMode cfg.matchMode = .derived) = true := by decide
  have each := List.all_eq_true.1 openThere
  simp only [Bool.and_eq_true] at each
  have samples : Derive.Samples Sample.upstream := fun _ => ⟨0, by decide, rfl⟩
  refine ⟨heard_of_answered Sample.upstream samples _ _ "mi" (fun T₁ put T₂ ev T₃ htrace _ _ _ _ => ⟨.invoices, ?_⟩)
    (Listens.of_all (T := tickTrace none 20) (by decide)), by decide⟩
  intro ev' hev' hhead _
  have mem : ev' ∈ tickTrace none 20 := by
    rw [tickTrace, htrace]
    exact List.mem_append_left _ (List.mem_append_left _ hev')
  refine ⟨Option.isNone_iff_eq_none.1 (each ev' mem).1, fun cfg hcfg => ?_⟩
  have named := (each ev' mem).2
  rw [hhead, hcfg] at named
  exact OpenDerived.of_any named

/-- A tick fails its query while the invoice stays open: the wrap is dropped, and marked so that it is never looked at again. -/
theorem tickRun_drops : (∀ ev ∈ (tickTrace (some "busy") 4).drop 6, OpenDerived Sample.config.matchMode ev.state.db "mi") ∧
    (∀ ev ∈ tickTrace (some "busy") 4, ev.input.fault ≠ none → ev.head.call = .maintenance Sample.config [109]) ∧
    Listens (tickTrace (some "busy") 4) ∧
    ∃ t ∈ (heardAfter Sample.upstream (World.fresh payerWallet 1000) (tickRun (some "busy") 4)).tasks, DroppedUnwatched "mi" t ∧
      "wrap" ∈ (heardAfter Sample.upstream (World.fresh payerWallet 1000) (tickRun (some "busy") 4)).state.memory.seen := by
  have openThere : ((tickTrace (some "busy") 4).drop 6).all (fun ev => ev.state.db.invoice.rows.any fun inv =>
      inv.recipientPubkey = some "mi" && inv.status = .open && inv.effectiveMode Sample.config.matchMode = .derived) = true := by decide
  have inTick : (tickTrace (some "busy") 4).all (fun ev => ev.input.fault.isNone || ev.head.call = .maintenance Sample.config [109]) = true := by
    decide
  refine ⟨fun ev hev => OpenDerived.of_any (List.all_eq_true.1 openThere ev hev), fun ev hev hfault => ?_,
    Listens.of_all (by decide), ?_⟩
  · simpa [hfault] using List.all_eq_true.1 inTick ev hev
  · obtain ⟨t, ht, hdropped⟩ : ∃ t ∈ (heardAfter Sample.upstream (World.fresh payerWallet 1000) (tickRun (some "busy") 4)).tasks,
        DroppedUnwatched "mi" t := DroppedUnwatched.of_any (by decide)
    exact ⟨t, ht, hdropped, by decide⟩

end GoblinPay
