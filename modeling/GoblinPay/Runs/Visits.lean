import GoblinPay.Async.Process
import GoblinPay.Nostr.Armor
import GoblinPay.Nostr.Ingest
import GoblinPay.Runs.Identities
import GoblinPay.Runs.Outside
import GoblinPay.Runs.Resolve
import GoblinPay.Sample

/-!
# Visits to the ingest

One wrap is handled after the other, and between any two operations of the ingest everything but its own
markers may change: the clock, the rate windows, the directory, the wallet and the ledger. `Gates` keeps
what a visit passed; `handleWrap_visits` says which visits reach the wallet, and which leave no second try.
-/

namespace GoblinPay

open Async

def Eff.Restarts {β : Type} : Eff β → Prop
  | .restart => True
  | _ => False

/-- The marker an operation leaves. -/
def Eff.marker {β : Type} : Eff β → Option String
  | .mark key => some key
  | _ => none

/-! ## One visit -/

/-- The ingest's own part of the state: its markers. -/
def World.keepSeen {W : Type} (s t : World W) : World W := { t with memory := { t.memory with seen := s.memory.seen } }

/-- The operations of the ingest, in a world where everything but its markers may change between any two
of them. -/
def ingesting {W : Type} (U : Upstream W) : Handler Eff (Answer × World W) (World W) := (handler U).amid World.keepSeen

/-- What a visit passed. -/
structure Gates where
  /-- under the global ceiling -/
  global : Bool := false
  /-- the directory's answer -/
  directory : Snapshot := []
  /-- the sender found under its limit -/
  sender : Option String := none
  /-- the slatepack reached the receiver -/
  reached : Bool := false

def Gates.gain {β : Type} (a : Gates) : Eff β → β → Gates
  | .allow _ _ _ none, ok => { a with global := ok }
  | .allow key _ _ (some _), ok => { a with sender := if ok then some key else none }
  | .snapshot, map => { a with directory := map }
  | .slateFromSlatepackMessage _, _ => { a with reached := true }
  | _, _ => a

/-- Received or dropped: no outcome that leaves a second try. -/
def IngestOutcome.settled : IngestOutcome → Bool
  | .received .. | .dropped _ => true
  | .rateLimited | .failed _ => false

/-- The outcome is final for the wrap. -/
def IngestOutcome.Final (event : NostrEvent) : IngestOutcome → Prop
  | .received .. => True
  | .dropped _ => event.kind = Wrap.wrapKind
  | .rateLimited | .failed _ => False

instance {event : NostrEvent} : DecidablePred (IngestOutcome.Final event)
  | .received .. => .isTrue trivial
  | .dropped _ => inferInstanceAs (Decidable (event.kind = Wrap.wrapKind))
  | .rateLimited | .failed _ => .isFalse id

section

variable {W : Type} (U : Upstream W) (cfg : Config) (master : Secret)

/-- The visit got as far as the rumor. -/
structure Opened (event : NostrEvent) (a : Gates) (u : Unwrapped) : Prop where
  global : a.global = true
  unwraps : ∃ hex keys, Protocol.tagValue "p" event.tags = some hex ∧ heldKeys U master a.directory hex = some keys ∧
    Wrap.unwrapGiftWrap U keys event = .ok u

/-- What a wrap must be, and a visit must have passed, for the slatepack to reach the receiver. -/
structure Payable (event : NostrEvent) (a : Gates) (u : Unwrapped) : Prop where
  kind : event.kind = Wrap.wrapKind
  size : Text.bytes event.content.toList ≤ Protocol.maxWrapContent
  opened : Opened U master event a u
  rumorKind : u.rumor.kind = Ingest.privateDirectMessage
  rumorSize : Text.bytes u.rumor.content.toList ≤ Protocol.maxRumorContent
  foreign : u.sender ≠ U.xonlyHex master
  oneBlock : ∃ block, Protocol.blocks u.rumor.content.toList = [block]
  sender : a.sender = some u.sender

/-- Anywhere in a visit that found the markers `seen`. -/
structure Along (event : NostrEvent) (seen : List String) (a : Gates) (s : World W) : Prop where
  keeps : ∀ key ∈ seen, key ∈ s.memory.seen
  reached : a.reached = true → event.id ∉ seen ∧ ∃ u, Payable U master event a u ∧ u.rumor.id ∉ seen

/-- At the end of a visit that found the markers `seen`. -/
structure Visited (event : NostrEvent) (seen : List String) (out : IngestOutcome) (a : Gates) (s : World W) : Prop
    extends Along U master event seen a s where
  wrap : out.Final event → event.id ∈ s.memory.seen
  rumor : out.settled = true → ∀ u, Opened U master event a u → u.rumor.id ∈ s.memory.seen
  retry : out.settled = false → s.memory.seen = seen

/-- The contract of a visit. -/
abbrev visiting (P : Gates → World W → Prop) : Discipline (ingesting U) Unit Gates :=
  .solo (ingesting U) P (fun _ _ _ => True) fun a => a.gain

variable {U cfg master} {P : Gates → World W → Prop} {α : Type} {Q : α → Gates → World W → Prop} {a : Gates} {s : World W}
  {event : NostrEvent} {seen : List String} {u : Unwrapped}

theorem visiting_isSeen {key : String} {k : Bool → Io α} (hP : P a s)
    (hk : ∀ s', s'.memory.seen = s.memory.seen → Meets (visiting U P) () Q (k (s.memory.seen.contains key)) a s') :
    Meets (visiting U P) () Q (Ingest.isSeen key >>= k) a s :=
  Meets.soloStep (k := k) hP fun _ _ => hk _ rfl

theorem visiting_mark {key : String} {k : Unit → Io α} (hP : P a s)
    (hk : ∀ s', s'.memory.seen = key :: s.memory.seen → Meets (visiting U P) () Q (k ()) a s') :
    Meets (visiting U P) () Q (Ingest.mark key >>= k) a s :=
  Meets.soloStep (k := k) hP fun _ _ => hk _ rfl

theorem visiting_allow {key : String} {limit : Nat} {window : Int} {cap : Option Nat} {k : Bool → Io α} (hP : P a s)
    (hk : ∀ ok s', s'.memory.seen = s.memory.seen → Meets (visiting U P) () Q (k ok) (a.gain (.allow key limit window cap) ok) s') :
    Meets (visiting U P) () Q (Prog.call (Eff.allow key limit window cap) >>= k) a s := by
  refine Meets.soloStep (k := k) hP fun x _ => hk _ _ ?_
  simp only [ingesting, Handler.amid, handler, act, Memory.allow]
  split <;> rfl

/-- The directory answers by the keys it holds. -/
theorem visiting_resolve {recipient : String} (hP : P a s) (hdirectory : a.directory = []) :
    Meets (visiting U P) () (fun keys a' s' => s'.memory.seen = s.memory.seen ∧ ∃ map, a' = { a with directory := map } ∧
        keys = heldKeys U master map recipient)
      (Directory.resolve U master recipient) a s := by
  unfold Directory.resolve
  split
  · rename_i hmaster
    exact Meets.soloRet ⟨rfl, [], by rw [← hdirectory], by rw [heldKeys, if_pos hmaster]⟩
  · rename_i hother
    refine Meets.soloStep hP fun x _ => Meets.soloRet ⟨rfl, _, rfl, ?_⟩
    rw [heldKeys, if_neg hother]

theorem Opened.unique {u' : Unwrapped} (h : Opened U master event a u) (h' : Opened U master event a u') : u = u' := by
  obtain ⟨-, hex, keys, htag, hkeys, hu⟩ := h
  obtain ⟨-, hex', keys', htag', hkeys', hu'⟩ := h'
  rw [htag] at htag'
  cases htag'
  rw [hkeys] at hkeys'
  cases hkeys'
  rw [hu] at hu'
  cases hu'
  rfl

theorem Along.idle (hs : s.memory.seen = seen) (ha : a.reached = false) : Along U master event seen a s where
  keeps key hkey := by rw [hs]; exact hkey
  reached h := by rw [ha] at h; cases h

theorem Along.mono {s' : World W} (h : Along U master event seen a s) (hseen : ∀ key ∈ s.memory.seen, key ∈ s'.memory.seen) :
    Along U master event seen a s' where
  keeps key hkey := hseen key (h.keeps key hkey)
  reached := h.reached

/-- A visit that left no marker. -/
theorem Along.unsettled {out : IngestOutcome} (h : Along U master event seen a s) (hout : out.settled = false)
    (hs : s.memory.seen = seen) : Visited U master event seen out a s where
  toAlong := h
  wrap h := by
    cases out with
    | received | dropped => cases hout
    | rateLimited | failed => exact h.elim
  rumor h := by rw [hout] at h; cases h
  retry _ := hs

/-- Dropped for good before the rumor was seen. -/
theorem visiting_refuse {reason : String} (hs : s.memory.seen = seen) (ha : a.reached = false)
    (closed : ∀ u, ¬ Opened U master event a u) :
    Meets (visiting U (Along U master event seen)) () (Visited U master event seen)
      (Ingest.mark event.id >>= fun _ => .ret (.dropped reason)) a s := by
  refine visiting_mark (Along.idle hs ha) fun s' hs' => Meets.soloRet ?_
  have marked : event.id ∈ s'.memory.seen := by rw [hs']; exact List.mem_cons_self
  refine ⟨(Along.idle hs ha).mono fun key hkey => ?_, fun _ => marked, fun _ u hu => absurd hu (closed u), fun h => by cases h⟩
  rw [hs']
  exact List.mem_cons_of_mem _ hkey

/-- Dropped for good once the rumor was seen. -/
theorem visiting_drop {reason : String} (hA : Along U master event seen a s) (hu : Opened U master event a u) :
    Meets (visiting U (Along U master event seen)) () (Visited U master event seen)
      (Ingest.drop event.id u.rumor.id reason) a s := by
  refine visiting_mark hA fun s₁ h₁ => ?_
  have hA₁ : Along U master event seen a s₁ := hA.mono fun key hkey => by
    rw [h₁]
    exact List.mem_cons_of_mem _ hkey
  refine visiting_mark hA₁ fun s₂ h₂ => Meets.soloRet ?_
  have hA₂ : Along U master event seen a s₂ := hA₁.mono fun key hkey => by
    rw [h₂]
    exact List.mem_cons_of_mem _ hkey
  refine ⟨hA₂, fun _ => ?_, fun _ u' hu' => ?_, fun h => by cases h⟩
  · rw [h₂, h₁]
    exact List.mem_cons_of_mem _ List.mem_cons_self
  · rw [hu'.unique hu, h₂]
    exact List.mem_cons_self

/-- What the handoff tells the visit. -/
theorem Gates.gain_outside {β : Type} (a : Gates) (e : Eff β) (b : β) (he : e.Outside) :
    a.gain e b = a ∨ a.gain e b = { a with reached := true } := by
  cases e <;> first | exact he.elim | exact Or.inl rfl | exact Or.inr rfl

/-- Of the operations of a visit only a mark changes the markers. -/
theorem ingesting_seen {β : Type} {e : Eff β} (he : ¬ e.Restarts) (x : Answer × World W) (s : World W) :
    ((ingesting U).act e x s).2.memory.seen = e.marker.toList ++ s.memory.seen := by
  cases e
  all_goals first | exact (he trivial).elim | rfl | skip
  all_goals simp only [ingesting, Handler.amid, handler, act, World.keepSeen, Eff.marker, Option.toList_none, List.nil_append]
  all_goals first | (split <;> rfl) | (simp only [Memory.allow]; split <;> rfl)

theorem ingesting_outside {β : Type} {e : Eff β} (he : e.Outside) (x : Answer × World W) (s : World W) :
    ((ingesting U).act e x s).2.memory.seen = s.memory.seen := by
  have hrestart : ¬ e.Restarts := by cases e <;> first | exact fun h => h | exact he.elim
  have hmarker : e.marker = none := by cases e <;> first | rfl | exact he.elim
  rw [ingesting_seen hrestart, hmarker]
  rfl

theorem visiting_handOff {keys : Secret} (hs : s.memory.seen = seen) (hid : event.id ∉ seen) (hrumor : u.rumor.id ∉ seen)
    (hpay : Payable U master event a u) (hreached : a.reached = false) :
    Meets (visiting U (Along U master event seen)) () (Visited U master event seen)
      (Ingest.handOff U cfg event.id keys u) a s := by
  -- the gates stay as they are while the receiver works
  have along : ∀ {a' : Gates} {s' : World W}, s'.memory.seen = seen → (a' = a ∨ a' = { a with reached := true }) →
      Along U master event seen a' s' ∧ Opened U master event a' u := by
    rintro a' s' hs' (rfl | rfl)
    · exact ⟨.idle hs' hreached, hpay.opened⟩
    · exact ⟨⟨fun key hkey => by rw [hs']; exact hkey, fun _ => ⟨hid, u, { hpay with opened := ⟨hpay.opened.global, hpay.opened.unwraps⟩ }, hrumor⟩⟩,
        hpay.opened.global, hpay.opened.unwraps⟩
  unfold Ingest.handOff
  dsimp only
  refine Meets.andThen (Meets.of_only_carry (K := fun a' s' => s'.memory.seen = seen ∧ (a' = a ∨ a' = { a with reached := true }))
    ((footprint_receive U cfg _ _).silent.mono fun _ he => he.outside) ⟨hs, Or.inl rfl⟩ (fun _ _ _ hr _ hK => ?_) (fun _ a' s' _ _ hK => (along hK.1 hK.2).1)
    fun e x a' s' he _ hK _ => ?_) fun r a' s' _ hK => ?_
  · obtain rfl := hr
    exact hK
  · refine ⟨(ingesting_outside he x s').trans hK.1, ?_⟩
    rcases hK.2 with rfl | rfl
    · exact Gates.gain_outside _ e _ he
    · rcases Gates.gain_outside { a with reached := true } e _ he with h | h
      · exact Or.inr h
      · exact Or.inr h
  · obtain ⟨hA, hopened⟩ := along hK.1 hK.2
    cases r with
    | ok payment =>
      have grows : ∀ {key : String} {s₁ s₂ : World W}, s₂.memory.seen = key :: s₁.memory.seen → Along U master event seen a' s₁ →
          Along U master event seen a' s₂ := fun h hA => hA.mono fun k hk => by
        rw [h]
        exact List.mem_cons_of_mem _ hk
      refine visiting_mark hA fun s₁ h₁ => ?_
      refine visiting_mark (grows h₁ hA) fun s₂ h₂ => ?_
      refine visiting_mark (grows h₂ (grows h₁ hA)) fun s₃ h₃ => Meets.soloRet ?_
      refine ⟨grows h₃ (grows h₂ (grows h₁ hA)), fun _ => ?_, fun _ u' hu' => ?_, fun h => by cases h⟩
      · rw [h₃, h₂, h₁]
        simp
      · rw [hu'.unique hopened, h₃, h₂]
        simp
    | error e =>
      cases e with
      | duplicate => exact visiting_drop hA hopened
      | rejected m => exact visiting_drop hA hopened
      | failed m => exact Meets.soloRet (hA.unsettled rfl hK.1)

/-- The policy lets a message pass if it is new, foreign and carries a slatepack. -/
theorem decide_autoReceive {ctx : IngestContext} (h : ctx.decide = .autoReceive) :
    ctx.duplicate = false ∧ ctx.isSelf = false ∧ ctx.rumorIsDm = true ∧ ctx.hasSlatepack = true := by
  unfold IngestContext.decide at h
  grind

theorem visiting_screen {keys : Secret} (hs : s.memory.seen = seen) (hid : event.id ∉ seen) (hkind : event.kind = Wrap.wrapKind)
    (hsize : Text.bytes event.content.toList ≤ Protocol.maxWrapContent) (hopened : Opened U master event a u)
    (hreached : a.reached = false) :
    Meets (visiting U (Along U master event seen)) () (Visited U master event seen)
      (Ingest.screen U cfg master event.id keys u) a s := by
  refine visiting_isSeen (.idle hs hreached) fun s₁ h₁ => ?_
  have hs₁ : s₁.memory.seen = seen := h₁.trans hs
  cases hdecide : (Ingest.context U master u (s.memory.seen.contains u.rumor.id)).decide with
  | drop reason => exact visiting_drop (.idle hs₁ hreached) hopened
  | autoReceive =>
    obtain ⟨hnew, hforeign, hdm, hpack⟩ := decide_autoReceive hdecide
    have hrumor : u.rumor.id ∉ seen := by simpa [Ingest.context, hs] using hnew
    simp only [Ingest.context, decide_eq_false_iff_not, Bool.and_eq_true, decide_eq_true_eq] at hforeign hdm hpack
    obtain ⟨armor, harmor⟩ := Option.isSome_iff_exists.1 hpack
    obtain ⟨block, hblock, -⟩ := Protocol.extractSlatepack_block harmor
    refine visiting_allow (.idle hs₁ hreached) fun ok s₂ h₂ => ?_
    have hs₂ : s₂.memory.seen = seen := h₂.trans hs₁
    cases ok with
    | false =>
      refine Meets.soloRet (Along.unsettled ?_ rfl hs₂)
      exact .idle hs₂ hreached
    | true =>
      refine visiting_handOff hs₂ hid hrumor ?_ hreached
      exact { kind := hkind, size := hsize, opened := ⟨hopened.global, hopened.unwraps⟩, rumorKind := hdm.1, rumorSize := hdm.2,
              foreign := hforeign, oneBlock := ⟨block, hblock⟩, sender := rfl }

theorem visiting_openWrap (hs : s.memory.seen = seen) (hid : event.id ∉ seen) (hkind : event.kind = Wrap.wrapKind)
    (hsize : Text.bytes event.content.toList ≤ Protocol.maxWrapContent) (ha : a = { global := true }) :
    Meets (visiting U (Along U master event seen)) () (Visited U master event seen)
      (Ingest.openWrap U cfg master event) a s := by
  subst ha
  refine Meets.andThen (I := fun keys a' s' => s'.memory.seen = seen ∧ ∃ map, a' = { global := true, directory := map } ∧
    keys = (Protocol.tagValue "p" event.tags).bind (heldKeys U master map)) ?_ fun keys a' s₁ _ h => ?_
  · unfold Ingest.recipientKeys
    split
    · rename_i hex htag
      refine (visiting_resolve (.idle hs rfl) rfl).mono fun keys a' s' _ h => ?_
      obtain ⟨hs', map, rfl, rfl⟩ := h
      exact ⟨hs'.trans hs, map, rfl, by rw [htag]; rfl⟩
    · rename_i htag
      exact Meets.soloRet ⟨hs, [], rfl, by rw [htag]; rfl⟩
  · obtain ⟨hs₁, map, rfl, rfl⟩ := h
    cases hkeys : (Protocol.tagValue "p" event.tags).bind (heldKeys U master map) with
    | none =>
      refine visiting_refuse hs₁ rfl ?_
      rintro u ⟨-, hex, keys, htag, hheld, -⟩
      have hheld : heldKeys U master map hex = some keys := hheld
      rw [htag, Option.bind_some, hheld] at hkeys
      cases hkeys
    | some keys =>
      obtain ⟨hex, htag, hheld⟩ := Option.bind_eq_some_iff.1 hkeys
      cases hu : Wrap.unwrapGiftWrap U keys event with
      | error e =>
        simp only [hu]
        refine visiting_refuse hs₁ rfl ?_
        rintro u ⟨-, hex', keys', htag', hheld', hu'⟩
        rw [htag] at htag'
        cases htag'
        have hheld' : heldKeys U master map hex = some keys' := hheld'
        rw [hheld] at hheld'
        cases hheld'
        rw [hu] at hu'
        cases hu'
      | ok u =>
        simp only [hu]
        exact visiting_screen hs₁ hid hkind hsize ⟨rfl, hex, keys, htag, hheld, hu⟩ rfl

variable (cfg) in
/-- A visit, from the markers it found. -/
theorem visiting_handleWrap (event : NostrEvent) (s : World W) :
    Meets (visiting U (Along U master event s.memory.seen)) () (Visited U master event s.memory.seen)
      (Ingest.handleWrap U cfg master event) {} s := by
  have closed : ∀ {a : Gates}, a.global = false → ∀ u, ¬ Opened U master event a u := by
    intro a ha u hu
    rw [hu.global] at ha
    cases ha
  unfold Ingest.handleWrap
  split
  · rename_i hkind
    exact Meets.soloRet ⟨.idle rfl rfl, fun h => absurd h hkind, fun _ u hu => absurd hu (closed rfl u), fun h => by cases h⟩
  rename_i hkind
  split
  · exact visiting_refuse rfl rfl (closed rfl)
  rename_i hsize
  refine visiting_isSeen (.idle rfl rfl) fun s₁ h₁ => ?_
  cases hseen : s.memory.seen.contains event.id with
  | true =>
    refine Meets.soloRet ⟨.idle h₁ rfl, fun _ => ?_, fun _ u hu => absurd hu (closed rfl u), fun h => by cases h⟩
    rw [h₁]
    simpa using hseen
  | false =>
    have hid : event.id ∉ s.memory.seen := by simpa using hseen
    refine visiting_allow (.idle h₁ rfl) fun ok s₂ h₂ => ?_
    cases ok with
    | false => exact Meets.soloRet ((Along.idle (h₂.trans h₁) rfl).unsettled rfl (h₂.trans h₁))
    | true => exact visiting_openWrap (h₂.trans h₁) hid (not_not.1 hkind) (not_lt.1 hsize) rfl

end

/-! ## Visits one after the other -/

/-- One call of `handle_wrap`, with what the environment answers. -/
structure Visit (W : Type) where
  event : NostrEvent
  inputs : List (Answer × World W)

section

variable {W : Type} (U : Upstream W) (cfg : Config) (master : Secret)

namespace Visit

variable (v : Visit W) (s : World W)

def after : World W := ((Ingest.handleWrap U cfg master v.event).exec (ingesting U) v.inputs s).2

/-- None when the call was broken off. -/
def outcome : Option IngestOutcome :=
  match ((Ingest.handleWrap U cfg master v.event).exec (ingesting U) v.inputs s).1 with
  | .ret out => some out
  | .await .. => none

def gates : Gates :=
  ((Ingest.handleWrap U cfg master v.event).events (ingesting U) () v.inputs s).foldl
    (fun a ev => a.gain ev.eff (ev.answer (ingesting U))) {}

/-- The slatepack of the wrap reached the receiver. -/
def reached : Bool := (v.gates U cfg master s).reached

end Visit

def sitting (vs : List (Visit W)) (s : World W) : World W := vs.foldl (fun s v => v.after U cfg master s) s

variable {U cfg master} {v : Visit W} {s : World W}

theorem Visit.visited {out : IngestOutcome} (h : v.outcome U cfg master s = some out) :
    Visited U master v.event s.memory.seen out (v.gates U cfg master s) (v.after U cfg master s) := by
  rcases (visiting_handleWrap cfg v.event s).soloExec v.inputs (fun _ _ => trivial) with ⟨out', hret, hv⟩ | ⟨hstopped, -⟩
  · rw [outcome, hret] at h
    cases h
    exact hv
  · unfold outcome at h
    split at h
    · rename_i out' hret
      exact absurd hret (hstopped out')
    · cases h

variable (U cfg master) in
theorem Visit.along (v : Visit W) (s : World W) :
    Along U master v.event s.memory.seen (v.gates U cfg master s) (v.after U cfg master s) := by
  rcases (visiting_handleWrap cfg v.event s).soloExec v.inputs (fun _ _ => trivial) with ⟨out, _, hv⟩ | ⟨_, hA⟩
  · exact hv.toAlong
  · exact hA

/-- A marker stays. -/
theorem sitting_seen {key : String} (h : key ∈ s.memory.seen) (vs : List (Visit W)) :
    key ∈ (sitting U cfg master vs s).memory.seen := by
  induction vs generalizing s with
  | nil => exact h
  | cons v vs ih => exact ih ((v.along U cfg master s).keeps key h)

variable (U cfg master) in
/-- A visit `v`, then any others, then a visit `v'`: only a payable wrap reaches the receiver; after a
final outcome neither the same wrap does nor, if the rumor was seen, another one with the same rumor;
and any other outcome leaves the markers as they were. -/
theorem handleWrap_visits (s : World W) (v : Visit W) (vs : List (Visit W)) (v' : Visit W) :
    (v.reached U cfg master s = true → ∃ u, Payable U master v.event (v.gates U cfg master s) u) ∧
    (∀ out, v.outcome U cfg master s = some out → out.Final v.event → v'.event.id = v.event.id →
      v'.reached U cfg master (sitting U cfg master vs (v.after U cfg master s)) = false) ∧
    (∀ out, v.outcome U cfg master s = some out → out.settled = true →
      ∀ u, Opened U master v.event (v.gates U cfg master s) u →
      ∀ u', Opened U master v'.event (v'.gates U cfg master (sitting U cfg master vs (v.after U cfg master s))) u' →
        u'.rumor.id = u.rumor.id → v'.reached U cfg master (sitting U cfg master vs (v.after U cfg master s)) = false) ∧
    (∀ out, v.outcome U cfg master s = some out → out.settled = false → (v.after U cfg master s).memory.seen = s.memory.seen) := by
  have later := v'.along U cfg master (sitting U cfg master vs (v.after U cfg master s))
  refine ⟨fun hr => ?_, fun out hout final hid => ?_, fun out hout settled u hu u' hu' hid => ?_, fun out hout settled => ?_⟩
  · obtain ⟨-, u, hpay, -⟩ := (v.along U cfg master s).reached hr
    exact ⟨u, hpay⟩
  · by_contra hr
    obtain ⟨fresh, -⟩ := later.reached (Bool.of_not_eq_false hr)
    rw [hid] at fresh
    exact fresh (sitting_seen ((Visit.visited hout).wrap final) vs)
  · by_contra hr
    obtain ⟨-, u₂, hpay, fresh⟩ := later.reached (Bool.of_not_eq_false hr)
    rw [hpay.opened.unique hu', hid] at fresh
    exact fresh (sitting_seen ((Visit.visited hout).rumor settled u hu) vs)
  · exact (Visit.visited hout).retry settled

end

/-- A wrap to the master key, with a payment in circulation. -/
def payment : Visit Sample.Wallet where
  event := ⟨"wrap", 1059, "ephemeral", "BEGINSLATEPACK.ENDSLATEPACK.", [["p", "m"]], 0, ""⟩
  inputs := List.replicate 30 ({}, { Sample.world with
    wallet := { Sample.wallet with packs := [("BEGINSLATEPACK.ENDSLATEPACK.", ⟨"t", .standard1, 100, none⟩)] } })

/-- It reaches the receiver, and does so once. -/
theorem payment_once : payment.reached Sample.upstream Sample.config [109] Sample.world = true ∧
    payment.reached Sample.upstream Sample.config [109]
      (payment.after Sample.upstream Sample.config [109] Sample.world) = false := by
  obtain ⟨out, hout, final⟩ : ∃ out, payment.outcome Sample.upstream Sample.config [109] Sample.world = some out ∧
    out.Final payment.event := by decide
  exact ⟨by decide, (handleWrap_visits Sample.upstream Sample.config [109] Sample.world payment [] payment).2.1 out hout final rfl⟩

end GoblinPay
