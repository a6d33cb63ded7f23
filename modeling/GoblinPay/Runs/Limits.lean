import GoblinPay.Async.Process
import GoblinPay.Limit.Window
import GoblinPay.Nostr.Ingest
import Mathlib.Data.Finset.Dedup
import Mathlib.Data.Finset.Order

/-!
# The rate limits

Both limiters of the ingest keep their hits in one map, which drops idle keys when it grows too large.
Nothing that a window can still hold is ever dropped, so each limiter admits what its window has room for,
and no more. What passes is all that is decrypted, or reaches the receiver (`handleWrap_visits`).
-/

namespace GoblinPay

open Async Limit

/-- A public key as the ingest names a sender: lowercase hex. -/
structure SenderHex where
  hex : String
  isHex : ∀ c ∈ hex.toList, c ∈ "0123456789abcdef".toList
  deriving DecidableEq

/-- The two limiters: `allow_sender`, and `allow_global_unwrap`. -/
inductive Gate
  | sender (s : SenderHex)
  | unwrap
  deriving DecidableEq

namespace Gate

def key : Gate → String
  | .sender s => s.hex
  | .unwrap => "\x00global"

def limit : Gate → Nat
  | .sender _ => Ingest.ratePerSenderPerHour
  | .unwrap => Ingest.globalUnwrapPerMin

def window : Gate → Int
  | .sender _ => 3600
  | .unwrap => 60

def cap : Gate → Option Nat
  | .sender _ => some Ingest.rateMapCap
  | .unwrap => none

def allow (g : Gate) (now : Time) (m : Memory) : Bool × Memory := m.allow now g.key g.limit g.window g.cap

/-- What the two functions of the ingest do. -/
theorem ask_sender {W : Type} (U : Upstream W) (s : SenderHex) (x : Answer) (w : World W) :
    (Ingest.allowSender s.hex).exec (handler U) [x] w =
      (.ret ((Gate.sender s).allow w.now w.memory).1, { w with memory := ((Gate.sender s).allow w.now w.memory).2 }) := rfl

theorem ask_unwrap {W : Type} (U : Upstream W) (x : Answer) (w : World W) :
    Ingest.allowGlobalUnwrap.exec (handler U) [x] w =
      (.ret (Gate.unwrap.allow w.now w.memory).1, { w with memory := (Gate.unwrap.allow w.now w.memory).2 }) := rfl

theorem key_inj {g g' : Gate} (h : g.key = g'.key) : g = g' := by
  have apart : ∀ s : SenderHex, s.hex ≠ "\x00global" := fun s hs => by
    have := s.isHex (Char.ofNat 0) (by rw [hs]; decide)
    revert this
    decide
  cases g with
  | sender s =>
    cases g' with
    | sender s' =>
      cases s
      cases s'
      cases h
      rfl
    | unwrap => exact absurd h (apart s)
  | unwrap =>
    cases g' with
    | sender s' => exact absurd h.symm (apart s')
    | unwrap => rfl

theorem window_le (g : Gate) : g.window ≤ 3600 := by
  cases g with
  | sender s => exact Int.le_refl _
  | unwrap => decide

end Gate

/-- What the limiters have seen: their map, and what they let pass. -/
structure Traffic where
  memory : Memory
  passed : List (Gate × Time)

namespace Traffic

def start : Traffic := ⟨Memory.empty, []⟩

/-- An event asks a limiter, at some time. -/
def ask (t : Traffic) (e : Gate × Time) : Traffic where
  memory := (e.1.allow e.2 t.memory).2
  passed := if (e.1.allow e.2 t.memory).1 then t.passed ++ [e] else t.passed

def after (events : List (Gate × Time)) : Traffic := events.foldl ask start

/-- When events passed the limiter `g`. -/
def passes (t : Traffic) (g : Gate) : List Time := (t.passed.filter fun e => e.1 = g).map Prod.snd

def hits (t : Traffic) (g : Gate) : List Time := (t.memory.rate.lookup g.key).getD []

/-- The map forgets nothing of use, and no window is overfull. -/
structure Fair (now : Time) (t : Traffic) : Prop where
  nodup : (t.memory.rate.map Prod.fst).Nodup
  kept : ∀ g, Remembers g.window now (t.passes g) (t.hits g)
  bounded : ∀ g : Gate, Bounded g.limit g.window (t.passes g)

variable {t : Traffic} {now next : Time} {g : Gate}

theorem Fair.later (h : t.Fair now) (hle : now ≤ next) : t.Fair next :=
  ⟨h.nodup, fun g => (h.kept g).later hle, h.bounded⟩

theorem start_fair (now : Time) : start.Fair now :=
  ⟨List.nodup_nil, fun _ => .refl _, fun _ _ => Nat.zero_le _⟩

theorem passes_append (g' : Gate) : passes ⟨t.memory, t.passed ++ [(g, now)]⟩ g' =
    if g = g' then t.passes g' ++ [now] else t.passes g' := by
  simp only [passes, List.filter_append, List.map_append]
  split
  · rename_i h
    simp [h]
  · rename_i h
    simp [h]

/-- The two ways an event can go. Pruning drops the keys without a hit within the window. -/
theorem allow_cases (g : Gate) (now : Time) (m : Memory) :
    (g.limit ≤ (recent g.window now ((m.rate.lookup g.key).getD [])).length ∧
      g.allow now m = (false, { m with rate := put g.key (recent g.window now ((m.rate.lookup g.key).getD [])) m.rate })) ∨
    ((recent g.window now ((m.rate.lookup g.key).getD [])).length < g.limit ∧
      ∃ rate, g.allow now m = (true, { m with rate := rate }) ∧
        (rate = put g.key (recent g.window now ((m.rate.lookup g.key).getD []) ++ [now]) m.rate ∨
          g.window = 3600 ∧ rate = (put g.key (recent g.window now ((m.rate.lookup g.key).getD []) ++ [now]) m.rate).filter
            fun r => r.2.any fun t => now - t < 3600)) := by
  simp only [Gate.allow, Memory.allow]
  by_cases hfull : g.limit ≤ (recent g.window now ((m.rate.lookup g.key).getD [])).length
  · exact Or.inl ⟨hfull, if_pos hfull⟩
  · refine Or.inr ⟨Nat.lt_of_not_le hfull, _, if_neg hfull, ?_⟩
    cases g with
    | unwrap => exact Or.inl rfl
    | sender s =>
      split
      · exact Or.inr ⟨rfl, rfl⟩
      · exact Or.inl rfl

/-- An event keeps the limiters fair. -/
theorem Fair.ask {e : Gate × Time} (h : t.Fair now) (hle : now ≤ e.2) : (t.ask e).Fair e.2 := by
  obtain ⟨g, next⟩ := e
  have h : t.Fair next := h.later hle
  have others : ∀ {g' v}, g' ≠ g → (put g.key v t.memory.rate).lookup g'.key = t.memory.rate.lookup g'.key := fun hne =>
    lookup_put_ne (fun hkey => hne (Gate.key_inj hkey)) _ _
  rcases allow_cases g next t.memory with ⟨hfull, heq⟩ | ⟨hroom, rate, heq, hrate⟩
  · refine ⟨?_, fun g' => ?_, fun g' => ?_⟩
    · simp only [Traffic.ask, heq]
      exact nodup_put _ _ h.nodup
    · simp only [Traffic.ask, heq, hits, Bool.false_eq_true, if_false]
      by_cases hg : g' = g
      · subst hg
        rw [lookup_put_self]
        exact (h.kept g').forget (le_refl _)
      · rw [others hg]
        exact h.kept g'
    · simp only [Traffic.ask, heq, Bool.false_eq_true, if_false]
      exact h.bounded g'
  · have admitted : ∀ g', Remembers g'.window next (passes ⟨t.memory, t.passed ++ [(g, next)]⟩ g')
        (((put g.key (recent g.window next ((t.memory.rate.lookup g.key).getD []) ++ [next]) t.memory.rate).lookup
          g'.key).getD []) := by
      intro g'
      rw [passes_append]
      by_cases hg : g = g'
      · subst hg
        rw [if_pos rfl, lookup_put_self]
        exact ((h.kept g).forget (le_refl _)).enter
      · rw [if_neg hg, others (Ne.symm hg)]
        exact h.kept g'
    have unique := nodup_put g.key (recent g.window next ((t.memory.rate.lookup g.key).getD []) ++ [next]) h.nodup
    have bounded : ∀ g' : Gate, Bounded g'.limit g'.window (passes ⟨t.memory, t.passed ++ [(g, next)]⟩ g') := by
      intro g'
      rw [passes_append]
      split
      · rename_i hg
        subst hg
        refine (h.bounded g).enter ?_
        rw [← h.kept g next (le_refl _)]
        exact hroom
      · exact h.bounded g'
    have asked : t.ask (g, next) = ⟨{ t.memory with rate := rate }, t.passed ++ [(g, next)]⟩ := by
      simp only [Traffic.ask, heq, if_true]
    rw [asked]
    rcases hrate with rfl | ⟨-, rfl⟩
    · exact ⟨unique, admitted, bounded⟩
    · refine ⟨unique.sublist (List.filter_sublist.map _), fun g' => ?_, bounded⟩
      have pruned := lookup_filter unique (fun hits => hits.any fun u => next - u < 3600) g'.key
      simp only [hits]
      rw [pruned]
      exact (admitted g').prune g'.window_le

/-- The limiters are fair at the end of every run. -/
theorem after_fair {events : List (Gate × Time)} (clock : (events.map Prod.snd).Pairwise (· ≤ ·))
    (past : ∀ e ∈ events, e.2 ≤ now) : (after events).Fair now := by
  induction events using List.reverseRecOn generalizing now with
  | nil => exact start_fair now
  | append_singleton events e ih =>
    rw [List.map_append, List.pairwise_append] at clock
    have before : ∀ e' ∈ events, e'.2 ≤ e.2 := fun e' he' =>
      clock.2.2 _ (List.mem_map_of_mem he') _ (List.mem_singleton.2 rfl)
    have asked : after (events ++ [e]) = (after events).ask e := List.foldl_concat ..
    rw [asked]
    exact ((ih clock.1 before).ask (le_refl _)).later (past e (by simp))

/-- Under a clock that does not run backwards: no window of an hour holds more than 10 passes of one
sender, no window of a minute more than 120 unwraps, and an event is refused only where the window that
ends with it is full. -/
theorem limits_fair (events : List (Gate × Time)) (clock : (events.map Prod.snd).Pairwise (· ≤ ·)) :
    (∀ s start, (((after events).passes (.sender s)).filter fun t => start ≤ t ∧ t < start + 3600).length ≤ 10) ∧
    (∀ start, (((after events).passes .unwrap).filter fun t => start ≤ t ∧ t < start + 60).length ≤ 120) ∧
    ∀ before g now rest, events = before ++ (g, now) :: rest → (g.allow now (after before).memory).1 = false →
      g.limit ≤ (((after before).passes g).filter fun t => now - t < g.window).length := by
  obtain ⟨last, past⟩ := (events.map Prod.snd).toFinset.exists_le
  have fair : (after events).Fair last := after_fair clock fun e he =>
    past _ (List.mem_toFinset.2 (List.mem_map_of_mem he))
  refine ⟨fun s start => fair.bounded (.sender s) start, fun start => fair.bounded .unwrap start, ?_⟩
  rintro before g now rest rfl refused
  rw [List.map_append, List.pairwise_append] at clock
  have here : (after before).Fair now := after_fair clock.1 fun e he =>
    clock.2.2 _ (List.mem_map_of_mem he) _ (List.mem_cons_self ..)
  rcases allow_cases g now (after before).memory with ⟨hfull, -⟩ | ⟨-, rate, heq, -⟩
  · rw [← hits, here.kept g now (le_refl _)] at hfull
    exact hfull
  · rw [heq] at refused
    cases refused

def someone : Gate := .sender ⟨"ab", by simp⟩

/-- Ten events of one sender within a second. -/
def burst : List (Gate × Time) := List.replicate 10 (someone, 1000)

/-- The eleventh is refused, and the hour is full. -/
theorem burst_full : (someone.allow 1600 (after burst).memory).1 = false ∧
    10 ≤ (((after burst).passes someone).filter fun t => 1600 - t < 3600).length := by
  have refused : (someone.allow 1600 (after burst).memory).1 = false := by decide
  have clock : ((burst ++ [(someone, 1600)]).map Prod.snd).Pairwise (· ≤ ·) := by decide
  exact ⟨refused, (limits_fair (burst ++ [(someone, 1600)]) clock).2.2 burst someone 1600 [] rfl refused⟩

end Traffic

end GoblinPay
