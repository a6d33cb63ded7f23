import GoblinPay.Async.Journal
import GoblinPay.Core.Rates

/-!
# Where a quoted rate comes from

Quotes run concurrently over one cache, and another quote may replace an entry while one waits
for the source. What a quote performed determines where it stands, so its result is one of the
four courses of `Oracle.rateFor` (`Course`); and every cached rate is the outcome of an earlier
request for the same currency that was sent no earlier than the entry says (`Backed`).
-/

namespace GoblinPay.Rates

open Async

variable {ρ : Type} {F : Floats ρ} {o : Oracle}

abbrev Deed (ρ : Type) := Event (RateEff ρ) Oracle.Request Surroundings (Shared ρ)

/-- The currency an operation asks the source for, and what comes of it. -/
def asked (F : Floats ρ) (o : Oracle) : Deed ρ → Option (String × Except RateError ρ)
  | ⟨_, .fetch cur, x, _⟩ => some (cur, fetched F o cur x.reply)
  | _ => none

/-- What a look into the cache finds. -/
def found (cur : String) (x : Surroundings) (s : Shared ρ) : Option (CachedRate ρ) :=
  if x.poisoned then none else s.cache.lookup cur

/-- The operations by which `Oracle.rateFor` comes to its result. -/
inductive Course (F : Floats ρ) (o : Oracle) (cur : String) : List (Deed ρ) → Except RateError (ρ × Bool) → Prop
  | hit {h₁ h₂ x₁ x₂ s₁ s₂ entry} (hfound : found cur x₂ s₂ = some entry)
      (hfresh : isFresh (s₁.clock + x₁.elapsed - entry.fetched) o.cacheTtl = true) :
      Course F o cur [⟨h₁, .now, x₁, s₁⟩, ⟨h₂, .cacheGet cur, x₂, s₂⟩] (.ok (entry.fiatPerGrin, false))
  | live {h₁ h₂ h₃ h₄ x₁ x₂ x₃ x₄ s₁ s₂ s₃ s₄ rate} (hfetch : fetched F o cur x₃.reply = .ok rate) :
      Course F o cur [⟨h₁, .now, x₁, s₁⟩, ⟨h₂, .cacheGet cur, x₂, s₂⟩, ⟨h₃, .fetch cur, x₃, s₃⟩,
        ⟨h₄, .cachePut cur rate (s₁.clock + x₁.elapsed), x₄, s₄⟩] (.ok (rate, false))
  | stale {h₁ h₂ h₃ h₄ x₁ x₂ x₃ x₄ s₁ s₂ s₃ s₄ err entry} (hfetch : fetched F o cur x₃.reply = .error err)
      (hfound : found cur x₄ s₄ = some entry)
      (hmax : o.staleMax ≠ 0) (hfresh : isFresh (s₁.clock + x₁.elapsed - entry.fetched) o.staleMax = true) :
      Course F o cur [⟨h₁, .now, x₁, s₁⟩, ⟨h₂, .cacheGet cur, x₂, s₂⟩, ⟨h₃, .fetch cur, x₃, s₃⟩,
        ⟨h₄, .cacheGet cur, x₄, s₄⟩] (.ok (entry.fiatPerGrin, true))
  | failed {h₁ h₂ h₃ h₄ x₁ x₂ x₃ x₄ s₁ s₂ s₃ s₄ err} (hfetch : fetched F o cur x₃.reply = .error err) :
      Course F o cur [⟨h₁, .now, x₁, s₁⟩, ⟨h₂, .cacheGet cur, x₂, s₂⟩, ⟨h₃, .fetch cur, x₃, s₃⟩,
        ⟨h₄, .cacheGet cur, x₄, s₄⟩] (.error err)

/-- With no time to live, every course asks the source. -/
theorem course_asks {cur : String} {evs : List (Deed ρ)} {rate : Except RateError (ρ × Bool)} (hzero : o.cacheTtl = 0)
    (hcourse : Course F o cur evs rate) : ∃ res, ∃ ev ∈ evs, asked F o ev = some (cur, res) := by
  cases hcourse with
  | hit hfound hfresh =>
    rw [hzero] at hfresh
    cases hfresh
  | @live h₁ h₂ h₃ h₄ x₁ x₂ x₃ x₄ s₁ s₂ s₃ s₄ => exact ⟨_, ⟨h₃, .fetch cur, x₃, s₃⟩, by simp, rfl⟩
  | @stale h₁ h₂ h₃ h₄ x₁ x₂ x₃ x₄ s₁ s₂ s₃ s₄ => exact ⟨_, ⟨h₃, .fetch cur, x₃, s₃⟩, by simp, rfl⟩
  | @failed h₁ h₂ h₃ h₄ x₁ x₂ x₃ x₄ s₁ s₂ s₃ s₄ => exact ⟨_, ⟨h₃, .fetch cur, x₃, s₃⟩, by simp, rfl⟩

/-- The entry a program is about to store. -/
def stores {α : Type} : Prog (RateEff ρ) α → Option (String × CachedRate ρ)
  | .await (.cachePut cur rate since) _ => some (cur, ⟨rate, since⟩)
  | _ => none

/-- The operations that come before a fetched rate is stored. -/
structure Storing (F : Floats ρ) (o : Oracle) (cur : String) (entry : CachedRate ρ) (evs : List (Deed ρ)) : Prop where
  deeds : ∃ h₁ h₂ h₃ x₁ x₂ x₃ s₁ s₂ s₃, entry.fetched = s₁.clock + x₁.elapsed ∧
    fetched F o cur x₃.reply = .ok entry.fiatPerGrin ∧
    evs = [⟨h₁, .now, x₁, s₁⟩, ⟨h₂, .cacheGet cur, x₂, s₂⟩, ⟨h₃, .fetch cur, x₃, s₃⟩]

/-- Where `Oracle.rateFor` stands after some operations: it has come to a result, or is about to store what
it fetched, or is somewhere else in between. -/
theorem leads_rateFor {cur : String} {evs : List (Deed ρ)} {q : Prog (RateEff ρ) (Except RateError (ρ × Bool))}
    (hl : Prog.Leads (handler F o) (o.rateFor cur) evs q) :
    (∀ r, q = .ret r → Course F o cur evs r) ∧
    ∀ c entry, stores q = some (c, entry) → c = cur ∧ Storing F o cur entry evs := by
  rcases Prog.Leads.of_await hl with ⟨rfl, rfl⟩ | ⟨h₁, x₁, s₁, evs₁, rfl, hl₁⟩
  · constructor <;> intros <;> contradiction
  rcases Prog.Leads.of_await hl₁ with ⟨rfl, rfl⟩ | ⟨h₂, x₂, s₂, evs₂, rfl, hl₂⟩
  · constructor <;> intros <;> contradiction
  simp only [Prog.bind] at hl₂
  split at hl₂
  · rename_i entry hentry
    obtain ⟨hfound, hfresh⟩ := Option.filter_eq_some_iff.1 hentry
    obtain ⟨rfl, rfl⟩ := Prog.Leads.of_ret hl₂
    refine ⟨fun r hr => ?_, by intros; contradiction⟩
    obtain rfl := Prog.ret.inj hr
    exact .hit hfound hfresh
  rcases Prog.Leads.of_await hl₂ with ⟨rfl, rfl⟩ | ⟨h₃, x₃, s₃, evs₃, rfl, hl₃⟩
  · constructor <;> intros <;> contradiction
  simp only [Prog.bind] at hl₃
  split at hl₃
  · rename_i rate hfetch
    rcases Prog.Leads.of_await hl₃ with ⟨rfl, rfl⟩ | ⟨h₄, x₄, s₄, evs₄, rfl, hl₄⟩
    · refine ⟨by intros; contradiction, fun c entry hq => ?_⟩
      obtain ⟨rfl, rfl⟩ := Prod.mk.inj (Option.some.inj hq)
      exact ⟨rfl, ⟨_, _, _, _, _, _, _, _, _, rfl, hfetch, rfl⟩⟩
    · obtain ⟨rfl, rfl⟩ := Prog.Leads.of_ret hl₄
      refine ⟨fun r hr => ?_, by intros; contradiction⟩
      obtain rfl := Prog.ret.inj hr
      exact .live hfetch
  · rename_i err hfetch
    rcases Prog.Leads.of_await hl₃ with ⟨rfl, rfl⟩ | ⟨h₄, x₄, s₄, evs₄, rfl, hl₄⟩
    · constructor <;> intros <;> contradiction
    simp only [Prog.bind] at hl₄
    split at hl₄
    · rename_i entry hentry
      obtain ⟨hfound, hwithin⟩ := Option.filter_eq_some_iff.1 hentry
      obtain ⟨hmax, hfresh⟩ := (Bool.and_eq_true _ _).mp hwithin
      obtain ⟨rfl, rfl⟩ := Prog.Leads.of_ret hl₄
      refine ⟨fun r hr => ?_, by intros; contradiction⟩
      obtain rfl := Prog.ret.inj hr
      exact .stale hfetch hfound (of_decide_eq_true hmax) hfresh
    · obtain ⟨rfl, rfl⟩ := Prog.Leads.of_ret hl₄
      refine ⟨fun r hr => ?_, by intros; contradiction⟩
      obtain rfl := Prog.ret.inj hr
      exact .failed hfetch

theorem stores_bind {α β : Type} (p : Prog (RateEff ρ) α) (f : α → β) : stores (p >>= fun a => Prog.ret (f a)) = stores p := by
  cases p with
  | ret a => rfl
  | await e k => cases e <;> rfl

theorem ret_of_bind {α β : Type} {p : Prog (RateEff ρ) α} {f : α → β} {b : β}
    (h : (p >>= fun a => Prog.ret (f a)) = .ret b) : ∃ a, p = .ret a ∧ b = f a := by
  cases p with
  | ret a => exact ⟨a, rfl, (Prog.ret.inj h).symm⟩
  | await e k => cases h

/-- Where a quote stands after some operations: refused before the first, or where its rate stands. -/
theorem leads_quote {call : Oracle.Request} {evs : List (Deed ρ)} {q : Prog (RateEff ρ) (Except RateError (Quote ρ))}
    (hl : Prog.Leads (handler F o) (o.quote F call) evs q) :
    (o.supports F call.currency = false ∧ evs = [] ∧ q = .ret (.error (.unsupportedCurrency call.currency))) ∨
    (∃ err, o.supports F call.currency = true ∧ parseFiatAmount F call.fiatAmount = .error err ∧ evs = [] ∧ q = .ret (.error err)) ∨
    ∃ amount p, o.supports F call.currency = true ∧ parseFiatAmount F call.fiatAmount = .ok amount ∧
      Prog.Leads (handler F o) (o.rateFor (F.toLowercase call.currency)) evs p ∧
      q = p >>= fun rate => .ret (o.priced F amount (F.toLowercase call.currency) rate) := by
  unfold Oracle.quote at hl
  cases hsup : o.supports F call.currency
  · rw [hsup] at hl
    obtain ⟨rfl, rfl⟩ := Prog.Leads.of_ret hl
    exact Or.inl ⟨rfl, rfl, rfl⟩
  rw [hsup, if_neg (by decide)] at hl
  split at hl
  · rename_i err hparse
    obtain ⟨rfl, rfl⟩ := Prog.Leads.of_ret hl
    exact Or.inr (Or.inl ⟨err, rfl, hparse, rfl, rfl⟩)
  · rename_i amount hparse
    refine Or.inr (Or.inr ⟨amount, ?_⟩)
    rcases Prog.Leads.of_bind hl with ⟨p, hp, rfl⟩ | ⟨first, rest, rate, rfl, hfirst, hrest⟩
    · exact ⟨p, rfl, hparse, hp, rfl⟩
    · obtain ⟨rfl, rfl⟩ := Prog.Leads.of_ret hrest
      rw [List.append_nil]
      exact ⟨.ret rate, rfl, hparse, hfirst, rfl⟩

/-- The outcome of a priced quote is that of its rate. -/
theorem priced_eq_ok {amount : ρ} {cur : String} {rate : Except RateError (ρ × Bool)} {q : Quote ρ}
    (h : o.priced F amount cur rate = .ok q) : rate = .ok (q.fiatPerGrin, q.stale) ∧ q.currency = cur := by
  unfold Oracle.priced at h
  split at h
  · cases h
  · split at h
    · cases h
    · obtain rfl := Except.ok.inj h
      exact ⟨rfl, rfl⟩

section Run

variable {clock : Nat} {ms : List (Move Oracle.Request Surroundings)}

/-- The pool of the quotes of one oracle, from the empty cache of `Oracle::from_config`. -/
def quotes (F : Floats ρ) (o : Oracle) (clock : Nat) (ms : List (Move Oracle.Request Surroundings)) :
    Pool (RateEff ρ) Oracle.Request (Shared ρ) (Except RateError (Quote ρ)) :=
  Pool.run (handler F o) (o.quote F) (Pool.start (Shared.fresh clock)) ms

def journal (F : Floats ρ) (o : Oracle) (clock : Nat) (ms : List (Move Oracle.Request Surroundings)) : List (Nat × Deed ρ) :=
  Pool.journal (handler F o) (o.quote F) (Pool.start (Shared.fresh clock)) ms

/-- No operation takes the clock back. -/
def Later (s s' : Shared ρ) : Prop := s.clock ≤ s'.clock

theorem Later.refl (s : Shared ρ) : Later s s := Nat.le_refl _

theorem Later.trans {a b c : Shared ρ} (h : Later a b) (h' : Later b c) : Later a c := Nat.le_trans h h'

theorem Later.act {β : Type} (e : RateEff ρ β) (x : Surroundings) (s : Shared ρ) : Later s ((handler F o).act e x s).2 := by
  cases e <;> exact Nat.le_add_right _ _

/-- Every entry of the cache is the outcome of a request for its currency, sent when the entry says or later. -/
def Backed (F : Floats ρ) (o : Oracle) (J : List (Nat × Deed ρ)) (s : Shared ρ) : Prop :=
  ∀ cur entry, s.cache.lookup cur = some entry → cur ∈ o.currencies ∧
    ∃ j ev, (j, ev) ∈ J ∧ asked F o ev = some (cur, .ok entry.fiatPerGrin) ∧ entry.fetched ≤ ev.state.clock

theorem Backed.mono {J J' : List (Nat × Deed ρ)} {s s' : Shared ρ} (hb : Backed F o J s) (hJ : J ⊆ J') (hcache : s'.cache = s.cache) :
    Backed F o J' s' := by
  intro cur entry hentry
  rw [hcache] at hentry
  obtain ⟨hcur, j, ev, hev, rest⟩ := hb cur entry hentry
  exact ⟨hcur, j, ev, hJ hev, rest⟩

theorem Backed.put {J : List (Nat × Deed ρ)} {s : Shared ρ} (hb : Backed F o J s) {i : Nat} {cur : String} {entry : CachedRate ρ}
    (hcur : cur ∈ o.currencies) (hstoring : Storing F o cur entry (Pool.deeds i J))
    (hordered : (Pool.deeds i J).Pairwise fun a b => Later (a.after (handler F o)) b.state) (now : Nat) :
    Backed F o J ⟨now, Limit.put cur entry s.cache⟩ := by
  intro c found hfound
  by_cases hc : c = cur
  · subst hc
    obtain rfl : entry = found := Option.some.inj ((Limit.lookup_put_self _ _ _).symm.trans hfound)
    obtain ⟨h₁, h₂, h₃, x₁, x₂, x₃, s₁, s₂, s₃, hsince, hfetch, hdeeds⟩ := hstoring.deeds
    have hmem : (i, (⟨h₃, .fetch c, x₃, s₃⟩ : Deed ρ)) ∈ J := by
      rw [← Pool.mem_deeds, hdeeds]
      simp
    have hlater : s₁.clock + x₁.elapsed ≤ s₃.clock := by
      rw [hdeeds] at hordered
      exact (List.pairwise_cons.1 hordered).1 ⟨h₃, .fetch c, x₃, s₃⟩ (by simp)
    exact ⟨hcur, i, _, hmem, congrArg (fun res => some (c, res)) hfetch, hsince ▸ hlater⟩
  · refine hb c found ?_
    rwa [Limit.lookup_put_ne hc] at hfound

theorem deeds_ordered (F : Floats ρ) (o : Oracle) (clock : Nat) (ms : List (Move Oracle.Request Surroundings)) (i : Nat) :
    (Pool.deeds i (journal F o clock ms)).Pairwise fun a b => Later (a.after (handler F o)) b.state :=
  Pool.deeds_ordered Later.refl Later.trans Later.act _ ms i

/-- Whatever the quotes of a run do, the cache stays backed. -/
theorem backed_run (F : Floats ρ) (o : Oracle) (clock : Nat) (ms : List (Move Oracle.Request Surroundings)) :
    Backed F o (journal F o clock ms) (quotes F o clock ms).state := by
  induction ms using List.reverseRecOn with
  | nil =>
    intro cur entry hentry
    cases hentry
  | append_singleton ms m ih =>
    have hsplit : journal F o clock (ms ++ [m]) = journal F o clock ms ++ Pool.journal (handler F o) (o.quote F) (quotes F o clock ms) [m] :=
      Pool.journal_append _ _ _
    have hmore : journal F o clock ms ⊆ journal F o clock (ms ++ [m]) := by
      rw [hsplit]
      exact List.subset_append_left _ _
    have hstate : quotes F o clock (ms ++ [m]) = Pool.step (handler F o) (o.quote F) (quotes F o clock ms) m :=
      Pool.run_append _ _ _ _ _
    rw [hstate]
    cases m with
    | start c => exact ih.mono hmore rfl
    | run i x =>
      obtain ⟨h, β, e, k, ht, -, hstep⟩ | ⟨-, hstep⟩ := Pool.step_run (handler F o) (o.quote F) (quotes F o clock ms) i x
      · rw [hstep]
        cases e with
        | now => exact ih.mono hmore rfl
        | cacheGet cur => exact ih.mono hmore rfl
        | fetch cur => exact ih.mono hmore rfl
        | cachePut cur rate since =>
          cases hpoisoned : x.poisoned with
          | true => exact ih.mono hmore (if_pos hpoisoned)
          | false =>
            obtain ⟨hleads, -⟩ := Pool.stands ht
            rcases leads_quote hleads with ⟨-, -, hq⟩ | ⟨err, -, -, -, hq⟩ | ⟨amount, p, hsup, -, hp, hq⟩
            · cases hq
            · cases hq
            have hstores : stores p = some (cur, ⟨rate, since⟩) := by
              rw [← stores_bind p, ← hq]
              rfl
            obtain ⟨hcur, hstoring⟩ := (leads_rateFor hp).2 _ _ hstores
            rw [← hcur] at hstoring
            have henabled : cur ∈ o.currencies := hcur ▸ List.contains_iff_mem.1 hsup
            have hput := ih.put henabled hstoring (deeds_ordered F o clock ms i) ((quotes F o clock ms).state.clock + x.elapsed)
            refine hput.mono hmore ?_
            exact if_neg (by rw [hpoisoned]; decide)
      · rw [hstep]
        exact ih.mono hmore rfl

/-- What a call of the oracle can rely on, given the journal of the run. -/
structure Honest (F : Floats ρ) (o : Oracle) (J : List (Nat × Deed ρ)) (i : Nat)
    (t : Task (RateEff ρ) Oracle.Request (Shared ρ) (Except RateError (Quote ρ))) : Prop where
  unsupported : o.supports F t.head.call.currency = false →
    Pool.deeds i J = [] ∧ t.rest = .ret (.error (.unsupportedCurrency t.head.call.currency))
  refetched : o.cacheTtl = 0 → o.supports F t.head.call.currency = true →
    ∀ amount r, parseFiatAmount F t.head.call.fiatAmount = .ok amount → t.rest = .ret r →
      ∃ res, ∃ ev ∈ Pool.deeds i J, asked F o ev = some (F.toLowercase t.head.call.currency, res)
  currency : ∀ q, t.rest = .ret (.ok q) → q.currency = F.toLowercase t.head.call.currency
  fresh : ∀ q, t.rest = .ret (.ok q) → q.stale = false →
    ∃ j ev, (j, ev) ∈ Pool.upTo i J ∧ asked F o ev = some (q.currency, .ok q.fiatPerGrin) ∧
      t.head.born.clock ≤ ev.state.clock + o.cacheTtl
  stale : ∀ q, t.rest = .ret (.ok q) → q.stale = true → o.staleMax ≠ 0 ∧
    (∃ err, ∃ ev ∈ Pool.deeds i J, asked F o ev = some (q.currency, .error err)) ∧
    ∃ j ev, (j, ev) ∈ Pool.upTo i J ∧ j ≠ i ∧ asked F o ev = some (q.currency, .ok q.fiatPerGrin) ∧
      t.head.born.clock ≤ ev.state.clock + o.staleMax

/-- A cached entry that is young enough was fetched, before the look that found it, no longer ago than that. -/
theorem found_backed {J₁ : List (Nat × Deed ρ)} {cur : String} {x : Surroundings} {s : Shared ρ} {entry : CachedRate ρ}
    (hb : Backed F o J₁ s) (hfound : found cur x s = some entry) {born now ttl : Nat} (hborn : born ≤ now)
    (hfresh : isFresh (now - entry.fetched) ttl = true) :
    ∃ j ev, (j, ev) ∈ J₁ ∧ asked F o ev = some (cur, .ok entry.fiatPerGrin) ∧ born ≤ ev.state.clock + ttl := by
  have hlookup : s.cache.lookup cur = some entry := by
    unfold found at hfound
    split at hfound
    · cases hfound
    · exact hfound
  obtain ⟨-, j, ev, hev, hfetches, hsent⟩ := hb cur entry hlookup
  have hage : now - entry.fetched ≤ ttl := of_decide_eq_true ((Bool.and_eq_true _ _).mp hfresh).2
  exact ⟨j, ev, hev, hfetches, by omega⟩

/-- The cache as a call's last operation met it, and the journal up to that operation. -/
theorem last_deed {i : Nat} (before : List (Deed ρ)) {ev : Deed ρ} (hdeeds : Pool.deeds i (journal F o clock ms) = before ++ [ev]) :
    ∃ J₁, Pool.upTo i (journal F o clock ms) = J₁ ++ [(i, ev)] ∧ Backed F o J₁ ev.state ∧ Pool.deeds i J₁ = before := by
  obtain ⟨J₁, J₂, hJ, hup, hbefore⟩ := Pool.upTo_eq hdeeds
  obtain ⟨ms₁, x, ms₂, rfl, he, rfl⟩ := Pool.journal_split hJ
  refine ⟨_, hup, ?_, hbefore⟩
  rw [Pool.state_of_event he]
  exact backed_run F o clock ms₁

section Courses

variable {i born : Nat} {cur : String} {rate : ρ}
  (hborn : ∀ ev ∈ Pool.deeds i (journal F o clock ms), born ≤ ev.state.clock)

include hborn

/-- A rate that is not stale was fetched within the time to live before the call, or during it. -/
theorem course_fresh (hcourse : Course F o cur (Pool.deeds i (journal F o clock ms)) (.ok (rate, false))) :
    ∃ j ev, (j, ev) ∈ Pool.upTo i (journal F o clock ms) ∧ asked F o ev = some (cur, .ok rate) ∧
      born ≤ ev.state.clock + o.cacheTtl := by
  generalize hdeeds : Pool.deeds i (journal F o clock ms) = evs at hcourse hborn
  cases hcourse with
  | @hit h₁ h₂ x₁ x₂ s₁ s₂ entry hfound hfresh =>
    obtain ⟨J₁, hup, hbacked, -⟩ := last_deed [_] hdeeds
    have hmade : born ≤ s₁.clock := hborn ⟨h₁, .now, x₁, s₁⟩ (by simp)
    obtain ⟨j, ev, hev, hasked, hwithin⟩ := found_backed hbacked hfound (Nat.le_add_right_of_le hmade) hfresh
    exact ⟨j, ev, hup ▸ List.mem_append_left _ hev, hasked, hwithin⟩
  | @live h₁ h₂ h₃ h₄ x₁ x₂ x₃ x₄ s₁ s₂ s₃ s₄ _ hfetch =>
    obtain ⟨J₁, hup, -, hbefore⟩ := last_deed [_, _, _] hdeeds
    have hown : (i, (⟨h₃, .fetch cur, x₃, s₃⟩ : Deed ρ)) ∈ J₁ := by
      rw [← Pool.mem_deeds, hbefore]
      simp
    have hmade : born ≤ s₃.clock := hborn ⟨h₃, .fetch cur, x₃, s₃⟩ (by simp)
    have hasked : asked F o ⟨h₃, .fetch cur, x₃, s₃⟩ = some (cur, .ok rate) := congrArg (fun res => some (cur, res)) hfetch
    exact ⟨i, _, hup ▸ List.mem_append_left _ hown, hasked, Nat.le_add_right_of_le hmade⟩

/-- A stale rate was fetched by another call within the stale window, and the call's own request failed. -/
theorem course_stale (hcourse : Course F o cur (Pool.deeds i (journal F o clock ms)) (.ok (rate, true))) :
    o.staleMax ≠ 0 ∧ (∃ err, ∃ ev ∈ Pool.deeds i (journal F o clock ms), asked F o ev = some (cur, .error err)) ∧
    ∃ j ev, (j, ev) ∈ Pool.upTo i (journal F o clock ms) ∧ j ≠ i ∧ asked F o ev = some (cur, .ok rate) ∧
      born ≤ ev.state.clock + o.staleMax := by
  generalize hdeeds : Pool.deeds i (journal F o clock ms) = evs at hcourse hborn ⊢
  cases hcourse with
  | @stale h₁ h₂ h₃ h₄ x₁ x₂ x₃ x₄ s₁ s₂ s₃ s₄ err entry hfetch hfound hmax hfresh =>
    obtain ⟨J₁, hup, hbacked, hbefore⟩ := last_deed [_, _, _] hdeeds
    have hmade : born ≤ s₁.clock := hborn ⟨h₁, .now, x₁, s₁⟩ (by simp)
    have hfailed : asked F o ⟨h₃, .fetch cur, x₃, s₃⟩ = some (cur, .error err) := congrArg (fun res => some (cur, res)) hfetch
    obtain ⟨j, ev, hev, hasked, hwithin⟩ := found_backed hbacked hfound (Nat.le_add_right_of_le hmade) hfresh
    refine ⟨hmax, ⟨err, _, by simp, hfailed⟩, j, ev, hup ▸ List.mem_append_left _ hev, ?_, hasked, hwithin⟩
    -- the call's own request failed, so the one behind the entry is another's
    rintro rfl
    rw [← Pool.mem_deeds, hbefore] at hev
    rcases List.mem_cons.1 hev with rfl | hev
    · cases hasked
    rcases List.mem_cons.1 hev with rfl | hev
    · cases hasked
    · rw [List.mem_singleton.1 hev, hfailed] at hasked
      cases hasked

end Courses

section Call

variable {i : Nat} {t : Task (RateEff ρ) Oracle.Request (Shared ρ) (Except RateError (Quote ρ))}
  (ht : (quotes F o clock ms).tasks[i]? = some t)

include ht

/-- A call that returned took one of the courses, unless it was refused. -/
theorem returned {r : Except RateError (Quote ρ)} {amount : ρ} (hsup : o.supports F t.head.call.currency = true)
    (hparse : parseFiatAmount F t.head.call.fiatAmount = .ok amount) (hr : t.rest = .ret r) :
    ∃ rate, Course F o (F.toLowercase t.head.call.currency) (Pool.deeds i (journal F o clock ms)) rate ∧
      r = o.priced F amount (F.toLowercase t.head.call.currency) rate := by
  obtain ⟨hleads, -⟩ := Pool.stands ht
  rcases leads_quote hleads with ⟨hnot, -, -⟩ | ⟨err, -, herr, -, -⟩ | ⟨amount', p, -, hparse', hp, hq⟩
  · rw [hsup] at hnot
    cases hnot
  · rw [hparse] at herr
    cases herr
  · obtain rfl : amount = amount' := Except.ok.inj (hparse.symm.trans hparse')
    rw [hr] at hq
    obtain ⟨rate, rfl, rfl⟩ := ret_of_bind hq.symm
    exact ⟨rate, (leads_rateFor hp).1 rate rfl, rfl⟩

/-- A call that returned a quote took one of the courses to its rate. -/
theorem quoted {q : Quote ρ} (hr : t.rest = .ret (.ok q)) :
    q.currency = F.toLowercase t.head.call.currency ∧
    Course F o q.currency (Pool.deeds i (journal F o clock ms)) (.ok (q.fiatPerGrin, q.stale)) := by
  obtain ⟨hleads, -⟩ := Pool.stands ht
  rcases leads_quote hleads with ⟨-, -, hq⟩ | ⟨err, -, -, -, hq⟩ | ⟨amount, p, hsup, hparse, -, -⟩
  · rw [hr] at hq
    cases hq
  · rw [hr] at hq
    cases hq
  · obtain ⟨rate, hcourse, hpriced⟩ := returned ht hsup hparse hr
    obtain ⟨rfl, hcur⟩ := priced_eq_ok hpriced.symm
    exact ⟨hcur, hcur ▸ hcourse⟩

/-- A call's operations come after it was made. -/
theorem made_before {ev : Deed ρ} (hev : ev ∈ Pool.deeds i (journal F o clock ms)) : t.head.born.clock ≤ ev.state.clock := by
  obtain ⟨-, hheads⟩ := Pool.stands ht
  rw [← hheads ev hev]
  exact Pool.born_before Later.refl Later.trans Later.act (Pool.mem_deeds.1 hev)

end Call

/-- Every call of every run is honest about its rate, and the cache holds enabled currencies only. -/
theorem quotes_run (F : Floats ρ) (o : Oracle) (clock : Nat) (ms : List (Move Oracle.Request Surroundings)) :
    (∀ i t, (quotes F o clock ms).tasks[i]? = some t → Honest F o (journal F o clock ms) i t) ∧
    ∀ cur entry, (quotes F o clock ms).state.cache.lookup cur = some entry → cur ∈ o.currencies := by
  refine ⟨fun i t ht => ?_, fun cur entry hentry => (backed_run F o clock ms cur entry hentry).1⟩
  have hborn : ∀ ev ∈ Pool.deeds i (journal F o clock ms), t.head.born.clock ≤ ev.state.clock := fun ev => made_before ht
  constructor
  · intro hsup
    rcases leads_quote (Pool.stands ht).1 with ⟨-, hdeeds, hq⟩ | ⟨err, hsup', -⟩ | ⟨amount, p, hsup', -⟩
    · exact ⟨hdeeds, hq⟩
    · rw [hsup] at hsup'
      cases hsup'
    · rw [hsup] at hsup'
      cases hsup'
  · intro hzero hsup amount r hparse hr
    obtain ⟨rate, hcourse, -⟩ := returned ht hsup hparse hr
    exact course_asks hzero hcourse
  · exact fun q hr => (quoted ht hr).1
  · intro q hr hstale
    have hcourse := (quoted ht hr).2
    rw [hstale] at hcourse
    exact course_fresh hborn hcourse
  · intro q hr hstale
    have hcourse := (quoted ht hr).2
    rw [hstale] at hcourse
    exact course_stale hborn hcourse

end Run

end GoblinPay.Rates
