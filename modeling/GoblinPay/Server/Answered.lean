import GoblinPay.Server.View

/-!
# What the wizard is answered

The answers are what was typed: `Heard` follows the questions down the lines, and says which line, or lines, an answer is taken
from. The URLs are what `normalize_url` makes of theirs; a new wallet has a password that was entered twice and a mnemonic that was
acknowledged, and an existing one is asked for neither.
-/

namespace GoblinPay.Till

open Async Setup Text

/-- A text that was read as a line. -/
def Line (text : String) : Prop := '\n' ∉ text.toList ∧ ∀ c ∈ text.toList.getLast?, c ≠ '\r'

theorem line_empty : Line "" := by
  constructor
  · exact List.not_mem_nil
  · intro c hc
    cases hc

theorem mem_of_rdropWhile {α : Type} {p : α → Bool} {a : α} {cs : List α} (h : a ∈ cs.rdropWhile p) : a ∈ cs := List.IsPrefix.subset (List.rdropWhile_prefix p cs) h

theorem line_trimFeeds {cs : List Char} (h : ∀ c ∈ cs.dropLast, c ≠ '\n') : Line (String.ofList (trimFeeds cs)) := by
  have last : ∀ c ∈ (trimFeeds cs).getLast?, c ≠ '\n' ∧ c ≠ '\r' := by
    intro c hc
    have hne : trimFeeds cs ≠ [] := by
      intro hnil
      rw [hnil] at hc
      cases hc
    have stop := List.rdropWhile_last_not _ cs hne
    rw [List.getLast?_eq_some_getLast hne] at hc
    cases hc
    simpa [trimFeeds] using stop
  constructor
  · rw [String.toList_ofList]
    intro hmem
    rcases List.eq_nil_or_concat (trimFeeds cs) with hnil | ⟨front, c, hfront⟩
    · rw [hnil] at hmem
      cases hmem
    · have ends : c ≠ '\n' := (last c (by rw [hfront]; simp)).1
      have inside : '\n' ∈ front := by
        rw [hfront, List.concat_eq_append] at hmem
        rcases List.mem_append.1 hmem with hmem | hmem
        · exact hmem
        · exact absurd (List.mem_singleton.1 hmem).symm ends
      obtain ⟨behind, hbehind⟩ := List.rdropWhile_prefix (p := fun c : Char => c = '\n' || c = '\r') (l := cs)
      have whole : cs = front ++ c :: behind := by
        rw [← hbehind]
        show trimFeeds cs ++ behind = _
        rw [hfront]
        simp
      have early : '\n' ∈ cs.dropLast := by
        rw [whole, List.dropLast_append_of_ne_nil (List.cons_ne_nil _ _)]
        exact List.mem_append_left _ inside
      exact h _ early rfl
  · rw [String.toList_ofList]
    intro c hc
    exact (last c hc).2

theorem line_readLineOpt {c c' : Console} {text : String} (h : readLineOpt c = (some text, c')) : Line text := by
  obtain ⟨input, output⟩ := c
  cases input with
  | nil => cases h
  | cons a cs =>
    by_cases hfeed : '\n' ∈ a :: cs
    · obtain ⟨line, rest, heq, hline⟩ := List.eq_append_cons_of_mem hfeed
      have first : splitOnce '\n' (a :: cs) = some (line, rest) := by rw [heq, splitOnce_append hline]
      simp only [readLineOpt, first] at h
      cases h
      apply line_trimFeeds
      intro c hc heq
      rw [List.dropLast_concat] at hc
      exact hline (heq ▸ hc)
    · simp only [readLineOpt, splitOnce_of_notMem hfeed] at h
      cases h
      apply line_trimFeeds
      intro c hc heq
      exact hfeed (heq ▸ List.dropLast_subset _ hc)

/-- The lines of a text are lines. -/
theorem line_typed {cs : List Char} {text : String} (h : text ∈ typed cs) : Line text := by
  induction hn : (typed cs).length generalizing cs with
  | zero =>
    rw [List.length_eq_zero_iff.1 hn] at h
    cases h
  | succ n ih =>
    have took := took_readLineOpt ⟨cs, ""⟩
    rcases hread : readLineOpt ⟨cs, ""⟩ with ⟨line, c⟩
    rw [hread] at took
    cases took with
    | line hline =>
      change typed cs = _ at hline
      rw [hline] at h hn
      rcases List.mem_cons.1 h with rfl | h
      · exact line_readLineOpt hread
      · exact ih h (Nat.succ.inj hn)
    | stop hnil =>
      change cs = [] at hnil
      rw [hnil] at h
      cases h

theorem line_of_read {cs rest : List String} {line : String} (h : LineRead cs line rest) (hcs : ∀ text ∈ cs, Line text) : Line line := by
  cases h with
  | line => exact hcs _ List.mem_cons_self
  | stop => exact line_empty

/-! ## The interview -/

/-- The node is the one of the flag, a curated one, or the one that is named. -/
inductive NodeHeard (opts : SetupOptions) : List String → String → List String → Prop
  | override {cs : List String} {url : String} (flag : opts.nodeOverride = some url) : NodeHeard opts cs url cs
  | picked {cs rest : List String} {line url : String} (flag : opts.nodeOverride = none) (read : LineRead cs line rest)
      (blank : trim line = "") (curated : url ∈ curatedNodes) : NodeHeard opts cs url rest
  | named {cs rest : List String} {line url : String} (flag : opts.nodeOverride = none) (read : LineRead cs line rest)
      (filled : trim line ≠ "") (url_eq : normalizeUrl line = .ok url) : NodeHeard opts cs url rest

/-- What is asked of a new wallet, and of an existing one, for which the default is the mode it is in. -/
inductive WalletHeard (lower : String → String) (tools : Tools) (manual : Bool) :
    Bool → List String → SeedPlan × Option String × RestartMode → List String → Prop
  | existing {cs rest : List String} {line : String} (read : LineRead cs line rest) :
      WalletHeard lower tools manual true cs
        (.existing, none, parseRestartModeDefault lower line (if manual then .manual else .unattended)) rest
  | fresh {cs cs₁ cs₂ cs₃ rest : List String} {password seedLine m line : String} {entropy : Seed} (chosen : newPassword.Takes cs password cs₁)
      (read : LineRead cs₁ seedLine cs₂) (blank : trim seedLine = "") (drawn : entropy.length = 32) (spelled : tools.fromEntropy entropy = .ok m)
      (ack : acknowledgement.Takes cs₂ () cs₃) (read' : LineRead cs₃ line rest) :
      WalletHeard lower tools manual false cs (.fresh m, some password, parseRestartModeDefault lower line .unattended) rest
  | pasted {cs cs₁ cs₂ cs₃ rest : List String} {password seedLine line : String} (chosen : newPassword.Takes cs password cs₁)
      (read : LineRead cs₁ seedLine cs₂) (filled : trim seedLine ≠ "") (ack : acknowledgement.Takes cs₂ () cs₃)
      (read' : LineRead cs₃ line rest) :
      WalletHeard lower tools manual false cs (.pasted (trim seedLine), some password, parseRestartModeDefault lower line .unattended) rest

/-- The answers that the lines give, question by question, and what is left of the lines. -/
inductive Heard (lower : String → String) (tools : Tools) (opts : SetupOptions) (walletExists manual : Bool) :
    List String → Answers → List String → Prop
  | answers {cs cs₁ cs₂ cs₃ cs₄ cs₅ cs₆ rest : List String} {publicUrl webhookUrl bindLine nodeUrl currencyLine railLine : String}
      {plan : SeedPlan} {chosenPassword : Option String} {restartMode : RestartMode}
      (till : (required normalizeUrl "a URL is required").Takes cs publicUrl cs₁)
      (shop : (required webhookUrlFromShop "a URL is required").Takes cs₁ webhookUrl cs₂) (bound : LineRead cs₂ bindLine cs₃)
      (node : NodeHeard opts cs₃ nodeUrl cs₄) (wallet : WalletHeard lower tools manual walletExists cs₄ (plan, chosenPassword, restartMode) cs₅)
      (priced : LineRead cs₅ currencyLine cs₆) (railed : LineRead cs₆ railLine rest) :
      Heard lower tools opts walletExists manual cs
        { publicUrl, webhookUrl, nodeUrl, plan, chosenPassword, restartMode
          bind := normalizeBind bindLine
          currencies := parseCurrencies lower currencyLine
          grin1Rail := parseYesNo lower railLine false } rest

section

variable {lower : String → String} {tools : Tools} {cwd : String} {v : View}

theorem ends_selectNode (urls : List String) (host : Host) :
    Ends (handler tools cwd) (fun found h' => h'.view = host.view ∧ ∀ url, found = some url → url ∈ urls) (selectNode urls) host := by
  induction urls with
  | nil =>
    constructor
    · rfl
    · intro url hurl
      cases hurl
  | cons url urls ih =>
    intro x
    show Ends (handler tools cwd) _ (if x.yes then .ret (some url) else selectNode urls) host
    split
    · constructor
      · rfl
      · intro u hu
        cases hu
        exact List.mem_cons_self
    · apply Ends.mono ih
      intro found h' hfound
      constructor
      · exact hfound.1
      · intro u hu
        exact List.mem_cons_of_mem url (hfound.2 u hu)

theorem from_resolveNode (opts : SetupOptions) :
    From tools cwd v (resolveNode opts) fun url v' => NodeHeard opts v.lines url v'.lines ∧ v'.disk = v.disk := by
  unfold resolveNode
  cases hover : opts.nodeOverride with
  | some url =>
    apply From.bind
    apply From.say
    apply From.pure
    exact ⟨.override hover, rfl⟩
  | none =>
    dsimp only
    apply From.bind
    apply From.say
    apply From.bind
    apply From.askLine
    intro answer rest read
    by_cases hblank : trim answer = ""
    · simp only [String.isEmpty_iff, hblank, if_true]
      apply From.bind
      apply From.say
      apply From.bind
      constructor
      intro host hhost
      apply Gives.lift
      apply Ends.mono (ends_selectNode curatedNodes host)
      intro found h' hfound
      rw [hfound.1, hhost]
      cases found with
      | none => exact From.throw _
      | some url =>
        apply From.bind
        apply From.say
        apply From.pure
        exact ⟨.picked hover read hblank (hfound.2 url rfl), rfl⟩
    · simp only [String.isEmpty_iff, hblank, if_false]
      apply From.bind
      cases hurl : normalizeUrl answer with
      | error e => exact From.throw e
      | ok url =>
        apply From.pure
        apply From.bind
        apply From.say
        apply From.pure
        exact ⟨.named hover read hblank hurl, rfl⟩

theorem from_promptRestartMode (number : Option Nat) (default : RestartMode) {Q : RestartMode → View → Prop}
    (h : ∀ line rest, LineRead v.lines line rest → Q (parseRestartModeDefault lower line default) { v with lines := rest }) :
    From tools cwd v (promptRestartMode lower number default) Q := by
  apply From.bind
  apply From.say
  apply From.bind
  apply From.askLine
  intro line rest read
  apply From.pure
  exact h line rest read

/-- The mnemonic of a new wallet: generated, or pasted, and acknowledged. -/
theorem from_askSeed {Q : SeedPlan → View → Prop}
    (hfresh : ∀ seedLine cs entropy m rest, LineRead v.lines seedLine cs → trim seedLine = "" → entropy.length = 32 →
      tools.fromEntropy entropy = .ok m → acknowledgement.Takes cs () rest → Q (.fresh m) { v with lines := rest })
    (hpasted : ∀ seedLine cs rest, LineRead v.lines seedLine cs → trim seedLine ≠ "" → acknowledgement.Takes cs () rest →
      Q (.pasted (trim seedLine)) { v with lines := rest }) : From tools cwd v (askSeed tools) Q := by
  apply From.bind
  apply From.say
  apply From.bind
  apply From.askLine
  intro seedLine cs read
  by_cases hblank : trim seedLine = ""
  · simp only [String.isEmpty_iff, hblank, if_true]
    apply From.bind
    apply From.random
    intro entropy hlength
    cases hm : tools.fromEntropy entropy with
    | error e => exact From.throw _
    | ok m =>
      apply From.bind
      apply From.say
      apply From.bind
      apply From.ask (answered_acknowledgement _)
      intro _ rest ack
      apply From.pure
      exact hfresh seedLine cs entropy m rest read hblank hlength hm ack
  · simp only [String.isEmpty_iff, hblank, if_false]
    apply From.bind
    apply From.ask (answered_acknowledgement _)
    intro _ rest ack
    apply From.pure
    exact hpasted seedLine cs rest read hblank ack

theorem from_askWallet (paths : Paths) (hidden walletExists : Bool) :
    From tools cwd v (askWallet lower tools paths hidden walletExists) fun answer v' =>
      WalletHeard lower tools (v.disk (join cwd paths.dropinFile)).isSome walletExists v.lines answer v'.lines ∧ v'.disk = v.disk := by
  cases walletExists with
  | true =>
    apply From.bind
    apply From.say
    apply From.bind
    apply From.pathExists
    apply From.bind
    apply from_promptRestartMode
    intro line rest read
    apply From.pure
    exact ⟨.existing read, rfl⟩
  | false =>
    apply From.bind
    apply From.ask (answered_newPassword hidden)
    intro password cs₁ chosen
    apply From.bind
    apply from_askSeed
    · intro seedLine cs₂ entropy m cs₃ read blank drawn spelled ack
      apply From.bind
      apply from_promptRestartMode
      intro line rest read'
      apply From.pure
      exact ⟨.fresh chosen read blank drawn spelled ack read', rfl⟩
    · intro seedLine cs₂ cs₃ read filled ack
      apply From.bind
      apply from_promptRestartMode
      intro line rest read'
      apply From.pure
      exact ⟨.pasted chosen read filled ack read', rfl⟩

/-- The interview hears the answers, and changes no file. -/
theorem from_interview (paths : Paths) (opts : SetupOptions) :
    From tools cwd v (interview lower tools paths opts) fun a v' =>
      Heard lower tools opts (v.disk (join cwd (seedPath paths.dataDir))).isSome (v.disk (join cwd paths.dropinFile)).isSome v.lines a v'.lines ∧
        v'.disk = v.disk := by
  apply From.bind
  apply From.say
  apply From.bind
  apply From.ask (answered_required normalizeUrl_empty _)
  intro publicUrl cs₁ till
  apply From.bind
  apply From.ask (answered_required webhookUrlFromShop_empty _)
  intro webhookUrl cs₂ shop
  apply From.bind
  apply From.say
  apply From.bind
  apply From.askLine
  intro bindLine cs₃ bound
  apply From.bind
  apply From.mono (from_resolveNode opts)
  rintro nodeUrl ⟨disk₄, cs₄⟩ ⟨node, rfl⟩
  apply From.bind
  apply From.pathExists
  apply From.bind
  apply From.mono (from_askWallet paths opts.stdinIsTty _)
  rintro ⟨plan, chosenPassword, restartMode⟩ ⟨disk₅, cs₅⟩ ⟨wallet, rfl⟩
  apply From.bind
  apply From.say
  apply From.bind
  apply From.askLine
  intro currencyLine cs₆ priced
  apply From.bind
  apply From.say
  apply From.bind
  apply From.askLine
  intro railLine rest railed
  apply From.pure
  exact ⟨.answers till shop bound node wallet priced railed, rfl⟩

end

end GoblinPay.Till
