import GoblinPay.Server.Installed

/-!
# Clean answers

What the wizard is answered makes a file that is read back as it was meant: the values have nothing to trim, the lists no comma
inside, and the URLs a scheme. A directory and a node given as flags are taken as they are.
-/

namespace GoblinPay.Till

open Setup Text

/-! ## Trimmed texts -/

theorem ends_trimChars (cs : List Char) : (∀ c ∈ (trimChars cs).head?, isWhitespace c = false) ∧
    ∀ c ∈ (trimChars cs).getLast?, isWhitespace c = false := by
  have front : ∀ ds : List Char, ∀ c ∈ (ds.dropWhile isWhitespace).head?, isWhitespace c = false := by
    intro ds c hc
    have stop := List.head?_dropWhile_not isWhitespace ds
    rw [Option.mem_def.1 hc] at stop
    simpa using stop
  constructor
  · intro c hc
    -- the front of what is trimmed behind is the front of what is trimmed before
    rw [trimChars, List.head?_reverse] at hc
    have whole : (cs.dropWhile isWhitespace).reverse = (cs.dropWhile isWhitespace).reverse.takeWhile isWhitespace ++
        (cs.dropWhile isWhitespace).reverse.dropWhile isWhitespace := List.takeWhile_append_dropWhile.symm
    apply front cs c
    rw [← List.getLast?_reverse, whole]
    have hne : (cs.dropWhile isWhitespace).reverse.dropWhile isWhitespace ≠ [] := by
      intro hnil
      rw [hnil] at hc
      cases hc
    rw [List.getLast?_append_of_ne_nil _ hne]
    exact hc
  · intro c hc
    rw [trimChars, List.getLast?_reverse] at hc
    exact front _ c hc

theorem trimChars_trimChars (cs : List Char) : trimChars (trimChars cs) = trimChars cs :=
  trimChars_eq_self (ends_trimChars cs).1 (ends_trimChars cs).2

theorem mem_trimChars {cs : List Char} {c : Char} (h : c ∈ trimChars cs) : c ∈ cs := by
  rw [trimChars, List.mem_reverse] at h
  have behind := List.dropWhile_subset _ h
  rw [List.mem_reverse] at behind
  exact List.dropWhile_subset _ behind

theorem tidy_trim {text : String} (hline : '\n' ∉ text.toList) (hne : trim text ≠ "") : Setup.Tidy (trim text) where
  trimmed := by rw [trim, String.toList_ofList, trimChars_trimChars]
  nonempty := by
    intro hnil
    rw [String.toList_eq_nil_iff] at hnil
    exact hne hnil
  oneLine := by
    rw [trim, String.toList_ofList]
    intro hmem
    exact hline (mem_trimChars hmem)

/-- Tidy ends make a tidy text. -/
theorem tidy_append {front back : String} (hfront : Setup.Tidy front) (hback : Setup.Tidy back) (between : String) (hbetween : '\n' ∉ between.toList) :
    Setup.Tidy (front ++ between ++ back) where
  trimmed := by
    simp only [String.toList_append]
    apply trimChars_eq_self
    · rw [List.append_assoc, List.head?_append_of_ne_nil _ hfront.nonempty]
      exact head_trimmed hfront.trimmed
    · rw [List.getLast?_append_of_ne_nil _ hback.nonempty]
      exact last_trimmed hback.trimmed
  nonempty := by
    simp only [String.toList_append]
    exact List.append_ne_nil_of_right_ne_nil _ hback.nonempty
  oneLine := by
    simp only [String.toList_append, List.mem_append, not_or]
    exact ⟨⟨hfront.oneLine, hbetween⟩, hback.oneLine⟩

theorem tidy_join {base path : String} (hbase : Setup.Tidy base) (hpath : Setup.Tidy path) : Setup.Tidy (join base path) := by
  unfold join
  split
  · exact hpath
  split
  · have glued := tidy_append hbase hpath "" List.not_mem_nil
    rwa [String.append_empty] at glued
  · exact tidy_append hbase hpath "/" (by decide)

theorem tidy_place {prefixDir : Option String} (hdir : ∀ dir, prefixDir = some dir → Setup.Tidy dir) {abs : String} (habs : Setup.Tidy abs)
    (hstripped : Setup.Tidy (String.ofList (abs.toList.dropWhile (· = '/')))) : Setup.Tidy (Paths.place prefixDir abs) := by
  cases prefixDir with
  | none => exact habs
  | some dir => exact tidy_join (hdir dir rfl) hstripped

/-! ## URLs -/

/-- The schemes a URL may begin with. -/
def Schemed (cs : List Char) : Prop := "http://".toList <+: cs ∨ "https://".toList <+: cs

theorem schemed_iff {cs : List Char} : (!"http://".toList.isPrefixOf cs && !"https://".toList.isPrefixOf cs) = false ↔ Schemed cs := by
  rw [Bool.and_eq_false_iff, Bool.not_eq_false', Bool.not_eq_false', List.isPrefixOf_iff_prefix, List.isPrefixOf_iff_prefix]
  rfl

theorem word_all {cs : List Char} (h : (cs ≠ [] && cs.all fun c => !isWhitespace c) = true) : Word cs := by
  simp only [Bool.and_eq_true, decide_eq_true_eq, List.all_eq_true, Bool.not_eq_true'] at h
  exact ⟨h.1, h.2⟩

/-- Trimming keeps the scheme. -/
theorem Schemed.trimmed {cs : List Char} (h : Schemed cs) : Schemed (trimChars cs) := by
  have kept : ∀ {scheme : List Char}, Word scheme → scheme <+: cs → scheme <+: trimChars cs := by
    rintro scheme word ⟨rest, rfl⟩
    rw [trimChars_solid word]
    exact List.prefix_append _ _
  rcases h with h | h
  · exact Or.inl (kept (word_all (by decide)) h)
  · exact Or.inr (kept (word_all (by decide)) h)

theorem Schemed.ne_slashes {cs : List Char} (h : Schemed cs) : cs.rdropWhile (· = '/') ≠ [] := by
  intro hnil
  rw [List.rdropWhile_eq_nil_iff] at hnil
  have head : 'h' ∈ cs := by
    rcases h with h | h
    · exact h.subset (by decide)
    · exact h.subset (by decide)
  exact absurd (hnil 'h' head) (by decide)

/-- A URL that was accepted is one line, and begins with a scheme and no blank. -/
theorem normalizeUrl_ok {line url : String} (hline : '\n' ∉ line.toList) (h : normalizeUrl line = .ok url) :
    '\n' ∉ url.toList ∧ Schemed url.toList := by
  unfold normalizeUrl at h
  dsimp only at h
  split at h
  · cases h
  split at h
  · cases h
  · rename_i hscheme
    cases h
    rw [String.toList_ofList]
    constructor
    · intro hmem
      exact hline (mem_trimChars (mem_of_rdropWhile hmem))
    · rw [Bool.not_eq_true] at hscheme
      exact schemed_iff.1 hscheme

theorem base_ne {url : String} (h : Schemed url.toList) : base url ≠ "" := by
  intro hbase
  have hnil := congrArg String.toList hbase
  rw [base, String.toList_ofList] at hnil
  exact h.trimmed.ne_slashes hnil

theorem schemeless_trim {url : String} (h : Schemed url.toList) : Env.schemeless (trim url) = false := by
  have inside : (trim url).toList = trimChars url.toList := String.toList_ofList
  rw [Env.schemeless, inside]
  exact schemed_iff.2 h.trimmed

theorem tidy_webhookUrl {line url : String} (hline : '\n' ∉ line.toList) (h : webhookUrlFromShop line = .ok url) : Setup.Tidy url := by
  unfold webhookUrlFromShop at h
  cases hshop : normalizeUrl line with
  | error e =>
    rw [hshop] at h
    cases h
  | ok shop =>
    rw [hshop] at h
    cases h
    obtain ⟨oneLine, schemed⟩ := normalizeUrl_ok hline hshop
    constructor
    · rw [String.toList_append]
      apply trimChars_eq_self
      · have head : shop.toList.head? = some 'h' := by
          rcases schemed with ⟨rest, hrest⟩ | ⟨rest, hrest⟩
          · rw [← hrest]
            rfl
          · rw [← hrest]
            rfl
        intro c hc
        rw [List.head?_append, head] at hc
        cases hc
        decide
      · intro c hc
        rw [List.getLast?_append_of_ne_nil _ (by decide)] at hc
        cases hc
        decide
    · rw [String.toList_append]
      exact List.append_ne_nil_of_right_ne_nil _ (by decide)
    · rw [String.toList_append, List.mem_append, not_or]
      exact ⟨oneLine, by decide⟩

theorem tidy_normalizeBind {line : String} (hline : '\n' ∉ line.toList) : Setup.Tidy (normalizeBind line) := by
  unfold normalizeBind
  dsimp only
  split
  · exact tidy_word rfl (by decide)
  · rename_i hsome
    apply tidy_trim hline
    simpa using hsome

/-! ## Currencies -/

/-- What `str::to_lowercase` is like: what is lowercase stays, and separators and blanks come from nowhere else. -/
structure Lowercase (lower : String → String) : Prop where
  idem : ∀ text, lower (lower text) = lower text
  usd : lower "usd" = "usd"
  separator : ∀ text c, c = ',' ∨ c = '\n' → c ∈ (lower text).toList → c ∈ text.toList
  trimmed : ∀ text, trimChars text.toList = text.toList → trimChars (lower text).toList = (lower text).toList

theorem parseCurrencies_tidy {lower : String → String} (lowering : Lowercase lower) {line : String} (hline : '\n' ∉ line.toList) :
    TidyList (parseCurrencies lower line) ∧ ∀ currency ∈ parseCurrencies lower line, lower currency = currency := by
  unfold parseCurrencies
  dsimp only
  split
  · constructor
    · constructor
      · exact List.cons_ne_nil _ _
      · intro text htext
        rw [List.mem_singleton.1 htext]
        exact tidy_word rfl (by decide)
      · decide
    · intro currency hcurrency
      rw [List.mem_singleton.1 hcurrency]
      exact lowering.usd
  · rename_i hsome
    -- a code is the lowercase of a trimmed piece between commas
    have code : ∀ text ∈ ((line.toList.splitOn ',').map fun piece => lower (String.ofList (trimChars piece))).filter fun s => !s.isEmpty,
        text ≠ "" ∧ ∃ piece, (∀ c ∈ piece, c ∈ line.toList ∧ c ≠ ',') ∧ text = lower (String.ofList (trimChars piece)) := by
      intro text htext
      obtain ⟨hmem, hne⟩ := List.mem_filter.1 htext
      obtain ⟨piece, hpiece, rfl⟩ := List.mem_map.1 hmem
      refine ⟨by simpa using hne, piece, ?_, rfl⟩
      intro c hc
      obtain ⟨hin, hcomma⟩ := mem_splitOnP hpiece c hc
      exact ⟨hin, by simpa using hcomma⟩
    constructor
    · constructor
      · simpa using hsome
      · intro text htext
        obtain ⟨hne, piece, hpiece, rfl⟩ := code text htext
        constructor
        · apply lowering.trimmed
          rw [String.toList_ofList, trimChars_trimChars]
        · intro hnil
          rw [String.toList_eq_nil_iff] at hnil
          exact hne hnil
        · intro hmem
          have inside := lowering.separator _ _ (Or.inr rfl) hmem
          rw [String.toList_ofList] at inside
          exact hline (hpiece _ (mem_trimChars inside)).1
      · intro text htext hmem
        obtain ⟨-, piece, hpiece, rfl⟩ := code text htext
        have inside := lowering.separator _ _ (Or.inl rfl) hmem
        rw [String.toList_ofList] at inside
        exact (hpiece _ (mem_trimChars inside)).2 rfl
    · intro currency hcurrency
      obtain ⟨-, piece, -, rfl⟩ := code currency hcurrency
      exact lowering.idem _

/-! ## The parameters -/

theorem tidy_secret {label : String} {bytes : List UInt8} (h : (label.toList ≠ [] && label.toList.all fun c => !isWhitespace c) = true) :
    Setup.Tidy (prefixedSecret label bytes) := by
  have spelled : prefixedSecret label bytes = String.ofList (label.toList ++ (Hex.encodeHex bytes).toList) := by
    rw [String.ofList_append, String.ofList_toList, String.ofList_toList]
    rfl
  apply tidy_word spelled
  simp only [Bool.and_eq_true, decide_eq_true_eq, List.all_eq_true] at h ⊢
  constructor
  · exact List.append_ne_nil_of_left_ne_nil h.1 _
  · intro c hc
    rcases List.mem_append.1 hc with hlabel | hdigit
    · exact h.2 c hlabel
    · rw [(Hex.encodeHex_denotes bytes).solid c hdigit]
      rfl

/-- What `--prefix` and `--node` are taken for without a check. -/
structure SetupOptions.Fit (opts : SetupOptions) : Prop where
  prefixDir : ∀ dir, opts.prefixDir = some dir → Setup.Tidy dir
  nodeOverride : ∀ url, opts.nodeOverride = some url → '\n' ∉ url.toList ∧ Schemed url.toList

section

variable {lower : String → String} {tools : Tools} {opts : SetupOptions} {walletExists manual : Bool} {answers : Answers} {cs rest : List String}

/-- A line that an answer was taken from has no line end in it. -/
theorem oneLine_of_required {T : Type} {parse : String → Except String T} {e : String} {a : T} (h : (required parse e).Takes cs a rest)
    (hcs : ∀ line ∈ cs, Line line) : (∃ line, '\n' ∉ line.toList ∧ parse line = .ok a) ∧ ∀ line ∈ rest, Line line := by
  obtain ⟨_, ⟨line, rfl, hparse⟩, hlines, hrest⟩ := h.accepted
  exact ⟨⟨line, (hcs line (hlines line List.mem_cons_self)).1, hparse⟩, fun text htext => hcs text (hrest text htext)⟩

theorem NodeHeard.subset {url : String} (h : NodeHeard opts cs url rest) : ∀ line ∈ rest, line ∈ cs := by
  cases h with
  | override => exact fun _ hline => hline
  | picked _ read | named _ read => exact read.subset

theorem NodeHeard.fit {url : String} (h : NodeHeard opts cs url rest) (hcs : ∀ line ∈ cs, Line line) (fit : opts.Fit) :
    '\n' ∉ url.toList ∧ Schemed url.toList := by
  cases h with
  | override hover => exact fit.nodeOverride url hover
  | picked _ _ _ hcurated =>
    have curated : ∀ url ∈ curatedNodes, '\n' ∉ url.toList ∧ "https://".toList <+: url.toList := by decide
    obtain ⟨oneLine, https⟩ := curated url hcurated
    exact ⟨oneLine, Or.inr https⟩
  | named _ read _ hurl => exact normalizeUrl_ok (line_of_read read hcs).1 hurl

theorem WalletHeard.subset {answer : SeedPlan × Option String × RestartMode} (h : WalletHeard lower tools manual walletExists cs answer rest) :
    ∀ line ∈ rest, line ∈ cs := by
  cases h with
  | existing read => exact read.subset
  | fresh chosen read _ _ _ ack read' | pasted chosen read _ ack read' =>
    obtain ⟨_, -, -, h₁⟩ := chosen.accepted
    obtain ⟨_, -, -, h₃⟩ := ack.accepted
    exact fun line hline => h₁ _ (read.subset _ (h₃ _ (read'.subset line hline)))

/-- The password of a new wallet is a line. -/
theorem WalletHeard.password {answer : SeedPlan × Option String × RestartMode}
    (h : WalletHeard lower tools manual walletExists cs answer rest) (hcs : ∀ line ∈ cs, Line line) :
    ∀ password, answer.2.1 = some password → Line password ∧ password ≠ "" := by
  have taken : ∀ {password rest}, newPassword.Takes cs password rest → Line password ∧ password ≠ "" := by
    intro password rest chosen
    obtain ⟨_, ⟨hne, rfl⟩, hlines, -⟩ := chosen.accepted
    exact ⟨hcs _ (hlines _ List.mem_cons_self), hne⟩
  cases h with
  | existing => exact nofun
  | fresh chosen | pasted chosen =>
    intro _ hpassword
    cases hpassword
    exact taken chosen

/-- A mnemonic is asked for only where there is no wallet. -/
theorem Heard.kept (heard : Heard lower tools opts true manual cs answers rest) : answers.plan = .existing := by
  cases heard with
  | answers _ _ _ _ wallet _ _ =>
    cases wallet with
    | existing => rfl

/-- What the answers are like that the lines give. -/
structure TidyAnswers (lower : String → String) (opts : SetupOptions) (answers : Answers) : Prop where
  bind : Setup.Tidy answers.bind
  publicUrl : '\n' ∉ answers.publicUrl.toList ∧ Schemed answers.publicUrl.toList
  webhookUrl : Setup.Tidy answers.webhookUrl
  nodeUrl : opts.Fit → '\n' ∉ answers.nodeUrl.toList ∧ Schemed answers.nodeUrl.toList
  currencies : TidyList answers.currencies ∧ ∀ currency ∈ answers.currencies, lower currency = currency
  password : ∀ password, answers.chosenPassword = some password → Line password ∧ password ≠ ""

theorem Heard.tidy (heard : Heard lower tools opts walletExists manual cs answers rest) (hcs : ∀ line ∈ cs, Line line)
    (lowering : Lowercase lower) : TidyAnswers lower opts answers := by
  cases heard with
  | answers till shop bound node wallet priced railed =>
    obtain ⟨⟨publicLine, hpublicLine, hpublic⟩, h₁⟩ := oneLine_of_required till hcs
    obtain ⟨⟨shopLine, hshopLine, hshop⟩, h₂⟩ := oneLine_of_required shop h₁
    have h₃ := fun text htext => h₂ text (bound.subset text htext)
    have h₄ := fun text htext => h₃ text (node.subset text htext)
    have h₅ := fun text htext => h₄ text (wallet.subset text htext)
    have bind := tidy_normalizeBind (line_of_read bound h₂).1
    have currencies := parseCurrencies_tidy lowering (line_of_read priced h₅).1
    constructor
    · dsimp only
      exact bind
    · exact normalizeUrl_ok hpublicLine hpublic
    · exact tidy_webhookUrl hshopLine hshop
    · exact node.fit h₃
    · dsimp only
      exact currencies
    · exact wallet.password h₄

theorem Heard.subset (heard : Heard lower tools opts walletExists manual cs answers rest) : ∀ line ∈ rest, line ∈ cs := by
  cases heard with
  | answers till shop bound node wallet priced railed =>
    obtain ⟨_, -, -, h₁⟩ := till.accepted
    obtain ⟨_, -, -, h₂⟩ := shop.accepted
    intro line hline
    exact h₁ _ (h₂ _ (bound.subset _ (node.subset _ (wallet.subset _ (priced.subset _ (railed.subset line hline))))))

/-- The parameters that such answers make are clean. -/
theorem TidyAnswers.clean (tidy : TidyAnswers lower opts answers) (fit : opts.Fit) (tokens : Tokens) (encrypted : Bool) :
    (params (Paths.resolve opts.prefixDir) answers tokens encrypted).Clean lower := by
  have placed : ∀ {abs : String}, Setup.Tidy abs → Setup.Tidy (String.ofList (abs.toList.dropWhile (· = '/'))) →
      Setup.Tidy (Paths.place opts.prefixDir abs) := tidy_place fit.prefixDir
  exact {
    bind := tidy.bind
    publicUrl := tidy.publicUrl.1
    publicUrl_base := base_ne tidy.publicUrl.2
    webhookUrl := tidy.webhookUrl
    nodeUrl := (tidy.nodeUrl fit).1
    nodeUrl_scheme := schemeless_trim (tidy.nodeUrl fit).2
    relays := by
      constructor
      · exact List.cons_ne_nil _ _
      · intro text htext
        rcases List.mem_pair.1 htext with rfl | rfl
        · exact tidy_word rfl (by decide)
        · exact tidy_word rfl (by decide)
      · show ∀ text ∈ defaultRelays, ',' ∉ text.toList
        decide
    currencies := tidy.currencies.1
    currencies_lower := tidy.currencies.2
    apiToken := tidy_secret (by decide)
    adminToken := tidy_secret (by decide)
    webhookSecret := tidy_secret (by decide)
    dataDir := placed (tidy_word rfl (by decide)) (tidy_word rfl (by decide))
    dbPath := placed (tidy_word rfl (by decide)) (tidy_word rfl (by decide))
    walletPasswordFile := by
      show Setup.Tidy (passwordPath _ _ _)
      unfold passwordPath
      split
      · split
        · exact tidy_word rfl (by decide)
        · exact tidy_join (placed (tidy_word rfl (by decide)) (tidy_word rfl (by decide))) (tidy_word rfl (by decide))
      · exact placed (tidy_word rfl (by decide)) (tidy_word rfl (by decide)) }

end

end GoblinPay.Till
