import GoblinPay.Server.Clean

/-!
# The wizard and the start behind it

A run of the wizard that does not get to the end of its questions has changed no file, and behind its last question it asks nothing. One
that succeeds has installed what it heard: the file it has written loads into the configuration the answers stand for, and a start with
the wizard's wallet works with its seed. A first run goes on with the file at the root of the host, which is the wizard's where the
process works in the root directory.
-/

namespace GoblinPay.Till

open Async Setup

/-! ## The questions come first -/

section

variable {lower : String → String} {tools : Tools} {cwd : String} {opts : SetupOptions} {d : Disk}

/-- The disk is as it was, wherever a program is stopped. -/
abbrev Still (tools : Tools) (cwd : String) (d : Disk) {α : Type} (p : HostIo α) : Prop :=
  Stays (handler tools cwd) (fun s => s.disk = d) (fun _ _ => True) p

theorem Still.of_looks {α : Type} {p : HostIo α} (hp : p.Only Act.Looks) : Still tools cwd d p :=
  Stays.of_only hp fun _ x s he hs => (disk_looks tools cwd he x s).trans hs

/-- A directory that is made is no file, and neither is one that was there. -/
theorem still_ensureDir (path : String) (mode : Nat) : Still tools cwd d (ensureDir path mode).run := by
  have looks : (Act.createDirAll path).Looks := trivial
  apply stays_attempt
  · intro x s hs
    exact (disk_looks tools cwd looks x s).trans hs
  intro x s _ hs hmade
  have absent : d (join cwd path) = none := by
    rw [← hs]
    simp only [handler, act] at hmade
    split at hmade
    · cases hmade
    · rename_i hnone
      simpa using hnone
  apply Stays.of_only (S := fun {γ} e => ∀ x s, s.disk = d → ((handler tools cwd).act e x s).2.disk = d)
  · apply only_attempt
    rintro x s rfl
    simp only [handler, act]
    split
    · rfl
    · exact s.disk.chmod_of_none absent mode
  · intro _ e x s he hs
    exact he x s hs

theorem still_prepare (paths : Paths) (hidden : Bool) (answers : Answers) : Still tools cwd d (prepare paths hidden answers).run := by
  have drawn : Still tools cwd d (random 16 : ExceptT String HostIo (List UInt8)).run :=
    Still.of_looks (Prog.Only.lift (Prog.Only.call trivial))
  apply Stays.bindExcept drawn
  intro apiToken
  apply Stays.bindExcept drawn
  intro adminToken
  apply Stays.bindExcept drawn
  intro webhookSecret
  apply Stays.bindExcept (still_ensureDir _ _)
  intro _
  apply Stays.bindExcept (still_ensureDir _ _)
  intro _
  apply Still.of_looks
  split
  · exact Prog.Only.bindExcept (looks_existingPassword paths hidden) fun _ => trivial
  · exact Prog.Only.bindExcept (m := pure (answers.chosenPassword.getD "")) trivial fun _ => trivial

theorem still_questions : Still tools cwd d (questions lower tools opts).run := by
  apply Stays.bindExcept (Still.of_looks (looks_guardRun _ _))
  intro _
  apply Stays.bindExcept (Still.of_looks (looks_interview _ _))
  intro answers
  exact Stays.bindExcept (still_prepare _ _ _) fun _ => Still.of_looks trivial

/-! ### Behind the questions -/

/-- What is no question. -/
def Act.Mute {β : Type} (e : Act β) : Prop := ¬ e.Asks

theorem mute_openAt (dataDir : String) (mnemonic : Option String) (password nodeUrl : String) (chain : Env.Chain) :
    (openAt dataDir mnemonic password nodeUrl chain).run.Only Act.Mute := by
  have chained : (initChainType chain).run.Only Act.Mute := by
    apply Prog.Only.bindExcept (Prog.Only.lift (Prog.Only.call id))
    intro set
    split <;> trivial
  have provided : ∀ topDir found, (provide topDir mnemonic password found).run.Only Act.Mute := by
    intro topDir found
    cases found with
    | true =>
      cases mnemonic with
      | none => trivial
      | some mnemonic =>
        apply Prog.Only.bindExcept (only_attempt id _)
        intro existing
        split <;> trivial
    | false =>
      cases mnemonic with
      | none => trivial
      | some mnemonic => exact only_attempt id _
  apply Prog.Only.bindExcept chained
  intro _
  apply Prog.Only.bindExcept (only_attempt id _)
  intro _
  apply Prog.Only.bindExcept (only_attempt id _)
  intro _
  apply Prog.Only.bindExcept (only_attempt id _)
  intro _
  apply Prog.Only.bindExcept (only_attempt id _)
  intro _
  apply Prog.Only.bindExcept (only_attempt id _)
  intro found
  apply Prog.Only.bindExcept (provided _ found)
  intro _
  apply Prog.Only.bindExcept (only_attempt id _)
  intro seed
  apply Prog.Only.bindExcept (only_attempt id _)
  intro _
  exact Prog.Only.bindExcept (only_attempt id _) fun _ => trivial

theorem mute_install (paths : Paths) (answers : Answers) (tokens : Tokens) (password : String) :
    (install paths answers tokens password).run.Only Act.Mute := by
  have settled : (settleWallet paths answers password).run.Only Act.Mute := by
    apply Prog.Only.bindExcept (only_say id)
    intro _
    apply Prog.Only.bindExcept
    · exact Prog.Only.bind (mute_openAt _ _ _ _ _) fun _ => trivial
    intro wallet
    exact Prog.Only.bindExcept ((persists_applyRestartPersistence _ _).mono fun _ he => he.mute) fun _ => trivial
  apply Prog.Only.bindExcept settled
  rintro ⟨wallet, encrypted⟩
  exact (persists_conclude answers tokens wallet encrypted).mono fun _ he => he.mute

/-- A run that has not come to the end of its questions, stopped there or refused, has left the disk as it was; and behind its questions
it asks nothing. -/
theorem asks_first : (∀ xs (h : Host), (∀ a, ((questions lower tools opts).run.exec (handler tools cwd) xs h).1 ≠ .ret (.ok a)) →
      ((run lower tools opts).run.exec (handler tools cwd) xs h).2.disk = h.disk) ∧
    ∀ answers tokens password, (install (Paths.resolve opts.prefixDir) answers tokens password).run.Only Act.Mute := by
  constructor
  · intro xs h unanswered
    have kept : ((questions lower tools opts).run.exec (handler tools cwd) xs h).2.disk = h.disk :=
      Stays.exec still_questions rfl xs fun _ _ => trivial
    have idle := Prog.exec_bind_idle (H := handler tools cwd) (questions lower tools opts).run
      (ExceptT.bindCont fun a => install (Paths.resolve opts.prefixDir) a.1 a.2.1 a.2.2) xs h ?_
    · rw [← kept, ← idle]
      rfl
    · intro r hr
      cases r with
      | error e => exact ⟨_, rfl⟩
      | ok a => exact absurd hr (unanswered a)
  · intro answers tokens password
    exact mute_install _ answers tokens password

end

/-! ## The start behind it -/

/-- No line end is behind the text. -/
def Endless (text : String) : Prop := text.toList.rdropWhile (fun c => c = '\n' || c = '\r') = text.toList

theorem Line.endless {text : String} (h : Line text) : Endless text := by
  apply List.rdropWhile_eq_self_iff.2
  intro hne hend
  have last := h.2 (text.toList.getLast hne) (List.getLast?_eq_some_getLast hne)
  have feed : text.toList.getLast hne ≠ '\n' := fun heq => h.1 (heq ▸ List.getLast_mem hne)
  simp [last, feed] at hend

theorem endless_passwordOf (text : String) : Endless (passwordOf text) := by
  rw [Endless, passwordOf, String.toList_ofList]
  exact List.rdropWhile_idempotent _ _

/-- Written with a line end and read without, a password is the same. -/
theorem Endless.passwordOf {password : String} (h : Endless password) : passwordOf (password ++ "\n") = password := by
  rw [Setup.passwordOf, String.toList_append]
  have feed : (password.toList ++ "\n".toList).rdropWhile (fun c => c = '\n' || c = '\r') =
      password.toList.rdropWhile fun c => c = '\n' || c = '\r' := List.rdropWhile_concat_pos _ _ _ rfl
  rw [feed, h, String.ofList_toList]

section

variable {lower : String → String} {tools : Tools} {cwd : String} {opts : SetupOptions} {v : View} {d : Disk} {answers : Answers}
  {tokens : Tokens} {password : String} {seed : Seed} {encrypted : Bool}

theorem SetUp.tidy (up : SetUp lower tools cwd opts answers tokens password seed encrypted v d) (lines : ∀ line ∈ v.lines, Line line)
    (lowering : Lowercase lower) : TidyAnswers lower opts answers := by
  obtain ⟨cs, rest, heard, -⟩ := up.asked
  exact heard.tidy lines lowering

theorem SetUp.endless (up : SetUp lower tools cwd opts answers tokens password seed encrypted v d) (lines : ∀ line ∈ v.lines, Line line)
    (lowering : Lowercase lower) : Endless password := by
  obtain ⟨cs, rest, heard, source⟩ := up.asked
  cases source with
  | filed => exact endless_passwordOf _
  | typed _ taken =>
    obtain ⟨_, ⟨-, rfl⟩, hlines, -⟩ := taken.accepted
    exact (lines _ (heard.subset _ (hlines _ List.mem_cons_self))).endless
  | chosen _ hchosen => exact ((heard.tidy lines lowering).password _ hchosen).1.endless

/-- What a process reads. -/
def Disk.reader (d : Disk) (cwd path : String) : Except String String := d.read (join cwd path)

/-- Where the password is kept in a file, the written file loads into the configuration the answers stand for. -/
theorem SetUp.loads (up : SetUp lower tools cwd opts answers tokens password seed encrypted v d) (lines : ∀ line ∈ v.lines, Line line)
    (lowering : Lowercase lower) (fit : opts.Fit) (hmode : answers.restartMode = .unattended) (hplain : encrypted = false)
    (hne : password ≠ "") : configFromWrittenEnv lower (d.reader cwd) (Paths.resolve opts.prefixDir).envFile =
      .ok ((params (Paths.resolve opts.prefixDir) answers tokens encrypted).config password) := by
  have file : (params (Paths.resolve opts.prefixDir) answers tokens encrypted).walletPasswordFile =
      (Paths.resolve opts.prefixDir).walletPasswordFile := by
    simp only [params, passwordPath, hmode, hplain, Bool.false_eq_true, if_false]
  have shape := up.installed.shape
  rw [hmode, hplain] at shape
  cases shape with
  | plaintext kept _ _ _ =>
    have read : d.reader cwd (params (Paths.resolve opts.prefixDir) answers tokens encrypted).walletPasswordFile = .ok (password ++ "\n") := by
      rw [file]
      exact d.read_of_some kept
    have env : d.reader cwd (Paths.resolve opts.prefixDir).envFile =
        .ok (params (Paths.resolve opts.prefixDir) answers tokens encrypted).renderEnv := by
      have there := d.read_of_some up.installed.env
      exact there
    have same := (up.endless lines lowering).passwordOf
    have loaded := (written_config ((up.tidy lines lowering).clean fit tokens encrypted) env).1 _ read (by rwa [same])
    rwa [same] at loaded

/-- The seed of a new wallet is that of the mnemonic that was acknowledged. -/
theorem SetUp.acknowledged (up : SetUp lower tools cwd opts answers tokens password seed encrypted v d) {m : String}
    (hm : answers.plan.mnemonic = some m) : tools.toEntropy m = .ok seed := by
  obtain ⟨cs, rest, heard, -⟩ := up.asked
  obtain ⟨contents, hfile, -⟩ := up.installed.sealed
  rcases up.installed.created with same | ⟨-, m', hm', hseed⟩
  · -- a mnemonic is asked for only where there is no wallet
    have there : (v.disk (join cwd (seedPath (Paths.resolve opts.prefixDir).dataDir))).isSome = true := by
      rw [Disk.text, Disk.text, hfile] at same
      obtain ⟨file, hfile', -⟩ := Option.map_eq_some_iff.1 same.symm
      rw [hfile']
      rfl
    rw [there] at heard
    rw [heard.kept] at hm
    cases hm
  · rwa [Option.some.inj (hm'.symm.trans hm)] at hseed

/-- What a run of the wizard leaves to the starts behind it: the disk as the answers want it; a new wallet with the seed that was
acknowledged; where the password is kept in a file, and the flags are fit, a written file that loads into the configuration the answers
stand for; and whatever processes run in between, the wizard's seed to a start with the wizard's wallet and password. -/
structure Restarts (lower : String → String) (tools : Tools) (cwd : String) (opts : SetupOptions) (answers : Answers) (tokens : Tokens)
    (password : String) (seed : Seed) (encrypted : Bool) (v : View) (d : Disk) : Prop where
  up : SetUp lower tools cwd opts answers tokens password seed encrypted v d
  acknowledged : ∀ m, answers.plan.mnemonic = some m → tools.toEntropy m = .ok seed
  loads : opts.Fit → answers.restartMode = .unattended → encrypted = false → password ≠ "" →
    configFromWrittenEnv lower (d.reader cwd) (Paths.resolve opts.prefixDir).envFile =
      .ok ((params (Paths.resolve opts.prefixDir) answers tokens encrypted).config password)
  opens : ∀ (h h' : Host) ps cfg cwd' input xs keys w, h.disk = d →
    (startIngest tools cfg).run.exec (handler tools cwd') xs ((after lower tools ps h).fresh input) = (.ret (.ok (keys, w)), h') →
    join cwd' (seedPath cfg.dataDir) = join cwd (seedPath (Paths.resolve opts.prefixDir).dataDir) →
    cfg.walletPassword = some ⟨password⟩ → w.seed = seed

end

/-! ## The first run -/

section

variable {lower : String → String} {tools : Tools} {cwd : String} {cfg cfg' : Env.Config}

/-- What a first run that goes on has gone through: the wizard, in the root directory, and its file. -/
structure FirstRun (lower : String → String) (tools : Tools) (cwd : String) (v : View) (d : Disk) (cfg : Env.Config) : Prop where
  unconfigured : v.disk defaultEnvFile = none
  inRoot : join cwd (Paths.resolve none).envFile = defaultEnvFile
  booted : ∃ answers tokens password seed encrypted text,
    SetUp lower tools cwd (.plain true) answers tokens password seed encrypted v d ∧
      d.text (join cwd (params (Paths.resolve none) answers tokens encrypted).walletPasswordFile) = some text ∧
      cfg = (params (Paths.resolve none) answers tokens encrypted).config (passwordOf text)

theorem join_defaultEnvFile (cwd : String) : join cwd defaultEnvFile = defaultEnvFile := join_absolute (by decide)

theorem plain_fit : SetupOptions.Fit (.plain true) where
  prefixDir _ hdir := nomatch hdir
  nodeOverride _ hurl := nomatch hurl

/-- A wizard that writes elsewhere leaves the file at the root as it is. -/
theorem Installed.elsewhere {paths : Paths} {answers : Answers} {tokens : Tokens} {password : String} {seed : Seed} {encrypted : Bool}
    {d d' : Disk} (installed : Installed tools cwd paths answers tokens password seed encrypted d d') (named : paths.NamedAs)
    (h : join cwd paths.envFile ≠ defaultEnvFile) : d' defaultEnvFile = d defaultEnvFile := by
  have root : Named "goblinpay.env" defaultEnvFile := by decide
  have apart : ∀ {name path : String}, Named name path → ¬ Named name "goblinpay.env" → ¬ Named "goblinpay.env" name →
      join cwd path ≠ defaultEnvFile := fun hname hne hne' => (hname.joined cwd).ne root hne hne'
  apply installed.others
  · exact {
      envFile := h
      walletPasswordFile := apart named.walletPasswordFile (by decide) (by decide)
      encryptedCredFile := apart named.encryptedCredFile (by decide) (by decide)
      dropinFile := apart named.dropinFile (by decide) (by decide)
      encryptedDropinFile := apart named.encryptedDropinFile (by decide) (by decide) }
  · exact root.foreign (by decide) _

theorem Luck.orElse_reader {x : Luck} (hx : x.fails = none) (d : Disk) (cwd : String) :
    (fun path => x.orElse (d.read (join cwd path))) = d.reader cwd := by
  funext path
  rw [Luck.orElse, hx, Disk.reader]

/-- A configuration that is loaded is the wizard's, which has then worked in the root directory. -/
theorem SetUp.firstRun {v : View} {d : Disk} {answers : Answers} {tokens : Tokens} {password : String} {seed : Seed} {encrypted : Bool}
    (up : SetUp lower tools cwd (.plain true) answers tokens password seed encrypted v d) (lines : ∀ line ∈ v.lines, Line line)
    (lowering : Lowercase lower) (hunconfigured : v.disk defaultEnvFile = none) (x : Luck)
    (hloaded : configFromWrittenEnv lower (fun path => x.orElse (d.read (join cwd path))) defaultEnvFile = .ok cfg') :
    FirstRun lower tools cwd v d cfg' := by
  have lucky : x.fails = none := by
    cases hfails : x.fails with
    | none => rfl
    | some e =>
      rw [configFromWrittenEnv, Luck.orElse, hfails] at hloaded
      cases hloaded
  rw [Luck.orElse_reader lucky] at hloaded
  have inRoot : join cwd (Paths.resolve none).envFile = defaultEnvFile := by
    by_contra hne
    have absent := (up.installed.elsewhere (Paths.named none) hne).trans hunconfigured
    rw [configFromWrittenEnv, Disk.reader, join_defaultEnvFile, Disk.read, absent] at hloaded
    cases hloaded
  have file : d.reader cwd defaultEnvFile = .ok (params (Paths.resolve none) answers tokens encrypted).renderEnv := by
    have there := d.read_of_some up.installed.env
    change d.read (join cwd (Paths.resolve none).envFile) = _ at there
    rwa [Disk.reader, join_defaultEnvFile, ← inRoot]
  have clean := (up.tidy lines lowering).clean plain_fit tokens encrypted
  obtain ⟨text, hpassword, hcfg⟩ := written_config_ok clean file hloaded
  exact ⟨hunconfigured, inRoot, answers, tokens, password, seed, encrypted, text, up, d.text_of_read hpassword, hcfg⟩

theorem ends_needsFirstRunSetup (cfg : Env.Config) (envFileExists : Bool) (h : Host) :
    Ends (handler tools cwd) (fun fresh h' => h' = h ∧ (fresh = true → envFileExists = false)) (needsFirstRunSetup cfg envFileExists) h := by
  unfold needsFirstRunSetup
  split
  · intro x
    constructor
    · rfl
    · intro hfresh
      simpa using (Bool.and_eq_true_iff.1 hfresh).2
  · constructor
    · rfl
    · intro hfresh
      cases hfresh

/-- A start that goes on has the configuration it came with, or is a first run. -/
def GoesOn (lower : String → String) (tools : Tools) (cwd : String) (cfg : Env.Config) (v : View) (boot : Boot) (d : Disk) : Prop :=
  ∀ cfg', boot = .ready cfg' → cfg' = cfg ∧ d = v.disk ∨ FirstRun lower tools cwd v d cfg'

/-- A start that goes on has the configuration it came with, or is a first run in the root directory and has the configuration the
wizard's answers stand for, which were heard from what was typed. -/
theorem first_run (lowering : Lowercase lower) (lawful : tools.Lawful) (terminal : Bool) (cfg : Env.Config) (h : Host) :
    Ends (handler tools cwd) (fun boot h' => GoesOn lower tools cwd cfg h.view boot h'.disk) (firstRunOrBoot lower tools terminal cfg) h := by
  apply Ends.bind
  intro _
  apply Ends.bind
  apply Ends.mono (ends_needsFirstRunSetup cfg _ _)
  rintro fresh h₁ ⟨hsame, hfresh⟩
  obtain rfl : h = h₁ := hsame.symm
  split
  · intro cfg' hboot
    cases hboot
    exact Or.inl ⟨rfl, rfl⟩
  · rename_i hgo
    have unconfigured : h.disk defaultEnvFile = none := by
      have absent := hfresh (by revert hgo; cases fresh <;> simp)
      change (h.disk (join cwd defaultEnvFile)).isSome = false at absent
      rw [join_defaultEnvFile] at absent
      simpa using absent
    apply Ends.bind
    intro _
    apply Ends.bind
    refine Ends.mono (From.gives (v := h.view) (from_run lawful) _ ?_) ?_
    · rfl
    intro r h' hr
    cases r with
    | error e =>
      intro _ cfg' hboot
      cases hboot
    | ok _ =>
      obtain ⟨answers, tokens, password, seed, encrypted, up⟩ := hr () rfl
      apply Ends.bind
      intro reading
      dsimp only [handler, act]
      rcases hloaded : configFromWrittenEnv lower (fun path => reading.orElse (h'.disk.read (join cwd path))) defaultEnvFile with e | cfg'
      · intro _ cfg' hboot
        cases hboot
      · intro cfg'' hboot
        cases hboot
        exact Or.inr (up.firstRun (fun _ hline => line_typed hline) lowering unconfigured reading hloaded)

end

/-! ## A merchant's host -/

theorem lowercase_id : Lowercase (fun s => s) where
  idem _ := rfl
  usd := rfl
  separator _ _ _ h := h
  trimmed _ h := h

/-- The questions up to the password of the wallet that is there. -/
def hurried : Host := firstHost.fresh "http://pay\nhttp://shop\n\nhttp://node\n2\n\n\n".toList

/-- The till is to be set up again, and the input ends before the password of its wallet. -/
theorem merchant_leaves : ((run (fun s => s) plainTools { SetupOptions.plain true with reconfigure := true }).run.exec
    (handler plainTools "/") calm hurried).2.disk = hurried.disk := by
  have stopped : succeeded ((questions (fun s => s) plainTools { SetupOptions.plain true with reconfigure := true }).run.exec
      (handler plainTools "/") calm hurried).1 = none := by decide +kernel
  apply asks_first.1
  intro answers hanswers
  rw [hanswers] at stopped
  cases stopped

/-- What a merchant types, in the root directory. -/
def freshHost : Host :=
  ⟨⟨("http://pay\nhttp://shop\n\nhttp://node\npw\npw\n" ++ zeroPhrase ++ "\ny\n1\n\n\n").toList, ""⟩, fun _ => none, none⟩

theorem merchant_goes_on : Ends (handler plainTools "/") (fun boot h' =>
    GoesOn (fun s => s) plainTools "/" Env.Config.default freshHost.view boot h'.disk)
    (firstRunOrBoot (fun s => s) plainTools true Env.Config.default) freshHost :=
  @first_run (fun s => s) plainTools "/" lowercase_id plainTools_lawful true Env.Config.default freshHost

end GoblinPay.Till
