import GoblinPay.Server.Start
import GoblinPay.Server.View

/-!
# The life of a host

One process after the other, each stopped anywhere: runs of the wizard and starts of the server, from whatever working
directory. What they leave alone follows from the names of the files they write.
-/

namespace GoblinPay.Till

open Async Setup

/-- What a process runs: `gp-server setup` with its arguments, or `gp-server` without any. -/
inductive Job
  | setup (stdinIsTty : Bool) (args : List String)
  | start (terminal : Bool) (cfg : Env.Config)

/-- A process: where it works, what is typed into it, and what the environment contributes until it ends or is stopped. -/
structure Process where
  cwd : String
  input : List Char
  job : Job
  luck : List Luck

/-- A process starts with a console of its own and no chain type set. -/
def Host.fresh (h : Host) (input : List Char) : Host := { h with console := ⟨input, ""⟩, chain := none }

section

variable (lower : String → String) (tools : Tools)

/-- The program of a job, its exit code dropped. -/
def Job.code : Job → HostIo Unit
  | .setup stdinIsTty args => runSetup lower tools stdinIsTty args >>= fun _ => .ret ()
  | .start terminal cfg => (Till.start lower tools terminal cfg).run >>= fun _ => .ret ()

/-- The host when the process has ended, or where its contributions run out. -/
def Process.after (p : Process) (h : Host) : Host := ((p.job.code lower tools).exec (handler tools p.cwd) p.luck (h.fresh p.input)).2

/-- The host after the processes, one behind the other. -/
def after (ps : List Process) (h : Host) : Host := ps.foldl (fun h p => p.after lower tools h) h

end

/-! ## Names -/

/-- A place under the prefix is named as without one. -/
theorem named_place (prefixDir : Option String) (abs : String) (h : abs.toList.head? ≠ some '/') : Named abs (Paths.place prefixDir abs) := by
  cases prefixDir with
  | none => exact List.suffix_refl _
  | some dir =>
    have kept : abs.toList.dropWhile (· = '/') = abs.toList := by
      cases hcs : abs.toList with
      | nil => rfl
      | cons c cs =>
        rw [hcs] at h
        exact List.dropWhile_cons_of_neg (by simpa using h)
    show Named abs (join dir (String.ofList (abs.toList.dropWhile (· = '/'))))
    rw [kept, String.ofList_toList]
    exact named_join dir abs

/-- `identity.json` is named so wherever the data lives. -/
theorem named_identity (dataDir : String) : Named "identity.json" (ServerIdentity.path dataDir) := named_join _ _

/-- The names the wizard writes and removes under. -/
structure Paths.NamedAs (paths : Paths) : Prop where
  envFile : Named "goblinpay.env" paths.envFile
  walletPasswordFile : Named "wallet_password" paths.walletPasswordFile
  encryptedCredFile : Named "wallet_password.cred" paths.encryptedCredFile
  dropinFile : Named "manual.conf" paths.dropinFile
  encryptedDropinFile : Named "encrypted.conf" paths.encryptedDropinFile

/-- Whatever the prefix, the files of an installation are named the same. -/
theorem Paths.named (prefixDir : Option String) : (resolve prefixDir).NamedAs where
  envFile := Named.trans (by decide) (named_place prefixDir "etc/goblinpay.env" (by decide))
  walletPasswordFile := named_join _ _
  encryptedCredFile := named_join _ _
  dropinFile := Named.trans (by decide) (named_place prefixDir "etc/systemd/system/gp-server.service.d/manual.conf" (by decide))
  encryptedDropinFile :=
    Named.trans (by decide) (named_place prefixDir "etc/systemd/system/gp-server.service.d/encrypted.conf" (by decide))

/-! ## What is left alone -/

/-- The operations that neither write nor remove a file, nor are grin-wallet's on it. -/
def Act.Spares (cwd file : String) : {β : Type} → Act β → Prop
  | _, .write path _ => join cwd path ≠ file
  | _, .removeFile path => join cwd path ≠ file
  | _, .sealCredential _ dest => join cwd dest ≠ file
  | _, .createWallet topDir _ _ => seedFile (join cwd topDir) ≠ file ∧ ¬ Kept (join cwd topDir) file
  | _, .openWallet topDir _ => ¬ Kept (join cwd topDir) file
  | _, _ => True

/-- An operation that changes no file spares every file. -/
theorem Act.Looks.spares {β : Type} {e : Act β} (he : e.Looks) (cwd file : String) : e.Spares cwd file := by
  cases e with
  | write | removeFile | sealCredential | createWallet | openWallet => exact he.elim
  | _ => trivial

/-- An operation that spares a file leaves what it says. -/
theorem text_spares {tools : Tools} (lawful : tools.Lawful) {cwd file : String} {β : Type} {e : Act β} (he : e.Spares cwd file) (x : Luck)
    (h : Host) : ((handler tools cwd).act e x h).2.disk.text file = h.disk.text file := by
  have same : ∀ d : Disk, d file = h.disk file → d.text file = h.disk.text file := fun d hd => congrArg (Option.map File.contents) hd
  by_cases looks : e.Looks
  · rw [disk_looks tools cwd looks]
  cases e with
  | setPermissions path mode =>
    simp only [handler, act]
    split
    · rfl
    · exact h.disk.text_chmod _ _ _
  | write path contents =>
    simp only [handler, act]
    split
    · exact same _ (h.disk.torn_of_ne tools (Ne.symm he) _)
    · exact same _ (h.disk.put_of_ne tools (Ne.symm he) _)
  | removeFile path =>
    simp only [handler, act]
    split
    · rfl
    split
    · exact same _ (h.disk.remove_of_ne (Ne.symm he))
    · rfl
  | sealCredential password dest => exact same _ (lawful.seal_keeps _ _ _ _ _ (Ne.symm he))
  | createWallet topDir mnemonic password => exact same _ (lawful.create_keeps _ _ _ _ _ _ (Ne.symm he.1) he.2)
  | openWallet topDir password => exact same _ (lawful.open_keeps _ _ _ _ _ he)
  | _ => exact absurd trivial looks

/-- The file says what it did, wherever a program is stopped on answers `A` allows. -/
abbrev Holds (tools : Tools) (cwd file text : String) (A : {β : Type} → Act β → Luck → Prop) {α : Type} (p : HostIo α) : Prop :=
  Stays (handler tools cwd) (fun s => s.disk.text file = some text) A p

section

variable {tools : Tools} {cwd file text : String} {A : {β : Type} → Act β → Luck → Prop} {ε ε' α β : Type}

/-- A program of operations that spare the file leaves what it says. -/
theorem Holds.of_spares (lawful : tools.Lawful) {p : HostIo α} (hp : p.Only (Act.Spares cwd file)) : Holds tools cwd file text A p :=
  Stays.of_only hp fun _ x s he hs => (text_spares lawful he x s).trans hs

/-- One operation whose error ends a block; what its answer tells is known behind it. -/
theorem stays_attempt {K : Host → Prop} {e : Act (Except ε β)} {wrap : ε → ε'} {f : β → ExceptT ε' HostIo α}
    (own : ∀ x s, K s → K ((handler tools cwd).act e x s).2)
    (hf : ∀ x s b, K s → ((handler tools cwd).act e x s).1 = .ok b → Stays (handler tools cwd) K A (f b).run) :
    Stays (handler tools cwd) K A (Till.attempt e wrap >>= f).run := by
  intro s hs
  apply Meets.soloStep hs
  intro x _
  have after := own x s hs
  cases hanswer : ((handler tools cwd).act e x s).1 with
  | error err => exact Meets.soloRet after
  | ok b => exact hf x s b hs hanswer _ after

end

section

variable {lower : String → String} {tools : Tools}

/-- Probing the curated nodes asks the network only. -/
theorem looks_selectNode (urls : List String) : (selectNode urls).Only Act.Looks := by
  induction urls with
  | nil => trivial
  | cons url urls ih =>
    apply Prog.Only.bind (Prog.Only.call trivial)
    intro healthy
    cases healthy with
    | true => trivial
    | false => exact ih

/-- The choice of a node touches no file. -/
theorem looks_resolveNode (opts : SetupOptions) : (resolveNode opts).run.Only Act.Looks := by
  unfold resolveNode
  cases opts.nodeOverride with
  | some url => exact Prog.Only.bindExcept (only_say trivial) fun _ => trivial
  | none =>
    apply Prog.Only.bindExcept (only_say trivial)
    intro _
    apply Prog.Only.bindExcept (Prog.Only.call trivial)
    intro answer
    split
    · apply Prog.Only.bindExcept (only_say trivial)
      intro _
      apply Prog.Only.bindExcept (Prog.Only.lift (looks_selectNode curatedNodes))
      intro found
      cases found with
      | some url => exact Prog.Only.bindExcept (only_say trivial) fun _ => trivial
      | none => trivial
    · apply Prog.Only.bindExcept (m := resolveNode.liftExcept (normalizeUrl answer)) trivial
      intro url
      exact Prog.Only.bindExcept (only_say trivial) fun _ => trivial

theorem looks_promptRestartMode (number : Option Nat) (default : RestartMode) :
    (promptRestartMode lower number default).run.Only Act.Looks := by
  apply Prog.Only.bindExcept (only_say trivial)
  intro _
  exact Prog.Only.bindExcept (Prog.Only.call trivial) fun _ => trivial

/-- The seed is generated or pasted at the terminal, and held until the wallet is created. -/
theorem looks_askSeed : (askSeed tools).run.Only Act.Looks := by
  apply Prog.Only.bindExcept (only_say trivial)
  intro _
  apply Prog.Only.bindExcept (Prog.Only.call trivial)
  intro seedLine
  split
  · apply Prog.Only.bindExcept (Prog.Only.lift (Prog.Only.call trivial))
    intro entropy
    cases tools.fromEntropy entropy with
    | error e => trivial
    | ok m =>
      apply Prog.Only.bindExcept (only_say trivial)
      intro _
      exact Prog.Only.bindExcept (Prog.Only.call trivial) fun _ => trivial
  · exact Prog.Only.bindExcept (Prog.Only.call trivial) fun _ => trivial

/-- The password, the seed and the restart mode are asked for, and nothing is stored yet. -/
theorem looks_askWallet (paths : Paths) (hidden walletExists : Bool) : (askWallet lower tools paths hidden walletExists).run.Only Act.Looks := by
  cases walletExists with
  | true =>
    apply Prog.Only.bindExcept (only_say trivial)
    intro _
    apply Prog.Only.bindExcept (only_pathExists trivial)
    intro manual
    exact Prog.Only.bindExcept (looks_promptRestartMode _ _) fun _ => trivial
  | false =>
    apply Prog.Only.bindExcept (Prog.Only.call trivial)
    intro password
    apply Prog.Only.bindExcept looks_askSeed
    intro plan
    exact Prog.Only.bindExcept (looks_promptRestartMode _ _) fun _ => trivial

/-- The questions change no file. -/
theorem looks_interview (paths : Paths) (opts : SetupOptions) : (interview lower tools paths opts).run.Only Act.Looks := by
  apply Prog.Only.bindExcept (only_say trivial)
  intro _
  apply Prog.Only.bindExcept (Prog.Only.call trivial)
  intro publicUrl
  apply Prog.Only.bindExcept (Prog.Only.call trivial)
  intro webhookUrl
  apply Prog.Only.bindExcept (only_say trivial)
  intro _
  apply Prog.Only.bindExcept (Prog.Only.call trivial)
  intro bindLine
  apply Prog.Only.bindExcept (looks_resolveNode opts)
  intro nodeUrl
  apply Prog.Only.bindExcept (only_pathExists trivial)
  intro walletExists
  apply Prog.Only.bindExcept (looks_askWallet paths opts.stdinIsTty walletExists)
  intro answered
  apply Prog.Only.bindExcept (only_say trivial)
  intro _
  apply Prog.Only.bindExcept (Prog.Only.call trivial)
  intro currencyLine
  apply Prog.Only.bindExcept (only_say trivial)
  intro _
  exact Prog.Only.bindExcept (Prog.Only.call trivial) fun _ => trivial

/-- The guard looks whether there is a setup, and writes nothing. -/
theorem looks_guardRun (paths : Paths) (opts : SetupOptions) : (guardRun paths opts).run.Only Act.Looks := by
  unfold guardRun
  split
  · exact Prog.Only.bindExcept (only_say trivial) fun _ => trivial
  split
  · trivial
  · apply Prog.Only.bindExcept (only_pathExists trivial)
    intro seed
    apply Prog.Only.bindExcept (only_pathExists trivial)
    intro env
    split <;> trivial

/-- The password of a wallet that is there is read from its file, or asked for. -/
theorem looks_existingPassword (paths : Paths) (hidden : Bool) : (Till.existingPassword paths hidden).run.Only Act.Looks := by
  apply Prog.Only.bindExcept (Prog.Only.lift (Prog.Only.call trivial))
  intro read
  cases read with
  | ok s => trivial
  | error e => exact Prog.Only.bindExcept (only_say trivial) fun _ => Prog.Only.call trivial

/-- None of the files the wizard writes or removes is this one. -/
structure Paths.Clear (paths : Paths) (cwd file : String) : Prop where
  envFile : join cwd paths.envFile ≠ file
  walletPasswordFile : join cwd paths.walletPasswordFile ≠ file
  encryptedCredFile : join cwd paths.encryptedCredFile ≠ file
  dropinFile : join cwd paths.dropinFile ≠ file
  encryptedDropinFile : join cwd paths.encryptedDropinFile ≠ file

variable {paths : Paths} {cwd file : String}

/-- A file with another name is none of the wizard's. -/
theorem Paths.NamedAs.clear (named : paths.NamedAs) {name : String} (h : Named name file)
    (hne : ∀ other ∈ ["goblinpay.env", "wallet_password", "wallet_password.cred", "manual.conf", "encrypted.conf"],
      ¬ Named other name ∧ ¬ Named name other) : paths.Clear cwd file where
  envFile := (named.envFile.trans (named_join cwd _)).ne h (hne _ (by decide)).1 (hne _ (by decide)).2
  walletPasswordFile := (named.walletPasswordFile.trans (named_join cwd _)).ne h (hne _ (by decide)).1 (hne _ (by decide)).2
  encryptedCredFile := (named.encryptedCredFile.trans (named_join cwd _)).ne h (hne _ (by decide)).1 (hne _ (by decide)).2
  dropinFile := (named.dropinFile.trans (named_join cwd _)).ne h (hne _ (by decide)).1 (hne _ (by decide)).2
  encryptedDropinFile := (named.encryptedDropinFile.trans (named_join cwd _)).ne h (hne _ (by decide)).1 (hne _ (by decide)).2

/-- The files the wizard writes and removes. -/
def Paths.written (paths : Paths) : List String :=
  [paths.envFile, paths.walletPasswordFile, paths.encryptedCredFile, paths.dropinFile, paths.encryptedDropinFile]

/-- None of the written files is a file the wizard has nothing to do with. -/
theorem Paths.Clear.ne (clear : paths.Clear cwd file) {path : String} (h : path ∈ paths.written) : join cwd path ≠ file := by
  simp only [written, List.mem_cons, List.not_mem_nil, or_false] at h
  rcases h with rfl | rfl | rfl | rfl | rfl
  · exact clear.envFile
  · exact clear.walletPasswordFile
  · exact clear.encryptedCredFile
  · exact clear.dropinFile
  · exact clear.encryptedDropinFile

/-- The operations of `apply_restart_persistence` and of what comes behind it: they ask nothing, and write and remove the wizard's own
files only. -/
def Act.Persists (paths : Paths) : {β : Type} → Act β → Prop
  | _, .write path _ => path ∈ paths.written
  | _, .removeFile path => path ∈ paths.written
  | _, .sealCredential _ dest => dest ∈ paths.written
  | _, .say _ => True
  | _, .createDirAll _ => True
  | _, .setPermissions _ _ => True
  | _, .slatepackAddress _ => True
  | _, _ => False

/-- The wizard's own operations spare a file that is none of its own. -/
theorem Act.Persists.spares {β : Type} {e : Act β} (he : e.Persists paths) (clear : paths.Clear cwd file) : e.Spares cwd file := by
  cases e with
  | write | removeFile | sealCredential => exact clear.ne he
  | say | createDirAll | setPermissions | slatepackAddress => trivial
  | _ => exact he.elim

/-- The wizard's own operations ask nothing. -/
theorem Act.Persists.mute {β : Type} {e : Act β} (he : e.Persists paths) : ¬ e.Asks := by
  cases e with
  | ask => exact he.elim
  | _ => exact id

theorem persists_removeIfExists {path : String} (h : path ∈ paths.written) : (removeIfExists path).run.Only (Act.Persists paths) := by
  apply Prog.Only.bind (Prog.Only.call h)
  intro r
  cases r with
  | ok _ => trivial
  | error e => cases e <;> trivial

theorem persists_writeFile {path : String} (h : path ∈ paths.written) (contents : String) (mode : Nat) :
    (writeFile path contents mode).run.Only (Act.Persists paths) := by
  apply Prog.Only.bindExcept (only_attempt h _)
  intro _
  exact only_attempt trivial _

/-- A secret file is removed before it is written anew, so that its mode is the new one. -/
theorem persists_writeSecretFile {path : String} (h : path ∈ paths.written) (contents : String) :
    (writeSecretFile path contents).run.Only (Act.Persists paths) :=
  Prog.Only.bindExcept (persists_removeIfExists h) fun _ => persists_writeFile h _ _

theorem persists_writeConfFile {path : String} (h : path ∈ paths.written) (contents : String) (mode : Nat) :
    (writeConfFile path contents mode).run.Only (Act.Persists paths) :=
  Prog.Only.bindExcept (only_attempt trivial _) fun _ => persists_writeFile h _ _

/-- A directory is created, and closed to others. -/
theorem only_ensureDir {S : ∀ {γ : Type}, Act γ → Prop} {path : String} {mode : Nat} (h : S (Act.createDirAll path))
    (h' : S (Act.setPermissions path mode)) : (ensureDir path mode).run.Only S :=
  Prog.Only.bindExcept (only_attempt h _) fun _ => only_attempt h' _

/-- The sealed credential is one of the wizard's files. -/
theorem persists_seal {password dest : String} (h : dest ∈ paths.written) : (systemdCredsSeal password dest).run.Only (Act.Persists paths) := by
  apply Prog.Only.bindExcept (Prog.Only.lift (Prog.Only.call h))
  intro run
  cases run <;> trivial

/-- Each restart mode writes its own shape and removes the other ones. -/
theorem persists_applyRestartPersistence (mode : RestartMode) (password : String) :
    (applyRestartPersistence paths mode password).run.Only (Act.Persists paths) := by
  have written : paths.walletPasswordFile ∈ paths.written ∧ paths.encryptedCredFile ∈ paths.written ∧ paths.dropinFile ∈ paths.written ∧
      paths.encryptedDropinFile ∈ paths.written := by simp [Paths.written]
  obtain ⟨hpassword, hcred, hdropin, hencrypted⟩ := written
  have remove : ∀ {path : String}, path ∈ paths.written → ∀ {β : Type} {m : ExceptT String HostIo β},
      m.run.Only (Act.Persists paths) → (removeIfExists path >>= fun _ => m).run.Only (Act.Persists paths) :=
    fun h _ _ hm => Prog.Only.bindExcept (persists_removeIfExists h) fun _ => hm
  cases mode with
  | unattended =>
    apply Prog.Only.bindExcept (only_ensureDir trivial trivial)
    intro _
    apply Prog.Only.bindExcept (persists_seal hcred)
    intro encrypted
    cases encrypted with
    | true =>
      apply Prog.Only.bindExcept (persists_writeConfFile hencrypted _ _)
      intro _
      apply remove hpassword
      apply remove hdropin
      trivial
    | false =>
      apply Prog.Only.bindExcept (only_say trivial)
      intro _
      apply Prog.Only.bindExcept (persists_writeSecretFile hpassword _)
      intro _
      apply remove hcred
      apply remove hencrypted
      apply remove hdropin
      trivial
  | manual =>
    apply Prog.Only.bindExcept (persists_writeConfFile hdropin _ _)
    intro _
    apply remove hpassword
    apply remove hcred
    apply remove hencrypted
    trivial

/-- What comes last is the environment file. -/
theorem persists_conclude (answers : Answers) (tokens : Tokens) (wallet : Wallet) (encrypted : Bool) :
    (conclude paths answers tokens wallet encrypted).run.Only (Act.Persists paths) := by
  apply Prog.Only.bindExcept (only_attempt trivial _)
  intro addr
  apply Prog.Only.bindExcept (only_say trivial)
  intro _
  apply Prog.Only.bindExcept (persists_writeConfFile (by simp [Paths.written]) _ _)
  intro _
  exact only_say trivial

/-- The secrets are drawn and the directories made ready, with no file written. -/
theorem spares_prepare (hidden : Bool) (answers : Answers) : (prepare paths hidden answers).run.Only (Act.Spares cwd file) := by
  have drawn : (random 16 : ExceptT String HostIo (List UInt8)).run.Only (Act.Spares cwd file) := Prog.Only.lift (Prog.Only.call trivial)
  apply Prog.Only.bindExcept drawn
  intro apiToken
  apply Prog.Only.bindExcept drawn
  intro adminToken
  apply Prog.Only.bindExcept drawn
  intro webhookSecret
  apply Prog.Only.bindExcept (only_ensureDir trivial trivial)
  intro _
  apply Prog.Only.bindExcept (only_ensureDir trivial trivial)
  intro _
  split
  · exact Prog.Only.bindExcept ((looks_existingPassword paths hidden).mono fun _ he => he.spares cwd file) fun _ => trivial
  · exact Prog.Only.bindExcept (m := pure (answers.chosenPassword.getD "")) trivial fun _ => trivial

/-! ## What stays -/

variable {text : String} {A : {β : Type} → Act β → Luck → Prop}

/-- Behind the lookup of the wallet: a wallet is created only where there is none. -/
theorem holds_provided (lawful : tools.Lawful) {topDir : String} {found : Bool} (unkept : ¬ Kept (join cwd topDir) file)
    (hfound : found = true ∨ seedFile (join cwd topDir) ≠ file) (mnemonic : Option String) (password : String) :
    Holds tools cwd file text A (provide topDir mnemonic password found).run := by
  apply Holds.of_spares lawful
  cases found with
  | true =>
    cases mnemonic with
    | none => trivial
    | some mnemonic =>
      apply Prog.Only.bindExcept (only_attempt trivial _)
      intro existing
      split <;> trivial
  | false =>
    cases mnemonic with
    | none => trivial
    | some mnemonic => exact only_attempt ⟨hfound.resolve_left Bool.false_ne_true, unkept⟩ _

/-- Opening a wallet leaves a seed file that is there, and every file that grin-wallet does not keep. -/
theorem holds_openAt (lawful : tools.Lawful) (unkept : ∀ topDir, ¬ Kept topDir file) (dataDir : String) (mnemonic : Option String)
    (password nodeUrl : String) (chain : Env.Chain) :
    Holds tools cwd file text A (openAt dataDir mnemonic password nodeUrl chain).run := by
  have spared : ∀ {β : Type} {p : HostIo β}, p.Only (Act.Spares cwd file) → Holds tools cwd file text A p := Holds.of_spares lawful
  have chained : (initChainType chain).run.Only (Act.Spares cwd file) := by
    apply Prog.Only.bindExcept (Prog.Only.lift (Prog.Only.call trivial))
    intro set
    split <;> trivial
  apply Stays.bindExcept (spared chained)
  intro _
  apply Stays.bindExcept (spared (only_attempt trivial _))
  intro _
  apply Stays.bindExcept (spared (only_attempt trivial _))
  intro _
  apply Stays.bindExcept (spared (only_attempt trivial _))
  intro _
  apply Stays.bindExcept (spared (only_attempt trivial _))
  intro _
  apply stays_attempt
  · intro x s hs
    exact hs
  intro x s found hs hfound
  have there : found = true ∨ seedFile (join cwd (join dataDir "wallet")) ≠ file := by
    by_cases hfile : seedFile (join cwd (join dataDir "wallet")) = file
    · left
      obtain ⟨f, hf, -⟩ := Option.map_eq_some_iff.1 hs
      rw [lawful.wallet_exists hfound, hfile, hf]
      rfl
    · exact Or.inr hfile
  apply Stays.bindExcept (holds_provided lawful (unkept _) there mnemonic password)
  intro _
  apply Stays.bindExcept (spared (only_attempt (unkept _) _))
  intro seed
  apply Stays.bindExcept (spared (only_attempt trivial _))
  intro _
  exact Stays.bindExcept (spared (only_attempt trivial _)) fun _ => spared trivial

/-- The wallet is opened or created, and the restart mode made persistent. -/
theorem holds_settleWallet (lawful : tools.Lawful) (unkept : ∀ topDir, ¬ Kept topDir file) (clear : paths.Clear cwd file) (answers : Answers)
    (password : String) : Holds tools cwd file text A (settleWallet paths answers password).run := by
  have spared : ∀ {β : Type} {p : HostIo β}, p.Only (Act.Spares cwd file) → Holds tools cwd file text A p := Holds.of_spares lawful
  apply Stays.bindExcept
  · exact spared (only_say trivial)
  intro _
  apply Stays.bindExcept
  · exact (holds_openAt lawful unkept _ _ _ _ _).bind fun _ => spared trivial
  intro wallet
  apply Stays.bindExcept (spared ((persists_applyRestartPersistence _ _).mono fun _ he => he.spares clear))
  intro encrypted
  exact spared trivial

/-- All the wizard does behind its questions leaves such a file. -/
theorem holds_install (lawful : tools.Lawful) (unkept : ∀ topDir, ¬ Kept topDir file) (clear : paths.Clear cwd file) (answers : Answers)
    (tokens : Tokens) (password : String) : Holds tools cwd file text A (install paths answers tokens password).run := by
  apply Stays.bindExcept (holds_settleWallet lawful unkept clear answers password)
  rintro ⟨wallet, encrypted⟩
  exact Holds.of_spares lawful ((persists_conclude _ _ _ _).mono fun _ he => he.spares clear)

/-- Nothing is written before the last question is answered. -/
theorem spares_questions (opts : SetupOptions) : (questions lower tools opts).run.Only (Act.Spares cwd file) := by
  apply Prog.Only.bindExcept ((looks_guardRun _ _).mono fun _ he => he.spares cwd file)
  intro _
  apply Prog.Only.bindExcept ((looks_interview _ _).mono fun _ he => he.spares cwd file)
  intro answers
  exact Prog.Only.bindExcept (spares_prepare _ _) fun _ => trivial

/-- A run of the wizard leaves every file that is neither its own nor grin-wallet's, and a seed file that is there. -/
theorem holds_run (lawful : tools.Lawful) (unkept : ∀ topDir, ¬ Kept topDir file) {opts : SetupOptions}
    (clear : (Paths.resolve opts.prefixDir).Clear cwd file) : Holds tools cwd file text A (run lower tools opts).run := by
  apply Stays.bindExcept (Holds.of_spares lawful (spares_questions opts))
  rintro ⟨answers, tokens, password⟩
  exact holds_install lawful unkept clear answers tokens password

/-- The command leaves such a file, whatever its arguments. -/
theorem holds_runSetup (lawful : tools.Lawful) (unkept : ∀ topDir, ¬ Kept topDir file)
    (clear : ∀ prefixDir, (Paths.resolve prefixDir).Clear cwd file) (stdinIsTty : Bool) (args : List String) :
    Holds tools cwd file text A (runSetup lower tools stdinIsTty args) := by
  unfold runSetup
  cases parseFlags (.plain stdinIsTty) args with
  | error e => exact Holds.of_spares lawful ⟨trivial, fun _ => trivial⟩
  | ok opts =>
    apply Stays.bind (holds_run lawful unkept (clear opts.prefixDir))
    intro r
    cases r with
    | ok _ => exact Holds.of_spares lawful trivial
    | error e => exact Holds.of_spares lawful ⟨trivial, fun _ => trivial⟩

/-- Loading the configuration written a moment before reads only. -/
theorem spares_bootWritten (r : Except String Unit) : (bootWritten lower r).Only (Act.Spares cwd file) := by
  cases r with
  | error e =>
    apply Prog.Only.bind (Prog.Only.call trivial)
    intro _
    trivial
  | ok _ =>
    apply Prog.Only.bind (Prog.Only.call trivial)
    intro written
    cases written with
    | ok cfg => trivial
    | error e =>
      apply Prog.Only.bind (Prog.Only.call trivial)
      intro _
      trivial

/-- A start that sets up first leaves what the wizard leaves. -/
theorem holds_firstRunOrBoot (lawful : tools.Lawful) (unkept : ∀ topDir, ¬ Kept topDir file) (clear : (Paths.resolve none).Clear cwd file)
    (terminal : Bool) (cfg : Env.Config) : Holds tools cwd file text A (firstRunOrBoot lower tools terminal cfg) := by
  have spared : ∀ {β : Type} {p : HostIo β}, p.Only (Act.Spares cwd file) → Holds tools cwd file text A p := Holds.of_spares lawful
  apply Stays.bind
  · exact spared (Prog.Only.call trivial)
  intro envFile
  have needs : (needsFirstRunSetup cfg envFile).Only (Act.Spares cwd file) := by
    unfold needsFirstRunSetup
    split
    · exact ⟨trivial, fun _ => trivial⟩
    · trivial
  apply Stays.bind (spared needs)
  intro fresh
  split
  · exact spared trivial
  · apply Stays.bind
    · exact spared (Prog.Only.call trivial)
    intro _
    apply Stays.bind (holds_run lawful unkept clear)
    intro r
    exact spared (spares_bootWritten r)

end

end GoblinPay.Till
