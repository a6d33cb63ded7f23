import GoblinPay.Runs.Secrets
import GoblinPay.Server.Answered

/-!
# What the wizard installs

A run that succeeds has opened the wallet, has left the password in exactly one of the three restart shapes, has written the
environment file its answers stand for, and has touched no other file but the wallet's own.
-/

namespace GoblinPay.Till

open Async Setup

/-- How the password is kept for the next start: sealed to the host, in a plaintext file, or nowhere. -/
inductive Shape (tools : Tools) (cwd : String) (paths : Paths) (password : String) (d : Disk) : RestartMode → Bool → Prop
  | sealed {file : File} (credential : d (join cwd paths.encryptedCredFile) = some file)
      (opens : tools.openCredential file.contents = some password)
      (dropin : d (join cwd paths.encryptedDropinFile) = some ⟨renderEncryptedDropin paths.encryptedCredFile, 0o644⟩)
      (plaintext : d (join cwd paths.walletPasswordFile) = none) (manual : d (join cwd paths.dropinFile) = none) :
      Shape tools cwd paths password d .unattended true
  | plaintext (file : d (join cwd paths.walletPasswordFile) = some ⟨password ++ "\n", 0o400⟩)
      (credential : d (join cwd paths.encryptedCredFile) = none) (dropin : d (join cwd paths.encryptedDropinFile) = none)
      (manual : d (join cwd paths.dropinFile) = none) : Shape tools cwd paths password d .unattended false
  | manual (dropin : d (join cwd paths.dropinFile) = some ⟨renderManualDropin paths.runtimePasswordFile, 0o644⟩)
      (plaintext : d (join cwd paths.walletPasswordFile) = none) (credential : d (join cwd paths.encryptedCredFile) = none)
      (sealed : d (join cwd paths.encryptedDropinFile) = none) : Shape tools cwd paths password d .manual false

/-- A shape is four files. -/
theorem Shape.congr {tools : Tools} {cwd : String} {paths : Paths} {password : String} {d d' : Disk} {mode : RestartMode} {encrypted : Bool}
    (h : Shape tools cwd paths password d mode encrypted)
    (hpassword : d' (join cwd paths.walletPasswordFile) = d (join cwd paths.walletPasswordFile))
    (hcredential : d' (join cwd paths.encryptedCredFile) = d (join cwd paths.encryptedCredFile))
    (hdropin : d' (join cwd paths.dropinFile) = d (join cwd paths.dropinFile))
    (hencrypted : d' (join cwd paths.encryptedDropinFile) = d (join cwd paths.encryptedDropinFile)) :
    Shape tools cwd paths password d' mode encrypted := by
  cases h with
  | sealed h₁ h₂ h₃ h₄ h₅ =>
    exact .sealed (hcredential.trans h₁) h₂ (hencrypted.trans h₃) (hpassword.trans h₄) (hdropin.trans h₅)
  | plaintext h₁ h₂ h₃ h₄ =>
    exact .plaintext (hpassword.trans h₁) (hcredential.trans h₂) (hencrypted.trans h₃) (hdropin.trans h₄)
  | manual h₁ h₂ h₃ h₄ =>
    exact .manual (hdropin.trans h₁) (hpassword.trans h₂) (hcredential.trans h₃) (hencrypted.trans h₄)

/-- Where a run has the wallet's password from, and what is left of the lines. -/
inductive PasswordFrom (cwd : String) (paths : Paths) (d : Disk) (answers : Answers) : List String → String → List String → Prop
  | filed {cs : List String} {text : String} (hplan : answers.plan = .existing) (h : d.text (join cwd paths.walletPasswordFile) = some text) :
      PasswordFrom cwd paths d answers cs (passwordOf text) cs
  | typed {cs rest : List String} {password : String} (hplan : answers.plan = .existing) (h : Setup.existingPassword.Takes cs password rest) :
      PasswordFrom cwd paths d answers cs password rest
  | chosen {cs : List String} {password : String} (hplan : answers.plan ≠ .existing) (h : answers.chosenPassword = some password) :
      PasswordFrom cwd paths d answers cs password cs

/-- The tokens are drawn in full. -/
structure Tokens.Drawn (tokens : Tokens) : Prop where
  apiToken : tokens.apiToken.length = 16
  adminToken : tokens.adminToken.length = 16
  webhookSecret : tokens.webhookSecret.length = 16

/-- What a successful run has made of the disk. -/
structure Installed (tools : Tools) (cwd : String) (paths : Paths) (answers : Answers) (tokens : Tokens) (password : String) (seed : Seed)
    (encrypted : Bool) (d d' : Disk) : Prop where
  env : d' (join cwd paths.envFile) = some ⟨(params paths answers tokens encrypted).renderEnv, 0o640⟩
  shape : Shape tools cwd paths password d' answers.restartMode encrypted
  sealed : ∃ contents, d' (join cwd (seedPath paths.dataDir)) = some ⟨contents, 0o600⟩ ∧ tools.openSeed contents password = some seed
  /-- the seed file is the one there was, or is new and the mnemonic's -/
  created : d'.text (join cwd (seedPath paths.dataDir)) = d.text (join cwd (seedPath paths.dataDir)) ∨
    d (join cwd (seedPath paths.dataDir)) = none ∧ ∃ m, answers.plan.mnemonic = some m ∧ tools.toEntropy m = .ok seed
  others : ∀ file, paths.Clear cwd file → ¬ WalletFile (join cwd (join paths.dataDir "wallet")) file → d' file = d file

section

variable {tools : Tools} {cwd : String} {v : View} {paths : Paths} {answers : Answers} {password : String} {seed : Seed} {encrypted : Bool}

theorem from_writeFile {path contents : String} {mode : Nat} {Q : Unit → View → Prop}
    (h : Q () { v with disk := Function.update v.disk (join cwd path) (some ⟨contents, mode⟩) }) :
    From tools cwd v (writeFile path contents mode) Q := by
  apply From.bind
  apply From.write
  apply From.setPermissions
  rwa [Disk.chmod_put]

theorem from_writeConfFile {path contents : String} {mode : Nat} {Q : Unit → View → Prop}
    (h : Q () { v with disk := Function.update v.disk (join cwd path) (some ⟨contents, mode⟩) }) :
    From tools cwd v (writeConfFile path contents mode) Q := by
  apply From.bind
  apply From.createDirAll
  intro _
  exact from_writeFile h

theorem from_writeSecretFile {path contents : String} {Q : Unit → View → Prop}
    (h : Q () { v with disk := Function.update v.disk (join cwd path) (some ⟨contents ++ "\n", 0o400⟩) }) :
    From tools cwd v (writeSecretFile path contents) Q := by
  apply From.bind
  apply From.removeIfExists
  apply from_writeFile
  rwa [Disk.remove, Function.update_idem]

/-- The directory is there behind it, so there is no file. -/
theorem from_ensureDir {path : String} {mode : Nat} {Q : Unit → View → Prop} (h : v.disk (join cwd path) = none → Q () v) :
    From tools cwd v (ensureDir path mode) Q := by
  apply From.bind
  apply From.createDirAll
  intro absent
  apply From.setPermissions
  rw [Disk.chmod_of_none _ absent]
  exact h absent

/-- The four files of the restart shapes are different. -/
structure Apart (cwd : String) (paths : Paths) : Prop where
  password_cred : join cwd paths.walletPasswordFile ≠ join cwd paths.encryptedCredFile
  password_dropin : join cwd paths.walletPasswordFile ≠ join cwd paths.dropinFile
  password_encrypted : join cwd paths.walletPasswordFile ≠ join cwd paths.encryptedDropinFile
  cred_dropin : join cwd paths.encryptedCredFile ≠ join cwd paths.dropinFile
  cred_encrypted : join cwd paths.encryptedCredFile ≠ join cwd paths.encryptedDropinFile
  dropin_encrypted : join cwd paths.dropinFile ≠ join cwd paths.encryptedDropinFile

theorem Paths.NamedAs.apart (named : paths.NamedAs) (cwd : String) : Apart cwd paths where
  password_cred := (named.walletPasswordFile.joined cwd).ne (named.encryptedCredFile.joined cwd) (by decide) (by decide)
  password_dropin := (named.walletPasswordFile.joined cwd).ne (named.dropinFile.joined cwd) (by decide) (by decide)
  password_encrypted := (named.walletPasswordFile.joined cwd).ne (named.encryptedDropinFile.joined cwd) (by decide) (by decide)
  cred_dropin := (named.encryptedCredFile.joined cwd).ne (named.dropinFile.joined cwd) (by decide) (by decide)
  cred_encrypted := (named.encryptedCredFile.joined cwd).ne (named.encryptedDropinFile.joined cwd) (by decide) (by decide)
  dropin_encrypted := (named.dropinFile.joined cwd).ne (named.encryptedDropinFile.joined cwd) (by decide) (by decide)

/-- A file the persistence has nothing to do with. -/
theorem Paths.Clear.others {file : String} (clear : paths.Clear cwd file) :
    file ≠ join cwd paths.walletPasswordFile ∧ file ≠ join cwd paths.encryptedCredFile ∧
      file ≠ join cwd paths.dropinFile ∧ file ≠ join cwd paths.encryptedDropinFile :=
  ⟨clear.walletPasswordFile.symm, clear.encryptedCredFile.symm, clear.dropinFile.symm, clear.encryptedDropinFile.symm⟩

/-- For unattended restarts the password is sealed, or left in the clear where that cannot be done. -/
theorem from_unattended (lawful : tools.Lawful) (apart : Apart cwd paths) (password : String) :
    From tools cwd v (applyRestartPersistence paths .unattended password) fun encrypted v' =>
      Shape tools cwd paths password v'.disk .unattended encrypted ∧ ∀ file, paths.Clear cwd file → v'.disk file = v.disk file := by
  apply From.bind
  apply from_ensureDir
  intro _
  apply From.bind
  apply From.systemdCredsSeal lawful
  · intro disk file kept hfile hopen
    apply From.bind
    apply from_writeConfFile
    apply From.bind
    apply From.removeIfExists
    apply From.bind
    apply From.removeIfExists
    apply From.pure
    dsimp only [Disk.remove]
    constructor
    · refine Shape.sealed ?_ hopen ?_ ?_ ?_
      · simp [apart.password_cred.symm, apart.cred_dropin, apart.cred_encrypted, hfile]
      · simp [apart.password_encrypted.symm, apart.dropin_encrypted.symm]
      · simp [apart.password_dropin]
      · simp
    · intro file clear
      obtain ⟨hp, hc, hd, he⟩ := clear.others
      simp [hp, hd, he, kept file hc]
  · intro disk kept
    apply From.bind
    apply From.say
    apply From.bind
    apply from_writeSecretFile
    apply From.bind
    apply From.removeIfExists
    apply From.bind
    apply From.removeIfExists
    apply From.bind
    apply From.removeIfExists
    apply From.pure
    dsimp only [Disk.remove]
    constructor
    · apply Shape.plaintext
      · simp [apart.password_cred, apart.password_dropin, apart.password_encrypted]
      · simp [apart.cred_dropin, apart.cred_encrypted]
      · simp [apart.dropin_encrypted.symm]
      · simp
    · intro file clear
      obtain ⟨hp, hc, hd, he⟩ := clear.others
      simp [hp, hc, hd, he, kept file hc]

/-- For manual restarts nothing of the password is left on the disk. -/
theorem from_manual (apart : Apart cwd paths) (password : String) :
    From tools cwd v (applyRestartPersistence paths .manual password) fun encrypted v' =>
      Shape tools cwd paths password v'.disk .manual encrypted ∧ ∀ file, paths.Clear cwd file → v'.disk file = v.disk file := by
  apply From.bind
  apply from_writeConfFile
  apply From.bind
  apply From.removeIfExists
  apply From.bind
  apply From.removeIfExists
  apply From.bind
  apply From.removeIfExists
  apply From.pure
  dsimp only [Disk.remove]
  constructor
  · apply Shape.manual
    · simp [apart.password_dropin.symm, apart.cred_dropin.symm, apart.dropin_encrypted]
    · simp [apart.password_cred, apart.password_encrypted]
    · simp [apart.cred_encrypted]
    · simp
  · intro file clear
    obtain ⟨hp, hc, hd, he⟩ := clear.others
    simp [hp, hc, hd, he]

/-- Whatever shape there was, one is left, and the other files are as they were. -/
theorem from_applyRestartPersistence (lawful : tools.Lawful) (apart : Apart cwd paths) (mode : RestartMode) (password : String) :
    From tools cwd v (applyRestartPersistence paths mode password) fun encrypted v' =>
      Shape tools cwd paths password v'.disk mode encrypted ∧ ∀ file, paths.Clear cwd file → v'.disk file = v.disk file := by
  cases mode with
  | unattended => exact from_unattended lawful apart password
  | manual => exact from_manual apart password

theorem from_existingPassword (hidden : Bool) (answers : Answers) (hplan : answers.plan = .existing) :
    From tools cwd v (Till.existingPassword paths hidden) fun password v' =>
      PasswordFrom cwd paths v.disk answers v.lines password v'.lines ∧ v'.disk = v.disk := by
  apply From.bind
  apply From.readToString
  · intro e
    apply From.bind
    apply From.say
    apply From.ask (answered_existingPassword hidden)
    intro password rest taken
    exact ⟨.typed hplan taken, rfl⟩
  · intro text htext
    apply From.pure
    exact ⟨.filed hplan htext, rfl⟩

/-- The directories are made, and the password is known. -/
structure Prepared (cwd : String) (paths : Paths) (answers : Answers) (tokens : Tokens) (password : String) (v v' : View) : Prop where
  drawn : tokens.Drawn
  dataDir : v.disk (join cwd paths.dataDir) = none
  source : PasswordFrom cwd paths v.disk answers v.lines password v'.lines
  disk : v'.disk = v.disk

theorem from_prepare (hidden : Bool)
    (hchosen : answers.plan ≠ .existing → ∃ password, answers.chosenPassword = some password) :
    From tools cwd v (prepare paths hidden answers) fun out v' => Prepared cwd paths answers out.1 out.2 v v' := by
  apply From.bind
  apply From.random
  intro apiToken hapi
  apply From.bind
  apply From.random
  intro adminToken hadmin
  apply From.bind
  apply From.random
  intro webhookSecret hwebhook
  apply From.bind
  apply from_ensureDir
  intro noDir
  apply From.bind
  apply from_ensureDir
  intro _
  by_cases hplan : answers.plan = .existing
  · rw [if_pos hplan]
    apply From.bind
    apply From.mono (from_existingPassword hidden answers hplan)
    rintro password v' ⟨source, hdisk⟩
    exact From.pure ⟨⟨hapi, hadmin, hwebhook⟩, noDir, source, hdisk⟩
  · obtain ⟨password, hpassword⟩ := hchosen hplan
    rw [if_neg hplan, hpassword, Option.getD_some]
    apply From.bind
    apply From.pure
    exact From.pure ⟨⟨hapi, hadmin, hwebhook⟩, noDir, .chosen hplan hpassword, rfl⟩

theorem clear_seed (named : paths.NamedAs) : paths.Clear cwd (join cwd (seedPath paths.dataDir)) :=
  named.clear ((named_seedPath _).joined cwd) (by decide)

/-- The wallet is opened with the password that is kept. -/
structure Settled (tools : Tools) (cwd : String) (paths : Paths) (answers : Answers) (password : String) (seed : Seed) (encrypted : Bool)
    (d d' : Disk) : Prop where
  shape : Shape tools cwd paths password d' answers.restartMode encrypted
  sealed : ∃ contents, d' (join cwd (seedPath paths.dataDir)) = some ⟨contents, 0o600⟩ ∧ tools.openSeed contents password = some seed
  created : d'.text (join cwd (seedPath paths.dataDir)) = d.text (join cwd (seedPath paths.dataDir)) ∨
    d (join cwd (seedPath paths.dataDir)) = none ∧ ∃ m, answers.plan.mnemonic = some m ∧ tools.toEntropy m = .ok seed
  others : ∀ file, paths.Clear cwd file → ¬ WalletFile (join cwd (join paths.dataDir "wallet")) file → d' file = d file

theorem from_settleWallet (lawful : tools.Lawful) (named : paths.NamedAs) (answers : Answers) (password : String)
    (noDir : v.disk (join cwd paths.dataDir) = none) :
    From tools cwd v (settleWallet paths answers password) fun out v' =>
      Settled tools cwd paths answers password out.1.seed out.2 v.disk v'.disk := by
  apply From.bind
  apply From.say
  apply From.bind
  apply From.wrap
  apply From.mono (from_openAt lawful _ _ _ _ _)
  intro w v₁ opened
  apply From.bind
  apply From.mono (from_applyRestartPersistence lawful (named.apart cwd) _ _)
  rintro encrypted v₂ ⟨shape, kept⟩
  apply From.pure
  have seed := kept _ (clear_seed named)
  have sealed := opened.sealed
  have created := opened.created
  rw [seedFile_join] at sealed created
  exact {
    shape := shape
    sealed := by
      obtain ⟨contents, hfile, hopen⟩ := sealed
      exact ⟨contents, seed.trans hfile, hopen⟩
    created := created.imp_left fun same => (congrArg (Option.map File.contents) seed).trans same
    others := fun file clear foreign => (kept file clear).trans (opened.others noDir file foreign) }

/-- The environment file is written beside what is settled. -/
theorem Settled.installed {d d' : Disk} (settled : Settled tools cwd paths answers password seed encrypted d d') (named : paths.NamedAs)
    (tokens : Tokens) : Installed tools cwd paths answers tokens password seed encrypted d
      (Function.update d' (join cwd paths.envFile) (some ⟨(params paths answers tokens encrypted).renderEnv, 0o640⟩)) := by
  have apart : ∀ {name path : String}, Named name path → ¬ Named "goblinpay.env" name → ¬ Named name "goblinpay.env" →
      join cwd path ≠ join cwd paths.envFile := fun h hne hne' => (h.joined cwd).ne (named.envFile.joined cwd) hne' hne
  have password' := apart named.walletPasswordFile (by decide) (by decide)
  have credential := apart named.encryptedCredFile (by decide) (by decide)
  have dropin := apart named.dropinFile (by decide) (by decide)
  have sealed := apart named.encryptedDropinFile (by decide) (by decide)
  have seed := apart (named_seedPath paths.dataDir) (by decide) (by decide)
  constructor
  · exact Function.update_self _ _ _
  · exact settled.shape.congr (Function.update_of_ne password' _ _) (Function.update_of_ne credential _ _)
      (Function.update_of_ne dropin _ _) (Function.update_of_ne sealed _ _)
  · obtain ⟨contents, hfile, hopen⟩ := settled.sealed
    exact ⟨contents, (Function.update_of_ne seed _ _).trans hfile, hopen⟩
  · rw [Disk.text, Function.update_of_ne seed]
    exact settled.created
  · intro file clear foreign
    rw [Function.update_of_ne clear.envFile.symm]
    exact settled.others file clear foreign

theorem from_install (lawful : tools.Lawful) (named : paths.NamedAs) (answers : Answers) (tokens : Tokens) (password : String)
    (noDir : v.disk (join cwd paths.dataDir) = none) :
    From tools cwd v (install paths answers tokens password) fun _ v' =>
      ∃ seed encrypted, Installed tools cwd paths answers tokens password seed encrypted v.disk v'.disk := by
  apply From.bind
  apply From.mono (from_settleWallet lawful named answers password noDir)
  rintro ⟨wallet, encrypted⟩ v₁ settled
  apply From.bind
  apply From.looks
  · exact only_attempt ⟨trivial, id⟩ _
  intro addr
  apply From.bind
  apply From.say
  apply From.bind
  apply from_writeConfFile
  apply From.say
  exact ⟨wallet.seed, encrypted, settled.installed named tokens⟩

end

/-! ## A run of the wizard -/

section

variable {lower : String → String} {tools : Tools} {cwd : String} {opts : SetupOptions} {v : View}

theorem from_guardRun (paths : Paths) (opts : SetupOptions) :
    From tools cwd v (guardRun paths opts) fun _ v' => v' = v ∧ (opts.reconfigure = true ∨
      v.disk (join cwd (seedPath paths.dataDir)) = none ∧ v.disk (join cwd paths.envFile) = none) := by
  unfold guardRun
  split
  · apply From.bind
    apply From.say
    exact From.throw _
  split
  · rename_i hreconfigure
    exact From.pure ⟨rfl, Or.inl hreconfigure⟩
  · apply From.bind
    apply From.pathExists
    apply From.bind
    apply From.pathExists
    split
    · exact From.throw _
    · rename_i hnone
      simp only [Bool.or_eq_true, not_or, Bool.not_eq_true, Option.isSome_eq_false_iff, Option.isNone_iff_eq_none] at hnone
      exact From.pure ⟨rfl, Or.inr hnone⟩

/-- A run that has succeeded: what it has heard, the password and the seed, and what it has made of the disk. A till that is there is
set up again only on request. -/
structure SetUp (lower : String → String) (tools : Tools) (cwd : String) (opts : SetupOptions) (answers : Answers) (tokens : Tokens)
    (password : String) (seed : Seed) (encrypted : Bool) (v : View) (d : Disk) : Prop where
  requested : opts.reconfigure = true ∨ v.disk (join cwd (seedPath (Paths.resolve opts.prefixDir).dataDir)) = none ∧
    v.disk (join cwd (Paths.resolve opts.prefixDir).envFile) = none
  asked : ∃ cs rest, Heard lower tools opts (v.disk (join cwd (seedPath (Paths.resolve opts.prefixDir).dataDir))).isSome
      (v.disk (join cwd (Paths.resolve opts.prefixDir).dropinFile)).isSome v.lines answers cs ∧
    PasswordFrom cwd (Paths.resolve opts.prefixDir) v.disk answers cs password rest
  drawn : tokens.Drawn
  installed : Installed tools cwd (Paths.resolve opts.prefixDir) answers tokens password seed encrypted v.disk d

/-- A new wallet has a password. -/
theorem Heard.chosen {walletExists manual : Bool} {cs rest : List String} {answers : Answers}
    (h : Heard lower tools opts walletExists manual cs answers rest) (hplan : answers.plan ≠ .existing) :
    ∃ password, answers.chosenPassword = some password := by
  cases h with
  | answers _ _ _ _ wallet _ _ =>
    cases wallet with
    | existing => exact absurd rfl hplan
    | fresh | pasted => exact ⟨_, rfl⟩

theorem from_run (lawful : tools.Lawful) : From tools cwd v (run lower tools opts) fun _ v' => ∃ answers tokens password seed encrypted,
    SetUp lower tools cwd opts answers tokens password seed encrypted v v'.disk := by
  apply From.bind
  apply From.bind
  apply From.mono (from_guardRun _ opts)
  rintro _ v ⟨rfl, requested⟩
  apply From.bind
  apply From.mono (from_interview _ opts)
  rintro answers ⟨_, cs⟩ ⟨heard, rfl⟩
  apply From.bind
  apply From.mono (from_prepare opts.stdinIsTty fun hplan => heard.chosen hplan)
  rintro ⟨tokens, password⟩ ⟨disk₂, rest⟩ prepared
  apply From.pure
  obtain rfl : disk₂ = v.disk := prepared.disk
  apply From.mono (from_install (v := ⟨v.disk, rest⟩) lawful (Paths.named _) answers tokens password prepared.dataDir)
  rintro _ v' ⟨seed, encrypted, installed⟩
  exact ⟨answers, tokens, password, seed, encrypted, requested, ⟨cs, rest, heard, prepared.source⟩, prepared.drawn, installed⟩

end

end GoblinPay.Till
