import GoblinPay.Server.View

/-!
# What an opened wallet has

A wallet that `open_at` has opened works with the seed in its seed file: the one that was there, or a new one's, whose mnemonic was
given. Of the other files only the wallet's own are touched.
-/

namespace GoblinPay.Till

open Async

/-- The wallet's own files: its directory, the seed, and what grin-wallet keeps beside it. -/
inductive WalletFile (topDir file : String) : Prop
  | directory (h : file = join topDir "wallet_data")
  | seed (h : file = seedFile topDir)
  | kept (h : Kept topDir file)

/-- A file with another name is none of the wallet's. -/
theorem Named.foreign {name file : String} (h : Named name file)
    (hne : ∀ other ∈ ["wallet_data", "wallet.seed", ".mdb", ".grintx"], ¬ Named other name ∧ ¬ Named name other) (topDir : String) :
    ¬ WalletFile topDir file := by
  have apart : ∀ {other path : String}, other ∈ ["wallet_data", "wallet.seed", ".mdb", ".grintx"] → Named other path → file ≠ path :=
    fun hmem hother => h.ne hother (hne _ hmem).2 (hne _ hmem).1
  rintro (hfile | hfile | hkept)
  · exact apart (by decide) (named_join topDir "wallet_data") hfile
  · exact apart (by decide) (named_seedFile topDir) hfile
  · exact h.unkept (fun other hother => hne other (by revert other; decide)) topDir hkept

theorem unkept_seedFile (topDir topDir' : String) : ¬ Kept topDir (seedFile topDir') := (named_seedFile topDir').unkept (by decide) topDir

/-- What an opened wallet has made of the disk: `dir` is the till's data directory, and `topDir` the wallet's. -/
structure Opened (tools : Tools) (dir topDir : String) (mnemonic : Option String) (password : String) (seed : Seed) (d d' : Disk) : Prop where
  sealed : ∃ contents, d' (seedFile topDir) = some ⟨contents, 0o600⟩ ∧ tools.openSeed contents password = some seed
  /-- the seed file is the one there was, or there was none and the new one's seed is the mnemonic's -/
  created : d'.text (seedFile topDir) = d.text (seedFile topDir) ∨
    d (seedFile topDir) = none ∧ ∃ m, mnemonic = some m ∧ tools.toEntropy m = .ok seed
  others : d dir = none → ∀ file, ¬ WalletFile topDir file → d' file = d file

/-- What the lookup of a wallet and its creation leave. -/
structure Provided (tools : Tools) (topDir : String) (mnemonic : Option String) (password : String) (d d' : Disk) : Prop where
  created : d' (seedFile topDir) = d (seedFile topDir) ∨ d (seedFile topDir) = none ∧ ∃ file seed m,
    d' (seedFile topDir) = some file ∧ tools.openSeed file.contents password = some seed ∧ mnemonic = some m ∧ tools.toEntropy m = .ok seed
  others : ∀ file, ¬ WalletFile topDir file → d' file = d file

/-- A wallet that is opened behind that, and whose files are closed to others. -/
theorem Provided.opened {tools : Tools} {topDir : String} {mnemonic : Option String} {password : String} {d d' disk : Disk}
    (provided : Provided tools topDir mnemonic password d d') {file : File} {seed : Seed} (hfile : d' (seedFile topDir) = some file)
    (hopen : tools.openSeed file.contents password = some seed) (others : ∀ other, ¬ Kept topDir other → disk other = d' other) (dir : String) :
    Opened tools dir topDir mnemonic password seed d ((disk.chmod (join topDir "wallet_data") 0o700).chmod (seedFile topDir) 0o600) := by
  have apart : seedFile topDir ≠ join topDir "wallet_data" := (named_seedFile _).ne (named_join _ _) (by decide) (by decide)
  have there : disk.chmod (join topDir "wallet_data") 0o700 (seedFile topDir) = some file := by
    rw [Disk.chmod_of_ne disk apart, others _ (unkept_seedFile _ _), hfile]
  constructor
  · exact ⟨file.contents, Disk.chmod_self _ there _, hopen⟩
  · rw [Disk.text_chmod, Disk.text, there]
    rcases provided.created with hkept | ⟨habsent, file', seed', m, hnew, hopen', hm, hseed⟩
    · left
      rw [Disk.text, ← hkept, hfile]
    · right
      obtain rfl : file' = file := Option.some.inj (hnew.symm.trans hfile)
      obtain rfl : seed' = seed := Option.some.inj (hopen'.symm.trans hopen)
      exact ⟨habsent, m, hm, hseed⟩
  · intro _ other hother
    rw [Disk.chmod_of_ne _ fun heq => hother (.seed heq), Disk.chmod_of_ne _ fun heq => hother (.directory heq),
      others _ fun hkept => hother (.kept hkept)]
    exact provided.others other hother

section

variable {tools : Tools} {cwd : String} {v : View} {ε : Type}

theorem From.walletExists (lawful : tools.Lawful) {topDir : String} {wrap : String → ε} {Q : Bool → View → Prop}
    (h : Q (v.disk (seedFile (join cwd topDir))).isSome v) : From tools cwd v (Till.attempt (.walletExists topDir) wrap) Q := by
  apply From.attempt
  rintro x host found rfl hfound
  change tools.walletExists host.disk (join cwd topDir) x = .ok found at hfound
  rw [lawful.wallet_exists hfound]
  exact h

theorem From.createWallet (lawful : tools.Lawful) {topDir mnemonic password : String} {wrap : String → ε} {Q : Unit → View → Prop}
    (h : ∀ disk file seed, (∀ other, other ≠ seedFile (join cwd topDir) → ¬ Kept (join cwd topDir) other → disk other = v.disk other) →
      disk (seedFile (join cwd topDir)) = some file → tools.toEntropy mnemonic = .ok seed →
      tools.openSeed file.contents password = some seed → Q () { v with disk }) :
    From tools cwd v (Till.attempt (.createWallet topDir mnemonic password) wrap) Q := by
  apply From.attempt
  rintro x host _ rfl hcreated
  obtain ⟨file, seed, hfile, hseed, hopen⟩ := lawful.created hcreated
  exact h _ file seed (lawful.create_keeps host.disk (join cwd topDir) mnemonic password x) hfile hseed hopen

theorem From.openWallet (lawful : tools.Lawful) {topDir password : String} {wrap : String → ε} {Q : Seed → View → Prop}
    (h : ∀ disk file seed, (∀ other, ¬ Kept (join cwd topDir) other → disk other = v.disk other) →
      v.disk (seedFile (join cwd topDir)) = some file → tools.openSeed file.contents password = some seed → Q seed { v with disk }) :
    From tools cwd v (Till.attempt (.openWallet topDir password) wrap) Q := by
  apply From.attempt
  rintro x host seed rfl hopened
  obtain ⟨file, hfile, hopen⟩ := lawful.opened hopened
  exact h _ file seed (lawful.open_keeps host.disk (join cwd topDir) password x) hfile hopen

theorem from_provide (lawful : tools.Lawful) {topDir : String} {mnemonic : Option String} {password : String} :
    From tools cwd v (provide topDir mnemonic password (v.disk (seedFile (join cwd topDir))).isSome) fun _ v' =>
      Provided tools (join cwd topDir) mnemonic password v.disk v'.disk := by
  have same : Provided tools (join cwd topDir) mnemonic password v.disk v.disk := ⟨Or.inl rfl, fun _ _ => rfl⟩
  cases hfile : v.disk (seedFile (join cwd topDir)) with
  | some file =>
    cases mnemonic with
    | none => exact From.pure same
    | some m =>
      apply From.bind
      apply From.looks
      · exact only_attempt ⟨trivial, id⟩ _
      intro existing
      by_cases heq : existing = m
      · rw [if_pos heq]
        exact From.pure same
      · rw [if_neg heq]
        exact From.throw _
  | none =>
    cases mnemonic with
    | none => exact From.throw _
    | some m =>
      apply From.createWallet lawful
      intro disk file seed others hnew hseed hopen
      constructor
      · exact Or.inr ⟨hfile, file, seed, m, hnew, hopen, rfl, hseed⟩
      · intro other hother
        exact others other (fun heq => hother (.seed heq)) fun hkept => hother (.kept hkept)

theorem from_openAt (lawful : tools.Lawful) (dataDir : String) (mnemonic : Option String) (password nodeUrl : String) (chain : Env.Chain) :
    From tools cwd v (openAt dataDir mnemonic password nodeUrl chain) fun w v' =>
      Opened tools (join cwd dataDir) (join cwd (join dataDir "wallet")) mnemonic password w.seed v.disk v'.disk := by
  have chained : (initChainType chain).run.Only fun e => e.Looks ∧ ¬ e.Asks := by
    apply Prog.Only.bindExcept (Prog.Only.lift (Prog.Only.call ⟨trivial, id⟩))
    intro set
    split <;> trivial
  apply From.bind
  apply From.looks chained
  intro _
  apply From.bind
  apply From.createDirAll
  intro noTop
  apply From.bind
  apply From.setPermissions
  apply From.bind
  apply From.setPermissions
  -- the directories are no files, as far as is known
  have texts : ∀ file, Disk.text ((v.disk.chmod (join cwd dataDir) 0o700).chmod (join cwd (join dataDir "wallet")) 0o700) file =
      v.disk.text file := by
    intro file
    rw [Disk.text_chmod, Disk.text_chmod]
  have same : v.disk (join cwd dataDir) = none →
      (v.disk.chmod (join cwd dataDir) 0o700).chmod (join cwd (join dataDir "wallet")) 0o700 = v.disk := by
    intro noDir
    rw [Disk.chmod_of_none _ noDir, Disk.chmod_of_none _ noTop]
  dsimp only
  generalize (v.disk.chmod (join cwd dataDir) 0o700).chmod (join cwd (join dataDir "wallet")) 0o700 = d at texts same ⊢
  apply From.bind
  apply From.looks
  · exact only_attempt ⟨trivial, id⟩ _
  intro _
  apply From.bind
  apply From.walletExists lawful
  apply From.bind
  apply From.mono (from_provide lawful)
  rintro _ v' provided
  apply From.bind
  apply From.openWallet lawful
  intro disk file seed others hfile hopen
  apply From.bind
  apply From.setPermissions
  apply From.bind
  apply From.setPermissions
  apply From.pure
  dsimp only at provided ⊢
  have opened := provided.opened hfile hopen others (join cwd dataDir)
  rw [seedFile_join, join_join cwd (join dataDir "wallet") (by decide)] at opened
  constructor
  · exact opened.sealed
  · rcases opened.created with hkept | ⟨habsent, hnew⟩
    · exact Or.inl (hkept.trans (texts _))
    · have absent := texts (seedFile (join cwd (join dataDir "wallet")))
      rw [Disk.text, habsent] at absent
      exact Or.inr ⟨Option.map_eq_none_iff.1 absent.symm, hnew⟩
  · intro noDir
    rw [same noDir] at opened
    exact opened.others noDir

end

end GoblinPay.Till
