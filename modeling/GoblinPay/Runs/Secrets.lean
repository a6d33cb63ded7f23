import GoblinPay.Server.Life
import GoblinPay.Server.Opened

/-!
# The wallet and the identity of a till

Processes follow one another on a host: runs of the wizard with any flags, and starts of the server with any configuration,
each stopped anywhere, with any operation failing. A seed file that is there is never written again, so two starts that open
it with one password work with one seed. An identity file that is there is written again only by a start that could not read
it.
-/

namespace GoblinPay.Till

open Async

section

variable {lower : String → String} {tools : Tools} {cwd file text : String}

/-! ## What the jobs leave alone -/

theorem spares_save (i : ServerIdentity) {dataDir : String} (h : join cwd (ServerIdentity.path dataDir) ≠ file) :
    (i.save dataDir).run.Only (Act.Spares cwd file) := by
  apply Prog.Only.bindExcept (only_attempt trivial _)
  intro _
  apply Prog.Only.bindExcept (only_attempt trivial _)
  intro _
  apply Prog.Only.bindExcept (only_attempt h _)
  intro _
  exact only_attempt trivial _

theorem spares_load (dataDir : String) : (ServerIdentity.load dataDir).run.Only (Act.Spares cwd file) := by
  apply Prog.Only.bindExcept (Prog.Only.lift (Prog.Only.call trivial))
  intro read
  cases read <;> trivial

section

variable {A : {β : Type} → Act β → Luck → Prop}

/-- An identity that is found is not written. -/
theorem spares_known {dataDir password : String} {found : Option ServerIdentity}
    (h : found.isSome ∨ join cwd (ServerIdentity.path dataDir) ≠ file) :
    (keysOf tools dataDir password found).run.Only (Act.Spares cwd file) := by
  cases found with
  | some identity => trivial
  | none =>
    have hne : join cwd (ServerIdentity.path dataDir) ≠ file := h.resolve_left (by simp)
    apply Prog.Only.bindExcept (Prog.Only.lift (Prog.Only.call trivial))
    intro keys
    apply Prog.Only.bindExcept (Prog.Only.lift (Prog.Only.call trivial))
    intro drawn
    apply Prog.Only.bindExcept (m := ExceptT.mk (.ret (ServerIdentity.fromKeys tools keys password drawn))) trivial
    intro identity
    exact Prog.Only.bindExcept (spares_save identity hne) fun _ => trivial

/-- An identity file that is one stays if it can be read, and another file in any case. -/
theorem holds_loadOrGenerate (lawful : tools.Lawful) {dataDir : String}
    (h : join cwd (ServerIdentity.path dataDir) ≠ file ∨
      (ServerIdentity.ofText text.toList).isSome ∧ ∀ x, A (Act.readToString (ServerIdentity.path dataDir)) x → x.fails = none)
    (password : String) : Holds tools cwd file text A (loadOrGenerate tools dataDir password).run := by
  by_cases hpath : join cwd (ServerIdentity.path dataDir) = file
  · obtain ⟨hidentity, hread⟩ := h.resolve_left (not_not_intro hpath)
    intro s hs
    apply Meets.soloStep (P := fun (_ : Unit) (s : Host) => s.disk.text file = some text) hs
    intro x hx
    have found : ((handler tools cwd).act (Act.readToString (ServerIdentity.path dataDir)) x s).1 = .ok text := by
      simp only [handler, act, Luck.orElse, hread x hx, hpath, s.disk.read_of_text hs]
    rw [found]
    have known : Holds tools cwd file text A (keysOf tools dataDir password (ServerIdentity.ofText text.toList)).run :=
      Holds.of_spares lawful (spares_known (Or.inl hidentity))
    exact known s hs
  · apply Stays.bindExcept (Holds.of_spares lawful (spares_load dataDir))
    intro found
    exact Holds.of_spares lawful (spares_known (Or.inr hpath))

theorem spares_loadOrCreate {cfg : Env.Config} (h : join cwd (ServerIdentity.path cfg.dataDir) ≠ file) :
    (loadOrCreate tools cfg).run.Only (Act.Spares cwd file) := by
  unfold loadOrCreate
  split
  · trivial
  · trivial
  · trivial
  · apply Prog.Only.bindExcept (spares_load cfg.dataDir)
    intro found
    exact spares_known (Or.inr h)

theorem holds_loadOrCreate (lawful : tools.Lawful) {cfg : Env.Config}
    (h : join cwd (ServerIdentity.path cfg.dataDir) ≠ file ∨
      (ServerIdentity.ofText text.toList).isSome ∧ ∀ x, A (Act.readToString (ServerIdentity.path cfg.dataDir)) x → x.fails = none) :
    Holds tools cwd file text A (loadOrCreate tools cfg).run := by
  unfold loadOrCreate
  split
  · exact Holds.of_spares lawful trivial
  · exact Holds.of_spares lawful trivial
  · exact Holds.of_spares lawful trivial
  · exact holds_loadOrGenerate lawful h _

theorem holds_openConfigured (lawful : tools.Lawful) (unkept : ∀ topDir, ¬ Kept topDir file) (cfg : Env.Config) :
    Holds tools cwd file text A (openConfigured cfg).run := by
  unfold openConfigured
  cases cfg.walletPassword with
  | none => exact Holds.of_spares lawful trivial
  | some password => exact holds_openAt lawful unkept _ _ _ _ _

theorem Holds.failing (lawful : tools.Lawful) {ε α : Type} {m : ExceptT ε HostIo α} (hm : Holds tools cwd file text A m.run) (front : String)
    (text' : ε → String) : Holds tools cwd file text A (failing front text' m).run := hm.bind fun _ => Holds.of_spares lawful trivial

theorem holds_startIngest (lawful : tools.Lawful) (unkept : ∀ topDir, ¬ Kept topDir file) {cfg : Env.Config}
    (h : Holds tools cwd file text A (loadOrCreate tools cfg).run) : Holds tools cwd file text A (startIngest tools cfg).run := by
  have spared : ∀ {β : Type} {p : HostIo β}, p.Only (Act.Spares cwd file) → Holds tools cwd file text A p := Holds.of_spares lawful
  have said : ∀ words, Holds tools cwd file text A (say words).run := by
    intro words
    apply spared
    exact only_say trivial
  apply Stays.bindExcept
  · apply spared
    exact only_pathExists trivial
  intro wasInitialized
  apply Stays.bindExcept (Holds.failing lawful (holds_openConfigured lawful unkept cfg) _ _)
  intro wallet
  have rest : Holds tools cwd file text A (identify tools cfg wallet).run := by
    apply Stays.bindExcept
    · apply spared
      exact only_attempt trivial _
    intro addr
    apply Stays.bindExcept (said _)
    intro _
    apply Stays.bindExcept (Holds.failing lawful h _ _)
    intro keys
    exact Stays.bindExcept (said _) fun _ => spared trivial
  split
  · exact Stays.bindExcept (said _) fun _ => rest
  · exact rest

end

/-- What lets a file stay through every job: no job writes its name, or it is an identity file and can be read. -/
structure Lasting (file text : String) (A : String → {β : Type} → Act β → Luck → Prop) : Prop where
  clear : ∀ cwd prefixDir, (Paths.resolve prefixDir).Clear cwd file
  unkept : ∀ topDir, ¬ Kept topDir file
  identity : ∀ cwd dataDir, join cwd (ServerIdentity.path dataDir) ≠ file ∨
    (ServerIdentity.ofText text.toList).isSome ∧ ∀ x, A cwd (Act.readToString (ServerIdentity.path dataDir)) x → x.fails = none

theorem Lasting.code {A : String → {β : Type} → Act β → Luck → Prop} (h : Lasting file text A) (lawful : tools.Lawful) (job : Job) :
    Holds tools cwd file text (A cwd) (job.code lower tools) := by
  have spared : ∀ {β : Type} {p : HostIo β}, p.Only (Act.Spares cwd file) → Holds tools cwd file text (A cwd) p := Holds.of_spares lawful
  cases job with
  | setup stdinIsTty args =>
    apply Stays.bind (holds_runSetup lawful h.unkept (h.clear cwd) stdinIsTty args)
    intro _
    exact spared trivial
  | start terminal cfg =>
    have started : Holds tools cwd file text (A cwd) (Till.start lower tools terminal cfg).run := by
      apply Stays.bindExcept
      · exact (holds_firstRunOrBoot lawful h.unkept (h.clear cwd none) terminal cfg).bind fun _ => spared trivial
      intro boot
      cases boot with
      | exit code => exact spared trivial
      | ready cfg =>
        dsimp only
        split
        · have opening : Holds tools cwd file text (A cwd) (startIngest tools cfg).run :=
            holds_startIngest lawful h.unkept (holds_loadOrCreate lawful (h.identity cwd cfg.dataDir))
          exact Stays.bindExcept opening fun _ => spared trivial
        · exact spared trivial
    exact started.bind fun _ => spared trivial

end

/-! ## Through the life of a host -/

section

variable (lower : String → String) (tools : Tools) (A : String → {β : Type} → Act β → Luck → Prop)

/-- Every operation of the processes is answered as `A` allows. -/
def Allowed : List Process → Host → Prop
  | [], _ => True
  | p :: ps, h =>
    (∀ ev ∈ (p.job.code lower tools).events (handler tools p.cwd) () p.luck (h.fresh p.input), A p.cwd ev.eff ev.input) ∧
      Allowed ps (p.after lower tools h)

end

section

variable {lower : String → String} {tools : Tools} {file text : String} {A : String → {β : Type} → Act β → Luck → Prop}

theorem Lasting.process (lasting : Lasting file text A) (lawful : tools.Lawful) {p : Process} {h : Host} (hfile : h.disk.text file = some text)
    (allowed : ∀ ev ∈ (p.job.code lower tools).events (handler tools p.cwd) () p.luck (h.fresh p.input), A p.cwd ev.eff ev.input) :
    (p.after lower tools h).disk.text file = some text :=
  (lasting.code lawful p.job).exec (s := h.fresh p.input) hfile p.luck allowed

theorem Lasting.after (lasting : Lasting file text A) (lawful : tools.Lawful) {ps : List Process} {h : Host} (hfile : h.disk.text file = some text)
    (allowed : Allowed lower tools A ps h) : (Till.after lower tools ps h).disk.text file = some text := by
  induction ps generalizing h with
  | nil => exact hfile
  | cons p ps ih => exact ih (lasting.process lawful hfile allowed.1) allowed.2

end

/-! ## What a start has opened -/

section

variable {tools : Tools} {cwd : String} {v : View}

/-- What `fromKeys` encrypts, `decryptNcryptsec` decrypts. -/
theorem decrypt_fromKeys (lawful : tools.Lawful) {keys : GoblinPay.Secret} {password : String} {drawn : List UInt8} {i : ServerIdentity}
    (h : ServerIdentity.fromKeys tools keys password drawn = .ok i) : decryptNcryptsec tools i.ncryptsec password = .ok keys := by
  unfold ServerIdentity.fromKeys at h
  obtain ⟨encrypted, hencrypt, h⟩ := Outcome.bind_ok.1 h
  obtain ⟨ncryptsec, hbech32, h⟩ := Outcome.bind_ok.1 h
  obtain ⟨npub, -, h⟩ := Outcome.bind_ok.1 h
  cases h
  have spelled := lawful.from_to_bech32 _ _ (Outcome.mapError_ok.1 hbech32)
  have decrypted := lawful.decrypt_encrypt _ _ _ _ (Outcome.mapError_ok.1 hencrypt)
  simp only [decryptNcryptsec, spelled, decrypted]

/-- The identity file holds this key under this password. -/
def IdentityAt (tools : Tools) (d : Disk) (file password : String) (keys : GoblinPay.Secret) : Prop :=
  ∃ text i, d.text file = some text ∧ ServerIdentity.ofText text.toList = some i ∧ decryptNcryptsec tools i.ncryptsec password = .ok keys

/-- The seed file holds this seed under this password. -/
def SeedAt (tools : Tools) (d : Disk) (file password : String) (seed : Seed) : Prop :=
  ∃ text, d.text file = some text ∧ tools.openSeed text password = some seed

theorem from_load {dataDir : String} {Q : Option ServerIdentity → View → Prop} (hnone : Q none v)
    (hsome : ∀ text i, v.disk.text (join cwd (ServerIdentity.path dataDir)) = some text → ServerIdentity.ofText text.toList = some i →
      Q (some i) v) : From tools cwd v (ServerIdentity.load dataDir) Q := by
  apply From.bind
  apply From.readToString
  · intro e
    exact From.pure hnone
  · intro text htext
    apply From.pure
    cases hi : ServerIdentity.ofText text.toList with
    | none => exact hnone
    | some i => exact hsome text i htext hi

theorem from_save {i : ServerIdentity} {dataDir : String} {Q : Unit → View → Prop}
    (h : ∀ disk : Disk, disk.text (join cwd (ServerIdentity.path dataDir)) = some (String.ofList i.toText) → Q () { v with disk }) :
    From tools cwd v (i.save dataDir) Q := by
  apply From.bind
  apply From.createDirAll
  intro _
  apply From.bind
  apply From.setPermissions
  apply From.bind
  apply From.write
  apply From.setPermissions
  apply h
  rw [Disk.text_chmod, Disk.text_put]

theorem From.generated {β : Type} {r : Except IdentityError β} {Q : β → View → Prop} (h : ∀ b, r = .ok b → Q b v) :
    From tools cwd v (ExceptT.mk (Prog.ret r) : ExceptT IdentityError HostIo β) Q := by
  constructor
  intro host hhost b hb
  rw [hhost]
  exact h b hb

/-- A key that is given out is in the identity file, whether it was there or is new. -/
theorem from_loadOrGenerate (lawful : tools.Lawful) (dataDir password : String) :
    From tools cwd v (loadOrGenerate tools dataDir password) fun keys v' =>
      IdentityAt tools v'.disk (join cwd (ServerIdentity.path dataDir)) password keys := by
  apply From.bind
  apply from_load
  · apply From.bind
    apply From.looks
    · exact Prog.Only.lift (Prog.Only.call ⟨trivial, id⟩)
    intro keys
    apply From.bind
    apply From.looks
    · exact Prog.Only.lift (Prog.Only.call ⟨trivial, id⟩)
    intro drawn
    apply From.bind
    apply From.generated
    intro identity hidentity
    apply From.bind
    apply from_save
    intro disk hdisk
    apply From.pure
    refine ⟨_, identity, hdisk, ?_, decrypt_fromKeys lawful hidentity⟩
    rw [String.toList_ofList, ServerIdentity.ofText_toText]
  · intro text i htext hi
    apply From.generated
    intro keys hkeys
    exact ⟨text, i, htext, hi, hkeys⟩

theorem from_loadOrCreate (lawful : tools.Lawful) {cfg : Env.Config} :
    From tools cwd v (loadOrCreate tools cfg) fun keys v' => cfg.nsec = none → cfg.ncryptsec = none →
      ∃ password, cfg.walletPassword = some password ∧
        IdentityAt tools v'.disk (join cwd (ServerIdentity.path cfg.dataDir)) password.reveal keys := by
  unfold loadOrCreate
  split
  · rename_i hnsec
    apply From.generated
    intro keys _ hnone
    rw [hnone] at hnsec
    cases hnsec
  · exact From.throw _
  · rename_i hncryptsec
    apply From.generated
    intro keys _ _ hnone
    rw [hnone] at hncryptsec
    cases hncryptsec
  · rename_i password _ hpassword _
    apply From.mono (from_loadOrGenerate lawful cfg.dataDir password.reveal)
    intro keys v' hat _ _
    exact ⟨password, hpassword, hat⟩

theorem from_openConfigured (lawful : tools.Lawful) (cfg : Env.Config) :
    From tools cwd v (openConfigured cfg) fun w v' => ∃ password, cfg.walletPassword = some password ∧
      SeedAt tools v'.disk (join cwd (seedPath cfg.dataDir)) password.reveal w.seed := by
  unfold openConfigured
  cases hpassword : cfg.walletPassword with
  | none => exact From.throw _
  | some password =>
    apply From.mono (from_openAt lawful _ _ _ _ _)
    intro w v' opened
    obtain ⟨contents, hfile, hopen⟩ := opened.sealed
    rw [seedFile_join] at hfile
    refine ⟨password, rfl, contents, ?_, hopen⟩
    rw [Disk.text, hfile]
    rfl

/-- What is true of the wallet when it is opened, if it stays true behind it, and of the identity. -/
theorem from_startIngest {cfg : Env.Config} {Q : GoblinPay.Secret → View → Prop} {I : Wallet → View → Prop}
    (hwallet : From tools cwd v (openConfigured cfg) I)
    (hidentify : ∀ w v', I w v' → From tools cwd v' (loadOrCreate tools cfg) fun keys v'' => Q keys v'' ∧ I w v'') :
    From tools cwd v (startIngest tools cfg) fun out v' => Q out.1 v' ∧ I out.2 v' := by
  apply From.bind
  apply From.pathExists
  apply From.bind
  apply From.wrap (f := fun e : WalletError => "wallet error: " ++ e.toText)
  apply From.mono hwallet
  intro w v' hw
  have rest : From tools cwd v' (identify tools cfg w) fun out v'' => Q out.1 v'' ∧ I out.2 v'' := by
    apply From.bind
    apply From.looks
    · exact only_attempt ⟨trivial, id⟩ _
    intro addr
    apply From.bind
    apply From.say
    apply From.bind
    apply From.wrap (f := fun e : IdentityError => "identity error: " ++ e.toText)
    apply From.mono (hidentify w v' hw)
    intro keys v'' hkeys
    apply From.bind
    apply From.say
    exact From.pure hkeys
  split
  · apply From.bind
    apply From.say
    exact rest
  · exact rest

/-- The seed an opened wallet works with is the seed file's. -/
theorem from_wallet (lawful : tools.Lawful) (cfg : Env.Config) :
    From tools cwd v (startIngest tools cfg) fun out v' => ∃ password, cfg.walletPassword = some password ∧
      SeedAt tools v'.disk (join cwd (seedPath cfg.dataDir)) password.reveal out.2.seed := by
  apply From.mono (from_startIngest (Q := fun _ _ => True) (from_openConfigured lawful cfg) ?_) fun _ _ h => h.2
  rintro w v' ⟨password, hpassword, text, htext, hseed⟩
  have named := (named_seedPath cfg.dataDir).joined cwd
  have other : join cwd (ServerIdentity.path cfg.dataDir) ≠ join cwd (seedPath cfg.dataDir) :=
    ((named_identity cfg.dataDir).joined cwd).ne named (by decide) (by decide)
  apply From.mono (From.keeps (K := fun d => d.text (join cwd (seedPath cfg.dataDir)) = some text) From.any htext (spares_loadOrCreate other) ?_)
  · intro keys v'' h
    exact ⟨trivial, password, hpassword, text, h.2, hseed⟩
  · intro _ e x h he hK
    exact (text_spares lawful he x h).trans hK

/-- The key of a start that takes it from the identity file is in that file. -/
theorem from_identity (lawful : tools.Lawful) (cfg : Env.Config) :
    From tools cwd v (startIngest tools cfg) fun out v' => cfg.nsec = none → cfg.ncryptsec = none →
      ∃ password, cfg.walletPassword = some password ∧
        IdentityAt tools v'.disk (join cwd (ServerIdentity.path cfg.dataDir)) password.reveal out.1 := by
  have at' : From tools cwd v (startIngest tools cfg) fun out v' => (cfg.nsec = none → cfg.ncryptsec = none →
      ∃ password, cfg.walletPassword = some password ∧
        IdentityAt tools v'.disk (join cwd (ServerIdentity.path cfg.dataDir)) password.reveal out.1) ∧ True := by
    apply from_startIngest (I := fun _ _ => True) (Q := fun keys v' => cfg.nsec = none → cfg.ncryptsec = none →
      ∃ password, cfg.walletPassword = some password ∧
        IdentityAt tools v'.disk (join cwd (ServerIdentity.path cfg.dataDir)) password.reveal keys) From.any
    intro _ _ _
    apply From.mono (from_loadOrCreate lawful)
    intro _ _ hat
    exact ⟨hat, trivial⟩
  apply From.mono at'
  intro out v' h
  exact h.1

end

/-! ## Two starts -/

/-- The reads of a file that answer with it. -/
def Act.Reads (cwd file : String) : {β : Type} → Act β → Prop
  | _, .readToString path => join cwd path = file
  | _, _ => False

/-- Reading the file does not fail. -/
def Readable (file : String) (cwd : String) {β : Type} (e : Act β) (x : Luck) : Prop := e.Reads cwd file → x.fails = none

theorem lasting_seed (dataDir cwd text : String) : Lasting (join cwd (seedPath dataDir)) text fun _ _ _ _ => True where
  clear _ prefixDir := (Paths.named prefixDir).clear ((named_seedPath dataDir).joined cwd) (by decide)
  unkept topDir := ((named_seedPath dataDir).joined cwd).unkept (by decide) topDir
  identity _ dir := Or.inl (((named_identity dir).joined _).ne ((named_seedPath dataDir).joined cwd) (by decide) (by decide))

theorem lasting_identity (dataDir cwd : String) {text : String} (h : (ServerIdentity.ofText text.toList).isSome) :
    Lasting (join cwd (ServerIdentity.path dataDir)) text (Readable (join cwd (ServerIdentity.path dataDir))) where
  clear _ prefixDir := (Paths.named prefixDir).clear ((named_identity dataDir).joined cwd) (by decide)
  unkept topDir := ((named_identity dataDir).joined cwd).unkept (by decide) topDir
  identity cwd' dir := by
    by_cases hpath : join cwd' (ServerIdentity.path dir) = join cwd (ServerIdentity.path dataDir)
    · right
      constructor
      · exact h
      · intro x hread
        exact hread hpath
    · exact Or.inl hpath

section

variable {lower : String → String} {tools : Tools}

theorem allowed_all (lower : String → String) (tools : Tools) (ps : List Process) (h : Host) : Allowed lower tools (fun _ _ _ _ => True) ps h := by
  induction ps generalizing h with
  | nil => trivial
  | cons p ps ih => exact ⟨fun _ _ => trivial, ih _⟩

variable {cwd cwd' : String} {cfg cfg' : Env.Config} {keys keys' : GoblinPay.Secret} {w w' : Wallet} {h h' h'' : Host} {xs xs' : List Luck}
  {input : List Char}

/-- A start that opens a seed file works with the seed that file has held, whatever processes ran in between. -/
theorem seed_lasts (lawful : tools.Lawful) {dataDir password : String} {seed : Seed}
    (held : SeedAt tools h.disk (join cwd (seedPath dataDir)) password seed) (ps : List Process)
    (started : (startIngest tools cfg).run.exec (handler tools cwd') xs ((after lower tools ps h).fresh input) = (.ret (.ok (keys, w)), h'))
    (hfile : join cwd' (seedPath cfg.dataDir) = join cwd (seedPath dataDir))
    (hpassword : cfg.walletPassword = some ⟨password⟩) : w.seed = seed := by
  obtain ⟨text, htext, hseed⟩ := held
  have lasting := lasting_seed dataDir cwd text
  have between := lasting.after lawful htext (allowed_all lower tools ps h)
  have opening : Holds tools cwd' (join cwd (seedPath dataDir)) text (fun _ _ => True) (startIngest tools cfg).run :=
    holds_startIngest lawful lasting.unkept (holds_loadOrCreate lawful (lasting.identity cwd' cfg.dataDir))
  have there := opening.exec (s := (after lower tools ps h).fresh input) between xs fun _ _ => trivial
  obtain ⟨password', known, text', htext', hseed'⟩ := Gives.exec ((from_wallet lawful cfg).gives _ rfl) started
  change h'.disk.text _ = some text' at htext'
  have same : text' = text := by
    rw [started] at there
    rw [hfile] at htext'
    exact Option.some.inj (htext'.symm.trans there)
  have one : password'.reveal = password := by
    rw [hpassword] at known
    exact congrArg Env.Secret.reveal (Option.some.inj known).symm
  rw [same, one, hseed] at hseed'
  exact (Option.some.inj hseed').symm

/-- Two starts that open one seed file with one password work with one seed, whatever processes ran in between, however they
failed and wherever they were stopped. -/
theorem wallet_kept (lawful : tools.Lawful)
    (started : (startIngest tools cfg).run.exec (handler tools cwd) xs h = (.ret (.ok (keys, w)), h')) (ps : List Process)
    (restarted : (startIngest tools cfg').run.exec (handler tools cwd') xs' ((after lower tools ps h').fresh input) =
      (.ret (.ok (keys', w')), h''))
    (hfile : join cwd' (seedPath cfg'.dataDir) = join cwd (seedPath cfg.dataDir))
    (hpassword : cfg'.walletPassword = cfg.walletPassword) : w'.seed = w.seed := by
  obtain ⟨password, known, held⟩ := Gives.exec ((from_wallet lawful cfg).gives h rfl) started
  exact seed_lasts lawful held ps restarted hfile (hpassword.trans known)

/-- Two starts that take their key from one identity file with one password have one key, whatever processes ran in between, if
reading that file did not fail. -/
theorem identity_kept (lawful : tools.Lawful)
    (started : (startIngest tools cfg).run.exec (handler tools cwd) xs h = (.ret (.ok (keys, w)), h'))
    (ps : List Process) (readable : Allowed lower tools (Readable (join cwd (ServerIdentity.path cfg.dataDir))) ps h')
    (restarted : (startIngest tools cfg').run.exec (handler tools cwd') xs' ((after lower tools ps h').fresh input) =
      (.ret (.ok (keys', w')), h''))
    (readable' : ∀ ev ∈ (startIngest tools cfg').run.events (handler tools cwd') () xs' ((after lower tools ps h').fresh input),
      Readable (join cwd (ServerIdentity.path cfg.dataDir)) cwd' ev.eff ev.input)
    (hfile : join cwd' (ServerIdentity.path cfg'.dataDir) = join cwd (ServerIdentity.path cfg.dataDir))
    (hpassword : cfg'.walletPassword = cfg.walletPassword) (hnsec : cfg.nsec = none) (hnsec' : cfg'.nsec = none)
    (hncryptsec : cfg.ncryptsec = none) (hncryptsec' : cfg'.ncryptsec = none) : keys' = keys := by
  obtain ⟨password, known, text, i, htext, hi, hkeys⟩ := Gives.exec ((from_identity lawful cfg).gives h rfl) started hnsec hncryptsec
  have lasting := lasting_identity cfg.dataDir cwd (by rw [hi]; rfl)
  have between := lasting.after lawful htext readable
  have opening : Holds tools cwd' (join cwd (ServerIdentity.path cfg.dataDir)) text
      (Readable (join cwd (ServerIdentity.path cfg.dataDir)) cwd') (startIngest tools cfg').run :=
    holds_startIngest lawful lasting.unkept (holds_loadOrCreate lawful (lasting.identity cwd' cfg'.dataDir))
  have there := opening.exec (s := (after lower tools ps h').fresh input) between xs' readable'
  obtain ⟨password', known', text', i', htext', hi', hkeys'⟩ := Gives.exec ((from_identity lawful cfg').gives _ rfl) restarted hnsec' hncryptsec'
  change h''.disk.text _ = some text' at htext'
  have same : text' = text := by
    rw [restarted] at there
    rw [hfile] at htext'
    exact Option.some.inj (htext'.symm.trans there)
  have one : password' = password := by
    rw [hpassword, known] at known'
    exact (Option.some.inj known').symm
  rw [same, hi] at hi'
  rw [← Option.some.inj hi', one, hkeys] at hkeys'
  exact (Except.ok.inj hkeys').symm

end

/-! ## A till that is started twice -/

def succeeded {α : Type} : Prog Act (Except String α) → Option α
  | .ret (.ok a) => some a
  | _ => none

theorem succeeded_eq {α : Type} {p : Prog Act (Except String α)} {a : α} (h : succeeded p = some a) : p = .ret (.ok a) := by
  cases p with
  | ret r =>
    cases r with
    | error e => cases h
    | ok b =>
      cases h
      rfl
  | await e k => cases h

theorem eq_of_succeeded {α : Type} {r : Prog Act (Except String α) × Host} {a : α} (h : succeeded r.1 = some a) : r = (.ret (.ok a), r.2) :=
  Prod.ext (succeeded_eq h) rfl

/-- What is behind a label. -/
def behind (label text : String) : Option String := (label.toList.isPrefixOf? text.toList).map String.ofList

theorem behind_append (label text : String) : behind label (label ++ text) = some text := by
  have whole : label.toList.isPrefixOf? (label ++ text).toList = some text.toList := by
    rw [List.isPrefixOf?_eq_some_iff_append_eq, String.toList_append]
  rw [behind, whole, Option.map_some, String.ofList_toList]

/-- The mnemonic of 16 zero bytes. -/
def zeroPhrase : String := "abandon abandon abandon abandon abandon abandon abandon abandon abandon abandon abandon about"

def zeroSeed : Seed := List.replicate 16 0

/-- The seed file of that mnemonic. -/
def lockedPhrase (password : String) : String := password ++ ":" ++ zeroPhrase

/-- The database of a wallet. -/
def databaseFile (topDir : String) : String := join (join topDir "wallet_data") "db/lmdb/data.mdb"

theorem kept_databaseFile (topDir : String) : Kept topDir (databaseFile topDir) where
  inside := by
    have named : Named "wallet_data" (join topDir "wallet_data") := named_join _ _
    have last : (join topDir "wallet_data").toList.getLast? = some 'a' := by
      obtain ⟨front, hfront⟩ := named
      rw [← hfront, List.getLast?_append_of_ne_nil _ (by decide)]
      rfl
    have filled : join topDir "wallet_data" ≠ "" := by
      intro hempty
      rw [hempty] at last
      cases last
    right
    unfold databaseFile
    generalize join topDir "wallet_data" = dir at last filled
    rw [join_relative (by decide)]
    simp [separator, filled, last]
  named := Or.inl ((by decide : Named ".mdb" "db/lmdb/data.mdb").trans (named_join _ _))

/-- Tools that encrypt nothing and know one mnemonic. -/
def plainTools : Tools where
  fromEntropy entropy := if entropy = zeroSeed then .ok zeroPhrase else .error "unknown entropy"
  toEntropy mnemonic := if mnemonic = zeroPhrase then .ok zeroSeed else .error "invalid mnemonic"
  openSeed text password := if text = lockedPhrase password then some zeroSeed else none
  walletExists disk topDir x := x.orElse (.ok (disk (seedFile topDir)).isSome)
  getMnemonic disk topDir password x :=
    if (disk (seedFile topDir)).map File.contents = some (lockedPhrase password) then x.orElse (.ok zeroPhrase)
    else .error "cannot open the seed"
  createWallet disk topDir mnemonic password x :=
    if (disk (seedFile topDir)).isSome then (.error "wallet seed exists", disk)
    else if mnemonic ≠ zeroPhrase then (.error "invalid mnemonic", disk)
    else
      match x.fails with
      | some e => (.error e, disk)
      | none => (.ok (), Function.update (Function.update disk (databaseFile topDir) (some ⟨"", 0o644⟩)) (seedFile topDir)
          (some ⟨lockedPhrase password, 0o644⟩))
  openWallet disk topDir password x :=
    match x.fails, disk (seedFile topDir) with
    | none, some file =>
      if file.contents = lockedPhrase password then
        (.ok zeroSeed, Function.update disk (databaseFile topDir) (some ⟨"", 0o644⟩))
      else (.error "cannot open the seed", disk)
    | _, _ => (.error "no seed", disk)
  address _ := "grin1"
  sealCredential disk password dest x :=
    if x.fails.isSome then (.exited false, disk) else (.exited true, Function.update disk dest (some ⟨"sealed:" ++ password, 0o600⟩))
  openCredential text := behind "sealed:" text
  parseSecret _ := .error "invalid secret key"
  encryptSecret keys _ _ := .ok keys
  decryptSecret encrypted _ := some encrypted
  toBech32 encrypted := .ok (Hex.encodeHex encrypted)
  fromBech32 text := ((Hex.decodeHex text.toList).toOption.join.map Except.ok).getD (.error "invalid")
  npub keys := .ok (Hex.encodeHex keys)
  umask := 0o644

theorem plainTools_lawful : plainTools.Lawful where
  wallet_exists {disk topDir x found} h := by
    change x.orElse (.ok (disk (seedFile topDir)).isSome) = .ok found at h
    unfold Luck.orElse at h
    split at h
    · cases h
    · exact (Except.ok.inj h).symm
  created {disk topDir mnemonic password x} h := by
    dsimp only [plainTools] at h ⊢
    by_cases there : (disk (seedFile topDir)).isSome
    · rw [if_pos there] at h
      cases h
    by_cases known : mnemonic = zeroPhrase
    · cases fails : x.fails with
      | some e =>
        rw [if_neg there, if_neg (not_not_intro known), fails] at h
        cases h
      | none =>
        rw [if_neg there, if_neg (not_not_intro known)]
        exact ⟨_, zeroSeed, Function.update_self _ _ _, if_pos known, if_pos rfl⟩
    · rw [if_neg there, if_pos known] at h
      cases h
  create_keeps disk topDir mnemonic password x file hseed hkept := by
    have other : file ≠ databaseFile topDir := fun heq => hkept (heq ▸ kept_databaseFile topDir)
    dsimp only [plainTools]
    split
    · rfl
    split
    · rfl
    split
    · rfl
    · dsimp only
      rw [Function.update_of_ne hseed, Function.update_of_ne other]
  opened {disk topDir password x seed} h := by
    dsimp only [plainTools] at h ⊢
    split at h
    · rename_i file _ hfile
      refine ⟨file, hfile, ?_⟩
      split at h
      · rename_i hopen
        rw [if_pos hopen, Except.ok.inj h]
      · cases h
    · cases h
  open_keeps disk topDir password x file hkept := by
    have other : file ≠ databaseFile topDir := fun heq => hkept (heq ▸ kept_databaseFile topDir)
    dsimp only [plainTools]
    split
    · split
      · exact Function.update_of_ne other _ _
      · rfl
    · rfl
  sealed {disk password dest x} h := by
    dsimp only [plainTools] at h ⊢
    split at h
    · cases h
    · rename_i lucky
      rw [if_neg lucky]
      exact ⟨_, Function.update_self _ _ _, behind_append _ _⟩
  seal_keeps disk password dest x file hfile := by
    dsimp only [plainTools]
    split
    · rfl
    · exact Function.update_of_ne hfile _ _
  decrypt_encrypt secret password nonce e h := by
    cases h
    rfl
  from_to_bech32 e text h := by
    cases h
    show (((Hex.decodeHex (Hex.encodeHex e).toList).toOption.join).map Except.ok).getD (.error "invalid") = .ok e
    rw [Hex.decodeHex_encodeHex]
    rfl

def newTill : Env.Config :=
  { Env.Config.default with
    dataDir := "/var/lib/goblinpay/gp-data", walletPassword := some ⟨"hunter2"⟩, mnemonic := some ⟨zeroPhrase⟩ }

/-- The same till, with its seed no longer in the environment. -/
def oldTill : Env.Config := { newTill with mnemonic := none }

/-- Operations that all succeed. -/
def calm : List Luck := List.replicate 60 ⟨none, none, [7, 7, 7], true⟩

theorem fails_of_calm {ev : Event Act Unit Luck Host} (h : ev.input ∈ calm) : ev.input.fails = none := by
  rw [List.eq_of_mem_replicate h]

def bareHost : Host := ⟨⟨[], ""⟩, fun _ => none, none⟩

/-- The host after a start of a new till. -/
def firstHost : Host := ((startIngest plainTools newTill).run.exec (handler plainTools "/srv") calm bareHost).2

/-- The till is set up again, in the root directory, and its password is typed. -/
def reconfigured : Process where
  cwd := "/"
  input := "http://pay\nhttp://shop\n\nhttp://node\n2\n\n\nhunter2\n".toList
  job := .setup true ["--reconfigure"]
  luck := calm

def secondHost : Host := after (fun s => s) plainTools [reconfigured] firstHost

def lastHost : Host := ((startIngest plainTools oldTill).run.exec (handler plainTools "/srv") calm (secondHost.fresh [])).2

theorem firstStart : (startIngest plainTools newTill).run.exec (handler plainTools "/srv") calm bareHost =
    (.ret (.ok ([7, 7, 7], ⟨zeroSeed, "https://main.gri.mw"⟩)), firstHost) := by
  unfold firstHost
  apply eq_of_succeeded
  decide +kernel

/-- The wizard has written its file, and the till starts again. -/
theorem secondRun : (secondHost.disk defaultEnvFile).isSome ∧
    succeeded ((startIngest plainTools oldTill).run.exec (handler plainTools "/srv") calm (secondHost.fresh [])).1 =
      some ([7, 7, 7], ⟨zeroSeed, "https://main.gri.mw"⟩) := by
  decide +kernel

theorem secondStart : (startIngest plainTools oldTill).run.exec (handler plainTools "/srv") calm (secondHost.fresh []) =
    (.ret (.ok ([7, 7, 7], ⟨zeroSeed, "https://main.gri.mw"⟩)), lastHost) := by
  unfold lastHost
  exact eq_of_succeeded secondRun.2

theorem wallet_kept_twice : (secondHost.disk defaultEnvFile).isSome ∧ (⟨zeroSeed, "https://main.gri.mw"⟩ : Wallet).seed = zeroSeed := by
  constructor
  · exact secondRun.1
  · exact wallet_kept plainTools_lawful firstStart [reconfigured] secondStart rfl rfl

theorem identity_kept_twice : (secondHost.disk defaultEnvFile).isSome ∧ ([7, 7, 7] : GoblinPay.Secret) = [7, 7, 7] := by
  have quiet : Allowed (fun s => s) plainTools (Readable (join "/srv" (ServerIdentity.path newTill.dataDir))) [reconfigured] firstHost := by
    constructor
    · intro ev hev _
      exact fails_of_calm (Prog.input_mem_of_events hev)
    · trivial
  constructor
  · exact secondRun.1
  · exact identity_kept plainTools_lawful firstStart [reconfigured] quiet secondStart
      (fun ev hev _ => fails_of_calm (Prog.input_mem_of_events hev)) rfl rfl rfl rfl rfl rfl

end GoblinPay.Till
