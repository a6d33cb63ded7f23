import GoblinPay.Server.Wizard

/-!
# What the wizard does to the host

What a process can tell of its host: the files, and the lines not read yet. One rule for each operation says what a block that
succeeds has made of them.
-/

namespace GoblinPay.Till

open Async Setup

/-! ## Paths -/

/-- What `join` puts between. -/
def separator (base : String) : String := if base.isEmpty ∨ base.toList.getLast? = some '/' then "" else "/"

theorem join_absolute {base path : String} (h : path.toList.head? = some '/') : join base path = path := if_pos (Or.inl h)

/-- A relative path is put behind the base. -/
theorem join_relative {base path : String} (h : path.toList.head? ≠ some '/') : join base path = base ++ separator base ++ path := by
  unfold join separator
  by_cases hempty : base = ""
  · simp [hempty]
  by_cases hlast : base.toList.getLast? = some '/'
  · simp [h, hempty, hlast]
  · simp [h, hempty, hlast]

theorem separator_congr {base base' : String} (hempty : base = "" ↔ base' = "") (hlast : base.toList.getLast? = base'.toList.getLast?) :
    separator base = separator base' := by
  unfold separator
  rw [hlast]
  simp only [String.isEmpty_iff, hempty]

/-- Behind a path that was joined comes what comes behind the path. -/
theorem separator_joined (base path : String) : separator (base ++ separator base ++ path) = separator path := by
  by_cases hpath : path = ""
  · subst hpath
    by_cases hempty : base = ""
    · subst hempty
      rfl
    by_cases hlast : base.toList.getLast? = some '/'
    · simp [separator, hempty, hlast]
    · simp [separator, hempty, hlast]
  · apply separator_congr
    · simp [hpath]
    · rw [String.toList_append]
      exact List.getLast?_append_of_ne_nil _ (by simpa using hpath)

/-- A path and a name under it are joined to what comes before alike, together or one by one. -/
theorem join_join (base path : String) {name : String} (h : name.toList.head? ≠ some '/') :
    join (join base path) name = join base (join path name) := by
  by_cases hpath : path.toList.head? = some '/'
  · have there : (join path name).toList.head? = some '/' := by
      have hne : path.toList ≠ [] := by
        intro hnil
        rw [hnil] at hpath
        cases hpath
      rw [join_relative h, String.append_assoc, String.toList_append, List.head?_append_of_ne_nil _ hne, hpath]
    rw [join_absolute hpath, join_absolute there]
  · have there : (join path name).toList.head? ≠ some '/' := by
      rw [join_relative h]
      by_cases hempty : path = ""
      · subst hempty
        simpa [separator] using h
      · rw [String.append_assoc, String.toList_append, List.head?_append_of_ne_nil _ (by simpa using hempty)]
        exact hpath
    rw [join_relative hpath, join_relative there, join_relative h, join_relative h, separator_joined]
    simp only [String.append_assoc]

theorem seedFile_join (cwd dataDir : String) : seedFile (join cwd (join dataDir "wallet")) = join cwd (seedPath dataDir) := by
  rw [seedFile, seedPath, seedFile, join_join cwd (join dataDir "wallet") (by decide),
    join_join cwd (join (join dataDir "wallet") "wallet_data") (by decide)]

theorem Named.trans {name path path' : String} (h : Named name path) (h' : Named path path') : Named name path' := List.IsSuffix.trans h h'

/-- A path has no two names of which neither ends in the other. -/
theorem Named.not {name name' path : String} (h : Named name path) (hne : ¬ Named name name') (hne' : ¬ Named name' name) :
    ¬ Named name' path := by
  intro h'
  rcases List.suffix_or_suffix_of_suffix h h' with hsuffix | hsuffix
  · exact hne hsuffix
  · exact hne' hsuffix

/-- Paths whose names do not end in one another are different. -/
theorem Named.ne {name name' path path' : String} (h : Named name path) (h' : Named name' path') (hne : ¬ Named name name')
    (hne' : ¬ Named name' name) : path ≠ path' := by
  rintro rfl
  exact h.not hne hne' h'

/-- What is joined to a base is the end of the path. -/
theorem named_join (base path : String) : Named path (join base path) := by
  unfold join
  split
  · exact List.suffix_refl _
  split
  · rw [Named, String.toList_append]
    exact List.suffix_append _ _
  · rw [Named, String.toList_append]
    exact List.suffix_append _ _

theorem Named.joined {name path : String} (h : Named name path) (cwd : String) : Named name (join cwd path) := h.trans (named_join cwd path)

theorem named_seedFile (topDir : String) : Named "wallet.seed" (seedFile topDir) := named_join _ _

theorem named_seedPath (dataDir : String) : Named "wallet.seed" (seedPath dataDir) := named_join _ _

/-- A file with a name of its own is none that grin-wallet keeps. -/
theorem Named.unkept {name file : String} (h : Named name file)
    (hne : ∀ other ∈ [".mdb", ".grintx"], ¬ Named other name ∧ ¬ Named name other) (topDir : String) : ¬ Kept topDir file := by
  rintro ⟨-, hkept | hkept⟩
  · exact h.not (hne _ (by decide)).2 (hne _ (by decide)).1 hkept
  · exact h.not (hne _ (by decide)).2 (hne _ (by decide)).1 hkept

/-! ## The disk -/

namespace Disk

/-- What a file says. -/
def text (d : Disk) (file : String) : Option String := (d file).map File.contents

variable (tools : Tools) (d : Disk) {path file : String}

/-- A write changes no other file. -/
theorem put_of_ne (h : file ≠ path) (contents : String) : d.put tools path contents file = d file := Function.update_of_ne h _ _

/-- A write that failed changes no other file. -/
theorem torn_of_ne (h : file ≠ path) (left : Option String) : d.torn tools path left file = d file := by
  cases left with
  | none => rfl
  | some contents => exact d.put_of_ne tools h contents

theorem remove_of_ne (h : file ≠ path) : d.remove path file = d file := Function.update_of_ne h _ _

theorem chmod_of_ne (h : file ≠ path) (mode : Nat) : d.chmod path mode file = d file := Function.update_of_ne h _ _

/-- A mode says nothing of what is in the file. -/
theorem text_chmod (path file : String) (mode : Nat) : (d.chmod path mode).text file = d.text file := by
  by_cases hfile : file = path
  · subst hfile
    simp [text, chmod, Function.comp_def]
  · rw [text, chmod_of_ne d hfile, text]

theorem chmod_self {f : File} (h : d path = some f) (mode : Nat) : d.chmod path mode path = some ⟨f.contents, mode⟩ := by
  rw [chmod, h]
  exact Function.update_self _ _ _

/-- Where there is no file, no mode changes. -/
theorem chmod_of_none (h : d path = none) (mode : Nat) : d.chmod path mode = d := by
  rw [chmod, h]
  exact Function.update_eq_self_iff.2 h.symm

/-- A file that is written and given a mode. -/
theorem chmod_put (path contents : String) (mode : Nat) : (d.put tools path contents).chmod path mode =
    Function.update d path (some ⟨contents, mode⟩) := by
  simp [chmod, put]

theorem text_put (path contents : String) : (d.put tools path contents).text path = some contents := by
  simp [text, put]

/-- A file is read as what it says. -/
theorem read_of_text {text' : String} (h : d.text file = some text') : d.read file = .ok text' := by
  obtain ⟨f, hf, rfl⟩ := Option.map_eq_some_iff.1 h
  simp [read, hf]

theorem read_of_some {contents : String} {mode : Nat} (h : d file = some ⟨contents, mode⟩) : d.read file = .ok contents := by
  rw [read, h]
  rfl

theorem text_of_read {text' : String} (h : d.read file = .ok text') : d.text file = some text' := by
  cases hf : d file with
  | none =>
    rw [read, hf] at h
    cases h
  | some f =>
    rw [read, hf] at h
    cases h
    simp [text, hf]

end Disk

/-! ## Views -/

/-- What the wizard goes by: the disk, and the lines still to be typed. -/
structure View where
  disk : Disk
  /-- the lines not read yet -/
  lines : List String

def Host.view (h : Host) : View := ⟨h.disk, typed h.console.input⟩

/-- The operations that change no file. -/
def Act.Looks : {β : Type} → Act β → Prop
  | _, .write _ _ => False
  | _, .removeFile _ => False
  | _, .setPermissions _ _ => False
  | _, .sealCredential _ _ => False
  | _, .createWallet _ _ _ => False
  | _, .openWallet _ _ => False
  | _, _ => True

/-- A question. -/
def Act.Asks : {β : Type} → Act β → Prop
  | _, .ask _ => True
  | _, _ => False

section

variable (tools : Tools) (cwd : String)

/-- An operation that only looks leaves the disk. -/
theorem disk_looks {β : Type} {e : Act β} (he : e.Looks) (x : Luck) (h : Host) : ((handler tools cwd).act e x h).2.disk = h.disk := by
  cases e with
  | write | removeFile | setPermissions | sealCredential | createWallet | openWallet => exact he.elim
  | ask | createDirAll | initChainType =>
    simp only [handler, act]
    split <;> rfl
  | _ => rfl

/-- What neither asks nor changes a file leaves the view. -/
theorem view_looks {β : Type} {e : Act β} (he : e.Looks) (hasks : ¬ e.Asks) (x : Luck) (h : Host) :
    ((handler tools cwd).act e x h).2.view = h.view := by
  cases e with
  | write | removeFile | setPermissions | sealCredential | createWallet | openWallet => exact he.elim
  | ask => exact absurd trivial hasks
  | createDirAll | initChainType =>
    simp only [handler, act]
    split <;> rfl
  | _ => rfl

/-- From the view `v` on, a block that succeeds does so in `Q`. -/
structure From {ε α : Type} (v : View) (m : ExceptT ε HostIo α) (Q : α → View → Prop) : Prop where
  gives : ∀ h : Host, h.view = v → Gives (handler tools cwd) (fun a h' => Q a h'.view) m h

end

section

variable {S : ∀ {γ : Type}, Act γ → Prop} {ε ε' β : Type}

theorem only_attempt {e : Act (Except ε β)} (he : S e) (wrap : ε → ε') : (attempt e wrap).run.Only S := ⟨he, fun _ => trivial⟩

theorem only_say {text : String} (h : S (Act.say text)) : (say text).run.Only S := Prog.Only.lift (Prog.Only.call h)

theorem only_pathExists {path : String} (h : S (Act.pathExists path)) : (pathExists path).run.Only S := Prog.Only.lift (Prog.Only.call h)

end

section

variable {tools : Tools} {cwd : String} {ε ε' α β : Type} {v : View} {m : ExceptT ε HostIo α} {Q I : α → View → Prop}

theorem From.pure {a : α} (h : Q a v) : From tools cwd v (pure a : ExceptT ε HostIo α) Q := by
  constructor
  intro host hhost
  apply Gives.pure
  rwa [hhost]

theorem From.throw (e : ε) : From tools cwd v (throw e : ExceptT ε HostIo α) Q := by
  constructor
  intro host _
  exact Gives.throw e

/-- What is known behind the first step is known before the second. -/
theorem From.bind {Q : β → View → Prop} {f : α → ExceptT ε HostIo β} (hm : From tools cwd v m fun a v' => From tools cwd v' (f a) Q) :
    From tools cwd v (m >>= f) Q := by
  constructor
  intro host hhost
  apply Gives.bind
  apply Gives.mono (hm.gives host hhost)
  intro a host' hf
  exact hf.gives host' rfl

theorem From.mono (hm : From tools cwd v m Q) (h : ∀ a v, Q a v → I a v) : From tools cwd v m I := by
  constructor
  intro host hhost
  apply Gives.mono (hm.gives host hhost)
  intro a host' hq
  exact h a _ hq

theorem From.any : From tools cwd v m fun _ _ => True := by
  constructor
  intro host _
  apply Ends.mono (Ends.any m.run host)
  intro _ _ _ _ _
  trivial

/-- What neither asks nor changes a file leaves the view. -/
theorem From.looks (hm : m.run.Only fun e => e.Looks ∧ ¬ e.Asks) (h : ∀ a, Q a v) : From tools cwd v m Q := by
  constructor
  intro host hhost
  have kept : Ends (handler tools cwd) (fun _ h' => h'.view = v) m.run host :=
    Ends.of_only hm hhost fun e x s he hs => (view_looks tools cwd he.1 he.2 x s).trans hs
  apply Ends.mono kept
  intro r host' hview a _
  rw [hview]
  exact h a

/-- What the operations of a block keep is there when it succeeds, whatever else is. -/
theorem From.keeps {K : Disk → Prop} {S : ∀ {γ : Type}, Act γ → Prop} (hm : From tools cwd v m Q) (hK : K v.disk) (honly : m.run.Only S)
    (keep : ∀ {γ : Type} (e : Act γ) x (h : Host), S e → K h.disk → K ((handler tools cwd).act e x h).2.disk) :
    From tools cwd v m fun a v' => Q a v' ∧ K v'.disk := by
  constructor
  rintro host rfl
  have kept : Ends (handler tools cwd) (fun _ h' => K h'.disk) m.run host :=
    Ends.of_only (K := fun h : Host => K h.disk) honly hK keep
  apply Ends.mono (Ends.and (hm.gives host rfl) kept)
  intro r host' hr a ha
  exact ⟨hr.1 a ha, hr.2⟩

theorem From.wrap {f : ε → ε'} (hm : From tools cwd v m Q) :
    From tools cwd v (ExceptT.mk (m.run >>= fun r => Prog.ret (r.mapError f)) : ExceptT ε' HostIo α) Q := by
  constructor
  intro host hhost
  apply Ends.bind
  apply Ends.mono (hm.gives host hhost)
  intro r host' hr a ha
  cases r with
  | error e => cases ha
  | ok b =>
    cases ha
    exact hr a rfl

/-- One operation. -/
theorem From.call {e : Act β} {Q : β → View → Prop}
    (h : ∀ x host, host.view = v → Q ((handler tools cwd).act e x host).1 ((handler tools cwd).act e x host).2.view) :
    From tools cwd v (liftM (Prog.call e) : ExceptT ε HostIo β) Q := by
  constructor
  intro host hhost
  apply Gives.lift
  intro x
  exact h x host hhost

/-- One operation whose error ends the block. -/
theorem From.attempt {e : Act (Except ε β)} {wrap : ε → ε'} {Q : β → View → Prop}
    (h : ∀ x host b, host.view = v → ((handler tools cwd).act e x host).1 = .ok b → Q b ((handler tools cwd).act e x host).2.view) :
    From tools cwd v (attempt e wrap) Q := by
  constructor
  intro host hhost x b hb
  cases hanswer : ((handler tools cwd).act e x host).1 with
  | error err =>
    simp only [hanswer] at hb
    cases hb
  | ok b' =>
    simp only [hanswer] at hb
    cases hb
    exact h x host b hhost hanswer

theorem From.say {text : String} {Q : Unit → View → Prop} (h : Q () v) : From tools cwd v (Till.say text) Q := by
  apply From.looks
  · exact only_say ⟨trivial, id⟩
  · intro _
    exact h

theorem From.random {n : Nat} {Q : List UInt8 → View → Prop} (h : ∀ bytes, bytes.length = n → Q bytes v) :
    From tools cwd v (Till.random n : ExceptT ε HostIo (List UInt8)) Q := by
  apply From.call
  rintro x host rfl
  exact h _ (by simp [handler, act])

theorem From.pathExists {path : String} {Q : Bool → View → Prop} (h : Q (v.disk (join cwd path)).isSome v) :
    From tools cwd v (Till.pathExists path) Q := by
  apply From.call
  rintro x host rfl
  exact h

/-- The answer to a question that ends is taken from the lines. -/
theorem From.ask {q : Question α} {prompt : Nat → Console → Option (Except String α × Console)} {Q : α → View → Prop}
    (answered : q.Answered prompt) (h : ∀ a rest, q.Takes v.lines a rest → Q a { v with lines := rest }) :
    From tools cwd v (Till.ask prompt) Q := by
  constructor
  rintro host rfl x a ha
  obtain ⟨⟨r, c⟩, hprompt, ended⟩ := answered ((typed host.console.input).length + 1) host.console (Nat.lt_succ_self _)
  simp only [handler, act, hprompt] at ha ⊢
  subst ha
  exact h a _ ended.takes

/-- An answer is the next line, or empty at the end of the input. -/
theorem From.askLine {Q : String → View → Prop} (h : ∀ line rest, LineRead v.lines line rest → Q line { v with lines := rest }) :
    From tools cwd v Till.askLine Q := by
  constructor
  rintro host rfl x line hline
  cases hline
  exact h _ _ (lineRead_readLine host.console)

/-- A write that succeeds has put the contents. -/
theorem From.write {path contents : String} {wrap : String → ε} {Q : Unit → View → Prop}
    (h : Q () { v with disk := v.disk.put tools (join cwd path) contents }) : From tools cwd v (Till.attempt (.write path contents) wrap) Q := by
  apply From.attempt
  rintro x host b rfl hb
  simp only [handler, act] at hb ⊢
  cases hf : x.fails with
  | some e =>
    simp only [hf] at hb
    cases hb
  | none => exact h

theorem From.setPermissions {path : String} {mode : Nat} {wrap : String → ε} {Q : Unit → View → Prop}
    (h : Q () { v with disk := v.disk.chmod (join cwd path) mode }) : From tools cwd v (Till.attempt (.setPermissions path mode) wrap) Q := by
  apply From.attempt
  rintro x host b rfl hb
  simp only [handler, act] at hb ⊢
  cases hf : x.fails with
  | some e =>
    simp only [hf] at hb
    cases hb
  | none => exact h

/-- A directory that is made, or is there, is no file. -/
theorem From.createDirAll {path : String} {wrap : String → ε} {Q : Unit → View → Prop} (h : v.disk (join cwd path) = none → Q () v) :
    From tools cwd v (Till.attempt (.createDirAll path) wrap) Q := by
  apply From.attempt
  rintro x host b rfl hb
  simp only [handler, act] at hb ⊢
  split at hb
  · cases hb
  · rename_i absent
    rw [if_neg absent]
    exact h (by simpa [Host.view] using absent)

/-- The file is gone, whether it was there or not. -/
theorem From.removeIfExists {path : String} {Q : Unit → View → Prop} (h : Q () { v with disk := v.disk.remove (join cwd path) }) :
    From tools cwd v (Till.removeIfExists path) Q := by
  constructor
  rintro host rfl x
  simp only [handler, act]
  cases x.fails with
  | some e =>
    intro b hb
    cases hb
  | none =>
    dsimp only
    split
    · intro b hb
      cases hb
      exact h
    · rename_i absent
      intro b hb
      cases hb
      have same : host.disk.remove (join cwd path) = host.disk := Function.update_eq_self_iff.2 (Eq.symm (by simpa using absent))
      simp only [Host.view, same] at h
      exact h

/-- A file that is read says what the disk has. -/
theorem From.readToString {path : String} {Q : Except String String → View → Prop} (herror : ∀ e, Q (.error e) v)
    (hok : ∀ text, v.disk.text (join cwd path) = some text → Q (.ok text) v) :
    From tools cwd v (liftM (Prog.call (Act.readToString path)) : ExceptT ε HostIo (Except String String)) Q := by
  apply From.call
  rintro x host rfl
  show Q (x.orElse (host.disk.read (join cwd path))) host.view
  unfold Luck.orElse
  split
  · exact herror _
  · cases hread : host.disk.read (join cwd path) with
    | error e => exact herror e
    | ok text => exact hok text (host.disk.text_of_read hread)

/-- A credential is sealed, or something else may be left in its place. -/
theorem From.systemdCredsSeal (lawful : tools.Lawful) {password dest : String} {Q : Bool → View → Prop}
    (hyes : ∀ disk file, (∀ other, other ≠ join cwd dest → disk other = v.disk other) → disk (join cwd dest) = some file →
      tools.openCredential file.contents = some password → Q true { v with disk })
    (hno : ∀ disk, (∀ other, other ≠ join cwd dest → disk other = v.disk other) → Q false { v with disk }) :
    From tools cwd v (Till.systemdCredsSeal password dest) Q := by
  apply From.bind
  apply From.call
  rintro x host rfl
  show From tools cwd { host.view with disk := (tools.sealCredential host.disk password (join cwd dest) x).2 }
    (systemdCredsSeal.outcome (tools.sealCredential host.disk password (join cwd dest) x).1) Q
  have others := lawful.seal_keeps host.disk password (join cwd dest) x
  have sealed : (tools.sealCredential host.disk password (join cwd dest) x).1 = .exited true →
      ∃ file, (tools.sealCredential host.disk password (join cwd dest) x).2 (join cwd dest) = some file ∧
        tools.openCredential file.contents = some password := lawful.sealed
  generalize tools.sealCredential host.disk password (join cwd dest) x = outcome at others sealed
  obtain ⟨run, disk⟩ := outcome
  cases run with
  | missing => exact From.pure (hno disk others)
  | unstarted e => exact From.throw _
  | unfed e => exact From.throw _
  | lost e => exact From.throw _
  | exited success =>
    apply From.pure
    cases success with
    | false => exact hno disk others
    | true =>
      obtain ⟨file, hfile, hcredential⟩ := sealed rfl
      exact hyes disk file others hfile hcredential

end

end GoblinPay.Till
