import GoblinPay.Core.Setup
import GoblinPay.Loop

/-!
# The wizard's prompts

`gp-server/src/setup.rs`: the loops that ask until there is an answer. A console is the text not read yet and what was
written. A loop is run for a number of turns and gives nothing when they do not do.
-/

namespace GoblinPay.Setup

open Text

structure Console where
  input : List Char
  output : String
  deriving DecidableEq

def Console.write (c : Console) (text : String) : Console := { c with output := c.output ++ text }

@[simp] theorem Console.write_input (c : Console) (text : String) : (c.write text).input = c.input := rfl

/-- `trim_end_matches(['\n', '\r'])` -/
def trimFeeds (line : List Char) : List Char := line.rdropWhile fun c => c = '\n' || c = '\r'

def readLineOpt (c : Console) : Option String × Console :=
  match c.input with
  | [] => (none, c)
  | cs =>
    match splitOnce '\n' cs with
    | some (line, rest) => (some (String.ofList (trimFeeds (line ++ ['\n']))), { c with input := rest })
    | none => (some (String.ofList (trimFeeds cs)), { c with input := [] })

def readLine (c : Console) : String × Console :=
  let (line, c) := readLineOpt c
  (line.getD "", c)

/-- On a terminal the end of the line is not echoed, so it is written. -/
def readSecretLine (hidden : Bool) (c : Console) : Option String × Console :=
  let (line, c) := readLineOpt c
  if hidden then (line, c.write "\n") else (line, c)

def promptRequired.turn {T : Type} (parse : String → Except String T) (question : String) (c : Console) :
    Round Console (Except String T × Console) :=
  let c := (c.write (question ++ "\n")).write "   > "
  let (line, c) := readLine c
  match parse line with
  | .ok v => .done (.ok v, c)
  | .error e =>
    let c := c.write s!"   ! {e}\n\n"
    if line.isEmpty then .done (.error s!"no answer provided: {e}", c) else .again c

def promptRequired {T : Type} (parse : String → Except String T) (question : String) :
    Nat → Console → Option (Except String T × Console) :=
  Round.loop (promptRequired.turn parse question)

def promptWalletPassword.turn (hidden : Bool) (c : Console) : Round Console (Except String String × Console) :=
  let c := c.write "   new password > "
  match readSecretLine hidden c with
  | (none, c) => .done (.error "no wallet password provided (end of input)", c)
  | (some first, c) =>
    match validatePassword first with
    | .error e => .again (c.write s!"   ! {e}\n\n")
    | .ok () =>
      let c := c.write "   repeat password > "
      match readSecretLine hidden c with
      | (none, c) => .done (.error "wallet password not confirmed (end of input)", c)
      | (some second, c) =>
        if passwordsMatch first second then .done (.ok first, c)
        else .again (c.write "   ! passwords do not match; try again\n\n")

def promptWalletPassword (hidden : Bool) (turns : Nat) (c : Console) : Option (Except String String × Console) :=
  let c := c.write ("3) Choose a password to encrypt this till's wallet.\n" ++
    "   You will enter it to unlock the wallet; it is NOT recoverable — if you\n" ++
    "   forget it, restore the till from its 24-word seed. Entered twice.\n")
  Round.loop (promptWalletPassword.turn hidden) turns c

def promptExistingPassword.turn (hidden : Bool) (c : Console) : Round Console (Except String String × Console) :=
  let c := c.write "   wallet password > "
  match readSecretLine hidden c with
  | (none, c) => .done (.error "no wallet password provided (end of input)", c)
  | (some s, c) => if !s.isEmpty then .done (.ok s, c) else .again (c.write "   ! password must not be empty\n\n")

def promptExistingPassword (hidden : Bool) : Nat → Console → Option (Except String String × Console) :=
  Round.loop (promptExistingPassword.turn hidden)

def requireAck.turn (prompt : String) (c : Console) : Round Console (Except String Unit × Console) :=
  let c := (c.write (prompt ++ "\n")).write "   > "
  match readLineOpt c with
  | (none, c) => .done (.error "seed not acknowledged (end of input); type yes to confirm you wrote it down", c)
  | (some line, c) =>
    if parseAck line then .done (.ok (), c)
    else .again (c.write "   ! please type yes once you have written the seed down\n\n")

def requireAck (prompt : String) : Nat → Console → Option (Except String Unit × Console) :=
  Round.loop (requireAck.turn prompt)

/-! ## What was typed -/

/-- The lines of a text, without their ends. -/
def typed (cs : List Char) : List String := (lines cs).map fun line => String.ofList (trimFeeds line)

theorem trimFeeds_stripCr (line : List Char) : trimFeeds (stripCr line) = trimFeeds line := by
  rcases stripCr_cases line with h | h
  · rw [h]
  · have more : trimFeeds (stripCr line ++ ['\r']) = trimFeeds (stripCr line) := List.rdropWhile_concat_pos _ _ _ rfl
    rw [← more, ← h]

/-- A read takes the first line of what is left, and gives nothing at its end. -/
inductive Took (input : List Char) : Option String × Console → Prop
  | line {text : String} {c : Console} (h : typed input = text :: typed c.input) : Took input (some text, c)
  | stop {c : Console} (h : input = []) (h' : c.input = []) : Took input (none, c)

theorem took_readLineOpt (c : Console) : Took c.input (readLineOpt c) := by
  obtain ⟨input, output⟩ := c
  cases input with
  | nil => exact .stop rfl rfl
  | cons a cs =>
    by_cases hfeed : '\n' ∈ a :: cs
    · obtain ⟨line, rest, heq, hline⟩ := List.eq_append_cons_of_mem hfeed
      have first : splitOnce '\n' (a :: cs) = some (line, rest) := by rw [heq, splitOnce_append hline]
      simp only [readLineOpt, first]
      apply Took.line
      rw [typed, heq, lines_cons hline, List.map_cons, trimFeeds_stripCr]
      have ended : trimFeeds (line ++ ['\n']) = trimFeeds line := List.rdropWhile_concat_pos _ _ _ rfl
      rw [ended]
      rfl
    · simp only [readLineOpt, splitOnce_of_notMem hfeed]
      apply Took.line
      rw [typed, lines_last hfeed (List.cons_ne_nil a cs)]
      rfl

theorem took_readSecretLine (hidden : Bool) (c : Console) : Took c.input (readSecretLine hidden c) := by
  have took := took_readLineOpt c
  rcases hread : readLineOpt c with ⟨line, c'⟩
  rw [hread] at took
  simp only [readSecretLine, hread]
  cases took with
  | line h => cases hidden <;> exact .line h
  | stop h h' => cases hidden <;> exact .stop h h'

/-- What a prompt makes of the lines it reads in one turn, and of the end of the input behind them. -/
structure Question (T : Type) where
  accepts : List String → T → Prop
  refuses : List String → Prop
  fails : List String → List Char → String → Prop

variable {T : Type}

inductive Question.Turned (q : Question T) (input : List Char) : Round Console (Except String T × Console) → Prop
  | answered {lines : List String} {c : Console} {v : T} (h : typed input = lines ++ typed c.input) (haccept : q.accepts lines v) :
      q.Turned input (.done (.ok v, c))
  | refused {lines : List String} {c : Console} (h : typed input = lines ++ typed c.input) (hne : lines ≠ [])
      (hrefuse : q.refuses lines) : q.Turned input (.again c)
  | failed {lines : List String} {c : Console} {e : String} (h : typed input = lines ++ typed c.input)
      (hfail : q.fails lines c.input e) : q.Turned input (.done (.error e, c))

/-- Refused turns, and behind them the lines the answer or the error is given for. -/
def Question.Ended (q : Question T) (input : List Char) (b : Except String T × Console) : Prop :=
  ∃ (turned : List (List String)) (lines : List String), typed input = turned.flatten ++ lines ++ typed b.2.input ∧ (∀ group ∈ turned, q.refuses group) ∧
    match b.1 with
    | .ok v => q.accepts lines v
    | .error e => q.fails lines b.2.input e

/-- A prompt each of whose turns reads a line or is the last ends, after no more turns than there are lines, and one. -/
theorem Question.loop_ended {q : Question T} {body : Console → Round Console (Except String T × Console)}
    (hbody : ∀ c, q.Turned c.input (body c)) {turns : Nat} {c : Console} (hturns : (typed c.input).length < turns) :
    ∃ b, Round.loop body turns c = some b ∧ q.Ended c.input b := by
  let I : Console → Prop := fun s =>
    ∃ turned : List (List String), typed c.input = turned.flatten ++ typed s.input ∧ ∀ group ∈ turned, q.refuses group
  have first : I c := ⟨[], rfl, nofun⟩
  apply Round.loop_total (fun s => (typed s.input).length) I _ _ _ first hturns
  · rintro s s' ⟨turned, htyped, hrefused⟩ hagain
    have turn := hbody s
    rw [hagain] at turn
    cases turn with
    | @refused lines _ h hne hrefuse =>
      constructor
      · refine ⟨turned ++ [lines], ?_, fun group hgroup => ?_⟩
        · rw [htyped, h]
          simp
        · rcases List.mem_append.1 hgroup with hgroup | hgroup
          · exact hrefused group hgroup
          · rw [List.mem_singleton.1 hgroup]
            exact hrefuse
      · have more := List.length_pos_of_ne_nil hne
        rw [h, List.length_append]
        omega
  · rintro s b ⟨turned, htyped, hrefused⟩ hdone
    have turn := hbody s
    rw [hdone] at turn
    cases turn with
    | @answered lines _ _ h haccept => exact ⟨turned, lines, by rw [htyped, h, List.append_assoc], hrefused, haccept⟩
    | @failed lines _ _ h hfail => exact ⟨turned, lines, by rw [htyped, h, List.append_assoc], hrefused, hfail⟩

/-- A prompt that ends, whatever text is read, and after no more turns than the text has lines, and one. -/
def Question.Answered (q : Question T) (prompt : Nat → Console → Option (Except String T × Console)) : Prop :=
  ∀ turns c, (typed c.input).length < turns → ∃ b, prompt turns c = some b ∧ q.Ended c.input b

/-- Refused turns, and the lines the answer is taken from: what is left of the lines behind them. -/
def Question.Takes (q : Question T) (cs : List String) (v : T) (rest : List String) : Prop :=
  ∃ (turned : List (List String)) (lines : List String), cs = turned.flatten ++ lines ++ rest ∧ (∀ group ∈ turned, q.refuses group) ∧
    q.accepts lines v

theorem Question.Ended.takes {q : Question T} {input : List Char} {v : T} {c : Console} (h : q.Ended input (.ok v, c)) :
    q.Takes (typed input) v (typed c.input) := h

/-- The lines an answer is taken from are lines there were. -/
theorem Question.Takes.accepted {q : Question T} {cs rest : List String} {v : T} (h : q.Takes cs v rest) :
    ∃ lines, q.accepts lines v ∧ (∀ line ∈ lines, line ∈ cs) ∧ ∀ line ∈ rest, line ∈ cs := by
  obtain ⟨turned, lines, rfl, -, haccept⟩ := h
  refine ⟨lines, haccept, fun line hline => ?_, fun line hline => List.mem_append_right _ hline⟩
  exact List.mem_append_left _ (List.mem_append_right _ hline)

/-- A line that is read, and an empty one at the end of the input. -/
inductive LineRead : List String → String → List String → Prop
  | line (text : String) (rest : List String) : LineRead (text :: rest) text rest
  | stop : LineRead [] "" []

theorem LineRead.subset {cs rest : List String} {line : String} (h : LineRead cs line rest) : ∀ text ∈ rest, text ∈ cs := by
  cases h with
  | line => exact fun _ htext => List.mem_cons_of_mem _ htext
  | stop => exact fun _ htext => htext

/-- An empty line ends the asking, as the end of the input does. -/
def required (parse : String → Except String T) (e : String) : Question T where
  accepts lines v := ∃ line, lines = [line] ∧ parse line = .ok v
  refuses lines := ∃ line, lines = [line] ∧ line ≠ "" ∧ ∀ v, parse line ≠ .ok v
  fails lines rest text := text = s!"no answer provided: {e}" ∧ (lines = [""] ∨ lines = [] ∧ rest = [])

def newPassword : Question String where
  accepts lines pw := pw ≠ "" ∧ lines = [pw, pw]
  refuses lines := lines = [""] ∨ ∃ first second, lines = [first, second] ∧ first ≠ second
  fails lines rest text := rest = [] ∧
    (lines = [] ∧ text = "no wallet password provided (end of input)" ∨
      ∃ first, lines = [first] ∧ text = "wallet password not confirmed (end of input)")

def existingPassword : Question String where
  accepts lines pw := pw ≠ "" ∧ lines = [pw]
  refuses lines := lines = [""]
  fails lines rest text := lines = [] ∧ rest = [] ∧ text = "no wallet password provided (end of input)"

def acknowledgement : Question Unit where
  accepts lines _ := ∃ line, lines = [line] ∧ parseAck line
  refuses lines := ∃ line, lines = [line] ∧ ¬ parseAck line
  fails lines rest text := lines = [] ∧ rest = [] ∧
    text = "seed not acknowledged (end of input); type yes to confirm you wrote it down"

/-- Nothing is left when nothing was. -/
theorem typed_stop {input rest : List Char} (h : input = []) (h' : rest = []) : typed input = [] ++ typed rest := by
  rw [h, h']
  rfl

theorem turned_required {parse : String → Except String T} {e : String} (hempty : parse "" = .error e) (question : String)
    (c : Console) : (required parse e).Turned c.input (promptRequired.turn parse question c) := by
  have took := took_readLineOpt ((c.write (question ++ "\n")).write "   > ")
  rcases hread : readLineOpt ((c.write (question ++ "\n")).write "   > ") with ⟨line, c'⟩
  rw [hread] at took
  simp only [promptRequired.turn, readLine, hread]
  cases took with
  | @line text _ h =>
    have htyped : typed c.input = [text] ++ typed c'.input := h
    rw [Option.getD_some]
    cases hparse : parse text with
    | ok v => exact .answered htyped ⟨text, rfl, hparse⟩
    | error e' =>
      by_cases hblank : text = ""
      · subst hblank
        obtain rfl : e = e' := by
          rw [hempty] at hparse
          cases hparse
          rfl
        exact .failed htyped ⟨rfl, Or.inl rfl⟩
      · simp only [String.isEmpty_iff, hblank, if_false]
        have never : ∀ v, parse text ≠ .ok v := by
          intro v hv
          rw [hv] at hparse
          cases hparse
        exact .refused htyped (List.cons_ne_nil _ _) ⟨text, rfl, hblank, never⟩
  | stop h h' =>
    rw [Option.getD_none, hempty]
    exact .failed (typed_stop h h') ⟨rfl, Or.inr ⟨rfl, h'⟩⟩

theorem answered_required {parse : String → Except String T} {e : String} (hempty : parse "" = .error e) (question : String) :
    (required parse e).Answered (promptRequired parse question) := fun _ _ => Question.loop_ended (turned_required hempty question)

theorem turned_newPassword (hidden : Bool) (c : Console) : newPassword.Turned c.input (promptWalletPassword.turn hidden c) := by
  have took := took_readSecretLine hidden (c.write "   new password > ")
  rcases hread : readSecretLine hidden (c.write "   new password > ") with ⟨line, c'⟩
  rw [hread] at took
  simp only [promptWalletPassword.turn, hread]
  cases took with
  | stop h h' => exact .failed (typed_stop h h') ⟨h', Or.inl ⟨rfl, rfl⟩⟩
  | @line first _ h =>
    have hfirst : typed c.input = [first] ++ typed c'.input := h
    by_cases hblank : first = ""
    · subst hblank
      exact .refused hfirst (List.cons_ne_nil _ _) (Or.inl rfl)
    · have valid : validatePassword first = .ok () := by
        rw [validatePassword, if_neg (by simpa using hblank)]
      simp only [valid]
      have took := took_readSecretLine hidden (c'.write "   repeat password > ")
      rcases hread : readSecretLine hidden (c'.write "   repeat password > ") with ⟨line, c''⟩
      rw [hread] at took
      cases took with
      | stop h h' =>
        have only : typed c.input = [first] ++ typed c''.input := by
          have none : c'.input = [] := h
          rw [hfirst, none, h']
        exact .failed only ⟨h', Or.inr ⟨first, rfl, rfl⟩⟩
      | @line second _ hsecond =>
        have both : typed c.input = [first, second] ++ typed c''.input := by
          have rest : typed c'.input = second :: typed c''.input := hsecond
          rw [hfirst, rest]
          rfl
        by_cases hmatch : first = second
        · subst hmatch
          simp only [passwordsMatch, beq_self_eq_true, if_true]
          exact .answered both ⟨hblank, rfl⟩
        · simp only [passwordsMatch, beq_false_of_ne hmatch]
          exact .refused both (List.cons_ne_nil _ _) (Or.inr ⟨first, second, rfl, hmatch⟩)

theorem answered_newPassword (hidden : Bool) : newPassword.Answered (promptWalletPassword hidden) := by
  intro turns c hturns
  unfold promptWalletPassword
  dsimp only
  rw [← Console.write_input c] at hturns ⊢
  exact Question.loop_ended (turned_newPassword hidden) hturns

theorem turned_existingPassword (hidden : Bool) (c : Console) :
    existingPassword.Turned c.input (promptExistingPassword.turn hidden c) := by
  have took := took_readSecretLine hidden (c.write "   wallet password > ")
  rcases hread : readSecretLine hidden (c.write "   wallet password > ") with ⟨line, c'⟩
  rw [hread] at took
  simp only [promptExistingPassword.turn, hread]
  cases took with
  | stop h h' => exact .failed (typed_stop h h') ⟨rfl, h', rfl⟩
  | @line text _ h =>
    have htyped : typed c.input = [text] ++ typed c'.input := h
    dsimp only
    by_cases hblank : text = ""
    · subst hblank
      exact .refused htyped (List.cons_ne_nil _ _) rfl
    · rw [if_pos (by simpa using hblank)]
      exact .answered htyped ⟨hblank, rfl⟩

theorem answered_existingPassword (hidden : Bool) : existingPassword.Answered (promptExistingPassword hidden) :=
  fun _ _ => Question.loop_ended (turned_existingPassword hidden)

theorem turned_acknowledgement (prompt : String) (c : Console) : acknowledgement.Turned c.input (requireAck.turn prompt c) := by
  have took := took_readLineOpt ((c.write (prompt ++ "\n")).write "   > ")
  rcases hread : readLineOpt ((c.write (prompt ++ "\n")).write "   > ") with ⟨line, c'⟩
  rw [hread] at took
  simp only [requireAck.turn, hread]
  cases took with
  | stop h h' => exact .failed (typed_stop h h') ⟨rfl, h', rfl⟩
  | @line text _ h =>
    have htyped : typed c.input = [text] ++ typed c'.input := h
    dsimp only
    by_cases hack : parseAck text
    · rw [if_pos hack]
      exact .answered htyped ⟨text, rfl, hack⟩
    · rw [if_neg hack]
      exact .refused htyped (List.cons_ne_nil _ _) ⟨text, rfl, hack⟩

theorem answered_acknowledgement (prompt : String) : acknowledgement.Answered (requireAck prompt) :=
  fun _ _ => Question.loop_ended (turned_acknowledgement prompt)

theorem normalizeUrl_empty : normalizeUrl "" = .error "a URL is required" := rfl

theorem webhookUrlFromShop_empty : webhookUrlFromShop "" = .error "a URL is required" := rfl

/-- A line is read, or the input has ended. -/
theorem lineRead_readLine (c : Console) : LineRead (typed c.input) (readLine c).1 (typed (readLine c).2.input) := by
  have took := took_readLineOpt c
  rcases hread : readLineOpt c with ⟨line, c'⟩
  rw [hread] at took
  simp only [readLine, hread]
  cases took with
  | @line text _ h =>
    rw [h]
    exact .line text _
  | stop h h' =>
    rw [h, h']
    exact .stop

theorem typed_eq_nil {cs : List Char} : typed cs = [] ↔ cs = [] := by
  have took := took_readLineOpt ⟨cs, ""⟩
  rcases hread : readLineOpt ⟨cs, ""⟩ with ⟨line, c⟩
  rw [hread] at took
  cases took with
  | line h =>
    have some_line : typed cs ≠ [] := h ▸ List.cons_ne_nil _ _
    refine iff_of_false some_line ?_
    rintro rfl
    exact some_line rfl
  | stop h => exact iff_of_true (congrArg typed h) h

/-- No empty line but the last stands in front of the first line that is accepted. -/
def AnswersFirst (parse : String → Except String T) (input : List Char) : Prop :=
  ∀ before after, typed input = before ++ "" :: after → after ≠ [] → ∃ line ∈ before, ∃ v, parse line = .ok v

/-- Where none of the first lines is empty, an empty line comes behind them. -/
theorem split_after {first lines before after : List String} (h : first ++ lines = before ++ "" :: after) (hfirst : "" ∉ first) :
    ∃ more, before = first ++ more ∧ lines = more ++ "" :: after := by
  rcases List.append_eq_append_iff.1 h with ⟨more, hbefore, hlines⟩ | ⟨more, rfl, hmore⟩
  · exact ⟨more, hbefore, hlines⟩
  · cases more with
    | nil => exact ⟨[], by simp, hmore.symm⟩
    | cons line more =>
      cases hmore
      exact absurd (List.mem_append_right _ List.mem_cons_self) hfirst

/-- A required answer is taken, or the asking fails at the end of the input, if and only if no empty line comes first. -/
theorem Question.Ended.required_iff {parse : String → Except String T} {e : String} {input : List Char}
    {b : Except String T × Console} (hempty : parse "" = .error e) (h : (required parse e).Ended input b) :
    (∃ v, b.1 = .ok v) ∨ b.2.input = [] ↔ AnswersFirst parse input := by
  obtain ⟨turned, lines, htyped, hrefused, hend⟩ := h
  have refused : ∀ line ∈ turned.flatten, line ≠ "" ∧ ∀ v, parse line ≠ .ok v := by
    intro line hline
    obtain ⟨group, hgroup, hmem⟩ := List.mem_flatten.1 hline
    obtain ⟨line', rfl, hne, hnot⟩ := hrefused group hgroup
    rw [List.mem_singleton.1 hmem]
    exact ⟨hne, hnot⟩
  have behind : ∀ before after, typed input = before ++ "" :: after →
      ∃ more, before = turned.flatten ++ more ∧ lines ++ typed b.2.input = more ++ "" :: after := by
    intro before after hsplit
    rw [htyped, List.append_assoc] at hsplit
    exact split_after hsplit fun blank => (refused "" blank).1 rfl
  obtain ⟨r, c⟩ := b
  cases r with
  | ok v =>
    obtain ⟨line, rfl, hparse⟩ := hend
    refine iff_of_true (Or.inl ⟨v, rfl⟩) fun before after hsplit _ => ⟨line, ?_, v, hparse⟩
    obtain ⟨more, rfl, hmore⟩ := behind before after hsplit
    cases more with
    | nil =>
      obtain rfl : line = "" := (List.cons.inj hmore).1
      rw [hempty] at hparse
      cases hparse
    | cons first more =>
      obtain rfl : line = first := (List.cons.inj hmore).1
      exact List.mem_append_right _ List.mem_cons_self
  | error text =>
    obtain ⟨-, rfl | ⟨rfl, hrest⟩⟩ := hend
    · constructor
      · rintro (⟨v, hv⟩ | hrest) before after hsplit hafter
        · cases hv
        · -- the empty line that ended the asking is the last
          obtain ⟨more, rfl, hmore⟩ := behind before after hsplit
          rw [typed_eq_nil.2 hrest] at hmore
          cases more with
          | nil => exact absurd (List.cons.inj hmore).2.symm hafter
          | cons first more => exact absurd (List.cons.inj hmore).2 (by simp)
      · intro answers
        refine Or.inr ?_
        by_contra hrest
        obtain ⟨line, hline, v, hparse⟩ := answers turned.flatten (typed c.input) (by rw [htyped]; simp) (mt typed_eq_nil.1 hrest)
        exact (refused line hline).2 v hparse
    · refine iff_of_true (Or.inr hrest) fun before after hsplit _ => ?_
      obtain ⟨more, -, hmore⟩ := behind before after hsplit
      rw [typed_eq_nil.2 hrest] at hmore
      exact absurd hmore (by simp)

/-- Whatever text is read, each prompt ends after no more turns than the text has lines, and one: with an answer taken, or an
error where the text ends, or, for the required answers, at an empty line. -/
theorem prompts_end (c : Console) {turns : Nat} (hturns : (typed c.input).length < turns) :
    (∀ parse ∈ [normalizeUrl, webhookUrlFromShop], ∀ question, ∃ b, promptRequired parse question turns c = some b ∧
      (required parse "a URL is required").Ended c.input b ∧
      ((∃ v, b.1 = .ok v) ∨ b.2.input = [] ↔ AnswersFirst parse c.input)) ∧
    (∀ hidden, ∃ b, promptWalletPassword hidden turns c = some b ∧ newPassword.Ended c.input b) ∧
    (∀ hidden, ∃ b, promptExistingPassword hidden turns c = some b ∧ existingPassword.Ended c.input b) ∧
    ∀ prompt, ∃ b, requireAck prompt turns c = some b ∧ acknowledgement.Ended c.input b := by
  refine ⟨fun parse hparse question => ?_, fun hidden => ?_, fun hidden => ?_, fun prompt => ?_⟩
  · have hempty : parse "" = .error "a URL is required" := by
      rcases List.mem_cons.1 hparse with rfl | hparse
      · exact normalizeUrl_empty
      · rw [List.mem_singleton.1 hparse]
        exact webhookUrlFromShop_empty
    obtain ⟨b, hb, hended⟩ := answered_required hempty question turns c hturns
    exact ⟨b, hb, hended, hended.required_iff hempty⟩
  · exact answered_newPassword hidden turns c hturns
  · exact answered_existingPassword hidden turns c hturns
  · exact answered_acknowledgement prompt turns c hturns

/-- A mismatch, and the password entered again. -/
theorem password_entered : ∃ b, promptWalletPassword false 5 ⟨['a', '\n', 'b', '\n', 'a', '\n', 'a'], ""⟩ = some b ∧
    newPassword.Ended ['a', '\n', 'b', '\n', 'a', '\n', 'a'] b :=
  (prompts_end ⟨['a', '\n', 'b', '\n', 'a', '\n', 'a'], ""⟩ (by decide)).2.1 false

/-- An empty line in front of an answer ends the asking with input left. -/
theorem blank_line_fails : ¬ ∀ c : Console, ∃ turns b, promptRequired normalizeUrl "   your till URL" turns c = some b ∧
    ((∃ url, b.1 = .ok url) ∨ b.2.input = []) := by
  intro h
  obtain ⟨turns, b, hb, hend⟩ := h ⟨"\nhttp://a\n".toList, ""⟩
  cases turns with
  | zero => cases hb
  | succ turns =>
    have first : b.1 = .error "no answer provided: a URL is required" ∧ b.2.input = "http://a\n".toList := by
      cases hb
      exact ⟨rfl, rfl⟩
    rw [first.1, first.2] at hend
    rcases hend with ⟨url, hurl⟩ | hend
    · cases hurl
    · exact absurd hend (by decide)

end GoblinPay.Setup
