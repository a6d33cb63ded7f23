import GoblinPay.Text.Slice

/-!
# The payment message

`gp-nostr/src/protocol.rs`: a kind 14 rumor carries a preamble, a blank line and the slatepack
armor; the payer's note travels in the `subject` tag.
-/

namespace GoblinPay.Protocol

/-- `MAX_WRAP_CONTENT`, `MAX_RUMOR_CONTENT`, `MAX_SLATEPACK` and `MAX_NOTE_CHARS`. -/
def maxWrapContent : Nat := 64 * 1024
def maxRumorContent : Nat := 32 * 1024
def maxSlatepack : Nat := 30 * 1024
def maxNoteChars : Nat := 256

def goblinTag : String := "goblin"
def protocolVersion : String := "1"

def preamble : String := "[Goblin] GRIN payment message — open in Goblin (https://goblin.st) to process."

def armorBegin : List Char := "BEGINSLATEPACK.".toList
def armorEnd : List Char := "ENDSLATEPACK.".toList

/-- Strip control characters, collapse whitespace, trim and cap the length. -/
def sanitizeNote (raw : String) : Option String :=
  let cleaned := raw.toList.map fun c => if Text.isControl c then ' ' else c
  let trimmed := Text.trimChars (Text.collapse cleaned)
  if trimmed.isEmpty then none else some (String.ofList (trimmed.take maxNoteChars))

def buildPaymentContent (slatepack : String) : String := preamble ++ "\n\n" ++ Text.trim slatepack

def buildRumorTags (note : Option String) : List (List String) :=
  [goblinTag, protocolVersion] ::
    match note.bind sanitizeNote with
    | some note => [["subject", note]]
    | none => []

/-- Exactly one armor block, of a size the wallet takes. -/
def extractSlatepack (content : String) : Option String := do
  let cs := content.toList
  if maxRumorContent < Text.bytes cs then none
  else do
    let start ← Text.find armorBegin cs
    let fromEnd ← Text.find armorEnd start
    let rest := fromEnd.drop armorEnd.length
    -- a second complete block after the first is ambiguous
    let ambiguous :=
      match Text.find armorBegin rest with
      | some next => (Text.find armorEnd next).isSome
      | none => false
    if ambiguous then none
    else
      let armor := Text.trimChars (start.take (start.length - rest.length))
      if maxSlatepack < Text.bytes armor then none else some (String.ofList armor)

/-- Whether the rest of a text holds a second complete block, by byte offsets. -/
def ambiguousAt (rest : List Char) : Except Panic Bool :=
  match Text.findAt armorBegin rest with
  | some next => do
    let fromNext ← Text.sliceFrom next rest
    pure (Text.findAt armorEnd fromNext).isSome
  | none => pure false

/-- `extract_slatepack` by byte offsets, with every slice it takes. -/
def extractSlatepackAt (content : String) : Except Panic (Option String) := do
  let cs := content.toList
  if maxRumorContent < Text.bytes cs then pure none
  else
    match Text.findAt armorBegin cs with
    | none => pure none
    | some start =>
      let fromStart ← Text.sliceFrom start cs
      match Text.findAt armorEnd fromStart with
      | none => pure none
      | some endRel =>
        let stop := start + endRel + Text.bytes armorEnd
        let rest ← Text.sliceFrom stop cs
        if ← ambiguousAt rest then pure none
        else
          let armor := Text.trimChars (← Text.slice start stop cs)
          if maxSlatepack < Text.bytes armor then pure none else pure (some (String.ofList armor))

/-- The value of the first tag under `name` that carries one. -/
def tagValue (name : String) (tags : List (List String)) : Option String :=
  tags.findSome? fun parts => if parts.head? = some name then parts[1]? else none

/-- The sanitized subject: the first tag with a value decides, readable or not. -/
def extractSubject (tags : List (List String)) : Option String := (tagValue "subject" tags).bind sanitizeNote

end GoblinPay.Protocol
