import GoblinPay.Nostr.Protocol

/-!
# The payer's note

`gp-nostr/src/protocol.rs` sanitizes a note when it builds the tags of a payment and again when it reads
them. A note comes through unchanged when it is tidy; one that is cut to length is tidy unless the cut falls
behind a space.
-/

namespace GoblinPay

open Text

/-- Up to 256 characters, in words without control characters that single spaces separate. -/
structure Tidy (s : String) : Prop where
  short : s.toList.length ≤ Protocol.maxNoteChars
  words : ∃ words, words ≠ [] ∧ (∀ w ∈ words, Word w ∧ ∀ c ∈ w, isControl c = false) ∧ s.toList = [' '].intercalate words

namespace Protocol

/-- The text `sanitize_note` cuts to length. -/
theorem sanitized_words (raw : String) : ∃ words, (∀ w ∈ words, Word w ∧ ∀ c ∈ w, isControl c = false) ∧
    trimChars (collapse (raw.toList.map fun c => if isControl c then ' ' else c)) = [' '].intercalate words := by
  obtain ⟨words, hwords, heq⟩ := collapse_eq (raw.toList.map fun c => if isControl c then ' ' else c)
  refine ⟨words, fun w hw => ⟨(hwords w hw).1, fun c hc => ?_⟩, ?_⟩
  · obtain ⟨d, -, rfl⟩ := List.mem_map.1 ((hwords w hw).2 hc)
    split
    · rfl
    · rename_i hd
      exact eq_false_of_ne_true hd
  · rw [heq]
    exact trimChars_words fun w hw => (hwords w hw).1

theorem sanitizeNote_eq_some {raw note : String} : sanitizeNote raw = some note ↔
    trimChars (collapse (raw.toList.map fun c => if isControl c then ' ' else c)) ≠ [] ∧
      note.toList = (trimChars (collapse (raw.toList.map fun c => if isControl c then ' ' else c))).take maxNoteChars := by
  unfold sanitizeNote
  dsimp only
  generalize trimChars _ = trimmed
  split
  · rename_i hempty
    simp [List.isEmpty_iff.1 hempty]
  · rename_i hne
    have hne : trimmed ≠ [] := by simpa using hne
    constructor
    · intro h
      rw [← Option.some.inj h]
      exact ⟨hne, String.toList_ofList⟩
    · rintro ⟨-, h⟩
      rw [← h, String.ofList_toList]

/-- A tidy text is left as it is, and no other is. -/
theorem sanitizeNote_eq_self {s : String} : sanitizeNote s = some s ↔ Tidy s := by
  rw [sanitizeNote_eq_some]
  constructor
  · rintro ⟨hne, hs⟩
    obtain ⟨words, hwords, heq⟩ := sanitized_words s
    rw [heq] at hs hne
    have bound : ([' '].intercalate words).length ≤ s.toList.length := by
      have trimmed : trimChars (collapse (s.toList.map fun c => if isControl c then ' ' else c)) =
          collapse (s.toList.map fun c => if isControl c then ' ' else c) := by
        obtain ⟨words', hwords', heq'⟩ := collapse_eq (s.toList.map fun c => if isControl c then ' ' else c)
        rw [heq']
        exact trimChars_words fun w hw => (hwords' w hw).1
      rw [← heq, trimmed]
      calc _ ≤ (s.toList.map fun c => if isControl c then ' ' else c).length := length_collapse_le _
        _ = s.toList.length := List.length_map _
    have short : s.toList.length ≤ maxNoteChars := by
      rw [hs]
      exact List.length_take_le _ _
    rw [List.take_of_length_le (bound.trans short)] at hs
    refine ⟨short, words, fun hnil => hne ?_, hwords, hs⟩
    rw [hnil]
    rfl
  · rintro ⟨short, words, hne, hwords, hs⟩
    have uncontrolled : (s.toList.map fun c => if isControl c then ' ' else c) = s.toList := by
      refine (List.map_congr_left fun c hc => ?_).trans (List.map_id _)
      rw [hs] at hc
      have plain : isControl c = false := by
        rcases mem_intercalate hc with rfl | ⟨w, hw, hcw⟩
        · rfl
        · exact (hwords w hw).2 c hcw
      rw [if_neg (ne_true_of_eq_false plain)]
      rfl
    have kept : trimChars (collapse s.toList) = s.toList := by
      rw [hs, collapse_words fun w hw => (hwords w hw).1, trimChars_words fun w hw => (hwords w hw).1]
    rw [uncontrolled, kept, List.take_of_length_le short]
    rw [hs]
    exact ⟨intercalate_ne_nil hne fun w hw => (hwords w hw).1, rfl⟩

end Protocol

/-- What the server promises of a note it took: text in single-spaced words, of a bounded length. -/
structure Sanitized (s : String) : Prop where
  nonempty : s.toList ≠ []
  short : s.toList.length ≤ Protocol.maxNoteChars
  printable : ∀ c ∈ s.toList, isControl c = false
  /-- the only whitespace is the space, and it stands alone -/
  spaces : ∀ c ∈ s.toList, isWhitespace c → c = ' '
  single : s.toList.IsChain fun a b => ¬ (isWhitespace a ∧ isWhitespace b)
  head : ∀ c ∈ s.toList.head?, isWhitespace c = false
  last : ∀ c ∈ s.toList.getLast?, isWhitespace c = false

/-- The words of a note, single-spaced: control characters count as whitespace. -/
def spacedWords (note : String) : List Char :=
  collapse (note.toList.map fun c => if isControl c then ' ' else c)

theorem Tidy.sanitized {s : String} (h : Tidy s) : Sanitized s := by
  obtain ⟨short, words, hne, hwords, hs⟩ := h
  have hword : ∀ w ∈ words, Word w := fun w hw => (hwords w hw).1
  constructor
  · rw [hs]
    exact intercalate_ne_nil hne hword
  · exact short
  · intro c hc
    rw [hs] at hc
    rcases mem_intercalate hc with rfl | ⟨w, hw, hcw⟩
    · rfl
    · exact (hwords w hw).2 c hcw
  · intro c hc hwhite
    rw [hs] at hc
    rcases mem_intercalate hc with rfl | ⟨w, hw, hcw⟩
    · rfl
    · rw [(hword w hw).solid c hcw] at hwhite
      cases hwhite
  · rw [hs]
    exact chain_words hword
  · rw [hs]
    exact head_words hword
  · rw [hs]
    exact last_words hword

namespace Protocol

theorem trimChars_spacedWords (note : String) : trimChars (spacedWords note) = spacedWords note := by
  obtain ⟨words, hwords, heq⟩ := collapse_eq (note.toList.map fun c => if isControl c then ' ' else c)
  rw [spacedWords, heq]
  exact trimChars_words fun w hw => (hwords w hw).1

theorem sanitizeNote_eq_cut {raw note : String} :
    sanitizeNote raw = some note ↔ spacedWords raw ≠ [] ∧ note.toList = (spacedWords raw).take maxNoteChars := by
  rw [sanitizeNote_eq_some]
  have trimmed := trimChars_spacedWords raw
  rw [spacedWords] at trimmed
  rw [trimmed, spacedWords]

theorem extractSubject_build (note : String) :
    extractSubject (buildRumorTags (some note)) = (sanitizeNote note).bind sanitizeNote := by
  unfold buildRumorTags
  rw [Option.bind_some]
  cases sanitizeNote note with
  | none => rfl
  | some r => rfl

/-- A note cut anywhere but behind a space is tidy. -/
theorem tidy_of_cut {note r : String} (h : sanitizeNote note = some r)
    (hcut : (spacedWords note)[maxNoteChars - 1]? ≠ some ' ') : Tidy r := by
  obtain ⟨hne, hr⟩ := sanitizeNote_eq_cut.1 h
  obtain ⟨words, hwords, heq⟩ := sanitized_words note
  have heq : spacedWords note = [' '].intercalate words := (trimChars_spacedWords note).symm.trans heq
  have hword : ∀ w ∈ words, Word w := fun w hw => (hwords w hw).1
  rw [heq] at hne hr hcut
  have whole := last_words hword
  have last : ∀ c ∈ (([' '].intercalate words).take maxNoteChars).getLast?, isWhitespace c = false := by
    intro c hc
    by_cases hlen : ([' '].intercalate words).length ≤ maxNoteChars
    · rw [List.take_of_length_le hlen] at hc
      exact whole c hc
    · have at255 : ([' '].intercalate words)[maxNoteChars - 1]? = some c := by
        rw [List.getLast?_eq_getElem?, List.length_take, Nat.min_eq_left (by omega), List.getElem?_take_of_lt (by decide)] at hc
        exact Option.mem_def.1 hc
      rcases mem_intercalate (List.mem_of_getElem? at255) with rfl | ⟨w, hw, hcw⟩
      · exact absurd at255 hcut
      · exact (hword w hw).solid c hcw
  obtain ⟨words', hwords', heq'⟩ := take_words hword maxNoteChars last
  refine ⟨?_, words', ?_, fun w' hw' => ⟨(hwords' w' hw').1, fun c hc => ?_⟩, hr.trans heq'⟩
  · rw [hr]
    exact List.length_take_le _ _
  · rintro rfl
    rw [List.intercalate_nil, List.take_eq_nil_iff] at heq'
    rcases heq' with hzero | hnil
    · cases hzero
    · exact hne hnil
  · obtain ⟨w, hw, hsub⟩ := (hwords' w' hw').2
    exact (hwords w hw).2 c (hsub hc)

end Protocol

/-- A note reads back from the tags it was put in as it was sanitized, and what was sanitized is clean, if and only
if the cut to length does not fall behind a space. -/
theorem subject_iff (note : String) :
    (Protocol.extractSubject (Protocol.buildRumorTags (some note)) = Protocol.sanitizeNote note ∧
      ∀ r, Protocol.sanitizeNote note = some r → Sanitized r ∧ Protocol.sanitizeNote r = some r) ↔
      (spacedWords note)[Protocol.maxNoteChars - 1]? ≠ some ' ' := by
  constructor
  · rintro ⟨-, clean⟩ hcut
    have hne : spacedWords note ≠ [] := by
      intro hnil
      rw [hnil] at hcut
      cases hcut
    have hlen : Protocol.maxNoteChars - 1 < (spacedWords note).length := (List.getElem?_eq_some_iff.1 hcut).1
    have hlast : ((spacedWords note).take Protocol.maxNoteChars).getLast? = some ' ' := by
      have hmax : Protocol.maxNoteChars ≤ (spacedWords note).length := by
        unfold Protocol.maxNoteChars at hlen ⊢
        omega
      rw [List.getLast?_eq_getElem?, List.length_take, Nat.min_eq_left hmax, List.getElem?_take_of_lt (by decide)]
      exact hcut
    have kept := Protocol.sanitizeNote_eq_cut.2 ⟨hne, String.toList_ofList⟩
    have last := (clean _ kept).1.last ' '
    rw [String.toList_ofList] at last
    cases last (Option.mem_def.2 hlast)
  · intro hcut
    rw [Protocol.extractSubject_build]
    have stays : ∀ r, Protocol.sanitizeNote note = some r → Sanitized r ∧ Protocol.sanitizeNote r = some r := by
      intro r hr
      have tidy := Protocol.tidy_of_cut hr hcut
      exact ⟨tidy.sanitized, Protocol.sanitizeNote_eq_self.2 tidy⟩
    refine ⟨?_, stays⟩
    cases hr : Protocol.sanitizeNote note with
    | none => rfl
    | some r =>
      rw [Option.bind_some]
      exact (stays r hr).2

/-- Letters, a space and one more letter. -/
def letters (n : Nat) : String := String.ofList ([' '].intercalate [List.replicate (n + 1) 'y', ['z']])

theorem spacedWords_letters (n : Nat) : spacedWords (letters n) = List.replicate (n + 1) 'y' ++ [' ', 'z'] := by
  have hword : ∀ w ∈ [List.replicate (n + 1) 'y', ['z']], Word w := by
    intro w hw
    rcases List.mem_pair.1 hw with rfl | rfl
    · exact ⟨by simp, fun c hc => by rw [List.eq_of_mem_replicate hc]; rfl⟩
    · exact ⟨by simp, fun c hc => by rw [List.mem_singleton.1 hc]; rfl⟩
  have joined : [' '].intercalate [List.replicate (n + 1) 'y', ['z']] = List.replicate (n + 1) 'y' ++ [' ', 'z'] := by
    rw [List.intercalate_cons_cons, List.intercalate_singleton, List.append_assoc, List.singleton_append]
  have plain : (letters n).toList.map (fun c => if isControl c then ' ' else c) = (letters n).toList := by
    rw [letters, String.toList_ofList, joined, List.map_append, List.map_replicate]
    rfl
  rw [spacedWords, plain, letters, String.toList_ofList, collapse_words hword, joined]

theorem take_letters (n : Nat) : (List.replicate n 'y' ++ [' ', 'z']).take (n + 1) = List.replicate n 'y' ++ [' '] := by
  have cut : (List.replicate n 'y' ++ [' ', 'z']).take ((List.replicate n 'y').length + 1) =
      List.replicate n 'y' ++ [' ', 'z'].take 1 := List.take_length_add_append 1
  rw [List.length_replicate] at cut
  exact cut

/-- The cut behind 255 letters leaves the space at the end. -/
theorem longNote_trimmed :
    ¬ (Protocol.extractSubject (Protocol.buildRumorTags (some (letters 254))) = Protocol.sanitizeNote (letters 254) ∧
      ∀ r, Protocol.sanitizeNote (letters 254) = some r → Sanitized r ∧ Protocol.sanitizeNote r = some r) := by
  rintro ⟨-, clean⟩
  have some : spacedWords (letters 254) ≠ [] := by
    rw [spacedWords_letters]
    exact List.append_ne_nil_of_right_ne_nil _ (List.cons_ne_nil _ _)
  have kept := Protocol.sanitizeNote_eq_cut.2 ⟨some, String.toList_ofList⟩
  have last := (clean _ kept).1.last ' '
  rw [String.toList_ofList, spacedWords_letters, Protocol.maxNoteChars, take_letters, List.getLast?_concat] at last
  cases last (Option.mem_def.2 rfl)

end GoblinPay
