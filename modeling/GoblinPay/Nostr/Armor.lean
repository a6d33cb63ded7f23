import GoblinPay.Nostr.Ingest

/-!
# The armor blocks of a message

`Matches` is what a leftmost, non-greedy search for `BEGINSLATEPACK.` … `ENDSLATEPACK.` finds in a text,
`blocks` computes it, and `extractSlatepack_eq` says what the server does with it.
-/

namespace GoblinPay.Protocol

/-- The complete armor blocks of a text, as a search from the left finds them that takes the next end
after each begin. -/
def blocks (cs : List Char) : List (List Char) :=
  match _start : Text.find armorBegin cs with
  | none => []
  | some start =>
    match _end : Text.find armorEnd start with
    | none => []
    | some fromEnd =>
      start.take (start.length - (fromEnd.drop armorEnd.length).length) :: blocks (fromEnd.drop armorEnd.length)
termination_by cs.length
decreasing_by
  have hle := Text.find_length_le _start
  have hle' := Text.find_length_le _end
  have hpos := (Text.find_prefix _end).length_le
  have harmor : armorEnd.length = 13 := rfl
  simp only [List.length_drop]
  omega

theorem blocks_eq {cs start fromEnd : List Char} (hstart : Text.find armorBegin cs = some start)
    (hend : Text.find armorEnd start = some fromEnd) :
    blocks cs = start.take (start.length - (fromEnd.drop armorEnd.length).length) :: blocks (fromEnd.drop armorEnd.length) := by
  rw [blocks]
  split
  · rename_i h
    rw [h] at hstart
    cases hstart
  · rename_i start' h
    obtain rfl : start = start' := by
      rw [h] at hstart
      exact (Option.some.inj hstart).symm
    split
    · rename_i h
      rw [h] at hend
      cases hend
    · rename_i fromEnd' h
      obtain rfl : fromEnd = fromEnd' := by
        rw [h] at hend
        exact (Option.some.inj hend).symm
      rfl

theorem blocks_eq_nil {cs : List Char} (h : ∀ start, Text.find armorBegin cs = some start → Text.find armorEnd start = none) :
    blocks cs = [] := by
  rw [blocks]
  split
  · rfl
  · rename_i start hstart
    split
    · rfl
    · rename_i fromEnd hend
      rw [h start hstart] at hend
      cases hend

/-! ## What the search finds -/

/-- A text of the pattern: a begin marker, any characters and an end marker. -/
def Block (m : List Char) : Prop := ∃ mid, m = armorBegin ++ mid ++ armorEnd

/-- The next match of a text: no match starts further left, and no match that starts there is shorter. -/
structure Next (cs before m after : List Char) : Prop where
  split : cs = before ++ m ++ after
  block : Block m
  leftmost : ∀ before' m' after', cs = before' ++ m' ++ after' → Block m' → before.length ≤ before'.length
  shortest : ∀ m' after', cs = before ++ m' ++ after' → Block m' → m.length ≤ m'.length

/-- The matches of a text from left to right, each searched for behind the one before. -/
inductive Matches : List Char → List (List Char) → Prop
  | done {cs : List Char} (h : ∀ before m after, cs = before ++ m ++ after → ¬ Block m) : Matches cs []
  | found {cs before m after : List Char} {ms : List (List Char)} (h : Next cs before m after) (rest : Matches after ms) :
    Matches cs (m :: ms)

/-- The two markers do not overlap: an end is searched for behind the begin. -/
theorem find_armorEnd (tail : List Char) : Text.find armorEnd (armorBegin ++ tail) = Text.find armorEnd tail := by
  rfl

/-- How the first complete block lies in a text, seen from the two searches. -/
structure Layout (cs start fromEnd before mid after : List Char) : Prop where
  text : cs = before ++ start
  start : start = armorBegin ++ (mid ++ fromEnd)
  fromEnd : fromEnd = armorEnd ++ after

theorem layout_of_find {cs start fromEnd : List Char} (hstart : Text.find armorBegin cs = some start)
    (hend : Text.find armorEnd start = some fromEnd) : ∃ before mid after, Layout cs start fromEnd before mid after := by
  obtain ⟨before, hcs⟩ := Text.find_eq_append hstart
  obtain ⟨tail, htail⟩ := Text.find_prefix hstart
  rw [← htail, find_armorEnd] at hend
  obtain ⟨mid, hmid⟩ := Text.find_eq_append hend
  obtain ⟨after, hafter⟩ := Text.find_prefix hend
  exact ⟨before, mid, after, hcs, by rw [← htail, hmid], hafter.symm⟩

namespace Layout

variable {cs start fromEnd before mid after : List Char}

theorem rest_eq (h : Layout cs start fromEnd before mid after) : fromEnd.drop armorEnd.length = after := by
  rw [h.fromEnd, List.drop_left]

theorem start_eq (h : Layout cs start fromEnd before mid after) : start = armorBegin ++ mid ++ armorEnd ++ after := by
  rw [h.start, h.fromEnd]
  simp only [List.append_assoc]

theorem text_eq (h : Layout cs start fromEnd before mid after) : cs = before ++ (armorBegin ++ mid ++ armorEnd) ++ after := by
  rw [h.text, h.start_eq]
  simp only [List.append_assoc]

theorem block_eq (h : Layout cs start fromEnd before mid after) :
    start.take (start.length - (fromEnd.drop armorEnd.length).length) = armorBegin ++ mid ++ armorEnd := by
  rw [h.rest_eq, h.start_eq]
  have hlen : (armorBegin ++ mid ++ armorEnd ++ after).length - after.length = (armorBegin ++ mid ++ armorEnd).length := by
    simp only [List.length_append]
    omega
  rw [hlen, List.take_left]

theorem next (h : Layout cs start fromEnd before mid after) (hstart : Text.find armorBegin cs = some start)
    (hend : Text.find armorEnd start = some fromEnd) : Next cs before (armorBegin ++ mid ++ armorEnd) after where
  split := h.text_eq
  block := ⟨mid, rfl⟩
  leftmost before' m' after' hcs hm' := by
    obtain ⟨mid', rfl⟩ := hm'
    have hcs' : cs = before' ++ (armorBegin ++ (mid' ++ armorEnd ++ after')) := by
      rw [hcs]
      simp only [List.append_assoc]
    have hfirst := Text.find_first hstart hcs' (List.prefix_append _ _)
    have hlen := congrArg List.length (h.text.symm.trans hcs')
    rw [List.length_append, List.length_append] at hlen
    omega
  shortest m' after' hcs hm' := by
    obtain ⟨mid', rfl⟩ := hm'
    have hstart' : start = (armorBegin ++ mid') ++ (armorEnd ++ after') := by
      have hcs' : before ++ start = before ++ ((armorBegin ++ mid') ++ (armorEnd ++ after')) := by
        rw [← h.text, hcs]
        simp only [List.append_assoc]
      exact List.append_cancel_left hcs'
    have hfirst := Text.find_first hend hstart' (List.prefix_append _ _)
    have hlen := congrArg List.length (h.start.symm.trans hstart')
    have hfrom := congrArg List.length h.fromEnd
    simp only [List.length_append] at hlen hfirst hfrom ⊢
    omega

end Layout

theorem no_block {cs : List Char} (h : ∀ start, Text.find armorBegin cs = some start → Text.find armorEnd start = none)
    (before m after : List Char) (hcs : cs = before ++ m ++ after) : ¬ Block m := by
  rintro ⟨mid, rfl⟩
  have hcs' : cs = before ++ (armorBegin ++ (mid ++ (armorEnd ++ after))) := by
    rw [hcs]
    simp only [List.append_assoc]
  cases hstart : Text.find armorBegin cs with
  | none => exact Text.not_prefix_of_find hstart hcs' (List.prefix_append _ _)
  | some start =>
    obtain ⟨skipped, hskipped⟩ := Text.find_eq_append hstart
    have hfirst := Text.find_first hstart hcs' (List.prefix_append _ _)
    -- the block begins inside `start`, and so its end lies there
    obtain ⟨inner, hinner⟩ : ∃ inner, start = inner ++ (armorBegin ++ (mid ++ (armorEnd ++ after))) := by
      refine List.suffix_of_suffix_length_le ⟨before, hcs'.symm⟩ ⟨skipped, hskipped.symm⟩ hfirst |>.imp ?_
      intro inner hinner
      exact hinner.symm
    refine Text.not_prefix_of_find (h start hstart) (p := inner ++ armorBegin ++ mid) ?_ (List.prefix_append armorEnd after)
    rw [hinner]
    simp only [List.append_assoc]

/-- The search finds the matches. -/
theorem matches_blocks (cs : List Char) : Matches cs (blocks cs) := by
  induction hlen : cs.length using Nat.strongRecOn generalizing cs with
  | _ n ih =>
    by_cases hno : ∀ start, Text.find armorBegin cs = some start → Text.find armorEnd start = none
    · rw [blocks_eq_nil hno]
      exact .done (no_block hno)
    · push Not at hno
      obtain ⟨start, hstart, hend⟩ := hno
      obtain ⟨fromEnd, hend⟩ := Option.ne_none_iff_exists'.1 hend
      obtain ⟨before, mid, after, hl⟩ := layout_of_find hstart hend
      rw [blocks_eq hstart hend, hl.block_eq, hl.rest_eq]
      refine .found (hl.next hstart hend) (ih after.length ?_ after rfl)
      have htext := congrArg List.length hl.text_eq
      have hmarker : armorEnd.length = 13 := rfl
      simp only [List.length_append] at htext
      omega

/-- A text has one next match. -/
theorem Next.unique {cs before m after before' m' after' : List Char} (h : Next cs before m after)
    (h' : Next cs before' m' after') : m = m' ∧ after = after' := by
  have hbefore : before = before' := by
    have hle := h.leftmost _ _ _ h'.split h'.block
    have hge := h'.leftmost _ _ _ h.split h.block
    have hcs := h.split.symm.trans h'.split
    rw [List.append_assoc, List.append_assoc] at hcs
    exact (List.append_inj hcs (Nat.le_antisymm hle hge)).1
  subst hbefore
  have hle := h.shortest _ _ h'.split h'.block
  have hge := h'.shortest _ _ h.split h.block
  have hcs := h.split.symm.trans h'.split
  rw [List.append_assoc, List.append_assoc] at hcs
  exact List.append_inj (List.append_cancel_left hcs) (Nat.le_antisymm hle hge)

theorem Matches.unique {cs : List Char} {ms ms' : List (List Char)} (h : Matches cs ms) (h' : Matches cs ms') : ms = ms' := by
  induction h generalizing ms' with
  | done hno =>
    cases h' with
    | done _ => rfl
    | found hn _ => exact absurd hn.block (hno _ _ _ hn.split)
  | found hn _ ih =>
    cases h' with
    | done hno => exact absurd hn.block (hno _ _ _ hn.split)
    | found hn' hrest' =>
      obtain ⟨rfl, rfl⟩ := hn.unique hn'
      rw [ih hrest']

theorem matches_iff {cs : List Char} {ms : List (List Char)} : Matches cs ms ↔ ms = blocks cs :=
  ⟨fun h => h.unique (matches_blocks cs), fun h => h ▸ matches_blocks cs⟩

/-! ## What the server takes -/

theorem Block.trim_eq {m : List Char} (h : Block m) : Text.trimChars m = m := by
  obtain ⟨mid, rfl⟩ := h
  apply Text.trimChars_eq_self
  · intro c hc
    obtain rfl : 'B' = c := Option.some.inj hc
    rfl
  · intro c hc
    rw [List.getLast?_append_of_ne_nil _ (by decide)] at hc
    obtain rfl : '.' = c := Option.some.inj hc
    rfl

/-- The server takes the one block of a text, when both fit their limits. -/
theorem extractSlatepack_eq (content : String) :
    extractSlatepack content =
      if maxRumorContent < Text.bytes content.toList then none
      else
        match blocks content.toList with
        | [block] => if maxSlatepack < Text.bytes block then none else some (String.ofList block)
        | _ => none := by
  unfold extractSlatepack
  dsimp only
  split
  · rfl
  cases hstart : Text.find armorBegin content.toList with
  | none =>
    rw [blocks_eq_nil fun start h => absurd (hstart.symm.trans h) nofun]
    rfl
  | some start =>
    cases hend : Text.find armorEnd start with
    | none =>
      rw [blocks_eq_nil fun start' h => Option.some.inj (hstart.symm.trans h) ▸ hend]
      simp only [Option.bind_eq_bind, Option.bind_some, hend, Option.bind_none]
    | some fromEnd =>
      obtain ⟨before, mid, after, hl⟩ := layout_of_find hstart hend
      have htrim := Block.trim_eq ⟨mid, rfl⟩
      have hblock := hl.block_eq
      rw [hl.rest_eq] at hblock
      simp only [Option.bind_eq_bind, Option.bind_some, hend, blocks_eq hstart hend, hl.rest_eq, hblock, htrim]
      cases hnext : Text.find armorBegin after with
      | none =>
        rw [blocks_eq_nil fun start h => absurd (hnext.symm.trans h) nofun]
        simp only [Bool.false_eq_true, if_false]
      | some next =>
        cases hlast : Text.find armorEnd next with
        | none =>
          rw [blocks_eq_nil fun start h => Option.some.inj (hnext.symm.trans h) ▸ hlast]
          simp only [hlast, Option.isSome_none, Bool.false_eq_true, if_false]
        | some fromLast =>
          rw [blocks_eq hnext hlast]
          simp only [hlast, Option.isSome_some, if_true]

theorem extractSlatepack_block {content armor : String} (h : extractSlatepack content = some armor) :
    ∃ block, blocks content.toList = [block] ∧ armor = String.ofList block := by
  rw [extractSlatepack_eq] at h
  split at h
  · cases h
  · split at h
    · rename_i block hblock
      split at h
      · cases h
      · exact ⟨block, hblock, (Option.some.inj h).symm⟩
    · cases h

/-! ## By byte offsets -/

theorem find_cases (pat cs : List Char) :
    Text.find pat cs = none ∧ Text.findAt pat cs = none ∨
      ∃ p r, Text.find pat cs = some r ∧ cs = p ++ r ∧ Text.findAt pat cs = some (Text.bytes p) := by
  cases h : Text.find pat cs with
  | none => exact Or.inl ⟨rfl, Text.findAt_eq_none h⟩
  | some r =>
    obtain ⟨p, hp, hat⟩ := Text.findAt_eq_some h
    exact Or.inr ⟨p, r, rfl, hp, hat⟩

theorem ambiguousAt_eq (rest : List Char) : ambiguousAt rest = .ok (!(blocks rest).isEmpty) := by
  unfold ambiguousAt
  rcases find_cases armorBegin rest with ⟨hstart, hat⟩ | ⟨p, next, hstart, hp, hat⟩
  · rw [hat, blocks_eq_nil fun start h => absurd (hstart.symm.trans h) nofun]
    rfl
  have hslice : Text.sliceFrom (Text.bytes p) rest = .ok next := by
    rw [hp]
    exact Text.sliceFrom_bytes p next
  rcases find_cases armorEnd next with ⟨hend, hat'⟩ | ⟨q, fromEnd, hend, -, hat'⟩
  · rw [hat, blocks_eq_nil fun start h => Option.some.inj (hstart.symm.trans h) ▸ hend]
    simp only [hslice, bind, Except.bind, hat']
    rfl
  · rw [hat, blocks_eq hstart hend]
    simp only [hslice, bind, Except.bind, hat']
    rfl

/-- Every offset the server slices at is one a search answered. -/
theorem extractSlatepackAt_eq (content : String) : extractSlatepackAt content = .ok (extractSlatepack content) := by
  rw [extractSlatepack_eq]
  unfold extractSlatepackAt
  dsimp only
  split
  · rfl
  rcases find_cases armorBegin content.toList with ⟨hstart, hat⟩ | ⟨p, start, hstart, hcs, hat⟩
  · rw [hat, blocks_eq_nil fun start h => absurd (hstart.symm.trans h) nofun]
    rfl
  have hfrom : Text.sliceFrom (Text.bytes p) content.toList = .ok start := by
    rw [hcs]
    exact Text.sliceFrom_bytes p start
  rcases find_cases armorEnd start with ⟨hend, hat'⟩ | ⟨inner, fromEnd, hend, hinner, hat'⟩
  · rw [hat, blocks_eq_nil fun start h => Option.some.inj (hstart.symm.trans h) ▸ hend]
    simp only [hfrom, bind, Except.bind, hat']
    rfl
  obtain ⟨before, mid, after, hl⟩ := layout_of_find hstart hend
  have hp : p = before := List.append_cancel_right (hcs.symm.trans hl.text)
  have hi : inner = armorBegin ++ mid := by
    have hsame := hinner.symm.trans hl.start
    rw [← List.append_assoc] at hsame
    exact List.append_cancel_right hsame
  subst hp hi
  have hstop : Text.bytes p + Text.bytes (armorBegin ++ mid) + Text.bytes armorEnd =
      Text.bytes p + Text.bytes (armorBegin ++ mid ++ armorEnd) := by
    rw [Text.bytes_append (armorBegin ++ mid), Nat.add_assoc]
  have htail : Text.sliceFrom (Text.bytes p + Text.bytes (armorBegin ++ mid ++ armorEnd)) content.toList = .ok after := by
    rw [hl.text_eq, ← Text.bytes_append]
    exact Text.sliceFrom_bytes _ after
  have hcut : Text.slice (Text.bytes p) (Text.bytes p + Text.bytes (armorBegin ++ mid ++ armorEnd)) content.toList =
      .ok (armorBegin ++ mid ++ armorEnd) := by
    rw [hl.text_eq]
    exact Text.slice_bytes p (armorBegin ++ mid ++ armorEnd) after
  have htrim := Block.trim_eq ⟨mid, rfl⟩
  rw [hat, blocks_eq hstart hend, hl.block_eq, hl.rest_eq]
  simp only [bind, Except.bind, hfrom, hat', hstop, htail, hcut, ambiguousAt_eq, htrim]
  cases blocks after with
  | nil =>
    simp only [List.isEmpty_nil, Bool.not_true, Bool.false_eq_true, if_false]
    split <;> rfl
  | cons block more => rfl

/-- A message yields its only match, whatever its text, and no slice on the way is off a boundary. -/
theorem extractSlatepack_iff (content : String) :
    ∃ found, extractSlatepackAt content = .ok found ∧
      ∀ a, found = some a ↔
        Text.bytes content.toList ≤ maxRumorContent ∧
          ∃ m, Matches content.toList [m] ∧ Text.bytes m ≤ maxSlatepack ∧ a = String.ofList m := by
  refine ⟨_, extractSlatepackAt_eq content, ?_⟩
  intro a
  constructor
  · intro h
    obtain ⟨block, hblock, rfl⟩ := extractSlatepack_block h
    rw [extractSlatepack_eq, hblock] at h
    split at h
    · cases h
    rename_i hcontent
    dsimp only at h
    split at h
    · cases h
    rename_i hfits
    exact ⟨Nat.le_of_not_lt hcontent, block, matches_iff.2 hblock.symm, Nat.le_of_not_lt hfits, rfl⟩
  · rintro ⟨hcontent, m, hm, hfits, rfl⟩
    rw [extractSlatepack_eq, ← matches_iff.1 hm, if_neg (Nat.not_lt.2 hcontent)]
    exact if_neg (Nat.not_lt.2 hfits)

/-! ## Round trip -/

theorem blocks_single {p t : List Char} (hp : 'B' ∉ p) (hbegin : armorBegin <+: t) (hend : armorEnd <:+ t)
    (honly : ∀ q r, t = q ++ armorEnd ++ r → r = []) : blocks (p ++ t) = [t] ∧ Block t := by
  obtain ⟨tail, rfl⟩ := hbegin
  have hstart : Text.find armorBegin (p ++ (armorBegin ++ tail)) = some (armorBegin ++ tail) :=
    Text.find_append_of_notMem hp
  obtain ⟨q, hq⟩ := hend
  cases hfound : Text.find armorEnd (armorBegin ++ tail) with
  | none => exact absurd List.prefix_rfl (Text.not_prefix_of_find hfound hq.symm)
  | some fromEnd =>
    obtain ⟨before, mid, after, hl⟩ := layout_of_find hstart hfound
    obtain rfl : after = [] := honly _ _ hl.start_eq
    have hall : armorBegin ++ tail = armorBegin ++ mid ++ armorEnd := by
      rw [hl.start_eq, List.append_nil]
    have hnone : Text.find armorBegin [] = none := rfl
    rw [blocks_eq hstart hfound, hl.block_eq, hl.rest_eq, ← hall,
      blocks_eq_nil fun start h => absurd (hnone.symm.trans h) nofun]
    exact ⟨rfl, mid, hall⟩

/-- The preamble and the blank line hold no marker and leave room for any armor the wallet takes. -/
theorem preamble_fits : 'B' ∉ (preamble ++ "\n\n").toList ∧
    Text.bytes (preamble ++ "\n\n").toList + maxSlatepack ≤ maxRumorContent := by
  decide

/-- The reply to a payer decodes to the response it was built from. -/
theorem extract_buildPaymentContent {armor : String} (hbegin : armorBegin <+: Text.trimChars armor.toList)
    (hend : armorEnd <:+ Text.trimChars armor.toList)
    (honly : ∀ q r, Text.trimChars armor.toList = q ++ armorEnd ++ r → r = [])
    (hsize : Text.bytes (Text.trimChars armor.toList) ≤ maxSlatepack) :
    extractSlatepackAt (buildPaymentContent armor) = .ok (some (Text.trim armor)) ∧
      ∀ sender payer, extractSlatepackAt (Ingest.buildReply sender payer armor).content = .ok (some (Text.trim armor)) := by
  have htext : (buildPaymentContent armor).toList = (preamble ++ "\n\n").toList ++ Text.trimChars armor.toList := by
    rw [buildPaymentContent, String.toList_append, Text.trim, String.toList_ofList]
  obtain ⟨hno, hroom⟩ := preamble_fits
  obtain ⟨hblocks, -⟩ := blocks_single hno hbegin hend honly
  have hfits : ¬ maxRumorContent < Text.bytes (buildPaymentContent armor).toList := by
    rw [htext, Text.bytes_append]
    omega
  have hdecodes : extractSlatepackAt (buildPaymentContent armor) = .ok (some (Text.trim armor)) := by
    rw [extractSlatepackAt_eq, extractSlatepack_eq, if_neg hfits, htext, hblocks]
    dsimp only
    rw [if_neg (Nat.not_lt.2 hsize)]
    rfl
  exact ⟨hdecodes, fun _ _ => hdecodes⟩

theorem extract_buildPaymentContent_sample :
    extractSlatepackAt (buildPaymentContent " BEGINSLATEPACK. 4H1. ENDSLATEPACK.\n") =
        .ok (some (Text.trim " BEGINSLATEPACK. 4H1. ENDSLATEPACK.\n")) ∧
      ∀ sender payer, extractSlatepackAt (Ingest.buildReply sender payer " BEGINSLATEPACK. 4H1. ENDSLATEPACK.\n").content =
        .ok (some (Text.trim " BEGINSLATEPACK. 4H1. ENDSLATEPACK.\n")) := by
  apply extract_buildPaymentContent
  · decide
  · decide
  · intro q r h
    have hfound : Text.find armorEnd (Text.trimChars " BEGINSLATEPACK. 4H1. ENDSLATEPACK.\n".toList) = some armorEnd := by
      decide
    have hlast := Text.find_first hfound (h.trans (List.append_assoc q armorEnd r)) (List.prefix_append armorEnd r)
    rw [List.length_append] at hlast
    exact List.eq_nil_of_length_eq_zero (by omega)
  · decide

end GoblinPay.Protocol
