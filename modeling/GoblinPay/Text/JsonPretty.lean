import GoblinPay.Text.Json

/-!
# Pretty JSON

An object of plain values the way `serde_json::to_string_pretty` writes it, a member to a line, and what the reader makes of
it.
-/

namespace GoblinPay.Json

/-- Behind the first member. -/
def prettyMembers : List (String × Json) → List Char
  | [] => ['\n', '}']
  | (key, value) :: members => ',' :: '\n' :: ' ' :: ' ' :: (renderString key ++ ':' :: ' ' :: (render value ++ prettyMembers members))

/-- An object none of whose members is a container. -/
def renderPretty : List (String × Json) → List Char
  | [] => ['{', '}']
  | (key, value) :: members => '{' :: '\n' :: ' ' :: ' ' :: (renderString key ++ ':' :: ' ' :: (render value ++ prettyMembers members))

theorem skip_space {c : Char} (h : isSpace c = true) (cs : List Char) : skip (c :: cs) = skip cs := List.dropWhile_cons_of_pos h

/-- A value may stand behind a space. -/
theorem readValue_space (fuel depth : Nat) (cs : List Char) : readValue (fuel + 1) depth (' ' :: cs) = readValue (fuel + 1) depth cs := by
  rw [readValue, readValue, skip_space rfl]

theorem readMember_space {c : Char} (h : isSpace c = true) (fuel depth : Nat) (cs : List Char) :
    readMember (fuel + 1) depth (c :: cs) = readMember (fuel + 1) depth cs := by
  rw [readMember, readMember, skip_space h]

theorem readMember_indented (fuel depth : Nat) (cs : List Char) :
    readMember (fuel + 1) depth ('\n' :: ' ' :: ' ' :: cs) = readMember (fuel + 1) depth cs := by
  rw [readMember_space rfl, readMember_space rfl, readMember_space rfl]

theorem readMember_pretty (key : String) {value : Json} {fuel depth : Nat} {rest : List Char} (hfuel : (renderString key).length ≤ fuel)
    (hvalue : readValue (fuel + 1) depth (render value ++ rest) = some (value, rest)) :
    readMember (fuel + 2) depth (renderString key ++ ':' :: ' ' :: (render value ++ rest)) = some ((key, value), rest) := by
  have short : key.toList.length < fuel + 1 := by
    have := length_escaped key.toList
    rw [renderString, List.length_cons, List.length_append, List.length_singleton] at hfuel
    omega
  have read := readString_render key.toList short (':' :: ' ' :: (render value ++ rest))
  have text : renderString key ++ ':' :: ' ' :: (render value ++ rest) =
      '"' :: (key.toList.flatMap escapeChar ++ '"' :: ':' :: ' ' :: (render value ++ rest)) := by
    rw [renderString, List.cons_append, List.append_assoc]
    rfl
  have step : ∀ {cs key rest : List Char}, readString (fuel + 1) cs = some (key, ':' :: rest) →
      readMember (fuel + 2) depth ('"' :: cs) = (readValue (fuel + 1) depth rest).bind fun r => some ((String.ofList key, r.1), r.2) := by
    intro cs key rest h
    show (readString (fuel + 1) cs).bind _ = _
    rw [h]
    rfl
  rw [text, step read, readValue_space, hvalue, Option.bind_some, String.ofList_toList]

theorem length_prettyMembers_pos (members : List (String × Json)) : 1 < (prettyMembers members).length := by
  cases members <;> simp [prettyMembers]

/-- Members that are strings, behind the first. -/
theorem readMembers_pretty (members : List (String × Json)) (hstrings : ∀ m ∈ members, ∃ s, m.2 = .string s) {fuel depth : Nat}
    {rest : List Char} (hfuel : (prettyMembers members).length < fuel) :
    readMembers fuel depth (prettyMembers members ++ rest) = some (members, rest) := by
  induction members generalizing fuel with
  | nil =>
    cases fuel with
    | zero => exact absurd hfuel (Nat.not_lt_zero _)
    | succ fuel => rfl
  | cons member members ih =>
    obtain ⟨key, value⟩ := member
    obtain ⟨s, rfl⟩ : ∃ s, value = .string s := hstrings (key, value) List.mem_cons_self
    have more := length_prettyMembers_pos members
    simp only [prettyMembers, List.length_cons, List.length_append] at hfuel
    obtain ⟨fuel, rfl⟩ : ∃ n, fuel = n + 3 := ⟨fuel - 3, by omega⟩
    have long : s.toList.length < fuel := by
      have escaped := length_escaped s.toList
      have quoted : (render (.string s)).length = (s.toList.flatMap escapeChar).length + 2 := by simp [render, renderString]
      omega
    have first : readValue (fuel + 1) depth (render (.string s) ++ (prettyMembers members ++ rest)) =
        some (.string s, prettyMembers members ++ rest) := readValue_string s long depth _
    have member := readMember_pretty key (by omega : _ ≤ fuel) first
    have behind := ih (fun m hm => hstrings m (List.mem_cons_of_mem _ hm)) (show _ < fuel + 2 by omega)
    have step : ∀ cs, readMembers (fuel + 3) depth (',' :: cs) = (readMember (fuel + 2) depth cs).bind fun first =>
        (readMembers (fuel + 2) depth first.2).bind fun others => some (first.1 :: others.1, others.2) := fun cs => rfl
    simp only [prettyMembers, List.cons_append, List.append_assoc]
    rw [step, readMember_indented, member, Option.bind_some]
    dsimp only
    rw [behind, Option.bind_some]

/-- An object whose first member is plain and whose others are strings is read as it was written. -/
theorem read_renderPretty {key : String} {value : Json} {members : List (String × Json)} {limit : Nat} (hplain : value.depth = 0)
    (hsome : members ≠ []) (hstrings : ∀ m ∈ members, ∃ s, m.2 = .string s) (hlimit : 1 < limit) :
    read limit (renderPretty ((key, value) :: members)) = some (.object ((key, value) :: members)) := by
  have delimited : Delimited (prettyMembers members) := by
    intro c hc
    obtain ⟨member, others, rfl⟩ := List.exists_cons_of_ne_nil hsome
    exact Or.inl (Option.some.inj hc).symm
  have more := length_prettyMembers_pos members
  have some := length_render_pos value
  obtain ⟨fuel, hfuel⟩ : ∃ n, (renderPretty ((key, value) :: members)).length = n + 4 := by
    refine ⟨(renderPretty ((key, value) :: members)).length - 4, ?_⟩
    simp only [renderPretty, List.length_cons, List.length_append]
    omega
  have room : (renderString key).length + (render value).length + (prettyMembers members).length = fuel - 2 ∧ 2 ≤ fuel := by
    simp only [renderPretty, List.length_cons, List.length_append] at hfuel
    omega
  have first : readValue (fuel + 2) (limit - 1) (render value ++ prettyMembers members) = Option.some (value, prettyMembers members) := by
    rw [readValue_render value (by omega) (by omega) delimited, if_pos (by omega)]
  have member := readMember_pretty key (by omega : _ ≤ fuel + 1) first
  have behind : readMembers (fuel + 3) (limit - 1) (prettyMembers members) = Option.some (members, []) := by
    have room' : (prettyMembers members).length < fuel + 3 := by omega
    have all : readMembers (fuel + 3) (limit - 1) (prettyMembers members ++ []) = Option.some (members, []) :=
      readMembers_pretty members hstrings room'
    rwa [List.append_nil] at all
  have enter : ∀ cs, readValue (fuel + 5) limit ('{' :: cs) =
      if limit ≤ 1 then none else (readObject (fuel + 4) (limit - 1) cs).map fun r => (.object r.1, r.2) := fun cs => rfl
  have step : ∀ cs, readObject (fuel + 4) (limit - 1) ('\n' :: ' ' :: ' ' :: '"' :: cs) =
      (readMember (fuel + 3) (limit - 1) ('\n' :: ' ' :: ' ' :: '"' :: cs)).bind fun first =>
        (readMembers (fuel + 3) (limit - 1) first.2).bind fun others => Option.some (first.1 :: others.1, others.2) := fun cs => rfl
  have quoted : renderString key ++ ':' :: ' ' :: (render value ++ prettyMembers members) =
      '"' :: (key.toList.flatMap escapeChar ++ ['"'] ++ ':' :: ' ' :: (render value ++ prettyMembers members)) := rfl
  have value : readValue (fuel + 5) limit (renderPretty ((key, value) :: members)) = Option.some (.object ((key, value) :: members), []) := by
    rw [renderPretty, enter, if_neg (by omega), quoted, step, ← quoted, readMember_indented, member, Option.bind_some]
    dsimp only
    rw [behind]
    rfl
  rw [read, hfuel, value]
  rfl

end GoblinPay.Json
