import GoblinPay.Text.Decimal
import GoblinPay.Text.Hex

/-!
# JSON

Values without floating-point numbers, their compact text, and a reader that enters containers up to a depth. A text
is a list of characters, and a reader gives back the rest of it.
-/

namespace GoblinPay

/-- `serde_json::Number` without its floats: a `u64`, or an `i64` below zero. -/
structure JsonNumber where
  val : Int
  low : -2 ^ 63 ≤ val
  high : val < 2 ^ 64
  deriving DecidableEq

inductive Json
  | null
  | bool (b : Bool)
  | number (n : JsonNumber)
  | string (s : String)
  | array (items : List Json)
  | object (members : List (String × Json))

namespace Json

/-! ## Writing -/

def escapeChar (c : Char) : List Char :=
  if c = '"' then ['\\', '"']
  else if c = '\\' then ['\\', '\\']
  else if c.toNat = 8 then ['\\', 'b']
  else if c.toNat = 9 then ['\\', 't']
  else if c.toNat = 10 then ['\\', 'n']
  else if c.toNat = 12 then ['\\', 'f']
  else if c.toNat = 13 then ['\\', 'r']
  else if c.toNat < 32 then ['\\', 'u', '0', '0', Hex.hexChar (c.toNat / 16), Hex.hexChar (c.toNat % 16)]
  else [c]

def renderString (s : String) : List Char := '"' :: (s.toList.flatMap escapeChar ++ ['"'])

def renderNumber (n : Int) : List Char := if n < 0 then '-' :: Nat.toDigits 10 n.natAbs else Nat.toDigits 10 n.natAbs

mutual

def render : Json → List Char
  | .null => ['n', 'u', 'l', 'l']
  | .bool true => ['t', 'r', 'u', 'e']
  | .bool false => ['f', 'a', 'l', 's', 'e']
  | .number n => renderNumber n.val
  | .string s => renderString s
  | .array [] => ['[', ']']
  | .array (item :: items) => '[' :: (render item ++ renderItems items)
  | .object [] => ['{', '}']
  | .object ((key, value) :: members) => '{' :: (renderString key ++ ':' :: (render value ++ renderMembers members))

/-- Behind the first item. -/
def renderItems : List Json → List Char
  | [] => [']']
  | item :: items => ',' :: (render item ++ renderItems items)

/-- Behind the first member. -/
def renderMembers : List (String × Json) → List Char
  | [] => ['}']
  | (key, value) :: members => ',' :: (renderString key ++ ':' :: (render value ++ renderMembers members))

end

mutual

/-- How many containers are entered at most. -/
def depth : Json → Nat
  | .null | .bool _ | .number _ | .string _ => 0
  | .array items => depthItems items + 1
  | .object members => depthMembers members + 1

def depthItems : List Json → Nat
  | [] => 0
  | item :: items => max (depth item) (depthItems items)

def depthMembers : List (String × Json) → Nat
  | [] => 0
  | (_, value) :: members => max (depth value) (depthMembers members)

end

/-! ## Reading -/

def isSpace (c : Char) : Bool := c = ' ' || c = '\n' || c = '\t' || c = '\r'

def skip (cs : List Char) : List Char := cs.dropWhile isSpace

def hex4 (a b c d : Char) : Option Nat := do
  let a ← Hex.hexDigit a
  let b ← Hex.hexDigit b
  let c ← Hex.hexDigit c
  let d ← Hex.hexDigit d
  pure (((a * 16 + b) * 16 + c) * 16 + d)

/-- The second half of a surrogate pair. -/
def lowSurrogate : List Char → Option (Nat × List Char)
  | '\\' :: 'u' :: a :: b :: c :: d :: rest => do
    let n ← hex4 a b c d
    if 0xDC00 ≤ n ∧ n ≤ 0xDFFF then some (n - 0xDC00, rest) else none
  | _ => none

/-- What follows a backslash. -/
def readEscape : List Char → Option (Char × List Char)
  | '"' :: rest => some ('"', rest)
  | '\\' :: rest => some ('\\', rest)
  | '/' :: rest => some ('/', rest)
  | 'b' :: rest => some (Char.ofNat 8, rest)
  | 'f' :: rest => some (Char.ofNat 12, rest)
  | 'n' :: rest => some ('\n', rest)
  | 'r' :: rest => some ('\r', rest)
  | 't' :: rest => some ('\t', rest)
  | 'u' :: a :: b :: c :: d :: rest => do
    let n ← hex4 a b c d
    if 0xD800 ≤ n ∧ n ≤ 0xDBFF then
      let (low, rest) ← lowSurrogate rest
      some (Char.ofNat (0x10000 + (n - 0xD800) * 0x400 + low), rest)
    else if 0xDC00 ≤ n ∧ n ≤ 0xDFFF then none
    else some (Char.ofNat n, rest)
  | _ => none

/-- A string behind its opening quote. -/
def readString : Nat → List Char → Option (List Char × List Char)
  | 0, _ => none
  | _ + 1, [] => none
  | fuel + 1, c :: cs =>
    if c = '"' then some ([], cs)
    else if c = '\\' then do
      let (d, rest) ← readEscape cs
      let (ds, rest) ← readString fuel rest
      some (d :: ds, rest)
    else if c.toNat < 32 then none
    else do
      let (ds, rest) ← readString fuel cs
      some (c :: ds, rest)

/-- Digits without a leading zero. A point or an exponent behind them makes a float. -/
def readNatural (cs : List Char) : Option (Nat × List Char) :=
  let digits := cs.takeWhile Char.isDigit
  let rest := cs.dropWhile Char.isDigit
  if digits = [] || (1 < digits.length && digits.head? = some '0') then none
  else if rest.head? = some '.' || rest.head? = some 'e' || rest.head? = some 'E' then none
  else some (Nat.ofDigitChars 10 digits 0, rest)

/-- What leaves the range of the integers is a float, and so is the zero with a sign. -/
def readNumber : List Char → Option (JsonNumber × List Char)
  | '-' :: cs => do
    let (n, rest) ← readNatural cs
    if h : 0 < n ∧ n ≤ 2 ^ 63 then some (⟨-n, by omega, by omega⟩, rest) else none
  | cs => do
    let (n, rest) ← readNatural cs
    if h : n < 2 ^ 64 then some (⟨n, by omega, by omega⟩, rest) else none

/-- The rest behind a word. -/
def readWord (word cs : List Char) : Option (List Char) := if word.isPrefixOf cs then some (cs.drop word.length) else none

mutual

/-- A value. `depth` is what is left of the recursion limit: entering a container takes one, and may not take the last. -/
def readValue : Nat → Nat → List Char → Option (Json × List Char)
  | 0, _, _ => none
  | fuel + 1, depth, cs =>
    match skip cs with
    | [] => none
    | c :: cs =>
      if c = 'n' then (readWord ['u', 'l', 'l'] cs).map fun rest => (.null, rest)
      else if c = 't' then (readWord ['r', 'u', 'e'] cs).map fun rest => (.bool true, rest)
      else if c = 'f' then (readWord ['a', 'l', 's', 'e'] cs).map fun rest => (.bool false, rest)
      else if c = '"' then (readString fuel cs).map fun (s, rest) => (.string (String.ofList s), rest)
      else if c = '[' then
        if depth ≤ 1 then none
        else (readArray fuel (depth - 1) cs).map fun (items, rest) => (.array items, rest)
      else if c = '{' then
        if depth ≤ 1 then none
        else (readObject fuel (depth - 1) cs).map fun (members, rest) => (.object members, rest)
      else (readNumber (c :: cs)).map fun (n, rest) => (.number n, rest)
termination_by structural fuel => fuel

def readArray : Nat → Nat → List Char → Option (List Json × List Char)
  | 0, _, _ => none
  | fuel + 1, depth, cs =>
    if (skip cs).head? = some ']' then some ([], (skip cs).tail)
    else do
      let (item, rest) ← readValue fuel depth cs
      let (items, rest) ← readItems fuel depth rest
      some (item :: items, rest)
termination_by structural fuel => fuel

def readItems : Nat → Nat → List Char → Option (List Json × List Char)
  | 0, _, _ => none
  | fuel + 1, depth, cs =>
    match skip cs with
    | ']' :: rest => some ([], rest)
    | ',' :: rest => do
      let (item, rest) ← readValue fuel depth rest
      let (items, rest) ← readItems fuel depth rest
      some (item :: items, rest)
    | _ => none
termination_by structural fuel => fuel

def readObject : Nat → Nat → List Char → Option (List (String × Json) × List Char)
  | 0, _, _ => none
  | fuel + 1, depth, cs =>
    if (skip cs).head? = some '}' then some ([], (skip cs).tail)
    else do
      let (member, rest) ← readMember fuel depth cs
      let (members, rest) ← readMembers fuel depth rest
      some (member :: members, rest)
termination_by structural fuel => fuel

def readMembers : Nat → Nat → List Char → Option (List (String × Json) × List Char)
  | 0, _, _ => none
  | fuel + 1, depth, cs =>
    match skip cs with
    | '}' :: rest => some ([], rest)
    | ',' :: rest => do
      let (member, rest) ← readMember fuel depth rest
      let (members, rest) ← readMembers fuel depth rest
      some (member :: members, rest)
    | _ => none
termination_by structural fuel => fuel

def readMember : Nat → Nat → List Char → Option ((String × Json) × List Char)
  | 0, _, _ => none
  | fuel + 1, depth, cs =>
    match skip cs with
    | '"' :: cs => do
      let (key, rest) ← readString fuel cs
      match skip rest with
      | ':' :: rest =>
        let (value, rest) ← readValue fuel depth rest
        some ((String.ofList key, value), rest)
      | _ => none
    | _ => none
termination_by structural fuel => fuel

end

/-- A text that is one value. -/
def read (depth : Nat) (cs : List Char) : Option Json :=
  match readValue (cs.length + 1) depth cs with
  | some (j, rest) => if skip rest = [] then some j else none
  | none => none

/-! ## Reading what was written -/

theorem char_of_toNat {c : Char} {n : Nat} (h : c.toNat = n) : Char.ofNat n = c := by rw [← h, Char.ofNat_toNat]

theorem hex4_small {n : Nat} (h : n < 32) : hex4 '0' '0' (Hex.hexChar (n / 16)) (Hex.hexChar (n % 16)) = some n := by
  have high := Hex.hexDigit_hexChar (show n / 16 < 16 by omega)
  have low := Hex.hexDigit_hexChar (show n % 16 < 16 by omega)
  have zero : Hex.hexDigit '0' = some 0 := rfl
  have value : ((0 * 16 + 0) * 16 + n / 16) * 16 + n % 16 = n := by omega
  rw [hex4, zero, high, low]
  exact congrArg some value

theorem readString_slash {escape rest : List Char} {c : Char} (h : readEscape escape = some (c, rest)) (fuel : Nat) :
    readString (fuel + 1) ('\\' :: escape) = (readString fuel rest).map fun (ds, rest) => (c :: ds, rest) := by
  rw [readString, if_neg (by decide), if_pos rfl, h, Option.bind_eq_bind, Option.bind_some]
  dsimp only
  cases readString fuel rest <;> rfl

/-- An escaped character is read as the character. -/
theorem readString_escapeChar (c : Char) (fuel : Nat) (rest : List Char) :
    readString (fuel + 1) (escapeChar c ++ rest) = (readString fuel rest).map fun (ds, rest) => (c :: ds, rest) := by
  have small : c.toNat < 32 → readEscape ('u' :: '0' :: '0' :: Hex.hexChar (c.toNat / 16) :: Hex.hexChar (c.toNat % 16) :: rest) =
      some (c, rest) := by
    intro hsmall
    have spelled := hex4_small hsmall
    have notHigh : ¬ (0xD800 ≤ c.toNat ∧ c.toNat ≤ 0xDBFF) := by omega
    have notLow : ¬ (0xDC00 ≤ c.toNat ∧ c.toNat ≤ 0xDFFF) := by omega
    refine (congrArg (Option.bind · _) spelled).trans ?_
    rw [Option.bind_some, if_neg notHigh, if_neg notLow, Char.ofNat_toNat]
  unfold escapeChar
  split
  · rename_i h
    rw [h]
    exact readString_slash rfl fuel
  split
  · rename_i h
    rw [h]
    exact readString_slash rfl fuel
  split
  · rename_i h
    rw [← char_of_toNat h]
    exact readString_slash rfl fuel
  split
  · rename_i h
    rw [← char_of_toNat h]
    exact readString_slash rfl fuel
  split
  · rename_i h
    rw [← char_of_toNat h]
    exact readString_slash rfl fuel
  split
  · rename_i h
    rw [← char_of_toNat h]
    exact readString_slash rfl fuel
  split
  · rename_i h
    rw [← char_of_toNat h]
    exact readString_slash rfl fuel
  split
  · rename_i h
    exact readString_slash (small h) fuel
  · rename_i hquote hslash _ _ _ _ _ hsmall
    rw [List.singleton_append, readString, if_neg hquote, if_neg hslash, if_neg hsmall]
    cases readString fuel rest <;> rfl

theorem readString_render (cs : List Char) {fuel : Nat} (hfuel : cs.length < fuel) (rest : List Char) :
    readString fuel (cs.flatMap escapeChar ++ '"' :: rest) = some (cs, rest) := by
  induction cs generalizing fuel with
  | nil =>
    cases fuel with
    | zero => cases hfuel
    | succ fuel => rfl
  | cons c cs ih =>
    cases fuel with
    | zero => cases hfuel
    | succ fuel =>
      rw [List.flatMap_cons, List.append_assoc, readString_escapeChar, ih (Nat.lt_of_succ_lt_succ hfuel)]
      rfl

/-- What may follow a value: the end, a comma, or the end of a container. -/
def Delimited (rest : List Char) : Prop := ∀ c ∈ rest.head?, c = ',' ∨ c = ']' ∨ c = '}'

theorem not_digit_of_delimited {rest : List Char} (h : Delimited rest) : ∀ c ∈ rest.head?, ¬ c.isDigit := by
  intro c hc
  rcases h c hc with rfl | rfl | rfl <;> decide

theorem readNatural_toDigits (n : Nat) {rest : List Char} (h : Delimited rest) :
    readNatural (Nat.toDigits 10 n ++ rest) = some (n, rest) := by
  have digits : ∀ c ∈ Nat.toDigits 10 n, c.isDigit := fun c => Text.isDigit_toDigits
  have none : rest.takeWhile Char.isDigit = [] ∧ rest.dropWhile Char.isDigit = rest := by
    cases rest with
    | nil => exact ⟨rfl, rfl⟩
    | cons c cs =>
      have hc := not_digit_of_delimited h c rfl
      exact ⟨List.takeWhile_cons_of_neg hc, List.dropWhile_cons_of_neg hc⟩
  have front : (Nat.toDigits 10 n ++ rest).takeWhile Char.isDigit = Nat.toDigits 10 n := by
    rw [List.takeWhile_append_of_pos digits, none.1, List.append_nil]
  have back : (Nat.toDigits 10 n ++ rest).dropWhile Char.isDigit = rest := by
    rw [List.dropWhile_append_of_pos digits, none.2]
  have whole : ¬ (Nat.toDigits 10 n = [] ∨ 1 < (Nat.toDigits 10 n).length ∧ (Nat.toDigits 10 n).head? = some '0') := by
    rintro (hnil | ⟨hlong, hzero⟩)
    · exact Nat.toDigits_ne_nil hnil
    · exact Text.leading_toDigits hlong hzero
  have plain : ¬ (rest.head? = some '.' ∨ rest.head? = some 'e' ∨ rest.head? = some 'E') := by
    rintro (hc | hc | hc) <;> exact absurd (h _ hc) (by decide)
  rw [readNatural, front, back]
  simp only [Bool.or_eq_true, Bool.and_eq_true, decide_eq_true_eq, whole, or_assoc, plain, if_false,
    Nat.ofDigitChars_ten_toDigits]

theorem readNumber_render (n : JsonNumber) {rest : List Char} (h : Delimited rest) :
    readNumber (renderNumber n.val ++ rest) = some (n, rest) := by
  obtain ⟨val, low, high⟩ := n
  have read := readNatural_toDigits val.natAbs h
  dsimp only
  unfold renderNumber
  split
  · rename_i hneg
    have range : 0 < val.natAbs ∧ val.natAbs ≤ 2 ^ 63 := by omega
    have value : -(val.natAbs : Int) = val := by omega
    rw [List.cons_append, readNumber, read, Option.bind_eq_bind, Option.bind_some]
    dsimp only
    rw [dif_pos range]
    simp only [value]
  · rename_i hpos
    have range : val.natAbs < 2 ^ 64 := by omega
    have value : (val.natAbs : Int) = val := by omega
    rw [readNumber.eq_def]
    split
    · rename_i cs hminus
      obtain ⟨c, digits, hdigits⟩ := List.exists_cons_of_ne_nil (Nat.toDigits_ne_nil (n := val.natAbs) (b := 10))
      have hc : c.isDigit := Text.isDigit_toDigits (n := val.natAbs) (by rw [hdigits]; exact List.mem_cons_self)
      rw [hdigits, List.cons_append] at hminus
      rw [(List.cons.inj hminus).1] at hc
      exact absurd hc (by decide)
    · rw [read, Option.bind_eq_bind, Option.bind_some]
      dsimp only
      rw [dif_pos range]
      simp only [value]

theorem renderNumber_head (n : Int) : ∃ c cs, renderNumber n = c :: cs ∧ (c = '-' ∨ c.isDigit) := by
  unfold renderNumber
  split
  · exact ⟨_, _, rfl, Or.inl rfl⟩
  · obtain ⟨c, digits, hdigits⟩ := List.exists_cons_of_ne_nil (Nat.toDigits_ne_nil (n := n.natAbs) (b := 10))
    have hc : c.isDigit := Text.isDigit_toDigits (n := n.natAbs) (by rw [hdigits]; exact List.mem_cons_self)
    exact ⟨c, digits, hdigits, Or.inr hc⟩

theorem number_head {c : Char} (h : c = '-' ∨ c.isDigit) :
    c ≠ 'n' ∧ c ≠ 't' ∧ c ≠ 'f' ∧ c ≠ '"' ∧ c ≠ '[' ∧ c ≠ '{' ∧ c ≠ ']' ∧ isSpace c = false := by
  have range : 45 ≤ c.toNat ∧ c.toNat ≤ 57 := by
    rcases h with rfl | h
    · decide
    · have := Text.digit_bounds h
      omega
  have other : ∀ d : Char, d.toNat < 45 ∨ 57 < d.toNat → c ≠ d := by
    rintro d hd rfl
    omega
  have solid : isSpace c = false := by
    simp [isSpace, other ' ' (by decide), other '\n' (by decide), other '\t' (by decide), other '\r' (by decide)]
  exact ⟨other _ (by decide), other _ (by decide), other _ (by decide), other _ (by decide), other _ (by decide),
    other _ (by decide), other _ (by decide), solid⟩

/-- A text begins with no space and no bracket that closes. -/
theorem render_head (j : Json) : ∃ c cs, render j = c :: cs ∧ isSpace c = false ∧ c ≠ ']' := by
  cases j with
  | null => exact ⟨_, _, by rw [render], rfl, by decide⟩
  | bool b => cases b <;> exact ⟨_, _, by rw [render], rfl, by decide⟩
  | number n =>
    obtain ⟨c, cs, hn, hc⟩ := renderNumber_head n.val
    have plain := number_head hc
    exact ⟨c, cs, by rw [render, hn], plain.2.2.2.2.2.2.2, plain.2.2.2.2.2.2.1⟩
  | string s => exact ⟨_, _, by rw [render, renderString], rfl, by decide⟩
  | array items => cases items <;> exact ⟨_, _, by rw [render], rfl, by decide⟩
  | object members => cases members <;> exact ⟨_, _, by rw [render], rfl, by decide⟩

theorem skip_solid {c : Char} (h : isSpace c = false) (cs : List Char) : skip (c :: cs) = c :: cs :=
  List.dropWhile_cons_of_neg (by simp [h])

theorem skip_render (j : Json) (rest : List Char) : skip (render j ++ rest) = render j ++ rest := by
  obtain ⟨c, cs, hc, hsolid, -⟩ := render_head j
  rw [hc, List.cons_append, skip_solid hsolid]

theorem length_escaped (cs : List Char) : cs.length ≤ (cs.flatMap escapeChar).length := by
  induction cs with
  | nil => exact Nat.le_refl _
  | cons c cs ih =>
    have one : 0 < (escapeChar c).length := by
      unfold escapeChar
      repeat' split
      all_goals exact Nat.succ_pos _
    rw [List.flatMap_cons, List.length_append, List.length_cons]
    omega

theorem length_render_pos (j : Json) : 0 < (render j).length := by
  obtain ⟨c, cs, hc, -, -⟩ := render_head j
  rw [hc]
  exact Nat.succ_pos _

theorem length_renderItems_pos (items : List Json) : 0 < (renderItems items).length := by
  cases items <;> simp [renderItems]

theorem length_renderMembers_pos (members : List (String × Json)) : 0 < (renderMembers members).length := by
  cases members <;> simp [renderMembers]

theorem delimited_items (items : List Json) (rest : List Char) : Delimited (renderItems items ++ rest) := by
  intro c hc
  cases items with
  | nil =>
    rw [renderItems] at hc
    exact Or.inr (Or.inl (Option.some.inj hc).symm)
  | cons item items =>
    rw [renderItems] at hc
    exact Or.inl (Option.some.inj hc).symm

theorem delimited_members (members : List (String × Json)) (rest : List Char) : Delimited (renderMembers members ++ rest) := by
  intro c hc
  cases members with
  | nil =>
    rw [renderMembers] at hc
    exact Or.inr (Or.inr (Option.some.inj hc).symm)
  | cons member members =>
    rw [renderMembers] at hc
    exact Or.inl (Option.some.inj hc).symm

theorem readArray_render (item : Json) (fuel depth : Nat) (rest : List Char) :
    readArray (fuel + 1) depth (render item ++ rest) = (readValue fuel depth (render item ++ rest)).bind fun (item, rest) =>
      (readItems fuel depth rest).bind fun (items, rest) => some (item :: items, rest) := by
  obtain ⟨c, cs, hc, -, hclose⟩ := render_head item
  have head : (render item ++ rest).head? ≠ some ']' := by
    rw [hc]
    simpa using hclose
  rw [readArray, skip_render, if_neg head]
  rfl

theorem readMember_render (key : String) {value : Json} {fuel depth m d : Nat} {rest : List Char} (hfuel : (renderString key).length ≤ fuel)
    (hvalue : readValue fuel depth (render value ++ rest) = if m < d then some (value, rest) else none) :
    readMember (fuel + 1) depth (renderString key ++ ':' :: (render value ++ rest)) =
      if m < d then some ((key, value), rest) else none := by
  have short : key.toList.length < fuel := by
    have := length_escaped key.toList
    rw [renderString, List.length_cons, List.length_append, List.length_singleton] at hfuel
    omega
  have read := readString_render key.toList short (':' :: (render value ++ rest))
  have text : renderString key ++ ':' :: (render value ++ rest) =
      '"' :: (key.toList.flatMap escapeChar ++ '"' :: ':' :: (render value ++ rest)) := by
    rw [renderString, List.cons_append, List.append_assoc]
    rfl
  have step : readMember (fuel + 1) depth ('"' :: (key.toList.flatMap escapeChar ++ '"' :: ':' :: (render value ++ rest))) =
      (readString fuel (key.toList.flatMap escapeChar ++ '"' :: ':' :: (render value ++ rest))).bind fun (key, rest) =>
        match skip rest with
        | ':' :: rest => (readValue fuel depth rest).bind fun (value, rest) => some ((String.ofList key, value), rest)
        | _ => none := rfl
  rw [text, step, read, Option.bind_some]
  dsimp only
  rw [skip_solid rfl]
  refine (congrArg (Option.bind · _) hvalue).trans ?_
  rw [String.ofList_toList]
  split <;> rfl

/-- Two readings one after the other stay within a limit if both do. -/
theorem bind_within {α β γ : Type} {x : Option (α × List Char)} {y : List Char → Option (β × List Char)} (f : α → β → γ)
    {a : α} {b : β} {mid rest : List Char} {m n d : Nat} (hx : x = if m < d then some (a, mid) else none)
    (hy : y mid = if n < d then some (b, rest) else none) :
    (x.bind fun (a, rest) => (y rest).bind fun (b, rest) => some (f a b, rest)) =
      if max m n < d then some (f a b, rest) else none := by
  rw [hx]
  by_cases hm : m < d
  · rw [if_pos hm, Option.bind_some]
    dsimp only
    rw [hy]
    by_cases hn : n < d
    · rw [if_pos hn, if_pos (by omega)]
      rfl
    · rw [if_neg hn, if_neg (by omega)]
      rfl
  · rw [if_neg hm, if_neg (by omega)]
    rfl

/-- What stands between brackets is one deeper. -/
theorem enter_within {α : Type} {x : Option (α × List Char)} {f : α → Json} {a : α} {rest : List Char} {n d : Nat}
    (h : 1 < d → x = if n < d - 1 then some (a, rest) else none) :
    (if d ≤ 1 then none else x.map fun (a, rest) => (f a, rest)) = if n + 1 < d then some (f a, rest) else none := by
  by_cases hd : d ≤ 1
  · rw [if_pos hd, if_neg (by omega)]
  · rw [if_neg hd, h (by omega)]
    by_cases hn : n < d - 1
    · rw [if_pos hn, if_pos (by omega)]
      rfl
    · rw [if_neg hn, if_neg (by omega)]
      rfl

section

variable {fuel d : Nat} {rest : List Char}

theorem readValue_number (n : JsonNumber) (hrest : Delimited rest) :
    readValue (fuel + 1) d (render (.number n) ++ rest) = some (.number n, rest) := by
  obtain ⟨c, cs, hn, hc⟩ := renderNumber_head n.val
  obtain ⟨hnull, htrue, hfalse, hquote, harray, hobject, -, hsolid⟩ := number_head hc
  have read := readNumber_render n hrest
  rw [hn, List.cons_append] at read
  rw [render, hn, List.cons_append, readValue, skip_solid hsolid]
  simp only [hnull, htrue, hfalse, hquote, harray, hobject, if_false, read]
  rfl

/-- A string is read whatever stands behind it. -/
theorem readValue_string (s : String) {fuel : Nat} (hfuel : s.toList.length < fuel) (depth : Nat) (rest : List Char) :
    readValue (fuel + 1) depth (render (.string s) ++ rest) = some (.string s, rest) := by
  have read := readString_render s.toList hfuel rest
  have text : render (.string s) ++ rest = '"' :: (s.toList.flatMap escapeChar ++ '"' :: rest) := by
    rw [render, renderString, List.cons_append, List.append_assoc]
    rfl
  have step : readValue (fuel + 1) depth ('"' :: (s.toList.flatMap escapeChar ++ '"' :: rest)) =
      (readString fuel (s.toList.flatMap escapeChar ++ '"' :: rest)).map fun read => (.string (String.ofList read.1), read.2) := rfl
  rw [text, step, read, Option.map_some]
  dsimp only
  rw [String.ofList_toList]

theorem readValue_bracket (cs : List Char) : readValue (fuel + 1) d ('[' :: cs) =
    if d ≤ 1 then none else (readArray fuel (d - 1) cs).map fun (items, rest) => (.array items, rest) := rfl

theorem readValue_brace (cs : List Char) : readValue (fuel + 1) d ('{' :: cs) =
    if d ≤ 1 then none else (readObject fuel (d - 1) cs).map fun (members, rest) => (.object members, rest) := rfl

/-- An object is read member by member. -/
theorem readObject_render (key : String) (cs : List Char) : readObject (fuel + 1) d (renderString key ++ cs) =
    (readMember fuel d (renderString key ++ cs)).bind fun (member, rest) =>
      (readMembers fuel d rest).bind fun (members, rest) => some (member :: members, rest) := rfl

end

mutual

/-- A written value is read as it was, if and only if its depth leaves some of the limit. -/
theorem readValue_render : ∀ (j : Json) {fuel depth : Nat} {rest : List Char}, (render j).length < fuel → 0 < depth → Delimited rest →
    readValue fuel depth (render j ++ rest) = if j.depth < depth then some (j, rest) else none
  | _, 0, _, _, hfuel, _, _ => absurd hfuel (Nat.not_lt_zero _)
  | .null, fuel + 1, d, rest, _, hdepth, _ => by
    rw [Json.depth, if_pos hdepth, render]
    rfl
  | .bool true, fuel + 1, d, rest, _, hdepth, _ => by
    rw [Json.depth, if_pos hdepth, render]
    rfl
  | .bool false, fuel + 1, d, rest, _, hdepth, _ => by
    rw [Json.depth, if_pos hdepth, render]
    rfl
  | .number n, fuel + 1, d, rest, _, hdepth, hrest => by
    rw [Json.depth, if_pos hdepth]
    exact readValue_number n hrest
  | .string s, fuel + 1, d, rest, hfuel, hdepth, _ => by
    have short : s.toList.length < fuel := by
      have := length_escaped s.toList
      rw [render, renderString, List.length_cons, List.length_append, List.length_singleton] at hfuel
      omega
    rw [Json.depth, if_pos hdepth]
    exact readValue_string s short d rest
  | .array [], fuel + 1, d, rest, hfuel, _, _ => by
    rw [render] at hfuel ⊢
    obtain ⟨fuel, rfl⟩ : ∃ n, fuel = n + 1 := ⟨fuel - 1, by simp at hfuel; omega⟩
    rw [Json.depth, depthItems, List.cons_append, List.singleton_append, readValue_bracket]
    apply enter_within
    intro hd
    rw [if_pos (by omega)]
    rfl
  | .array (item :: items), fuel + 1, d, rest, hfuel, _, _ => by
    have hitem := length_render_pos item
    have hitems := length_renderItems_pos items
    rw [render, List.length_cons, List.length_append] at hfuel
    obtain ⟨fuel, rfl⟩ : ∃ n, fuel = n + 1 := ⟨fuel - 1, by omega⟩
    rw [Json.depth, depthItems, render, List.cons_append, List.append_assoc, readValue_bracket]
    apply enter_within
    intro hd
    have first := readValue_render item (by omega : _ < fuel) (by omega : 0 < d - 1) (delimited_items items rest)
    have more : readItems fuel (d - 1) (renderItems items ++ rest) = if depthItems items < d - 1 then some (items, rest) else none :=
      readItems_render items (by omega) (by omega)
    rw [readArray_render, bind_within List.cons first more]
  | .object [], fuel + 1, d, rest, hfuel, _, _ => by
    rw [render] at hfuel ⊢
    obtain ⟨fuel, rfl⟩ : ∃ n, fuel = n + 1 := ⟨fuel - 1, by simp at hfuel; omega⟩
    rw [Json.depth, depthMembers, List.cons_append, List.singleton_append, readValue_brace]
    apply enter_within
    intro hd
    rw [if_pos (by omega)]
    rfl
  | .object ((key, value) :: members), fuel + 1, d, rest, hfuel, _, _ => by
    have hvalue := length_render_pos value
    have hmembers := length_renderMembers_pos members
    rw [render, List.length_cons, List.length_append, List.length_cons, List.length_append] at hfuel
    obtain ⟨fuel, rfl⟩ : ∃ n, fuel = n + 2 := ⟨fuel - 2, by omega⟩
    rw [Json.depth, depthMembers, render, List.cons_append, List.append_assoc, List.cons_append, List.append_assoc, readValue_brace]
    apply enter_within
    intro hd
    have first := readValue_render value (by omega : _ < fuel) (by omega : 0 < d - 1) (delimited_members members rest)
    have more : readMembers (fuel + 1) (d - 1) (renderMembers members ++ rest) =
        if depthMembers members < d - 1 then some (members, rest) else none :=
      readMembers_render members (by omega) (by omega)
    have member := readMember_render key (by omega : _ ≤ fuel) first
    rw [readObject_render, bind_within List.cons member more]

theorem readItems_render : ∀ (items : List Json) {fuel depth : Nat} {rest : List Char}, (renderItems items).length < fuel → 0 < depth →
    readItems fuel depth (renderItems items ++ rest) = if depthItems items < depth then some (items, rest) else none
  | _, 0, _, _, hfuel, _ => absurd hfuel (Nat.not_lt_zero _)
  | [], fuel + 1, d, rest, _, hdepth => by
    rw [depthItems, if_pos hdepth, renderItems]
    rfl
  | item :: items, fuel + 1, d, rest, hfuel, hdepth => by
    have hitem := length_render_pos item
    have hitems := length_renderItems_pos items
    rw [renderItems, List.length_cons, List.length_append] at hfuel
    have step : readItems (fuel + 1) d (',' :: (render item ++ (renderItems items ++ rest))) =
        (readValue fuel d (render item ++ (renderItems items ++ rest))).bind fun (item, rest) =>
          (readItems fuel d rest).bind fun (items, rest) => some (item :: items, rest) := rfl
    have first := readValue_render item (by omega : _ < fuel) hdepth (delimited_items items rest)
    have more : readItems fuel d (renderItems items ++ rest) = if depthItems items < d then some (items, rest) else none :=
      readItems_render items (by omega) hdepth
    rw [renderItems, List.cons_append, List.append_assoc, step, bind_within List.cons first more, depthItems]

theorem readMembers_render : ∀ (members : List (String × Json)) {fuel depth : Nat} {rest : List Char},
    (renderMembers members).length < fuel → 0 < depth →
    readMembers fuel depth (renderMembers members ++ rest) = if depthMembers members < depth then some (members, rest) else none
  | _, 0, _, _, hfuel, _ => absurd hfuel (Nat.not_lt_zero _)
  | [], fuel + 1, d, rest, _, hdepth => by
    rw [depthMembers, if_pos hdepth, renderMembers]
    rfl
  | (key, value) :: members, fuel + 1, d, rest, hfuel, hdepth => by
    have hvalue := length_render_pos value
    have hmembers := length_renderMembers_pos members
    rw [renderMembers, List.length_cons, List.length_append, List.length_cons, List.length_append] at hfuel
    obtain ⟨fuel, rfl⟩ : ∃ n, fuel = n + 1 := ⟨fuel - 1, by omega⟩
    have first := readValue_render value (by omega : _ < fuel) hdepth (delimited_members members rest)
    have more : readMembers (fuel + 1) d (renderMembers members ++ rest) =
        if depthMembers members < d then some (members, rest) else none :=
      readMembers_render members (by omega) hdepth
    have member := readMember_render key (by omega : _ ≤ fuel) first
    have step : readMembers (fuel + 2) d (',' :: (renderString key ++ ':' :: (render value ++ (renderMembers members ++ rest)))) =
        (readMember (fuel + 1) d (renderString key ++ ':' :: (render value ++ (renderMembers members ++ rest)))).bind
          fun (member, rest) => (readMembers (fuel + 1) d rest).bind fun (members, rest) => some (member :: members, rest) := rfl
    rw [renderMembers, List.cons_append, List.append_assoc, List.cons_append, List.append_assoc, step,
      bind_within List.cons member more, depthMembers]

end

/-- A written value is read as it was, if and only if the limit is above its depth. -/
theorem read_render (j : Json) {limit : Nat} (hlimit : 0 < limit) :
    read limit (render j) = if j.depth < limit then some j else none := by
  have value : readValue ((render j).length + 1) limit (render j ++ []) = if j.depth < limit then some (j, []) else none :=
    readValue_render j (Nat.lt_succ_self _) hlimit nofun
  rw [List.append_nil] at value
  rw [read, value]
  split
  · rename_i h
    split at h
    · cases h
      rename_i hdepth
      rw [if_pos hdepth]
      rfl
    · cases h
  · rename_i h
    split at h
    · cases h
    · rename_i hdepth
      rw [if_neg hdepth]

theorem render_injective {i j : Json} (h : render i = render j) : i = j := by
  have left := read_render i (Nat.succ_pos (max i.depth j.depth))
  have right := read_render j (Nat.succ_pos (max i.depth j.depth))
  rw [if_pos (by omega)] at left right
  rw [h] at left
  exact Option.some.inj (left.symm.trans right)

end Json

end GoblinPay
