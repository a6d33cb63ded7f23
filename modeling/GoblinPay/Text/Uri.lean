import GoblinPay.Text.Hex
import GoblinPay.Text.Split
import GoblinPay.Text.Utf8

/-!
# Query parameters

What a reader of a URI makes of it: the text is split at the first question mark, at ampersands and at the first
equals sign of each piece, and the values are percent-decoded.
-/

namespace GoblinPay.Text

namespace Uri

def percentDecode : List Char → List UInt8
  | [] => []
  | '%' :: a :: b :: rest =>
    match Hex.hexDigit a, Hex.hexDigit b with
    | some x, some y => UInt8.ofNat (x * 16 + y) :: percentDecode rest
    | _, _ => String.utf8EncodeChar '%' ++ percentDecode (a :: b :: rest)
  | c :: rest => String.utf8EncodeChar c ++ percentDecode rest

/-- The text of a value. -/
def value (cs : List Char) : Option String := String.fromUTF8? (percentDecode cs).toByteArray

/-- A name, and the text behind the equals sign where there is one. -/
def param (piece : List Char) : String × Option String :=
  match splitOnce '=' piece with
  | some (name, cs) => (String.ofList name, value cs)
  | none => (String.ofList piece, none)

def path (uri : String) : String :=
  match splitOnce '?' uri.toList with
  | some (front, _) => String.ofList front
  | none => uri

def params (uri : String) : List (String × Option String) :=
  match splitOnce '?' uri.toList with
  | some (_, query) => (query.splitOn '&').map param
  | none => []

/-- An escape stands for its byte. -/
theorem percentDecode_escape {a b : Char} {x y : Nat} (ha : Hex.hexDigit a = some x) (hb : Hex.hexDigit b = some y)
    (rest : List Char) : percentDecode ('%' :: a :: b :: rest) = UInt8.ofNat (x * 16 + y) :: percentDecode rest := by
  rw [percentDecode, ha, hb]

/-- Any other character stands for itself. -/
theorem percentDecode_plain {c : Char} (h : c ≠ '%') (rest : List Char) :
    percentDecode (c :: rest) = String.utf8EncodeChar c ++ percentDecode rest := by
  rw [percentDecode]
  intro a b rest' hc
  exact absurd hc h

/-- A value is what its bytes spell in UTF-8. -/
theorem value_eq {cs : List Char} {s : String} (h : percentDecode cs = utf8 s.toList) : value cs = some s := by
  have bytes : (percentDecode cs).toByteArray = s.toByteArray := by
    rw [h, ← String.utf8Encode_toList]
    rfl
  rw [value, bytes, String.fromUTF8?, dif_pos s.isValidUTF8]
  rfl

section

variable {piece : List Char} (h : '&' ∉ piece)

include h

theorem beq_ampersand : ∀ c ∈ piece, (c == '&') = false := by
  intro c hc
  refine beq_false_of_ne ?_
  rintro rfl
  exact h hc

theorem splitOn_one : piece.splitOn '&' = [piece] := List.splitOnP_eq_singleton (beq_ampersand h)

theorem splitOn_cons (rest : List Char) : (piece ++ '&' :: rest).splitOn '&' = piece :: rest.splitOn '&' :=
  List.splitOnP_append_cons_of_forall_mem (beq_ampersand h) '&' rfl rest

end

/-- Pieces behind a question mark, separated by ampersands. -/
def query : List (List Char) → List Char
  | [] => []
  | piece :: rest => '?' :: (piece ++ rest.flatMap ('&' :: ·))

/-- Pieces joined by ampersands are found again. -/
theorem splitOn_pieces {piece : List Char} {rest : List (List Char)} (h : ∀ p ∈ piece :: rest, '&' ∉ p) :
    (piece ++ rest.flatMap ('&' :: ·)).splitOn '&' = piece :: rest := by
  induction rest generalizing piece with
  | nil =>
    rw [List.flatMap_nil, List.append_nil]
    exact splitOn_one (h piece List.mem_cons_self)
  | cons next rest ih =>
    rw [List.flatMap_cons, List.cons_append, splitOn_cons (h piece List.mem_cons_self),
      ih fun p hp => h p (List.mem_cons_of_mem piece hp)]

/-- Reading a URI gives back what it was put together from. -/
theorem read_query {front : List Char} {pieces : List (List Char)} (hfront : '?' ∉ front) (hpieces : ∀ p ∈ pieces, '&' ∉ p) :
    path (String.ofList (front ++ query pieces)) = String.ofList front ∧
      params (String.ofList (front ++ query pieces)) = pieces.map param := by
  cases pieces with
  | nil =>
    rw [path, params, String.toList_ofList, query, List.append_nil, splitOnce_of_notMem hfront]
    exact ⟨rfl, rfl⟩
  | cons piece rest =>
    rw [path, params, String.toList_ofList, query, splitOnce_append hfront]
    exact ⟨rfl, congrArg (List.map param) (splitOn_pieces hpieces)⟩

/-- A parameter is split at its first equals sign. -/
theorem param_named {name : String} {cs : List Char} {s : String} (h : '=' ∉ name.toList) (hv : value cs = some s) :
    param (name.toList ++ '=' :: cs) = (name, some s) := by
  have pair : param (name.toList ++ '=' :: cs) = (String.ofList name.toList, value cs) := by
    rw [param, splitOnce_append h]
  rw [pair, String.ofList_toList, hv]

end Uri

end GoblinPay.Text
