import GoblinPay.Text.Slice

/-!
# Hexadecimal

The decoders take a text apart in slices of two bytes and give each to `u8::from_str_radix`, which takes a
plus sign before a digit. `Denotes` is what hexadecimal digits spell, `Reads` what the decoders read, and
`Stops` says that they end at a piece they cannot read.
-/

namespace GoblinPay.Hex

/-- `char::to_digit(16)`. -/
def hexDigit (c : Char) : Option Nat :=
  let n := c.toNat
  if 48 ≤ n ∧ n ≤ 57 then some (n - 48)
  else if 97 ≤ n ∧ n ≤ 102 then some (n - 87)
  else if 65 ≤ n ∧ n ≤ 70 then some (n - 55)
  else none

/-- The digits of a `u8`, refused where the value leaves the range. -/
def digits (value : Nat) : List Char → Option Nat
  | [] => some value
  | c :: cs => do
    let digit ← hexDigit c
    if value * 16 + digit < 256 then digits (value * 16 + digit) cs else none

/-- `u8::from_str_radix(_, 16)`: an optional plus sign and at least one digit. -/
def fromStrRadix (cs : List Char) : Option UInt8 :=
  match cs with
  | [] => none
  | ['+'] => none
  | '+' :: rest => (digits 0 rest).map UInt8.ofNat
  | cs => (digits 0 cs).map UInt8.ofNat

/-- One byte of each slice of two, from the `i`-th on, until one is unreadable. -/
def decodeFrom (hex : List Char) : Nat → Nat → Except Panic (Option (List UInt8))
  | _, 0 => pure (some [])
  | i, n + 1 => do
    let piece ← Text.slice (i * 2) (i * 2 + 2) hex
    match fromStrRadix piece with
    | none => pure none
    | some byte => do
      let rest ← decodeFrom hex (i + 1) n
      pure (rest.map (byte :: ·))

/-- `decode_fixed::<N>`: exactly `n` bytes. -/
def decodeFixed (n : Nat) (hex : String) : Except Panic (Option (List UInt8)) :=
  let hex := Text.trimChars hex.toList
  if Text.bytes hex ≠ n * 2 then pure none else decodeFrom hex 0 n

/-- `decode_hex`: any whole number of bytes. -/
def decodeHex (s : List Char) : Except Panic (Option (List UInt8)) :=
  if Text.bytes s % 2 ≠ 0 then pure none else decodeFrom s 0 (Text.bytes s / 2)

def hexChar (n : Nat) : Char := if n < 10 then Char.ofNat (48 + n) else Char.ofNat (87 + n)

/-- `{b:02x}` of each byte. -/
def encodeHex (bytes : List UInt8) : String :=
  String.ofList (bytes.flatMap fun b => [hexChar (b.toNat / 16), hexChar (b.toNat % 16)])

/-! ## What a text spells -/

/-- Two hexadecimal digits a byte. -/
inductive Denotes : List Char → List UInt8 → Prop
  | nil : Denotes [] []
  | cons {a b : Char} {x y : Nat} {cs : List Char} {bs : List UInt8} (ha : hexDigit a = some x) (hb : hexDigit b = some y)
    (rest : Denotes cs bs) : Denotes (a :: b :: cs) (UInt8.ofNat (x * 16 + y) :: bs)

/-- Two hexadecimal digits a byte, or a plus sign and a digit. -/
inductive Reads : List Char → List UInt8 → Prop
  | nil : Reads [] []
  | cons {a b : Char} {x y : Nat} {cs : List Char} {bs : List UInt8} (ha : hexDigit a = some x) (hb : hexDigit b = some y)
    (rest : Reads cs bs) : Reads (a :: b :: cs) (UInt8.ofNat (x * 16 + y) :: bs)
  | plus {b : Char} {y : Nat} {cs : List Char} {bs : List UInt8} (hb : hexDigit b = some y) (rest : Reads cs bs) :
    Reads ('+' :: b :: cs) (UInt8.ofNat y :: bs)

/-- The first piece that cannot be read begins and ends at a character boundary. -/
def Stops (cs : List Char) : Prop :=
  ∃ front piece back read, cs = front ++ piece ++ back ∧ Reads front read ∧ Text.bytes piece = 2 ∧ ∀ bs, ¬ Reads piece bs

theorem Denotes.reads {cs : List Char} {bs : List UInt8} (h : Denotes cs bs) : Reads cs bs := by
  induction h with
  | nil => exact .nil
  | cons ha hb _ ih => exact .cons ha hb ih

/-! ## Digits -/

theorem hexDigit_some {c : Char} {x : Nat} (h : hexDigit c = some x) : x < 16 ∧ 48 ≤ c.toNat ∧ c.toNat ≤ 102 := by
  unfold hexDigit at h
  dsimp only at h
  split at h
  · cases h
    omega
  split at h
  · cases h
    omega
  split at h
  · cases h
    omega
  · cases h

theorem utf8Size_ascii {c : Char} (h : c.toNat ≤ 127) : c.utf8Size = 1 := by
  rw [Char.utf8Size_eq_one_iff, UInt32.le_iff_toNat_le]
  exact h

theorem hexDigit_utf8Size {c : Char} {x : Nat} (h : hexDigit c = some x) : c.utf8Size = 1 := by
  have := hexDigit_some h
  exact utf8Size_ascii (by omega)

theorem hexDigit_hexChar {n : Nat} (h : n < 16) : hexDigit (hexChar n) = some n := by
  have hall : ∀ n < 16, hexDigit (hexChar n) = some n := by decide
  exact hall n h

theorem digits_pair {a b : Char} {v : Nat} :
    digits 0 [a, b] = some v ↔ ∃ x y, hexDigit a = some x ∧ hexDigit b = some y ∧ v = x * 16 + y := by
  cases ha : hexDigit a with
  | none => simp [digits, ha]
  | some x =>
    cases hb : hexDigit b with
    | none => simp [digits, ha, hb]
    | some y =>
      have hx := (hexDigit_some ha).1
      have hy := (hexDigit_some hb).1
      have hfirst : x < 256 := by omega
      have hboth : x * 16 + y < 256 := by omega
      simp [digits, ha, hb, hfirst, hboth, eq_comm]

/-- The pieces of two characters `u8::from_str_radix` takes. -/
theorem fromStrRadix_pair {a b : Char} {v : UInt8} :
    fromStrRadix [a, b] = some v ↔
      (∃ x y, hexDigit a = some x ∧ hexDigit b = some y ∧ v = UInt8.ofNat (x * 16 + y)) ∨
        a = '+' ∧ ∃ y, hexDigit b = some y ∧ v = UInt8.ofNat y := by
  by_cases ha : a = '+'
  · subst ha
    have hplus : hexDigit '+' = none := rfl
    have hdigit : digits 0 [b] = hexDigit b := by
      cases hb : hexDigit b with
      | none => simp [digits, hb]
      | some y =>
        have hy := (hexDigit_some hb).1
        have hfits : y < 256 := by omega
        simp [digits, hb, hfits]
    have hvalue : fromStrRadix ['+', b] = (digits 0 [b]).map UInt8.ofNat := rfl
    rw [hvalue, hdigit, Option.map_eq_some_iff]
    constructor
    · rintro ⟨y, hy, rfl⟩
      exact Or.inr ⟨rfl, y, hy, rfl⟩
    · rintro (⟨x, y, hx, -⟩ | ⟨-, y, hy, rfl⟩)
      · exact absurd (hplus.symm.trans hx) nofun
      · exact ⟨y, hy, rfl⟩
  · have hvalue : fromStrRadix [a, b] = (digits 0 [a, b]).map UInt8.ofNat := by
      unfold fromStrRadix
      split
      · rename_i h
        cases h
      · rename_i h
        cases h
      · rename_i h
        cases h
        exact absurd rfl ha
      · rfl
    rw [hvalue, Option.map_eq_some_iff]
    constructor
    · rintro ⟨n, hn, rfl⟩
      obtain ⟨x, y, hx, hy, rfl⟩ := digits_pair.1 hn
      exact Or.inl ⟨x, y, hx, hy, rfl⟩
    · rintro (⟨x, y, hx, hy, rfl⟩ | ⟨hplus, -⟩)
      · exact ⟨_, digits_pair.2 ⟨x, y, hx, hy, rfl⟩, rfl⟩
      · exact absurd hplus ha

theorem fromStrRadix_wide {c : Char} (h : c.utf8Size = 2) : fromStrRadix [c] = none := by
  have hplus : c ≠ '+' := by
    rintro rfl
    exact absurd h (by decide)
  have hno : hexDigit c = none := by
    cases hc : hexDigit c with
    | none => rfl
    | some x =>
      have := hexDigit_utf8Size hc
      omega
  unfold fromStrRadix
  split
  · rfl
  · rfl
  · rename_i heq
    cases heq
    exact absurd rfl hplus
  · simp [digits, hno]

/-! ## Pieces of two bytes -/

theorem piece_cases {piece : List Char} (h : Text.bytes piece = 2) :
    (∃ a b, piece = [a, b]) ∨ ∃ c, piece = [c] ∧ c.utf8Size = 2 := by
  cases piece with
  | nil => cases h
  | cons a piece =>
    have ha := a.utf8Size_pos
    rw [Text.bytes_cons] at h
    cases piece with
    | nil => exact Or.inr ⟨a, rfl, h⟩
    | cons b piece =>
      have hb := b.utf8Size_pos
      rw [Text.bytes_cons] at h
      cases piece with
      | nil => exact Or.inl ⟨a, b, rfl⟩
      | cons c piece =>
        have hc := Text.bytes_pos (List.cons_ne_nil c piece)
        omega

/-- What is read goes by pieces that the digit parser takes. -/
theorem reads_piece_iff {piece back : List Char} {bs : List UInt8} (h : Text.bytes piece = 2) :
    Reads (piece ++ back) bs ↔ ∃ v rest, fromStrRadix piece = some v ∧ bs = v :: rest ∧ Reads back rest := by
  rcases piece_cases h with ⟨a, b, rfl⟩ | ⟨c, rfl, hc⟩
  · simp only [fromStrRadix_pair]
    constructor
    · intro hr
      cases hr with
      | cons ha hb rest => exact ⟨_, _, Or.inl ⟨_, _, ha, hb, rfl⟩, rfl, rest⟩
      | plus hb rest => exact ⟨_, _, Or.inr ⟨rfl, _, hb, rfl⟩, rfl, rest⟩
    · rintro ⟨v, rest, ⟨x, y, ha, hb, rfl⟩ | ⟨rfl, y, hb, rfl⟩, rfl, hrest⟩
      · exact .cons ha hb hrest
      · exact .plus hb hrest
  · rw [fromStrRadix_wide hc]
    constructor
    · intro hr
      cases hr with
      | cons ha _ _ =>
        have := hexDigit_utf8Size ha
        omega
      | plus _ _ => exact absurd hc (by decide)
    · rintro ⟨v, rest, hv, -⟩
      cases hv

/-- Text that is read at all begins with a piece. -/
theorem Reads.piece {cs : List Char} {bs : List UInt8} (h : Reads cs bs) (hne : cs ≠ []) :
    ∃ piece back, cs = piece ++ back ∧ Text.bytes piece = 2 := by
  cases h with
  | nil => exact absurd rfl hne
  | @cons a b x y cs bs ha hb rest =>
    refine ⟨[a, b], cs, rfl, ?_⟩
    simp [Text.bytes, hexDigit_utf8Size ha, hexDigit_utf8Size hb]
  | @plus b y cs bs hb rest =>
    have hplus : Char.utf8Size '+' = 1 := by decide
    refine ⟨['+', b], cs, rfl, ?_⟩
    simp [Text.bytes, hplus, hexDigit_utf8Size hb]

theorem Reads.bytes_eq {cs : List Char} {bs : List UInt8} (h : Reads cs bs) : Text.bytes cs = bs.length * 2 := by
  induction h with
  | nil => rfl
  | cons ha hb _ ih =>
    rw [Text.bytes_cons, Text.bytes_cons, hexDigit_utf8Size ha, hexDigit_utf8Size hb, ih, List.length_cons]
    omega
  | plus hb _ ih =>
    have hplus : Char.utf8Size '+' = 1 := by decide
    rw [Text.bytes_cons, Text.bytes_cons, hplus, hexDigit_utf8Size hb, ih, List.length_cons]
    omega

theorem bytes_prefix_inj {p q r s : List Char} (h : p ++ r = q ++ s) (hlen : Text.bytes p = Text.bytes q) : p = q ∧ r = s := by
  induction p generalizing q with
  | nil =>
    cases q with
    | nil => exact ⟨rfl, h⟩
    | cons d q => exact absurd hlen (Nat.ne_of_lt (Text.bytes_pos (List.cons_ne_nil d q)))
  | cons c p ih =>
    cases q with
    | nil => exact absurd hlen.symm (Nat.ne_of_lt (Text.bytes_pos (List.cons_ne_nil c p)))
    | cons d q =>
      obtain ⟨rfl, htail⟩ := List.cons.inj h
      rw [Text.bytes_cons, Text.bytes_cons] at hlen
      obtain ⟨rfl, hrest⟩ := ih htail (Nat.add_left_cancel hlen)
      exact ⟨rfl, hrest⟩

theorem stops_piece_iff {piece back : List Char} (h : Text.bytes piece = 2) :
    Stops (piece ++ back) ↔ fromStrRadix piece = none ∨ (∃ v, fromStrRadix piece = some v) ∧ Stops back := by
  have whole : ∀ {q bs}, Text.bytes q = 2 → (Reads q bs ↔ ∃ v, fromStrRadix q = some v ∧ bs = [v]) := by
    intro q bs hq
    have hiff : Reads (q ++ []) bs ↔ _ := reads_piece_iff hq
    rw [List.append_nil] at hiff
    rw [hiff]
    constructor
    · rintro ⟨v, rest, hv, rfl, hrest⟩
      cases hrest
      exact ⟨v, hv, rfl⟩
    · rintro ⟨v, hv, rfl⟩
      exact ⟨v, [], hv, rfl, .nil⟩
  constructor
  · rintro ⟨front, last, after, read, hcs, hread, hlast, hno⟩
    cases hv : fromStrRadix piece with
    | none => exact Or.inl rfl
    | some v =>
      refine Or.inr ⟨⟨v, rfl⟩, ?_⟩
      by_cases hfront : front = []
      · subst hfront
        have hcs' : piece ++ back = last ++ after := hcs
        obtain ⟨rfl, -⟩ := bytes_prefix_inj hcs' (h.trans hlast.symm)
        exact absurd ((whole h).2 ⟨v, hv, rfl⟩) (hno [v])
      · obtain ⟨first, front', rfl, hfirst⟩ := hread.piece hfront
        have hcs' : piece ++ back = first ++ (front' ++ last ++ after) := by
          rw [hcs]
          simp only [List.append_assoc]
        obtain ⟨rfl, rfl⟩ := bytes_prefix_inj hcs' (h.trans hfirst.symm)
        obtain ⟨_, read', _, _, hread'⟩ := (reads_piece_iff h).1 hread
        exact ⟨front', last, after, read', rfl, hread', hlast, hno⟩
  · rintro (hv | ⟨⟨v, hv⟩, front, last, after, read, rfl, hread, hlast, hno⟩)
    · refine ⟨[], piece, back, [], rfl, .nil, h, ?_⟩
      intro bs hread
      obtain ⟨v, hv', -⟩ := (whole h).1 hread
      rw [hv] at hv'
      cases hv'
    · refine ⟨piece ++ front, last, after, v :: read, by simp only [List.append_assoc], ?_, hlast, hno⟩
      exact (reads_piece_iff h).2 ⟨v, read, hv, rfl, hread⟩

/-! ## What the decoders answer -/

/-- The slice of the next piece is the text's own piece, or panics where it has none. -/
theorem slice_next {front : List Char} (rest : List Char) {i : Nat} (hi : Text.bytes front = i * 2) :
    (∃ piece back, rest = piece ++ back ∧ Text.bytes piece = 2 ∧
      Text.slice (i * 2) (i * 2 + 2) (front ++ rest) = .ok piece) ∨
    Text.slice (i * 2) (i * 2 + 2) (front ++ rest) = .error .slice ∧
      ∀ piece back, rest = piece ++ back → Text.bytes piece ≠ 2 := by
  have cut : ∀ piece back, rest = piece ++ back → Text.bytes piece = 2 →
      Text.slice (i * 2) (i * 2 + 2) (front ++ rest) = .ok piece := by
    intro piece back hrest hpiece
    rw [hrest, ← List.append_assoc, ← hi, ← hpiece]
    exact Text.slice_bytes front piece back
  cases hcut : Text.slice (i * 2) (i * 2 + 2) (front ++ rest) with
  | error e =>
    cases e
    refine Or.inr ⟨rfl, ?_⟩
    intro piece back hrest hpiece
    rw [cut piece back hrest hpiece] at hcut
    cases hcut
  | ok piece =>
    obtain ⟨p, r, htext, hp, hlen⟩ := Text.slice_ok hcut
    rw [List.append_assoc] at htext
    obtain ⟨-, hrest⟩ := bytes_prefix_inj htext (hi.trans hp.symm)
    exact Or.inl ⟨piece, r, hrest, by omega, rfl⟩

/-- The decoder reads the bytes of a text that can be read, answers nothing where it stops, and panics on
the rest. -/
theorem decodeFrom_iff {front rest : List Char} {i n : Nat} (hi : Text.bytes front = i * 2) (hn : Text.bytes rest = n * 2) :
    (∀ bs, decodeFrom (front ++ rest) i n = .ok (some bs) ↔ Reads rest bs) ∧
      (decodeFrom (front ++ rest) i n = .ok none ↔ Stops rest) := by
  induction n generalizing front rest i with
  | zero =>
    have hnil : rest = [] := by
      by_contra hne
      have := Text.bytes_pos hne
      omega
    subst hnil
    refine ⟨fun bs => ⟨?_, ?_⟩, ⟨?_, ?_⟩⟩
    · intro h
      cases h
      exact .nil
    · intro h
      cases h
      rfl
    · intro h
      cases h
    · rintro ⟨f, piece, b, -, hcs, -, hpiece, -⟩
      have hlen := congrArg Text.bytes hcs
      rw [Text.bytes_append, Text.bytes_append] at hlen
      have hnil : Text.bytes [] = 0 := rfl
      omega
  | succ n ih =>
    have hne : rest ≠ [] := by
      rintro rfl
      have hnil : Text.bytes [] = 0 := rfl
      omega
    rcases slice_next rest hi with ⟨piece, back, rfl, hpiece, hcut⟩ | ⟨hcut, hno⟩
    · rw [decodeFrom, hcut]
      have hfront : Text.bytes (front ++ piece) = (i + 1) * 2 := by
        rw [Text.bytes_append]
        omega
      have hback : Text.bytes back = n * 2 := by
        rw [Text.bytes_append] at hn
        omega
      obtain ⟨ihsome, ihnone⟩ := ih hfront hback
      rw [List.append_assoc] at ihsome ihnone
      simp only [reads_piece_iff hpiece, stops_piece_iff hpiece]
      cases hv : fromStrRadix piece with
      | none => simp [bind, Except.bind, pure, Except.pure, hv]
      | some v =>
        cases hrest : decodeFrom (front ++ (piece ++ back)) (i + 1) n with
        | error e => simp [bind, Except.bind, hv, hrest, ← ihsome, ← ihnone]
        | ok found =>
          simp only [hrest, Except.ok.injEq] at ihsome ihnone
          cases found with
          | none => simp [bind, Except.bind, pure, Except.pure, hv, ← ihsome, ← ihnone]
          | some bs => simp [bind, Except.bind, pure, Except.pure, hv, ← ihsome, ← ihnone, eq_comm]
    · rw [decodeFrom, hcut]
      refine ⟨fun bs => ⟨nofun, ?_⟩, ⟨nofun, ?_⟩⟩
      · intro hread
        obtain ⟨piece, back, hrest, hpiece⟩ := hread.piece hne
        exact absurd hpiece (hno piece back hrest)
      · rintro ⟨f, last, b, read, hcs, hread, hlast, -⟩
        by_cases hf : f = []
        · subst hf
          exact absurd hlast (hno last b hcs)
        · obtain ⟨piece, f', rfl, hpiece⟩ := hread.piece hf
          refine absurd hpiece (hno piece (f' ++ last ++ b) ?_)
          rw [hcs]
          simp only [List.append_assoc]

theorem decodeFrom_start {cs : List Char} {n : Nat} (hn : Text.bytes cs = n * 2) :
    (∀ bs, decodeFrom cs 0 n = .ok (some bs) ↔ Reads cs bs) ∧ (decodeFrom cs 0 n = .ok none ↔ Stops cs) :=
  @decodeFrom_iff [] cs 0 n rfl hn

/-- What a fixed field is read as. -/
structure Field (n : Nat) (hex : String) (bs : List UInt8) : Prop where
  size : Text.bytes (Text.trimChars hex.toList) = n * 2
  reads : Reads (Text.trimChars hex.toList) bs

/-- The fixed fields that are decoded without a panic. -/
def Safe (n : Nat) (hex : String) : Prop :=
  Text.bytes (Text.trimChars hex.toList) ≠ n * 2 ∨ (∃ bs, Reads (Text.trimChars hex.toList) bs) ∨ Stops (Text.trimChars hex.toList)

/-- `n` bytes in hexadecimal digits, whitespace around them aside. -/
def WellFormed (n : Nat) (hex : String) : Prop := ∃ bs, Denotes (Text.trimChars hex.toList) bs ∧ bs.length = n

theorem decodeFixed_some {n : Nat} {hex : String} {bs : List UInt8} : decodeFixed n hex = .ok (some bs) ↔ Field n hex bs := by
  unfold decodeFixed
  dsimp only
  split
  · rename_i hsize
    exact ⟨nofun, fun h => absurd h.size hsize⟩
  · rename_i hsize
    have hread := (decodeFrom_start (Decidable.not_not.1 hsize)).1 bs
    exact ⟨fun h => ⟨Decidable.not_not.1 hsize, hread.1 h⟩, fun h => hread.2 h.reads⟩

theorem decodeFixed_none {n : Nat} {hex : String} :
    decodeFixed n hex = .ok none ↔ Text.bytes (Text.trimChars hex.toList) ≠ n * 2 ∨ Stops (Text.trimChars hex.toList) := by
  unfold decodeFixed
  dsimp only
  split
  · rename_i hsize
    exact ⟨fun _ => Or.inl hsize, fun _ => rfl⟩
  · rename_i hsize
    have hstop := (decodeFrom_start (Decidable.not_not.1 hsize)).2
    exact ⟨fun h => Or.inr (hstop.1 h), fun h => hstop.2 (h.resolve_left hsize)⟩

theorem decodeHex_some {s : List Char} {bs : List UInt8} : decodeHex s = .ok (some bs) ↔ Reads s bs := by
  unfold decodeHex
  split
  · rename_i hodd
    refine ⟨nofun, fun h => absurd h.bytes_eq ?_⟩
    omega
  · rename_i heven
    exact (decodeFrom_start (show Text.bytes s = Text.bytes s / 2 * 2 by omega)).1 bs

theorem decodeHex_none {s : List Char} : decodeHex s = .ok none ↔ Text.bytes s % 2 ≠ 0 ∨ Stops s := by
  unfold decodeHex
  split
  · rename_i hodd
    exact ⟨fun _ => Or.inl hodd, fun _ => rfl⟩
  · rename_i heven
    have hstop := (decodeFrom_start (show Text.bytes s = Text.bytes s / 2 * 2 by omega)).2
    exact ⟨fun h => Or.inr (hstop.1 h), fun h => hstop.2 (h.resolve_left heven)⟩

/-- A decoder answers right where what it reads is right and where it answers nothing. -/
theorem answers_iff {α : Type} {r : Except Panic (Option α)} {reads right : α → Prop} {stops : Prop}
    (hsome : ∀ a, r = .ok (some a) ↔ reads a) (hnone : r = .ok none ↔ stops) (hright : ∀ a, right a → reads a) :
    (∃ found, r = .ok found ∧ ∀ a, found = some a ↔ right a) ↔ (∃ a, right a) ∨ stops := by
  constructor
  · rintro ⟨found, hr, hfound⟩
    cases found with
    | none => exact Or.inr (hnone.1 hr)
    | some a => exact Or.inl ⟨a, (hfound a).1 rfl⟩
  · rintro (⟨a, ha⟩ | hstop)
    · have hr := (hsome a).2 (hright a ha)
      refine ⟨some a, hr, ?_⟩
      intro b
      constructor
      · rintro ⟨⟩
        exact ha
      · intro hb
        exact Except.ok.inj (hr.symm.trans ((hsome b).2 (hright b hb)))
    · have hr := hnone.2 hstop
      refine ⟨none, hr, ?_⟩
      intro b
      refine ⟨nofun, fun hb => ?_⟩
      exact absurd (hr.symm.trans ((hsome b).2 (hright b hb))) nofun

theorem decodeFixed_answers (n : Nat) (hex : String) :
    (∃ found, decodeFixed n hex = .ok found ∧
      ∀ bs, found = some bs ↔ Denotes (Text.trimChars hex.toList) bs ∧ bs.length = n) ↔
    Text.bytes (Text.trimChars hex.toList) ≠ n * 2 ∨ (∃ bs, Denotes (Text.trimChars hex.toList) bs) ∨
      Stops (Text.trimChars hex.toList) := by
  have hright : ∀ bs, Denotes (Text.trimChars hex.toList) bs ∧ bs.length = n → Field n hex bs := by
    rintro bs ⟨hd, rfl⟩
    exact ⟨hd.reads.bytes_eq, hd.reads⟩
  rw [answers_iff (fun _ => decodeFixed_some) decodeFixed_none hright]
  constructor
  · rintro (⟨bs, hd, -⟩ | hsize | hstop)
    · exact Or.inr (Or.inl ⟨bs, hd⟩)
    · exact Or.inl hsize
    · exact Or.inr (Or.inr hstop)
  · rintro (hsize | ⟨bs, hd⟩ | hstop)
    · exact Or.inr (Or.inl hsize)
    · by_cases hlen : bs.length = n
      · exact Or.inl ⟨bs, hd, hlen⟩
      · have hbytes := hd.reads.bytes_eq
        exact Or.inr (Or.inl (by omega))
    · exact Or.inr (Or.inr hstop)

theorem decodeHex_answers (s : List Char) :
    (∃ found, decodeHex s = .ok found ∧ ∀ bs, found = some bs ↔ Denotes s bs) ↔
      (∃ bs, Denotes s bs) ∨ Text.bytes s % 2 ≠ 0 ∨ Stops s :=
  answers_iff (fun _ => decodeHex_some) decodeHex_none fun _ => Denotes.reads

/-! ## Round trip -/

theorem encodeHex_denotes (bytes : List UInt8) : Denotes (encodeHex bytes).toList bytes := by
  rw [encodeHex, String.toList_ofList]
  induction bytes with
  | nil => exact .nil
  | cons b bytes ih =>
    have hb := b.toNat_lt
    have hhigh := hexDigit_hexChar (show b.toNat / 16 < 16 by omega)
    have hlow := hexDigit_hexChar (show b.toNat % 16 < 16 by omega)
    have hbyte : UInt8.ofNat (b.toNat / 16 * 16 + b.toNat % 16) = b := by
      rw [show b.toNat / 16 * 16 + b.toNat % 16 = b.toNat by omega]
      exact UInt8.ofNat_toNat
    have hcons := Denotes.cons hhigh hlow ih
    rw [hbyte] at hcons
    exact hcons

theorem hexDigit_solid {c : Char} {x : Nat} (h : hexDigit c = some x) : Text.isWhitespace c = false := by
  have := hexDigit_some h
  unfold Text.isWhitespace
  simp only [Bool.or_eq_false_iff, Bool.and_eq_false_iff, decide_eq_false_iff_not]
  omega

theorem Denotes.solid {cs : List Char} {bs : List UInt8} (h : Denotes cs bs) : ∀ c ∈ cs, Text.isWhitespace c = false := by
  induction h with
  | nil => exact nofun
  | cons ha hb _ ih =>
    intro c hc
    rcases List.mem_cons.1 hc with rfl | hc
    · exact hexDigit_solid ha
    rcases List.mem_cons.1 hc with rfl | hc
    · exact hexDigit_solid hb
    · exact ih c hc

theorem Denotes.trim_eq {cs : List Char} {bs : List UInt8} (h : Denotes cs bs) : Text.trimChars cs = cs := by
  apply Text.trimChars_eq_self
  · intro c hc
    exact h.solid c (List.mem_of_head? hc)
  · intro c hc
    exact h.solid c (List.mem_of_getLast? hc)

theorem decodeFixed_encodeHex (bytes : List UInt8) : decodeFixed bytes.length (encodeHex bytes) = .ok (some bytes) := by
  have hd := encodeHex_denotes bytes
  rw [decodeFixed_some]
  constructor
  · rw [hd.trim_eq]
    exact hd.reads.bytes_eq
  · rw [hd.trim_eq]
    exact hd.reads

theorem decodeHex_encodeHex (bytes : List UInt8) : decodeHex (encodeHex bytes).toList = .ok (some bytes) :=
  decodeHex_some.2 (encodeHex_denotes bytes).reads

theorem encodeHex_injective {bytes other : List UInt8} (h : encodeHex bytes = encodeHex other) : bytes = other := by
  have read := decodeHex_encodeHex bytes
  rw [h, decodeHex_encodeHex] at read
  exact (Option.some.inj (Except.ok.inj read)).symm

theorem toLower_hexChar : ∀ n < 16, (hexChar n).toLower = hexChar n := by decide

/-- The digits are lowercase. -/
theorem toLower_encodeHex (bytes : List UInt8) : (encodeHex bytes).toList.map Char.toLower = (encodeHex bytes).toList := by
  rw [encodeHex, String.toList_ofList]
  induction bytes with
  | nil => rfl
  | cons b bytes ih =>
    have hb := b.toNat_lt
    rw [List.flatMap_cons, List.map_append, ih, List.map_cons, List.map_cons, toLower_hexChar _ (by omega),
      toLower_hexChar _ (by omega)]
    rfl

/-! ## Decoding field after field -/

/-- `let Some(a) = … else { return false };`, over what may panic. -/
def letSome {α : Type} (r : Except Panic (Option α)) (k : α → Except Panic Bool) : Except Panic Bool := do
  match ← r with
  | none => pure false
  | some a => k a

/-- `let Ok(a) = … else { return false };` -/
def letOk {ε α : Type} (r : Except ε α) (k : α → Except Panic Bool) : Except Panic Bool :=
  match r with
  | .error _ => pure false
  | .ok a => k a

theorem letSome_true {α : Type} {r : Except Panic (Option α)} {k : α → Except Panic Bool} :
    letSome r k = .ok true ↔ ∃ a, r = .ok (some a) ∧ k a = .ok true := by
  constructor
  · intro h
    rcases r with e | _ | a
    · cases h
    · cases h
    · exact ⟨a, rfl, h⟩
  · rintro ⟨a, rfl, h⟩
    exact h

theorem letOk_true {ε α : Type} {r : Except ε α} {k : α → Except Panic Bool} :
    letOk r k = .ok true ↔ ∃ a, r = .ok a ∧ k a = .ok true := by
  constructor
  · intro h
    cases r with
    | error e => cases h
    | ok a => exact ⟨a, rfl, h⟩
  · rintro ⟨a, rfl, h⟩
    exact h

/-- The check returns, and says yes only where `right` holds. -/
def Returns (right : Prop) (r : Except Panic Bool) : Prop := ∃ yes, r = .ok yes ∧ (yes = true → right)

theorem returns_pure {right : Prop} {yes : Bool} : Returns right (pure yes) ↔ (yes = true → right) := by
  constructor
  · rintro ⟨_, hyes, h⟩
    cases hyes
    exact h
  · intro h
    exact ⟨yes, rfl, h⟩

theorem returns_false (right : Prop) : Returns right (pure false) := returns_pure.2 nofun

theorem returns_letOk {ε α : Type} {right : Prop} {r : Except ε α} {k : α → Except Panic Bool} :
    Returns right (letOk r k) ↔ ∀ a, r = .ok a → Returns right (k a) := by
  cases r with
  | error e => exact ⟨fun _ => nofun, fun _ => returns_false right⟩
  | ok a =>
    constructor
    · rintro h _ ⟨⟩
      exact h
    · intro h
      exact h a rfl

/-- A field is safe, and whatever bytes it is read as, the rest of the check returns. -/
theorem returns_field {right : Prop} {n : Nat} {hex : String} {k : List UInt8 → Except Panic Bool} :
    Returns right (letSome (decodeFixed n hex) k) ↔ Safe n hex ∧ ∀ bs, Field n hex bs → Returns right (k bs) := by
  cases hr : decodeFixed n hex with
  | error e =>
    constructor
    · rintro ⟨_, h, -⟩
      cases h
    · rintro ⟨hsafe, -⟩
      by_cases hnone : Text.bytes (Text.trimChars hex.toList) ≠ n * 2 ∨ Stops (Text.trimChars hex.toList)
      · rw [decodeFixed_none.2 hnone] at hr
        cases hr
      · obtain ⟨hsize, hstop⟩ := not_or.1 hnone
        obtain ⟨bs, hread⟩ := (hsafe.resolve_left hsize).resolve_right hstop
        rw [decodeFixed_some.2 ⟨Decidable.not_not.1 hsize, hread⟩] at hr
        cases hr
  | ok found =>
    cases found with
    | none =>
      constructor
      · intro _
        refine ⟨(decodeFixed_none.1 hr).imp_right Or.inr, ?_⟩
        intro bs hfield
        rw [decodeFixed_some.2 hfield] at hr
        cases hr
      · intro _
        exact returns_false right
    | some bytes =>
      have hfield := decodeFixed_some.1 hr
      constructor
      · intro h
        refine ⟨Or.inr (Or.inl ⟨bytes, hfield.reads⟩), ?_⟩
        intro bs hbs
        obtain rfl : bytes = bs := Option.some.inj (Except.ok.inj (hr.symm.trans (decodeFixed_some.2 hbs)))
        exact h
      · rintro ⟨-, h⟩
        exact h bytes hfield

end GoblinPay.Hex
