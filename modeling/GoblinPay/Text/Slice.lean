import GoblinPay.Text

/-!
# Slices by byte offset

Text is cut at byte offsets, and a cut past the end or inside a character panics. `sliceTo_ok`,
`sliceFrom_ok` and `slice_ok` read a successful cut as a split of the characters.
-/

namespace GoblinPay

/-- How a thread panics: a slice whose ends are no character boundaries of the text. -/
inductive Panic
  | slice
  deriving DecidableEq, Repr

namespace Text

theorem bytes_cons (c : Char) (cs : List Char) : bytes (c :: cs) = c.utf8Size + bytes cs := by
  simp [bytes]

theorem bytes_append (cs ds : List Char) : bytes (cs ++ ds) = bytes cs + bytes ds := by
  simp [bytes]

theorem bytes_pos {cs : List Char} (h : cs ≠ []) : 0 < bytes cs := by
  obtain ⟨c, cs, rfl⟩ := List.exists_cons_of_ne_nil h
  have := c.utf8Size_pos
  rw [bytes_cons]
  omega

/-- `str::find`, as the byte offset of the first occurrence. -/
def findAt (pat : List Char) : List Char → Option Nat
  | [] => if pat = [] then some 0 else none
  | c :: cs => if pat.isPrefixOf (c :: cs) then some 0 else (findAt pat cs).map (c.utf8Size + ·)

/-- `&s[..n]`. -/
def sliceTo : Nat → List Char → Except Panic (List Char)
  | 0, _ => .ok []
  | _ + 1, [] => .error .slice
  | n + 1, c :: cs =>
    if c.utf8Size ≤ n + 1 then (sliceTo (n + 1 - c.utf8Size) cs).map (c :: ·) else .error .slice

/-- `&s[n..]`. -/
def sliceFrom : Nat → List Char → Except Panic (List Char)
  | 0, cs => .ok cs
  | _ + 1, [] => .error .slice
  | n + 1, c :: cs => if c.utf8Size ≤ n + 1 then sliceFrom (n + 1 - c.utf8Size) cs else .error .slice

/-- `&s[m..n]`. -/
def slice (m n : Nat) (cs : List Char) : Except Panic (List Char) := do
  let front ← sliceTo n cs
  sliceFrom m front

/-! ## Cuts at a boundary -/

theorem sliceTo_bytes (p r : List Char) : sliceTo (bytes p) (p ++ r) = .ok p := by
  induction p with
  | nil =>
    cases r <;> rfl
  | cons c p ih =>
    obtain ⟨k, hk⟩ : ∃ k, c.utf8Size + bytes p = k + 1 := ⟨c.utf8Size + bytes p - 1, by have := c.utf8Size_pos; omega⟩
    have hrest : k + 1 - c.utf8Size = bytes p := by omega
    rw [bytes_cons, hk, List.cons_append, sliceTo, if_pos (by omega), hrest, ih]
    rfl

theorem sliceFrom_bytes (p r : List Char) : sliceFrom (bytes p) (p ++ r) = .ok r := by
  induction p with
  | nil =>
    cases r <;> rfl
  | cons c p ih =>
    obtain ⟨k, hk⟩ : ∃ k, c.utf8Size + bytes p = k + 1 := ⟨c.utf8Size + bytes p - 1, by have := c.utf8Size_pos; omega⟩
    have hrest : k + 1 - c.utf8Size = bytes p := by omega
    rw [bytes_cons, hk, List.cons_append, sliceFrom, if_pos (by omega), hrest, ih]

theorem slice_bytes (p m r : List Char) : slice (bytes p) (bytes p + bytes m) (p ++ m ++ r) = .ok m := by
  have hfront : sliceTo (bytes p + bytes m) (p ++ m ++ r) = .ok (p ++ m) := by
    rw [← bytes_append]
    exact sliceTo_bytes (p ++ m) r
  rw [slice, hfront]
  exact sliceFrom_bytes p m

/-! ## What a cut that succeeds says -/

theorem sliceTo_ok {n : Nat} {cs p : List Char} (h : sliceTo n cs = .ok p) : ∃ r, cs = p ++ r ∧ bytes p = n := by
  induction cs generalizing n p with
  | nil =>
    cases n with
    | zero =>
      cases h
      exact ⟨[], rfl, rfl⟩
    | succ n => cases h
  | cons c cs ih =>
    cases n with
    | zero =>
      cases h
      exact ⟨c :: cs, rfl, rfl⟩
    | succ n =>
      rw [sliceTo] at h
      split at h
      · cases hcut : sliceTo (n + 1 - c.utf8Size) cs with
        | error e =>
          rw [hcut] at h
          cases h
        | ok q =>
          rw [hcut] at h
          cases h
          obtain ⟨r, rfl, hq⟩ := ih hcut
          exact ⟨r, rfl, by rw [bytes_cons]; omega⟩
      · cases h

theorem sliceFrom_ok {n : Nat} {cs r : List Char} (h : sliceFrom n cs = .ok r) : ∃ p, cs = p ++ r ∧ bytes p = n := by
  induction cs generalizing n with
  | nil =>
    cases n with
    | zero =>
      cases h
      exact ⟨[], rfl, rfl⟩
    | succ n => cases h
  | cons c cs ih =>
    cases n with
    | zero =>
      cases h
      exact ⟨[], rfl, rfl⟩
    | succ n =>
      rw [sliceFrom] at h
      split at h
      · obtain ⟨p, rfl, hp⟩ := ih h
        exact ⟨c :: p, rfl, by rw [bytes_cons]; omega⟩
      · cases h

theorem slice_ok {i j : Nat} {cs m : List Char} (h : slice i j cs = .ok m) :
    ∃ p r, cs = p ++ m ++ r ∧ bytes p = i ∧ bytes p + bytes m = j := by
  cases hfront : sliceTo j cs with
  | error e =>
    rw [slice, hfront] at h
    cases h
  | ok front =>
    rw [slice, hfront] at h
    obtain ⟨r, rfl, hj⟩ := sliceTo_ok hfront
    obtain ⟨p, rfl, hi⟩ := sliceFrom_ok h
    exact ⟨p, r, rfl, hi, by rw [← bytes_append]; exact hj⟩

/-! ## Searching -/

/-- The offset a search answers is the length of the text before the occurrence. -/
theorem findAt_eq_some {pat cs r : List Char} (h : find pat cs = some r) :
    ∃ p, cs = p ++ r ∧ findAt pat cs = some (bytes p) := by
  induction cs with
  | nil =>
    unfold find at h
    split at h
    · rename_i hpat
      cases h
      exact ⟨[], rfl, if_pos hpat⟩
    · cases h
  | cons c cs ih =>
    unfold find at h
    split at h
    · rename_i hpat
      cases h
      exact ⟨[], rfl, if_pos hpat⟩
    · rename_i hpat
      obtain ⟨p, hp, hat⟩ := ih h
      refine ⟨c :: p, by rw [hp, List.cons_append], ?_⟩
      rw [findAt, if_neg hpat, hat, bytes_cons]
      rfl

theorem findAt_eq_none {pat cs : List Char} (h : find pat cs = none) : findAt pat cs = none := by
  induction cs with
  | nil =>
    unfold find at h
    split at h
    · cases h
    · rename_i hpat
      exact if_neg hpat
  | cons c cs ih =>
    unfold find at h
    split at h
    · cases h
    · rename_i hpat
      rw [findAt, if_neg hpat, ih h]
      rfl

/-- No occurrence of the pattern starts before the one found. -/
theorem find_first {pat cs r p r' : List Char} (h : find pat cs = some r) (hcs : cs = p ++ r') (hpat : pat <+: r') :
    r'.length ≤ r.length := by
  induction cs generalizing p with
  | nil =>
    obtain ⟨-, rfl⟩ := List.append_eq_nil_iff.1 hcs.symm
    exact Nat.zero_le _
  | cons c cs ih =>
    unfold find at h
    split at h
    · cases h
      rw [hcs, List.length_append]
      exact Nat.le_add_left _ _
    · rename_i hno
      cases p with
      | nil =>
        obtain rfl : c :: cs = r' := hcs
        exact absurd (List.isPrefixOf_iff_prefix.2 hpat) hno
      | cons d p => exact ih h (List.cons.inj hcs).2

theorem not_prefix_of_find {pat cs p r : List Char} (h : find pat cs = none) (hcs : cs = p ++ r) : ¬ pat <+: r := by
  intro hpat
  induction cs generalizing p with
  | nil =>
    obtain ⟨-, rfl⟩ := List.append_eq_nil_iff.1 hcs.symm
    obtain rfl := List.prefix_nil.1 hpat
    cases h
  | cons c cs ih =>
    unfold find at h
    split at h
    · cases h
    · rename_i hno
      cases p with
      | nil =>
        obtain rfl : c :: cs = r := hcs
        exact hno (List.isPrefixOf_iff_prefix.2 hpat)
      | cons d p => exact ih h (List.cons.inj hcs).2

/-- A search passes over text without the first character of its pattern. -/
theorem find_append_of_notMem {a : Char} {pat p s : List Char} (h : a ∉ p) : find (a :: pat) (p ++ s) = find (a :: pat) s := by
  induction p with
  | nil => rfl
  | cons c p ih =>
    have hc : a ≠ c := fun hac => h (hac ▸ List.mem_cons_self)
    have hno : ¬ (a :: pat).isPrefixOf (c :: (p ++ s)) = true := by
      simp [List.isPrefixOf, hc]
    rw [List.cons_append, find, if_neg hno]
    exact ih fun hp => h (List.mem_cons_of_mem c hp)

end Text

end GoblinPay
