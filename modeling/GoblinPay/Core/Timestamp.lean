import GoblinPay.Machine
import GoblinPay.Time.Calendar
import GoblinPay.Text.Decimal

/-!
# Timestamps

The two formatters of ISO 8601 timestamps, in `gp-core/src/webhook.rs` and `gp-server/src/payments.rs`, as functions
of the seconds since the epoch. Rust's `/` on integers is `Int.tdiv`, `div_euclid` and `rem_euclid` are `/` and `%`.
-/

namespace GoblinPay

open Text

/-- `format!("{n:0width$}")` of an `i64`. -/
def formatInt (width : Nat) (n : Int) : List Char :=
  if n < 0 then '-' :: zeroPad (width - 1) (Nat.toDigits 10 n.natAbs) else zeroPad width (Nat.toDigits 10 n.natAbs)

/-- `"{y:04}-{mo:02}-{d:02}T{h:02}:{m:02}:{s:02}Z"` -/
def isoText (y mo d h m s : Int) : String :=
  String.ofList (formatInt 4 y ++ '-' :: (formatInt 2 mo ++ '-' :: (formatInt 2 d ++ 'T' :: (formatInt 2 h ++ ':' ::
    (formatInt 2 m ++ ':' :: (formatInt 2 s ++ ['Z']))))))

namespace Webhook

def civilFromDays (z : Int) : Int × Int × Int :=
  let z := z + 719468
  let era := z / 146097
  let doe := z % 146097
  let yoe := (doe - doe.tdiv 1460 + doe.tdiv 36524 - doe.tdiv 146096).tdiv 365
  let y := yoe + era * 400
  let doy := doe - (365 * yoe + yoe.tdiv 4 - yoe.tdiv 100)
  let mp := (5 * doy + 2).tdiv 153
  let d := doy - (153 * mp + 2).tdiv 5 + 1
  let m := if mp < 10 then mp + 3 else mp - 9
  (if m ≤ 2 then y + 1 else y, m, d)

/-- `now_iso8601` at a reading of the clock. -/
def nowIso8601 (now : UInt64) : String :=
  let secs := now.toInt64.toInt
  let days := secs / 86400
  let tod := secs % 86400
  let (h, m, s) := (tod.tdiv 3600, (tod.tmod 3600).tdiv 60, tod.tmod 60)
  let (y, mo, d) := civilFromDays days
  isoText y mo d h m s

end Webhook

namespace Payments

def formatUnixUtc (secs : UInt64) : String :=
  let days : Int := (secs / 86400).toInt64.toInt
  let rem := secs % 86400
  let (hh, mm, ss) := (rem / 3600, (rem % 3600) / 60, rem % 60)
  let z := days + 719468
  let era := (if z ≥ 0 then z else z - 146096).tdiv 146097
  let doe := z - era * 146097
  let yoe := (doe - doe.tdiv 1460 + doe.tdiv 36524 - doe.tdiv 146096).tdiv 365
  let y := yoe + era * 400
  let doy := doe - (365 * yoe + yoe.tdiv 4 - yoe.tdiv 100)
  let mp := (5 * doy + 2).tdiv 153
  let d := doy - (153 * mp + 2).tdiv 5 + 1
  let m := if mp < 10 then mp + 3 else mp - 9
  let y := if m ≤ 2 then y + 1 else y
  isoText y m d hh.toNat mm.toNat ss.toNat

end Payments

example : Payments.formatUnixUtc 1000000000 = "2001-09-09T01:46:40Z" := by decide +kernel

/-! ## The civil date of a day

Both formatters count years from March in eras of 400 years.
-/

/-- The date of a day of an era, as both functions compute it. -/
def civilOfEra (era doe : Int) : Int × Int × Int :=
  let yoe := (doe - doe.tdiv 1460 + doe.tdiv 36524 - doe.tdiv 146096).tdiv 365
  let y := yoe + era * 400
  let doy := doe - (365 * yoe + yoe.tdiv 4 - yoe.tdiv 100)
  let mp := (5 * doy + 2).tdiv 153
  let d := doy - (153 * mp + 2).tdiv 5 + 1
  let m := if mp < 10 then mp + 3 else mp - 9
  (if m ≤ 2 then y + 1 else y, m, d)

theorem exists_div {m : Int} (hm : 0 < m) (n : Int) : ∃ q r, n = m * q + r ∧ 0 ≤ r ∧ r < m :=
  ⟨n / m, n % m, (Int.mul_ediv_add_emod n m).symm, Int.emod_nonneg n hm.ne', Int.emod_lt_of_pos n hm⟩

/-- The years and the days that have passed in a cycle of four years. -/
theorem cycle_split {t : Int} (h0 : 0 ≤ t) (h1 : t < 1461) :
    ∃ j i, 0 ≤ j ∧ j ≤ 3 ∧ 0 ≤ i ∧ (i < 365 ∨ i = 365 ∧ j = 3) ∧ t = 365 * j + i := by
  obtain ⟨j, i, ht, hi0, hi⟩ := exists_div (show (0 : Int) < 365 by decide) t
  by_cases leap : t = 1460
  · exact ⟨3, 365, by decide, by decide, by decide, Or.inr ⟨rfl, rfl⟩, leap⟩
  · exact ⟨j, i, by omega, by omega, hi0, Or.inl hi, ht⟩

/-- The centuries, the cycles, the years and the days that have passed in an era. -/
theorem era_split {doe : Int} (h0 : 0 ≤ doe) (h1 : doe < 146097) :
    ∃ q k j i, 0 ≤ q ∧ q ≤ 3 ∧ 0 ≤ k ∧ k ≤ 24 ∧ 0 ≤ j ∧ j ≤ 3 ∧ 0 ≤ i ∧ (i < 365 ∨ i = 365 ∧ j = 3 ∧ (k < 24 ∨ q = 3)) ∧
      doe = 36524 * q + 1461 * k + 365 * j + i := by
  by_cases last : doe = 146096
  · exact ⟨3, 24, 3, 365, by decide, by decide, by decide, by decide, by decide, by decide, by decide, by decide, last⟩
  · obtain ⟨q, r, hdoe, hr0, hr⟩ := exists_div (show (0 : Int) < 36524 by decide) doe
    obtain ⟨k, t, hrt, ht0, ht⟩ := exists_div (show (0 : Int) < 1461 by decide) r
    obtain ⟨j, i, hj0, hj3, hi0, hi, hti⟩ := cycle_split ht0 ht
    refine ⟨q, k, j, i, by omega, by omega, by omega, by omega, hj0, hj3, hi0, ?_, by omega⟩
    rcases hi with hi | ⟨hi, hj⟩
    · exact Or.inl hi
    · exact Or.inr ⟨hi, hj, by omega⟩

theorem year_of_split {q k j i : Int} (hq0 : 0 ≤ q) (hq3 : q ≤ 3) (hk0 : 0 ≤ k) (hk24 : k ≤ 24) (hj0 : 0 ≤ j) (hj3 : j ≤ 3)
    (hi0 : 0 ≤ i) (hi : i < 365 ∨ i = 365 ∧ j = 3 ∧ (k < 24 ∨ q = 3)) {doe : Int} (hdoe : doe = 36524 * q + 1461 * k + 365 * j + i) :
    (doe - doe / 1460 + doe / 36524 - doe / 146096) / 365 = 100 * q + 4 * k + j := by
  have quarter : doe / 1460 = 25 * q + k + (24 * q + k + 365 * j + i) / 1460 := by omega
  have carry : (24 * q + k + 365 * j + i) / 1460 = 0 ∧ 24 * q + k + 365 * j + i < 1460 ∨
      (24 * q + k + 365 * j + i) / 1460 = 1 ∧ 1460 ≤ 24 * q + k + 365 * j + i := by omega
  by_cases last : doe = 146096
  · subst last
    obtain ⟨rfl, rfl, rfl⟩ : q = 3 ∧ k = 24 ∧ j = 3 := by omega
    decide
  · have hc : doe / 36524 = q := by omega
    have he : doe / 146096 = 0 := by omega
    rw [hc, he, quarter]
    omega

/-- The date of a day of a year that is counted from March. -/
def civilOfYear (y doy : Int) : Int × Int × Int :=
  let mp := (5 * doy + 2) / 153
  let m := if mp < 10 then mp + 3 else mp - 9
  (if m ≤ 2 then y + 1 else y, m, doy - (153 * mp + 2) / 5 + 1)

theorem civilOfEra_eq (era : Int) {q k j i : Int} (hq0 : 0 ≤ q) (hq3 : q ≤ 3) (hk0 : 0 ≤ k) (hk24 : k ≤ 24) (hj0 : 0 ≤ j)
    (hj3 : j ≤ 3) (hi0 : 0 ≤ i) (hi : i < 365 ∨ i = 365 ∧ j = 3 ∧ (k < 24 ∨ q = 3)) {doe : Int}
    (hdoe : doe = 36524 * q + 1461 * k + 365 * j + i) :
    civilOfEra era doe = civilOfYear (100 * q + 4 * k + j + era * 400) i := by
  have h0 : 0 ≤ doe := by omega
  have year := year_of_split hq0 hq3 hk0 hk24 hj0 hj3 hi0 hi hdoe
  have pos : 0 ≤ doe - doe / 1460 + doe / 36524 - doe / 146096 := by omega
  have quads : (100 * q + 4 * k + j) / 4 = 25 * q + k := by omega
  have cents : (100 * q + 4 * k + j) / 100 = q := by omega
  have doy : doe - (365 * (100 * q + 4 * k + j) + (25 * q + k) - q) = i := by omega
  have month : 0 ≤ (5 * i + 2) / 153 := by omega
  unfold civilOfEra civilOfYear
  simp only [Int.tdiv_eq_ediv_of_nonneg h0, Int.tdiv_eq_ediv_of_nonneg pos, year,
    Int.tdiv_eq_ediv_of_nonneg (show 0 ≤ 100 * q + 4 * k + j by omega), quads, cents, doy,
    Int.tdiv_eq_ediv_of_nonneg (show 0 ≤ 5 * i + 2 by omega),
    Int.tdiv_eq_ediv_of_nonneg (show 0 ≤ 153 * ((5 * i + 2) / 153) + 2 by omega)]

def dateOf (civil : Int × Int × Int) : Calendar.Date := ⟨civil.1, civil.2.1, civil.2.2⟩

section

open Calendar

theorem daysInMonth_from_march (y : Int) {mp : Int} (h0 : 0 ≤ mp) (h9 : mp < 10) :
    daysInMonth y (mp + 3) = (153 * (mp + 1) + 2) / 5 - (153 * mp + 2) / 5 := by
  interval_cases mp <;> rfl

theorem daysBeforeMonth_march (y : Int) : daysBeforeMonth y 3 = 59 + if IsLeap y then 1 else 0 := by
  have two : daysBeforeMonth y 3 = daysInMonth y 1 + daysInMonth y 2 := by
    rw [show (3 : Int) = 1 + 1 + 1 from rfl, daysBeforeMonth_succ (by decide), daysBeforeMonth_succ (by decide)]
    exact congrArg (· + _) (Int.zero_add _)
  rw [two]
  change 31 + (if IsLeap y then 29 else 28) = _
  split <;> rfl

theorem daysBeforeMonth_from_march (y : Int) {mp : Int} (h0 : 0 ≤ mp) (h9 : mp < 10) :
    daysBeforeMonth y (mp + 3) = 59 + (if IsLeap y then 1 else 0) + (153 * mp + 2) / 5 := by
  induction mp, h0 using Int.leInduction with
  | base =>
    rw [Int.zero_add, daysBeforeMonth_march]
    exact (Int.add_zero _).symm
  | succ mp h0 ih =>
    have next : daysBeforeMonth y (mp + 3 + 1) = _ := daysBeforeMonth_succ (by omega)
    rw [show mp + 1 + 3 = mp + 3 + 1 by omega, next, ih (by omega), daysInMonth_from_march y h0 (by omega)]
    omega

/-- The algorithm gives a date of the calendar, and the day it was given. -/
theorem civilOfYear_valid {y doy : Int} (h0 : 0 ≤ doy) (h : doy < 365 ∨ doy = 365 ∧ IsLeap (y + 1)) :
    (dateOf (civilOfYear y doy)).Valid ∧
      (dateOf (civilOfYear y doy)).dayNumber = daysBeforeYear (y + 1) - daysBeforeYear 1970 - 306 + doy := by
  obtain ⟨mp, hmp⟩ : ∃ mp, mp = (5 * doy + 2) / 153 := ⟨_, rfl⟩
  rcases lt_or_ge mp 10 with hlt | hge
  · have civil : dateOf (civilOfYear y doy) = ⟨y, mp + 3, doy - (153 * mp + 2) / 5 + 1⟩ := by
      unfold civilOfYear
      rw [← hmp]
      simp only [if_pos hlt, dateOf]
      rw [if_neg (by omega)]
    rw [civil]
    refine ⟨⟨⟨?_, ?_⟩, ?_, ?_⟩, ?_⟩
    · change 1 ≤ mp + 3
      omega
    · change mp + 3 ≤ 12
      omega
    · change 1 ≤ doy - (153 * mp + 2) / 5 + 1
      omega
    · change doy - (153 * mp + 2) / 5 + 1 ≤ daysInMonth y (mp + 3)
      rw [daysInMonth_from_march y (by omega) hlt]
      omega
    · change daysBeforeYear y - daysBeforeYear 1970 + daysBeforeMonth y (mp + 3) + (doy - (153 * mp + 2) / 5 + 1 - 1) = _
      rw [daysBeforeMonth_from_march y (by omega) hlt, daysBeforeYear_succ, daysInYear]
      split <;> omega
  · -- January and February belong to the next year
    have civil : dateOf (civilOfYear y doy) = ⟨y + 1, mp - 9, doy - (153 * mp + 2) / 5 + 1⟩ := by
      unfold civilOfYear
      rw [← hmp]
      simp only [if_neg (not_lt.2 hge), dateOf]
      rw [if_pos (by omega)]
    have february : daysInMonth (y + 1) 2 = if IsLeap (y + 1) then 29 else 28 := rfl
    rw [civil]
    obtain rfl | rfl : mp = 10 ∨ mp = 11 := by omega
    · refine ⟨⟨⟨show (1 : Int) ≤ 1 by decide, show (1 : Int) ≤ 12 by decide⟩, ?_, ?_⟩, ?_⟩
      · change 1 ≤ doy - 306 + 1
        omega
      · change doy - 306 + 1 ≤ 31
        omega
      · change daysBeforeYear (y + 1) - daysBeforeYear 1970 + 0 + (doy - 306 + 1 - 1) = _
        omega
    · refine ⟨⟨⟨show (1 : Int) ≤ 2 by decide, show (2 : Int) ≤ 12 by decide⟩, ?_, ?_⟩, ?_⟩
      · change 1 ≤ doy - 337 + 1
        omega
      · change doy - 337 + 1 ≤ daysInMonth (y + 1) 2
        rw [february]
        rcases h with h | ⟨h, leap⟩
        · split <;> omega
        · rw [if_pos leap]
          omega
      · change daysBeforeYear (y + 1) - daysBeforeYear 1970 + 31 + (doy - 337 + 1 - 1) = _
        omega

theorem civilOfEra_valid (era : Int) {doe : Int} (h0 : 0 ≤ doe) (h1 : doe < 146097) :
    (dateOf (civilOfEra era doe)).Valid ∧ (dateOf (civilOfEra era doe)).dayNumber = era * 146097 + doe - 719468 := by
  obtain ⟨q, k, j, i, hq0, hq3, hk0, hk24, hj0, hj3, hi0, hi, hdoe⟩ := era_split h0 h1
  have leap : i < 365 ∨ i = 365 ∧ IsLeap (100 * q + 4 * k + j + era * 400 + 1) := by
    rcases hi with hi | ⟨hi, hj, hk⟩
    · exact Or.inl hi
    · refine Or.inr ⟨hi, ?_⟩
      unfold IsLeap
      omega
  have days : daysBeforeYear (100 * q + 4 * k + j + era * 400 + 1) = 146097 * era + 36524 * q + 1461 * k + 365 * j := by
    unfold daysBeforeYear
    omega
  obtain ⟨valid, day⟩ := civilOfYear_valid hi0 leap
  rw [civilOfEra_eq era hq0 hq3 hk0 hk24 hj0 hj3 hi0 hi hdoe]
  refine ⟨valid, ?_⟩
  rw [day, days]
  change _ - 719162 - 306 + i = _
  omega

end

/-! ## The two formatters -/

theorem civilFromDays_eq (z : Int) :
    Webhook.civilFromDays z = civilOfEra ((z + 719468) / 146097) ((z + 719468) % 146097) := rfl

theorem civilFromDays_valid (z : Int) :
    (dateOf (Webhook.civilFromDays z)).Valid ∧ (dateOf (Webhook.civilFromDays z)).dayNumber = z := by
  have h0 := Int.emod_nonneg (z + 719468) (show (146097 : Int) ≠ 0 by decide)
  have h1 := Int.emod_lt_of_pos (z + 719468) (show (0 : Int) < 146097 by decide)
  obtain ⟨valid, day⟩ := civilOfEra_valid ((z + 719468) / 146097) h0 h1
  rw [civilFromDays_eq]
  refine ⟨valid, ?_⟩
  rw [day]
  have split := Int.ediv_mul_add_emod (z + 719468) 146097
  omega

/-- The text of a date and the seconds of the day. -/
def stamp (date : Calendar.Date) (tod : Nat) : String :=
  isoText date.year date.month date.day (tod / 3600) (tod % 3600 / 60) (tod % 60)

theorem nowIso8601_eq {now : UInt64} (h : now.toNat < 2 ^ 63) :
    Webhook.nowIso8601 now = stamp (dateOf (Webhook.civilFromDays (now.toNat / 86400 : ℕ))) (now.toNat % 86400) := by
  have tod : 0 ≤ (now.toNat : Int) % 86400 := by omega
  have hour : 0 ≤ (now.toNat : Int) % 86400 % 3600 := by omega
  unfold Webhook.nowIso8601 stamp
  rw [toInt_toInt64, if_pos h]
  simp only [Int.tdiv_eq_ediv_of_nonneg tod, Int.tmod_eq_emod_of_nonneg tod, Int.tdiv_eq_ediv_of_nonneg hour]
  rfl

theorem formatUnixUtc_eq (secs : UInt64) :
    Payments.formatUnixUtc secs = stamp (dateOf (Webhook.civilFromDays (secs.toNat / 86400 : ℕ))) (secs.toNat % 86400) := by
  have size : secs.toNat < 2 ^ 64 := secs.toNat_lt
  have days : (secs / 86400).toInt64.toInt = (secs.toNat / 86400 : ℕ) := by
    have quotient : (secs / 86400).toNat = secs.toNat / 86400 := UInt64.toNat_div secs 86400
    rw [toInt_toInt64, if_pos (by omega), quotient]
  have era : ((secs.toNat / 86400 : ℕ) + 719468 : Int).tdiv 146097 = ((secs.toNat / 86400 : ℕ) + 719468 : Int) / 146097 :=
    Int.tdiv_eq_ediv_of_nonneg (by omega)
  have doe : ((secs.toNat / 86400 : ℕ) + 719468 : Int) - ((secs.toNat / 86400 : ℕ) + 719468 : Int) / 146097 * 146097 =
      ((secs.toNat / 86400 : ℕ) + 719468 : Int) % 146097 := by omega
  rw [civilFromDays_eq]
  unfold Payments.formatUnixUtc
  simp only [days]
  rw [if_pos (show ((secs.toNat / 86400 : ℕ) + 719468 : Int) ≥ 0 by omega), era, doe]
  rfl

/-! ## The order of timestamps -/

theorem formatInt_digits {width : Nat} {n : Int} (h0 : 0 ≤ n) (h : n < 10 ^ width) (hw : 0 < width) :
    (formatInt width n).length = width ∧ (∀ c ∈ formatInt width n, c.isDigit) ∧
      Nat.ofDigitChars 10 (formatInt width n) 0 = n.natAbs := by
  have small : n.natAbs < 10 ^ width := by
    have cast : ((10 ^ width : ℕ) : Int) = 10 ^ width := by push_cast; rfl
    omega
  rw [formatInt, if_neg (not_lt.2 h0)]
  refine ⟨length_zeroPad ((Nat.length_toDigits_le_iff (by decide) hw).2 small), isDigit_zeroPad fun c => isDigit_toDigits, ?_⟩
  rw [ofDigitChars_zeroPad, Nat.ofDigitChars_ten_toDigits]

theorem formatInt_lt {width : Nat} {n m : Int} (h0 : 0 ≤ n) (hlt : n < m) (h : m < 10 ^ width) (hw : 0 < width) (xs ys : List Char) :
    formatInt width n ++ xs < formatInt width m ++ ys := by
  obtain ⟨hlen, hdigits, hval⟩ := formatInt_digits h0 (hlt.trans h) hw
  obtain ⟨hlen', hdigits', hval'⟩ := formatInt_digits (h0.trans hlt.le) h hw
  refine append_lt_append (hlen.trans hlen'.symm) (lt_of_ofDigitChars_lt (hlen.trans hlen'.symm) hdigits hdigits' ?_) xs ys
  rw [hval, hval']
  omega

/-- The same field in front leaves the order to what stands behind. -/
theorem append_cons_lt (cs : List Char) (c : Char) {xs ys : List Char} (h : xs < ys) : cs ++ c :: xs < cs ++ c :: ys :=
  List.append_left_lt (List.cons_lt_cons_iff.2 (Or.inr ⟨rfl, h⟩))

/-- A date whose year has four digits. -/
structure FourDigit (date : Calendar.Date) : Prop where
  valid : date.Valid
  year : 0 ≤ date.year ∧ date.year ≤ 9999

theorem FourDigit.day_lt {date : Calendar.Date} (h : FourDigit date) : date.day < 100 := by
  have bound : Calendar.daysInMonth date.year date.month ≤ 31 := by
    unfold Calendar.daysInMonth
    split
    · split <;> decide
    · split <;> decide
  have := h.valid.day
  omega

/-- Of two dates, the earlier has the smaller timestamps. -/
theorem stamp_lt_of_before {date other : Calendar.Date} (hd : FourDigit date) (ho : FourDigit other)
    (h : date.Before other) (tod tod' : Nat) : stamp date tod < stamp other tod' := by
  have hday := ho.day_lt
  have hy := hd.year
  have hy' := ho.year
  have hm := hd.valid.month
  have hm' := ho.valid.month
  have hd0 := hd.valid.day
  unfold stamp isoText
  rw [String.lt_iff, String.toList_ofList, String.toList_ofList]
  rcases h with h | ⟨h, hlt | ⟨hmonth, hlt⟩⟩
  · exact formatInt_lt hy.1 h (by omega) (by decide) _ _
  · rw [h]
    exact append_cons_lt _ _ (formatInt_lt (by omega) hlt (by omega) (by decide) _ _)
  · rw [h, hmonth]
    exact append_cons_lt _ _ (append_cons_lt _ _ (formatInt_lt (by omega) hlt (by omega) (by decide) _ _))

/-- Within a day, the earlier second has the smaller timestamp. -/
theorem stamp_lt_of_tod (date : Calendar.Date) {tod tod' : Nat} (h : tod < tod') (h' : tod' < 86400) :
    stamp date tod < stamp date tod' := by
  unfold stamp isoText
  rw [String.lt_iff, String.toList_ofList, String.toList_ofList]
  refine append_cons_lt _ _ (append_cons_lt _ _ (append_cons_lt _ _ ?_))
  rcases Nat.lt_or_ge (tod / 3600) (tod' / 3600) with hh | hh
  · exact formatInt_lt (by omega) (by omega) (by omega) (by decide) _ _
  have hour : (tod / 3600 : Int) = tod' / 3600 := by omega
  rw [hour]
  refine append_cons_lt _ _ ?_
  rcases Nat.lt_or_ge (tod % 3600 / 60) (tod' % 3600 / 60) with hm | hm
  · exact formatInt_lt (by omega) (by omega) (by omega) (by decide) _ _
  have minute : (tod % 3600 / 60 : Int) = tod' % 3600 / 60 := by omega
  rw [minute]
  exact append_cons_lt _ _ (formatInt_lt (by omega) (by omega) (by omega) (by decide) _ _)

theorem length_stamp {date : Calendar.Date} (h : FourDigit date) {tod : Nat} (ht : tod < 86400) :
    (stamp date tod).toList.length = 20 := by
  have hy := h.year
  have hm := h.valid.month
  have hd := h.valid.day
  have hday := h.day_lt
  have width4 : ∀ n : Int, 0 ≤ n → n < 10 ^ 4 → (formatInt 4 n).length = 4 := fun n h0 h => (formatInt_digits h0 h (by decide)).1
  have width2 : ∀ n : Int, 0 ≤ n → n < 10 ^ 2 → (formatInt 2 n).length = 2 := fun n h0 h => (formatInt_digits h0 h (by decide)).1
  unfold stamp isoText
  simp only [String.toList_ofList, List.length_append, List.length_cons, List.length_nil]
  rw [width4 _ hy.1 (by omega), width2 _ (by omega) (by omega), width2 _ (by omega) (by omega), width2 _ (by omega) (by omega),
    width2 _ (by omega) (by omega), width2 _ (by omega) (by omega)]

/-- The date of a Unix time. -/
def unixDate (secs : UInt64) : Calendar.Date := dateOf (Webhook.civilFromDays (secs.toNat / 86400 : ℕ))

theorem unixDate_valid (secs : UInt64) : (unixDate secs).Valid ∧ (unixDate secs).dayNumber = (secs.toNat / 86400 : ℕ) :=
  civilFromDays_valid _

theorem unixDate_fourDigit {secs : UInt64} (h : (unixDate secs).year ≤ 9999) : FourDigit (unixDate secs) := by
  obtain ⟨valid, day⟩ := unixDate_valid secs
  refine ⟨valid, ?_, h⟩
  by_contra hneg
  -- a date before the epoch has a negative day number
  have epoch : Calendar.Date.Valid ⟨1970, 1, 1⟩ := ⟨⟨show (1 : Int) ≤ 1 by decide, show (1 : Int) ≤ 12 by decide⟩,
    show (1 : Int) ≤ 1 by decide, show (1 : Int) ≤ Calendar.daysInMonth 1970 1 by decide⟩
  have before := valid.dayNumber_lt epoch (Or.inl (show (unixDate secs).year < 1970 by omega))
  rw [day] at before
  have zero : Calendar.Date.dayNumber ⟨1970, 1, 1⟩ = 0 := by decide
  omega

/-- A time in the years up to 9999 fits an `i64`. -/
theorem lt_of_year {secs : UInt64} (h : (unixDate secs).year ≤ 9999) : secs.toNat < 2 ^ 63 := by
  obtain ⟨valid, day⟩ := unixDate_valid secs
  have years := Calendar.daysBeforeYear_mono (show (unixDate secs).year + 1 ≤ 10000 by omega)
  have inYear := valid.lt_year
  rw [Calendar.daysBeforeYear_succ] at years
  have top : Calendar.daysBeforeYear 10000 = 3652059 := by decide
  have base : Calendar.daysBeforeYear 1970 = 719162 := by decide
  unfold Calendar.Date.dayNumber at day
  omega

theorem stamp_lt {earlier secs : UInt64} (h : (unixDate secs).year ≤ 9999) (hlt : earlier.toNat < secs.toNat) :
    stamp (unixDate earlier) (earlier.toNat % 86400) < stamp (unixDate secs) (secs.toNat % 86400) := by
  obtain ⟨valid, day⟩ := unixDate_valid secs
  obtain ⟨valid', day'⟩ := unixDate_valid earlier
  rcases Nat.lt_or_ge (earlier.toNat / 86400) (secs.toNat / 86400) with hday | hday
  · have before := valid'.before_of_dayNumber_lt valid (by rw [day, day']; omega)
    have year : (unixDate earlier).year ≤ 9999 := by
      rcases before with hy | ⟨hy, -⟩
      · omega
      · omega
    exact stamp_lt_of_before (unixDate_fourDigit year) (unixDate_fourDigit h) before _ _
  · have same : unixDate earlier = unixDate secs := valid'.eq_of_dayNumber_eq valid (by rw [day, day']; omega)
    rw [same]
    exact stamp_lt_of_tod _ (by omega) (Nat.mod_lt _ (by decide))

/-- Up to the year 9999 the two formatters write the same twenty characters: the date of the calendar that counts as
the day of the time, and the time of that day; and later times have later texts. -/
theorem timestamps_exact (secs : UInt64) :
    ∃ date : Calendar.Date, date.Valid ∧ date.dayNumber = (secs.toNat / 86400 : ℕ) ∧
      (∀ other : Calendar.Date, other.Valid → other.dayNumber = (secs.toNat / 86400 : ℕ) → other = date) ∧
      (date.year ≤ 9999 →
        Payments.formatUnixUtc secs = stamp date (secs.toNat % 86400) ∧
        Webhook.nowIso8601 secs = Payments.formatUnixUtc secs ∧
        (Payments.formatUnixUtc secs).toList.length = 20 ∧
        ∀ earlier < secs, Payments.formatUnixUtc earlier < Payments.formatUnixUtc secs) := by
  obtain ⟨valid, day⟩ := unixDate_valid secs
  refine ⟨unixDate secs, valid, day, fun other ho hday => ho.eq_of_dayNumber_eq valid (hday.trans day.symm), fun year => ?_⟩
  have text : Payments.formatUnixUtc secs = stamp (unixDate secs) (secs.toNat % 86400) := formatUnixUtc_eq secs
  refine ⟨text, ?_, ?_, fun earlier hlt => ?_⟩
  · rw [text]
    exact nowIso8601_eq (lt_of_year year)
  · rw [text]
    exact length_stamp (unixDate_fourDigit year) (Nat.mod_lt _ (by decide))
  · rw [text, formatUnixUtc_eq earlier]
    exact stamp_lt year (UInt64.lt_iff_toNat_lt.1 hlt)

end GoblinPay
