import LanWeave.Library.Positional

/-! `time.Time` in UTC: an instant is its number of nanoseconds since 1970, a date is found by
the 400-year cycle of the calendar, and RFC 3339 text orders the years 0000 to 9999 as time does. -/

namespace LanWeave
open Library

/-- `time.Second`, in nanoseconds. -/
def second : Int := 1000000000

/-- Seconds from the start of year 0 to the start of 1970. -/
def unixToYearZero : Int := 62167219200

/-- Days of the cycle before its `y`-th year. -/
def daysBeforeYear (y : ℕ) : ℕ := 365 * y + (y + 3) / 4 - (y + 99) / 100 + (y + 399) / 400

def isLeap (y : ℕ) : Bool := y % 4 = 0 && (y % 100 ≠ 0 || y % 400 = 0)

/-- Days of a year before its `m`-th month, counted from 0. -/
def daysBefore (leap : Bool) (m : ℕ) : ℕ :=
  ([0, 31, 59, 90, 120, 151, 181, 212, 243, 273, 304, 334, 365].getD m 365) +
    if leap && 2 ≤ m then 1 else 0

structure Date where
  year : Int
  month : ℕ
  day : ℕ
deriving DecidableEq

/-- The date of a day, counted from the start of year 0. -/
def dateOfDay (day : Int) : Date :=
  let inCycle := (day % 146097).toNat
  let year := slot daysBeforeYear 399 inCycle
  let inYear := inCycle - daysBeforeYear year
  let month := slot (daysBefore (isLeap year)) 11 inYear
  ⟨400 * (day / 146097) + year, month + 1, inYear - daysBefore (isLeap year) month + 1⟩

/-- `appendInt`: zero-padded to a width, which longer numbers exceed. -/
def appendInt (x : Int) (width : ℕ) : List Char :=
  let text := if x.natAbs < 10 ^ width then digits width x.natAbs else Nat.toDigits 10 x.natAbs
  if x < 0 then '-' :: text else text

/-- `Format(time.RFC3339)` of an instant given in seconds. -/
def formatSeconds (t : Int) : String :=
  let d := dateOfDay ((t + unixToYearZero) / 86400)
  let s := ((t + unixToYearZero) % 86400).toNat
  String.ofList <| appendInt d.year 4 ++ '-' :: (digits 2 d.month ++ '-' :: (digits 2 d.day ++
    'T' :: (digits 2 (s / 3600) ++ ':' :: (digits 2 (s / 60 % 60) ++ ':' :: (digits 2 (s % 60) ++
    ['Z'])))))

/-- `t.Truncate(time.Second)`, in seconds. -/
def truncateSecond (t : Int) : Int := t / second

/-- The second of an instant lies before `e` exactly when the instant does. -/
theorem truncateSecond_lt_iff (t e : Int) : truncateSecond t < e ↔ t < e * second :=
  Int.ediv_lt_iff_lt_mul (by decide)

theorem truncateSecond_le {a b : Int} (h : a ≤ b) : truncateSecond a ≤ truncateSecond b :=
  Int.ediv_le_ediv (by decide) h

theorem truncateSecond_add (a n : Int) : truncateSecond (a + n * second) = truncateSecond a + n :=
  Int.add_mul_ediv_right a n (by decide)

def formatRFC3339 (t : Int) : String := formatSeconds (truncateSecond t)

example : formatRFC3339 1772328645999999999 = "2026-03-01T01:30:45Z" := by decide +kernel

/-- The second lies in the years 0000 to 9999. -/
def InYears (t : Int) : Prop := 0 ≤ t + unixToYearZero ∧ t + unixToYearZero < 3652425 * 86400

def Date.Before (d d' : Date) : Prop :=
  d.year < d'.year ∨ d.year = d'.year ∧ (d.month < d'.month ∨ d.month = d'.month ∧ d.day < d'.day)

theorem daysBeforeYear_length (y : ℕ) : daysBeforeYear (y + 1) ≤ daysBeforeYear y + 366 := by
  unfold daysBeforeYear
  omega

theorem dateOfDay_before {a b : Int} (h : a < b) : (dateOfDay a).Before (dateOfDay b) := by
  have hcycle : a / 146097 < b / 146097 ∨
      a / 146097 = b / 146097 ∧ (a % 146097).toNat < (b % 146097).toNat := by omega
  have hya : slot daysBeforeYear 399 (a % 146097).toNat ≤ 399 := slot_le
  have hyb : slot daysBeforeYear 399 (b % 146097).toNat ≤ 399 := slot_le
  simp only [Date.Before, dateOfDay]
  rcases hcycle with hlt | ⟨heq, hlt⟩
  · left
    omega
  rw [heq]
  rcases @slot_lt daysBeforeYear 399 _ _ rfl hlt with hyear | ⟨hyear, hday⟩
  · left
    omega
  · rw [← hyear] at hday ⊢
    have hzero : daysBefore (isLeap (slot daysBeforeYear 399 (a % 146097).toNat)) 0 = 0 := by
      simp [daysBefore]
    have hmonth := @slot_lt _ 11 _ _ hzero hday
    refine .inr ⟨rfl, ?_⟩
    omega

theorem day_lt : ∀ leap, ∀ n < 366,
    n - daysBefore leap (slot (daysBefore leap) 11 n) < 99 := by
  decide +kernel

theorem dateOfDay_day_lt (a : Int) : (dateOfDay a).day < 10 ^ 2 := by
  have hcycle : (a % 146097).toNat < daysBeforeYear (399 + 1) := by
    show (a % 146097).toNat < 146097
    omega
  have hyear := lt_start_slot_succ hcycle
  have hlen := daysBeforeYear_length (slot daysBeforeYear 399 (a % 146097).toNat)
  have hin : (a % 146097).toNat - daysBeforeYear (slot daysBeforeYear 399 (a % 146097).toNat) < 366 := by
    omega
  exact Nat.succ_lt_succ (day_lt _ _ hin)

theorem dateOfDay_month_lt (a : Int) : (dateOfDay a).month < 10 ^ 2 := by
  have hmonth : ∀ start n, slot start 11 n ≤ 11 := fun _ _ => slot_le
  exact (Nat.succ_le_succ (hmonth _ _)).trans_lt (by decide)

theorem dateOfDay_year {a : Int} (h0 : 0 ≤ a) (h : a < 3652425) :
    0 ≤ (dateOfDay a).year ∧ (dateOfDay a).year < 10000 := by
  have hslot : slot daysBeforeYear 399 (a % 146097).toNat ≤ 399 := slot_le
  simp only [dateOfDay]
  omega

theorem appendInt_four {y : Int} (h0 : 0 ≤ y) (h : y < 10000) : appendInt y 4 = digits 4 y.toNat := by
  have habs : y.natAbs = y.toNat := by omega
  have hlt : y.natAbs < 10 ^ 4 := by omega
  rw [appendInt, if_neg (by omega), if_pos hlt, habs]

theorem formatSeconds_lt {t t' : Int} (ht : InYears t) (ht' : InYears t') (h : t < t') :
    formatSeconds t < formatSeconds t' := by
  obtain ⟨hlow, hhigh⟩ := ht
  obtain ⟨hlow', hhigh'⟩ := ht'
  have hyear := dateOfDay_year (a := (t + unixToYearZero) / 86400) (by omega) (by omega)
  have hyear' := dateOfDay_year (a := (t' + unixToYearZero) / 86400) (by omega) (by omega)
  have hcases : (t + unixToYearZero) / 86400 < (t' + unixToYearZero) / 86400 ∨
      (t + unixToYearZero) / 86400 = (t' + unixToYearZero) / 86400 ∧
        ((t + unixToYearZero) % 86400).toNat < ((t' + unixToYearZero) % 86400).toNat := by omega
  have hsec : ((t' + unixToYearZero) % 86400).toNat < 86400 := by omega
  rw [String.lt_iff]
  simp only [formatSeconds, String.toList_ofList]
  rw [appendInt_four hyear.1 hyear.2, appendInt_four hyear'.1 hyear'.2]
  generalize ((t + unixToYearZero) % 86400).toNat = s at *
  generalize ((t' + unixToYearZero) % 86400).toNat = s' at *
  -- the separators agree, so the fields decide, the first that differs
  have hfield : ∀ {c : Char} {w m n : ℕ} {u v : List Char}, n < 10 ^ w → m < n ∨ m = n ∧ u < v →
      c :: (digits w m ++ u) < c :: (digits w n ++ v) := fun hn hmn =>
    List.cons_lt_cons_iff.mpr (.inr ⟨rfl, digits_append_lt hn hmn⟩)
  have hday := dateOfDay_day_lt ((t' + unixToYearZero) / 86400)
  have hmonth := dateOfDay_month_lt ((t' + unixToYearZero) / 86400)
  rcases hcases with hlt | ⟨heq, hlt⟩
  · apply digits_append_lt (by omega)
    rcases dateOfDay_before hlt with hy | ⟨hy, hm | ⟨hm, hd⟩⟩
    · left
      omega
    · exact .inr ⟨by rw [hy], hfield hmonth (.inl hm)⟩
    · exact .inr ⟨by rw [hy], hfield hmonth (.inr ⟨hm, hfield hday (.inl hd)⟩)⟩
  · rw [heq]
    have hclock : s / 3600 < s' / 3600 ∨ s / 3600 = s' / 3600 ∧ (s / 60 % 60 < s' / 60 % 60 ∨
        s / 60 % 60 = s' / 60 % 60 ∧ s % 60 < s' % 60) := by omega
    have hhour : s' / 3600 < 10 ^ 2 := by omega
    have hminute : s' / 60 % 60 < 10 ^ 2 := by omega
    have hsecond : s' % 60 < 10 ^ 2 := by omega
    apply digits_append_lt (by omega)
    refine .inr ⟨rfl, hfield hmonth (.inr ⟨rfl, hfield hday (.inr ⟨rfl, hfield hhour ?_⟩)⟩)⟩
    rcases hclock with hh | ⟨hh, hm | ⟨hm, hs⟩⟩
    · exact .inl hh
    · exact .inr ⟨hh, hfield hminute (.inl hm)⟩
    · exact .inr ⟨hh, hfield hminute (.inr ⟨hm, hfield hsecond (.inl hs)⟩)⟩

theorem formatSeconds_lt_iff {t t' : Int} (ht : InYears t) (ht' : InYears t') :
    formatSeconds t < formatSeconds t' ↔ t < t' := by
  constructor
  · intro htext
    by_contra hle
    rcases (not_lt.mp hle).lt_or_eq with hlt | rfl
    · exact String.lt_asymm htext (formatSeconds_lt ht' ht hlt)
    · exact String.lt_irrefl _ htext
  · exact formatSeconds_lt ht ht'

end LanWeave
