import LanWeave.Golang.Strings
import LanWeave.Golang.Time

/-! Parsing RFC 3339 text, of the form that an instant in UTC is written in. -/

namespace LanWeave
open Library

/-- The day of a date, counted from the start of year 0. -/
def dayOfDate (year : ℕ) (month day : ℕ) : Int :=
  146097 * (year / 400 : ℕ) + daysBeforeYear (year % 400) +
    daysBefore (isLeap (year % 400)) (month - 1) + day - 1

/-- `daysIn`. -/
def daysIn (year month : ℕ) : ℕ :=
  daysBefore (isLeap (year % 400)) month - daysBefore (isLeap (year % 400)) (month - 1)

/-- `time.Parse(time.RFC3339, s)`, in seconds. -/
def parseRFC3339 (s : String) : Option Int :=
  match s.toList with
  | [y₁, y₂, y₃, y₄, '-', m₁, m₂, '-', d₁, d₂, 'T', h₁, h₂, ':', n₁, n₂, ':', s₁, s₂, 'Z'] => do
    let year ← parseDigits [y₁, y₂, y₃, y₄]
    let month ← (parseDigits [m₁, m₂]).filter fun m => 1 ≤ m && m ≤ 12
    let day ← (parseDigits [d₁, d₂]).filter fun d => 1 ≤ d && d ≤ daysIn year month
    let hour ← (parseDigits [h₁, h₂]).filter (· < 24)
    let minute ← (parseDigits [n₁, n₂]).filter (· < 60)
    let second ← (parseDigits [s₁, s₂]).filter (· < 60)
    return dayOfDate year month day * 86400 + (hour * 3600 + minute * 60 + second : ℕ) -
      unixToYearZero
  | _ => none

theorem isDigit_digitChar : ∀ n < 10, isDigit (Nat.digitChar n) = true ∧
    (Nat.digitChar n).toNat - '0'.toNat = n := by
  decide

theorem digits_all_isDigit (w n : ℕ) : (digits w n).all isDigit = true := by
  induction w generalizing n with
  | zero => rfl
  | succ w ih =>
    rw [digits, List.all_append, ih, Bool.true_and, List.all_cons, List.all_nil, Bool.and_true]
    exact (isDigit_digitChar _ (Nat.mod_lt n (by decide))).1

theorem foldl_digits (w n : ℕ) (h : n < 10 ^ w) :
    (digits w n).foldl (fun n c => 10 * n + (c.toNat - '0'.toNat)) 0 = n := by
  induction w generalizing n with
  | zero =>
    rw [pow_zero] at h
    simp only [digits, List.foldl_nil]
    omega
  | succ w ih =>
    have hdiv : n / 10 < 10 ^ w := by
      rw [pow_succ] at h
      exact Nat.div_lt_of_lt_mul (by omega)
    rw [digits, List.foldl_append, ih _ hdiv, List.foldl_cons, List.foldl_nil,
      (isDigit_digitChar _ (Nat.mod_lt n (by decide))).2]
    exact Nat.div_add_mod n 10

theorem parseDigits_digits {w n : ℕ} (hw : 0 < w) (h : n < 10 ^ w) :
    parseDigits (digits w n) = some n := by
  have hne : digits w n ≠ [] := by
    intro hnil
    have hlen := length_digits w n
    rw [hnil] at hlen
    exact absurd hlen hw.ne
  rw [parseDigits, if_pos ⟨hne, digits_all_isDigit w n⟩, foldl_digits w n h]

theorem daysBeforeYear_succ {y : ℕ} (h : y < 400) :
    daysBeforeYear (y + 1) = daysBeforeYear y + daysBefore (isLeap y) 12 := by
  have hall : ∀ y < 400, daysBeforeYear (y + 1) = daysBeforeYear y + daysBefore (isLeap y) 12 := by
    decide +kernel
  exact hall y h

theorem dateOfDay_parts {a : Int} (h0 : 0 ≤ a) :
    1 ≤ (dateOfDay a).month ∧ (dateOfDay a).month ≤ 12 ∧ 1 ≤ (dateOfDay a).day ∧
      (dateOfDay a).day ≤ daysIn (dateOfDay a).year.toNat (dateOfDay a).month ∧
      dayOfDate (dateOfDay a).year.toNat (dateOfDay a).month (dateOfDay a).day = a := by
  have hcycle : (a % 146097).toNat < daysBeforeYear (399 + 1) := by
    show (a % 146097).toNat < 146097
    omega
  have hyear : slot daysBeforeYear 399 (a % 146097).toNat ≤ 399 := slot_le
  have hstart := @start_slot_le daysBeforeYear 399 (a % 146097).toNat rfl
  have hstop := lt_start_slot_succ hcycle
  rw [daysBeforeYear_succ (by omega)] at hstop
  simp only [dateOfDay]
  generalize slot daysBeforeYear 399 (a % 146097).toNat = y at *
  have hmonth : slot (daysBefore (isLeap y)) 11 ((a % 146097).toNat - daysBeforeYear y) ≤ 11 := slot_le
  have hzero : daysBefore (isLeap y) 0 = 0 := by simp [daysBefore]
  have hmstart := @start_slot_le _ 11 ((a % 146097).toNat - daysBeforeYear y) hzero
  have hinYear : (a % 146097).toNat - daysBeforeYear y < daysBefore (isLeap y) (11 + 1) := by
    show _ < daysBefore (isLeap y) 12
    omega
  have hmstop := lt_start_slot_succ hinYear
  generalize slot (daysBefore (isLeap y)) 11 ((a % 146097).toNat - daysBeforeYear y) = m at *
  have hcyc : (400 * (a / 146097) + (y : Int)).toNat / 400 = (a / 146097).toNat := by omega
  have hmod : (400 * (a / 146097) + (y : Int)).toNat % 400 = y := by omega
  refine ⟨by omega, by omega, by omega, ?_, ?_⟩
  · rw [daysIn, hmod, Nat.add_sub_cancel]
    omega
  · rw [dayOfDate, hmod, hcyc, Nat.add_sub_cancel]
    omega

theorem parseRFC3339_formatSeconds {t : Int} (h : InYears t) :
    parseRFC3339 (formatSeconds t) = some t := by
  obtain ⟨hlow, hhigh⟩ := h
  have hday0 : 0 ≤ (t + unixToYearZero) / 86400 := by omega
  have hyear := dateOfDay_year hday0 (by omega)
  have hdlt := dateOfDay_day_lt ((t + unixToYearZero) / 86400)
  have hmlt := dateOfDay_month_lt ((t + unixToYearZero) / 86400)
  obtain ⟨hm1, hm12, hd1, hdin, hdate⟩ := dateOfDay_parts hday0
  have hsec : ((t + unixToYearZero) % 86400).toNat < 86400 := by omega
  unfold parseRFC3339 formatSeconds
  rw [String.toList_ofList, appendInt_four hyear.1 hyear.2]
  generalize hs : ((t + unixToYearZero) % 86400).toNat = s at *
  generalize dateOfDay ((t + unixToYearZero) / 86400) = d at *
  show (do
    let year ← parseDigits (digits 4 d.year.toNat)
    let month ← (parseDigits (digits 2 d.month)).filter fun m => 1 ≤ m && m ≤ 12
    let day ← (parseDigits (digits 2 d.day)).filter fun x => 1 ≤ x && x ≤ daysIn year month
    let hour ← (parseDigits (digits 2 (s / 3600))).filter (· < 24)
    let minute ← (parseDigits (digits 2 (s / 60 % 60))).filter (· < 60)
    let second ← (parseDigits (digits 2 (s % 60))).filter (· < 60)
    return dayOfDate year month day * 86400 + (hour * 3600 + minute * 60 + second : ℕ) -
      unixToYearZero) = some t
  rw [parseDigits_digits (by decide) (by omega), parseDigits_digits (by decide) hmlt,
    parseDigits_digits (by decide) hdlt, parseDigits_digits (by decide) (by omega),
    parseDigits_digits (by decide) (by omega), parseDigits_digits (by decide) (by omega)]
  have hhour : s / 3600 < 24 := by omega
  have hminute : s / 60 % 60 < 60 := by omega
  have hsecond : s % 60 < 60 := by omega
  have hsum : (t + unixToYearZero) / 86400 * 86400 +
      ((s / 3600 * 3600 + s / 60 % 60 * 60 + s % 60 : ℕ) : Int) - unixToYearZero = t := by omega
  simp [Option.filter, hm1, hm12, hd1, hdin, hdate]
  rw [if_pos hhour, if_pos hminute, if_pos hsecond]
  exact congrArg some hsum

end LanWeave
