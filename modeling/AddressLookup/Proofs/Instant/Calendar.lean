import AddressLookup.Instant.Basic
import Mathlib.Tactic.IntervalCases

/-! The date of a day number has that day number, and is a date of the calendar as long as the day lies
in the range of instants. A day is placed in its cycle of 400 years, then in its year from March, then
in its month. -/

namespace AddressLookup.Date

theorem yearOfCycle_spec {r y : Int} (hr0 : 0 ≤ r) (hr : r < 146097)
    (hy : y = (r - r / 1460 + r / 36524 - r / 146096) / 365) :
    0 ≤ y ∧ y ≤ 399 ∧ 0 ≤ r - daysBeforeYear y ∧ r - daysBeforeYear y ≤ 365 ∧
      (r - daysBeforeYear y = 365 → (y + 1) % 4 = 0 ∧ ((y + 1) % 100 ≠ 0 ∨ y = 399)) := by
  unfold daysBeforeYear
  -- A correction that is right for the whole cycle: it is looked at century by century.
  have hcentury : y / 100 = r / 36524 - r / 146096 := by
    have hd : r / 36524 = 0 ∨ r / 36524 = 1 ∨ r / 36524 = 2 ∨ r / 36524 = 3 ∨ r / 36524 = 4 := by
      omega
    rcases hd with h | h | h | h | h <;> rw [h] at hy ⊢ <;> omega
  have hfour : y / 4 ≤ r / 1460 ∧ r / 1460 ≤ y / 4 + 1 := by omega
  refine ⟨by omega, by omega, by omega, by omega, ?_⟩
  intro hlast
  have hnext : r / 1460 = y / 4 + 1 := by omega
  have hleap : (y + 1) % 4 = 0 := by
    have hlate : 4 * (y / 4) + 3 ≤ y := by omega
    omega
  refine ⟨hleap, ?_⟩
  by_cases hend : y = 399
  · exact .inr hend
  · left
    intro hhundred
    omega

theorem monthOfYear_spec {s m : Int} (hs0 : 0 ≤ s) (hs : s ≤ 365) (hm : m = (5 * s + 2) / 153) :
    0 ≤ m ∧ m ≤ 11 ∧ 0 ≤ s - daysBeforeMonth m ∧ s < daysBeforeMonth (m + 1) := by
  unfold daysBeforeMonth
  omega

theorem isLeapYear_iff (year : Int) :
    isLeapYear year = true ↔ year % 4 = 0 ∧ (year % 100 ≠ 0 ∨ year % 400 = 0) := by
  simp [isLeapYear]

/-- A day number by cycle, year of the cycle, month from March and day, all counted from zero. -/
theorem ofDayNumber_spec (n : Int) :
    ∃ q y m d : Int, 0 ≤ y ∧ y ≤ 399 ∧ 0 ≤ m ∧ m ≤ 11 ∧ 0 ≤ d ∧ daysBeforeMonth m + d < daysBeforeMonth (m + 1) ∧
      n = cycle * q + daysBeforeYear y + daysBeforeMonth m + d - epochOffset ∧
      daysBeforeMonth m + d ≤ 365 ∧
      (daysBeforeMonth m + d = 365 → isLeapYear (y + 400 * q + 1) = true) ∧
      ofDayNumber n =
        if m < 10 then ⟨y + 400 * q, (m + 3).toNat, (d + 1).toNat⟩
        else ⟨y + 400 * q + 1, (m - 9).toNat, (d + 1).toNat⟩ := by
  let r := (n + epochOffset) % cycle
  let y := (r - r / 1460 + r / 36524 - r / 146096) / 365
  let s := r - daysBeforeYear y
  let m := (5 * s + 2) / 153
  have hr0 : 0 ≤ r := Int.emod_nonneg _ (by decide)
  have hr : r < 146097 := Int.emod_lt_of_pos _ (by decide)
  obtain ⟨hy0, hy, hs0, hs, hlast⟩ := yearOfCycle_spec (y := y) hr0 hr rfl
  obtain ⟨hm0, hm, hd0, hd⟩ := monthOfYear_spec (m := m) hs0 hs rfl
  have hsum : daysBeforeMonth m + (s - daysBeforeMonth m) = s := by omega
  have hdivision : n + epochOffset = cycle * ((n + epochOffset) / cycle) + r :=
    (Int.mul_ediv_add_emod _ _).symm
  refine ⟨(n + epochOffset) / cycle, y, m, s - daysBeforeMonth m, hy0, hy, hm0, hm, hd0,
    by rw [hsum]; exact hd, ?_, ?_, ?_, rfl⟩
  · have hyear : daysBeforeYear y + s = r := by
      show daysBeforeYear y + (r - daysBeforeYear y) = r
      omega
    omega
  · rw [hsum]
    exact hs
  · rw [hsum, isLeapYear_iff]
    intro heq
    obtain ⟨hfour, hhundred⟩ := hlast heq
    omega

theorem dayNumber_ofDayNumber (n : Int) : (ofDayNumber n).dayNumber = n := by
  obtain ⟨q, y, m, d, hy0, hy, hm0, hm, hd0, hd, hn, -, -, hdate⟩ := ofDayNumber_spec n
  have hquotient : (y + 400 * q) / 400 = q := by omega
  have hrest : (y + 400 * q) % 400 = y := by omega
  have hday : ((d + 1).toNat : Int) - 1 = d := by omega
  rw [hdate, dayNumber]
  split
  · have hlate : ¬ (m + 3).toNat ≤ 2 := by omega
    have hmonth : ((m + 3).toNat : Int) - 3 = m := by omega
    simp only [if_neg hlate, hquotient, hrest, hmonth, hday]
    omega
  · have hearly : (m - 9).toNat ≤ 2 := by omega
    have hmonth : ((m - 9).toNat : Int) + 9 = m := by omega
    have hyear : y + 400 * q + 1 - 1 = y + 400 * q := by omega
    simp only [if_pos hearly, hyear, hquotient, hrest, hmonth, hday]
    omega

def firstDay : Int := -96465292

def lastDay : Int := 95026236

theorem isValid_iff (date : Date) :
    date.isValid = true ↔ (firstYear ≤ date.year ∧ date.year ≤ lastYear) ∧
      (1 ≤ date.month ∧ date.month ≤ 12) ∧ 1 ≤ date.day ∧ date.day ≤ daysInMonth date.year date.month := by
  simp only [isValid, Bool.and_eq_true, decide_eq_true_eq]
  omega

theorem isValid_ofDayNumber {n : Int} (hfirst : firstDay ≤ n) (hlast : n ≤ lastDay) :
    (ofDayNumber n).isValid = true := by
  obtain ⟨q, y, m, d, hy0, hy, hm0, hm, hd0, hd, hn, hyear, hleap, hdate⟩ := ofDayNumber_spec n
  have hrange : if m < 10 then firstYear ≤ y + 400 * q ∧ y + 400 * q ≤ lastYear
      else firstYear ≤ y + 400 * q + 1 ∧ y + 400 * q + 1 ≤ lastYear := by
    unfold firstDay lastDay cycle daysBeforeYear epochOffset daysBeforeMonth at *
    unfold firstYear lastYear
    have hq : -656 ≤ q ∧ q ≤ 655 := by omega
    split <;> constructor <;> omega
  rw [hdate, isValid_iff]
  unfold daysBeforeMonth at hyear hleap hd
  interval_cases m
  -- Counted from March the last month is February, the only one whose length depends on the year.
  case «11» =>
    refine ⟨hrange, ⟨Nat.le_of_ble_eq_true rfl, Nat.le_of_ble_eq_true rfl⟩, ?_, ?_⟩
    · show 1 ≤ (d + 1).toNat
      omega
    · show (d + 1).toNat ≤ if isLeapYear (y + 400 * q + 1) then 29 else 28
      split
      · omega
      · next hcommon =>
        have := mt hleap hcommon
        omega
  all_goals
    refine ⟨hrange, ⟨Nat.le_of_ble_eq_true rfl, Nat.le_of_ble_eq_true rfl⟩, ?_, ?_⟩
    · show 1 ≤ (d + 1).toNat
      omega
    · first
      | (show (d + 1).toNat ≤ 30; omega)
      | (show (d + 1).toNat ≤ 31; omega)

end AddressLookup.Date
