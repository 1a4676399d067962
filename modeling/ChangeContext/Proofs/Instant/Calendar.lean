import ChangeContext.Instant.Calendar
import Mathlib.Tactic.IntervalCases

/-!
# Days and dates

A day and its date tell each other: `ofDays` gives a day that exists (`isValid_ofDays`), and
`toDays` takes it back (`toDays_ofDays`).  An era of four hundred years is cut into centuries, these
into groups of four years, and these into years; each is one day longer at the end than the others
of its kind, or shorter, which is why the year cannot simply be divided out.
-/

set_option autoImplicit false

namespace ChangeContext

namespace Date

/-! ## The year of the era -/

/-- A day of an era, cut into centuries, groups of four years and what is left. -/
theorem exists_parts {day : Nat} (h : day < 146097) :
    ∃ c q s, day = 36524 * c + 1461 * q + s ∧ c ≤ 3 ∧ q ≤ 24 ∧ s ≤ 1460 ∧
      (q = 24 → c < 3 → s ≤ 1459) := by
  by_cases hlast : day / 36524 ≤ 3
  · exact ⟨day / 36524, day % 36524 / 1461, day % 36524 % 1461, by omega, hlast, by omega,
      by omega, by omega⟩
  · exact ⟨3, 24, 1460, by omega, by omega, by omega, by omega, by omega⟩

section Parts

variable {c q s : Nat}

theorem yearOfEra_parts (hc : c ≤ 3) (hq : q ≤ 24) (hs : s ≤ 1460)
    (hlast : q = 24 → c < 3 → s ≤ 1459) :
    let day := 36524 * c + 1461 * q + s
    (day - day / 1460 + day / 36524 - day / 146096) / 365 = 100 * c + 4 * q + min (s / 365) 3 := by
  intro day
  have hgroups : day / 1460 = 25 * c + q + (24 * c + q + s) / 1460 := by omega
  have hcenturies : day / 36524 - day / 146096 = c := by omega
  have hsum : day - day / 1460 + day / 36524 - day / 146096 =
      36500 * c + 1460 * q + (s - (24 * c + q + s) / 1460) := by omega
  rw [hsum]
  omega

theorem daysBefore_parts {y : Nat} (hq : q ≤ 24) (hy : y ≤ 3) :
    let year := 100 * c + 4 * q + y
    365 * year + year / 4 - year / 100 = 36524 * c + 1461 * q + 365 * y := by
  intro year
  omega

/-- A year with a day after its three hundred and sixty-fifth, counted from March, ends with a
leap day. -/
theorem isLeap_parts {y : Nat} (hc : c ≤ 3) (hq : q ≤ 24) (hs : s ≤ 1460)
    (hlast : q = 24 → c < 3 → s ≤ 1459) (hy : y = min (s / 365) 3) (hday : s - 365 * y = 365)
    (era : Int) : isLeap (era * 400 + (100 * c + 4 * q + y : Nat) + 1) = true := by
  have hs' : s = 1460 := by omega
  have hy' : y = 3 := by omega
  simp only [isLeap, Bool.and_eq_true, Bool.or_eq_true, beq_iff_eq, bne_iff_ne]
  omega

end Parts

/-- **The year of the era and the day of that year**, counted from March. -/
theorem exists_yearOfEra {day : Nat} (h : day < 146097) :
    ∃ year dayOfYear, (day - day / 1460 + day / 36524 - day / 146096) / 365 = year ∧
      365 * year + year / 4 - year / 100 + dayOfYear = day ∧ year < 400 ∧ dayOfYear ≤ 365 ∧
      (dayOfYear = 365 → ∀ era : Int, isLeap (era * 400 + year + 1) = true) := by
  obtain ⟨c, q, s, rfl, hc, hq, hs, hlast⟩ := exists_parts h
  have hy : min (s / 365) 3 ≤ 3 := by omega
  refine ⟨_, s - 365 * min (s / 365) 3, yearOfEra_parts hc hq hs hlast, ?_, ?_, ?_, ?_⟩
  · rw [daysBefore_parts hq hy]
    omega
  · omega
  · omega
  · exact fun hday ↦ isLeap_parts hc hq hs hlast rfl hday

/-! ## The date -/

/-- The date of a day of a year of an era, both counted from March. -/
def ofParts (era : Int) (year dayOfYear : Nat) : Date :=
  let month := (5 * dayOfYear + 2) / 153
  let day := dayOfYear - (153 * month + 2) / 5 + 1
  if month < 10 then ⟨era * 400 + year, month + 3, day⟩
  else ⟨era * 400 + year + 1, month - 9, day⟩

/-- A day is the date of some day of a year of an era. -/
theorem exists_ofDays (days : Int) :
    ∃ (era : Int) (year dayOfYear : Nat), ofDays days = ofParts era year dayOfYear ∧
      era * 146097 + (365 * year + year / 4 - year / 100 + dayOfYear : Nat) - 719468 = days ∧
      year < 400 ∧ dayOfYear ≤ 365 ∧ (dayOfYear = 365 → isLeap (era * 400 + year + 1) = true) := by
  have hfdiv : Int.fdiv (days + 719468) 146097 = (days + 719468) / 146097 :=
    Int.fdiv_eq_ediv_of_nonneg _ (by decide)
  have hday : (days + 719468 - Int.fdiv (days + 719468) 146097 * 146097).toNat < 146097 := by
    omega
  obtain ⟨year, dayOfYear, hyear, hsum, hlt, hle, hleap⟩ := exists_yearOfEra hday
  refine ⟨Int.fdiv (days + 719468) 146097, year, dayOfYear, ?_, by omega, hlt, hle,
    fun h ↦ hleap h _⟩
  have hdayOfYear : (days + 719468 - Int.fdiv (days + 719468) 146097 * 146097).toNat -
      (365 * year + year / 4 - year / 100) = dayOfYear := by omega
  simp only [ofDays, hyear, hdayOfYear]
  rfl

theorem toDays_ofParts (era : Int) {year dayOfYear : Nat} (hyear : year < 400)
    (hday : dayOfYear ≤ 365) :
    (ofParts era year dayOfYear).toDays =
      era * 146097 + (365 * year + year / 4 - year / 100 + dayOfYear : Nat) - 719468 := by
  rw [ofParts]
  generalize hm : (5 * dayOfYear + 2) / 153 = month
  have hmonth : month ≤ 11 := by omega
  have hday' : (153 * month + 2) / 5 + (dayOfYear - (153 * month + 2) / 5 + 1) - 1 = dayOfYear := by
    omega
  have hera : Int.fdiv (era * 400 + year) 400 = era := by
    rw [Int.fdiv_eq_ediv_of_nonneg _ (by decide)]
    omega
  have hyears : era * 400 + (year : Int) - era * 400 = year := by omega
  have hfour : Int.fdiv (year : Int) 4 = year / 4 := Int.fdiv_eq_ediv_of_nonneg _ (by decide)
  have hhundred : Int.fdiv (year : Int) 100 = year / 100 :=
    Int.fdiv_eq_ediv_of_nonneg _ (by decide)
  split
  next hlt =>
    have hmonth' : (month + 3 + 9) % 12 = month := by omega
    simp only [toDays, if_neg (show ¬ month + 3 ≤ 2 by omega), hera, hmonth', hday', hyears, hfour,
      hhundred]
    omega
  next hge =>
    have hmonth' : (month - 9 + 9) % 12 = month := by omega
    simp only [toDays, if_pos (show month - 9 ≤ 2 by omega), Int.add_sub_cancel, hera, hmonth',
      hday', hyears, hfour, hhundred]
    omega

/-- **The date of a day is that day.** -/
theorem toDays_ofDays (days : Int) : (ofDays days).toDays = days := by
  obtain ⟨era, year, dayOfYear, hdate, hdays, hyear, hday, -⟩ := exists_ofDays days
  rw [hdate, toDays_ofParts era hyear hday, hdays]

theorem isValid_ofParts {era : Int} {year dayOfYear : Nat} (hday : dayOfYear ≤ 365)
    (hleap : dayOfYear = 365 → isLeap (era * 400 + year + 1) = true) :
    (ofParts era year dayOfYear).isValid = true := by
  rw [ofParts]
  generalize hm : (5 * dayOfYear + 2) / 153 = month
  have hmonth : month ≤ 11 := by omega
  split
  next hlt =>
    have hlength : dayOfYear - (153 * month + 2) / 5 + 1 ≤
        daysInMonth (era * 400 + year) (month + 3) := by
      interval_cases month <;> simp [daysInMonth] <;> omega
    simp only [isValid, Bool.and_eq_true, decide_eq_true_eq]
    omega
  next hge =>
    have hlength : dayOfYear - (153 * month + 2) / 5 + 1 ≤
        daysInMonth (era * 400 + year + 1) (month - 9) := by
      by_cases hlast : dayOfYear = 365
      · have hleap' := hleap hlast
        interval_cases month
        · omega
        · simp [daysInMonth, hleap', hlast]
      · interval_cases month
        · simp [daysInMonth]
          omega
        · rw [daysInMonth, if_pos rfl]
          split <;> omega
    simp only [isValid, Bool.and_eq_true, decide_eq_true_eq]
    omega

/-- **The date of a day exists.** -/
theorem isValid_ofDays (days : Int) : (ofDays days).isValid = true := by
  obtain ⟨era, year, dayOfYear, hdate, -, -, hday, hleap⟩ := exists_ofDays days
  rw [hdate]
  exact isValid_ofParts hday hleap

end Date

end ChangeContext
