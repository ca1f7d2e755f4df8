import AccessRegistry.Instant.Basic
import Mathlib.Tactic.IntervalCases

/-!
# AccessRegistry.Proofs.Calendar

Days and dates.

* `Date.toDays_ofDays` — counting the days of a date that was found for some days gives them back.
* `Date.ofDays_isValid` — the date of any represented day is one of the calendar.
* `Date.ofDays_year` — days from the first of year 0 to the last of year 9999 have dates in them.
-/

namespace AccessRegistry
namespace Instant

/-! ## Years within an era

A year counted from March has 365 days, and one more before a leap year. -/

/-- The years of a century, in days counted from the start of one of the four centuries of an era;
only the last of them ends with no leap year after it. -/
theorem yearOfCentury {r d : Int} (hr : 0 ≤ r) (hr' : r < 36524) (hd : 0 ≤ d) (hd' : d < 4)
    {k : Int} (hk : k = (r - (r + 24 * d) / 1460) / 365) :
    0 ≤ k ∧ k ≤ 99 ∧ 0 ≤ r - (365 * k + k / 4) ∧ r - (365 * k + k / 4) ≤ 365 ∧
      (r - (365 * k + k / 4) = 365 → k % 4 = 3 ∧ k ≠ 99) := by
  interval_cases d <;> refine ⟨by omega, by omega, ?_, ?_, fun h => ⟨?_, ?_⟩⟩ <;> omega

/-- The year of a day of an era, and the day's place in it. The last place is taken only before a
leap year. -/
structure InYear (dayOfEra yearOfEra dayOfYear : Int) : Prop where
  dayOfEra_eq : dayOfEra = 365 * yearOfEra + yearOfEra / 4 - yearOfEra / 100 + dayOfYear
  year_nonneg : 0 ≤ yearOfEra
  year_le : yearOfEra ≤ 399
  day_nonneg : 0 ≤ dayOfYear
  day_le : dayOfYear ≤ 365
  leap : dayOfYear = 365 → yearOfEra % 4 = 3 ∧ (yearOfEra % 100 ≠ 99 ∨ yearOfEra = 399)

theorem inYear {e : Int} (he : 0 ≤ e) (he' : e < 146097) {y : Int}
    (hy : y = (e - e / 1460 + e / 36524 - e / 146096) / 365) :
    InYear e y (e - (365 * y + y / 4 - y / 100)) := by
  by_cases hlast : e = 146096
  · subst hlast
    constructor <;> omega
  · obtain ⟨d, r, hdoe, hr, hr', hd, hd'⟩ :
        ∃ d r : Int, e = 36524 * d + r ∧ 0 ≤ r ∧ r < 36524 ∧ 0 ≤ d ∧ d < 4 :=
      ⟨e / 36524, e % 36524, by omega, by omega, by omega, by omega, by omega⟩
    obtain ⟨k, hk⟩ : ∃ k, k = (r - (r + 24 * d) / 1460) / 365 := ⟨_, rfl⟩
    obtain ⟨hk0, hk1, hday, hday', hleap⟩ := yearOfCentury hr hr' hd hd' hk
    have hyear : y = 100 * d + k := by
      have h1460 : e / 1460 = 25 * d + (r + 24 * d) / 1460 := by omega
      have h36524 : e / 36524 = d := by omega
      have h146096 : e / 146096 = 0 := by omega
      rw [hy, h1460, h36524, h146096]
      omega
    have h4 : y / 4 = 25 * d + k / 4 := by omega
    have h100 : y / 100 = d := by omega
    clear hk hy
    refine ⟨by omega, by omega, by omega, by omega, by omega, fun h => ⟨?_, ?_⟩⟩
    · have := hleap (by omega)
      omega
    · have := hleap (by omega)
      omega

namespace Date

/-- The date of a day of a year that is counted from March, as are its months. -/
def ofMarch (year dayOfYear : Int) : Date :=
  let m := (5 * dayOfYear + 2) / 153
  let month := if m < 10 then m + 3 else m - 9
  ⟨if month ≤ 2 then year + 1 else year, month.toNat, (dayOfYear - (153 * m + 2) / 5 + 1).toNat⟩

/-- A date is found by the era of its day, the year in the era and the day in the year. -/
theorem ofDays_eq (days : Int) :
    ∃ era yearOfEra dayOfYear, InYear (days + 719468 - era * 146097) yearOfEra dayOfYear ∧
      ofDays days = ofMarch (yearOfEra + era * 400) dayOfYear := by
  refine ⟨(days + 719468) / 146097, _, _, ?_, rfl⟩
  have he : (days + 719468) % 146097 = days + 719468 - (days + 719468) / 146097 * 146097 := by
    omega
  rw [← he]
  exact inYear (by omega) (by omega) rfl

theorem toDays_ofMarch {era y d : Int} {e : Int} (h : InYear e y d) :
    (ofMarch (y + era * 400) d).toDays = era * 146097 + e - 719468 := by
  obtain ⟨he, hy, hy', hd, hd', -⟩ := h
  obtain ⟨m, hm⟩ : ∃ m, m = (5 * d + 2) / 153 := ⟨_, rfl⟩
  have hm0 : 0 ≤ m := by omega
  have hm1 : m ≤ 11 := by omega
  have hera : (y + era * 400) / 400 = era := by omega
  have hyear : (y + era * 400) % 400 = y := by omega
  simp only [ofMarch, toDays, ← hm]
  interval_cases m <;> simp <;> omega

theorem toDays_ofDays (days : Int) : (ofDays days).toDays = days := by
  obtain ⟨era, y, d, h, heq⟩ := ofDays_eq days
  rw [heq, toDays_ofMarch h]
  omega

/-- A leap year comes after the year of an era that has a last place. -/
theorem isLeapYear_of_inYear {era y d e : Int} (h : InYear e y d) (hd : d = 365) :
    isLeapYear (y + era * 400 + 1) = true := by
  obtain ⟨h4, h100⟩ := h.leap hd
  have hy := h.year_nonneg
  have hy' := h.year_le
  have h4 : (y + era * 400 + 1) % 4 = 0 := by omega
  have h100 : (y + era * 400 + 1) % 100 ≠ 0 ∨ (y + era * 400 + 1) % 400 = 0 := by omega
  simpa [isLeapYear, h4] using h100

theorem ofMarch_isValid {era y d e : Int} (h : InYear e y d)
    (hleast : minYear ≤ (ofMarch (y + era * 400) d).year)
    (hgreatest : (ofMarch (y + era * 400) d).year ≤ maxYear) :
    (ofMarch (y + era * 400) d).isValid = true := by
  have hleap : d ≤ 364 ∨ isLeapYear (y + era * 400 + 1) = true := by
    by_cases hd : d = 365
    · exact .inr (isLeapYear_of_inYear h hd)
    · exact .inl (by have := h.day_le; omega)
  obtain ⟨-, hy, hy', hd, hd', -⟩ := h
  obtain ⟨m, hm⟩ : ∃ m, m = (5 * d + 2) / 153 := ⟨_, rfl⟩
  have hm0 : 0 ≤ m := by omega
  have hm1 : m ≤ 11 := by omega
  simp only [isValid, hleast, hgreatest, decide_true, Bool.true_and]
  simp only [ofMarch, ← hm]
  rcases hleap with hleap | hleap
  · interval_cases m <;> simp [daysInMonth] <;> omega
  · interval_cases m <;> simp [daysInMonth, hleap] <;> omega

/-- The date of a day in the represented years is one of the calendar. -/
theorem ofDays_isValid {days : Int} (hleast : minYear ≤ (ofDays days).year)
    (hgreatest : (ofDays days).year ≤ maxYear) : (ofDays days).isValid = true := by
  obtain ⟨era, y, d, h, heq⟩ := ofDays_eq days
  rw [heq] at hleast hgreatest ⊢
  exact ofMarch_isValid h hleast hgreatest

/-- The days of the years from 0 to 9999. -/
theorem ofDays_year {days : Int} (hleast : toDays ⟨0, 1, 1⟩ ≤ days)
    (hgreatest : days < toDays ⟨10000, 1, 1⟩) :
    0 ≤ (ofDays days).year ∧ (ofDays days).year ≤ 9999 := by
  obtain ⟨era, y, d, ⟨he, hy, hy', hd, hd', -⟩, heq⟩ := ofDays_eq days
  have hfirst : toDays ⟨0, 1, 1⟩ = -719528 := by decide
  have hlast : toDays ⟨10000, 1, 1⟩ = 2932897 := by decide
  obtain ⟨m, hm⟩ : ∃ m, m = (5 * d + 2) / 153 := ⟨_, rfl⟩
  rw [hfirst] at hleast
  rw [hlast] at hgreatest
  rw [heq]
  simp only [ofMarch, ← hm]
  -- January and February of year 0 belong to the last year of the era before
  have hera : 0 ≤ era ∨ era = -1 ∧ y = 399 ∧ 306 ≤ d := by
    by_cases hera : 0 ≤ era
    · exact .inl hera
    · have hera : era = -1 := by omega
      have hy399 : y = 399 := by omega
      subst hera hy399
      omega
  have hera' : era ≤ 23 ∨ era = 24 ∧ (y ≤ 398 ∨ d < 306) := by
    by_cases hera' : era ≤ 23
    · exact .inl hera'
    · have hera' : era = 24 := by omega
      by_cases hy399 : y = 399
      · subst hera' hy399
        omega
      · omega
  split <;> split <;> omega

end Date

end Instant
end AccessRegistry
