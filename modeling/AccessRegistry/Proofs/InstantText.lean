import AccessRegistry.Proofs.Calendar
import AccessRegistry.Proofs.Stamp

/-!
# AccessRegistry.Proofs.InstantText

The text of an instant is a date-time in UTC that gives the instant back.

* `InYears` — the instants of the years 0 to 9999 outside of leap seconds.
* `ofText?_text` — reading the text of such an instant.
-/

namespace AccessRegistry
namespace Instant

/-- An instant of the years 0 to 9999 in UTC, and in no leap second. -/
structure InYears (t : Instant) : Prop where
  first : Date.toDays ⟨0, 1, 1⟩ * secondsPerDay ≤ t.seconds
  last : t.seconds < Date.toDays ⟨10000, 1, 1⟩ * secondsPerDay
  nanos_lt : t.nanos < nanosPerSecond

instance (t : Instant) : Decidable t.InYears :=
  decidable_of_iff (Date.toDays ⟨0, 1, 1⟩ * secondsPerDay ≤ t.seconds ∧
      t.seconds < Date.toDays ⟨10000, 1, 1⟩ * secondsPerDay ∧ t.nanos < nanosPerSecond)
    ⟨fun h => ⟨h.1, h.2.1, h.2.2⟩, fun h => ⟨h.first, h.last, h.nanos_lt⟩⟩

/-! ## Decimal text -/

theorem numberOf_toDigits (n : Nat) : numberOf (Nat.toDigits 10 n) = n := by
  have h : numberOf (Nat.toDigits 10 n) = Nat.ofDigitChars 10 (Nat.toDigits 10 n) 0 := by
    simp [numberOf, Nat.ofDigitChars, Nat.mul_comm]
  rw [h, Nat.ofDigitChars_ten_toDigits]

theorem numberOf_zeros (k : Nat) (cs : List Char) :
    numberOf (List.replicate k '0' ++ cs) = numberOf cs := by
  induction k with
  | zero => rfl
  | succ k ih => simpa [List.replicate_succ, numberOf] using ih

theorem allDigits_toDigits (n : Nat) : AllDigits (Nat.toDigits 10 n) :=
  fun _ hc => Nat.isDigit_of_mem_toDigits (by omega) (by omega) hc

/-- Digits of a fixed width that write a number. -/
structure Padded (width n : Nat) (cs : List Char) : Prop where
  digits : AllDigits cs
  length_eq : cs.length = width
  value : numberOf cs = n

theorem padded_toList {width n : Nat} (hwidth : 0 < width) (h : n < 10 ^ width) :
    Padded width n (padded width n).toList := by
  have hlength : (Nat.toDigits 10 n).length ≤ width :=
    (Nat.length_toDigits_le_iff (by omega) hwidth).2 h
  have hcs : (padded width n).toList
      = List.replicate (width - (Nat.toDigits 10 n).length) '0' ++ Nat.toDigits 10 n := by
    simp only [padded, Nat.toString_eq_ofList_toDigits, String.toList_append, String.toList_ofList,
      String.length_ofList]
  rw [hcs]
  refine ⟨?_, by simp; omega, by rw [numberOf_zeros, numberOf_toDigits]⟩
  intro c hc
  rcases List.mem_append.1 hc with hc | hc
  · rw [List.eq_of_mem_replicate hc]
    rfl
  · exact allDigits_toDigits n c hc

theorem Padded.ne_nil {width n : Nat} {cs : List Char} (h : Padded width n cs) (hwidth : 0 < width) :
    cs ≠ [] := by
  rintro rfl
  have := h.length_eq
  simp at this
  omega

theorem Padded.year {n : Nat} {cs : List Char} (h : Padded 4 n cs) :
    Spaced YearWritten (n : Int) cs := by
  have hyear := YearWritten.plain h.digits (h.ne_nil (by omega)) (by rw [h.length_eq])
  rw [h.value] at hyear
  exact ⟨[], cs, by simp [Spaces], hyear, rfl⟩

theorem Padded.part {least greatest n : Nat} {cs : List Char} (h : Padded 2 n cs) (hleast : least ≤ n)
    (hgreatest : n ≤ greatest) : Spaced (PartWritten least greatest) n cs := by
  have hpart : PartWritten least greatest (numberOf cs) cs :=
    .mk h.digits (h.ne_nil (by omega)) (by rw [h.length_eq]) (by rwa [h.value]) (by rwa [h.value])
  rw [h.value] at hpart
  exact ⟨[], cs, by simp [Spaces], hpart, rfl⟩

theorem Padded.fraction {width n : Nat} {cs : List Char} (h : Padded width n cs) (hwidth : 0 < width)
    (hle : width ≤ 9) : FractionWritten (n * 10 ^ (9 - width)) ('.' :: cs) := by
  have hfraction := FractionWritten.present h.digits (h.ne_nil hwidth)
  rw [List.take_of_length_le (by rw [h.length_eq]; exact hle), h.value, h.length_eq] at hfraction
  exact hfraction

/-- The nanoseconds are written with as many digits as they need. -/
theorem fractionText_written {nanos : Nat} (h : nanos < nanosPerSecond) :
    FractionWritten nanos (fractionText nanos).toList := by
  simp only [nanosPerSecond] at h
  unfold fractionText
  split
  · rename_i hzero
    rw [hzero]
    exact .absent
  split
  · rename_i hmillis
    have hfraction := (@padded_toList 3 (nanos / 1000000) (by omega)
      (by omega)).fraction (by omega) (by omega)
    have hnanos : nanos / 1000000 * 10 ^ (9 - 3) = nanos := by omega
    rw [hnanos] at hfraction
    simpa using hfraction
  split
  · rename_i hmicros
    have hfraction := (@padded_toList 6 (nanos / 1000) (by omega)
      (by omega)).fraction (by omega) (by omega)
    have hnanos : nanos / 1000 * 10 ^ (9 - 6) = nanos := by omega
    rw [hnanos] at hfraction
    simpa using hfraction
  · have hfraction := (@padded_toList 9 nanos (by omega)
      (by omega)).fraction (by omega) (by omega)
    simpa using hfraction

/-! ## The date-time of an instant -/

/-- The parts of an instant in UTC. -/
def Stamp.ofInstant (t : Instant) : Stamp :=
  let date := Date.ofDays (t.seconds / secondsPerDay)
  let second := (t.seconds % secondsPerDay).toNat
  ⟨date.year, date.month, date.day, second / 3600, second / 60 % 60, second % 60, t.nanos, 0⟩

theorem instant_ofInstant (t : Instant) : (Stamp.ofInstant t).instant = t := by
  have hdays : (Stamp.ofInstant t).date.toDays = t.seconds / secondsPerDay := Date.toDays_ofDays _
  have hsecond : (Stamp.ofInstant t).second ≠ 60 := by
    simp only [Stamp.ofInstant]
    omega
  have hseconds : (Stamp.ofInstant t).instant.seconds = t.seconds := by
    simp only [Stamp.instant, hdays, secondsPerDay]
    simp only [Stamp.ofInstant, secondsPerDay]
    omega
  have hnanos : (Stamp.ofInstant t).instant.nanos = t.nanos := by
    simp only [Stamp.instant, if_neg hsecond]
    rfl
  exact Instant.mk.injEq .. ▸ ⟨hseconds, hnanos⟩

theorem InYears.year {t : Instant} (h : t.InYears) :
    0 ≤ (Stamp.ofInstant t).year ∧ (Stamp.ofInstant t).year ≤ 9999 := by
  have hfirst := h.first
  have hlast := h.last
  simp only [secondsPerDay] at hfirst hlast
  exact Date.ofDays_year (by simp only [secondsPerDay]; omega) (by simp only [secondsPerDay]; omega)

theorem InYears.date_isValid {t : Instant} (h : t.InYears) :
    (Stamp.ofInstant t).date.isValid = true := by
  obtain ⟨hleast, hgreatest⟩ := h.year
  exact Date.ofDays_isValid (le_trans (by decide) hleast) (le_trans hgreatest (by decide))

theorem InYears.inRange {t : Instant} (h : t.InYears) : t.inRange = true := by
  have hfirst : firstSecond ≤ t.seconds := le_trans (by decide) h.first
  have hlast : t.seconds ≤ lastSecond := le_trans (le_of_lt h.last) (by decide)
  simp [Instant.inRange, hfirst, hlast]

theorem daysInMonth_le (y : Int) (m : Nat) : daysInMonth y m ≤ 31 := by
  unfold daysInMonth
  split
  · split <;> decide
  · split <;> decide

theorem mark_singleton (c : Char) : Mark c [c] := ⟨[], by simp [Spaces], rfl⟩

/-- The text, part by part. -/
theorem InYears.text_eq {t : Instant} (h : t.InYears) :
    t.text.toList = (padded 4 (Stamp.ofInstant t).year.toNat).toList ++ (['-'] ++
      ((padded 2 (Stamp.ofInstant t).month).toList ++ (['-'] ++
      ((padded 2 (Stamp.ofInstant t).day).toList ++ 'T' ::
      ((padded 2 (Stamp.ofInstant t).hour).toList ++ ([':'] ++
      ((padded 2 (Stamp.ofInstant t).minute).toList ++ ([':'] ++
      ((padded 2 (Stamp.ofInstant t).second).toList ++ ((fractionText t.nanos).toList ++
      (['Z'] ++ []))))))))))) := by
  have hyear : yearText (Date.ofDays (t.seconds / secondsPerDay)).year
      = padded 4 (Date.ofDays (t.seconds / secondsPerDay)).year.toNat := if_pos h.year
  have hnanos : t.nanos / nanosPerSecond = 0 := Nat.div_eq_of_lt h.nanos_lt
  have hnanos' : t.nanos % nanosPerSecond = t.nanos := Nat.mod_eq_of_lt h.nanos_lt
  have hdash : "-".toList = ['-'] := rfl
  have hcolon : ":".toList = [':'] := rfl
  have hT : "T".toList = ['T'] := rfl
  have hZ : "Z".toList = ['Z'] := rfl
  simp only [text, hyear, hnanos, hnanos', Nat.add_zero, String.toList_append, List.append_assoc,
    hdash, hcolon, hT, hZ, Stamp.ofInstant, List.cons_append, List.nil_append]

/-- The text has the form of RFC 3339. -/
theorem InYears.text_written {t : Instant} (h : t.InYears) :
    (Stamp.ofInstant t).Written t.text.toList := by
  obtain ⟨hleast, hgreatest⟩ := h.year
  have hvalid := h.date_isValid
  simp only [Date.isValid, Bool.and_eq_true, decide_eq_true_eq] at hvalid
  obtain ⟨⟨⟨⟨-, hmonth⟩, hmonth'⟩, hday⟩, hday'⟩ := hvalid
  have hday' : (Stamp.ofInstant t).day ≤ 31 := hday'.trans (daysInMonth_le _ _)
  have hhour : (Stamp.ofInstant t).hour ≤ 23 := by
    simp only [Stamp.ofInstant, secondsPerDay]; omega
  have hminute : (Stamp.ofInstant t).minute ≤ 59 := by
    simp only [Stamp.ofInstant, secondsPerDay]; omega
  have hsecond : (Stamp.ofInstant t).second ≤ 60 := by
    simp only [Stamp.ofInstant, secondsPerDay]; omega
  have hyear := (@padded_toList 4 (Stamp.ofInstant t).year.toNat (by omega) (by omega)).year
  rw [Int.toNat_of_nonneg hleast] at hyear
  rw [h.text_eq]
  exact .mk hyear (mark_singleton '-')
    ((padded_toList (by omega) (lt_of_le_of_lt hmonth' (by decide))).part hmonth hmonth')
    (mark_singleton '-')
    ((padded_toList (by omega) (lt_of_le_of_lt hday' (by decide))).part hday hday') (.inl rfl)
    ((padded_toList (by omega) (lt_of_le_of_lt hhour (by decide))).part (Nat.zero_le _) hhour)
    (mark_singleton ':')
    ((padded_toList (by omega) (lt_of_le_of_lt hminute (by decide))).part (Nat.zero_le _) hminute)
    (mark_singleton ':')
    ((padded_toList (by omega) (lt_of_le_of_lt hsecond (by decide))).part (Nat.zero_le _) hsecond)
    (fractionText_written h.nanos_lt) ⟨[], ['Z'], by simp [Spaces], .zulu (.inl rfl), rfl⟩
    (by simp [Spaces])

/-- An instant of the years 0 to 9999 is read back from its text. -/
theorem ofText?_text {t : Instant} (h : t.InYears) : ofText? t.text = some t := by
  have hread := ofText?_of_written h.text_written h.date_isValid
    (by rw [instant_ofInstant]; exact h.inRange)
  rwa [instant_ofInstant] at hread

end Instant
end AccessRegistry
