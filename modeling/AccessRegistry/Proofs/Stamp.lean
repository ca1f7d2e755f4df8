import AccessRegistry.Instant.Rfc3339
import Mathlib.Data.List.TakeWhile

/-!
# AccessRegistry.Proofs.Stamp

Date-times in text, as a grammar, and the reader of instants measured by it.

* `Stamp.Written` — how a date-time may be written: the form of RFC 3339, where parts may have blanks
  between them and fewer digits, and where `T`, `Z` and the offset have other spellings.
* `ofText?_eq_some_iff` — a text gives an instant just when it is such a date-time, its date is one of
  the calendar and the instant is one of the represented ones.
-/

namespace AccessRegistry
namespace Instant

/-! ## Grammar -/

/-- Blanks. -/
def Spaces (cs : List Char) : Prop := ∀ c ∈ cs, Text.isSpace c = true

def AllDigits (cs : List Char) : Prop := ∀ c ∈ cs, isDigit c = true

/-- Something written after blanks. -/
def Spaced {α : Type} (Written : α → List Char → Prop) (a : α) (cs : List Char) : Prop :=
  ∃ blanks w, Spaces blanks ∧ Written a w ∧ cs = blanks ++ w

/-- A sign after blanks. -/
def Mark (c : Char) (cs : List Char) : Prop := ∃ blanks, Spaces blanks ∧ cs = blanks ++ [c]

/-- A year has up to four digits, or a sign and any number of them. -/
inductive YearWritten : Int → List Char → Prop where
  | plain {ds : List Char} (h : AllDigits ds) (hne : ds ≠ []) (hle : ds.length ≤ 4) :
      YearWritten (numberOf ds) ds
  | after {ds : List Char} (h : AllDigits ds) (hne : ds ≠ []) :
      YearWritten (numberOf ds) ('+' :: ds)
  | before {ds : List Char} (h : AllDigits ds) (hne : ds ≠ []) :
      YearWritten (-(numberOf ds : Int)) ('-' :: ds)

/-- Any other part has one or two digits. -/
inductive PartWritten (least greatest : Nat) : Nat → List Char → Prop where
  | mk {ds : List Char} (h : AllDigits ds) (hne : ds ≠ []) (hle : ds.length ≤ 2)
      (hleast : least ≤ numberOf ds) (hgreatest : numberOf ds ≤ greatest) :
      PartWritten least greatest (numberOf ds) ds

/-- The first nine digits of a fraction count nanoseconds. -/
inductive FractionWritten : Nat → List Char → Prop where
  | absent : FractionWritten 0 []
  | present {ds : List Char} (h : AllDigits ds) (hne : ds ≠ []) :
      FractionWritten (numberOf (ds.take 9) * Nat.pow 10 (9 - (ds.take 9).length)) ('.' :: ds)

/-- The signs of an offset, and whether local time is behind. -/
def offsetSigns : List (Char × Bool) := [('+', false), ('-', true), ('−', true)]

/-- The seconds that local time is ahead: none in UTC, else some hours and minutes. -/
inductive OffsetWritten : Int → List Char → Prop where
  | zulu {c : Char} (h : c = 'Z' ∨ c = 'z') : OffsetWritten 0 [c]
  | utc {u t c : Char} (hu : u.toLower = 'u') (ht : t.toLower = 't') (hc : c.toLower = 'c') :
      OffsetWritten 0 [u, t, c]
  | shift {sign a b c d : Char} {behind : Bool} {gap : List Char}
      (hsign : (sign, behind) ∈ offsetSigns) (hhours : AllDigits [a, b]) (hminutes : AllDigits [c, d])
      (hgap : ∀ x ∈ gap, x = ':' ∨ Text.isSpace x = true) (hlt : numberOf [a, b] < 24)
      (hlt' : numberOf [c, d] < 60) :
      OffsetWritten
        ((if behind then -1 else 1) * ((numberOf [a, b] * 60 + numberOf [c, d]) * 60 : Nat))
        (sign :: a :: b :: gap ++ [c, d])

/-- The parts of a date-time. -/
structure Stamp where
  year : Int
  month : Nat
  day : Nat
  hour : Nat
  minute : Nat
  second : Nat
  nanos : Nat
  ahead : Int

namespace Stamp

def date (s : Stamp) : Date := ⟨s.year, s.month, s.day⟩

/-- The instant. A second 60 is a leap second. -/
def instant (s : Stamp) : Instant :=
  ⟨s.date.toDays * secondsPerDay + ((s.hour * 60 + s.minute) * 60 + min s.second 59 : Nat) - s.ahead,
    s.nanos + if s.second = 60 then nanosPerSecond else 0⟩

/-- The time follows the day at once, after `T` or a blank; all other parts may have blanks before
them. -/
inductive Written : Stamp → List Char → Prop where
  | mk {year : Int} {month day hour minute second nanos : Nat} {ahead : Int} {t : Char}
      {y m₁ mo m₂ d h m₃ mi m₄ s f o blanks : List Char} (hyear : Spaced YearWritten year y)
      (hmark₁ : Mark '-' m₁) (hmonth : Spaced (PartWritten 1 12) month mo) (hmark₂ : Mark '-' m₂)
      (hday : Spaced (PartWritten 1 31) day d) (ht : t = 'T' ∨ t = 't' ∨ t = ' ')
      (hhour : Spaced (PartWritten 0 23) hour h) (hmark₃ : Mark ':' m₃)
      (hminute : Spaced (PartWritten 0 59) minute mi) (hmark₄ : Mark ':' m₄)
      (hsecond : Spaced (PartWritten 0 60) second s) (hfraction : FractionWritten nanos f)
      (hoffset : Spaced OffsetWritten ahead o) (hblanks : Spaces blanks) :
      Written ⟨year, month, day, hour, minute, second, nanos, ahead⟩
        (y ++ (m₁ ++ (mo ++ (m₂ ++ (d ++ t :: (h ++ (m₃ ++ (mi ++ (m₄ ++ (s ++ (f ++ (o ++
          blanks))))))))))))

end Stamp

/-! ## Blanks and digits -/

/-- A text that does not go on with a digit. -/
def NoDigit (cs : List Char) : Prop := ∀ c ∈ cs.head?, isDigit c = false

theorem isDigit_iff {c : Char} : isDigit c = true ↔ 48 ≤ c.toNat ∧ c.toNat ≤ 57 := by
  simp only [isDigit, Bool.and_eq_true, decide_eq_true_eq, Char.le_def, UInt32.le_iff_toNat_le]
  exact Iff.rfl

theorem isDigit_of_isSpace {c : Char} (h : Text.isSpace c = true) : isDigit c = false := by
  by_contra hdigit
  have hdigit := isDigit_iff.1 (by simpa using hdigit)
  simp only [Text.isSpace, Bool.or_eq_true, Bool.and_eq_true, beq_iff_eq, decide_eq_true_eq] at h
  omega

theorem isSpace_of_isDigit {c : Char} (h : isDigit c = true) : Text.isSpace c = false := by
  by_contra hspace
  simp [isDigit_of_isSpace (by simpa using hspace)] at h

theorem skipBlanks_append {blanks cs : List Char} (h : Spaces blanks)
    (hcs : ∀ c ∈ cs.head?, Text.isSpace c = false) : skipBlanks (blanks ++ cs) = cs := by
  rw [skipBlanks, List.dropWhile_append_of_pos h]
  cases cs with
  | nil => rfl
  | cons c cs => simp [hcs c rfl]

/-- What is skipped is blank. -/
theorem exists_skipBlanks (cs : List Char) : ∃ blanks, Spaces blanks ∧ cs = blanks ++ skipBlanks cs :=
  ⟨cs.takeWhile Text.isSpace, fun _ => List.mem_takeWhile_imp,
    (List.takeWhile_append_dropWhile).symm⟩

theorem number?_eq_some {width n : Nat} {cs rest : List Char} (h : number? width cs = some (n, rest)) :
    ∃ ds, AllDigits ds ∧ ds ≠ [] ∧ ds.length ≤ width ∧ n = numberOf ds ∧ cs = ds ++ rest := by
  simp only [number?] at h
  split at h
  · cases h
  · rename_i hne
    obtain ⟨rfl, rfl⟩ := Prod.mk.inj (Option.some.inj h)
    refine ⟨(cs.take width).takeWhile isDigit, fun _ => List.mem_takeWhile_imp, by simpa using hne, ?_,
      rfl, ?_⟩
    · exact (List.takeWhile_prefix _).length_le.trans (List.length_take_le ..)
    · exact (List.prefix_iff_eq_append.1 ((List.takeWhile_prefix _).trans (List.take_prefix _ _))).symm

theorem number?_append {width : Nat} {ds rest : List Char} (h : AllDigits ds) (hne : ds ≠ [])
    (hle : ds.length ≤ width) (hrest : NoDigit rest) :
    number? width (ds ++ rest) = some (numberOf ds, rest) := by
  have hds : ((ds ++ rest).take width).takeWhile isDigit = ds := by
    rw [List.take_append, List.take_of_length_le hle, List.takeWhile_append_of_pos h]
    cases rest with
    | nil => simp
    | cons c rest =>
      have hc : isDigit c = false := hrest c rfl
      cases width - ds.length <;> simp [hc]
  simp [number?, hds, hne]

/-! ## Reading the parts -/

theorem Spaced.noDigit {α : Type} {Written : α → List Char → Prop} {a : α} {cs rest : List Char}
    (h : Spaced Written a cs) (hw : ∀ w, Written a w → NoDigit (w ++ rest)) : NoDigit (cs ++ rest) := by
  obtain ⟨blanks, w, hblanks, hw', rfl⟩ := h
  cases blanks with
  | nil => exact hw w hw'
  | cons c blanks =>
    rintro _ ⟨⟩
    exact isDigit_of_isSpace (hblanks c (List.mem_cons_self ..))

theorem Mark.noDigit {c : Char} {cs rest : List Char} (h : Mark c cs) (hc : isDigit c = false) :
    NoDigit (cs ++ rest) := by
  obtain ⟨blanks, hblanks, rfl⟩ := h
  cases blanks with
  | nil =>
    rintro _ ⟨⟩
    exact hc
  | cons x blanks =>
    rintro _ ⟨⟩
    exact isDigit_of_isSpace (hblanks x (List.mem_cons_self ..))

theorem separator?_append {c : Char} {cs rest : List Char} (h : Mark c cs)
    (hc : Text.isSpace c = false) : separator? c (cs ++ rest) = some rest := by
  obtain ⟨blanks, hblanks, rfl⟩ := h
  rw [separator?, List.append_assoc, skipBlanks_append hblanks (by simpa using hc)]
  simp

theorem separator?_eq_some {c : Char} {cs rest : List Char} (h : separator? c cs = some rest) :
    ∃ m, Mark c m ∧ cs = m ++ rest := by
  obtain ⟨blanks, hblanks, hcs⟩ := exists_skipBlanks cs
  rw [separator?] at h
  split at h
  · rename_i x tail heq
    split at h
    · rename_i hx
      subst hx
      obtain rfl := Option.some.inj h
      exact ⟨blanks ++ [x], ⟨blanks, hblanks, rfl⟩, by rw [hcs, heq]; simp⟩
    · cases h
  · cases h

theorem AllDigits.head_not_space {ds rest : List Char} (h : AllDigits ds) (hne : ds ≠ []) :
    ∀ c ∈ (ds ++ rest).head?, Text.isSpace c = false := by
  cases ds with
  | nil => exact absurd rfl hne
  | cons d ds =>
    rintro _ ⟨⟩
    exact isSpace_of_isDigit (h d (List.mem_cons_self ..))

theorem part?_append {least greatest n : Nat} {cs rest : List Char}
    (h : Spaced (PartWritten least greatest) n cs) (hrest : NoDigit rest) :
    part? least greatest (cs ++ rest) = some (n, rest) := by
  obtain ⟨blanks, _, hblanks, ⟨hds, hne, hle, hleast, hgreatest⟩, rfl⟩ := h
  rw [part?, List.append_assoc, skipBlanks_append hblanks (hds.head_not_space hne),
    number?_append hds hne hle hrest]
  simp [hleast, hgreatest]

theorem part?_eq_some {least greatest n : Nat} {cs rest : List Char}
    (h : part? least greatest cs = some (n, rest)) :
    ∃ p, Spaced (PartWritten least greatest) n p ∧ cs = p ++ rest := by
  obtain ⟨blanks, hblanks, hcs⟩ := exists_skipBlanks cs
  obtain ⟨⟨m, tail⟩, hnumber, h⟩ := Option.bind_eq_some_iff.1 h
  obtain ⟨ds, hds, hne, hle, rfl, heq⟩ := number?_eq_some hnumber
  simp only at h
  split at h
  · rename_i hbounds
    obtain ⟨rfl, rfl⟩ := Prod.mk.inj (Option.some.inj h)
    refine ⟨blanks ++ ds, ⟨blanks, ds, hblanks, .mk hds hne hle hbounds.1 hbounds.2, rfl⟩, ?_⟩
    rw [List.append_assoc, ← heq, ← hcs]
  · cases h

theorem year?_append {year : Int} {cs rest : List Char} (h : Spaced YearWritten year cs)
    (hrest : NoDigit rest) : year? (cs ++ rest) = some (year, rest) := by
  obtain ⟨blanks, _, hblanks, hyear, rfl⟩ := h
  rw [year?, List.append_assoc]
  cases hyear with
  | plain hds hne hle =>
    rename_i ds
    rw [skipBlanks_append hblanks (hds.head_not_space hne)]
    have hread := number?_append hds hne hle hrest
    cases ds with
    | nil => exact absurd rfl hne
    | cons d ds =>
      have hd := hds d (List.mem_cons_self ..)
      split
      · rename_i heq
        obtain ⟨rfl, -⟩ := List.cons.inj heq
        cases hd
      · rename_i heq
        obtain ⟨rfl, -⟩ := List.cons.inj heq
        cases hd
      · rw [hread]
        rfl
  | after hds hne =>
    rename_i ds
    have hlength : ds.length ≤ (ds ++ rest).length := by simp
    rw [List.cons_append, skipBlanks_append hblanks (by rintro _ ⟨⟩; decide)]
    simp only [number?_append hds hne hlength hrest]
    rfl
  | before hds hne =>
    rename_i ds
    have hlength : ds.length ≤ (ds ++ rest).length := by simp
    rw [List.cons_append, skipBlanks_append hblanks (by rintro _ ⟨⟩; decide)]
    simp only [number?_append hds hne hlength hrest]
    rfl

theorem year?_eq_some {year : Int} {cs rest : List Char} (h : year? cs = some (year, rest)) :
    ∃ y, Spaced YearWritten year y ∧ cs = y ++ rest := by
  obtain ⟨blanks, hblanks, hcs⟩ := exists_skipBlanks cs
  rw [year?] at h
  split at h
  · rename_i tail heq
    obtain ⟨⟨n, rest'⟩, hnumber, h⟩ := Option.map_eq_some_iff.1 h
    obtain ⟨rfl, rfl⟩ := Prod.mk.inj h
    obtain ⟨ds, hds, hne, -, rfl, htail⟩ := number?_eq_some hnumber
    exact ⟨blanks ++ '-' :: ds, ⟨blanks, _, hblanks, .before hds hne, rfl⟩,
      by rw [hcs, heq, htail]; simp⟩
  · rename_i tail heq
    obtain ⟨⟨n, rest'⟩, hnumber, h⟩ := Option.map_eq_some_iff.1 h
    obtain ⟨rfl, rfl⟩ := Prod.mk.inj h
    obtain ⟨ds, hds, hne, -, rfl, htail⟩ := number?_eq_some hnumber
    exact ⟨blanks ++ '+' :: ds, ⟨blanks, _, hblanks, .after hds hne, rfl⟩,
      by rw [hcs, heq, htail]; simp⟩
  · obtain ⟨⟨n, rest'⟩, hnumber, h⟩ := Option.map_eq_some_iff.1 h
    obtain ⟨rfl, rfl⟩ := Prod.mk.inj h
    obtain ⟨ds, hds, hne, hle, rfl, htail⟩ := number?_eq_some hnumber
    exact ⟨blanks ++ ds, ⟨blanks, _, hblanks, .plain hds hne hle, rfl⟩,
      by rw [hcs, htail]; simp⟩

theorem fraction?_append {n : Nat} {cs rest : List Char} (h : FractionWritten n cs)
    (hrest : NoDigit rest) (hpoint : '.' ∉ rest.head?) : fraction? (cs ++ rest) = some (n, rest) := by
  cases h with
  | absent =>
    cases rest with
    | nil => rfl
    | cons c rest =>
      have hc : c ≠ '.' := by rintro rfl; exact hpoint rfl
      simp [fraction?, hc]
  | @present ds hds hne =>
    have hread : (ds ++ rest).takeWhile isDigit = ds := by
      rw [List.takeWhile_append_of_pos hds]
      cases rest with
      | nil => simp
      | cons c rest =>
        have hc : isDigit c = false := hrest c rfl
        simp [hc]
    simp [fraction?, hread, hne]

theorem fraction?_eq_some {n : Nat} {cs rest : List Char} (h : fraction? cs = some (n, rest)) :
    ∃ f, FractionWritten n f ∧ cs = f ++ rest := by
  rw [fraction?.eq_def] at h
  split at h
  · rename_i tail
    simp only at h
    split at h
    · cases h
    · rename_i hne
      obtain ⟨rfl, rfl⟩ := Prod.mk.inj (Option.some.inj h)
      refine ⟨'.' :: tail.takeWhile isDigit,
        .present (fun _ => List.mem_takeWhile_imp) (by simpa using hne), ?_⟩
      exact congrArg (List.cons '.')
        (List.prefix_iff_eq_append.1 (List.takeWhile_prefix isDigit)).symm
  · obtain ⟨rfl, rfl⟩ := Prod.mk.inj (Option.some.inj h)
    exact ⟨[], .absent, rfl⟩

/-! ## Reading offsets -/

theorem twoDigits?_append {a b : Char} (h : AllDigits [a, b]) (rest : List Char) :
    twoDigits? (a :: b :: rest) = some (numberOf [a, b], rest) := by
  have ha := h a (by simp)
  have hb := h b (by simp)
  simp [twoDigits?, ha, hb]

theorem twoDigits?_eq_some {n : Nat} {cs rest : List Char} (h : twoDigits? cs = some (n, rest)) :
    ∃ a b, AllDigits [a, b] ∧ n = numberOf [a, b] ∧ cs = a :: b :: rest := by
  rw [twoDigits?.eq_def] at h
  split at h
  · rename_i a b tail
    split at h
    · rename_i hdigits
      obtain ⟨rfl, rfl⟩ := Prod.mk.inj (Option.some.inj h)
      refine ⟨a, b, ?_, rfl, rfl⟩
      simpa [AllDigits] using hdigits
    · cases h
  · cases h

/-- The characters between the hours and the minutes of an offset. -/
abbrev isGap (c : Char) : Bool := c == ':' || Text.isSpace c

theorem dropWhile_gap {gap cs : List Char} (h : ∀ c ∈ gap, isGap c = true)
    (hcs : ∀ c ∈ cs.head?, isDigit c = true) : (gap ++ cs).dropWhile isGap = cs := by
  rw [List.dropWhile_append_of_pos h]
  cases cs with
  | nil => rfl
  | cons c cs =>
    have hc : isDigit c = true := hcs c rfl
    have hcolon : c ≠ ':' := by rintro rfl; cases hc
    simp [hcolon, isSpace_of_isDigit hc]

/-- An offset after its sign. -/
def shift? (behind : Bool) (cs : List Char) : Option (Int × List Char) := do
  let (hours, rest) ← twoDigits? cs
  let (minutes, rest) ← twoDigits? (rest.dropWhile isGap)
  if 24 ≤ hours ∨ 60 ≤ minutes then none
  let ahead : Int := ((hours * 60 + minutes) * 60 : Nat)
  return (if behind then -ahead else ahead, rest)

theorem offset?_sign {sign : Char} {behind : Bool} (h : (sign, behind) ∈ offsetSigns) (t c : Char)
    (rest : List Char) : offset? (sign :: t :: c :: rest) = shift? behind (t :: c :: rest) := by
  simp only [offsetSigns, List.mem_cons, Prod.mk.injEq, List.not_mem_nil, or_false] at h
  rcases h with ⟨rfl, rfl⟩ | ⟨rfl, rfl⟩ | ⟨rfl, rfl⟩ <;> rfl

theorem shift?_eq_some {behind : Bool} {cs rest : List Char} {ahead : Int}
    (h : shift? behind cs = some (ahead, rest)) :
    ∃ a b gap c d, AllDigits [a, b] ∧ AllDigits [c, d] ∧ (∀ x ∈ gap, isGap x = true) ∧
      numberOf [a, b] < 24 ∧ numberOf [c, d] < 60 ∧ cs = a :: b :: gap ++ c :: d :: rest ∧
      ahead = (if behind then -1 else 1) *
        ((numberOf [a, b] * 60 + numberOf [c, d]) * 60 : Nat) := by
  obtain ⟨⟨hours, tail⟩, hhours, h⟩ := Option.bind_eq_some_iff.1 h
  obtain ⟨⟨minutes, tail'⟩, hminutes, h⟩ := Option.bind_eq_some_iff.1 h
  obtain ⟨a, b, hab, rfl, rfl⟩ := twoDigits?_eq_some hhours
  obtain ⟨c, d, hcd, rfl, htail⟩ := twoDigits?_eq_some hminutes
  simp only at h
  split at h
  · cases h
  · rename_i hlt
    obtain ⟨rfl, rfl⟩ := Prod.mk.inj (Option.some.inj h)
    refine ⟨a, b, tail.takeWhile isGap, c, d, hab, hcd, fun _ => List.mem_takeWhile_imp, by omega,
      by omega, ?_, by cases behind <;> simp⟩
    rw [← htail, List.cons_append, List.cons_append, List.takeWhile_append_dropWhile]

theorem offset?_append {ahead : Int} {cs : List Char} (h : OffsetWritten ahead cs)
    (rest : List Char) : offset? (cs ++ rest) = some (ahead, rest) := by
  cases h with
  | zulu h => rcases h with rfl | rfl <;> rfl
  | @utc u t c hu ht hc =>
    have hZ : u ≠ 'Z' := by rintro rfl; revert hu; decide
    have hz : u ≠ 'z' := by rintro rfl; revert hu; decide
    rw [List.cons_append, List.cons_append, List.cons_append, List.nil_append, offset?,
      if_pos ⟨hu, ht, hc⟩]
    · exact hZ
    · exact hz
  | @shift sign a b c d behind gap hsign hhours hminutes hgap hlt hlt' =>
    have hread := twoDigits?_append hhours (gap ++ c :: d :: rest)
    have hdrop : (gap ++ c :: d :: rest).dropWhile isGap = c :: d :: rest :=
      dropWhile_gap (by simpa using hgap) (by simpa using hminutes c (by simp))
    have hread' := twoDigits?_append hminutes rest
    have hbounds : ¬ (24 ≤ numberOf [a, b] ∨ 60 ≤ numberOf [c, d]) := by omega
    have hshift : shift? behind (a :: b :: (gap ++ c :: d :: rest))
        = some (if behind then -(((numberOf [a, b] * 60 + numberOf [c, d]) * 60 : Nat) : Int)
            else ((numberOf [a, b] * 60 + numberOf [c, d]) * 60 : Nat), rest) := by
      simp only [shift?, hread, hdrop, hread', hbounds, Option.bind_eq_bind, Option.bind_some,
        if_false]
      rfl
    have hcs : sign :: a :: b :: gap ++ [c, d] ++ rest
        = sign :: a :: b :: (gap ++ c :: d :: rest) := by simp
    rw [hcs, offset?_sign hsign, hshift]
    cases behind <;> simp

theorem offset?_eq_some {ahead : Int} {cs rest : List Char} (h : offset? cs = some (ahead, rest)) :
    ∃ o, OffsetWritten ahead o ∧ cs = o ++ rest := by
  have hread := h
  rw [offset?.eq_def] at h
  split at h
  · obtain ⟨rfl, rfl⟩ := Prod.mk.inj (Option.some.inj h)
    exact ⟨['Z'], .zulu (.inl rfl), rfl⟩
  · obtain ⟨rfl, rfl⟩ := Prod.mk.inj (Option.some.inj h)
    exact ⟨['z'], .zulu (.inr rfl), rfl⟩
  · rename_i u t c tail _ _
    split at h
    · rename_i hutc
      obtain ⟨rfl, rfl⟩ := Prod.mk.inj (Option.some.inj h)
      exact ⟨[u, t, c], .utc hutc.1 hutc.2.1 hutc.2.2, rfl⟩
    · have hsign : ∃ behind, (u, behind) ∈ offsetSigns := by
        by_cases hplus : u = '+'
        · exact ⟨false, by simp [offsetSigns, hplus]⟩
        · by_cases hminus : u = '-' ∨ u = '−'
          · exact ⟨true, by simpa [offsetSigns, hplus] using hminus⟩
          · simp [hplus, hminus] at h
      obtain ⟨behind, hsign⟩ := hsign
      rw [offset?_sign hsign] at hread
      obtain ⟨a, b, gap, c', d, hab, hcd, hgap, hlt, hlt', hcs, rfl⟩ := shift?_eq_some hread
      exact ⟨u :: a :: b :: gap ++ [c', d],
        .shift hsign hab hcd (by simpa using hgap) hlt hlt', by rw [hcs]; simp⟩
  · cases h

theorem eq_or_upper_of_toLower {c x : Char} (h : c.toLower = x) :
    c = x ∨ 65 ≤ c.toNat ∧ c.toNat ≤ 90 := by
  delta Char.toLower at h
  split at h
  · rename_i hupper
    simp only [ge_iff_le, UInt32.le_iff_toNat_le] at hupper
    exact .inr hupper
  · exact .inl h

/-- No offset starts with a blank, a digit or a point. -/
theorem OffsetWritten.head {ahead : Int} {cs rest : List Char} (h : OffsetWritten ahead cs) :
    ∀ c ∈ (cs ++ rest).head?, Text.isSpace c = false ∧ isDigit c = false ∧ c ≠ '.' := by
  cases h with
  | zulu h => rintro _ ⟨⟩; rcases h with rfl | rfl <;> decide
  | utc hu =>
    rintro _ ⟨⟩
    rcases eq_or_upper_of_toLower hu with rfl | hupper
    · decide
    · refine ⟨?_, ?_, by rintro rfl; exact absurd hupper (by decide)⟩
      · simp [Text.isSpace]
        omega
      · by_contra hdigit
        have hdigit := isDigit_iff.1 (by simpa using hdigit)
        omega
  | shift hsign =>
    rintro _ ⟨⟩
    simp only [offsetSigns, List.mem_cons, Prod.mk.injEq, List.not_mem_nil, or_false] at hsign
    rcases hsign with ⟨rfl, -⟩ | ⟨rfl, -⟩ | ⟨rfl, -⟩ <;> decide

/-! ## Reading date-times -/

theorem FractionWritten.noDigit {n : Nat} {cs rest : List Char} (h : FractionWritten n cs)
    (hrest : NoDigit rest) : NoDigit (cs ++ rest) := by
  cases h with
  | absent => exact hrest
  | present => rintro _ ⟨⟩; decide

theorem Spaced.offset_head {ahead : Int} {cs rest : List Char} (h : Spaced OffsetWritten ahead cs) :
    '.' ∉ (cs ++ rest).head? := by
  obtain ⟨blanks, w, hblanks, hw, rfl⟩ := h
  cases blanks with
  | nil => exact fun hpoint => (hw.head _ hpoint).2.2 rfl
  | cons c blanks =>
    rintro ⟨⟩
    exact absurd (hblanks '.' (List.mem_cons_self ..)) (by decide)

theorem offset?_skipBlanks {ahead : Int} {cs rest : List Char} (h : Spaced OffsetWritten ahead cs) :
    offset? (skipBlanks (cs ++ rest)) = some (ahead, rest) := by
  obtain ⟨blanks, w, hblanks, hw, rfl⟩ := h
  rw [List.append_assoc, skipBlanks_append hblanks fun c hc => (hw.head c hc).1, offset?_append hw]

theorem bind_some {α β : Type} {x : Option α} {f : α → Option β} {a : α} (h : x = some a) :
    (x >>= f) = f a := by
  rw [h]
  rfl

/-- A date-time is read as its instant, if there is such an instant. -/
theorem ofText?_of_written {st : Stamp} {s : String} (h : st.Written s.toList)
    (hdate : st.date.isValid = true) (hrange : st.instant.inRange = true) :
    ofText? s = some st.instant := by
  generalize hcs : s.toList = cs at h
  cases h with
  | @mk _ _ _ _ _ _ _ _ t _ _ _ _ _ _ _ _ _ _ f o blanks hyear hmark₁ hmonth hmark₂ hday ht hhour
      hmark₃ hminute hmark₄ hsecond hfraction hoffset hblanks =>
    have hoffsetHead : NoDigit (o ++ blanks) :=
      hoffset.noDigit fun w hw c hc => (hw.head c hc).2.1
    have htHead (rest : List Char) : NoDigit (t :: rest) := by
      rintro _ ⟨⟩
      rcases ht with rfl | rfl | rfl <;> decide
    have hend : (skipBlanks blanks).isEmpty = true := by
      have h := @skipBlanks_append blanks [] hblanks (by simp)
      rw [List.append_nil] at h
      rw [h]
      rfl
    have hafter (rest : List Char) : afterDate? (t :: rest) = some rest := if_pos ht
    rw [ofText?, hcs]
    refine (bind_some (year?_append hyear (hmark₁.noDigit rfl))).trans ?_
    refine (bind_some (separator?_append hmark₁ rfl)).trans ?_
    refine (bind_some (part?_append hmonth (hmark₂.noDigit rfl))).trans ?_
    refine (bind_some (separator?_append hmark₂ rfl)).trans ?_
    refine (bind_some (part?_append hday (htHead _))).trans ?_
    refine (bind_some (hafter _)).trans ?_
    refine (bind_some (part?_append hhour (hmark₃.noDigit rfl))).trans ?_
    refine (bind_some (separator?_append hmark₃ rfl)).trans ?_
    refine (bind_some (part?_append hminute (hmark₄.noDigit rfl))).trans ?_
    refine (bind_some (separator?_append hmark₄ rfl)).trans ?_
    refine (bind_some (part?_append hsecond (hfraction.noDigit hoffsetHead))).trans ?_
    refine (bind_some (fraction?_append hfraction hoffsetHead hoffset.offset_head)).trans ?_
    refine (bind_some (offset?_skipBlanks hoffset)).trans ?_
    refine (if_neg ?_).trans (if_pos hrange)
    rw [hend, Bool.not_true, Bool.or_false]
    simpa [Stamp.date] using hdate

theorem afterDate?_eq_some {cs rest : List Char} (h : afterDate? cs = some rest) :
    ∃ t, (t = 'T' ∨ t = 't' ∨ t = ' ') ∧ cs = t :: rest := by
  cases cs with
  | nil => cases h
  | cons t cs =>
    simp only [afterDate?] at h
    split at h
    · rename_i ht
      obtain rfl := Option.some.inj h
      exact ⟨t, ht, rfl⟩
    · cases h

theorem exists_written {s : String} {t : Instant} (h : ofText? s = some t) :
    ∃ st : Stamp, st.Written s.toList ∧ st.date.isValid = true ∧ st.instant.inRange = true ∧
      st.instant = t := by
  obtain ⟨⟨year, cs₁⟩, ryear, h⟩ := Option.bind_eq_some_iff.1 h
  obtain ⟨cs₂, rmark₁, h⟩ := Option.bind_eq_some_iff.1 h
  obtain ⟨⟨month, cs₃⟩, rmonth, h⟩ := Option.bind_eq_some_iff.1 h
  obtain ⟨cs₄, rmark₂, h⟩ := Option.bind_eq_some_iff.1 h
  obtain ⟨⟨day, cs₅⟩, rday, h⟩ := Option.bind_eq_some_iff.1 h
  obtain ⟨cs₆, rafter, h⟩ := Option.bind_eq_some_iff.1 h
  obtain ⟨⟨hour, cs₇⟩, rhour, h⟩ := Option.bind_eq_some_iff.1 h
  obtain ⟨cs₈, rmark₃, h⟩ := Option.bind_eq_some_iff.1 h
  obtain ⟨⟨minute, cs₉⟩, rminute, h⟩ := Option.bind_eq_some_iff.1 h
  obtain ⟨cs₁₀, rmark₄, h⟩ := Option.bind_eq_some_iff.1 h
  obtain ⟨⟨second, cs₁₁⟩, rsecond, h⟩ := Option.bind_eq_some_iff.1 h
  obtain ⟨⟨nanos, cs₁₂⟩, rnanos, h⟩ := Option.bind_eq_some_iff.1 h
  obtain ⟨⟨ahead, cs₁₃⟩, rahead, hfinal⟩ := Option.bind_eq_some_iff.1 h
  obtain ⟨y, hyear, hcs₀⟩ := year?_eq_some ryear
  obtain ⟨m₁, hmark₁, rfl⟩ := separator?_eq_some rmark₁
  obtain ⟨mo, hmonth, rfl⟩ := part?_eq_some rmonth
  obtain ⟨m₂, hmark₂, rfl⟩ := separator?_eq_some rmark₂
  obtain ⟨d, hday, rfl⟩ := part?_eq_some rday
  obtain ⟨c, hc, rfl⟩ := afterDate?_eq_some rafter
  obtain ⟨hh, hhour, rfl⟩ := part?_eq_some rhour
  obtain ⟨m₃, hmark₃, rfl⟩ := separator?_eq_some rmark₃
  obtain ⟨mi, hminute, rfl⟩ := part?_eq_some rminute
  obtain ⟨m₄, hmark₄, rfl⟩ := separator?_eq_some rmark₄
  obtain ⟨ss, hsecond, rfl⟩ := part?_eq_some rsecond
  obtain ⟨f, hfraction, rfl⟩ := fraction?_eq_some rnanos
  obtain ⟨blanks, hblanks, hcs₁₂⟩ := exists_skipBlanks cs₁₂
  obtain ⟨o, hoffset, ho⟩ := offset?_eq_some rahead
  obtain ⟨blanks', hblanks', hcs₁₃⟩ := exists_skipBlanks cs₁₃
  simp only at hfinal
  split at hfinal
  · cases hfinal
  · rename_i hcond
    simp only [Bool.or_eq_true, Bool.not_eq_true', not_or, Bool.not_eq_false] at hcond
    obtain ⟨hdate, hend⟩ := hcond
    have hfinal : (if (Stamp.instant ⟨year, month, day, hour, minute, second, nanos, ahead⟩).inRange
        then some (Stamp.instant ⟨year, month, day, hour, minute, second, nanos, ahead⟩)
        else none) = some t := hfinal
    split at hfinal
    · rename_i hrange
      obtain rfl := Option.some.inj hfinal
      refine ⟨⟨year, month, day, hour, minute, second, nanos, ahead⟩, ?_, hdate, hrange, rfl⟩
      have hcs₁₃ : Spaces cs₁₃ := by
        rw [hcs₁₃, List.isEmpty_iff.1 hend, List.append_nil]
        exact hblanks'
      rw [hcs₀, hcs₁₂, ho, ← List.append_assoc blanks]
      exact .mk hyear hmark₁ hmonth hmark₂ hday hc hhour hmark₃ hminute hmark₄ hsecond hfraction
        ⟨blanks, o, hblanks, hoffset, rfl⟩ hcs₁₃
    · cases hfinal

/-- The texts that give an instant, and which one. -/
theorem ofText?_eq_some_iff {s : String} {t : Instant} :
    ofText? s = some t ↔ ∃ st : Stamp, st.Written s.toList ∧ st.date.isValid = true ∧
      st.instant.inRange = true ∧ st.instant = t := by
  constructor
  · exact exists_written
  · rintro ⟨st, hwritten, hdate, hrange, rfl⟩
    exact ofText?_of_written hwritten hdate hrange

end Instant
end AccessRegistry
