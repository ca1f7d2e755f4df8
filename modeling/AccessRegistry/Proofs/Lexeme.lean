import AccessRegistry.Json.Token
import Mathlib.Data.List.Basic
import Mathlib.Tactic.IntervalCases

/-!
# AccessRegistry.Proofs.Lexeme

The words that a JSON text is made of, and the ways to write each of them.

* `Literal.Written`, `Letter.Written`, `Word.Written` — how numbers, parts of strings and words may be
  written.
* `WordsWritten` — words one after another, with blanks anywhere between them.
* `scan_written` — a text made of words is read as their tokens, if a number is never followed by
  another value.
-/

namespace AccessRegistry
namespace Json

/-! ## Numbers -/

/-- The digits of a number, the highest one first. -/
def decimalChars (ds : List Nat) : List Char := ds.map Nat.digitChar

/-- Some digits, none of them above nine. -/
structure IsDecimal (ds : List Nat) : Prop where
  nonempty : ds ≠ []
  digit : ∀ d ∈ ds, d < 10

namespace Number.Literal

/-- The part of a number from its exponent sign on. -/
inductive ExponentWritten : Option (Bool × List Nat) → List Char → Prop where
  | absent : ExponentWritten none []
  | plain {ds : List Nat} {e : Char} (he : e = 'e' ∨ e = 'E') (h : IsDecimal ds) :
      ExponentWritten (some (false, ds)) (e :: decimalChars ds)
  | up {ds : List Nat} {e : Char} (he : e = 'e' ∨ e = 'E') (h : IsDecimal ds) :
      ExponentWritten (some (false, ds)) (e :: '+' :: decimalChars ds)
  | down {ds : List Nat} {e : Char} (he : e = 'e' ∨ e = 'E') (h : IsDecimal ds) :
      ExponentWritten (some (true, ds)) (e :: '-' :: decimalChars ds)

inductive FractionWritten : Option (List Nat) → List Char → Prop where
  | absent : FractionWritten none []
  | present {ds : List Nat} (h : IsDecimal ds) : FractionWritten (some ds) ('.' :: decimalChars ds)

/-- A zero at the front stands alone before the point. -/
inductive Written : Literal → List Char → Prop where
  | mk {negative : Bool} {whole : List Nat} {fraction : Option (List Nat)}
      {exponent : Option (Bool × List Nat)} {fs es : List Char} (hwhole : IsDecimal whole)
      (hzero : whole.head? = some 0 → whole = [0]) (hfraction : FractionWritten fraction fs)
      (hexponent : ExponentWritten exponent es) :
      Written ⟨negative, whole, fraction, exponent⟩
        ((if negative then ['-'] else []) ++ decimalChars whole ++ fs ++ es)

end Number.Literal

/-! ## Strings -/

/-- A hexadecimal digit of either case. -/
def IsHex (c : Char) (v : Nat) : Prop :=
  v < 16 ∧ (c = Nat.digitChar v ∨ c = (Nat.digitChar v).toUpper)

/-- Four hexadecimal digits. -/
inductive FourHex : List Char → Nat → Prop where
  | mk {a b c d : Char} {w x y z : Nat} (ha : IsHex a w) (hb : IsHex b x) (hc : IsHex c y)
      (hd : IsHex d z) : FourHex [a, b, c, d] (((w * 16 + x) * 16 + y) * 16 + z)

/-- The letters that follow a backslash, and what they stand for. -/
def shortEscapes : List (Char × Char) :=
  [('"', '"'), ('\\', '\\'), ('/', '/'), ('b', Char.ofNat 8), ('f', Char.ofNat 12), ('n', '\n'),
    ('r', '\r'), ('t', '\t')]

/-- A part of a written string: a character, or a code of sixteen bits. -/
inductive Letter where
  | char (c : Char)
  | code (n : Nat)

namespace Letter

inductive Written : Letter → List Char → Prop where
  | plain {c : Char} (hquote : c ≠ '"') (hbackslash : c ≠ '\\') (hcontrol : 0x20 ≤ c.toNat) :
      Written (.char c) [c]
  | short {e c : Char} (h : (e, c) ∈ shortEscapes) : Written (.char c) ['\\', e]
  | code {cs : List Char} {n : Nat} (h : FourHex cs n) : Written (.code n) ('\\' :: 'u' :: cs)

/-- The text that letters make. Codes of surrogates stand for characters in pairs only. -/
def text? : List Letter → Option (List Char)
  | [] => some []
  | .char c :: rest => (text? rest).map (c :: ·)
  | .code n :: rest =>
    if Token.isHighSurrogate n then
      match rest with
      | .code m :: rest =>
        if Token.isLowSurrogate m then
          (text? rest).map (Char.ofNat ((n - 0xD800) * 0x400 + (m - 0xDC00) + 0x10000) :: ·)
        else none
      | _ => none
    else if Token.isLowSurrogate n then none
    else (text? rest).map (Char.ofNat n :: ·)

/-- The code of no high surrogate stands for itself. -/
theorem text?_code {n : Nat} {rest : List Letter} (h : Token.isHighSurrogate n = false) :
    text? (.code n :: rest)
      = if Token.isLowSurrogate n then none else (text? rest).map (Char.ofNat n :: ·) := by
  rw [text?.eq_def]
  simp [h]

end Letter

/-- The letters of a string one after another. -/
inductive LettersWritten : List Letter → List Char → Prop where
  | nil : LettersWritten [] []
  | cons {l : Letter} {ls : List Letter} {cs ds : List Char} (hl : l.Written cs)
      (hls : LettersWritten ls ds) : LettersWritten (l :: ls) (cs ++ ds)

/-! ## Words -/

inductive Word where
  | beginObject
  | endObject
  | beginArray
  | endArray
  | colon
  | comma
  | null
  | bool (b : Bool)
  | number (l : Number.Literal)
  | string (s : Option String)

namespace Word

/-- What a reader makes of a word. -/
def token : Word → Token
  | .beginObject => .beginObject
  | .endObject => .endObject
  | .beginArray => .beginArray
  | .endArray => .endArray
  | .colon => .colon
  | .comma => .comma
  | .null => .null
  | .bool b => .bool b
  | .number l => .number l.value
  | .string s => .string s

inductive Written : Word → List Char → Prop where
  | beginObject : Written .beginObject ['\x7b']
  | endObject : Written .endObject ['\x7d']
  | beginArray : Written .beginArray ['[']
  | endArray : Written .endArray [']']
  | colon : Written .colon [':']
  | comma : Written .comma [',']
  | null : Written .null ['n', 'u', 'l', 'l']
  | boolTrue : Written (.bool true) ['t', 'r', 'u', 'e']
  | boolFalse : Written (.bool false) ['f', 'a', 'l', 's', 'e']
  | number {l : Number.Literal} {cs : List Char} (h : l.Written cs) : Written (.number l) cs
  | string {ls : List Letter} {cs : List Char} (h : LettersWritten ls cs) :
      Written (.string ((Letter.text? ls).map String.ofList)) ('"' :: cs ++ ['"'])

/-- The words that are no values and begin none. -/
def closes : Word → Bool
  | .endObject | .endArray | .colon | .comma => true
  | _ => false

def isNumber : Word → Bool
  | .number _ => true
  | _ => false

end Word

/-- Every number is followed by a mark that belongs to no value, or by nothing. -/
def Separated : List Word → Prop
  | w :: w' :: rest => (w.isNumber = true → w'.closes = true) ∧ Separated (w' :: rest)
  | _ => True

theorem Separated.tail {w : Word} {ws : List Word} (h : Separated (w :: ws)) : Separated ws := by
  cases ws with
  | nil => trivial
  | cons w' ws => exact h.2

theorem Separated.cons {w : Word} {ws : List Word} (hw : w.isNumber = false)
    (hws : Separated ws) : Separated (w :: ws) := by
  cases ws with
  | nil => trivial
  | cons w' ws => exact ⟨fun hnumber => by simp [hw] at hnumber, hws⟩

/-- The characters between words. -/
def Blank (cs : List Char) : Prop := ∀ c ∈ cs, Token.isBlank c = true

/-- Words one after another, with blanks around them. -/
inductive WordsWritten : List Word → List Char → Prop where
  | nil {blanks : List Char} (h : Blank blanks) : WordsWritten [] blanks
  | cons {w : Word} {rest : List Word} {blanks cs tail : List Char} (h : Blank blanks)
      (hw : w.Written cs) (hrest : WordsWritten rest tail) :
      WordsWritten (w :: rest) (blanks ++ (cs ++ tail))

theorem WordsWritten.word {w : Word} {rest : List Word} {cs tail : List Char} (hw : w.Written cs)
    (hrest : WordsWritten rest tail) : WordsWritten (w :: rest) (cs ++ tail) := by
  have hblank : Blank [] := by simp [Blank]
  exact .cons hblank hw hrest

/-! ## Reading numbers -/

/-- A text that does not go on with a character of a number. -/
def EndsNumber (cs : List Char) : Prop :=
  ∀ c ∈ cs.head?, Source.isDigit c = false ∧ c ≠ '.' ∧ c ≠ 'e' ∧ c ≠ 'E'

@[simp]
theorem decimalChars_cons (d : Nat) (ds : List Nat) :
    decimalChars (d :: ds) = d.digitChar :: decimalChars ds := rfl

theorem isDigit_digitChar {d : Nat} (h : d < 10) :
    Source.isDigit d.digitChar = true ∧ Source.digitValue d.digitChar = d := by
  interval_cases d <;> decide

/-- All digits at the front are read, and nothing else. -/
theorem digits_decimalChars {ds : List Nat} (hds : ∀ d ∈ ds, d < 10) {tail : List Char}
    (htail : ∀ c ∈ tail.head?, Source.isDigit c = false) :
    Source.digits ((decimalChars ds).map some ++ tail.map some) = (ds, tail.map some) := by
  induction ds with
  | nil =>
    cases tail with
    | nil => rfl
    | cons c tail =>
      have hc : Source.isDigit c = false := htail c rfl
      simp [decimalChars, Source.digits, hc]
  | cons d ds ih =>
    obtain ⟨hd, hds⟩ := List.forall_mem_cons.1 hds
    obtain ⟨hdigit, hvalue⟩ := isDigit_digitChar hd
    simp [Source.digits, hdigit, hvalue, ih hds]

namespace Number.Literal

theorem ExponentWritten.read {exponent : Option (Bool × List Nat)} {es tail : List Char}
    (h : ExponentWritten exponent es) (htail : EndsNumber tail) :
    Token.exponentPart ((es ++ tail).map some) = some (exponent, tail.map some) := by
  cases h with
  | absent =>
    cases tail with
    | nil => rfl
    | cons c tail =>
      obtain ⟨-, -, he, hE⟩ := htail c rfl
      simp [Token.exponentPart, he, hE]
  | @plain ds e he h =>
    have hread := digits_decimalChars h.digit fun c hc => (htail c hc).1
    cases ds with
    | nil => exact absurd rfl h.nonempty
    | cons d ds =>
      have hd : d < 10 := h.digit d (List.mem_cons_self ..)
      have hsign : d.digitChar ≠ '+' ∧ d.digitChar ≠ '-' := by interval_cases d <;> decide
      simp only [decimalChars_cons, List.map_cons, List.cons_append] at hread
      simp [Token.exponentPart, he, hsign.1, hsign.2, hread]
  | up he h | down he h =>
    have hread := digits_decimalChars h.digit fun c hc => (htail c hc).1
    simp [Token.exponentPart, he, hread, h.nonempty]

/-- What may follow the digits before an exponent. -/
theorem ExponentWritten.head {exponent : Option (Bool × List Nat)} {es tail : List Char}
    (h : ExponentWritten exponent es) (htail : EndsNumber tail) :
    ∀ c ∈ (es ++ tail).head?, Source.isDigit c = false ∧ c ≠ '.' := by
  cases h with
  | absent => exact fun c hc => ⟨(htail c hc).1, (htail c hc).2.1⟩
  | plain he | up he | down he =>
    intro c hc
    obtain rfl : _ = c := Option.some.inj hc
    rcases he with rfl | rfl <;> decide

theorem FractionWritten.read {fraction : Option (List Nat)} {fs tail : List Char}
    (h : FractionWritten fraction fs)
    (htail : ∀ c ∈ tail.head?, Source.isDigit c = false ∧ c ≠ '.') :
    Token.fractionPart ((fs ++ tail).map some) = some (fraction, tail.map some) := by
  cases h with
  | absent =>
    cases tail with
    | nil => rfl
    | cons c tail =>
      have hc : c ≠ '.' := (htail c rfl).2
      simp [Token.fractionPart, hc]
  | present h =>
    have hread := digits_decimalChars h.digit fun c hc => (htail c hc).1
    simp [Token.fractionPart, hread, h.nonempty]

theorem FractionWritten.head {fraction : Option (List Nat)} {fs tail : List Char}
    (h : FractionWritten fraction fs) (htail : ∀ c ∈ tail.head?, Source.isDigit c = false) :
    ∀ c ∈ (fs ++ tail).head?, Source.isDigit c = false := by
  cases h with
  | absent => exact htail
  | present =>
    intro c hc
    obtain rfl : _ = c := Option.some.inj hc
    decide

end Number.Literal

/-- A number without its sign is read up to its end. -/
theorem unsigned_written (negative : Bool) {whole : List Nat} {fraction : Option (List Nat)}
    {exponent : Option (Bool × List Nat)} {fs es tail : List Char} (hwhole : IsDecimal whole)
    (hzero : whole.head? = some 0 → whole = [0])
    (hfraction : Number.Literal.FractionWritten fraction fs)
    (hexponent : Number.Literal.ExponentWritten exponent es) (htail : EndsNumber tail) :
    Token.unsigned negative ((decimalChars whole ++ (fs ++ (es ++ tail))).map some)
      = some (Number.Literal.value ⟨negative, whole, fraction, exponent⟩, tail.map some) := by
  have hhead := hexponent.head htail
  have hdigits := digits_decimalChars hwhole.digit (hfraction.head fun c hc => (hhead c hc).1)
  have hfractionRead := hfraction.read hhead
  have hexponentRead := hexponent.read htail
  unfold Token.unsigned
  rw [List.map_append, hdigits]
  split
  · exact absurd ‹_› (by simp [hwhole.nonempty])
  · rename_i heq
    obtain ⟨rfl, -⟩ := Prod.mk.inj heq
    simp at hzero
  · rename_i heq
    obtain ⟨rfl, rfl⟩ := Prod.mk.inj heq
    rw [hfractionRead]
    simp only [Option.bind_eq_bind, Option.bind_some]
    rw [hexponentRead]
    rfl

/-! ## Reading strings -/

theorem IsHex.value {c : Char} {v : Nat} (h : IsHex c v) : Source.hexValue? c = some v := by
  obtain ⟨hv, rfl | rfl⟩ := h <;> interval_cases v <;> decide

theorem FourHex.read {cs : List Char} {n : Nat} (h : FourHex cs n) :
    ∃ a b c d, cs = [a, b, c, d] ∧
      Source.hexValue4? (some a) (some b) (some c) (some d) = some n := by
  obtain ⟨ha, hb, hc, hd⟩ := h
  exact ⟨_, _, _, _, rfl, by simp [Source.hexValue4?, ha.value, hb.value, hc.value, hd.value]⟩

theorem escaped_of_mem {e c : Char} (h : (e, c) ∈ shortEscapes) :
    e ≠ 'u' ∧ Token.escaped? e = some c := by
  simp only [shortEscapes, List.mem_cons, Prod.mk.injEq, List.not_mem_nil, or_false] at h
  rcases h with h | h | h | h | h | h | h | h <;> obtain ⟨rfl, rfl⟩ := h <;> decide

namespace Token

theorem stringRest_plain {c : Char} {rest : Source} (hquote : c ≠ '"') (hbackslash : c ≠ '\\')
    (hcontrol : 0x20 ≤ c.toNat) :
    stringRest (some c :: rest) = extend (some c) (stringRest rest) := by
  rw [stringRest] <;> simp_all

theorem stringRest_short {e c : Char} {rest : Source} (h : (e, c) ∈ shortEscapes) :
    stringRest (some '\\' :: some e :: rest) = extend (some c) (stringRest rest) := by
  obtain ⟨hu, hc⟩ := escaped_of_mem h
  rw [stringRest] <;> simp_all

/-- The code of no high surrogate stands for itself, whatever follows. -/
theorem stringRest_code {a b c d : Char} {n : Nat} {rest : Source}
    (hn : Source.hexValue4? (some a) (some b) (some c) (some d) = some n)
    (hhigh : isHighSurrogate n = false) :
    stringRest (some '\\' :: some 'u' :: some a :: some b :: some c :: some d :: rest)
      = extend (if isLowSurrogate n then none else some (Char.ofNat n)) (stringRest rest) := by
  by_cases hrest : ∃ e f g h r, rest = some '\\' :: some 'u' :: e :: f :: g :: h :: r
  · obtain ⟨e, f, g, h, r, rfl⟩ := hrest
    rw [stringRest]
    simp [hn, hhigh]
  · rw [stringRest]
    · simp [hn, hhigh]
    · exact fun e f g h r heq => hrest ⟨e, f, g, h, r, heq⟩

theorem stringRest_pair {a b c d e f g h : Char} {n m : Nat} {rest : Source}
    (hn : Source.hexValue4? (some a) (some b) (some c) (some d) = some n)
    (hm : Source.hexValue4? (some e) (some f) (some g) (some h) = some m)
    (hhigh : isHighSurrogate n = true) (hlow : isLowSurrogate m = true) :
    stringRest (some '\\' :: some 'u' :: some a :: some b :: some c :: some d ::
        some '\\' :: some 'u' :: some e :: some f :: some g :: some h :: rest)
      = extend (some (Char.ofNat ((n - 0xD800) * 0x400 + (m - 0xDC00) + 0x10000)))
          (stringRest rest) := by
  rw [stringRest]
  simp [hn, hm, hhigh, hlow]

/-- A high surrogate that no low one follows. -/
theorem stringRest_unpaired {a b c d : Char} {n : Nat} {rest : Source}
    (hn : Source.hexValue4? (some a) (some b) (some c) (some d) = some n)
    (hhigh : isHighSurrogate n = true)
    (hrest : ∀ e f g h r, rest = some '\\' :: some 'u' :: e :: f :: g :: h :: r →
      ∃ m, Source.hexValue4? e f g h = some m ∧ isLowSurrogate m = false) :
    stringRest (some '\\' :: some 'u' :: some a :: some b :: some c :: some d :: rest)
      = extend none (stringRest rest) := by
  by_cases hcode : ∃ e f g h r, rest = some '\\' :: some 'u' :: e :: f :: g :: h :: r
  · obtain ⟨e, f, g, h, r, rfl⟩ := hcode
    obtain ⟨m, hm, hlow⟩ := hrest e f g h r rfl
    rw [stringRest]
    simp [hn, hhigh, hm, hlow]
  · rw [stringRest]
    · simp [hn, hhigh]
    · exact fun e f g h r heq => hcode ⟨e, f, g, h, r, heq⟩

@[simp]
theorem extend_some {c : Char} {text : Option (List Char)} {rest : Source} :
    extend (some c) (some (text, rest)) = some (text.map (c :: ·), rest) := by
  cases text <;> rfl

@[simp]
theorem extend_none {text : Option (List Char)} {rest : Source} :
    extend none (some (text, rest)) = some (none, rest) := by
  cases text <;> rfl

end Token

theorem LettersWritten.of_code {n : Nat} {ls : List Letter} {cs : List Char}
    (h : LettersWritten (.code n :: ls) cs) :
    ∃ ds es, FourHex ds n ∧ LettersWritten ls es ∧ cs = '\\' :: 'u' :: ds ++ es := by
  cases h with
  | cons hl hls =>
    cases hl with
    | code h => exact ⟨_, _, h, hls, rfl⟩

/-- No code stands at the front of letters that begin otherwise. -/
theorem LettersWritten.no_code {ls : List Letter} {cs : List Char} (h : LettersWritten ls cs)
    (hls : ∀ n rest, ls ≠ .code n :: rest) (tail : List Char) (r : Source) :
    (cs ++ '"' :: tail).map some ≠ some '\\' :: some 'u' :: r := by
  cases h with
  | nil => simp
  | cons hl hls' =>
    cases hl with
    | plain hquote hbackslash => simp [hbackslash]
    | short h => simp [(escaped_of_mem h).1]
    | code h => exact absurd rfl (hls _ _)

/-- A string is read up to its closing quote. -/
theorem LettersWritten.read {ls : List Letter} {cs : List Char} (h : LettersWritten ls cs)
    (tail : List Char) :
    Token.stringRest ((cs ++ '"' :: tail).map some) = some (Letter.text? ls, tail.map some) := by
  match ls, h with
  | [], .nil => simp [Token.stringRest, Letter.text?]
  | l :: ls, .cons hl hls =>
    have hrest := hls.read tail
    cases hl with
    | plain hquote hbackslash hcontrol =>
      simp only [List.cons_append, List.nil_append, List.map_cons]
      rw [Token.stringRest_plain hquote hbackslash hcontrol, hrest, Token.extend_some, Letter.text?]
    | short h =>
      simp only [List.cons_append, List.nil_append, List.map_cons]
      rw [Token.stringRest_short h, hrest, Token.extend_some, Letter.text?]
    | @code _ n h =>
      obtain ⟨a, b, c, d, rfl, hn⟩ := h.read
      simp only [List.cons_append, List.nil_append, List.map_cons]
      by_cases hhigh : Token.isHighSurrogate n = true
      -- a high half looks at the next letter: only a code can complete it
      · match ls with
        | [] =>
          cases hls
          rw [Token.stringRest_unpaired hn hhigh (by simp), hrest]
          simp [Letter.text?, hhigh]
        | .char x :: ls =>
          have hcode := hls.no_code (by simp) tail
          rw [Token.stringRest_unpaired hn hhigh fun e f g h r heq => absurd heq (hcode _), hrest]
          simp [Letter.text?, hhigh]
        | .code m :: ls =>
          obtain ⟨_, es, hcode, hlater, rfl⟩ := hls.of_code
          obtain ⟨e, f, g, h, rfl, hm⟩ := hcode.read
          simp only [List.cons_append, List.nil_append, List.map_cons] at hrest ⊢
          by_cases hlow : Token.isLowSurrogate m = true
          · rw [Token.stringRest_pair hn hm hhigh hlow, hlater.read tail]
            simp [Letter.text?, hhigh, hlow]
          · rw [Token.stringRest_unpaired hn hhigh, hrest]
            · simp [Letter.text?, hhigh, hlow]
            · rintro _ _ _ _ _ ⟨⟩
              exact ⟨m, hm, by simpa using hlow⟩
      · have hhigh : Token.isHighSurrogate n = false := by simpa using hhigh
        rw [Token.stringRest_code hn hhigh, hrest, Letter.text?_code hhigh]
        by_cases hlow : Token.isLowSurrogate n = true
        · simp [hlow]
        · simp [hlow]
termination_by ls.length

/-! ## Reading words -/

theorem Token.next_digit {d : Nat} (h : d < 10) (rest : Source) :
    Token.next d.digitChar rest
      = (Token.unsigned false (some d.digitChar :: rest)).map fun (n, r) => (.number n, r) := by
  interval_cases d <;> rfl

theorem isBlank_digitChar {d : Nat} (h : d < 10) : Token.isBlank d.digitChar = false := by
  interval_cases d <;> decide

/-- The word at the front of a text is read up to its end. -/
theorem Word.Written.next {w : Word} {cs tail : List Char} (h : w.Written cs)
    (htail : w.isNumber = true → EndsNumber tail) :
    ∃ c rest, cs = c :: rest ∧ Token.isBlank c = false ∧
      Token.next c ((rest ++ tail).map some) = some (w.token, tail.map some) := by
  cases h with
  | number h =>
    obtain ⟨hwhole, hzero, hfraction, hexponent⟩ := h
    rename_i negative whole fraction exponent fs es
    have hread := unsigned_written negative hwhole hzero hfraction hexponent
      (htail rfl)
    cases negative with
    | true =>
      refine ⟨'-', decimalChars whole ++ fs ++ es, rfl, rfl, ?_⟩
      simp only [List.append_assoc, Token.next, hread]
      rfl
    | false =>
      cases whole with
      | nil => exact absurd rfl hwhole.nonempty
      | cons d ds =>
        have hd : d < 10 := hwhole.digit d (List.mem_cons_self ..)
        refine ⟨d.digitChar, decimalChars ds ++ fs ++ es, rfl, isBlank_digitChar hd, ?_⟩
        simp only [decimalChars_cons, List.cons_append, List.map_cons] at hread
        simp only [List.append_assoc, Token.next_digit hd, hread]
        rfl
  | @string ls cs h =>
    refine ⟨'"', cs ++ ['"'], rfl, rfl, ?_⟩
    have hread := h.read tail
    simp only [List.append_assoc, List.cons_append, List.nil_append, Token.next, hread]
    rfl
  | _ => exact ⟨_, _, rfl, rfl, rfl⟩

theorem Word.Written.closing {w : Word} {cs tail : List Char} (h : w.Written cs)
    (hw : w.closes = true) : EndsNumber (cs ++ tail) := by
  cases h with
  | endObject | endArray | colon | comma =>
    intro c hc
    obtain rfl : _ = c := Option.some.inj hc
    decide
  | _ => cases hw

theorem EndsNumber.of_blank {c : Char} {cs : List Char} (h : Token.isBlank c = true) :
    EndsNumber (c :: cs) := by
  rintro _ ⟨⟩
  simp only [Token.isBlank, Bool.or_eq_true, beq_iff_eq] at h
  rcases h with ((rfl | rfl) | rfl) | rfl <;> decide

/-- What follows a number ends it. -/
theorem WordsWritten.endsNumber {w : Word} {ws : List Word} {cs : List Char}
    (h : WordsWritten ws cs) (hsep : Separated (w :: ws)) (hw : w.isNumber = true) :
    EndsNumber cs := by
  cases h with
  | nil hblank =>
    cases cs with
    | nil => simp [EndsNumber]
    | cons c blanks => exact .of_blank (hblank c (List.mem_cons_self ..))
  | @cons w' rest blanks cs tail hblank hw' hrest =>
    cases blanks with
    | nil => exact hw'.closing (hsep.1 hw)
    | cons c blanks => exact .of_blank (hblank c (List.mem_cons_self ..))

/-- Blanks are passed over, and the steps that are left suffice for what follows them. -/
theorem scanUpTo_blank {blanks : List Char} (h : Blank blanks) {cs : List Char} {fuel : Nat}
    (hfuel : (blanks ++ cs).length ≤ fuel) :
    ∃ fuel', cs.length ≤ fuel' ∧
      Token.scanUpTo fuel ((blanks ++ cs).map some) = Token.scanUpTo fuel' (cs.map some) := by
  induction blanks generalizing fuel with
  | nil => exact ⟨fuel, hfuel, rfl⟩
  | cons c blanks ih =>
    obtain ⟨hc, hblanks⟩ := List.forall_mem_cons.1 h
    cases fuel with
    | zero => simp at hfuel
    | succ fuel =>
      obtain ⟨fuel', hle, heq⟩ := @ih hblanks fuel (by simpa using hfuel)
      exact ⟨fuel', hle, by simp [Token.scanUpTo, hc] at heq ⊢; exact heq⟩

theorem scanUpTo_written {ws : List Word} {cs : List Char} (h : WordsWritten ws cs)
    (hsep : Separated ws) {fuel : Nat} (hfuel : cs.length ≤ fuel) :
    Token.scanUpTo fuel (cs.map some) = ws.map Word.token := by
  induction h generalizing fuel with
  | @nil blanks h =>
    obtain ⟨fuel', -, heq⟩ := @scanUpTo_blank _ h [] fuel (by simpa using hfuel)
    rw [List.append_nil] at heq
    rw [heq]
    cases fuel' <;> rfl
  | @cons w rest blanks cs tail h hw hrest ih =>
    obtain ⟨fuel', hle, heq⟩ := scanUpTo_blank h hfuel
    obtain ⟨c, cs, rfl, hblank, hnext⟩ := hw.next fun hnumber => hrest.endsNumber hsep hnumber
    rw [heq]
    cases fuel' with
    | zero => simp at hle
    | succ fuel' =>
      have hfuel : tail.length ≤ fuel' := by simp at hle; omega
      simp only [List.cons_append, List.map_cons, Token.scanUpTo, hblank, hnext]
      simp [ih hsep.tail hfuel]

/-- A text made of words is read as their tokens. -/
theorem scan_written {ws : List Word} {cs : List Char} (h : WordsWritten ws cs)
    (hsep : Separated ws) : Token.scan (cs.map some) = ws.map Word.token :=
  scanUpTo_written h hsep (by simp)

end Json
end AccessRegistry
