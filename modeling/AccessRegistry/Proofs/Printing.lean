import AccessRegistry.Json.Printer
import AccessRegistry.Proofs.Spelling

/-!
# AccessRegistry.Proofs.Printing

The compact text of a value is a text of the grammar, and is read as the value it was made from.

* `Value.isPlain` — values without doubles, whose integers have 64 bits.
* `Value.read_text` — reading the text of such a value gives the value back.
-/

namespace AccessRegistry
namespace Json

/-! ## Strings -/

theorem fourHex_hex4 {n : Nat} (h : n < 0x20) : FourHex (hex4 n) n := by
  have hdigit (v : Nat) (hv : v < 16) : IsHex v.digitChar v := ⟨hv, .inl rfl⟩
  have hcs : hex4 n
      = [Nat.digitChar 0, Nat.digitChar 0, (n / 16).digitChar, (n % 16).digitChar] := by
    interval_cases n <;> rfl
  have hn : ((0 * 16 + 0) * 16 + n / 16) * 16 + n % 16 = n := by omega
  have h := FourHex.mk (hdigit 0 (by omega)) (hdigit 0 (by omega)) (hdigit (n / 16) (by omega))
    (hdigit (n % 16) (by omega))
  rwa [hn, ← hcs] at h

/-- Each character is written as one letter that stands for it. -/
theorem escape_written (c : Char) :
    ∃ l : Letter, l.Written (escape c) ∧
      ∀ ls, Letter.text? (l :: ls) = (Letter.text? ls).map (c :: ·) := by
  have hofNat : Char.ofNat c.toNat = c := Char.ofNat_toNat c
  unfold escape
  split
  · exact ⟨.char '"', .short (by simp [shortEscapes]), fun _ => rfl⟩
  · exact ⟨.char '\\', .short (by simp [shortEscapes]), fun _ => rfl⟩
  · exact ⟨.char '\n', .short (by simp [shortEscapes]), fun _ => rfl⟩
  · exact ⟨.char '\r', .short (by simp [shortEscapes]), fun _ => rfl⟩
  · exact ⟨.char '\t', .short (by simp [shortEscapes]), fun _ => rfl⟩
  · rename_i hquote hbackslash _ _ _
    split
    · rename_i h
      rw [← hofNat, h]
      exact ⟨.char (Char.ofNat 8), .short (by simp [shortEscapes]), fun _ => rfl⟩
    split
    · rename_i h
      rw [← hofNat, h]
      exact ⟨.char (Char.ofNat 12), .short (by simp [shortEscapes]), fun _ => rfl⟩
    split
    · rename_i h
      refine ⟨.code c.toNat, .code (fourHex_hex4 h), fun ls => ?_⟩
      have hhigh : Token.isHighSurrogate c.toNat = false := by
        simp [Token.isHighSurrogate]; omega
      have hlow : Token.isLowSurrogate c.toNat = false := by
        simp [Token.isLowSurrogate]; omega
      simp [Letter.text?_code hhigh, hlow]
    · rename_i h
      exact ⟨.char c, .plain hquote hbackslash (by omega), fun _ => rfl⟩

theorem flatMap_escape_written (s : List Char) :
    ∃ ls, LettersWritten ls (s.flatMap escape) ∧ Letter.text? ls = some s := by
  induction s with
  | nil => exact ⟨[], .nil, rfl⟩
  | cons c s ih =>
    obtain ⟨ls, hls, htext⟩ := ih
    obtain ⟨l, hl, hcons⟩ := escape_written c
    exact ⟨l :: ls, .cons hl hls, by rw [hcons, htext]; rfl⟩

theorem stringText_written (s : String) : Word.Written (.string (some s)) (stringText s) := by
  obtain ⟨ls, hls, htext⟩ := flatMap_escape_written s.toList
  have h := Word.Written.string hls
  rw [htext, Option.map_some, String.ofList_toList] at h
  exact h

/-! ## Integers -/

/-- The decimal digits of a number, without zeros in front of it. -/
theorem exists_digits (n : Nat) :
    ∃ ds, IsDecimal ds ∧ decimalChars ds = Nat.toDigits 10 n ∧ Number.ofDigits ds = n ∧
      (ds.head? = some 0 → ds = [0]) := by
  induction n using Nat.strongRecOn with
  | ind n ih =>
    by_cases hn : n < 10
    · refine ⟨[n], ⟨by simp, by simpa using hn⟩, ?_, by simp [Number.ofDigits], ?_⟩
      · rw [Nat.toDigits_of_lt_base hn]; rfl
      · rintro ⟨⟩; rfl
    · obtain ⟨ds, hds, hchars, hvalue, hzero⟩ := ih (n / 10) (by omega)
      refine ⟨ds ++ [n % 10], ⟨by simp, ?_⟩, ?_, ?_, ?_⟩
      · intro d hd
        rcases List.mem_append.1 hd with hd | hd
        · exact hds.digit d hd
        · rw [List.mem_singleton.1 hd]; omega
      · rw [Nat.toDigits_of_base_le (by omega) (by omega), ← hchars]
        simp [decimalChars]
      · have hfoldl : Number.ofDigits (ds ++ [n % 10]) = Number.ofDigits ds * 10 + n % 10 := by
          simp [Number.ofDigits]
        omega
      · intro hhead
        cases ds with
        | nil => exact absurd rfl hds.nonempty
        | cons d ds =>
          -- then all of `n / 10` is that zero, so `n` has one digit
          have hd := hzero hhead
          rw [hd] at hvalue
          simp [Number.ofDigits] at hvalue
          omega

/-- The integers that are read as integers. -/
def Number.isPlain : Number → Bool
  | .int n => decide (-0x8000000000000000 ≤ n) && decide (n < 0x10000000000000000)
  | .float _ => false

theorem Number.text_written {n : Number} (h : n.isPlain = true) :
    ∃ l : Number.Literal, l.Written n.text.toList ∧ l.value = some n := by
  cases n with
  | float x => cases h
  | int n =>
    simp only [isPlain, Bool.and_eq_true, decide_eq_true_eq] at h
    cases n with
    | ofNat m =>
      obtain ⟨ds, hds, hchars, hvalue, hzero⟩ := exists_digits m
      refine ⟨⟨false, ds, none, none⟩, ?_, ?_⟩
      · have hwritten := @Literal.Written.mk false _ _ _ _ _ hds hzero .absent .absent
        simpa [text, Int.toString_eq_repr, Int.repr, Nat.repr_eq_ofList_toDigits, hchars]
          using hwritten
      · have hm : m < UInt64.size := by simp [UInt64.size] at h ⊢; omega
        simp [Literal.value, hvalue, hm]
    | negSucc m =>
      obtain ⟨ds, hds, hchars, hvalue, hzero⟩ := exists_digits (m + 1)
      refine ⟨⟨true, ds, none, none⟩, ?_, ?_⟩
      · have hwritten := @Literal.Written.mk true _ _ _ _ _ hds hzero .absent .absent
        simpa [text, Int.toString_eq_repr, Int.repr, Nat.repr_eq_ofList_toDigits, hchars]
          using hwritten
      · have hm : m + 1 ≤ 0x8000000000000000 := by omega
        simp [Literal.value, hvalue, hm, Int.negSucc_eq]

/-! ## Values -/

namespace Value

mutual

/-- Whether the value holds no doubles and no integers beyond 64 bits. -/
def isPlain : Value → Bool
  | .number n => n.isPlain
  | .array items => arePlain items
  | .object members => arePlainMembers members
  | _ => true

def arePlain : List Value → Bool
  | [] => true
  | v :: rest => isPlain v && arePlain rest

def arePlainMembers : List (String × Value) → Bool
  | [] => true
  | (_, v) :: rest => isPlain v && arePlainMembers rest

end

mutual

/-- The value as it comes out of a text. -/
def document : Value → Document
  | .null => .null
  | .bool b => .bool b
  | .number n => .number (some n)
  | .string s => .string (some s)
  | .array items => .array (itemDocuments items) true
  | .object members => .object (memberDocuments members) true

def itemDocuments : List Value → List Document
  | [] => []
  | v :: rest => document v :: itemDocuments rest

def memberDocuments : List (String × Value) → List (Option String × Document)
  | [] => []
  | (name, v) :: rest => (some name, document v) :: memberDocuments rest

end

mutual

/-- The text is that of some tree, before any words that follow. -/
theorem chars_written (v : Value) (h : v.isPlain = true) :
    ∃ t : Tree, t.document = v.document ∧ ∀ {ws : List Word} {tail : List Char},
      WordsWritten ws tail → WordsWritten (t.words ws) (v.chars tail) := by
  match v with
  | .null => exact ⟨.null, rfl, fun hws => .word .null hws⟩
  | .bool true => exact ⟨.bool true, rfl, fun hws => .word .boolTrue hws⟩
  | .bool false => exact ⟨.bool false, rfl, fun hws => .word .boolFalse hws⟩
  | .number n =>
    obtain ⟨l, hl, hvalue⟩ := Number.text_written h
    exact ⟨.number l, by rw [Tree.document, hvalue, document], fun hws => .word (.number hl) hws⟩
  | .string s => exact ⟨.string (some s), rfl, fun hws => .word (stringText_written s) hws⟩
  | .array [] => exact ⟨.array [], rfl, fun hws => .word .beginArray (.word .endArray hws)⟩
  | .array (v :: rest) =>
    simp only [isPlain, arePlain, Bool.and_eq_true] at h
    obtain ⟨t, ht, hfirst⟩ := chars_written v h.1
    obtain ⟨ts, hts, hrest⟩ := itemChars_written rest h.2
    refine ⟨.array (t :: ts), ?_, fun hws => ?_⟩
    · simp [Tree.document, Tree.itemDocuments, document, itemDocuments, ht, hts]
    · exact .word .beginArray (hfirst (hrest (.word .endArray hws)))
  | .object [] => exact ⟨.object [], rfl, fun hws => .word .beginObject (.word .endObject hws)⟩
  | .object ((name, v) :: rest) =>
    simp only [isPlain, arePlainMembers, Bool.and_eq_true] at h
    obtain ⟨t, ht, hfirst⟩ := chars_written v h.1
    obtain ⟨ts, hts, hrest⟩ := memberChars_written rest h.2
    refine ⟨.object ((some name, t) :: ts), ?_, fun hws => ?_⟩
    · simp [Tree.document, Tree.memberDocuments, document, memberDocuments, ht, hts]
    · exact @WordsWritten.word _ _ ['\x7b'] _ .beginObject (.word (stringText_written name)
        (.word .colon (hfirst (hrest (.word .endObject hws)))))

theorem itemChars_written (vs : List Value) (h : arePlain vs = true) :
    ∃ ts : List Tree, Tree.itemDocuments ts = itemDocuments vs ∧
      ∀ {ws : List Word} {tail : List Char},
        WordsWritten ws tail → WordsWritten (Tree.itemWords ts ws) (itemChars vs tail) := by
  match vs with
  | [] => exact ⟨[], rfl, fun hws => hws⟩
  | v :: rest =>
    simp only [arePlain, Bool.and_eq_true] at h
    obtain ⟨t, ht, hfirst⟩ := chars_written v h.1
    obtain ⟨ts, hts, hrest⟩ := itemChars_written rest h.2
    refine ⟨t :: ts, by simp [Tree.itemDocuments, itemDocuments, ht, hts], fun hws => ?_⟩
    exact .word .comma (hfirst (hrest hws))

theorem memberChars_written (ms : List (String × Value)) (h : arePlainMembers ms = true) :
    ∃ ts : List (Option String × Tree), Tree.memberDocuments ts = memberDocuments ms ∧
      ∀ {ws : List Word} {tail : List Char},
        WordsWritten ws tail → WordsWritten (Tree.memberWords ts ws) (memberChars ms tail) := by
  match ms with
  | [] => exact ⟨[], rfl, fun hws => hws⟩
  | (name, v) :: rest =>
    simp only [arePlainMembers, Bool.and_eq_true] at h
    obtain ⟨t, ht, hfirst⟩ := chars_written v h.1
    obtain ⟨ts, hts, hrest⟩ := memberChars_written rest h.2
    refine ⟨(some name, t) :: ts, by simp [Tree.memberDocuments, memberDocuments, ht, hts],
      fun hws => ?_⟩
    exact @WordsWritten.word _ _ [','] _ .comma (.word (stringText_written name)
      (.word .colon (hfirst (hrest hws))))

end

/-- Reading the text of a value gives the value, and nothing is left over. -/
theorem read_text (v : Value) (h : v.isPlain = true) :
    Document.read (Source.ofString v.text) = (v.document, []) := by
  obtain ⟨t, ht, hwritten⟩ := chars_written v h
  have hblank : Blank [] := by simp [Blank]
  have hspelled : t.Spelled (v.chars []) := hwritten (.nil hblank)
  rw [Source.ofString, text, String.toList_ofList, hspelled.read, ht]

end Value

end Json
end AccessRegistry
