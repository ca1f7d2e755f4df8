import AccessRegistry.Text.Numeral

/-!
# AccessRegistry.Yaml.Scalar

The texts inside a YAML document: plain, in quotes, or as a block of lines.

* `plain`  — ends before `: `, ` #`, an outdented line and, between brackets, their punctuation.
* `quoted` — between two single or two double quotes; only the latter have escapes.
* `block`  — the indented lines after `|`, or after `>`, where lines are joined.

A line break inside a plain or quoted text is a space, and each further one stays a line break. All
lines end with a single character, as `lineEnds` leaves them.
-/

namespace AccessRegistry
namespace Yaml

/-! ## Characters -/

def isBlank (c : Char) : Bool := c == ' ' || c == '\t'

def isBreak (c : Char) : Bool := c == '\n' || c.toNat == 0x2028 || c.toNat == 0x2029

/-- Whether a word ends before the rest of a text. -/
def atBoundary : List Char → Bool
  | [] => true
  | c :: _ => isBlank c || isBreak c

/-- Whether a character may stand in a document at all. -/
def isPrintable (c : Char) : Bool :=
  let n := c.toNat
  n == 9 || n == 10 || n == 13 || (decide (0x20 ≤ n) && decide (n ≤ 0x7E)) || n == 0x85 ||
    (decide (0xA0 ≤ n) && n != 0xFFFE && n != 0xFFFF)

/-- Writes the ends of lines in one way: a line feed. -/
def lineEnds : List Char → List Char
  | '\r' :: '\n' :: rest => '\n' :: lineEnds rest
  | c :: rest => (if c == '\r' || c.toNat == 0x85 then '\n' else c) :: lineEnds rest
  | [] => []

/-- Whether a line begins with `---` or `...` as a word. -/
def isMarker : List Char → Bool
  | '-' :: '-' :: '-' :: rest => atBoundary rest
  | '.' :: '.' :: '.' :: rest => atBoundary rest
  | _ => false

/-- The punctuation between brackets. -/
def flowMarks : List Char := ",[]\x7b\x7d".toList

/-! ## Places -/

/-- A place in a text: what follows, and how many lines and characters of the line came before. -/
structure Place where
  rest : List Char
  line : Nat
  column : Nat
deriving Repr

/-- The octets from one place to a later one on the same line. -/
def Place.octetsTo (p q : Place) : Nat :=
  (p.rest.take (q.column - p.column)).foldl (fun n c => n + c.utf8Size) 0

/-- How a text is written. -/
inductive Style where
  | plain
  | quoted
  /-- as a block whose lines stay lines -/
  | literal
  /-- as a block whose lines are joined -/
  | folded
deriving DecidableEq, Repr

/-- A text that was read, the place after it, and whether the reading went on to a new line. -/
structure Piece where
  text : String
  place : Place
  broken : Bool
deriving Repr

/-- White space inside a text, as long as it is open whether the text goes on. -/
structure Gap where
  blanks : List Char := []
  /-- the first line break; nothing is left of an escaped one -/
  first : Option (List Char) := none
  /-- the line breaks after it -/
  more : List Char := []

namespace Gap

def isEmpty (g : Gap) : Bool := g.blanks.isEmpty && g.first.isNone

def broken (g : Gap) : Bool := g.first.isSome

def addBlank (g : Gap) (c : Char) : Gap :=
  if g.broken then g else { g with blanks := g.blanks ++ [c] }

def addBreak (g : Gap) (c : Char) : Gap :=
  if g.broken then { g with more := g.more ++ [c] } else { blanks := [], first := some [c] }

/-- What the white space stands for when the text goes on after it. -/
def folded (g : Gap) : List Char :=
  match g.first with
  | none => g.blanks
  | some ['\n'] => if g.more.isEmpty then [' '] else g.more
  | some cs => cs ++ g.more

end Gap

/-! ## Plain and quoted texts -/

/-- Whether a plain text ends before `c`, which is neither blank nor a line break. -/
def endsPlain (inFlow : Bool) (margin : Nat) (gap : Gap) (column : Nat) (c : Char)
    (rest : List Char) : Bool :=
  (!gap.isEmpty && c == '#') ||
    (gap.broken && ((!inFlow && decide (column < margin)) ||
      (column == 0 && isMarker (c :: rest)))) ||
    (c == ':' && atBoundary rest) || (inFlow && flowMarks.contains c)

/-- A plain text, of which `read` is known backwards. Further lines stand at `margin` or deeper. -/
def plainFrom (inFlow : Bool) (margin : Nat) (read : List Char) (gap : Gap) (line column : Nat) :
    List Char → Option Piece
  | [] => some ⟨String.ofList read.reverse, ⟨[], line, column⟩, gap.broken⟩
  | c :: rest =>
    if isBreak c then plainFrom inFlow margin read (gap.addBreak c) (line + 1) 0 rest
    else if isBlank c then
      if gap.broken && c == '\t' && decide (column < margin) then none
      else plainFrom inFlow margin read (gap.addBlank c) line (column + 1) rest
    else if endsPlain inFlow margin gap column c rest then
      some ⟨String.ofList read.reverse, ⟨c :: rest, line, column⟩, gap.broken⟩
    else if inFlow && c == ':' && rest.head?.any ('?' :: flowMarks).contains then none
    else plainFrom inFlow margin (c :: (gap.folded.reverse ++ read)) {} line (column + 1) rest

def plain (inFlow : Bool) (margin : Nat) (p : Place) : Option Piece :=
  plainFrom inFlow margin [] {} p.line p.column p.rest

/-- How far an escape has been read. -/
inductive Escape where
  | none
  /-- the letter that follows tells what it is -/
  | letter
  /-- `left` more hexadecimal digits follow after those of `value` -/
  | code (left value : Nat)

/-- What the letter of an escape says: a character, or the digits of one to come. -/
def escape? (c : Char) : Option (Char ⊕ Nat) :=
  match c with
  | '0' => some (.inl (Char.ofNat 0))
  | 'a' => some (.inl (Char.ofNat 7))
  | 'b' => some (.inl (Char.ofNat 8))
  | 't' => some (.inl '\t')
  | '\t' => some (.inl '\t')
  | 'n' => some (.inl '\n')
  | 'v' => some (.inl (Char.ofNat 11))
  | 'f' => some (.inl (Char.ofNat 12))
  | 'r' => some (.inl '\r')
  | 'e' => some (.inl (Char.ofNat 27))
  | ' ' => some (.inl ' ')
  | '"' => some (.inl '"')
  | '/' => some (.inl '/')
  | '\\' => some (.inl '\\')
  | 'N' => some (.inl (Char.ofNat 0x85))
  | '_' => some (.inl (Char.ofNat 0xA0))
  | 'L' => some (.inl (Char.ofNat 0x2028))
  | 'P' => some (.inl (Char.ofNat 0x2029))
  | 'x' => some (.inr 2)
  | 'u' => some (.inr 4)
  | 'U' => some (.inr 8)
  | _ => none

def singleQuote : Char := Char.ofNat 0x27

/-- A text after its opening quote, of which `read` is known backwards. -/
def quotedFrom (quote : Char) (read : List Char) (gap : Gap) (escape : Escape)
    (line column : Nat) : List Char → Option Piece
  | [] => none
  | c :: rest =>
    match escape with
    | .letter =>
      if isBreak c then quotedFrom quote read { first := some [] } .none (line + 1) 0 rest
      else
        match escape? c with
        | none => none
        | some (.inl x) => quotedFrom quote (x :: read) {} .none line (column + 1) rest
        | some (.inr n) => quotedFrom quote read {} (.code n 0) line (column + 1) rest
    | .code left value =>
      match Text.digitValue? 16 c with
      | none => none
      | some d =>
        let value := value * 16 + d
        if 1 < left then quotedFrom quote read {} (.code (left - 1) value) line (column + 1) rest
        else if value.isValidChar then
          quotedFrom quote (Char.ofNat value :: read) {} .none line (column + 1) rest
        else none
    | .none =>
      if gap.broken && column == 0 && isMarker (c :: rest) then none
      else if isBreak c then quotedFrom quote read (gap.addBreak c) .none (line + 1) 0 rest
      else if isBlank c then quotedFrom quote read (gap.addBlank c) .none line (column + 1) rest
      else
        let read := gap.folded.reverse ++ read
        if c == quote then
          match rest with
          | d :: rest' =>
            if quote == singleQuote && d == quote then
              quotedFrom quote (c :: read) {} .none line (column + 2) rest'
            else some ⟨String.ofList read.reverse, ⟨d :: rest', line, column + 1⟩, false⟩
          | [] => some ⟨String.ofList read.reverse, ⟨[], line, column + 1⟩, false⟩
        else if c == '\\' && quote == '"' then
          quotedFrom quote read {} .letter line (column + 1) rest
        else quotedFrom quote (c :: read) {} .none line (column + 1) rest

/-- The quoted text after an opening quote at a place. -/
def quoted (quote : Char) (rest : List Char) (p : Place) : Option Piece :=
  quotedFrom quote [] {} .none p.line (p.column + 1) rest

/-! ## Blocks of lines -/

/-- What becomes of the line breaks at the end of a block: the last line keeps its own, all are
dropped, or all are kept. -/
inductive Chomping where
  | clip
  | strip
  | keep
deriving DecidableEq, Repr

structure BlockStyle where
  /-- whether each line stays a line -/
  literal : Bool
  chomping : Chomping
  /-- how much deeper than its surroundings the block stands, if that is told -/
  increment : Option Nat
deriving Repr

namespace BlockStyle

def chompingMark : List Char → Chomping × List Char
  | '+' :: rest => (.keep, rest)
  | '-' :: rest => (.strip, rest)
  | cs => (.clip, cs)

def incrementMark : List Char → Option Nat × List Char
  | c :: rest =>
    match Text.digitValue? 10 c with
    | some (d + 1) => (some (d + 1), rest)
    | _ => (none, c :: rest)
  | [] => (none, [])

/-- Reads the marks after `|` or `>`, in either order. -/
def ofMarks (literal : Bool) (cs : List Char) : BlockStyle × List Char :=
  match chompingMark cs with
  | (.clip, _) =>
    let (increment, cs) := incrementMark cs
    let (chomping, cs) := chompingMark cs
    (⟨literal, chomping, increment⟩, cs)
  | (chomping, cs) =>
    let (increment, cs) := incrementMark cs
    (⟨literal, chomping, increment⟩, cs)

end BlockStyle

/-- A block as far as it was read. -/
structure BlockSoFar where
  /-- the text, backwards -/
  read : List Char := []
  /-- the line break after the last line -/
  ending : List Char := []
  /-- the empty lines since then -/
  empties : List Char := []
  /-- whether the last line began with a blank, which keeps it apart from its neighbours -/
  blankLine : Bool := false

namespace BlockSoFar

/-- Begins a line with `c`. -/
def beginLine (b : BlockSoFar) (literal : Bool) (c : Char) : BlockSoFar :=
  let joint :=
    if !literal && b.ending == ['\n'] && !b.blankLine && !isBlank c then
      if b.empties.isEmpty then [' '] else []
    else b.ending
  { read := c :: ((joint ++ b.empties).reverse ++ b.read), blankLine := isBlank c }

def text (b : BlockSoFar) (chomping : Chomping) : String :=
  String.ofList (b.read.reverse ++ (if chomping = .strip then [] else b.ending) ++
    (if chomping = .keep then b.empties else []))

end BlockSoFar

/-- The lines of a block. Its width is that of the first line that is not empty, unless `width` is
known; `widest` is the widest line of blanks so far. -/
def blockFrom (style : BlockStyle) (margin : Nat) (width : Option Nat) (widest : Nat)
    (inLine : Bool) (b : BlockSoFar) (line column : Nat) : List Char → Option Piece
  | [] => some ⟨b.text style.chomping, ⟨[], line, column⟩, true⟩
  | c :: rest =>
    if inLine then
      if isBreak c then
        blockFrom style margin width widest false { b with ending := [c] } (line + 1) 0 rest
      else
        blockFrom style margin width widest true { b with read := c :: b.read } line (column + 1)
          rest
    else
      let outside := width.all fun w => column < w
      if outside && c == ' ' then
        blockFrom style margin width (max widest (column + 1)) false b line (column + 1) rest
      else if outside && c == '\t' then none
      else if isBreak c then
        blockFrom style margin width widest false { b with empties := b.empties ++ [c] }
          (line + 1) 0 rest
      else
        let width := width.getD (max widest (max margin 1))
        if column = width then
          blockFrom style margin (some width) widest true (b.beginLine style.literal c) line
            (column + 1) rest
        else some ⟨b.text style.chomping, ⟨c :: rest, line, column⟩, true⟩

/-- The block of lines that begins after the `|` or `>` at a place. The rest of that line holds
marks and perhaps a comment. -/
def block (literal : Bool) (margin : Nat) (rest : List Char) (p : Place) : Option Piece :=
  let (style, rest) := BlockStyle.ofMarks literal rest
  let rest := rest.dropWhile isBlank
  let rest := if rest.head? = some '#' then rest.dropWhile (!isBreak ·) else rest
  let width := style.increment.map fun n => margin - 1 + n
  match rest with
  | [] => some ⟨"", ⟨[], p.line, p.column⟩, true⟩
  | c :: rest =>
    if isBreak c then blockFrom style margin width 0 false {} (p.line + 1) 0 rest else none

end Yaml
end AccessRegistry
