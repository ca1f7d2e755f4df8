import AccessRegistry.Yaml.Tag

/-!
# AccessRegistry.Yaml.Token

The tokens of a YAML document. Indentation becomes tokens too: a sequence or mapping that is written
without brackets opens where its first line stands and closes before the first line that stands
further out.

* `Layout`     — where the reading is: the place, the columns of what is open, the open brackets,
  and the tokens so far.
* `Token.scan` — the tokens of a text, or nothing if it cannot be cut into tokens.

That a text or a collection in brackets is a key shows at the colon after it. The place where it
begins is therefore kept as a `Candidate`, and the token that marks a key is put in there when the
colon comes.
-/

namespace AccessRegistry
namespace Yaml

inductive Token where
  /-- a line that tells the version or declares a handle -/
  | directive
  /-- the line `---` -/
  | documentStart
  /-- the line `...` -/
  | documentEnd
  | beginBlockSequence
  | beginBlockMapping
  | endBlock
  | beginSequence
  | endSequence
  | beginMapping
  | endMapping
  | comma
  /-- the dash before an item -/
  | item
  /-- stands before a key -/
  | key
  /-- the colon before a value -/
  | value
  /-- the node that follows has this number -/
  | anchor (number : Nat)
  /-- the node of that number again -/
  | aliasOf (number : Nat)
  /-- the node that follows is of this kind -/
  | tag (t : Tag)
  | scalar (style : Style) (text : String)
deriving DecidableEq, Repr

/-- A place where a key may have begun. -/
structure Candidate where
  place : Place
  /-- the number of tokens before it -/
  before : Nat
  /-- whether nothing but a key may stand there -/
  required : Bool

/-- The longest key without a mark of its own, in octets. -/
def longestKey : Nat := 1024

/-- Whether the colon after a key that began there would come too late: on another line, or too far
from it. -/
def Candidate.isOver (c : Candidate) (p : Place) : Bool :=
  decide (c.place.line < p.line) || decide (longestKey < c.place.octetsTo p)

structure Layout where
  place : Place
  /-- the columns of the open sequences and mappings without brackets, the innermost first -/
  columns : List Nat := []
  /-- what may be a key if a colon comes next -/
  candidate : Option Candidate := none
  /-- the same for each open bracket, if the colon comes after its counterpart -/
  outer : List (Option Candidate) := []
  /-- whether a key, or a sequence or mapping without brackets, may begin here -/
  fresh : Bool := true
  names : Names := {}
  /-- the tokens so far, the last one first -/
  read : List Token := []

namespace Layout

def inFlow (l : Layout) : Bool := !l.outer.isEmpty

/-- The least column of a line that belongs to what is open. -/
def margin (l : Layout) : Nat :=
  match l.columns with
  | [] => 0
  | n :: _ => n + 1

def emit (l : Layout) (ts : List Token) : Layout := { l with read := ts.reverse ++ l.read }

/-- Puts tokens in after the first `n`. -/
def insert (l : Layout) (n : Nat) (ts : List Token) : Layout :=
  let later := l.read.length - n
  { l with read := l.read.take later ++ (ts.reverse ++ l.read.drop later) }

/-- Goes on `n` characters further. -/
def advance (l : Layout) (n : Nat) (fresh : Bool) : Layout :=
  { l with
    place := ⟨l.place.rest.drop n, l.place.line, l.place.column + n⟩
    fresh }

/-- Goes on to what is left of the line. -/
def goTo (l : Layout) (rest : List Char) : Layout :=
  l.advance (l.place.rest.length - rest.length) false

/-! ## Blanks and keys -/

/-- A mark of the order of bytes, which counts as a blank at the front of a line. -/
def isByteOrderMark (c : Char) : Bool := c.toNat == 0xFEFF

/-- Passes over blanks, comments and line breaks. -/
def skipFrom (inFlow : Bool) (inComment fresh : Bool) (line column : Nat) :
    List Char → Place × Bool
  | [] => (⟨[], line, column⟩, fresh)
  | c :: rest =>
    if isBreak c then skipFrom inFlow false (fresh || !inFlow) (line + 1) 0 rest
    else if inComment || c == ' ' || (c == '\t' && (inFlow || !fresh)) ||
        (column == 0 && isByteOrderMark c) then
      skipFrom inFlow inComment fresh line (column + 1) rest
    else if c == '#' then skipFrom inFlow true fresh line (column + 1) rest
    else (⟨c :: rest, line, column⟩, fresh)

def skip (l : Layout) : Layout :=
  let (place, fresh) := skipFrom l.inFlow false l.fresh l.place.line l.place.column l.place.rest
  { l with place, fresh }

/-- Gives up the keys whose colon would come too late, none of which may be required. -/
def expire (l : Layout) : Option Layout :=
  if (l.candidate :: l.outer).any fun c => c.any fun c => c.required && c.isOver l.place then none
  else
    let keep (c : Option Candidate) := c.filter fun c => !c.isOver l.place
    some { l with candidate := keep l.candidate, outer := l.outer.map keep }

/-- Gives up the key that may have begun, unless it is required. -/
def forget (l : Layout) : Option Layout :=
  if l.candidate.any (·.required) then none else some { l with candidate := none }

/-- Remembers that a key may begin here. Where the line of an open mapping begins, one has to. -/
def consider (l : Layout) : Option Layout :=
  if l.fresh then
    l.forget.map fun l =>
      let required := !l.inFlow && l.columns.head? == some l.place.column
      { l with candidate := some ⟨l.place, l.read.length, required⟩ }
  else some l

/-! ## Indentation -/

/-- Closes what stands deeper than the place. Between brackets indentation means nothing. -/
def close (l : Layout) : Layout :=
  if l.inFlow then l
  else
    let (deeper, columns) := l.columns.span fun n => l.place.column < n
    { l.emit (deeper.map fun _ => .endBlock) with columns }

/-- Closes everything that is open without brackets. -/
def closeAll (l : Layout) : Layout :=
  { l.emit (l.columns.map fun _ => .endBlock) with columns := [] }

/-- Opens a sequence or mapping at a column, unless one stands there already. -/
def begin (l : Layout) (t : Token) (column : Nat) : List Token × Layout :=
  if !l.inFlow && l.columns.head?.all (· < column) then
    ([t], { l with columns := column :: l.columns })
  else ([], l)

/-! ## Punctuation -/

/-- A dash or question mark that begins or goes on with a sequence or mapping. -/
def indicator (l : Layout) (collection mark : Token) (fresh : Bool) : Option Layout := do
  if !l.inFlow && !l.fresh then none
  let (opened, l) := l.begin collection l.place.column
  let l ← l.forget
  return (l.emit (opened ++ [mark])).advance 1 fresh

/-- The colon before a value. What may have begun a key has been one. -/
def colon (l : Layout) : Option Layout :=
  match l.candidate with
  | some c =>
    let (opened, l) := l.begin .beginBlockMapping c.place.column
    let l := (l.insert c.before (opened ++ [.key])).emit [.value]
    some ({ l with candidate := none }.advance 1 false)
  | none => l.indicator .beginBlockMapping .value (!l.inFlow)

def openBracket (l : Layout) (t : Token) : Option Layout := do
  let l ← l.consider
  return ({ l with candidate := none, outer := l.candidate :: l.outer }.emit [t]).advance 1 true

def closeBracket (l : Layout) (t : Token) : Option Layout := do
  let l ← l.forget
  let l :=
    match l.outer with
    | [] => l
    | candidate :: outer => { l with candidate, outer }
  return (l.emit [t]).advance 1 false

/-! ## Names and texts -/

/-- A line that begins with a percent sign. -/
def directive (l : Layout) (rest : List Char) : Option Layout := do
  let l ← l.closeAll.forget
  let (names, rest) ← l.names.directive? rest
  return ({ l with names }.emit [.directive]).goTo rest

def anchor (l : Layout) (rest : List Char) : Option Layout := do
  let l ← l.consider
  let (name, rest) ← anchorName? rest
  let (number, names) := l.names.addAnchor name
  return ({ l with names }.emit [.anchor number]).goTo rest

/-- An alias repeats the node of an anchor that was declared before. -/
def aliasOf (l : Layout) (rest : List Char) : Option Layout := do
  let l ← l.consider
  let (name, rest) ← anchorName? rest
  return (l.emit [.aliasOf (← l.names.anchors.lookup name)]).goTo rest

def tag (l : Layout) (rest : List Char) : Option Layout := do
  let l ← l.consider
  let (t, rest) ← Tag.read? l.names.allHandles rest
  if atBoundary rest || (l.inFlow && rest.head? == some ',') then
    return (l.emit [.tag t]).goTo rest
  else none

/-- A text that was read at the place. -/
def scalar (l : Layout) (style : Style) (p : Piece) : Layout :=
  { l.emit [.scalar style p.text] with place := p.place, fresh := p.broken }

/-- The characters with a meaning of their own at the front of a text. -/
def marks : List Char := flowMarks ++ "-?:#&*!|>'\"%@`".toList

/-- Whether a plain text may begin with `c`. -/
def beginsPlain (inFlow : Bool) (c : Char) (rest : List Char) : Bool :=
  (!isBlank c && !marks.contains c) ||
    (c == '-' && !rest.head?.any isBlank) ||
    (!inFlow && (c == '?' || c == ':') && !atBoundary rest)

/-- Reads on at a place where `c` stands, which is no blank. -/
def next (l : Layout) (c : Char) (rest : List Char) : Option Layout :=
  if l.place.column = 0 ∧ c = '%' then l.directive rest
  else if l.place.column = 0 ∧ isMarker (c :: rest) then
    let mark : Token := if c == '-' then .documentStart else .documentEnd
    if l.inFlow then none else l.closeAll.forget.map fun l => (l.emit [mark]).advance 3 false
  else if c == '[' then l.openBracket .beginSequence
  else if c == '\x7b' then l.openBracket .beginMapping
  else if c == ']' then l.closeBracket .endSequence
  else if c == '\x7d' then l.closeBracket .endMapping
  else if c == ',' then l.forget.map fun l => (l.emit [.comma]).advance 1 true
  else if c == '-' && atBoundary rest then
    if l.inFlow then none else l.indicator .beginBlockSequence .item true
  else if c == '?' && (l.inFlow || atBoundary rest) then
    l.indicator .beginBlockMapping .key (!l.inFlow)
  else if c == ':' && (l.inFlow || atBoundary rest) then l.colon
  else if c == '*' then l.aliasOf rest
  else if c == '&' then l.anchor rest
  else if c == '!' then l.tag rest
  else if (c == '|' || c == '>') && !l.inFlow then do
    let l ← l.forget
    let style : Style := if c == '|' then .literal else .folded
    return l.scalar style (← block (c == '|') l.margin rest l.place)
  else if c == singleQuote || c == '"' then do
    let l ← l.consider
    return l.scalar .quoted (← quoted c rest l.place)
  else if beginsPlain l.inFlow c rest then do
    let l ← l.consider
    return l.scalar .plain (← plain l.inFlow l.margin l.place)
  else none

/-- The tokens of a text that ends within `fuel` steps, each of which takes a character at least. -/
def tokensUpTo : Nat → Layout → Option (List Token)
  | 0, _ => none
  | fuel + 1, l => do
    let l ← l.skip.expire
    let l := l.close
    match l.place.rest with
    | [] => l.closeAll.forget.map fun l => l.read.reverse
    | c :: rest => tokensUpTo fuel (← l.next c rest)

end Layout

/-- The tokens of a text; a mark of the order of bytes may stand before it. -/
def Token.scan (s : String) : Option (List Token) :=
  let cs :=
    match s.toList with
    | c :: rest => if Layout.isByteOrderMark c then rest else c :: rest
    | [] => []
  if cs.all isPrintable then
    let cs := lineEnds cs
    Layout.tokensUpTo (cs.length + 1) { place := ⟨cs, 0, 0⟩ }
  else none

end Yaml
end AccessRegistry
