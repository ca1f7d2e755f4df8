import AccessRegistry.Json.Token

/-!
# AccessRegistry.Json.Document

A JSON text as far as a reader gets with it. A document is the tree of values that the tokens of a
text spell out; where the text goes wrong, the containers that were open are not `whole` and end
with what they held by then.

`Document.read` builds the tree from the tokens in one pass with a stack of the open containers.
-/

namespace AccessRegistry
namespace Json

/-- What was read of a value. `broken` stands for a value that is missing or misspelt. -/
inductive Document where
  | null
  | bool (b : Bool)
  | number (n : Option Number)
  | string (s : Option String)
  | array (items : List Document) (whole : Bool)
  | object (members : List (Option String × Document)) (whole : Bool)
  | broken
deriving Inhabited

namespace Document

/-- An open container around the value that is being read, its earlier contents in reverse. -/
inductive Frame where
  | items (done : List Document)
  | members (done : List (Option String × Document)) (key : Option String)

/-- What the reader expects next. -/
inductive Place where
  /-- a value -/
  | value
  /-- the first element of an array, or its end -/
  | firstItem
  /-- a comma or the end of an array -/
  | afterItem (done : List Document)
  /-- the first key of an object, or its end -/
  | firstKey
  /-- a key, after a comma -/
  | key (done : List (Option String × Document))
  /-- the colon after a key -/
  | colon (done : List (Option String × Document)) (key : Option String)
  /-- a comma or the end of an object -/
  | afterMember (done : List (Option String × Document))

/-- The outcome of one token: reading goes on, a value of the outermost level is complete, or the
token does not fit. -/
inductive Step where
  | more (place : Place) (stack : List Frame)
  | complete (v : Document)
  | stuck

/-- A complete value inside the open containers. -/
def deliver (v : Document) : List Frame → Step
  | [] => .complete v
  | .items done :: stack => .more (.afterItem (v :: done)) stack
  | .members done key :: stack => .more (.afterMember ((key, v) :: done)) stack

/-- A token where a value begins. -/
def begin : Token → List Frame → Step
  | .null, stack => deliver .null stack
  | .bool b, stack => deliver (.bool b) stack
  | .number n, stack => deliver (.number n) stack
  | .string s, stack => deliver (.string s) stack
  | .beginArray, stack => .more .firstItem stack
  | .beginObject, stack => .more .firstKey stack
  | _, _ => .stuck

def step : Place → List Frame → Token → Step
  | .value, stack, t => begin t stack
  | .firstItem, stack, .endArray => deliver (.array [] true) stack
  | .firstItem, stack, t => begin t (.items [] :: stack)
  | .afterItem done, stack, .endArray => deliver (.array done.reverse true) stack
  | .afterItem done, stack, .comma => .more .value (.items done :: stack)
  | .firstKey, stack, .endObject => deliver (.object [] true) stack
  | .firstKey, stack, .string k => .more (.colon [] k) stack
  | .key done, stack, .string k => .more (.colon done k) stack
  | .colon done k, stack, .colon => .more .value (.members done k :: stack)
  | .afterMember done, stack, .endObject => deliver (.object done.reverse true) stack
  | .afterMember done, stack, .comma => .more (.key done) stack
  | _, _, _ => .stuck

/-- The open containers, closed around an unfinished value. -/
def abandon : Document → List Frame → Document
  | v, [] => v
  | v, .items done :: stack => abandon (.array (done.reverse ++ [v]) false) stack
  | v, .members done key :: stack => abandon (.object (done.reverse ++ [(key, v)]) false) stack

/-- What was read when the reader stops at a place. -/
def unfinished : Place → Document
  | .value => .broken
  | .firstItem => .array [] false
  | .afterItem done => .array done.reverse false
  | .firstKey => .object [] false
  | .key done => .object done.reverse false
  | .colon done key => .object (done.reverse ++ [(key, .broken)]) false
  | .afterMember done => .object done.reverse false

/-- Reads one value, and gives the tokens after it. -/
def readFrom : Place → List Frame → List Token → Document × List Token
  | place, stack, [] => (abandon (unfinished place) stack, [])
  | place, stack, t :: rest =>
    match step place stack t with
    | .more place stack => readFrom place stack rest
    | .complete v => (v, rest)
    | .stuck => (abandon (unfinished place) stack, t :: rest)

/-- The first value of a text, and the tokens after it. -/
def read (cs : Source) : Document × List Token := readFrom .value [] (Token.scan cs)

mutual

/-- Whether nothing is missing from the value, whatever its strings and numbers are. -/
def isWhole : Document → Bool
  | .array items whole => whole && areWhole items
  | .object members whole => whole && areWholeMembers members
  | .broken => false
  | _ => true

def areWhole : List Document → Bool
  | [] => true
  | v :: rest => isWhole v && areWhole rest

def areWholeMembers : List (Option String × Document) → Bool
  | [] => true
  | (_, v) :: rest => isWhole v && areWholeMembers rest

end

mutual

/-- The value, if nothing is missing from it and all its strings and numbers are readable. At most
`levels` containers may be nested in it. -/
def value? : Nat → Document → Option Value
  | _, .null => some .null
  | _, .bool b => some (.bool b)
  | _, .number n => n.map .number
  | _, .string s => s.map .string
  | levels + 1, .array items true => (values? levels items).map .array
  | levels + 1, .object members true => (memberValues? levels members).map .object
  | _, _ => none

def values? (levels : Nat) : List Document → Option (List Value)
  | [] => some []
  | v :: rest => do return (← value? levels v) :: (← values? levels rest)

def memberValues? (levels : Nat) :
    List (Option String × Document) → Option (List (String × Value))
  | [] => some []
  | (key, v) :: rest => do return (← key, ← value? levels v) :: (← memberValues? levels rest)

end

/-- Containers nested deeper than this are not read. -/
def maxLevels : Nat := 127

end Document

/-- The value of a JSON text, when it holds one and nothing else. -/
def Value.ofText? (s : String) : Option Value :=
  match Document.read (Source.ofString s) with
  | (d, []) => d.value? Document.maxLevels
  | _ => none

end Json
end AccessRegistry
