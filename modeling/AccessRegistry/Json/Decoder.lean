import AccessRegistry.Json.Problem

/-!
# AccessRegistry.Json.Decoder

Typed reading of JSON documents. A decoder meets a value as a reader of the text meets it: the first
problem in the order of the text is the answer, so a value of the wrong type counts before anything
malformed that follows it.

* `int32`, `int64`, `string`, `bool`, `list`, `optional` — decoders of plain values.
* `Record` — the fields of a record in declaration order. `Record.decoder` reads it from an object,
  where unknown members are passed over, or from an array of its fields.
* `flattened` — a record whose fields lie beside one field of its own, in one object.
-/

namespace AccessRegistry
namespace Json

abbrev Decoder (α : Type) := Document → Except Problem α

/-- What a value is, for a message; a value that cannot be read is malformed. -/
def Document.found? : Document → Option Found
  | .null => some .null
  | .bool b => some (.bool b)
  | .number n => n.map .number
  | .string s => s.map .string
  | .array _ _ => some .sequence
  | .object _ _ => some .map
  | .broken => none

def unfit (fault : Fault) : Problem := .unfit [] fault

/-- The problem with a value of another type than the expected one. -/
def mismatch (expected : String) (d : Document) : Problem :=
  match d.found? with
  | some found => unfit (.invalidType found expected)
  | none => .malformed

namespace Decoder

/-- An integer within bounds, which a message calls `expected`. -/
def integer (low high : Int) (expected : String) : Decoder Int
  | .number (some (.int n)) =>
    if low ≤ n ∧ n ≤ high then .ok n
    else .error (unfit (.invalidValue (.number (.int n)) expected))
  | d => .error (mismatch expected d)

def int32 : Decoder Int32 := fun d =>
  (integer (-0x80000000) 0x7FFFFFFF "i32" d).map Int32.ofInt

def int64 : Decoder Int64 := fun d =>
  (integer (-0x8000000000000000) 0x7FFFFFFFFFFFFFFF "i64" d).map Int64.ofInt

def string : Decoder String
  | .string (some s) => .ok s
  | d => .error (mismatch "a string" d)

def bool : Decoder Bool
  | .bool b => .ok b
  | d => .error (mismatch "a boolean" d)

/-- `null`, or a value. -/
def optional {α : Type} (decode : Decoder α) : Decoder (Option α)
  | .null => .ok none
  | d => (decode d).map some

def elements {α : Type} (decode : Decoder α) : Nat → List Document → Except Problem (List α)
  | _, [] => .ok []
  | i, d :: rest => do
    let v ← (decode d).mapError (Problem.under (.index i))
    return v :: (← elements decode (i + 1) rest)

/-- An array of values. -/
def list {α : Type} (decode : Decoder α) : Decoder (List α)
  | .array items whole => do
    let vs ← elements decode 0 items
    if whole then return vs else throw .malformed
  | d => .error (mismatch "a sequence" d)

end Decoder

/-! ## Records -/

/-- A field as seen from the members of an object. -/
structure FieldShape where
  name : String
  aliases : List String
  check : Document → Except Problem Unit

def FieldShape.matches (f : FieldShape) (key : String) : Bool :=
  key == f.name || f.aliases.contains key

/-- The members of an object. -/
abbrev Members := List (Option String × Document)

/-- The elements of an array from the `index`th one on. -/
structure Items where
  rest : List Document
  whole : Bool
  index : Nat

/-- The fields of a record, in declaration order. -/
structure Record (α : Type) where
  fields : List FieldShape
  /-- the record, from members that were checked one by one -/
  ofMembers : Members → Except Problem α
  /-- the record, from the next elements of an array -/
  ofItems : String → Items → Except Problem (α × Items)

namespace Record

instance : Applicative Record where
  pure a := ⟨[], fun _ => .ok a, fun _ items => .ok (a, items)⟩
  seq f x :=
    let x := x ()
    { fields := f.fields ++ x.fields
      ofMembers := fun ms => do
        let g ← f.ofMembers ms
        let a ← x.ofMembers ms
        return g a
      ofItems := fun expected items => do
        let (g, items) ← f.ofItems expected items
        let (a, items) ← x.ofItems expected items
        return (g a, items) }

/-- One field. Without a default it has to be there. -/
def field {α : Type} (name : String) (decode : Decoder α) (default : Option α)
    (aliases : List String) : Record α :=
  let shape : FieldShape := ⟨name, aliases, fun d => (decode d).map fun _ => ()⟩
  { fields := [shape]
    ofMembers := fun ms =>
      match ms.find? fun m => m.1.any shape.matches with
      | some (_, d) => decode d
      | none =>
        match default with
        | some a => .ok a
        | none => .error (unfit (.missingField name))
    ofItems := fun expected items =>
      match items.rest, default with
      | d :: rest, _ => do
        let a ← (decode d).mapError (Problem.under (.index items.index))
        return (a, ⟨rest, items.whole, items.index + 1⟩)
      | [], some a =>
        if items.whole then .ok (a, { items with index := items.index + 1 })
        else .error .malformed
      | [], none =>
        if items.whole then .error (unfit (.invalidLength items.index expected))
        else .error .malformed }

def required {α : Type} (name : String) (decode : Decoder α) : Record α :=
  field name decode none []

def defaulting {α : Type} (name : String) (decode : Decoder α) (default : α) : Record α :=
  field name decode (some default) []

/-- Goes through members in order: each known one occurs once and fits, all others are whole. -/
def checkMembers (fields : List FieldShape) : List String → Members → Except Problem Unit
  | _, [] => .ok ()
  | _, (none, _) :: _ => .error .malformed
  | seen, (some key, d) :: rest =>
    match fields.find? (·.matches key) with
    | some f =>
      if seen.contains f.name then .error (unfit (.duplicateField f.name))
      else do
        (f.check d).mapError (Problem.under (.key key))
        checkMembers fields (f.name :: seen) rest
    | none => if d.isWhole then checkMembers fields seen rest else .error .malformed

/-- How a message calls the array form of a record. -/
def arrayForm (name : String) (n : Nat) : String :=
  "struct " ++ name ++ " with " ++ toString n ++ (if n = 1 then " element" else " elements")

/-- Reads the record `name`. -/
def decoder {α : Type} (name : String) (r : Record α) : Decoder α
  | .object members whole => do
    checkMembers r.fields [] members
    if whole then r.ofMembers members else throw .malformed
  | .array items whole => do
    let (a, left) ← r.ofItems (arrayForm name r.fields.length) ⟨items, whole, 0⟩
    if left.whole && left.rest.isEmpty then return a else throw .malformed
  | d => .error (mismatch ("struct " ++ name) d)

/-- Goes through the members of an object that holds `own` fields beside others; the others are
only read as values, with at most `levels` containers nested in them. -/
def checkOwn (own : List FieldShape) (levels : Nat) : List String → Members → Except Problem Unit
  | _, [] => .ok ()
  | _, (none, _) :: _ => .error .malformed
  | seen, (some key, d) :: rest =>
    match own.find? (·.matches key) with
    | some f =>
      if seen.contains f.name then .error (unfit (.duplicateField f.name))
      else do
        (f.check d).mapError (Problem.under (.key key))
        checkOwn own levels (f.name :: seen) rest
    | none =>
      if (d.value? levels).isSome then checkOwn own levels seen rest else .error .malformed

/-- Reads the record `name` from an object that holds both its own fields and, beside them, the
fields of the record within it. Those are looked at once the whole object is read. The object is
the `depth`th container from outside. -/
def flattened {α β γ : Type} (name : String) (depth : Nat) (inner : Record α) (own : Record β)
    (build : α → β → γ) : Decoder γ
  | .object members whole => do
    checkOwn own.fields (Document.maxLevels - depth) [] members
    if !whole then throw .malformed
    let b ← own.ofMembers members
    let others := members.filter fun m => m.1.all fun k => !own.fields.any (·.matches k)
    checkMembers inner.fields [] others
    let a ← inner.ofMembers others
    return build a b
  | d => .error (mismatch ("struct " ++ name) d)

end Record

/-- Decodes a whole text: after the value only blanks may follow. -/
def decode {α : Type} (decoder : Decoder α) (cs : Source) : Except Problem α :=
  match Document.read cs with
  | (d, rest) => do
    let a ← decoder d
    if rest.isEmpty then return a else throw .malformed

end Json
end AccessRegistry
