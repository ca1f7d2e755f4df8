import AccessRegistry.Json.Document
import AccessRegistry.Text.Quoted

/-!
# AccessRegistry.Json.Problem

Why a JSON text is not the record it should be: the text is malformed, or a value at some path does
not fit, for one of the causes of `Fault`.
-/

namespace AccessRegistry
namespace Json

/-- What stands where something else was expected. -/
inductive Found where
  | null
  | bool (b : Bool)
  | number (n : Number)
  | string (s : String)
  | sequence
  | map
deriving Repr

def Found.text : Found → String
  | .null => "null"
  | .bool b => "boolean `" ++ (if b then "true" else "false") ++ "`"
  | .number (.int n) => "integer `" ++ toString n ++ "`"
  | .number (.float x) => "floating point `" ++ x.text ++ "`"
  | .string s => "string " ++ Text.quoted s
  | .sequence => "sequence"
  | .map => "map"

/-- The ways in which a value does not fit. -/
inductive Fault where
  | missingField (name : String)
  | duplicateField (name : String)
  | invalidType (found : Found) (expected : String)
  | invalidValue (found : Found) (expected : String)
  | unknownVariant (name : String) (expected : List String)
  | invalidLength (length : Nat) (expected : String)
  | invalidTimestamp
deriving Repr

/-- A choice of names in words: two are joined by `or`, more are listed. -/
def alternatives : List String → String
  | [a, b] => "`" ++ a ++ "` or `" ++ b ++ "`"
  | names => "one of " ++ ", ".intercalate (names.map fun n => "`" ++ n ++ "`")

def Fault.text : Fault → String
  | .missingField name => "missing field `" ++ name ++ "`"
  | .duplicateField name => "duplicate field `" ++ name ++ "`"
  | .invalidType found expected => "invalid type: " ++ found.text ++ ", expected " ++ expected
  | .invalidValue found expected => "invalid value: " ++ found.text ++ ", expected " ++ expected
  | .unknownVariant name expected =>
    "unknown variant `" ++ name ++ "`, expected " ++ alternatives expected
  | .invalidLength n expected => "invalid length " ++ toString n ++ ", expected " ++ expected
  | .invalidTimestamp => "invalid timestamp"

/-- One step from a value to a value inside it. -/
inductive PathStep where
  | key (name : String)
  | index (i : Nat)
deriving Repr

/-- A path in text: indices in brackets, keys joined by points. -/
def pathText : List PathStep → String
  | [] => ""
  | .index i :: rest => "[" ++ toString i ++ "]" ++ restText rest
  | .key k :: rest => k ++ restText rest
where
  /-- What follows the first step. -/
  restText : List PathStep → String
    | [] => ""
    | .index i :: rest => "[" ++ toString i ++ "]" ++ restText rest
    | .key k :: rest => "." ++ k ++ restText rest

inductive Problem where
  | malformed
  | unfit (path : List PathStep) (fault : Fault)
deriving Repr

/-- The same problem, seen from one level further out. -/
def Problem.under (s : PathStep) : Problem → Problem
  | .malformed => .malformed
  | .unfit path fault => .unfit (s :: path) fault

end Json
end AccessRegistry
