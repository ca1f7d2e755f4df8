import AccessRegistry.Decimal.Shortest

/-!
# AccessRegistry.Json.Value

JSON values. A number is an integer when it is written without fraction and exponent, is not `-0`
and lies in `[-2 ^ 63, 2 ^ 64)`; every other number is a double. Members of an object keep their
order and may repeat.
-/

namespace AccessRegistry
namespace Json

inductive Number where
  | int (n : Int)
  | float (x : Binary64)
deriving DecidableEq, Repr, Inhabited

inductive Value where
  | null
  | bool (b : Bool)
  | number (n : Number)
  | string (s : String)
  | array (items : List Value)
  | object (members : List (String × Value))
deriving Repr, Inhabited

namespace Number

def text : Number → String
  | .int n => toString n
  | .float x => x.text

end Number

namespace Value

def ofInt (n : Int) : Value := .number (.int n)

def ofNat (n : Nat) : Value := .number (.int n)

/-- Inserts a member into members kept in ascending order of name, replacing an equal name. -/
def insertMember (name : String) (v : Value) : List (String × Value) → List (String × Value)
  | [] => [(name, v)]
  | m :: rest =>
    if name < m.1 then (name, v) :: m :: rest
    else if name == m.1 then (name, v) :: rest
    else m :: insertMember name v rest

mutual

/-- The same value with the members of every object in ascending order of name, the last of equal
names standing for all of them. -/
def sorted : Value → Value
  | .array items => .array (sortedItems items)
  | .object members => .object (sortedMembers members [])
  | v => v

def sortedItems : List Value → List Value
  | [] => []
  | v :: rest => sorted v :: sortedItems rest

def sortedMembers : List (String × Value) → List (String × Value) → List (String × Value)
  | [], done => done
  | (name, v) :: rest, done => sortedMembers rest (insertMember name (sorted v) done)

end

end Value

end Json
end AccessRegistry
