import AccessRegistry.Program.Port

/-!
# AccessRegistry.Program.Script

Storage that follows a script in part: named calls fail instead of being carried out, and questions
for the next application id get prepared answers. Everything else goes to the storage behind it.
-/

namespace AccessRegistry

/-- One call that fails, after some calls of the same name were let through. -/
structure Fault where
  call : String
  failure : Failure
  skip : Nat
deriving Repr

namespace Fault

/-- Whether a call of this name fails now. Only the first fault of that name counts calls, and it is
used up when it strikes. -/
def strike (name : String) : List Fault → Option Failure × List Fault
  | [] => (none, [])
  | f :: rest =>
    if f.call = name then
      match f.skip with
      | 0 => (some f.failure, rest)
      | n + 1 => (none, { f with skip := n } :: rest)
    else
      let (r, rest) := strike name rest
      (r, f :: rest)

end Fault

structure Script where
  faults : List Fault
  nextIds : List Int32
deriving Repr

namespace Script

universe v

variable {m : Type → Type v} [Monad m]

/-- The next prepared application id, if the call asks for one. -/
def prepared {γ : Type} : Port γ → StateT Script m (Option γ)
  | .nextApplicationId => do
    let s ← get
    match s.nextIds with
    | [] => return none
    | id :: nextIds =>
      set { s with nextIds }
      return some id
  | _ => return none

/-- The failure that the script has for a call. -/
def struck (name : String) : StateT Script m (Option Failure) := do
  let s ← get
  let (r, faults) := Fault.strike name s.faults
  set { s with faults }
  return r

/-- Answers calls by the script first, and all else by `answer`. -/
def answer (answer : (β : Type) → Effect Port β → m β) :
    (β : Type) → Effect Port β → StateT Script m β
  | _, .call c => do
    if let some f ← struck c.name then
      return .error f
    if let some a ← prepared c then
      return .ok a
    answer _ (.call c)
  | _, .now => answer _ .now
  | _, .mint => answer _ .mint

end Script

end AccessRegistry
