import AccessRegistry.Json.Printer
import AccessRegistry.Failure

/-!
# AccessRegistry.Http.Answer

Answers to HTTP requests, and how failures look to clients: the kind of failure decides the status,
and the message of an internal one stays inside.
-/

namespace AccessRegistry
namespace Http

inductive Content where
  | json (v : Json.Value)
  | text (s : String)
  /-- plain text whose lines come in no particular order -/
  | lines (ls : List String)
  /-- the description of the interface -/
  | document

structure Answer where
  status : Nat
  content : Content

/-- The classes of failure that clients see. -/
inductive Refusal where
  | notFound (message reason : String)
  | badRequest (message reason : String)
  | conflict (message reason : String)
  | hidden

namespace Refusal

def ofFailure : Failure → Refusal
  | .invalidArgument message => .badRequest message (Failure.invalidArgument message).reason
  | .internal _ => .hidden
  | .tokenDuplicate => .hidden
  | f =>
    if f.isNotFound then .notFound f.text f.reason
    else if f.isDuplicate then .conflict f.text f.reason
    else .hidden

/-- A request that cannot be read or breaks a rule of its form. -/
def malformed (message : String) : Refusal :=
  .badRequest message (Failure.invalidArgument message).reason

def status : Refusal → Nat
  | .notFound .. => 404
  | .badRequest .. => 400
  | .conflict .. => 409
  | .hidden => 500

def code : Refusal → String
  | .notFound .. => "NOT_FOUND"
  | .badRequest .. => "INVALID_ARGUMENT"
  | .conflict .. => "ALREADY_EXISTS"
  | .hidden => "INTERNAL"

def message : Refusal → String
  | .notFound m _ | .badRequest m _ | .conflict m _ => m
  | .hidden => "An internal error occurred"

def reason : Refusal → String
  | .notFound _ r | .badRequest _ r | .conflict _ r => r
  | .hidden => "INTERNAL"

def answer (r : Refusal) : Answer :=
  ⟨r.status, .json (.object [("error", .object
    [("code", .string r.code), ("message", .string r.message),
      ("details", .object [("reason", .string r.reason)])])])⟩

end Refusal

namespace Answer

/-- Success. -/
def ok (v : Json.Value) : Answer := ⟨200, .json v⟩

def ofFailure (f : Failure) : Answer := (Refusal.ofFailure f).answer

def malformed (message : String) : Answer := (Refusal.malformed message).answer

def ofResult : Except Failure Json.Value → Answer
  | .ok v => ok v
  | .error f => ofFailure f

end Answer

end Http
end AccessRegistry
