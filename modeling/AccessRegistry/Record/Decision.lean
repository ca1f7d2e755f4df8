import AccessRegistry.Record.Codec

/-!
# AccessRegistry.Record.Decision

The answer to a token: whose it is, or why it is refused. That a token is unknown is an answer and
no failure.
-/

namespace AccessRegistry

inductive Decision where
  | authenticated (data : AuthData)
  | tokenNotFound
  | tokenExpired
deriving DecidableEq, Repr

namespace Decision

/-- Judges the outcome of looking a token up. -/
def evaluate (lookup : Except Failure AuthData) (now : Instant) : Except Failure Decision :=
  match lookup with
  | .ok data => .ok (if data.isExpiredAt now then .tokenExpired else .authenticated data)
  | .error .tokenNotFound => .ok .tokenNotFound
  | .error f => .error f

/-- Why the token is refused. -/
def errorReason : Decision → Option String
  | .authenticated _ => none
  | .tokenNotFound => some Failure.tokenNotFound.text
  | .tokenExpired => some Failure.tokenExpired.text

/-- The name of the decision. -/
def name : Decision → String
  | .authenticated _ => "Authenticated"
  | .tokenNotFound => "TokenNotFound"
  | .tokenExpired => "TokenExpired"

end Decision

end AccessRegistry
