import AccessRegistry.Rules.Applications

/-!
# AccessRegistry.Rules.Credentials

Tokens: issuing, revoking, listing, and judging one that is presented.
-/

namespace AccessRegistry

/-- What a revocation did. -/
structure RevokeOutcome where
  app : ApplicationWithTokens
  deleted : Nat

namespace Credentials

/-- How often `create` makes a token. -/
def generateAttempts : Nat := 3

/-- Makes a token and stores it. -/
def issueOnce (appId : Int32) (lifetime : Int64) : Rule Unit := do
  let text ← Action.mint
  let createdAt ← Action.now
  let work : Work .tokenCreate Unit := Action.call (.save ⟨text, appId, lifetime, createdAt⟩)
  Action.call (.transaction .tokenCreate work)

/-- Makes a token and stores it, with `retries` further attempts when its text is taken. -/
def issue (appId : Int32) (lifetime : Int64) : Nat → Rule Unit
  | 0 => issueOnce appId lifetime
  | retries + 1 => do
    match ← (issueOnce appId lifetime).attempt with
    | .error .tokenDuplicate => issue appId lifetime retries
    | result => liftExcept result

/-- Issues a token for an application and shows the application with it. -/
def create (appId : Int32) (lifetime : Int64) : Rule ApplicationWithTokens := do
  if lifetime < neverExpires then
    throw (.invalidArgument
      ("expire time must be -1 or non-negative, got " ++ toString lifetime.toInt))
  let app ← Action.call (.applicationById appId)
  let group ← Action.call (.groupById app.applicationGroupId)
  let _ ← Action.call (.domainById group.domainId)
  issue appId lifetime (generateAttempts - 1)
  Applications.getById appId

/-- Removes tokens of an application. Others, and tokens of other applications, do not count. -/
def revoke (appId : Int32) (tokens : List String) : Rule RevokeOutcome := do
  let _ ← Action.call (.applicationById appId)
  let work : Work .tokenRevoke Nat := .call (.deleteByAppIdAndTokens appId tokens)
  let deleted ← if tokens.isEmpty then pure 0 else Action.call (.transaction .tokenRevoke work)
  return ⟨← Applications.getById appId, deleted⟩

/-- Removes all tokens of an application. -/
def revokeByAppId (appId : Int32) : Rule RevokeOutcome := do
  let _ ← Action.call (.applicationById appId)
  let tokens ← Action.call (.tokensByApplication appId)
  revoke appId (tokens.map Token.token)

def getByAppId (appId : Int32) : Rule (List Token) := do
  let _ ← Action.call (.applicationById appId)
  .call (.tokensByApplication appId)

/-- Judges a token at the current time. -/
def authenticate (token : String) : Rule Decision := do
  let found ← (Action.call (.authData token)).attempt
  let now ← Action.now
  liftExcept (Decision.evaluate found now)

end Credentials

end AccessRegistry
