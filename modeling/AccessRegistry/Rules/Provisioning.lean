import AccessRegistry.Program.Port
import AccessRegistry.Lock

/-!
# AccessRegistry.Rules.Provisioning

Setting up an empty registry: under a lock, one transaction creates a root domain, a group in it,
the administrator application, its token and its permission to log in. It does nothing when the
token is stored already.
-/

namespace AccessRegistry

inductive BaselineOutcome where
  /-- no token is configured -/
  | disabled
  /-- another instance holds the lock -/
  | skippedLockBusy
  /-- the token is stored already -/
  | skippedTokenPresent
  /-- everything was created -/
  | provisioned
deriving DecidableEq, Repr

def BaselineOutcome.name : BaselineOutcome → String
  | .disabled => "Disabled"
  | .skippedLockBusy => "SkippedLockBusy"
  | .skippedTokenPresent => "SkippedTokenPresent"
  | .provisioned => "Provisioned"

namespace Provisioning

def rootDomainName : String := "root"

def rootGroupName : String := "rootService"

def adminAppId : Int32 := 1

def adminAppName : String := "admin"

def adminLoginMethod : String := "admin/auth/login"

/-- Creates the five rows. -/
def createAll (token : String) : Work .baseline BaselineOutcome := do
  let domain ← Action.call (.createDomain rootDomainName "" defaultSystemId)
  let group ← Action.call (.createAppGroup rootGroupName "" domain.id)
  let app ← Action.call (.createApplication ⟨adminAppId, adminAppName, "", group.id, .system⟩)
  let createdAt ← Action.now
  let _ ← Action.call (.saveToken ⟨token, app.id, neverExpires, createdAt⟩)
  let _ ← Action.call (.upsertAccessList ⟨app.id, adminLoginMethod, true⟩)
  return .provisioned

/-- The work of the transaction. -/
def work (token : String) : Work .baseline BaselineOutcome := do
  if !(← Action.call (.tryLock (Lock.key Lock.baselineName))) then
    return .skippedLockBusy
  match ← (Action.call (.getToken token)).attempt with
  | .ok _ => return .skippedTokenPresent
  | .error f => if f.isNotFound then createAll token else throw f

/-- Sets up the registry with a token. An empty token asks for nothing. -/
def run (token : String) : Rule BaselineOutcome :=
  if token.isEmpty then pure .disabled else .call (.transaction .baseline (work token))

end Provisioning

end AccessRegistry
