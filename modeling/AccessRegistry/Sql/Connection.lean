import AccessRegistry.Sql.Query

/-!
# AccessRegistry.Sql.Connection

The registry over a connection to a database. `Connection.answer` turns every request of a rule into
what is sent: a single statement, or the statements of a transaction between its borders.
-/

namespace AccessRegistry
namespace Sql

/-- Where a transaction begins and how it ends. -/
inductive Border where
  | begin
  | commit
  | rollback
deriving DecidableEq, Repr

def Border.text : Border → String
  | .begin => "BEGIN"
  | .commit => "COMMIT"
  | .rollback => "ROLLBACK"

/-- What is asked of the connection, and of the world around it. -/
inductive Wire : Type → Type where
  | execute (s : Statement) : Wire Reply
  | border (b : Border) : Wire (Option Error)
  | now : Wire Instant
  | mint : Wire String

/-- How a transaction ended. -/
inductive Settled (ρ : Type) where
  | notBegun (e : Error)
  | done (r : ρ)
  | notCommitted (r : ρ) (e : Error)

namespace Connection

variable {α ρ : Type}

/-- Sends a statement and reads its reply. -/
def send (q : Query α) : Program Wire (Except Failure α) := do
  return q.read (← Program.request (.execute q.statement))

/-- The answers to the work of a transaction. -/
def answerWork {u : UseCase} : (β : Type) → Effect (Capability u) β → Program Wire β
  | _, .call c =>
    match Query.ofCapability c with
    | .ok q => send q
    | .error a => pure (.ok a)
  | _, .now => .request .now
  | _, .mint => .request .mint

/-- Ends a transaction. One that cannot be ended this way is rolled back once more. -/
def finish (b : Border) : Program Wire (Option Error) := do
  match ← Program.request (.border b) with
  | none => return none
  | some e =>
    let _ ← Program.request (.border .rollback)
    return some e

/-- Runs work as a transaction, which is committed if the work `commits` and rolled back if not. A
transaction that does not begin runs nothing. -/
def transact {u : UseCase} (work : Program (Effect (Capability u)) ρ) (commits : ρ → Bool) :
    Program Wire (Settled ρ) := do
  match ← Program.request (.border .begin) with
  | some e => return .notBegun e
  | none =>
    let r ← work.run answerWork
    if commits r then
      match ← finish .commit with
      | none => return .done r
      | some e => return .notCommitted r e
    else
      let _ ← finish .rollback
      return .done r

/-- The outcome of a transaction: that of its work, unless the connection failed. -/
def outcome : Settled (Except Failure α) → Except Failure α
  | .notBegun e => .error e.toFailure
  | .done r => r
  | .notCommitted _ e => .error e.toFailure

/-- The answers to calls. -/
def answerCall {γ : Type} : Port γ → Program Wire (Except Failure γ)
  | .ping => send Query.ping
  | .domainById id => send (Query.domainById id)
  | .domainsByIds ids => send (Query.domainsByIds ids)
  | .domainsBySystem systemId => send (Query.domainsBySystem systemId)
  | .domainByName name systemId => send (Query.domainByName name systemId)
  | .createDomain name description systemId => send (Query.createDomain name description systemId)
  | .updateDomain id name description => send (Query.updateDomain id name description)
  | .deleteDomains ids => send (Query.deleteDomains ids)
  | .groupById id => send (Query.groupById id)
  | .groupsByIds ids => send (Query.groupsByIds ids)
  | .groupsByDomains domainIds => send (Query.groupsByDomains domainIds)
  | .allGroups => send Query.allGroups
  | .groupByName name domainId => send (Query.groupByName name domainId)
  | .createGroup name description domainId => send (Query.createGroup name description domainId)
  | .updateGroup id name description => send (Query.updateGroup id name description)
  | .deleteGroups ids => send (Query.deleteGroups ids)
  | .applicationById id => send (Query.applicationById id)
  | .applicationsByIds ids => send (Query.applicationsByIds ids)
  | .applicationsByGroups groupIds => send (Query.applicationsByGroups groupIds)
  | .applicationByName name groupId => send (Query.applicationByName name groupId)
  | .allApplications => send Query.allApplications
  | .nextApplicationId => send Query.nextApplicationId
  | .createApplication app => send (Query.createApplication app)
  | .updateApplication id name description => send (Query.updateApplication id id name description)
  | .updateApplicationId oldId newId name description =>
    send (Query.updateApplication oldId newId name description)
  | .tokenByText token => send (Query.tokenByText token)
  | .tokensByApplication appId => send (Query.tokensByApplication appId)
  | .tokensByApplications appIds => send (Query.tokensByApplications appIds)
  | .authData token => send (Query.authData token)
  | .accessLists appId => send (Query.accessLists appId)
  | .accessList appId method => send (Query.accessList appId method)
  | .deleteAccessLists appId methods => send (Query.deleteAccessListMethods appId methods)
  | .transaction _ work => do
    return outcome (← transact work.program fun r => r.toBool)

/-- The answers to the requests of a rule. -/
def answer : (β : Type) → Effect Port β → Program Wire β
  | _, .call c => answerCall c
  | _, .now => .request .now
  | _, .mint => .request .mint

end Connection

end Sql
end AccessRegistry
