import AccessRegistry.Store.Tables
import AccessRegistry.Program.Port

/-!
# AccessRegistry.Store.World

The tables in memory as the storage behind the rules. A world holds the tables, the time, and the
token strings that will be made; `World.answer` gives its answer to every request of a rule.

A transaction works on a copy of the tables, which takes their place if the work succeeds and is
dropped if it fails.
-/

namespace AccessRegistry

structure World where
  tables : Tables
  now : Instant
  /-- the token strings, in the order in which they are made -/
  mint : Nat → String
  /-- how many of them were made -/
  minted : Nat

namespace Tables

/-- What a statement of a transaction does. -/
def perform {u : UseCase} {γ : Type} (now : Instant) : Capability u γ → Change γ
  | .upsert row => upsertAccessList row
  | .deleteByAppId appId => deleteAccessLists appId
  | .deleteByAppIdAndMethods appId methods => deleteAccessListMethods appId methods
  | .insertAll rows => insertAccessLists rows
  | .getByAppId appId => return (← get).accessListsFor appId
  | .deleteByIdList ids => deleteApplications ids
  | .save token => saveToken token
  | .deleteByAppIdAndTokens appId tokens => deleteTokens appId tokens
  | .tryLock _ => return true
  | .getToken text => do liftExcept ((← get).token text)
  | .createDomain name description systemId => createDomain now name description systemId
  | .createAppGroup name description domainId => createGroup now name description domainId
  | .createApplication app => createApplication now app
  | .saveToken token => saveToken token
  | .upsertAccessList row => upsertAccessList row

end Tables

namespace World

/-- The next token string. -/
def mintNext : StateM World String := do
  let w ← get
  set { w with minted := w.minted + 1 }
  return w.mint w.minted

/-- Makes a change to the tables of the world. -/
def change {α : Type} (c : Instant → Tables.Change α) : StateM World (Except Failure α) := do
  let w ← get
  let (r, tables) := (c w.now).apply w.tables
  set { w with tables }
  return r

/-- Asks the tables without changing them. -/
def look {α : Type} (f : Tables → Except Failure α) : StateM World (Except Failure α) := do
  return f (← get).tables

/-- The answers to the work of a transaction. -/
def answerWork {u : UseCase} : (β : Type) → Effect (Capability u) β → StateM World β
  | _, .call c => change fun now => Tables.perform now c
  | _, .now => return (← get).now
  | _, .mint => mintNext

/-- Runs the work of a transaction on a copy of the tables, and keeps it if it `commits`. -/
def transact {u : UseCase} {ρ : Type} (work : Program (Effect (Capability u)) ρ)
    (commits : ρ → Bool) : StateM World ρ := do
  let before ← get
  let (r, after) := (work.run answerWork).run before
  set { after with tables := if commits r then after.tables else before.tables }
  return r

/-- The answers to calls. -/
def answerCall {γ : Type} : Port γ → StateM World (Except Failure γ)
  | .ping => return .ok ()
  | .domainById id => look (·.domain id)
  | .domainsByIds ids => look fun t => .ok (t.domainsWhere fun d => ids.contains d.id)
  | .domainsBySystem systemId =>
    look fun t => .ok (t.domainsWhere fun d => d.systemId = systemId)
  | .domainByName name systemId =>
    look fun t =>
      Tables.found .domainNotFound
        (t.domains.rows.find? fun d => d.name = name ∧ d.systemId = systemId)
  | .createDomain name description systemId =>
    change fun now => Tables.createDomain now name description systemId
  | .updateDomain id name description =>
    change fun now => Tables.updateDomain now id name description
  | .deleteDomains ids => change fun _ => Tables.deleteDomains ids
  | .groupById id => look (·.group id)
  | .groupsByIds ids => look fun t => .ok (t.groupsWhere fun g => ids.contains g.id)
  | .groupsByDomains domainIds =>
    look fun t => .ok (t.groupsWhere fun g => domainIds.contains g.domainId)
  | .allGroups => look fun t => .ok (t.groupsWhere fun _ => true)
  | .groupByName name domainId =>
    look fun t =>
      Tables.found .appGroupNotFound
        (t.groups.rows.find? fun g => g.name = name ∧ g.domainId = domainId)
  | .createGroup name description domainId =>
    change fun now => Tables.createGroup now name description domainId
  | .updateGroup id name description =>
    change fun now => Tables.updateGroup now id name description
  | .deleteGroups ids => change fun _ => Tables.deleteGroups ids
  | .applicationById id => look (·.application id)
  | .applicationsByIds ids => look fun t => .ok (t.applicationsWhere fun a => ids.contains a.id)
  | .applicationsByGroups groupIds =>
    look fun t => .ok (t.applicationsWhere fun a => groupIds.contains a.applicationGroupId)
  | .applicationByName name groupId =>
    look fun t =>
      Tables.found .applicationNotFound
        (t.applications.rows.find? fun a => a.name = name ∧ a.applicationGroupId = groupId)
  | .allApplications => look fun t => .ok (t.applicationsWhere fun _ => true)
  | .nextApplicationId => look fun t => .ok t.nextApplicationId
  | .createApplication app => change fun now => Tables.createApplication now app
  | .updateApplication id name description =>
    change fun now => Tables.updateApplication now id id name description
  | .updateApplicationId oldId newId name description =>
    change fun now => Tables.updateApplication now oldId newId name description
  | .tokenByText text => look (·.token text)
  | .tokensByApplication appId => look fun t => .ok (t.tokensWhere fun k => k.appId = appId)
  | .tokensByApplications appIds =>
    look fun t => .ok (t.tokensWhere fun k => appIds.contains k.appId)
  | .authData text => look (·.authData text)
  | .accessLists appId => look fun t => .ok (t.accessListsFor appId)
  | .accessList appId method => look fun t => t.accessList appId method
  | .deleteAccessLists appId methods =>
    change fun _ => Tables.deleteAccessListMethods appId methods
  | .transaction _ work => transact work.program fun r => r.toBool

/-- The answers to the requests of a rule. -/
def answer : (β : Type) → Effect Port β → StateM World β
  | _, .call c => answerCall c
  | _, .now => return (← get).now
  | _, .mint => mintNext

end World

end AccessRegistry
