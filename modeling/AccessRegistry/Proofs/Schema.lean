import Mathlib.Data.Multiset.Filter
import Mathlib.Data.Multiset.MapFold
import AccessRegistry.Store.Tables
import AccessRegistry.Sql.Error

/-!
# AccessRegistry.Proofs.Schema

The schema of the database, apart from the tables in memory: what a database holds, what its named
constraints demand of the rows, and what a statement does to the rows if nothing stops it.

* `Database`   — the rows of the five tables, in no order, with nothing to keep two of them apart.
* `Constraint` — the named constraints; `Constraint.Holds` is what each of them demands.
* `Write`      — the statements that write, as the tables carry them out (`Write.change`) and as
  they change the rows of a database (`Write.naive`): a new row is one row more, an update or a
  deletion goes to every row that matches, and a foreign key that cascades takes the rows that refer
  to them along.
-/

namespace AccessRegistry
namespace Schema

@[ext]
structure Database where
  domains : Multiset Domain
  groups : Multiset AppGroup
  applications : Multiset Application
  tokens : Multiset Token
  accessLists : Multiset AccessList
  /-- what the identity columns give out next -/
  nextDomainId : Int32
  nextGroupId : Int32

/-- The ids of the systems. They come with the schema, and nothing writes them. -/
def systems : Multiset Int32 := {defaultSystemId}

/-! ## Constraints -/

section

variable {ρ ν : Type}

/-- `PRIMARY KEY (columns)` and `UNIQUE (columns)`. -/
def Unique (rows : Multiset ρ) (columns : ρ → ν) : Prop := (rows.map columns).Nodup

/-- `FOREIGN KEY (column) REFERENCES` a table with these keys. -/
def References (rows : Multiset ρ) (column : ρ → ν) (keys : Multiset ν) : Prop :=
  ∀ r ∈ rows, column r ∈ keys

end

inductive Constraint where
  | domainKey
  | domainName
  | domainSystem
  | groupKey
  | groupName
  | groupDomain
  | applicationKey
  | applicationName
  | applicationGroup
  | applicationType
  | tokenKey
  | tokenApplication
  | accessListKey
  | accessListApplication

namespace Constraint

def name : Constraint → String
  | domainKey => "domain_pkey"
  | domainName => "domain_name_system_id_key"
  | domainSystem => "domain_system_id_fkey"
  | groupKey => "app_group_pkey"
  | groupName => "app_group_name_domain_id_key"
  | groupDomain => "app_group_domain_id_fkey"
  | applicationKey => "application_pkey"
  | applicationName => "application_name_application_group_id_key"
  | applicationGroup => "application_application_group_id_fkey"
  | applicationType => "application_type_check"
  | tokenKey => "token_pkey"
  | tokenApplication => "token_app_id_fkey"
  | accessListKey => "access_list_pkey"
  | accessListApplication => "access_list_app_id_fkey"

def Holds (d : Database) : Constraint → Prop
  | domainKey => Unique d.domains Domain.id
  | domainName => Unique d.domains fun r => (r.name, r.systemId)
  | domainSystem => References d.domains Domain.systemId systems
  | groupKey => Unique d.groups AppGroup.id
  | groupName => Unique d.groups fun r => (r.name, r.domainId)
  | groupDomain => References d.groups AppGroup.domainId (d.domains.map Domain.id)
  | applicationKey => Unique d.applications Application.id
  | applicationName => Unique d.applications fun r => (r.name, r.applicationGroupId)
  | applicationGroup =>
    References d.applications Application.applicationGroupId (d.groups.map AppGroup.id)
  | applicationType => ∀ r ∈ d.applications, r.type.text ∈ ["SYSTEM", "MOBILE"]
  | tokenKey => Unique d.tokens Token.token
  | tokenApplication => References d.tokens Token.appId (d.applications.map Application.id)
  | accessListKey => Unique d.accessLists fun r => (r.appId, r.method)
  | accessListApplication =>
    References d.accessLists AccessList.appId (d.applications.map Application.id)

/-- The failure that a violation is reported as. -/
def failure? (c : Constraint) : Option Failure := Sql.Error.ofConstraint? c.name

end Constraint

/-! ## Deletion with `ON DELETE CASCADE` -/

namespace Database

variable (d : Database)

def deleteApplications (gone : Application → Prop) [DecidablePred gone] : Database :=
  let ids := (d.applications.filter gone).map Application.id
  { d with
    applications := d.applications.filter fun a => ¬ gone a
    tokens := d.tokens.filter fun k => k.appId ∉ ids
    accessLists := d.accessLists.filter fun l => l.appId ∉ ids }

def deleteGroups (gone : AppGroup → Prop) [DecidablePred gone] : Database :=
  let ids := (d.groups.filter gone).map AppGroup.id
  { d.deleteApplications fun a => a.applicationGroupId ∈ ids with
    groups := d.groups.filter fun g => ¬ gone g }

def deleteDomains (gone : Domain → Prop) [DecidablePred gone] : Database :=
  let ids := (d.domains.filter gone).map Domain.id
  { d.deleteGroups fun g => g.domainId ∈ ids with
    domains := d.domains.filter fun r => ¬ gone r }

end Database

/-! ## Statements -/

inductive Write : Type → Type where
  | createDomain (name description : String) (systemId : Int32) : Write Domain
  | updateDomain (id : Int32) (name description : String) : Write Domain
  | deleteDomains (ids : List Int32) : Write Nat
  | createGroup (name description : String) (domainId : Int32) : Write AppGroup
  | updateGroup (id : Int32) (name description : String) : Write AppGroup
  | deleteGroups (ids : List Int32) : Write Nat
  | createApplication (app : NewApplication) : Write Application
  | updateApplication (oldId newId : Int32) (name description : String) : Write Application
  | deleteApplications (ids : List Int32) : Write Nat
  | saveToken (token : Token) : Write Unit
  | deleteTokens (appId : Int32) (texts : List String) : Write Nat
  | upsertAccessList (row : AccessList) : Write Nat
  | insertAccessLists (rows : List AccessList) : Write Nat
  | deleteAccessLists (appId : Int32) : Write Nat
  | deleteAccessListMethods (appId : Int32) (methods : List String) : Write Nat

namespace Write

/-- The statement on the tables in memory. -/
def change {α : Type} (now : Instant) : Write α → Tables.Change α
  | createDomain name description systemId => Tables.createDomain now name description systemId
  | updateDomain id name description => Tables.updateDomain now id name description
  | deleteDomains ids => Tables.deleteDomains ids
  | createGroup name description domainId => Tables.createGroup now name description domainId
  | updateGroup id name description => Tables.updateGroup now id name description
  | deleteGroups ids => Tables.deleteGroups ids
  | createApplication app => Tables.createApplication now app
  | updateApplication oldId newId name description =>
    Tables.updateApplication now oldId newId name description
  | deleteApplications ids => Tables.deleteApplications ids
  | saveToken token => Tables.saveToken token
  | deleteTokens appId texts => Tables.deleteTokens appId texts
  | upsertAccessList row => Tables.upsertAccessList row
  | insertAccessLists rows => Tables.insertAccessLists rows
  | deleteAccessLists appId => Tables.deleteAccessLists appId
  | deleteAccessListMethods appId methods => Tables.deleteAccessListMethods appId methods

/-- The row that an update is about is there. -/
def TargetExists {α : Type} (d : Database) : Write α → Prop
  | updateDomain id _ _ => ∃ r ∈ d.domains, r.id = id
  | updateGroup id _ _ => ∃ r ∈ d.groups, r.id = id
  | updateApplication oldId _ _ _ => ∃ r ∈ d.applications, r.id = oldId
  | _ => True

/-- The statement on the rows of a database, whatever the constraints say. -/
def naive {α : Type} (now : Instant) (d : Database) : Write α → Database
  | createDomain name description systemId =>
    { d with
      nextDomainId := d.nextDomainId + 1
      domains := ⟨d.nextDomainId, name, description, systemId, now, now⟩ ::ₘ d.domains }
  | updateDomain id name description =>
    { d with
      domains := d.domains.map fun r =>
        if r.id = id then { r with name, description, updatedAt := now } else r }
  | deleteDomains ids => d.deleteDomains fun r => r.id ∈ ids
  | createGroup name description domainId =>
    { d with
      nextGroupId := d.nextGroupId + 1
      groups := ⟨d.nextGroupId, name, description, domainId, now, now⟩ ::ₘ d.groups }
  | updateGroup id name description =>
    { d with
      groups := d.groups.map fun r =>
        if r.id = id then { r with name, description, updatedAt := now } else r }
  | deleteGroups ids => d.deleteGroups fun r => r.id ∈ ids
  | createApplication app =>
    { d with
      applications :=
        ⟨app.id, app.name, app.description, app.applicationGroupId, app.type, now, now⟩ ::ₘ
          d.applications }
  | updateApplication oldId newId name description =>
    -- the new id cascades to the rows that refer to the old one
    { d with
      applications := d.applications.map fun r =>
        if r.id = oldId then { r with id := newId, name, description, updatedAt := now } else r
      tokens := d.tokens.map fun k => if k.appId = oldId then { k with appId := newId } else k
      accessLists := d.accessLists.map fun l =>
        if l.appId = oldId then { l with appId := newId } else l }
  | deleteApplications ids => d.deleteApplications fun r => r.id ∈ ids
  | saveToken token => { d with tokens := token ::ₘ d.tokens }
  | deleteTokens appId texts =>
    { d with tokens := d.tokens.filter fun k => ¬ (k.appId = appId ∧ k.token ∈ texts) }
  | upsertAccessList row =>
    -- `ON CONFLICT (app_id, method)` the row takes the place of the other one
    { d with
      accessLists := row ::ₘ d.accessLists.filter fun l =>
        ¬ (l.appId = row.appId ∧ l.method = row.method) }
  | insertAccessLists rows => { d with accessLists := rows + d.accessLists }
  | deleteAccessLists appId =>
    { d with accessLists := d.accessLists.filter fun l => ¬ l.appId = appId }
  | deleteAccessListMethods appId methods =>
    { d with
      accessLists := d.accessLists.filter fun l => ¬ (l.appId = appId ∧ l.method ∈ methods) }

end Write

end Schema

/-- The rows of a table in no order. -/
def Table.bag {ρ κ : Type} [Keyed ρ κ] (t : Table ρ) : Multiset ρ := t.rows

/-- The tables as a database holds them. -/
def Tables.database (t : Tables) : Schema.Database where
  domains := t.domains.bag
  groups := t.groups.bag
  applications := t.applications.bag
  tokens := t.tokens.bag
  accessLists := t.accessLists.bag
  nextDomainId := t.nextDomainId
  nextGroupId := t.nextGroupId

end AccessRegistry
