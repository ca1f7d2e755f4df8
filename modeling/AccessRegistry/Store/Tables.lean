import AccessRegistry.Store.Table
import AccessRegistry.Record.Views

/-!
# AccessRegistry.Store.Tables

The registry as five tables and two counters, and every change that can be made to them.

A change refuses to break the rules of the registry: names are unique under a parent, parents exist,
ids and tokens are unique. Deleting a row deletes everything under it, and an application that
moves to another id takes its tokens and permissions along.

* `Tables`        — the tables, with the next ids of domains and groups.
* `Tables.Change` — a change: it succeeds with a value or fails, and leaves tables behind.
* `Snapshot`      — the rows of all tables as lists, to fill the tables and to look at them.
-/

namespace AccessRegistry

/-! ## Keys -/

instance : Keyed Domain Int32 where
  key := Domain.id

instance : Keyed AppGroup Int32 where
  key := AppGroup.id

instance : Keyed Application Int32 where
  key := Application.id

instance : Keyed Token String where
  key := Token.token

/-- What tells permissions apart. -/
structure PermissionKey where
  appId : Int32
  method : String
deriving DecidableEq, Repr

namespace PermissionKey

/-- By application, then by method. -/
instance : Ord PermissionKey where
  compare := compareLex (compareOn appId) (compareOn method)

instance : Std.TransOrd PermissionKey :=
  inferInstanceAs (Std.TransCmp (compareLex (compareOn appId) (compareOn method)))

instance : Std.LawfulEqOrd PermissionKey where
  eq_of_compare {a b} h := by
    obtain ⟨ha, hm⟩ := Ordering.then_eq_eq.mp h
    cases a; cases b
    simp only [mk.injEq]
    exact ⟨Std.LawfulEqOrd.eq_of_compare ha, Std.LawfulEqOrd.eq_of_compare hm⟩
  compare_self := Std.ReflCmp.compare_self

end PermissionKey

def AccessList.key (a : AccessList) : PermissionKey := ⟨a.appId, a.method⟩

instance : Keyed AccessList PermissionKey where
  key := AccessList.key

/-! ## Tables -/

structure Tables where
  domains : Table Domain
  groups : Table AppGroup
  applications : Table Application
  tokens : Table Token
  accessLists : Table AccessList
  nextDomainId : Int32
  nextGroupId : Int32

/-- No rows; ids are counted from 1. -/
def Tables.empty : Tables := ⟨∅, ∅, ∅, ∅, ∅, 1, 1⟩

instance : Inhabited Tables := ⟨.empty⟩

/-- The rows of all tables. -/
structure Snapshot where
  domains : List Domain
  groups : List AppGroup
  applications : List Application
  tokens : List Token
  accessLists : List AccessList
deriving DecidableEq, Repr

namespace Tables

/-- The counter after a row with this id came from elsewhere. -/
def countPast (counter id : Int32) : Int32 := max counter (id + 1)

/-- Tables with these rows, taken as they are; new ids follow the greatest ones. -/
def ofSnapshot (s : Snapshot) : Tables where
  domains := .ofList s.domains
  groups := .ofList s.groups
  applications := .ofList s.applications
  tokens := .ofList s.tokens
  accessLists := .ofList s.accessLists
  nextDomainId := (s.domains.map Domain.id).foldl countPast 1
  nextGroupId := (s.groups.map AppGroup.id).foldl countPast 1

def snapshot (t : Tables) : Snapshot where
  domains := t.domains.rows
  groups := t.groups.rows
  applications := t.applications.rows
  tokens := t.tokens.rows
  accessLists := t.accessLists.rows

/-! ## Reading -/

/-- Rows by creation time and id, both descending. -/
def newestFirst {ρ : Type} (key : ρ → Instant × Int32) (rows : List ρ) : List ρ :=
  rows.mergeSort fun a b =>
    ((compare (key b).1 (key a).1).then (compare (key b).2 (key a).2)).isLE

def found {α : Type} (missing : Failure) : Option α → Except Failure α
  | some a => .ok a
  | none => .error missing

def domain (t : Tables) (id : Int32) : Except Failure Domain :=
  found .domainNotFound (t.domains.find? id)

def domainsWhere (t : Tables) (p : Domain → Bool) : List Domain :=
  newestFirst (fun d => (d.createdAt, d.id)) (t.domains.select p)

def group (t : Tables) (id : Int32) : Except Failure AppGroup :=
  found .appGroupNotFound (t.groups.find? id)

def groupsWhere (t : Tables) (p : AppGroup → Bool) : List AppGroup :=
  newestFirst (fun g => (g.createdAt, g.id)) (t.groups.select p)

def application (t : Tables) (id : Int32) : Except Failure Application :=
  found .applicationNotFound (t.applications.find? id)

def applicationsWhere (t : Tables) (p : Application → Bool) : List Application :=
  newestFirst (fun a => (a.createdAt, a.id)) (t.applications.select p)

/-- One more than the greatest id. -/
def nextApplicationId (t : Tables) : Int32 :=
  match t.applications.last? with
  | some a => a.id + 1
  | none => 1

def token (t : Tables) (text : String) : Except Failure Token :=
  found .tokenNotFound (t.tokens.find? text)

/-- Tokens by creation time, descending; equal times by text, ascending. -/
def tokensWhere (t : Tables) (p : Token → Bool) : List Token :=
  (t.tokens.select p).mergeSort fun a b => (compare b.createdAt a.createdAt).isLE

/-- The identity of a token, if its application, group and domain are all there. -/
def authData? (t : Tables) (text : String) : Option AuthData := do
  let token ← t.tokens.find? text
  let app ← t.applications.find? token.appId
  let group ← t.groups.find? app.applicationGroupId
  let domain ← t.domains.find? group.domainId
  return ⟨app.id, app.name, group.id, domain.id, domain.systemId, token.expireTime,
    token.createdAt⟩

def authData (t : Tables) (text : String) : Except Failure AuthData :=
  found .tokenNotFound (t.authData? text)

def accessListsFor (t : Tables) (appId : Int32) : List AccessList :=
  t.accessLists.select fun a => a.appId = appId

def accessList (t : Tables) (appId : Int32) (method : String) : Except Failure AccessList :=
  found .accessListNotFound (t.accessLists.find? ⟨appId, method⟩)

/-! ## Changes -/

/-- A change to the tables. What a failed one leaves behind is for the caller to keep or drop. -/
abbrev Change (α : Type) := ExceptT Failure (StateM Tables) α

namespace Change

variable {α : Type}

/-- The outcome of a change and the tables after it. -/
def apply (c : Change α) (t : Tables) : Except Failure α × Tables := (ExceptT.run c).run t

/-- Fails with `f` if the condition holds. -/
def refuseIf (condition : Bool) (f : Failure) : Change Unit :=
  if condition then throw f else pure ()

end Change

open Change (refuseIf)

/-- Removes whatever has lost its parent, from the groups down. -/
def sweepOrphans (t : Tables) : Tables :=
  let groups := t.groups.filter fun g => t.domains.contains g.domainId
  let applications := t.applications.filter fun a => groups.contains a.applicationGroupId
  { t with
    groups := groups
    applications := applications
    tokens := t.tokens.filter fun k => applications.contains k.appId
    accessLists := t.accessLists.filter fun a => applications.contains a.appId }

def createDomain (now : Instant) (name description : String) (systemId : Int32) :
    Change Domain := do
  let t ← get
  refuseIf (t.domains.any fun d => d.name = name ∧ d.systemId = systemId) .domainDuplicateName
  refuseIf (systemId ≠ defaultSystemId) .systemNotFound
  let row : Domain := ⟨t.nextDomainId, name, description, systemId, now, now⟩
  set { t with nextDomainId := t.nextDomainId + 1, domains := t.domains.insert row }
  return row

def updateDomain (now : Instant) (id : Int32) (name description : String) : Change Domain := do
  let t ← get
  let current ← liftExcept (t.domain id)
  refuseIf (t.domains.any fun d => d.id ≠ id ∧ d.name = name ∧ d.systemId = current.systemId)
    .domainDuplicateName
  let row := { current with name, description, updatedAt := now }
  set { t with domains := t.domains.insert row }
  return row

def deleteDomains (ids : List Int32) : Change Nat := do
  let t ← get
  let (domains, deleted) := t.domains.eraseAll ids
  set (sweepOrphans { t with domains })
  return deleted

def createGroup (now : Instant) (name description : String) (domainId : Int32) :
    Change AppGroup := do
  let t ← get
  refuseIf (t.groups.any fun g => g.name = name ∧ g.domainId = domainId) .appGroupDuplicateName
  refuseIf (!t.domains.contains domainId) .domainNotFound
  let row : AppGroup := ⟨t.nextGroupId, name, description, domainId, now, now⟩
  set { t with nextGroupId := t.nextGroupId + 1, groups := t.groups.insert row }
  return row

def updateGroup (now : Instant) (id : Int32) (name description : String) : Change AppGroup := do
  let t ← get
  let current ← liftExcept (t.group id)
  refuseIf (t.groups.any fun g => g.id ≠ id ∧ g.name = name ∧ g.domainId = current.domainId)
    .appGroupDuplicateName
  let row := { current with name, description, updatedAt := now }
  set { t with groups := t.groups.insert row }
  return row

def deleteGroups (ids : List Int32) : Change Nat := do
  let t ← get
  let (groups, deleted) := t.groups.eraseAll ids
  set (sweepOrphans { t with groups })
  return deleted

def createApplication (now : Instant) (app : NewApplication) : Change Application := do
  let t ← get
  refuseIf (t.applications.contains app.id) .applicationDuplicateId
  refuseIf
    (t.applications.any fun a =>
      a.name = app.name ∧ a.applicationGroupId = app.applicationGroupId)
    .applicationDuplicateName
  refuseIf (!t.groups.contains app.applicationGroupId) .appGroupNotFound
  let row : Application :=
    ⟨app.id, app.name, app.description, app.applicationGroupId, app.type, now, now⟩
  set { t with applications := t.applications.insert row }
  return row

/-- The tokens and permissions of one application, handed to another id. -/
def moveChildren (oldId newId : Int32) (t : Tables) : Tables :=
  let moved := (t.accessListsFor oldId).map fun a => { a with appId := newId }
  { t with
    tokens := t.tokens.map fun k => if k.appId = oldId then { k with appId := newId } else k
    accessLists := (t.accessLists.filter fun a => a.appId ≠ oldId).insertAll moved }

/-- Renames an application and moves it from `oldId` to `newId`, which may be the same. -/
def updateApplication (now : Instant) (oldId newId : Int32) (name description : String) :
    Change Application := do
  let t ← get
  let current ← liftExcept (t.application oldId)
  refuseIf (newId ≠ oldId ∧ t.applications.contains newId) .applicationDuplicateId
  refuseIf
    (t.applications.any fun a =>
      a.id ≠ oldId ∧ a.name = name ∧ a.applicationGroupId = current.applicationGroupId)
    .applicationDuplicateName
  let row := { current with id := newId, name, description, updatedAt := now }
  let t := { t with applications := (t.applications.erase oldId).insert row }
  set (if newId = oldId then t else moveChildren oldId newId t)
  return row

def deleteApplications (ids : List Int32) : Change Nat := do
  let t ← get
  let (applications, deleted) := t.applications.eraseAll ids
  set (sweepOrphans { t with applications })
  return deleted

def saveToken (token : Token) : Change Unit := do
  let t ← get
  refuseIf (t.tokens.contains token.token) .tokenDuplicate
  refuseIf (!t.applications.contains token.appId) .applicationNotFound
  set { t with tokens := t.tokens.insert token }

/-- Removes those of the listed tokens that belong to an application. -/
def deleteTokens (appId : Int32) (texts : List String) : Change Nat := do
  let t ← get
  let owned := texts.filter fun s => (t.tokens.find? s).any fun k => k.appId = appId
  let (tokens, deleted) := t.tokens.eraseAll owned
  set { t with tokens }
  return deleted

def upsertAccessList (row : AccessList) : Change Nat := do
  let t ← get
  refuseIf (!t.applications.contains row.appId) .applicationNotFound
  set { t with accessLists := t.accessLists.insert row }
  return 1

/-- Adds one permission that must not be there yet. -/
def insertAccessList (row : AccessList) : Change Unit := do
  let t ← get
  refuseIf (!t.applications.contains row.appId) .applicationNotFound
  refuseIf (t.accessLists.contains row.key)
    (.invalidArgument "method listed more than once for the application")
  set { t with accessLists := t.accessLists.insert row }

/-- Adds permissions one after another, up to the first that is refused. -/
def insertAccessLists (rows : List AccessList) : Change Nat := do
  rows.forM insertAccessList
  return rows.length

/-- Removes permissions that pass a test, and counts them. -/
def deleteAccessListsWhere (p : AccessList → Bool) : Change Nat := do
  let t ← get
  let kept := t.accessLists.filter fun a => !p a
  set { t with accessLists := kept }
  return t.accessLists.size - kept.size

def deleteAccessLists (appId : Int32) : Change Nat :=
  deleteAccessListsWhere fun a => a.appId = appId

def deleteAccessListMethods (appId : Int32) (methods : List String) : Change Nat :=
  deleteAccessListsWhere fun a => a.appId = appId ∧ methods.contains a.method

end Tables

end AccessRegistry
