import AccessRegistry.Rules.Catalogue

/-!
# AccessRegistry.Rules.Applications

Applications. Reading one shows its tokens with it. Callers choose the ids; `createUpdate` asks the
storage for one and tries again when somebody else takes it first.
-/

namespace AccessRegistry

/-- Renames an application and moves it to another id. -/
structure ApplicationUpdate where
  oldId : Int32
  newId : Int32
  name : String
  description : String

namespace Applications

/-- How often `createUpdate` asks for an id. -/
def allocateAttempts : Nat := 3

/-- Shows the tokens of one application. -/
def enrichOne (app : Application) : Rule ApplicationWithTokens := do
  return ⟨app, ← .call (.tokensByApplication app.id)⟩

/-- Shows the tokens of some applications, read all at once. -/
def enrichWithTokens (apps : List Application) : Rule (List ApplicationWithTokens) :=
  if apps.isEmpty then pure []
  else do
    let tokens ← Action.call (.tokensByApplications (apps.map Application.id))
    return attachTokens apps tokens

def getById (id : Int32) : Rule ApplicationWithTokens := do
  enrichOne (← .call (.applicationById id))

def getByIdList (ids : List Int32) : Rule (List ApplicationWithTokens) :=
  if ids.isEmpty then pure []
  else do enrichWithTokens (← .call (.applicationsByIds ids))

def getByServiceId (groupId : Int32) : Rule (List ApplicationWithTokens) := do
  enrichWithTokens (← .call (.applicationsByGroups [groupId]))

def getByToken (token : String) : Rule ApplicationWithTokens := do
  let t ← Action.call (.tokenByText token)
  getById t.appId

def getAll : Rule (List ApplicationWithTokens) := do
  enrichWithTokens (← .call .allApplications)

def nextId : Rule Int32 := .call .nextApplicationId

/-- Creates an application under the id it brings. It has no tokens yet. -/
def create (req : NewApplication) : Rule ApplicationWithTokens := do
  if req.id ≤ 0 then
    throw (.invalidArgument "application id must be positive")
  return ⟨← .call (.createApplication req), []⟩

/-- Renames an application, possibly under a new id; what belongs to it follows. -/
def update (req : ApplicationUpdate) : Rule ApplicationWithTokens := do
  let app ← Action.call (.updateApplicationId req.oldId req.newId req.name req.description)
  enrichOne app

/-- Creates an application under the next id, with `retries` further attempts when that id is taken
in the meantime. -/
def createUnderNextId (req : NewApplication) : Nat → Rule ApplicationWithTokens
  | 0 => do
    let id ← nextId
    create { req with id }
  | retries + 1 => do
    let id ← nextId
    match ← (create { req with id }).attempt with
    | .error .applicationDuplicateId => createUnderNextId req retries
    | result => liftExcept result

/-- Creates an application under an id of the storage's choice if `id` is 0, and renames that
application otherwise. -/
def createUpdate (req : NewApplication) : Rule ApplicationWithTokens := do
  ensureNameFree (.applicationByName req.name req.applicationGroupId) req.id Application.id
    .applicationDuplicateName
  if req.id ≠ 0 then
    let _ ← Action.call (.applicationById req.id)
    let app ← Action.call (.updateApplication req.id req.name req.description)
    enrichOne app
  else
    let _ ← Action.call (.groupById req.applicationGroupId)
    createUnderNextId req (allocateAttempts - 1)

/-- Deletes applications with all that belongs to them. -/
def delete (ids : List Int32) : Rule Nat := do
  requireIds ids "application"
  .call (.transaction .applicationDelete (.call (.deleteByIdList ids)))

/-- Domains, groups and applications of a system, one query for each level that has parents. -/
def systemTree (systemId : Int32) : Rule (List DomainNode) := do
  let domains ← Action.call (.domainsBySystem systemId)
  let groups ←
    if domains.isEmpty then pure []
    else Action.call (.groupsByDomains (domains.map Domain.id))
  let apps ←
    if groups.isEmpty then pure []
    else Action.call (.applicationsByGroups (groups.map AppGroup.id))
  return buildSystemTree domains groups apps

end Applications

end AccessRegistry
