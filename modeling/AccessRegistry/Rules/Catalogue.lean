import AccessRegistry.Program.Port

/-!
# AccessRegistry.Rules.Catalogue

Domains and application groups: reading, creating, renaming and deleting them. A name is free if
nothing else under the same parent has it; a row keeps its parent for life.
-/

namespace AccessRegistry

/-- Refuses an empty list of ids. -/
def requireIds {C : Type → Type 1} (ids : List Int32) (what : String) : Action C Unit :=
  if ids.isEmpty then throw (.invalidArgument (what ++ " id list is empty")) else pure ()

/-- Judges the search for a name: free if nothing has it, or only the row `id` itself. -/
def nameIsFree {α : Type} (found : Except Failure α) (id : Int32) (idOf : α → Int32)
    (duplicate : Failure) : Except Failure Unit :=
  match found with
  | .ok row => if idOf row = id then .ok () else .error duplicate
  | .error f => if f.isNotFound then .ok () else .error f

/-- Goes on only if the search for a name finds nothing but the row `id`. -/
def ensureNameFree {α : Type} (search : Port α) (id : Int32) (idOf : α → Int32)
    (duplicate : Failure) : Rule Unit := do
  let found ← (Action.call search).attempt
  liftExcept (nameIsFree found id idOf duplicate)

/-! ## Domains -/

/-- Creates a domain if `id` is 0, and renames that domain otherwise. -/
structure DomainWrite where
  id : Int32
  name : String
  description : String
  systemId : Int32

namespace Domains

def getById (id : Int32) : Rule Domain := .call (.domainById id)

def getByIdList (ids : List Int32) : Rule (List Domain) :=
  if ids.isEmpty then pure [] else .call (.domainsByIds ids)

def getBySystemId (systemId : Int32) : Rule (List Domain) := .call (.domainsBySystem systemId)

def createUpdate (req : DomainWrite) : Rule Domain := do
  ensureNameFree (.domainByName req.name req.systemId) req.id Domain.id .domainDuplicateName
  if req.id = 0 then
    .call (.createDomain req.name req.description req.systemId)
  else
    let _ ← Action.call (.domainById req.id)
    .call (.updateDomain req.id req.name req.description)

def delete (ids : List Int32) : Rule Nat := do
  requireIds ids "domain"
  .call (.deleteDomains ids)

end Domains

/-! ## Application groups -/

/-- Creates or renames a group. Without a domain, a new group belongs to the default one. -/
structure GroupWrite where
  id : Int32
  name : String
  description : String
  domainId : Option Int32

namespace Groups

def getById (id : Int32) : Rule AppGroup := .call (.groupById id)

def getByIdList (ids : List Int32) : Rule (List AppGroup) :=
  if ids.isEmpty then pure [] else .call (.groupsByIds ids)

def getByDomainId (domainId : Int32) : Rule (List AppGroup) :=
  .call (.groupsByDomains [domainId])

def getAll : Rule (List AppGroup) := .call .allGroups

/-- Creates a group; the id of the request does not matter. -/
def create (req : GroupWrite) : Rule AppGroup := do
  let domainId := req.domainId.getD defaultDomainId
  ensureNameFree (.groupByName req.name domainId) 0 AppGroup.id .appGroupDuplicateName
  let _ ← Action.call (.domainById domainId)
  .call (.createGroup req.name req.description domainId)

/-- Renames a group. -/
def update (req : GroupWrite) : Rule AppGroup := do
  if req.id = 0 then
    throw (.invalidArgument "application group id is required")
  let current ← Action.call (.groupById req.id)
  let domainId := req.domainId.getD current.domainId
  ensureNameFree (.groupByName req.name domainId) req.id AppGroup.id .appGroupDuplicateName
  .call (.updateGroup req.id req.name req.description)

/-- Creates a group if the id is 0, and renames that group otherwise. -/
def createUpdate (req : GroupWrite) : Rule AppGroup :=
  if req.id = 0 then create req else update req

def deleteList (ids : List Int32) : Rule Nat := do
  requireIds ids "application group"
  .call (.deleteGroups ids)

end Groups

end AccessRegistry
