import AccessRegistry.Program.Port

/-!
# AccessRegistry.Rules.Permissions

What applications may call: reading and setting permissions, and asking for one. Nothing is allowed
without an entry that says so.
-/

namespace AccessRegistry

structure MethodValue where
  method : String
  value : Bool

structure SetListRequest where
  appId : Int32
  removeOld : Bool
  methods : List MethodValue

namespace Permissions

def getById (appId : Int32) : Rule (List AccessList) := do
  let _ ← Action.call (.applicationById appId)
  .call (.accessLists appId)

def setOne (row : AccessList) : Rule Nat := do
  let _ ← Action.call (.applicationById row.appId)
  .call (.transaction .accessListSetOne (.call (.upsert row)))

/-- Removes all old entries if asked to, then those that are set anew, and adds the new ones. -/
def replace (req : SetListRequest) : Work .accessListSetList (List AccessList) := do
  if req.removeOld then
    let _ ← Action.call (.deleteByAppId req.appId)
  let _ ← Action.call (.deleteByAppIdAndMethods req.appId (req.methods.map MethodValue.method))
  let _ ← Action.call (.insertAll (req.methods.map fun m => ⟨req.appId, m.method, m.value⟩))
  .call (.getByAppId req.appId)

def setList (req : SetListRequest) : Rule (List AccessList) := do
  let _ ← Action.call (.applicationById req.appId)
  .call (.transaction .accessListSetList (replace req))

def deleteList (appId : Int32) (methods : List String) : Rule Nat := do
  let _ ← Action.call (.applicationById appId)
  if methods.isEmpty then pure 0 else .call (.deleteAccessLists appId methods)

/-- Whether an application may call an endpoint. -/
def authorize (appId : Int32) (endpoint : String) : Rule Bool := do
  match ← (Action.call (.accessList appId endpoint)).attempt with
  | .ok row => return row.value
  | .error .accessListNotFound => return false
  | .error f => throw f

end Permissions

end AccessRegistry
