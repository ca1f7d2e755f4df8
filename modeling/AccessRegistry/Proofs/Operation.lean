import AccessRegistry.Proofs.Writes

/-!
# AccessRegistry.Proofs.Operation

The operations that the registry offers, as data, and what each of them does to the world.

* `Operation α`    — an operation that answers with an `α`; `Operation.rule` is the rule it runs.
* `Operation.Done` — what holds between the worlds before and after an operation that succeeds. The
  operations that only read leave the tables alone.
* `rule_writes`    — every operation either succeeds as `Done` says, or fails and changes nothing.
-/

namespace AccessRegistry

open AccessRegistry.Action World Tables

inductive Operation : Type → Type where
  | domainById (id : Int32) : Operation Domain
  | domainsByIds (ids : List Int32) : Operation (List Domain)
  | domainsOfSystem (systemId : Int32) : Operation (List Domain)
  /-- creates a domain, or renames one -/
  | writeDomain (req : DomainWrite) : Operation Domain
  | deleteDomains (ids : List Int32) : Operation Nat
  | groupById (id : Int32) : Operation AppGroup
  | groupsByIds (ids : List Int32) : Operation (List AppGroup)
  | groupsOfDomain (domainId : Int32) : Operation (List AppGroup)
  | allGroups : Operation (List AppGroup)
  | createGroup (req : GroupWrite) : Operation AppGroup
  | updateGroup (req : GroupWrite) : Operation AppGroup
  /-- creates a group, or renames one -/
  | writeGroup (req : GroupWrite) : Operation AppGroup
  | deleteGroups (ids : List Int32) : Operation Nat
  | applicationById (id : Int32) : Operation ApplicationWithTokens
  | applicationsByIds (ids : List Int32) : Operation (List ApplicationWithTokens)
  | applicationsOfGroup (groupId : Int32) : Operation (List ApplicationWithTokens)
  | applicationByToken (token : String) : Operation ApplicationWithTokens
  | allApplications : Operation (List ApplicationWithTokens)
  | withTokens (apps : List Application) : Operation (List ApplicationWithTokens)
  | nextApplicationId : Operation Int32
  | createApplication (req : NewApplication) : Operation ApplicationWithTokens
  | updateApplication (req : ApplicationUpdate) : Operation ApplicationWithTokens
  /-- creates an application under the next id, or renames one -/
  | writeApplication (req : NewApplication) : Operation ApplicationWithTokens
  | deleteApplications (ids : List Int32) : Operation Nat
  | systemTree (systemId : Int32) : Operation (List DomainNode)
  | createToken (appId : Int32) (lifetime : Int64) : Operation ApplicationWithTokens
  | revokeTokens (appId : Int32) (tokens : List String) : Operation RevokeOutcome
  | revokeAllTokens (appId : Int32) : Operation RevokeOutcome
  | tokensOf (appId : Int32) : Operation (List Token)
  | permissionsOf (appId : Int32) : Operation (List AccessList)
  | setPermission (row : AccessList) : Operation Nat
  | setPermissions (req : SetListRequest) : Operation (List AccessList)
  | deletePermissions (appId : Int32) (methods : List String) : Operation Nat
  | authenticate (token : String) : Operation Decision
  | authorize (appId : Int32) (endpoint : String) : Operation Bool
  | provision (token : String) : Operation BaselineOutcome

namespace Operation

def rule {α : Type} : Operation α → Rule α
  | .domainById id => Domains.getById id
  | .domainsByIds ids => Domains.getByIdList ids
  | .domainsOfSystem systemId => Domains.getBySystemId systemId
  | .writeDomain req => Domains.createUpdate req
  | .deleteDomains ids => Domains.delete ids
  | .groupById id => Groups.getById id
  | .groupsByIds ids => Groups.getByIdList ids
  | .groupsOfDomain domainId => Groups.getByDomainId domainId
  | .allGroups => Groups.getAll
  | .createGroup req => Groups.create req
  | .updateGroup req => Groups.update req
  | .writeGroup req => Groups.createUpdate req
  | .deleteGroups ids => Groups.deleteList ids
  | .applicationById id => Applications.getById id
  | .applicationsByIds ids => Applications.getByIdList ids
  | .applicationsOfGroup groupId => Applications.getByServiceId groupId
  | .applicationByToken token => Applications.getByToken token
  | .allApplications => Applications.getAll
  | .withTokens apps => Applications.enrichWithTokens apps
  | .nextApplicationId => Applications.nextId
  | .createApplication req => Applications.create req
  | .updateApplication req => Applications.update req
  | .writeApplication req => Applications.createUpdate req
  | .deleteApplications ids => Applications.delete ids
  | .systemTree systemId => Applications.systemTree systemId
  | .createToken appId lifetime => Credentials.create appId lifetime
  | .revokeTokens appId tokens => Credentials.revoke appId tokens
  | .revokeAllTokens appId => Credentials.revokeByAppId appId
  | .tokensOf appId => Credentials.getByAppId appId
  | .permissionsOf appId => Permissions.getById appId
  | .setPermission row => Permissions.setOne row
  | .setPermissions req => Permissions.setList req
  | .deletePermissions appId methods => Permissions.deleteList appId methods
  | .authenticate token => Credentials.authenticate token
  | .authorize appId endpoint => Permissions.authorize appId endpoint
  | .provision token => Provisioning.run token

/-- What an operation that succeeds does to the world. -/
def Done {α : Type} (w : World) : Operation α → α → World → Prop
  | .writeDomain req, domain, w' =>
    (if req.id = 0 then Tables.createDomain w.now req.name req.description req.systemId
      else Tables.updateDomain w.now req.id req.name req.description).apply w.tables =
      (.ok domain, w'.tables)
  | .deleteDomains ids, n, w' => (Tables.deleteDomains ids).apply w.tables = (.ok n, w'.tables)
  | .createGroup req, group, w' =>
    (Tables.createGroup w.now req.name req.description
      (req.domainId.getD defaultDomainId)).apply w.tables = (.ok group, w'.tables)
  | .updateGroup req, group, w' =>
    (Tables.updateGroup w.now req.id req.name req.description).apply w.tables =
      (.ok group, w'.tables)
  | .writeGroup req, group, w' =>
    (if req.id = 0 then
      Tables.createGroup w.now req.name req.description (req.domainId.getD defaultDomainId)
      else Tables.updateGroup w.now req.id req.name req.description).apply w.tables =
      (.ok group, w'.tables)
  | .deleteGroups ids, n, w' => (Tables.deleteGroups ids).apply w.tables = (.ok n, w'.tables)
  | .createApplication req, out, w' =>
    (Tables.createApplication w.now req).apply w.tables = (.ok out.app, w'.tables)
  | .updateApplication req, out, w' =>
    (Tables.updateApplication w.now req.oldId req.newId req.name req.description).apply w.tables =
      (.ok out.app, w'.tables)
  | .writeApplication req, out, w' =>
    if req.id = 0 then
      ∃ id, (Tables.createApplication w.now { req with id }).apply w.tables =
        (.ok out.app, w'.tables)
    else
      (Tables.updateApplication w.now req.id req.id req.name req.description).apply w.tables =
        (.ok out.app, w'.tables)
  | .deleteApplications ids, n, w' =>
    (Tables.deleteApplications ids).apply w.tables = (.ok n, w'.tables)
  | .createToken appId lifetime, _, w' =>
    ∃ n, w.minted ≤ n ∧ w'.minted = n + 1 ∧
      (saveToken ⟨w.mint n, appId, lifetime, w.now⟩).apply w.tables = (.ok (), w'.tables)
  | .revokeTokens appId tokens, out, w' =>
    (deleteTokens appId tokens).apply w.tables = (.ok out.deleted, w'.tables)
  | .revokeAllTokens appId, out, w' =>
    (deleteTokens appId
      ((w.tables.tokensWhere fun k => k.appId = appId).map Token.token)).apply w.tables =
      (.ok out.deleted, w'.tables)
  | .setPermission row, n, w' => (upsertAccessList row).apply w.tables = (.ok n, w'.tables)
  | .setPermissions req, _, w' =>
    w'.tables = { w.tables with
      accessLists := (req.left w.tables.accessLists).insertAll req.rows }
  | .deletePermissions appId methods, n, w' =>
    (deleteAccessListMethods appId methods).apply w.tables = (.ok n, w'.tables)
  | .provision token, o, w' =>
    if o = .provisioned then (Tables.provision w.now token).apply w.tables = (.ok o, w'.tables)
    else w'.tables = w.tables
  | _, _, w' => w'.tables = w.tables

end Operation

/-! ## Reading -/

theorem Applications.enrichWithTokens_looks (apps : List Application) :
    Looks (Applications.enrichWithTokens apps) := by
  unfold Applications.enrichWithTokens
  split
  · exact .pure _
  · exact .call_bind rfl fun _ => .pure _

theorem Applications.getById_looks (id : Int32) : Looks (Applications.getById id) :=
  .call_bind rfl fun _ => .call_bind rfl fun _ => .pure _

theorem Applications.systemTree_looks (systemId : Int32) :
    Looks (Applications.systemTree systemId) := by
  unfold Applications.systemTree
  refine .call_bind rfl fun domains => ?_
  -- with or without groups, the applications are read next
  have hgroups (groups : List AppGroup) : Looks (do
      let apps ← if groups.isEmpty then pure [] else
        Action.call (Port.applicationsByGroups (groups.map AppGroup.id))
      return buildSystemTree domains groups apps) := by
    by_cases hempty : groups.isEmpty
    · rw [if_pos hempty]
      exact .bind (.pure _) fun _ => .pure _
    · rw [if_neg hempty]
      exact .call_bind rfl fun _ => .pure _
  by_cases hempty : domains.isEmpty
  · rw [if_pos hempty]
    exact .bind (.pure []) hgroups
  · rw [if_neg hempty]
    exact .call_bind rfl hgroups

theorem Credentials.authenticate_looks (token : String) : Looks (Credentials.authenticate token) :=
  .bind (.attempt (.call rfl)) fun _ => .bind .now fun _ => .liftExcept _

theorem Permissions.authorize_looks (appId : Int32) (endpoint : String) :
    Looks (Permissions.authorize appId endpoint) := by
  refine .bind (.attempt (.call rfl)) fun found => ?_
  split
  · exact .pure _
  · exact .pure _
  · exact .throw _

namespace Operation

/-- Whether an operation only reads. -/
def reads {α : Type} : Operation α → Bool
  | .writeDomain _ | .deleteDomains _ | .createGroup _ | .updateGroup _ | .writeGroup _
  | .deleteGroups _ | .createApplication _ | .updateApplication _ | .writeApplication _
  | .deleteApplications _ | .createToken .. | .revokeTokens .. | .revokeAllTokens _
  | .setPermission _ | .setPermissions _ | .deletePermissions .. | .provision _ => false
  | _ => true

theorem looks_of_reads {α : Type} (op : Operation α) (h : op.reads = true) : Looks op.rule := by
  cases op with
  | domainsByIds ids | groupsByIds ids =>
    show Looks (if ids.isEmpty then _ else _)
    split
    · exact .pure _
    · exact .call rfl
  | applicationById id => exact Applications.getById_looks id
  | applicationsByIds ids =>
    show Looks (if ids.isEmpty then _ else _)
    split
    · exact .pure _
    · exact .call_bind rfl Applications.enrichWithTokens_looks
  | applicationsOfGroup groupId =>
    exact .call_bind rfl Applications.enrichWithTokens_looks
  | applicationByToken token =>
    exact .call_bind rfl fun _ => Applications.getById_looks _
  | allApplications => exact .call_bind rfl Applications.enrichWithTokens_looks
  | withTokens apps => exact Applications.enrichWithTokens_looks apps
  | systemTree systemId => exact Applications.systemTree_looks systemId
  | tokensOf appId => exact .call_bind rfl fun _ => .call rfl
  | permissionsOf appId => exact .call_bind rfl fun _ => .call rfl
  | authenticate token => exact Credentials.authenticate_looks token
  | authorize appId endpoint => exact Permissions.authorize_looks appId endpoint
  | domainById | domainsOfSystem | groupById | groupsOfDomain | allGroups | nextApplicationId =>
    exact .call rfl
  | _ => cases h

/-! ## Writing -/

/-- An operation that succeeds does what it says, and one that fails does nothing. -/
theorem rule_writes {α : Type} (op : Operation α) (w : World) : Writes w op.rule (op.Done w) := by
  have hread (h : op.reads = true) :
      Ends answer op.rule w (fun _ w' => w'.tables = w.tables) fun _ w' => Untouched w w' :=
    (looks_of_reads op h).ends (fun _ => rfl) fun _ => .refl w
  cases op with
  | writeDomain req => exact Domains.createUpdate_writes req
  | deleteDomains ids => exact Domains.delete_writes ids
  | createGroup req => exact Groups.create_writes req
  | updateGroup req => exact Groups.update_writes req
  | writeGroup req =>
    show Writes w (if req.id = 0 then _ else _) fun group w' =>
      (if req.id = 0 then _ else _ : Change AppGroup).apply w.tables = (.ok group, w'.tables)
    split
    · exact Groups.create_writes req
    · exact Groups.update_writes req
  | deleteGroups ids => exact Groups.deleteList_writes ids
  | createApplication req => exact Applications.create_writes req
  | updateApplication req => exact Applications.update_writes req
  | writeApplication req => exact Applications.createUpdate_writes req
  | deleteApplications ids => exact Applications.delete_writes ids
  | createToken appId lifetime => exact Credentials.create_writes appId lifetime
  | revokeTokens appId tokens => exact Credentials.revoke_writes appId tokens
  | revokeAllTokens appId => exact Credentials.revokeByAppId_writes appId
  | setPermission row => exact Permissions.setOne_writes row
  | setPermissions req => exact Permissions.setList_writes req
  | deletePermissions appId methods => exact Permissions.deleteList_writes appId methods
  | provision token => exact Provisioning.run_writes token
  | _ => exact hread rfl

end Operation

end AccessRegistry
