import AccessRegistry.Sql.Statement
import AccessRegistry.Program.Port

/-!
# AccessRegistry.Sql.Query

The statement that each call of the registry sends, and how its reply is read. The texts are
constants: they are put together from the columns of a table and a condition, both fixed.
-/

namespace AccessRegistry
namespace Sql

open Reply (first one all affected)

/-- A statement and the meaning of its reply. -/
structure Query (α : Type) where
  statement : Statement
  read : Reply → Except Failure α

namespace Query

variable {α : Type}

def make (text : String) (params : List Param) (read : Reply → Except Failure α) : Query α :=
  ⟨⟨text, params⟩, read⟩

/-- Newer rows first. -/
def newestFirst : String := " ORDER BY created_at DESC, id DESC"

def returning (columns : String) : String := " RETURNING " ++ columns

/-! ## Domains -/

def domainColumns : String := "id, name, description, system_id, created_at, updated_at"

def selectDomains (rest : String) : String := "SELECT " ++ domainColumns ++ " FROM domain" ++ rest

def domainById (id : Int32) : Query Domain :=
  make (selectDomains " WHERE id = $1") [.int32 id] (first Row.domain .domainNotFound)

def domainsByIds (ids : List Int32) : Query (List Domain) :=
  make (selectDomains (" WHERE id = ANY($1)" ++ newestFirst)) [.ids ids] (all Row.domain)

def domainsBySystem (systemId : Int32) : Query (List Domain) :=
  make (selectDomains (" WHERE system_id = $1" ++ newestFirst)) [.int32 systemId]
    (all Row.domain)

def domainByName (name : String) (systemId : Int32) : Query Domain :=
  make (selectDomains " WHERE name = $1 AND system_id = $2") [.text name, .int32 systemId]
    (first Row.domain .domainNotFound)

def createDomain (name description : String) (systemId : Int32) : Query Domain :=
  make
    ("INSERT INTO domain (name, description, system_id) VALUES ($1, $2, $3)" ++
      returning domainColumns)
    [.text name, .text description, .int32 systemId] (one Row.domain)

def updateDomain (id : Int32) (name description : String) : Query Domain :=
  make
    ("UPDATE domain SET name = $2, description = $3, updated_at = now() WHERE id = $1" ++
      returning domainColumns)
    [.int32 id, .text name, .text description] (first Row.domain .domainNotFound)

def deleteDomains (ids : List Int32) : Query Nat :=
  make "DELETE FROM domain WHERE id = ANY($1)" [.ids ids] affected

/-! ## Application groups -/

def groupColumns : String := "id, name, description, domain_id, created_at, updated_at"

def selectGroups (rest : String) : String :=
  "SELECT " ++ groupColumns ++ " FROM app_group" ++ rest

def groupById (id : Int32) : Query AppGroup :=
  make (selectGroups " WHERE id = $1") [.int32 id] (first Row.group .appGroupNotFound)

def groupsByIds (ids : List Int32) : Query (List AppGroup) :=
  make (selectGroups (" WHERE id = ANY($1)" ++ newestFirst)) [.ids ids] (all Row.group)

def groupsByDomains (domainIds : List Int32) : Query (List AppGroup) :=
  make (selectGroups (" WHERE domain_id = ANY($1)" ++ newestFirst)) [.ids domainIds]
    (all Row.group)

def allGroups : Query (List AppGroup) := make (selectGroups newestFirst) [] (all Row.group)

def groupByName (name : String) (domainId : Int32) : Query AppGroup :=
  make (selectGroups " WHERE name = $1 AND domain_id = $2") [.text name, .int32 domainId]
    (first Row.group .appGroupNotFound)

def createGroup (name description : String) (domainId : Int32) : Query AppGroup :=
  make
    ("INSERT INTO app_group (name, description, domain_id) VALUES ($1, $2, $3)" ++
      returning groupColumns)
    [.text name, .text description, .int32 domainId] (one Row.group)

def updateGroup (id : Int32) (name description : String) : Query AppGroup :=
  make
    ("UPDATE app_group SET name = $2, description = $3, updated_at = now() WHERE id = $1" ++
      returning groupColumns)
    [.int32 id, .text name, .text description] (first Row.group .appGroupNotFound)

def deleteGroups (ids : List Int32) : Query Nat :=
  make "DELETE FROM app_group WHERE id = ANY($1)" [.ids ids] affected

/-! ## Applications -/

def applicationColumns : String :=
  "id, name, description, application_group_id, type, created_at, updated_at"

def selectApplications (rest : String) : String :=
  "SELECT " ++ applicationColumns ++ " FROM application" ++ rest

/-- The first application, once its row is read. -/
def firstApplication (missing : Failure) (r : Reply) : Except Failure Application := do
  (← Reply.first Row.application missing r).record

/-- All applications, once all their rows are read. -/
def everyApplication (r : Reply) : Except Failure (List Application) := do
  (← Reply.all Row.application r).mapM fun a => a.record

def applicationById (id : Int32) : Query Application :=
  make (selectApplications " WHERE id = $1") [.int32 id] (firstApplication .applicationNotFound)

def applicationsByIds (ids : List Int32) : Query (List Application) :=
  make (selectApplications (" WHERE id = ANY($1)" ++ newestFirst)) [.ids ids] everyApplication

def applicationsByGroups (groupIds : List Int32) : Query (List Application) :=
  make (selectApplications (" WHERE application_group_id = ANY($1)" ++ newestFirst))
    [.ids groupIds] everyApplication

def applicationByName (name : String) (groupId : Int32) : Query Application :=
  make (selectApplications " WHERE name = $1 AND application_group_id = $2")
    [.text name, .int32 groupId] (firstApplication .applicationNotFound)

def allApplications : Query (List Application) :=
  make (selectApplications newestFirst) [] everyApplication

def nextApplicationId : Query Int32 :=
  make "SELECT COALESCE(MAX(id) + 1, 1) FROM application" []
    (one fun row => row.only "coalesce" Row.int32)

def createApplication (app : NewApplication) : Query Application :=
  make
    ("INSERT INTO application (id, name, description, application_group_id, type)" ++
      " VALUES ($1, $2, $3, $4, $5)" ++ returning applicationColumns)
    [.int32 app.id, .text app.name, .text app.description, .int32 app.applicationGroupId,
      .text app.type.text]
    (firstApplication Error.rowMissing.toFailure)

def updateApplication (oldId newId : Int32) (name description : String) : Query Application :=
  make
    ("UPDATE application SET id = $2, name = $3, description = $4, updated_at = now()" ++
      " WHERE id = $1" ++ returning applicationColumns)
    [.int32 oldId, .int32 newId, .text name, .text description]
    (firstApplication .applicationNotFound)

def deleteApplications (ids : List Int32) : Query Nat :=
  make "DELETE FROM application WHERE id = ANY($1)" [.ids ids] affected

/-! ## Tokens -/

def selectTokens (rest : String) : String :=
  "SELECT token, app_id, expire_time, created_at FROM token" ++ rest

def tokenByText (token : String) : Query Token :=
  make (selectTokens " WHERE token = $1") [.text token] (first Row.token .tokenNotFound)

def tokensByApplication (appId : Int32) : Query (List Token) :=
  make (selectTokens " WHERE app_id = $1 ORDER BY created_at DESC") [.int32 appId]
    (all Row.token)

def tokensByApplications (appIds : List Int32) : Query (List Token) :=
  make (selectTokens " WHERE app_id = ANY($1) ORDER BY created_at DESC") [.ids appIds]
    (all Row.token)

def authData (token : String) : Query AuthData :=
  make
    ("SELECT a.id AS app_id, a.name AS app_name, g.id AS application_group_id," ++
      " d.id AS domain_id, d.system_id, t.expire_time, t.created_at FROM token t" ++
      " JOIN application a ON a.id = t.app_id JOIN app_group g ON g.id = a.application_group_id" ++
      " JOIN domain d ON d.id = g.domain_id WHERE t.token = $1")
    [.text token] (first Row.authData .tokenNotFound)

def saveToken (t : Token) : Query Unit :=
  make "INSERT INTO token (token, app_id, expire_time, created_at) VALUES ($1, $2, $3, $4)"
    [.text t.token, .int32 t.appId, .int64 t.expireTime, .instant t.createdAt]
    fun r => r.affected.map fun _ => ()

def deleteTokens (appId : Int32) (tokens : List String) : Query Nat :=
  make "DELETE FROM token WHERE app_id = $1 AND token = ANY($2)" [.int32 appId, .texts tokens]
    affected

/-! ## Permissions -/

def selectAccessLists (rest : String) : String :=
  "SELECT app_id, method, value FROM access_list" ++ rest

def accessLists (appId : Int32) : Query (List AccessList) :=
  make (selectAccessLists " WHERE app_id = $1 ORDER BY method") [.int32 appId]
    (all Row.accessList)

def accessList (appId : Int32) (method : String) : Query AccessList :=
  make (selectAccessLists " WHERE app_id = $1 AND method = $2") [.int32 appId, .text method]
    (first Row.accessList .accessListNotFound)

def upsertAccessList (row : AccessList) : Query Nat :=
  make
    ("INSERT INTO access_list (app_id, method, value) VALUES ($1, $2, $3)" ++
      " ON CONFLICT (app_id, method) DO UPDATE SET value = EXCLUDED.value")
    [.int32 row.appId, .text row.method, .bool row.value] affected

def deleteAccessLists (appId : Int32) : Query Nat :=
  make "DELETE FROM access_list WHERE app_id = $1" [.int32 appId] affected

def deleteAccessListMethods (appId : Int32) (methods : List String) : Query Nat :=
  make "DELETE FROM access_list WHERE app_id = $1 AND method = ANY($2)"
    [.int32 appId, .texts methods] affected

/-- Adds rows of one application, which is that of the first row. -/
def insertAccessLists (appId : Int32) (rows : List AccessList) : Query Nat :=
  make
    ("INSERT INTO access_list (app_id, method, value) SELECT $1::integer, m, v" ++
      " FROM UNNEST($2::text[], $3::bool[]) AS t(m, v)")
    [.int32 appId, .texts (rows.map AccessList.method), .bools (rows.map AccessList.value)]
    affected

/-! ## The lock, and the probe -/

def tryLock (key : Int64) : Query Bool :=
  make "SELECT pg_try_advisory_xact_lock($1)" [.int64 key]
    (one fun row => row.only "pg_try_advisory_xact_lock" Row.bool)

def ping : Query Unit := make "SELECT 1" [] fun r => r.affected.map fun _ => ()

/-- The statement of a transaction's call; adding no rows needs none. -/
def ofCapability {u : UseCase} {γ : Type} : Capability u γ → Except γ (Query γ)
  | .upsert row => .ok (upsertAccessList row)
  | .deleteByAppId appId => .ok (deleteAccessLists appId)
  | .deleteByAppIdAndMethods appId methods => .ok (deleteAccessListMethods appId methods)
  | .insertAll [] => .error 0
  | .insertAll (row :: rows) => .ok (insertAccessLists row.appId (row :: rows))
  | .getByAppId appId => .ok (accessLists appId)
  | .deleteByIdList ids => .ok (deleteApplications ids)
  | .save token => .ok (saveToken token)
  | .deleteByAppIdAndTokens appId tokens => .ok (deleteTokens appId tokens)
  | .tryLock key => .ok (tryLock key)
  | .getToken token => .ok (tokenByText token)
  | .createDomain name description systemId => .ok (createDomain name description systemId)
  | .createAppGroup name description domainId => .ok (createGroup name description domainId)
  | .createApplication app => .ok (createApplication app)
  | .saveToken token => .ok (saveToken token)
  | .upsertAccessList row => .ok (upsertAccessList row)

end Query

end Sql
end AccessRegistry
