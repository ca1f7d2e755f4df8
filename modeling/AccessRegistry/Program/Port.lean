import AccessRegistry.Program.Basic
import AccessRegistry.Record.Decision

/-!
# AccessRegistry.Program.Port

The calls that the rules of the registry make on its storage.

* `Capability u` — the statements that a transaction of the use case `u` may issue. No use case has
  more than it needs.
* `Port`         — the calls outside transactions, one statement each, and transactions as a whole.
  A transaction takes effect if its work succeeds and leaves nothing behind if the work fails.
-/

namespace AccessRegistry

inductive UseCase where
  | accessListSetOne
  | accessListSetList
  | applicationDelete
  | tokenCreate
  | tokenRevoke
  | baseline
deriving DecidableEq, Repr

inductive Capability : UseCase → Type → Type where
  /-- writes a permission, replacing an earlier one -/
  | upsert (row : AccessList) : Capability .accessListSetOne Nat
  /-- removes the permissions of an application -/
  | deleteByAppId (appId : Int32) : Capability .accessListSetList Nat
  /-- removes the permissions of an application for some methods -/
  | deleteByAppIdAndMethods (appId : Int32) (methods : List String) :
      Capability .accessListSetList Nat
  /-- adds permissions, none of which may be there already -/
  | insertAll (rows : List AccessList) : Capability .accessListSetList Nat
  /-- the permissions of an application, by method -/
  | getByAppId (appId : Int32) : Capability .accessListSetList (List AccessList)
  /-- removes applications and what belongs to them -/
  | deleteByIdList (ids : List Int32) : Capability .applicationDelete Nat
  /-- stores a token -/
  | save (token : Token) : Capability .tokenCreate Unit
  /-- removes tokens of an application -/
  | deleteByAppIdAndTokens (appId : Int32) (tokens : List String) : Capability .tokenRevoke Nat
  /-- takes a lock for the rest of the transaction, or answers that it is taken -/
  | tryLock (key : Int64) : Capability .baseline Bool
  | getToken (token : String) : Capability .baseline Token
  | createDomain (name description : String) (systemId : Int32) : Capability .baseline Domain
  | createAppGroup (name description : String) (domainId : Int32) : Capability .baseline AppGroup
  | createApplication (app : NewApplication) : Capability .baseline Application
  | saveToken (token : Token) : Capability .baseline Unit
  | upsertAccessList (row : AccessList) : Capability .baseline Nat

/-- What a transaction of a use case does. -/
abbrev Work (u : UseCase) (α : Type) := Action (Capability u) α

inductive Port : Type → Type 1 where
  /-- whether the storage answers at all -/
  | ping : Port Unit
  | domainById (id : Int32) : Port Domain
  | domainsByIds (ids : List Int32) : Port (List Domain)
  | domainsBySystem (systemId : Int32) : Port (List Domain)
  | domainByName (name : String) (systemId : Int32) : Port Domain
  | createDomain (name description : String) (systemId : Int32) : Port Domain
  | updateDomain (id : Int32) (name description : String) : Port Domain
  | deleteDomains (ids : List Int32) : Port Nat
  | groupById (id : Int32) : Port AppGroup
  | groupsByIds (ids : List Int32) : Port (List AppGroup)
  | groupsByDomains (domainIds : List Int32) : Port (List AppGroup)
  | allGroups : Port (List AppGroup)
  | groupByName (name : String) (domainId : Int32) : Port AppGroup
  | createGroup (name description : String) (domainId : Int32) : Port AppGroup
  | updateGroup (id : Int32) (name description : String) : Port AppGroup
  | deleteGroups (ids : List Int32) : Port Nat
  | applicationById (id : Int32) : Port Application
  | applicationsByIds (ids : List Int32) : Port (List Application)
  | applicationsByGroups (groupIds : List Int32) : Port (List Application)
  | applicationByName (name : String) (groupId : Int32) : Port Application
  | allApplications : Port (List Application)
  | nextApplicationId : Port Int32
  | createApplication (app : NewApplication) : Port Application
  | updateApplication (id : Int32) (name description : String) : Port Application
  | updateApplicationId (oldId newId : Int32) (name description : String) : Port Application
  | tokenByText (token : String) : Port Token
  | tokensByApplication (appId : Int32) : Port (List Token)
  | tokensByApplications (appIds : List Int32) : Port (List Token)
  | authData (token : String) : Port AuthData
  | accessLists (appId : Int32) : Port (List AccessList)
  | accessList (appId : Int32) (method : String) : Port AccessList
  | deleteAccessLists (appId : Int32) (methods : List String) : Port Nat
  | transaction (u : UseCase) {α : Type} (work : Work u α) : Port α

namespace UseCase

def name : UseCase → String
  | .accessListSetOne => "access_list_set_one"
  | .accessListSetList => "access_list_set_list"
  | .applicationDelete => "application_delete"
  | .tokenCreate => "token_create"
  | .tokenRevoke => "token_revoke"
  | .baseline => "baseline"

def all : List UseCase :=
  [.accessListSetOne, .accessListSetList, .applicationDelete, .tokenCreate, .tokenRevoke, .baseline]

end UseCase

/-- The name of a call inside a transaction. -/
def Capability.name {u : UseCase} {γ : Type} : Capability u γ → String
  | .upsert .. => "upsert"
  | .deleteByAppId .. => "delete_by_app_id"
  | .deleteByAppIdAndMethods .. => "delete_by_app_id_and_methods"
  | .insertAll .. => "insert_all"
  | .getByAppId .. => "get_by_app_id"
  | .deleteByIdList .. => "delete_by_id_list"
  | .save .. => "save"
  | .deleteByAppIdAndTokens .. => "delete_by_app_id_and_tokens"
  | .tryLock .. => "try_lock"
  | .getToken .. => "get_token"
  | .createDomain .. => "create_domain"
  | .createAppGroup .. => "create_app_group"
  | .createApplication .. => "create_application"
  | .saveToken .. => "save_token"
  | .upsertAccessList .. => "upsert_access_list"

namespace Port

/-- The name of a call: its port and its method. -/
def name {γ : Type} : Port γ → String
  | .ping => "storage.ping"
  | .domainById .. => "domains.get_by_id"
  | .domainsByIds .. => "domains.get_by_id_list"
  | .domainsBySystem .. => "domains.get_by_system_id"
  | .domainByName .. => "domains.get_by_name_and_system_id"
  | .createDomain .. => "domains.create"
  | .updateDomain .. => "domains.update"
  | .deleteDomains .. => "domains.delete_by_id_list"
  | .groupById .. => "app_groups.get_by_id"
  | .groupsByIds .. => "app_groups.get_by_id_list"
  | .groupsByDomains .. => "app_groups.get_by_domain_ids"
  | .allGroups => "app_groups.get_all"
  | .groupByName .. => "app_groups.get_by_name_and_domain_id"
  | .createGroup .. => "app_groups.create"
  | .updateGroup .. => "app_groups.update"
  | .deleteGroups .. => "app_groups.delete_by_id_list"
  | .applicationById .. => "applications.get_by_id"
  | .applicationsByIds .. => "applications.get_by_id_list"
  | .applicationsByGroups .. => "applications.get_by_app_group_ids"
  | .applicationByName .. => "applications.get_by_name_and_app_group_id"
  | .allApplications => "applications.get_all"
  | .nextApplicationId => "applications.next_id"
  | .createApplication .. => "applications.create"
  | .updateApplication .. => "applications.update"
  | .updateApplicationId .. => "applications.update_with_new_id"
  | .tokenByText .. => "tokens.get_by_token"
  | .tokensByApplication .. => "tokens.get_by_app_id"
  | .tokensByApplications .. => "tokens.get_by_app_ids"
  | .authData .. => "tokens.select_auth_data_by_token"
  | .accessLists .. => "access_lists.get_by_app_id"
  | .accessList .. => "access_lists.get_by_app_id_and_method"
  | .deleteAccessLists .. => "access_lists.delete_by_app_id_and_methods"
  | .transaction u _ => "tx." ++ u.name ++ "_tx"

end Port

/-- The rules of the registry are actions over its storage. -/
abbrev Rule (α : Type) := Action Port α

end AccessRegistry
