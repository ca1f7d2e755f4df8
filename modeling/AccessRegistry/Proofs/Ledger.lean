import AccessRegistry.Proofs.History

/-!
# AccessRegistry.Proofs.Ledger

What a history says about the registry, without any tables: which domains, groups and applications
there are and where they belong, and what every application may call. `Ledger.ofHistory` reads it
off the events, by what each operation means.

* `Ledger`        — finite maps as functions, and the next ids.
* `Ledger.record` — what an operation that succeeded means.
* `Tables.ledger` — the ledger that tables hold.
-/

namespace AccessRegistry

/-- An application's name and the group it belongs to. -/
structure Place where
  name : String
  group : Int32
deriving DecidableEq, Repr

@[ext]
structure Ledger where
  /-- the system of every domain -/
  domains : Int32 → Option Int32
  /-- the domain of every group -/
  groups : Int32 → Option Int32
  applications : Int32 → Option Place
  permissions : Int32 → String → Option Bool
  nextDomain : Int32
  nextGroup : Int32

/-- The domains, groups and applications that a deletion names. -/
structure Removal where
  domains : List Int32 := []
  groups : List Int32 := []
  applications : List Int32 := []

/-- What an operation deletes. -/
def Operation.removal {α : Type} : Operation α → Removal
  | .deleteDomains ids => { domains := ids }
  | .deleteGroups ids => { groups := ids }
  | .deleteApplications ids => { applications := ids }
  | _ => {}

namespace Ledger

def empty : Ledger := ⟨fun _ => none, fun _ => none, fun _ => none, fun _ _ => none, 1, 1⟩

def addDomain (l : Ledger) (systemId : Int32) : Ledger :=
  { l with
    domains := fun d => if d = l.nextDomain then some systemId else l.domains d
    nextDomain := l.nextDomain + 1 }

def addGroup (l : Ledger) (domainId : Int32) : Ledger :=
  { l with
    groups := fun g => if g = l.nextGroup then some domainId else l.groups g
    nextGroup := l.nextGroup + 1 }

def addApplication (l : Ledger) (id : Int32) (place : Place) : Ledger :=
  { l with applications := fun a => if a = id then some place else l.applications a }

/-- An application gets another name, and another id for itself and its permissions. -/
def moveApplication (l : Ledger) (oldId newId : Int32) (name : String) : Ledger :=
  { l with
    applications := fun a =>
      if a = newId then (l.applications oldId).map fun p => { p with name }
      else if a = oldId then none else l.applications a
    permissions := fun a m =>
      if a = newId then l.permissions oldId m
      else if a = oldId then none else l.permissions a m }

/-- Whether a group goes, by itself or with its domain. -/
def groupGone (l : Ledger) (r : Removal) (g : Int32) : Bool :=
  r.groups.contains g || (l.groups g).any r.domains.contains

/-- Whether an application goes, by itself or with its group. -/
def applicationGone (l : Ledger) (r : Removal) (a : Int32) : Bool :=
  r.applications.contains a || (l.applications a).any fun p => l.groupGone r p.group

/-- Removes what a deletion names and everything under it. -/
def remove (l : Ledger) (r : Removal) : Ledger :=
  { l with
    domains := fun d => if r.domains.contains d then none else l.domains d
    groups := fun g => if l.groupGone r g then none else l.groups g
    applications := fun a => if l.applicationGone r a then none else l.applications a
    permissions := fun a m => if l.applicationGone r a then none else l.permissions a m }

/-- Writes one permission. -/
def allow (l : Ledger) (appId : Int32) (method : String) (value : Bool) : Ledger :=
  { l with
    permissions := fun a m => if a = appId ∧ m = method then some value else l.permissions a m }

/-- Drops the permissions of an application for some methods. -/
def forget (l : Ledger) (appId : Int32) (listed : String → Bool) : Ledger :=
  { l with
    permissions := fun a m => if a = appId ∧ listed m then none else l.permissions a m }

/-- Writes permissions one after another. -/
def allowAll (l : Ledger) (appId : Int32) (entries : List MethodValue) : Ledger :=
  entries.foldl (fun l e => l.allow appId e.method e.value) l

theorem allowAll_eq (l : Ledger) (appId : Int32) (entries : List MethodValue) :
    l.allowAll appId entries =
      { l with
        permissions := fun a m =>
          entries.foldl (fun v e => if a = appId ∧ m = e.method then some e.value else v)
            (l.permissions a m) } := by
  induction entries generalizing l with
  | nil => rfl
  | cons e entries ih => exact ih (l.allow appId e.method e.value)

/-- What is written does not depend on what was there before. -/
theorem allowAll_forget (l : Ledger) (appId : Int32) (entries : List MethodValue) :
    (l.forget appId (entries.map MethodValue.method).contains).allowAll appId entries =
      l.allowAll appId entries := by
  have hfold (a : Int32) (m : String) (v : Option Bool) :
      entries.foldl (fun v e => if a = appId ∧ m = e.method then some e.value else v)
          (if a = appId ∧ (entries.map MethodValue.method).contains m then none else v) =
        entries.foldl (fun v e => if a = appId ∧ m = e.method then some e.value else v) v := by
    induction entries generalizing v with
    | nil => simp
    | cons e entries ih =>
      simp only [List.foldl_cons]
      by_cases he : a = appId ∧ m = e.method
      · simp only [if_pos he]
      · have hlisted : (a = appId ∧ ((e :: entries).map MethodValue.method).contains m) ↔
            a = appId ∧ (entries.map MethodValue.method).contains m := by
          simp only [List.contains_iff_mem, List.map_cons, List.mem_cons]
          grind
        simp only [if_neg he, hlisted]
        exact ih v
  rw [allowAll_eq, allowAll_eq]
  exact Ledger.ext rfl rfl rfl (funext fun a => funext fun m => hfold a m _) rfl rfl

/-- What an operation means that succeeded with an answer. Those that only read mean nothing, and
tokens are not in the ledger. -/
def record (l : Ledger) {α : Type} : Operation α → α → Ledger
  | .writeDomain req, _ => if req.id = 0 then l.addDomain req.systemId else l
  | .deleteDomains ids, _ => l.remove { domains := ids }
  | .createGroup req, _ => l.addGroup (req.domainId.getD defaultDomainId)
  | .writeGroup req, _ =>
    if req.id = 0 then l.addGroup (req.domainId.getD defaultDomainId) else l
  | .deleteGroups ids, _ => l.remove { groups := ids }
  | .createApplication req, _ => l.addApplication req.id ⟨req.name, req.applicationGroupId⟩
  | .updateApplication req, _ => l.moveApplication req.oldId req.newId req.name
  | .writeApplication req, out =>
    if req.id = 0 then l.addApplication out.app.id ⟨req.name, req.applicationGroupId⟩
    else l.moveApplication req.id req.id req.name
  | .deleteApplications ids, _ => l.remove { applications := ids }
  | .setPermission row, _ => l.allow row.appId row.method row.value
  | .setPermissions req, _ =>
    (if req.removeOld then l.forget req.appId fun _ => true else l).allowAll req.appId req.methods
  | .deletePermissions appId methods, _ => l.forget appId methods.contains
  | .provision _, .provisioned =>
    let l' := (l.addDomain defaultSystemId).addGroup l.nextDomain
    (l'.addApplication Provisioning.adminAppId ⟨Provisioning.adminAppName, l.nextGroup⟩).allow
      Provisioning.adminAppId Provisioning.adminLoginMethod true
  | _, _ => l

/-- The ledger after an event; a failure means nothing. -/
def afterEvent (l : Ledger) (e : Event) : Ledger :=
  match e.result with
  | .ok x => l.record e.op x
  | .error _ => l

def ofHistory : List Event → Ledger
  | [] => empty
  | e :: earlier => (ofHistory earlier).afterEvent e

end Ledger

/-- The ledger that tables hold. -/
def Tables.ledger (t : Tables) : Ledger where
  domains d := (t.domains.find? d).map Domain.systemId
  groups g := (t.groups.find? g).map AppGroup.domainId
  applications a := (t.applications.find? a).map fun app => ⟨app.name, app.applicationGroupId⟩
  permissions a m := (t.accessLists.find? ⟨a, m⟩).map AccessList.value
  nextDomain := t.nextDomainId
  nextGroup := t.nextGroupId

namespace Tables

variable (t : Tables)

@[simp]
theorem ledger_domains (d : Int32) :
    t.ledger.domains d = (t.domains.find? d).map Domain.systemId := rfl

@[simp]
theorem ledger_groups (g : Int32) :
    t.ledger.groups g = (t.groups.find? g).map AppGroup.domainId := rfl

@[simp]
theorem ledger_applications (a : Int32) : t.ledger.applications a =
    (t.applications.find? a).map fun app => ⟨app.name, app.applicationGroupId⟩ := rfl

@[simp]
theorem ledger_permissions (a : Int32) (m : String) :
    t.ledger.permissions a m = (t.accessLists.find? ⟨a, m⟩).map AccessList.value := rfl

end Tables

end AccessRegistry
