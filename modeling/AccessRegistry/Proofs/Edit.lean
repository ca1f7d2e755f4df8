import AccessRegistry.Proofs.Change

/-!
# AccessRegistry.Proofs.Edit

`Tables.Edit t t'` says once what one statement can do to the tables: nothing, or one of a dozen
kinds of edit, each with what the statement has made sure of before. Every change is an edit
(`perform_edit` for the statements of transactions), so whatever every edit keeps, every change
keeps.
-/

namespace AccessRegistry
namespace Tables

inductive Edit (t : Tables) : Tables → Prop where
  | nothing : Edit t t
  | addDomain {row : Domain} (hid : row.id = t.nextDomainId)
      (hsystem : row.systemId = defaultSystemId)
      (hfree : ∀ d ∈ t.domains, d.name = row.name → d.systemId ≠ row.systemId) :
      Edit t { t with nextDomainId := t.nextDomainId + 1, domains := t.domains.insert row }
  | renameDomain {current : Domain} {name description : String} {now : Instant}
      (hcurrent : current ∈ t.domains)
      (hfree : ∀ d ∈ t.domains, d.id ≠ current.id → d.name = name →
        d.systemId ≠ current.systemId) :
      Edit t { t with
        domains := t.domains.insert { current with name, description, updatedAt := now } }
  | removeDomains (ids : List Int32) :
      Edit t (sweepOrphans { t with domains := (t.domains.eraseAll ids).1 })
  | addGroup {row : AppGroup} (hid : row.id = t.nextGroupId)
      (hparent : t.domains.contains row.domainId)
      (hfree : ∀ g ∈ t.groups, g.name = row.name → g.domainId ≠ row.domainId) :
      Edit t { t with nextGroupId := t.nextGroupId + 1, groups := t.groups.insert row }
  | renameGroup {current : AppGroup} {name description : String} {now : Instant}
      (hcurrent : current ∈ t.groups)
      (hfree : ∀ g ∈ t.groups, g.id ≠ current.id → g.name = name →
        g.domainId ≠ current.domainId) :
      Edit t { t with
        groups := t.groups.insert { current with name, description, updatedAt := now } }
  | removeGroups (ids : List Int32) :
      Edit t (sweepOrphans { t with groups := (t.groups.eraseAll ids).1 })
  | addApplication {row : Application} (hid : ¬ t.applications.contains row.id)
      (hparent : t.groups.contains row.applicationGroupId)
      (hfree : ∀ a ∈ t.applications, a.name = row.name →
        a.applicationGroupId ≠ row.applicationGroupId) :
      Edit t { t with applications := t.applications.insert row }
  /-- Renames an application where it is. -/
  | renameApplication {current : Application} {name description : String} {now : Instant}
      (hcurrent : current ∈ t.applications)
      (hfree : ∀ a ∈ t.applications, a.id ≠ current.id → a.name = name →
        a.applicationGroupId ≠ current.applicationGroupId) :
      Edit t { t with
        applications := (t.applications.erase current.id).insert
          { current with name, description, updatedAt := now } }
  /-- Renames an application and moves it to an unused id. -/
  | moveApplication {current : Application} {newId : Int32} {name description : String}
      {now : Instant} (hcurrent : current ∈ t.applications)
      (hid : ¬ t.applications.contains newId)
      (hfree : ∀ a ∈ t.applications, a.id ≠ current.id → a.name = name →
        a.applicationGroupId ≠ current.applicationGroupId) :
      Edit t (moveChildren current.id newId { t with
        applications := (t.applications.erase current.id).insert
          { current with id := newId, name, description, updatedAt := now } })
  | removeApplications (ids : List Int32) :
      Edit t (sweepOrphans { t with applications := (t.applications.eraseAll ids).1 })
  | addToken {row : Token} (hfresh : ¬ t.tokens.contains row.token)
      (howner : t.applications.contains row.appId) :
      Edit t { t with tokens := t.tokens.insert row }
  | removeTokens (texts : List String) :
      Edit t { t with tokens := (t.tokens.eraseAll texts).1 }
  | putPermissions {rows : List AccessList}
      (howner : ∀ a ∈ rows, t.applications.contains a.appId) :
      Edit t { t with accessLists := t.accessLists.insertAll rows }
  | removePermissions (p : AccessList → Bool) :
      Edit t { t with accessLists := t.accessLists.filter p }

variable {t : Tables}

/-! ## Changes are edits -/

/-- A change that changes nothing when it fails is an edit if its successes are. -/
theorem Change.Atomic.edit {α : Type} {c : Change α} (hc : c.Atomic)
    (h : ∀ x t', c.apply t = (.ok x, t') → Edit t t') : Edit t (c.apply t).2 := by
  rcases hrun : c.apply t with ⟨e | x, t'⟩
  · rw [hc t t' e hrun]
    exact .nothing
  · exact h x t' hrun

theorem createDomain_edit (now : Instant) (name description : String) (systemId : Int32) :
    Edit t ((createDomain now name description systemId).apply t).2 := by
  refine (createDomain_atomic now name description systemId).edit fun row t' h => ?_
  obtain ⟨hfree, hsystem, rfl, rfl⟩ := createDomain_ok h
  exact .addDomain rfl hsystem hfree

theorem updateDomain_edit (now : Instant) (id : Int32) (name description : String) :
    Edit t ((updateDomain now id name description).apply t).2 := by
  refine (updateDomain_atomic now id name description).edit fun row t' h => ?_
  obtain ⟨current, hcurrent, rfl, hfree, rfl, rfl⟩ := updateDomain_ok h
  exact .renameDomain hcurrent hfree

theorem createGroup_edit (now : Instant) (name description : String) (domainId : Int32) :
    Edit t ((createGroup now name description domainId).apply t).2 := by
  refine (createGroup_atomic now name description domainId).edit fun row t' h => ?_
  obtain ⟨hfree, hparent, rfl, rfl⟩ := createGroup_ok h
  exact .addGroup rfl hparent hfree

theorem updateGroup_edit (now : Instant) (id : Int32) (name description : String) :
    Edit t ((updateGroup now id name description).apply t).2 := by
  refine (updateGroup_atomic now id name description).edit fun row t' h => ?_
  obtain ⟨current, hcurrent, rfl, hfree, rfl, rfl⟩ := updateGroup_ok h
  exact .renameGroup hcurrent hfree

theorem createApplication_edit (now : Instant) (app : NewApplication) :
    Edit t ((createApplication now app).apply t).2 := by
  refine (createApplication_atomic now app).edit fun row t' h => ?_
  obtain ⟨hid, hfree, hparent, rfl, rfl⟩ := createApplication_ok h
  exact .addApplication hid hparent hfree

theorem updateApplication_edit (now : Instant) (oldId newId : Int32)
    (name description : String) :
    Edit t ((updateApplication now oldId newId name description).apply t).2 := by
  refine (updateApplication_atomic now oldId newId name description).edit fun row t' h => ?_
  obtain ⟨current, hcurrent, rfl, hid, hfree, rfl, rfl⟩ := updateApplication_ok h
  dsimp only
  split
  · rename_i hsame
    subst hsame
    exact .renameApplication hcurrent hfree
  · rename_i hmoved
    exact .moveApplication hcurrent (hid hmoved) hfree

theorem saveToken_edit (token : Token) : Edit t ((saveToken token).apply t).2 := by
  refine (saveToken_atomic token).edit fun _ t' h => ?_
  obtain ⟨hfresh, howner, rfl⟩ := saveToken_ok h
  exact .addToken hfresh howner

theorem upsertAccessList_edit (row : AccessList) :
    Edit t ((upsertAccessList row).apply t).2 := by
  refine (upsertAccessList_atomic row).edit fun n t' h => ?_
  obtain ⟨howner, rfl⟩ := upsertAccessList_ok h
  exact @Edit.putPermissions t [row] (by simpa using howner)

theorem insertAccessLists_edit (rows : List AccessList) :
    Edit t ((insertAccessLists rows).apply t).2 := by
  rw [apply_insertAccessLists]
  rcases @apply_forM_insertAccessList t rows with ⟨f, added, _, howner, h⟩ | ⟨hrows, _, h⟩
  · rw [h]
    exact .putPermissions howner
  · rw [h]
    exact .putPermissions fun a ha => (hrows a ha).1

theorem perform_edit {u : UseCase} {γ : Type} (now : Instant) (c : Capability u γ) :
    Edit t ((perform now c).apply t).2 := by
  cases c with
  | upsert row => exact upsertAccessList_edit row
  | deleteByAppId appId => exact .removePermissions _
  | deleteByAppIdAndMethods appId methods => exact .removePermissions _
  | insertAll rows => exact insertAccessLists_edit rows
  | getByAppId appId => exact .nothing
  | deleteByIdList ids => exact .removeApplications ids
  | save token => exact saveToken_edit token
  | deleteByAppIdAndTokens appId tokens => exact .removeTokens _
  | tryLock key => exact .nothing
  | getToken text =>
    simp only [perform, Change.apply_get_bind, Change.apply_liftExcept]
    exact .nothing
  | createDomain name description systemId => exact createDomain_edit now name description systemId
  | createAppGroup name description domainId => exact createGroup_edit now name description domainId
  | createApplication app => exact createApplication_edit now app
  | saveToken token => exact saveToken_edit token
  | upsertAccessList row => exact upsertAccessList_edit row

/-! ## Changes that leave the tokens alone -/

theorem Change.Atomic.tokens_eq {α : Type} {c : Change α} (hc : c.Atomic)
    (h : ∀ x t', c.apply t = (.ok x, t') → t'.tokens = t.tokens) :
    (c.apply t).2.tokens = t.tokens := by
  rcases hrun : c.apply t with ⟨e | x, t'⟩
  · rw [hc t t' e hrun]
  · exact h x t' hrun

theorem Change.tokens_of_ok {α : Type} {c : Change α} {x : α} {t' : Tables}
    (h : c.apply t = (.ok x, t')) (hc : (c.apply t).2.tokens = t.tokens) : t'.tokens = t.tokens := by
  rwa [h] at hc

theorem createDomain_tokens (now : Instant) (name description : String) (systemId : Int32) :
    ((createDomain now name description systemId).apply t).2.tokens = t.tokens := by
  refine (createDomain_atomic now name description systemId).tokens_eq fun _ _ h => ?_
  obtain ⟨_, _, _, rfl⟩ := createDomain_ok h
  rfl

theorem updateDomain_tokens (now : Instant) (id : Int32) (name description : String) :
    ((updateDomain now id name description).apply t).2.tokens = t.tokens := by
  refine (updateDomain_atomic now id name description).tokens_eq fun _ _ h => ?_
  obtain ⟨_, _, _, _, _, rfl⟩ := updateDomain_ok h
  rfl

theorem createGroup_tokens (now : Instant) (name description : String) (domainId : Int32) :
    ((createGroup now name description domainId).apply t).2.tokens = t.tokens := by
  refine (createGroup_atomic now name description domainId).tokens_eq fun _ _ h => ?_
  obtain ⟨_, _, _, rfl⟩ := createGroup_ok h
  rfl

theorem updateGroup_tokens (now : Instant) (id : Int32) (name description : String) :
    ((updateGroup now id name description).apply t).2.tokens = t.tokens := by
  refine (updateGroup_atomic now id name description).tokens_eq fun _ _ h => ?_
  obtain ⟨_, _, _, _, _, rfl⟩ := updateGroup_ok h
  rfl

theorem createApplication_tokens (now : Instant) (app : NewApplication) :
    ((createApplication now app).apply t).2.tokens = t.tokens := by
  refine (createApplication_atomic now app).tokens_eq fun _ _ h => ?_
  obtain ⟨_, _, _, _, rfl⟩ := createApplication_ok h
  rfl

theorem upsertAccessList_tokens (row : AccessList) :
    ((upsertAccessList row).apply t).2.tokens = t.tokens := by
  refine (upsertAccessList_atomic row).tokens_eq fun _ _ h => ?_
  obtain ⟨_, rfl⟩ := upsertAccessList_ok h
  rfl

theorem insertAccessLists_tokens (rows : List AccessList) :
    ((insertAccessLists rows).apply t).2.tokens = t.tokens := by
  rw [apply_insertAccessLists]
  rcases @apply_forM_insertAccessList t rows with ⟨_, _, _, _, h⟩ | ⟨_, _, h⟩ <;> rw [h]

theorem renamed_tokens (now : Instant) (id : Int32) (name description : String) :
    ((updateApplication now id id name description).apply t).2.tokens = t.tokens := by
  refine (updateApplication_atomic now id id name description).tokens_eq fun _ _ h => ?_
  obtain ⟨_, _, _, _, _, _, rfl⟩ := updateApplication_ok h
  dsimp only
  rw [if_pos rfl]

end Tables
end AccessRegistry
