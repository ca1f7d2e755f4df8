import AccessRegistry.Proofs.Table
import AccessRegistry.Store.World

/-!
# AccessRegistry.Proofs.Change

What each change does to the tables, as one equation (`apply_*`): the refusals in the order in which
they are tried, then the value and the tables of a success. For a change that checks something,
`*_atomic` and `*_ok` read it off: a failure changes nothing, and a success has made sure of all
this, returns this row and leaves these tables. Later proofs do not open the changes again.
-/

namespace AccessRegistry

@[simp]
theorem Domain.key_eq (d : Domain) : Keyed.key d = d.id := rfl

@[simp]
theorem AppGroup.key_eq (g : AppGroup) : Keyed.key g = g.id := rfl

@[simp]
theorem Application.key_eq (a : Application) : Keyed.key a = a.id := rfl

@[simp]
theorem Token.key_eq (k : Token) : Keyed.key k = k.token := rfl

@[simp]
theorem AccessList.key_eq (a : AccessList) : Keyed.key a = ⟨a.appId, a.method⟩ := rfl

theorem except_bind_ok {ε α β : Type} {x : Except ε α} {f : α → Except ε β} {b : β}
    (h : x >>= f = .ok b) : ∃ a, x = .ok a ∧ f a = .ok b := by
  cases x with
  | error e => cases h
  | ok a => exact ⟨a, rfl, h⟩

namespace Tables

variable {t t' : Tables}

namespace Change

variable {α β : Type}

@[simp]
theorem apply_pure (a : α) : (pure a : Change α).apply t = (.ok a, t) := rfl

/-- A change that fails leaves the tables as they were. -/
def Atomic (c : Change α) : Prop :=
  ∀ (t t' : Tables) (e : Failure), c.apply t = (.error e, t') → t' = t

theorem apply_bind (c : Change α) (f : α → Change β) :
    (c >>= f).apply t =
      match c.apply t with
      | (.ok a, s) => (f a).apply s
      | (.error e, s) => (.error e, s) := by
  simp only [apply, ExceptT.run_bind, StateT.run_bind]
  rcases (ExceptT.run c).run t with ⟨_ | a, s⟩ <;> rfl

/-- A sequence of changes succeeds step by step. -/
theorem apply_bind_ok {c : Change α} {f : α → Change β} {b : β} {t' : Tables} :
    (c >>= f).apply t = (.ok b, t') ↔
      ∃ a s, c.apply t = (.ok a, s) ∧ (f a).apply s = (.ok b, t') := by
  rw [apply_bind]
  rcases c.apply t with ⟨_ | a, s⟩ <;> simp

@[simp]
theorem apply_liftExcept (r : Except Failure α) :
    (liftExcept r : Change α).apply t = (r, t) := by
  cases r <;> rfl

@[simp]
theorem apply_get_bind (f : Tables → Change β) : (get >>= f).apply t = (f t).apply t := rfl

@[simp]
theorem apply_set_bind (s : Tables) (f : PUnit → Change β) :
    (set s >>= f).apply t = (f ⟨⟩).apply s := rfl

@[simp]
theorem apply_liftExcept_bind (r : Except Failure α) (f : α → Change β) :
    (liftExcept r >>= f).apply t =
      match r with
      | .ok a => (f a).apply t
      | .error e => (.error e, t) := by
  cases r <;> rfl

@[simp]
theorem apply_refuseIf_bind (condition : Bool) (e : Failure) (f : Unit → Change β) :
    (refuseIf condition e >>= f).apply t =
      if condition then (.error e, t) else (f ()).apply t := by
  cases condition <;> rfl

end Change

open Change

/-! ## Domains -/

theorem apply_createDomain (now : Instant) (name description : String) (systemId : Int32) :
    (createDomain now name description systemId).apply t =
      if t.domains.any fun d => d.name = name ∧ d.systemId = systemId then
        (.error .domainDuplicateName, t)
      else if systemId ≠ defaultSystemId then (.error .systemNotFound, t)
      else
        let row : Domain := ⟨t.nextDomainId, name, description, systemId, now, now⟩
        (.ok row,
          { t with nextDomainId := t.nextDomainId + 1, domains := t.domains.insert row }) := by
  simp only [createDomain, apply_get_bind, apply_refuseIf_bind, apply_set_bind, apply_pure,
    decide_eq_true_eq]

theorem createDomain_atomic (now : Instant) (name description : String) (systemId : Int32) :
    (createDomain now name description systemId).Atomic := by
  intro t t' e h
  rw [apply_createDomain] at h
  grind

theorem createDomain_ok {now : Instant} {name description : String} {systemId : Int32}
    {row : Domain} (h : (createDomain now name description systemId).apply t = (.ok row, t')) :
    (∀ d ∈ t.domains, d.name = name → d.systemId ≠ systemId) ∧ systemId = defaultSystemId ∧
      row = ⟨t.nextDomainId, name, description, systemId, now, now⟩ ∧
      t' = { t with nextDomainId := t.nextDomainId + 1, domains := t.domains.insert row } := by
  rw [apply_createDomain] at h
  split at h
  · cases h
  rename_i hname
  split at h
  · cases h
  rename_i hsystem
  cases h
  refine ⟨fun d hd heq hsys => hname ?_, not_not.1 hsystem, rfl, rfl⟩
  exact Table.any_iff.2 ⟨d, hd, by simp [heq, hsys]⟩

theorem apply_updateDomain (now : Instant) (id : Int32) (name description : String) :
    (updateDomain now id name description).apply t =
      match t.domains.find? id with
      | none => (.error .domainNotFound, t)
      | some current =>
        if t.domains.any fun d => d.id ≠ id ∧ d.name = name ∧ d.systemId = current.systemId then
          (.error .domainDuplicateName, t)
        else
          let row := { current with name, description, updatedAt := now }
          (.ok row, { t with domains := t.domains.insert row }) := by
  simp only [updateDomain, domain, apply_get_bind, apply_liftExcept_bind, apply_refuseIf_bind,
    apply_set_bind, apply_pure]
  cases t.domains.find? id <;> rfl

theorem updateDomain_atomic (now : Instant) (id : Int32) (name description : String) :
    (updateDomain now id name description).Atomic := by
  intro t t' e h
  rw [apply_updateDomain] at h
  cases t.domains.find? id <;> grind

theorem updateDomain_ok {now : Instant} {id : Int32} {name description : String} {row : Domain}
    (h : (updateDomain now id name description).apply t = (.ok row, t')) :
    ∃ current ∈ t.domains, current.id = id ∧
      (∀ d ∈ t.domains, d.id ≠ id → d.name = name → d.systemId ≠ current.systemId) ∧
      row = { current with name, description, updatedAt := now } ∧
      t' = { t with domains := t.domains.insert row } := by
  rw [apply_updateDomain] at h
  cases hcurrent : t.domains.find? id with
  | none =>
    rw [hcurrent] at h
    cases h
  | some current =>
    obtain ⟨hmem, hid⟩ := Table.find?_eq_some_iff.1 hcurrent
    rw [hcurrent] at h
    dsimp only at h
    split at h
    · cases h
    rename_i hname
    cases h
    refine ⟨current, hmem, hid, fun d hd hne heq hsys => hname ?_, rfl, rfl⟩
    exact Table.any_iff.2 ⟨d, hd, by simpa [heq, hsys] using hne⟩

theorem apply_deleteDomains (ids : List Int32) :
    (deleteDomains ids).apply t =
      (.ok (t.domains.eraseAll ids).2,
        sweepOrphans { t with domains := (t.domains.eraseAll ids).1 }) := rfl

/-! ## Groups -/

theorem apply_createGroup (now : Instant) (name description : String) (domainId : Int32) :
    (createGroup now name description domainId).apply t =
      if t.groups.any fun g => g.name = name ∧ g.domainId = domainId then
        (.error .appGroupDuplicateName, t)
      else if !t.domains.contains domainId then (.error .domainNotFound, t)
      else
        let row : AppGroup := ⟨t.nextGroupId, name, description, domainId, now, now⟩
        (.ok row, { t with nextGroupId := t.nextGroupId + 1, groups := t.groups.insert row }) := by
  simp only [createGroup, apply_get_bind, apply_refuseIf_bind, apply_set_bind, apply_pure]

theorem createGroup_atomic (now : Instant) (name description : String) (domainId : Int32) :
    (createGroup now name description domainId).Atomic := by
  intro t t' e h
  rw [apply_createGroup] at h
  grind

theorem createGroup_ok {now : Instant} {name description : String} {domainId : Int32}
    {row : AppGroup} (h : (createGroup now name description domainId).apply t = (.ok row, t')) :
    (∀ g ∈ t.groups, g.name = name → g.domainId ≠ domainId) ∧ t.domains.contains domainId ∧
      row = ⟨t.nextGroupId, name, description, domainId, now, now⟩ ∧
      t' = { t with nextGroupId := t.nextGroupId + 1, groups := t.groups.insert row } := by
  rw [apply_createGroup] at h
  split at h
  · cases h
  rename_i hname
  split at h
  · cases h
  rename_i hparent
  cases h
  refine ⟨fun g hg heq hdom => hname ?_, by simpa using hparent, rfl, rfl⟩
  exact Table.any_iff.2 ⟨g, hg, by simp [heq, hdom]⟩

theorem apply_updateGroup (now : Instant) (id : Int32) (name description : String) :
    (updateGroup now id name description).apply t =
      match t.groups.find? id with
      | none => (.error .appGroupNotFound, t)
      | some current =>
        if t.groups.any fun g => g.id ≠ id ∧ g.name = name ∧ g.domainId = current.domainId then
          (.error .appGroupDuplicateName, t)
        else
          let row := { current with name, description, updatedAt := now }
          (.ok row, { t with groups := t.groups.insert row }) := by
  simp only [updateGroup, group, apply_get_bind, apply_liftExcept_bind, apply_refuseIf_bind,
    apply_set_bind, apply_pure]
  cases t.groups.find? id <;> rfl

theorem updateGroup_atomic (now : Instant) (id : Int32) (name description : String) :
    (updateGroup now id name description).Atomic := by
  intro t t' e h
  rw [apply_updateGroup] at h
  cases t.groups.find? id <;> grind

theorem updateGroup_ok {now : Instant} {id : Int32} {name description : String} {row : AppGroup}
    (h : (updateGroup now id name description).apply t = (.ok row, t')) :
    ∃ current ∈ t.groups, current.id = id ∧
      (∀ g ∈ t.groups, g.id ≠ id → g.name = name → g.domainId ≠ current.domainId) ∧
      row = { current with name, description, updatedAt := now } ∧
      t' = { t with groups := t.groups.insert row } := by
  rw [apply_updateGroup] at h
  cases hcurrent : t.groups.find? id with
  | none =>
    rw [hcurrent] at h
    cases h
  | some current =>
    obtain ⟨hmem, hid⟩ := Table.find?_eq_some_iff.1 hcurrent
    rw [hcurrent] at h
    dsimp only at h
    split at h
    · cases h
    rename_i hname
    cases h
    refine ⟨current, hmem, hid, fun g hg hne heq hdom => hname ?_, rfl, rfl⟩
    exact Table.any_iff.2 ⟨g, hg, by simpa [heq, hdom] using hne⟩

theorem apply_deleteGroups (ids : List Int32) :
    (deleteGroups ids).apply t =
      (.ok (t.groups.eraseAll ids).2,
        sweepOrphans { t with groups := (t.groups.eraseAll ids).1 }) := rfl

/-! ## Applications -/

theorem apply_createApplication (now : Instant) (app : NewApplication) :
    (createApplication now app).apply t =
      if t.applications.contains app.id then (.error .applicationDuplicateId, t)
      else if t.applications.any fun a =>
          a.name = app.name ∧ a.applicationGroupId = app.applicationGroupId then
        (.error .applicationDuplicateName, t)
      else if !t.groups.contains app.applicationGroupId then (.error .appGroupNotFound, t)
      else
        let row : Application :=
          ⟨app.id, app.name, app.description, app.applicationGroupId, app.type, now, now⟩
        (.ok row, { t with applications := t.applications.insert row }) := by
  simp only [createApplication, apply_get_bind, apply_refuseIf_bind, apply_set_bind, apply_pure]

theorem createApplication_atomic (now : Instant) (app : NewApplication) :
    (createApplication now app).Atomic := by
  intro t t' e h
  rw [apply_createApplication] at h
  grind

theorem createApplication_ok {now : Instant} {app : NewApplication} {row : Application}
    (h : (createApplication now app).apply t = (.ok row, t')) :
    ¬ t.applications.contains app.id ∧
      (∀ a ∈ t.applications, a.name = app.name →
        a.applicationGroupId ≠ app.applicationGroupId) ∧
      t.groups.contains app.applicationGroupId ∧
      row = ⟨app.id, app.name, app.description, app.applicationGroupId, app.type, now, now⟩ ∧
      t' = { t with applications := t.applications.insert row } := by
  rw [apply_createApplication] at h
  split at h
  · cases h
  rename_i hid
  split at h
  · cases h
  rename_i hname
  split at h
  · cases h
  rename_i hparent
  cases h
  refine ⟨hid, fun a ha heq hgroup => hname ?_, by simpa using hparent, rfl, rfl⟩
  exact Table.any_iff.2 ⟨a, ha, by simpa using ⟨heq, hgroup⟩⟩

theorem apply_updateApplication (now : Instant) (oldId newId : Int32)
    (name description : String) :
    (updateApplication now oldId newId name description).apply t =
      match t.applications.find? oldId with
      | none => (.error .applicationNotFound, t)
      | some current =>
        if newId ≠ oldId ∧ t.applications.contains newId then (.error .applicationDuplicateId, t)
        else if t.applications.any fun a =>
            a.id ≠ oldId ∧ a.name = name ∧ a.applicationGroupId = current.applicationGroupId then
          (.error .applicationDuplicateName, t)
        else
          let row := { current with id := newId, name, description, updatedAt := now }
          let moved := { t with applications := (t.applications.erase oldId).insert row }
          (.ok row, if newId = oldId then moved else moveChildren oldId newId moved) := by
  simp only [updateApplication, application, apply_get_bind, apply_liftExcept_bind,
    apply_refuseIf_bind, apply_set_bind, apply_pure, decide_eq_true_eq]
  cases t.applications.find? oldId <;> rfl

theorem updateApplication_atomic (now : Instant) (oldId newId : Int32)
    (name description : String) : (updateApplication now oldId newId name description).Atomic := by
  intro t t' e h
  rw [apply_updateApplication] at h
  cases t.applications.find? oldId <;> grind

theorem updateApplication_ok {now : Instant} {oldId newId : Int32} {name description : String}
    {row : Application}
    (h : (updateApplication now oldId newId name description).apply t = (.ok row, t')) :
    ∃ current ∈ t.applications, current.id = oldId ∧
      (newId ≠ oldId → ¬ t.applications.contains newId) ∧
      (∀ a ∈ t.applications, a.id ≠ oldId → a.name = name →
        a.applicationGroupId ≠ current.applicationGroupId) ∧
      row = { current with id := newId, name, description, updatedAt := now } ∧
      t' =
        let moved := { t with applications := (t.applications.erase oldId).insert row }
        if newId = oldId then moved else moveChildren oldId newId moved := by
  rw [apply_updateApplication] at h
  cases hcurrent : t.applications.find? oldId with
  | none =>
    rw [hcurrent] at h
    cases h
  | some current =>
    obtain ⟨hmem, hold⟩ := Table.find?_eq_some_iff.1 hcurrent
    rw [hcurrent] at h
    dsimp only at h
    split at h
    · cases h
    rename_i hid
    split at h
    · cases h
    rename_i hname
    cases h
    refine ⟨current, hmem, hold, fun hne hused => hid ⟨hne, hused⟩,
      fun a ha hne heq hgroup => hname ?_, rfl, rfl⟩
    exact Table.any_iff.2 ⟨a, ha, by simpa [heq, hgroup] using hne⟩

theorem apply_deleteApplications (ids : List Int32) :
    (deleteApplications ids).apply t =
      (.ok (t.applications.eraseAll ids).2,
        sweepOrphans { t with applications := (t.applications.eraseAll ids).1 }) := rfl

/-! ## Tokens -/

theorem apply_saveToken (token : Token) :
    (saveToken token).apply t =
      if t.tokens.contains token.token then (.error .tokenDuplicate, t)
      else if !t.applications.contains token.appId then (.error .applicationNotFound, t)
      else (.ok (), { t with tokens := t.tokens.insert token }) := by
  simp only [saveToken, apply_get_bind, apply_refuseIf_bind]
  rfl

theorem saveToken_atomic (token : Token) : (saveToken token).Atomic := by
  intro t t' e h
  rw [apply_saveToken] at h
  grind

theorem saveToken_ok {token : Token} (h : (saveToken token).apply t = (.ok (), t')) :
    ¬ t.tokens.contains token.token ∧ t.applications.contains token.appId ∧
      t' = { t with tokens := t.tokens.insert token } := by
  rw [apply_saveToken] at h
  split at h
  · cases h
  rename_i hfresh
  split at h
  · cases h
  rename_i howner
  cases h
  exact ⟨hfresh, by simpa using howner, rfl⟩

/-- Those of some tokens that belong to an application. -/
def owned (t : Tables) (appId : Int32) (texts : List String) : List String :=
  texts.filter fun s => (t.tokens.find? s).any fun k => k.appId = appId

theorem apply_deleteTokens (appId : Int32) (texts : List String) :
    (deleteTokens appId texts).apply t =
      (.ok (t.tokens.eraseAll (t.owned appId texts)).2,
        { t with tokens := (t.tokens.eraseAll (t.owned appId texts)).1 }) := rfl

/-! ## Permissions -/

theorem apply_upsertAccessList (row : AccessList) :
    (upsertAccessList row).apply t =
      if !t.applications.contains row.appId then (.error .applicationNotFound, t)
      else (.ok 1, { t with accessLists := t.accessLists.insert row }) := by
  simp only [upsertAccessList, apply_get_bind, apply_refuseIf_bind, apply_set_bind, apply_pure]

theorem upsertAccessList_atomic (row : AccessList) : (upsertAccessList row).Atomic := by
  intro t t' e h
  rw [apply_upsertAccessList] at h
  grind

theorem upsertAccessList_ok {row : AccessList} {n : Nat}
    (h : (upsertAccessList row).apply t = (.ok n, t')) :
    t.applications.contains row.appId ∧
      t' = { t with accessLists := t.accessLists.insert row } := by
  rw [apply_upsertAccessList] at h
  split at h
  · cases h
  rename_i howner
  cases h
  exact ⟨by simpa using howner, rfl⟩

theorem apply_insertAccessList (row : AccessList) :
    (insertAccessList row).apply t =
      if !t.applications.contains row.appId then (.error .applicationNotFound, t)
      else if t.accessLists.contains row.key then
        (.error (.invalidArgument "method listed more than once for the application"), t)
      else (.ok (), { t with accessLists := t.accessLists.insert row }) := by
  simp only [insertAccessList, apply_get_bind, apply_refuseIf_bind]
  rfl

/-- Permissions are added up to the first that is refused. -/
theorem apply_forM_insertAccessList (rows : List AccessList) :
    (∃ f added, added <+: rows ∧ (∀ a ∈ added, t.applications.contains a.appId) ∧
      (rows.forM insertAccessList).apply t =
        (.error f, { t with accessLists := t.accessLists.insertAll added })) ∨
    ((∀ a ∈ rows, t.applications.contains a.appId ∧ ¬ t.accessLists.contains a.key) ∧
      (rows.Pairwise fun a b => a.key ≠ b.key) ∧
      (rows.forM insertAccessList).apply t =
        (.ok (), { t with accessLists := t.accessLists.insertAll rows })) := by
  induction rows generalizing t with
  | nil => exact .inr ⟨by simp, .nil, rfl⟩
  | cons row rest ih =>
    have hstep : ((row :: rest).forM insertAccessList).apply t =
        (insertAccessList row >>= fun _ => rest.forM insertAccessList).apply t := rfl
    rw [hstep, apply_bind, apply_insertAccessList]
    by_cases howner : t.applications.contains row.appId
    case neg =>
      simp only [howner, Bool.not_false, if_true]
      exact .inl ⟨_, [], List.nil_prefix, by simp, rfl⟩
    by_cases hfresh : t.accessLists.contains row.key
    case pos =>
      simp only [howner, hfresh, Bool.not_true, Bool.false_eq_true, if_false, if_true]
      exact .inl ⟨_, [], List.nil_prefix, by simp, rfl⟩
    simp only [howner, hfresh, Bool.not_true, Bool.false_eq_true, if_false]
    rcases @ih { t with accessLists := t.accessLists.insert row } with
      ⟨f, added, hprefix, howners, h⟩ | ⟨hrest, hdistinct, h⟩
    · refine .inl ⟨f, row :: added, List.cons_prefix_cons.2 ⟨rfl, hprefix⟩, ?_, h⟩
      exact List.forall_mem_cons.2 ⟨howner, howners⟩
    · -- a later row with the key of this one would have been refused
      have hne : ∀ a ∈ rest, row.key ≠ a.key := fun a ha heq => by
        refine (hrest a ha).2 (Table.contains_iff.2 ⟨row, Table.mem_insert.2 (.inl rfl), heq⟩)
      refine .inr ⟨List.forall_mem_cons.2 ⟨⟨howner, hfresh⟩, fun a ha => ⟨(hrest a ha).1, ?_⟩⟩,
        List.pairwise_cons.2 ⟨hne, hdistinct⟩, h⟩
      intro hmem
      obtain ⟨b, hb, hkey⟩ := Table.contains_iff.1 hmem
      refine (hrest a ha).2 (Table.contains_iff.2 ⟨b, Table.mem_insert.2 (.inr ⟨hb, ?_⟩), hkey⟩)
      exact fun heq => hne a ha (heq.symm.trans hkey)

theorem apply_insertAccessLists (rows : List AccessList) :
    (insertAccessLists rows).apply t =
      (((rows.forM insertAccessList).apply t).1.map fun _ => rows.length,
        ((rows.forM insertAccessList).apply t).2) := by
  rw [insertAccessLists, apply_bind]
  rcases (rows.forM insertAccessList).apply t with ⟨_ | _, s⟩ <;> rfl

/-- Permissions that are added at all are all added. -/
theorem insertAccessLists_ok {rows : List AccessList} {n : Nat} {t' : Tables}
    (h : (insertAccessLists rows).apply t = (.ok n, t')) :
    t' = { t with accessLists := t.accessLists.insertAll rows } := by
  rw [apply_insertAccessLists] at h
  rcases apply_forM_insertAccessList (t := t) rows with ⟨f, added, _, _, hforM⟩ | ⟨_, _, hforM⟩
  · rw [hforM] at h
    cases h
  · rw [hforM] at h
    cases h
    rfl

theorem apply_deleteAccessListsWhere (p : AccessList → Bool) :
    (deleteAccessListsWhere p).apply t =
      (.ok (t.accessLists.size - (t.accessLists.filter fun a => !p a).size),
        { t with accessLists := t.accessLists.filter fun a => !p a }) := rfl

end Tables
end AccessRegistry
