import AccessRegistry.Proofs.Deletion

/-!
# AccessRegistry.Proofs.Agreement

The tables agree with the history: every change does to the ledger of the tables what the operation
that makes it means (`ledger_done`), so after any orders the tables hold the ledger that the events
spell out (`ledger_after`).
-/

namespace AccessRegistry

open AccessRegistry.Action World

namespace Tables

variable {t t' : Tables}

/-! ## What changes mean -/

theorem ledger_createDomain {now : Instant} {name description : String} {systemId : Int32}
    {d : Domain} (h : (createDomain now name description systemId).apply t = (.ok d, t')) :
    t'.ledger = t.ledger.addDomain systemId := by
  obtain ⟨_, _, rfl, rfl⟩ := createDomain_ok h
  exact Ledger.ext (funext fun d => Table.map_find?_insert _ _ d) rfl rfl rfl rfl rfl

theorem ledger_updateDomain {now : Instant} {id : Int32} {name description : String}
    {d : Domain} (h : (updateDomain now id name description).apply t = (.ok d, t')) :
    t'.ledger = t.ledger := by
  obtain ⟨current, hcurrent, rfl, _, rfl, rfl⟩ := updateDomain_ok h
  refine Ledger.ext (funext fun d => ?_) rfl rfl rfl rfl rfl
  exact Table.map_find?_insert_same hcurrent (by rfl) (by rfl) d

theorem ledger_createGroup {now : Instant} {name description : String} {domainId : Int32}
    {g : AppGroup} (h : (createGroup now name description domainId).apply t = (.ok g, t')) :
    t'.ledger = t.ledger.addGroup domainId := by
  obtain ⟨_, _, rfl, rfl⟩ := createGroup_ok h
  exact Ledger.ext rfl (funext fun g => Table.map_find?_insert _ _ g) rfl rfl rfl rfl

theorem ledger_updateGroup {now : Instant} {id : Int32} {name description : String}
    {g : AppGroup} (h : (updateGroup now id name description).apply t = (.ok g, t')) :
    t'.ledger = t.ledger := by
  obtain ⟨current, hcurrent, rfl, _, rfl, rfl⟩ := updateGroup_ok h
  refine Ledger.ext rfl (funext fun g => ?_) rfl rfl rfl rfl
  exact Table.map_find?_insert_same hcurrent (by rfl) (by rfl) g

theorem ledger_createApplication {now : Instant} {app : NewApplication} {a : Application}
    (h : (createApplication now app).apply t = (.ok a, t')) :
    t'.ledger = t.ledger.addApplication app.id ⟨app.name, app.applicationGroupId⟩ := by
  obtain ⟨_, _, _, rfl, rfl⟩ := createApplication_ok h
  exact Ledger.ext rfl rfl (funext fun a => Table.map_find?_insert _ _ a) rfl rfl rfl

/-! ## Moves -/

theorem mem_accessListsFor {appId : Int32} {l : AccessList} :
    l ∈ t.accessListsFor appId ↔ l ∈ t.accessLists ∧ l.appId = appId := by
  rw [accessListsFor, Table.select, List.mem_filter, decide_eq_true_eq]
  rfl

/-- The permissions after a move to an id that has none. -/
theorem mem_moveChildren {oldId newId : Int32} (hnew : ∀ a ∈ t.accessLists, a.appId ≠ newId)
    (b : AccessList) :
    b ∈ (moveChildren oldId newId t).accessLists ↔
      (∃ c ∈ t.accessLists, c.appId = oldId ∧ { c with appId := newId } = b) ∨
        b ∈ t.accessLists ∧ b.appId ≠ oldId := by
  have hdistinct : ((t.accessListsFor oldId).map fun a => { a with appId := newId }).Pairwise
      fun a b => Keyed.key a ≠ Keyed.key b := by
    rw [List.pairwise_map]
    refine (t.accessLists.pairwise_key_ne.filter _).imp_of_mem fun {a b} ha hb hne heq => hne ?_
    -- rows of one application differ in their methods
    have hmethod := (PermissionKey.mk.inj heq).2
    rw [AccessList.key_eq, AccessList.key_eq, (mem_accessListsFor.1 ha).2, (mem_accessListsFor.1 hb).2, hmethod]
  have hmem : b ∈ (moveChildren oldId newId t).accessLists ↔ _ := Table.mem_insertAll hdistinct
  rw [hmem, List.mem_map, Table.mem_filter, decide_eq_true_eq]
  constructor
  · rintro (⟨c, hc, rfl⟩ | ⟨hb, _⟩)
    · exact .inl ⟨c, (mem_accessListsFor.1 hc).1, (mem_accessListsFor.1 hc).2, rfl⟩
    · exact .inr hb
  · rintro (⟨c, hc, hold, rfl⟩ | hb)
    · exact .inl ⟨c, mem_accessListsFor.2 ⟨hc, hold⟩, rfl⟩
    · refine .inr ⟨hb, fun a ha heq => hnew b hb.1 ?_⟩
      obtain ⟨c, _, rfl⟩ := List.mem_map.1 ha
      exact (PermissionKey.mk.inj heq).1

theorem find?_moveChildren {oldId newId : Int32} (hne : newId ≠ oldId)
    (hnew : ∀ a ∈ t.accessLists, a.appId ≠ newId) (a : Int32) (m : String) :
    (moveChildren oldId newId t).accessLists.find? ⟨a, m⟩ =
      if a = newId then (t.accessLists.find? ⟨oldId, m⟩).map fun c => { c with appId := newId }
      else if a = oldId then none
      else t.accessLists.find? ⟨a, m⟩ := by
  apply Option.ext
  intro b
  rw [Table.find?_eq_some_iff, mem_moveChildren hnew, AccessList.key_eq, PermissionKey.mk.injEq]
  split
  · rename_i ha
    simp only [Option.map_eq_some_iff, Table.find?_eq_some_iff, AccessList.key_eq,
      PermissionKey.mk.injEq]
    grind
  split
  · rename_i ha
    grind
  · rw [Table.find?_eq_some_iff, AccessList.key_eq, PermissionKey.mk.injEq]
    grind

theorem ledger_updateApplication (hwf : t.WellFormed) {now : Instant} {oldId newId : Int32}
    {name description : String} {a : Application}
    (h : (updateApplication now oldId newId name description).apply t = (.ok a, t')) :
    t'.ledger = t.ledger.moveApplication oldId newId name := by
  obtain ⟨current, hmem, hold, hfree, _, rfl, rfl⟩ := updateApplication_ok h
  -- no permission belongs to an id that no application has
  have hnew (hne : newId ≠ oldId) : ∀ a ∈ t.accessLists, a.appId ≠ newId := by
    rintro a ha rfl
    exact hfree hne (hwf.permissions a ha)
  have hcurrent : t.applications.find? oldId = some current :=
    Table.find?_eq_some_iff.2 ⟨hmem, hold⟩
  have happs (a : Int32) :
      (((t.applications.erase oldId).insert
        { current with id := newId, name, description, updatedAt := now }).find? a).map
          (fun app => (⟨app.name, app.applicationGroupId⟩ : Place)) =
        (t.ledger.moveApplication oldId newId name).applications a := by
    rw [Table.map_find?_insert, Table.find?_erase, Application.key_eq,
      Ledger.moveApplication, ledger_applications, hcurrent]
    dsimp only
    split
    · rfl
    · split <;> rfl
  dsimp only
  split
  · rename_i heq
    refine Ledger.ext rfl rfl (funext happs) (funext fun a => funext fun m => ?_) rfl rfl
    simp only [Ledger.moveApplication, heq]
    split
    · rename_i ha
      rw [ha]
      rfl
    · rfl
  · rename_i hne
    refine Ledger.ext rfl rfl (funext happs) (funext fun a => funext fun m => ?_) rfl rfl
    have hfind := congrArg (Option.map AccessList.value) (find?_moveChildren hne (hnew hne) a m)
    refine hfind.trans ?_
    simp only [Ledger.moveApplication, ledger_permissions]
    split
    · rw [Option.map_map]
      rfl
    · split <;> rfl

/-! ## Permissions -/

/-- The permissions of an application for some methods are dropped. -/
theorem ledger_forget (t : Tables) (permissions : Table AccessList) (appId : Int32)
    (listed : String → Bool) :
    ({ t with
        accessLists := permissions.filter fun a =>
          !(decide (a.appId = appId ∧ listed a.method)) } : Tables).ledger =
      ({ t with accessLists := permissions } : Tables).ledger.forget appId listed := by
  let gone (k : PermissionKey) : Bool := k.appId = appId ∧ listed k.method
  have hlacks : (permissions.filter fun a => !gone (Keyed.key a)).Lacks permissions gone :=
    Table.lacks_filter fun _ _ => rfl
  refine Ledger.ext rfl rfl rfl (funext fun a => funext fun m => ?_) rfl rfl
  refine (hlacks.map_find? AccessList.value ⟨a, m⟩).trans ?_
  simp only [gone, decide_eq_true_eq]
  rfl

theorem ledger_deleteAccessListMethods {appId : Int32} {methods : List String} {n : Nat}
    (h : (deleteAccessListMethods appId methods).apply t = (.ok n, t')) :
    t'.ledger = t.ledger.forget appId methods.contains := by
  rw [deleteAccessListMethods, apply_deleteAccessListsWhere] at h
  cases h
  exact ledger_forget t t.accessLists appId methods.contains

theorem ledger_insertPermission (row : AccessList) :
    ({ t with accessLists := t.accessLists.insert row } : Tables).ledger =
      t.ledger.allow row.appId row.method row.value := by
  refine Ledger.ext rfl rfl rfl (funext fun a => funext fun m => ?_) rfl rfl
  refine (Table.map_find?_insert _ _ _).trans ?_
  simp only [AccessList.key_eq, PermissionKey.mk.injEq]
  rfl

theorem ledger_upsertAccessList {row : AccessList} {n : Nat}
    (h : (upsertAccessList row).apply t = (.ok n, t')) :
    t'.ledger = t.ledger.allow row.appId row.method row.value := by
  obtain ⟨_, rfl⟩ := upsertAccessList_ok h
  exact ledger_insertPermission row

theorem ledger_insertAll (t : Tables) (appId : Int32) (entries : List MethodValue) :
    ({ t with
        accessLists := t.accessLists.insertAll
          (entries.map fun e => ⟨appId, e.method, e.value⟩) } : Tables).ledger =
      t.ledger.allowAll appId entries := by
  induction entries generalizing t with
  | nil => rfl
  | cons e entries ih =>
    have hinsert := ledger_insertPermission (t := t) ⟨appId, e.method, e.value⟩
    refine (ih { t with accessLists := t.accessLists.insert ⟨appId, e.method, e.value⟩ }).trans ?_
    rw [hinsert]
    rfl

/-- The old permissions that are set anew need not be dropped before. -/
theorem ledger_setPermissions (req : SetListRequest) :
    ({ t with accessLists := (req.left t.accessLists).insertAll req.rows } : Tables).ledger =
      (if req.removeOld then t.ledger.forget req.appId fun _ => true else t.ledger).allowAll
        req.appId req.methods := by
  let listed : String → Bool := (req.methods.map MethodValue.method).contains
  have hold : (fun a : AccessList => !(decide (a.appId = req.appId))) =
      fun a => !(decide (a.appId = req.appId ∧ (fun _ : String => true) a.method)) := by
    simp only [and_true]
  have hleft : ({ t with accessLists := req.left t.accessLists } : Tables).ledger =
      (if req.removeOld then t.ledger.forget req.appId fun _ => true else t.ledger).forget
        req.appId listed := by
    unfold SetListRequest.left
    split
    · refine (ledger_forget t _ _ listed).trans ?_
      rw [hold]
      have hcleared := ledger_forget t t.accessLists req.appId fun _ => true
      exact congrArg (fun l => l.forget req.appId listed) hcleared
    · exact ledger_forget t _ _ listed
  refine (ledger_insertAll { t with accessLists := req.left t.accessLists } _ _).trans ?_
  rw [hleft, Ledger.allowAll_forget]

/-! ## What operations mean -/

theorem ledger_saveToken {token : Token} (h : (saveToken token).apply t = (.ok (), t')) :
    t'.ledger = t.ledger := by
  obtain ⟨_, _, rfl⟩ := saveToken_ok h
  rfl

theorem ledger_deleteTokens {appId : Int32} {texts : List String} {n : Nat}
    (h : (deleteTokens appId texts).apply t = (.ok n, t')) : t'.ledger = t.ledger := by
  rw [apply_deleteTokens] at h
  cases h
  rfl

theorem ledger_provision {now : Instant} {token : String} {o : BaselineOutcome}
    (h : (provision now token).apply t = (.ok o, t')) :
    t'.ledger = t.ledger.record (.provision token) .provisioned := by
  unfold provision at h
  obtain ⟨domain, t₁, hdomain, h⟩ := Change.apply_bind_ok.1 h
  obtain ⟨group, t₂, hgroup, h⟩ := Change.apply_bind_ok.1 h
  obtain ⟨app, t₃, happ, h⟩ := Change.apply_bind_ok.1 h
  obtain ⟨_, t₄, htoken, h⟩ := Change.apply_bind_ok.1 h
  obtain ⟨_, t₅, hpermission, h⟩ := Change.apply_bind_ok.1 h
  cases h
  rw [ledger_upsertAccessList hpermission, ledger_saveToken htoken,
    ledger_createApplication happ, ledger_createGroup hgroup, ledger_createDomain hdomain]
  obtain ⟨_, _, rfl, rfl⟩ := createDomain_ok hdomain
  obtain ⟨_, _, rfl, _⟩ := createGroup_ok hgroup
  obtain ⟨_, _, _, rfl, _⟩ := createApplication_ok happ
  rfl

/-- An operation that succeeds does to the tables what it means. -/
theorem ledger_done {α : Type} {op : Operation α} {x : α} {w w' : World}
    (hwf : w.tables.WellFormed) (h : op.Done w x w') :
    w'.tables.ledger = w.tables.ledger.record op x := by
  cases op with
  | writeDomain req =>
    simp only [Operation.Done] at h
    simp only [Ledger.record]
    split at h
    · rename_i hid
      rw [if_pos hid]
      exact ledger_createDomain h
    · rename_i hid
      rw [if_neg hid]
      exact ledger_updateDomain h
  | deleteDomains ids =>
    rw [eq_without_deleteDomains h]
    exact hwf.ledger_without _
  | createGroup req => exact ledger_createGroup h
  | updateGroup req => exact ledger_updateGroup h
  | writeGroup req =>
    simp only [Operation.Done] at h
    simp only [Ledger.record]
    split at h
    · rename_i hid
      rw [if_pos hid]
      exact ledger_createGroup h
    · rename_i hid
      rw [if_neg hid]
      exact ledger_updateGroup h
  | deleteGroups ids =>
    rw [eq_without_deleteGroups h]
    exact hwf.ledger_without _
  | createApplication req => exact ledger_createApplication h
  | updateApplication req => exact ledger_updateApplication hwf h
  | writeApplication req =>
    simp only [Operation.Done] at h
    simp only [Ledger.record]
    split at h
    · rename_i hid
      obtain ⟨id, h⟩ := h
      obtain ⟨_, _, _, hrow, _⟩ := createApplication_ok h
      rw [if_pos hid, hrow]
      exact ledger_createApplication h
    · rename_i hid
      rw [if_neg hid]
      exact ledger_updateApplication hwf h
  | deleteApplications ids =>
    rw [eq_without_deleteApplications h]
    exact hwf.ledger_without _
  | createToken appId lifetime =>
    obtain ⟨_, _, _, h⟩ := h
    exact ledger_saveToken h
  | revokeTokens appId tokens => exact ledger_deleteTokens h
  | revokeAllTokens appId => exact ledger_deleteTokens h
  | setPermission row => exact ledger_upsertAccessList h
  | setPermissions req =>
    rw [show w'.tables = _ from h]
    exact ledger_setPermissions req
  | deletePermissions appId methods => exact ledger_deleteAccessListMethods h
  | provision token =>
    simp only [Operation.Done] at h
    split at h
    · rename_i ho
      subst ho
      exact ledger_provision h
    · rename_i ho
      rw [h]
      cases x with
      | provisioned => exact absurd rfl ho
      | _ => rfl
  | _ => exact congrArg ledger h

end Tables

namespace World

theorem ledger_event {w : World} (hwf : w.tables.WellFormed) (o : Order) :
    (w.carryOut o).2.tables.ledger = w.tables.ledger.afterEvent (w.event o) := by
  rcases w.event_cases o with ⟨f, hevent, htables⟩ | ⟨x, hevent, hdone⟩
  · rw [hevent, htables]
    rfl
  · rw [hevent]
    exact Tables.ledger_done (w := { w with now := o.now }) hwf hdone

/-- The tables agree with the history. -/
theorem ledger_after (now : Instant) (mint : Nat → String) (orders : List Order) :
    ((fresh now mint).after orders).tables.ledger =
      Ledger.ofHistory ((fresh now mint).history orders) := by
  induction orders with
  | nil => rfl
  | cons o earlier ih =>
    refine (ledger_event (after_wellFormed now mint earlier) o).trans ?_
    rw [ih]
    rfl

end World
end AccessRegistry
