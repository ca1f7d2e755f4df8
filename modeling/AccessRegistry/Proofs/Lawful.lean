import AccessRegistry.Proofs.Traffic
import AccessRegistry.Proofs.Operation

/-!
# AccessRegistry.Proofs.Lawful

The rules on single fields of the rows: names and methods are not blank, ids are at least 1, and a
lifetime is endless or not negative. A call is lawful if it stores nothing but such rows, whatever
the tables hold; the operations make only lawful calls, if the fields that their rules do not judge
themselves are lawful.

* `Tables.Lawful`         — the rules on the rows, the ids of domains and groups apart.
* `Tables.DomainIds`, `Tables.GroupIds` — the ids that the counters give.
* `Program.Only`          — whatever a program is answered, it makes only calls of some kind.
* `Port.Lawful`           — a call that stores nothing but lawful rows.
* `Operation.rule_lawful` — a lawful operation makes only lawful calls.
-/

namespace AccessRegistry

open AccessRegistry.Action World Tables

/-! ## Rows -/

/-- A lifetime is endless or a number of milliseconds. -/
def LifetimeAllowed (lifetime : Int64) : Prop := lifetime = neverExpires ∨ 0 ≤ lifetime

theorem lifetimeAllowed_of_not_lt {lifetime : Int64} (h : ¬ lifetime < neverExpires) :
    LifetimeAllowed lifetime := by
  rw [Int64.lt_iff_toInt_lt] at h
  have hnever : neverExpires.toInt = -1 := rfl
  by_cases heq : lifetime.toInt = -1
  · exact .inl (Int64.toInt_inj.1 (heq.trans hnever.symm))
  · refine .inr (Int64.le_iff_toInt_le.2 ?_)
    have hzero : (0 : Int64).toInt = 0 := rfl
    omega

theorem one_le_of_not_le_zero {id : Int32} (h : ¬ id ≤ 0) : 1 ≤ id := by
  have hzero : (0 : Int32).toInt = 0 := rfl
  have hone : (1 : Int32).toInt = 1 := rfl
  rw [Int32.le_iff_toInt_le] at h ⊢
  omega

namespace Tables

/-- The rules on the fields of the rows. -/
structure Lawful (t : Tables) : Prop where
  domains : ∀ d ∈ t.domains, Text.isBlank d.name = false
  groups : ∀ g ∈ t.groups, Text.isBlank g.name = false
  applications : ∀ a ∈ t.applications, Text.isBlank a.name = false ∧ 1 ≤ a.id
  tokens : ∀ k ∈ t.tokens, LifetimeAllowed k.expireTime
  permissions : ∀ a ∈ t.accessLists, Text.isBlank a.method = false

theorem lawful_empty : empty.Lawful where
  domains _ h := absurd h Table.not_mem_empty
  groups _ h := absurd h Table.not_mem_empty
  applications _ h := absurd h Table.not_mem_empty
  tokens _ h := absurd h Table.not_mem_empty
  permissions _ h := absurd h Table.not_mem_empty

variable {t t' : Tables}

/-! ## Changes -/

theorem Change.Atomic.lawful {α : Type} {c : Change α} (hc : c.Atomic)
    (h : ∀ x t', c.apply t = (.ok x, t') → t'.Lawful) (ht : t.Lawful) :
    (c.apply t).2.Lawful := by
  rcases hrun : c.apply t with ⟨e | x, t'⟩
  · rw [hc t t' e hrun]
    exact ht
  · exact h x t' hrun

theorem lawful_sweepOrphans (h : t.Lawful) : (sweepOrphans t).Lawful where
  domains := h.domains
  groups g hg := h.groups g (Table.mem_filter.1 hg).1
  applications a ha := h.applications a (Table.mem_filter.1 ha).1
  tokens k hk := h.tokens k (Table.mem_filter.1 hk).1
  permissions a ha := h.permissions a (Table.mem_filter.1 ha).1

theorem lawful_createDomain (ht : t.Lawful) (now : Instant) {name : String}
    (hname : Text.isBlank name = false) (description : String) (systemId : Int32) :
    ((createDomain now name description systemId).apply t).2.Lawful := by
  refine (createDomain_atomic now name description systemId).lawful (fun _ _ h => ?_) ht
  obtain ⟨_, _, rfl, rfl⟩ := createDomain_ok h
  exact { ht with domains := Table.forall_insert ht.domains hname }

theorem lawful_updateDomain (ht : t.Lawful) (now : Instant) (id : Int32) {name : String}
    (hname : Text.isBlank name = false) (description : String) :
    ((updateDomain now id name description).apply t).2.Lawful := by
  refine (updateDomain_atomic now id name description).lawful (fun _ _ h => ?_) ht
  obtain ⟨current, _, _, _, rfl, rfl⟩ := updateDomain_ok h
  exact { ht with domains := Table.forall_insert ht.domains hname }

theorem lawful_createGroup (ht : t.Lawful) (now : Instant) {name : String}
    (hname : Text.isBlank name = false) (description : String) (domainId : Int32) :
    ((createGroup now name description domainId).apply t).2.Lawful := by
  refine (createGroup_atomic now name description domainId).lawful (fun _ _ h => ?_) ht
  obtain ⟨_, _, rfl, rfl⟩ := createGroup_ok h
  exact { ht with groups := Table.forall_insert ht.groups hname }

theorem lawful_updateGroup (ht : t.Lawful) (now : Instant) (id : Int32) {name : String}
    (hname : Text.isBlank name = false) (description : String) :
    ((updateGroup now id name description).apply t).2.Lawful := by
  refine (updateGroup_atomic now id name description).lawful (fun _ _ h => ?_) ht
  obtain ⟨current, _, _, _, rfl, rfl⟩ := updateGroup_ok h
  exact { ht with groups := Table.forall_insert ht.groups hname }

theorem lawful_createApplication (ht : t.Lawful) (now : Instant) {app : NewApplication}
    (happ : Text.isBlank app.name = false ∧ 1 ≤ app.id) :
    ((createApplication now app).apply t).2.Lawful := by
  refine (createApplication_atomic now app).lawful (fun _ _ h => ?_) ht
  obtain ⟨_, _, _, rfl, rfl⟩ := createApplication_ok h
  exact { ht with applications := Table.forall_insert ht.applications happ }

/-- The id that an application moves to must be allowed, the one that it keeps is. -/
theorem lawful_updateApplication (ht : t.Lawful) (now : Instant) {oldId newId : Int32}
    (hid : newId = oldId ∨ 1 ≤ newId) {name : String} (hname : Text.isBlank name = false)
    (description : String) :
    ((updateApplication now oldId newId name description).apply t).2.Lawful := by
  refine (updateApplication_atomic now oldId newId name description).lawful (fun _ _ h => ?_) ht
  obtain ⟨current, hcurrent, rfl, _, _, rfl, rfl⟩ := updateApplication_ok h
  have hpos : 1 ≤ newId := by
    rcases hid with rfl | hid
    · exact (ht.applications current hcurrent).2
    · exact hid
  have hmoved : Lawful { t with
      applications := (t.applications.erase current.id).insert
        { current with id := newId, name, description, updatedAt := now } } :=
    { ht with
      applications := Table.forall_insert
        (fun a ha => ht.applications a (Table.mem_erase.1 ha).1) ⟨hname, hpos⟩ }
  dsimp only
  split
  · exact hmoved
  · refine { hmoved with tokens := fun k hk => ?_, permissions := ?_ }
    · obtain ⟨k, hmem, rfl⟩ := (Table.mem_map fun _ => by split <;> rfl).1 hk
      have hlifetime := ht.tokens k hmem
      split <;> exact hlifetime
    · refine Table.forall_insertAll (fun a ha => ht.permissions a (Table.mem_filter.1 ha).1) ?_
      intro a ha
      obtain ⟨b, hb, rfl⟩ := List.mem_map.1 ha
      exact ht.permissions b (List.mem_filter.1 hb).1

theorem lawful_saveToken (ht : t.Lawful) {k : Token} (hk : LifetimeAllowed k.expireTime) :
    ((saveToken k).apply t).2.Lawful := by
  refine (saveToken_atomic k).lawful (fun _ _ h => ?_) ht
  obtain ⟨_, _, rfl⟩ := saveToken_ok h
  exact { ht with tokens := Table.forall_insert ht.tokens hk }

theorem lawful_upsertAccessList (ht : t.Lawful) {row : AccessList}
    (hmethod : Text.isBlank row.method = false) : ((upsertAccessList row).apply t).2.Lawful := by
  refine (upsertAccessList_atomic row).lawful (fun _ _ h => ?_) ht
  obtain ⟨_, rfl⟩ := upsertAccessList_ok h
  exact { ht with permissions := Table.forall_insert ht.permissions hmethod }

theorem lawful_insertAccessLists (ht : t.Lawful) {rows : List AccessList}
    (hrows : ∀ a ∈ rows, Text.isBlank a.method = false) :
    ((insertAccessLists rows).apply t).2.Lawful := by
  rw [apply_insertAccessLists]
  rcases @apply_forM_insertAccessList t rows with ⟨_, added, hadded, _, h⟩ | ⟨_, _, h⟩
  · rw [h]
    exact { ht with
      permissions := Table.forall_insertAll ht.permissions fun a ha =>
        hrows a (hadded.subset ha) }
  · rw [h]
    exact { ht with permissions := Table.forall_insertAll ht.permissions hrows }

theorem lawful_deleteAccessListsWhere (ht : t.Lawful) (p : AccessList → Bool) :
    ((deleteAccessListsWhere p).apply t).2.Lawful :=
  { ht with permissions := fun a ha => ht.permissions a (Table.mem_filter.1 ha).1 }

theorem lawful_deleteDomains (ht : t.Lawful) (ids : List Int32) :
    ((deleteDomains ids).apply t).2.Lawful :=
  lawful_sweepOrphans
    { ht with domains := fun d hd => ht.domains d (Table.mem_of_mem_eraseAll hd) }

theorem lawful_deleteGroups (ht : t.Lawful) (ids : List Int32) :
    ((deleteGroups ids).apply t).2.Lawful :=
  lawful_sweepOrphans { ht with groups := fun g hg => ht.groups g (Table.mem_of_mem_eraseAll hg) }

theorem lawful_deleteApplications (ht : t.Lawful) (ids : List Int32) :
    ((deleteApplications ids).apply t).2.Lawful :=
  lawful_sweepOrphans
    { ht with applications := fun a ha => ht.applications a (Table.mem_of_mem_eraseAll ha) }

end Tables

/-! ## Ids from the counters -/

namespace Tables

variable {t t' : Tables}

/-- The ids of domains, and the next one, are at least 1. -/
structure DomainIds (t : Tables) : Prop where
  next : 1 ≤ t.nextDomainId
  rows : ∀ d ∈ t.domains, 1 ≤ d.id

/-- The ids of groups, and the next one, are at least 1. -/
structure GroupIds (t : Tables) : Prop where
  next : 1 ≤ t.nextGroupId
  rows : ∀ g ∈ t.groups, 1 ≤ g.id

theorem domainIds_empty : empty.DomainIds := ⟨by decide, fun _ h => absurd h Table.not_mem_empty⟩

theorem groupIds_empty : empty.GroupIds := ⟨by decide, fun _ h => absurd h Table.not_mem_empty⟩

theorem le_add_one_of_lt_max {n : Int32} (hmax : n < Int32.maxValue) (h : 1 ≤ n) : 1 ≤ n + 1 :=
  Int32.le_trans h (Int32.le_of_lt (lt_add_one_of_lt_max hmax))

theorem Edit.domainIds (e : Edit t t') (hmax : t.nextDomainId < Int32.maxValue)
    (h : t.DomainIds) : t'.DomainIds := by
  cases e with
  | addDomain hid =>
    exact ⟨le_add_one_of_lt_max hmax h.next, Table.forall_insert h.rows (hid ▸ h.next)⟩
  | @renameDomain current _ _ _ hcurrent =>
    exact ⟨h.next, Table.forall_insert h.rows (h.rows current hcurrent)⟩
  | removeDomains ids => exact ⟨h.next, fun d hd => h.rows d (Table.mem_of_mem_eraseAll hd)⟩
  | _ => exact ⟨h.next, h.rows⟩

theorem Edit.groupIds (e : Edit t t') (hmax : t.nextGroupId < Int32.maxValue)
    (h : t.GroupIds) : t'.GroupIds := by
  cases e with
  | addGroup hid =>
    exact ⟨le_add_one_of_lt_max hmax h.next, Table.forall_insert h.rows (hid ▸ h.next)⟩
  | @renameGroup current _ _ _ hcurrent =>
    exact ⟨h.next, Table.forall_insert h.rows (h.rows current hcurrent)⟩
  | removeGroups ids =>
    exact ⟨h.next, fun g hg => h.rows g (Table.mem_of_mem_eraseAll (Table.mem_filter.1 hg).1)⟩
  | removeDomains ids => exact ⟨h.next, fun g hg => h.rows g (Table.mem_filter.1 hg).1⟩
  | removeApplications ids => exact ⟨h.next, fun g hg => h.rows g (Table.mem_filter.1 hg).1⟩
  | _ => exact ⟨h.next, h.rows⟩

end Tables

/-! ## Calls -/

/-- A statement that stores nothing but lawful rows. -/
def Capability.Lawful {u : UseCase} {γ : Type} : Capability u γ → Prop
  | .upsert row | .upsertAccessList row => Text.isBlank row.method = false
  | .insertAll rows => ∀ row ∈ rows, Text.isBlank row.method = false
  | .save token | .saveToken token => LifetimeAllowed token.expireTime
  | .createDomain name _ _ | .createAppGroup name _ _ => Text.isBlank name = false
  | .createApplication app => Text.isBlank app.name = false ∧ 1 ≤ app.id
  | _ => True

theorem Tables.lawful_perform {t : Tables} (ht : t.Lawful) {u : UseCase} {γ : Type}
    (now : Instant) {c : Capability u γ} (hc : c.Lawful) : ((perform now c).apply t).2.Lawful := by
  cases c with
  | upsert row => exact lawful_upsertAccessList ht hc
  | deleteByAppId appId => exact lawful_deleteAccessListsWhere ht _
  | deleteByAppIdAndMethods appId methods => exact lawful_deleteAccessListsWhere ht _
  | insertAll rows => exact lawful_insertAccessLists ht hc
  | deleteByIdList ids => exact lawful_deleteApplications ht ids
  | save token => exact lawful_saveToken ht hc
  | deleteByAppIdAndTokens appId tokens =>
    exact { ht with tokens := fun k hk => ht.tokens k (Table.mem_of_mem_eraseAll hk) }
  | getToken text =>
    simp only [perform, Change.apply_get_bind, Change.apply_liftExcept]
    exact ht
  | createDomain name description systemId => exact lawful_createDomain ht now hc _ _
  | createAppGroup name description domainId => exact lawful_createGroup ht now hc _ _
  | createApplication app => exact lawful_createApplication ht now hc
  | saveToken token => exact lawful_saveToken ht hc
  | upsertAccessList row => exact lawful_upsertAccessList ht hc
  | _ => exact ht

universe u

/-- Whatever a program is answered, it makes only calls that satisfy `P`. -/
def Program.Only {C : Type → Type u} {ρ : Type} (P : (γ : Type) → C γ → Prop) :
    Program (Effect C) ρ → Prop
  | .done _ => True
  | .ask (.call c) next => P _ c ∧ ∀ r, (next r).Only P
  | .ask .now next => ∀ t, (next t).Only P
  | .ask .mint next => ∀ s, (next s).Only P

theorem Program.Only.bind {C : Type → Type u} {ρ σ : Type} {P : (γ : Type) → C γ → Prop}
    {p : Program (Effect C) ρ} {k : ρ → Program (Effect C) σ} (h : p.Only P)
    (hk : ∀ a, (k a).Only P) : (p.bind k).Only P := by
  induction p with
  | done a => exact hk a
  | ask e next ih =>
    cases e with
    | call c => exact ⟨h.1, fun r => ih r (h.2 r)⟩
    | now => exact fun t => ih t (h t)
    | mint => exact fun s => ih s (h s)

/-- An action that makes only calls that satisfy `P`. -/
def Action.Only {C : Type → Type u} {α : Type} (P : (γ : Type) → C γ → Prop)
    (a : Action C α) : Prop := (program a).Only P

namespace Action.Only

variable {C : Type → Type u} {α β : Type} {P : (γ : Type) → C γ → Prop}

theorem pure (x : α) : Only P (pure x : Action C α) := trivial

theorem throw (f : Failure) : Only P (throw f : Action C α) := trivial

theorem liftExcept (x : Except Failure α) : Only P (liftExcept x : Action C α) := by
  cases x <;> exact trivial

theorem call {c : C α} (h : P _ c) : Only P (Action.call c) := ⟨h, fun _ => trivial⟩

theorem now : Only P (Action.now : Action C Instant) := fun _ => trivial

theorem mint : Only P (Action.mint : Action C String) := fun _ => trivial

theorem bind {a : Action C α} {k : α → Action C β} (h : Only P a) (hk : ∀ x, Only P (k x)) :
    Only P (a >>= k) := by
  refine Program.Only.bind h fun x => ?_
  cases x with
  | ok x => exact hk x
  | error f => exact trivial

theorem attempt {a : Action C α} (h : Only P a) : Only P a.attempt :=
  Program.Only.bind h fun _ => trivial

theorem map {a : Action C α} (h : Only P a) (f : α → β) : Only P (f <$> a) := by
  unfold Only
  rw [program_map]
  exact Program.Only.bind h fun _ => trivial

end Action.Only

/-- A call that stores nothing but lawful rows. -/
def Port.Lawful {γ : Type} : Port γ → Prop
  | .createDomain name _ _ | .updateDomain _ name _ | .createGroup name _ _
  | .updateGroup _ name _ | .updateApplication _ name _ => Text.isBlank name = false
  | .createApplication app => Text.isBlank app.name = false ∧ 1 ≤ app.id
  | .updateApplicationId _ newId name _ => Text.isBlank name = false ∧ 1 ≤ newId
  | .transaction _ work => Action.Only (fun _ c => Capability.Lawful c) work
  | _ => True

theorem Port.lawful_of_writes {γ : Type} {c : Port γ} (h : c.writes = false) : c.Lawful := by
  cases c <;> trivial

/-- A rule that stores nothing but lawful rows. -/
abbrev Lawful {α : Type} (r : Rule α) : Prop := Action.Only (fun _ c => Port.Lawful c) r

theorem Looks.lawful {α : Type} {r : Rule α} (h : Looks r) : Lawful r := by
  have hprogram : ∀ {ρ : Type} {p : Program (Effect Port) ρ}, p.Looks →
      p.Only fun _ c => Port.Lawful c := by
    intro ρ p hp
    induction p with
    | done a => trivial
    | ask e next ih =>
      cases e with
      | call c => exact ⟨Port.lawful_of_writes hp.1, fun r => ih r (hp.2 r)⟩
      | now => exact fun t => ih t (hp t)
      | mint => exact hp.elim
  exact hprogram h

/-! ## Rules -/

theorem Domains.createUpdate_lawful {req : DomainWrite} (hname : Text.isBlank req.name = false) :
    Lawful (Domains.createUpdate req) := by
  unfold Domains.createUpdate
  refine .bind (looks_ensureNameFree rfl _ _ _).lawful fun _ => ?_
  split
  · exact .call hname
  · exact .bind (.call trivial) fun _ => .call hname

theorem Groups.create_lawful {req : GroupWrite} (hname : Text.isBlank req.name = false) :
    Lawful (Groups.create req) :=
  .bind (looks_ensureNameFree rfl _ _ _).lawful fun _ =>
    .bind (.call trivial) fun _ => .call hname

theorem Groups.update_lawful {req : GroupWrite} (hname : Text.isBlank req.name = false) :
    Lawful (Groups.update req) := by
  unfold Groups.update
  split
  · exact .throw _
  · exact .bind (.call trivial) fun _ =>
      .bind (looks_ensureNameFree rfl _ _ _).lawful fun _ => .call hname

theorem Applications.enrichOne_lawful (app : Application) : Lawful (Applications.enrichOne app) :=
  .bind (.call trivial) fun _ => .pure _

/-- The rule refuses ids that are not positive. -/
theorem Applications.create_lawful {req : NewApplication} (hname : Text.isBlank req.name = false) :
    Lawful (Applications.create req) := by
  unfold Applications.create
  split
  · exact .throw _
  · rename_i hid
    exact .bind (.call ⟨hname, one_le_of_not_le_zero hid⟩) fun _ => .pure _

theorem Applications.update_lawful {req : ApplicationUpdate}
    (h : Text.isBlank req.name = false ∧ 1 ≤ req.newId) : Lawful (Applications.update req) :=
  .bind (.call h) enrichOne_lawful

theorem Applications.createUnderNextId_lawful {req : NewApplication}
    (hname : Text.isBlank req.name = false) (retries : Nat) :
    Lawful (Applications.createUnderNextId req retries) := by
  induction retries with
  | zero => exact .bind (.call trivial) fun id => create_lawful hname
  | succ retries ih =>
    refine .bind (.call trivial) fun id => .bind (.attempt (create_lawful hname)) fun result => ?_
    split
    · exact ih
    · exact .liftExcept _

theorem Applications.createUpdate_lawful {req : NewApplication}
    (hname : Text.isBlank req.name = false) : Lawful (Applications.createUpdate req) := by
  unfold Applications.createUpdate
  refine .bind (looks_ensureNameFree rfl _ _ _).lawful fun _ => ?_
  by_cases hid : req.id ≠ 0
  · rw [if_pos hid]
    exact .bind (.call trivial) fun _ => .bind (.call hname) enrichOne_lawful
  · rw [if_neg hid]
    exact .bind (.call trivial) fun _ => createUnderNextId_lawful hname _

theorem Credentials.issueOnce_lawful {appId : Int32} {lifetime : Int64}
    (h : LifetimeAllowed lifetime) : Lawful (Credentials.issueOnce appId lifetime) :=
  .bind .mint fun _ => .bind .now fun _ => .call (.call h)

theorem Credentials.issue_lawful {appId : Int32} {lifetime : Int64}
    (h : LifetimeAllowed lifetime) (retries : Nat) :
    Lawful (Credentials.issue appId lifetime retries) := by
  induction retries with
  | zero => exact issueOnce_lawful h
  | succ retries ih =>
    refine .bind (.attempt (issueOnce_lawful h)) fun result => ?_
    split
    · exact ih
    · exact .liftExcept _

/-- The rule refuses lifetimes below the endless one. -/
theorem Credentials.create_lawful (appId : Int32) (lifetime : Int64) :
    Lawful (Credentials.create appId lifetime) := by
  unfold Credentials.create
  split
  · exact .throw _
  · rename_i hlifetime
    have hallowed := lifetimeAllowed_of_not_lt hlifetime
    exact .bind (.call trivial) fun app => .bind (.call trivial) fun group =>
      .bind (.call trivial) fun _ => .bind (issue_lawful hallowed _) fun _ =>
        (Applications.getById_looks appId).lawful

theorem Credentials.revoke_lawful (appId : Int32) (texts : List String) :
    Lawful (Credentials.revoke appId texts) := by
  unfold Credentials.revoke
  refine .bind (.call trivial) fun _ => ?_
  have hend (n : Nat) : Lawful (do
      let app ← Applications.getById appId
      return (⟨app, n⟩ : RevokeOutcome)) :=
    .bind (Applications.getById_looks appId).lawful fun _ => .pure _
  by_cases hempty : texts.isEmpty
  · rw [if_pos hempty]
    exact .bind (.pure 0) hend
  · rw [if_neg hempty]
    exact .bind (.call (.call trivial)) hend

/-- What holds of the four statements that replace permissions holds of all calls. -/
theorem Permissions.replace_only {req : SetListRequest}
    {P : (γ : Type) → Capability .accessListSetList γ → Prop}
    (hdelete : P _ (.deleteByAppId req.appId))
    (hmethods : P _ (.deleteByAppIdAndMethods req.appId (req.methods.map MethodValue.method)))
    (hinsert : P _ (.insertAll req.rows)) (hget : P _ (.getByAppId req.appId)) :
    Action.Only P (Permissions.replace req) := by
  unfold Permissions.replace
  split
  · exact .bind (.call hdelete) fun _ => .bind (.call hmethods) fun _ =>
      .bind (.call hinsert) fun _ => .call hget
  · exact .bind (.call hmethods) fun _ => .bind (.call hinsert) fun _ => .call hget

theorem Permissions.replace_lawful {req : SetListRequest}
    (h : ∀ m ∈ req.methods, Text.isBlank m.method = false) :
    Action.Only (fun _ c => Capability.Lawful c) (Permissions.replace req) := by
  have hrows : ∀ row ∈ req.rows, Text.isBlank row.method = false := by
    intro row hrow
    obtain ⟨m, hm, rfl⟩ := List.mem_map.1 hrow
    exact h m hm
  exact replace_only trivial trivial hrows trivial

theorem Permissions.setList_lawful {req : SetListRequest}
    (h : ∀ m ∈ req.methods, Text.isBlank m.method = false) : Lawful (Permissions.setList req) :=
  .bind (.call trivial) fun _ => .call (replace_lawful h)

theorem Permissions.deleteList_lawful (appId : Int32) (methods : List String) :
    Lawful (Permissions.deleteList appId methods) := by
  refine .bind (.call trivial) fun _ => ?_
  split
  · exact .pure _
  · exact .call trivial

/-- Setting up stores constants, and its token for ever. -/
theorem Provisioning.createAll_lawful (token : String) :
    Action.Only (fun _ c => Capability.Lawful c) (Provisioning.createAll token) := by
  have hadmin : Text.isBlank adminAppName = false ∧ 1 ≤ adminAppId := by decide
  have hlogin : Text.isBlank adminLoginMethod = false := by decide
  exact .bind (.call rfl) fun domain => .bind (.call rfl) fun group =>
    .bind (.call hadmin) fun app => .bind .now fun createdAt =>
      .bind (.call (.inl rfl)) fun _ => .bind (.call hlogin) fun _ => .pure _

theorem Provisioning.run_lawful (token : String) : Lawful (Provisioning.run token) := by
  unfold Provisioning.run
  split
  · exact .pure _
  refine .call (.bind (.call trivial) fun free => ?_)
  cases free with
  | false => exact .pure _
  | true =>
    refine Action.Only.bind (.attempt (.call trivial)) fun found => ?_
    cases found with
    | ok k => exact .pure _
    | error f =>
      dsimp only
      split
      · exact createAll_lawful token
      · exact .throw _

namespace Operation

/-- What the form of a request makes sure of before its operation runs. -/
def Lawful {α : Type} : Operation α → Prop
  | .writeDomain req => Text.isBlank req.name = false
  | .createGroup req | .updateGroup req | .writeGroup req => Text.isBlank req.name = false
  | .createApplication req | .writeApplication req => Text.isBlank req.name = false
  | .updateApplication req => Text.isBlank req.name = false ∧ 1 ≤ req.newId
  | .setPermission row => Text.isBlank row.method = false
  | .setPermissions req => ∀ m ∈ req.methods, Text.isBlank m.method = false
  | _ => True

/-- A lawful operation stores nothing but lawful rows. -/
theorem rule_lawful {α : Type} (op : Operation α) (h : op.Lawful) :
    AccessRegistry.Lawful op.rule := by
  cases op with
  | writeDomain req => exact Domains.createUpdate_lawful h
  | deleteDomains ids =>
    exact .bind (looks_requireIds ids _).lawful fun _ => .call trivial
  | createGroup req => exact Groups.create_lawful h
  | updateGroup req => exact Groups.update_lawful h
  | writeGroup req =>
    show AccessRegistry.Lawful (if req.id = 0 then _ else _)
    split
    · exact Groups.create_lawful h
    · exact Groups.update_lawful h
  | deleteGroups ids => exact .bind (looks_requireIds ids _).lawful fun _ => .call trivial
  | createApplication req => exact Applications.create_lawful h
  | updateApplication req => exact Applications.update_lawful h
  | writeApplication req => exact Applications.createUpdate_lawful h
  | deleteApplications ids =>
    exact .bind (looks_requireIds ids _).lawful fun _ => .call (.call trivial)
  | createToken appId lifetime => exact Credentials.create_lawful appId lifetime
  | revokeTokens appId texts => exact Credentials.revoke_lawful appId texts
  | revokeAllTokens appId =>
    exact .bind (.call trivial) fun _ => .bind (.call trivial) fun _ =>
      Credentials.revoke_lawful appId _
  | setPermission row => exact .bind (.call trivial) fun _ => .call (.call h)
  | setPermissions req => exact Permissions.setList_lawful h
  | deletePermissions appId methods => exact Permissions.deleteList_lawful appId methods
  | provision token => exact Provisioning.run_lawful token
  | _ => exact (looks_of_reads _ rfl).lawful

end Operation

end AccessRegistry
