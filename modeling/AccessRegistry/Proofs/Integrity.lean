import AccessRegistry.Proofs.Edit

/-!
# AccessRegistry.Proofs.Integrity

The rules that the rows keep among each other: every domain belongs to the one system, every other
row has a parent, and no two rows under one parent share a name. `Tables.WellFormed` holds of the
empty tables and is kept by every edit (`Edit.wellFormed`), whatever the counters do. That new ids
are new (`Tables.DomainsBelow`, `Tables.GroupsBelow`) is kept as long as the counters do not wrap.
-/

namespace AccessRegistry

namespace Table

variable {ρ σ κ ι ν : Type} [Keyed ρ κ] [Keyed σ ι]

/-- No two rows have the same label. -/
def Distinct (t : Table ρ) (label : ρ → ν) : Prop :=
  ∀ r ∈ t, ∀ s ∈ t, label r = label s → r = s

/-- Every row names a row of `parents` by its key. -/
def LinkedTo (t : Table ρ) (parents : Table σ) (parent : ρ → ι) : Prop :=
  ∀ r ∈ t, parents.contains (parent r) = true

variable {t u : Table ρ} {parents others : Table σ} {label : ρ → ν} {parent : ρ → ι} {r : ρ}

namespace Distinct

theorem empty : (∅ : Table ρ).Distinct label := fun _ h => absurd h not_mem_empty

theorem mono (h : t.Distinct label) (hsub : ∀ r ∈ u, r ∈ t) : u.Distinct label :=
  fun r hr s hs => h r (hsub r hr) s (hsub s hs)

/-- A row may be stored if no row with another key has its label. -/
theorem insert (h : t.Distinct label)
    (hfree : ∀ s ∈ t, Keyed.key s ≠ Keyed.key r → label s ≠ label r) :
    (t.insert r).Distinct label := by
  intro a ha b hb hlabel
  rcases mem_insert.1 ha with rfl | ⟨hmem, hkey⟩
  · rcases mem_insert.1 hb with rfl | ⟨hmem, hkey⟩
    · rfl
    · exact absurd hlabel.symm (hfree b hmem hkey)
  · rcases mem_insert.1 hb with rfl | ⟨hmem', _⟩
    · exact absurd hlabel (hfree a hmem hkey)
    · exact h a hmem b hmem' hlabel

end Distinct

namespace LinkedTo

theorem empty : (∅ : Table ρ).LinkedTo parents parent := fun _ h => absurd h not_mem_empty

theorem mono (h : t.LinkedTo parents parent) (hsub : ∀ r ∈ u, r ∈ t) :
    u.LinkedTo parents parent := fun r hr => h r (hsub r hr)

theorem insert (h : t.LinkedTo parents parent) (hr : parents.contains (parent r) = true) :
    (t.insert r).LinkedTo parents parent := by
  intro a ha
  rcases mem_insert.1 ha with rfl | ⟨ha, _⟩
  · exact hr
  · exact h a ha

theorem insertAll {rows : List ρ} (h : t.LinkedTo parents parent)
    (hrows : ∀ r ∈ rows, parents.contains (parent r) = true) :
    (t.insertAll rows).LinkedTo parents parent := by
  intro a ha
  rcases mem_of_mem_insertAll ha with ha | ha
  · exact hrows a ha
  · exact h a ha

/-- Parents may change as long as their keys stay. -/
theorem change_parents (h : t.LinkedTo parents parent)
    (hkeep : ∀ k, parents.contains k = true → others.contains k = true) :
    t.LinkedTo others parent := fun r hr => hkeep _ (h r hr)

theorem filter : (t.filter fun r => parents.contains (parent r)).LinkedTo parents parent :=
  fun _ hr => (mem_filter.1 hr).2

end LinkedTo

theorem contains_insert_iff {k : κ} :
    (t.insert r).contains k = true ↔ k = Keyed.key r ∨ t.contains k = true := by
  simp only [contains_iff, mem_insert]
  constructor
  · rintro ⟨a, rfl | ⟨ha, _⟩, rfl⟩
    · exact .inl rfl
    · exact .inr ⟨a, ha, rfl⟩
  · rintro (rfl | ⟨a, ha, rfl⟩)
    · exact ⟨r, .inl rfl, rfl⟩
    · by_cases hkey : Keyed.key a = Keyed.key r
      · exact ⟨r, .inl rfl, hkey.symm⟩
      · exact ⟨a, .inr ⟨ha, hkey⟩, rfl⟩

theorem contains_insert {k : κ} (h : t.contains k = true) : (t.insert r).contains k = true :=
  contains_insert_iff.2 (.inr h)

theorem contains_insert_self : (t.insert r).contains (Keyed.key r) = true :=
  contains_insert_iff.2 (.inl rfl)

theorem contains_insert_ne [DecidableEq κ] {k : κ} (h : k ≠ Keyed.key r) :
    (t.insert r).contains k = t.contains k := by
  rw [contains, find?_insert, if_neg h, ← contains]

theorem contains_insertAll {rows : List ρ} {k : κ}
    (h : (∃ a ∈ rows, Keyed.key a = k) ∨ t.contains k = true) :
    (t.insertAll rows).contains k = true := by
  induction rows generalizing t with
  | nil => exact h.elim (fun ⟨_, ha, _⟩ => absurd ha List.not_mem_nil) id
  | cons a rows ih =>
    rw [insertAll_cons]
    refine ih ?_
    rcases h with ⟨b, hb, rfl⟩ | h
    · rcases List.mem_cons.1 hb with rfl | hb
      · exact .inr contains_insert_self
      · exact .inl ⟨b, hb, rfl⟩
    · exact .inr (contains_insert h)

theorem mem_of_mem_eraseAll {keys : List κ} (h : r ∈ (t.eraseAll keys).1) : r ∈ t :=
  (mem_eraseAll.1 h).1

end Table

namespace Tables

/-- Every key leads to the row that carries it, and to no other. Tables look for rows by the keys that
the rows carry, so this holds of all tables there are (`foundByKey`), reachable or not. -/
structure FoundByKey (t : Tables) : Prop where
  domains : ∀ id d, t.domains.find? id = some d ↔ d ∈ t.domains ∧ d.id = id
  groups : ∀ id g, t.groups.find? id = some g ↔ g ∈ t.groups ∧ g.id = id
  applications : ∀ id a, t.applications.find? id = some a ↔ a ∈ t.applications ∧ a.id = id
  tokens : ∀ text k, t.tokens.find? text = some k ↔ k ∈ t.tokens ∧ k.token = text
  permissions : ∀ appId method a, t.accessLists.find? ⟨appId, method⟩ = some a ↔
    a ∈ t.accessLists ∧ a.appId = appId ∧ a.method = method

theorem foundByKey (t : Tables) : t.FoundByKey where
  domains _ _ := Table.find?_eq_some_iff
  groups _ _ := Table.find?_eq_some_iff
  applications _ _ := Table.find?_eq_some_iff
  tokens _ _ := Table.find?_eq_some_iff
  permissions _ _ _ := by
    rw [Table.find?_eq_some_iff, AccessList.key_eq, PermissionKey.mk.injEq]

/-- The rules among the rows. -/
structure WellFormed (t : Tables) : Prop where
  /-- there is one system -/
  systems : ∀ d ∈ t.domains, d.systemId = defaultSystemId
  groups : t.groups.LinkedTo t.domains AppGroup.domainId
  applications : t.applications.LinkedTo t.groups Application.applicationGroupId
  tokens : t.tokens.LinkedTo t.applications Token.appId
  permissions : t.accessLists.LinkedTo t.applications AccessList.appId
  domainNames : t.domains.Distinct fun d => (d.name, d.systemId)
  groupNames : t.groups.Distinct fun g => (g.name, g.domainId)
  applicationNames : t.applications.Distinct fun a => (a.name, a.applicationGroupId)

theorem wellFormed_empty : empty.WellFormed where
  systems _ h := absurd h Table.not_mem_empty
  groups := .empty
  applications := .empty
  tokens := .empty
  permissions := .empty
  domainNames := .empty
  groupNames := .empty
  applicationNames := .empty

variable {t t' : Tables}

/-- After a sweep every row has a parent. -/
theorem wellFormed_sweepOrphans (hsystems : ∀ d ∈ t.domains, d.systemId = defaultSystemId)
    (hdomains : t.domains.Distinct fun d => (d.name, d.systemId))
    (hgroups : t.groups.Distinct fun g => (g.name, g.domainId))
    (happs : t.applications.Distinct fun a => (a.name, a.applicationGroupId)) :
    (sweepOrphans t).WellFormed where
  systems := hsystems
  groups := .filter
  applications := .filter
  tokens := .filter
  permissions := .filter
  domainNames := hdomains
  groupNames := hgroups.mono fun _ h => (Table.mem_filter.1 h).1
  applicationNames := happs.mono fun _ h => (Table.mem_filter.1 h).1

/-- An application in the place of another one keeps the names distinct. -/
theorem WellFormed.replaceApplication (h : t.WellFormed) {current : Application}
    (row : Application) (hcurrent : current ∈ t.applications)
    (hgroup : row.applicationGroupId = current.applicationGroupId)
    (hfree : ∀ a ∈ t.applications, a.id ≠ current.id → a.name = row.name →
      a.applicationGroupId ≠ current.applicationGroupId) :
    ((t.applications.erase current.id).insert row).LinkedTo t.groups
        Application.applicationGroupId ∧
      ((t.applications.erase current.id).insert row).Distinct
        fun a => (a.name, a.applicationGroupId) := by
  have hsub : ∀ a ∈ t.applications.erase current.id, a ∈ t.applications ∧ a.id ≠ current.id :=
    fun _ ha => Table.mem_erase.1 ha
  constructor
  · refine (h.applications.mono fun a ha => (hsub a ha).1).insert ?_
    rw [hgroup]
    exact h.applications current hcurrent
  · refine (h.applicationNames.mono fun a ha => (hsub a ha).1).insert fun a ha _ heq => ?_
    obtain ⟨hname, hparent⟩ := Prod.mk.inj heq
    obtain ⟨hmem, hne⟩ := hsub a ha
    exact hfree a hmem hne hname (hparent.trans hgroup)

/-- Links to the applications survive a move, if the rows move along. -/
theorem contains_replaceApplication {apps : Table Application} {row : Application}
    {oldId id : Int32} (h : apps.contains id = true) (hid : id = oldId → row.id = oldId) :
    ((apps.erase oldId).insert row).contains id = true := by
  obtain ⟨a, ha, rfl⟩ := Table.contains_iff.1 h
  by_cases hold : a.id = oldId
  · rw [Application.key_eq, hold, ← hid hold]
    exact Table.contains_insert_self
  · exact Table.contains_insert (Table.contains_of_mem (Table.mem_erase.2 ⟨ha, hold⟩))

theorem Edit.wellFormed (e : Edit t t') (h : t.WellFormed) : t'.WellFormed := by
  cases e with
  | nothing => exact h
  | @addDomain row _ hsystem hfree =>
    refine { h with systems := fun d hd => ?_, groups := ?_, domainNames := ?_ }
    · rcases Table.mem_insert.1 hd with rfl | ⟨hd, _⟩
      · exact hsystem
      · exact h.systems d hd
    · exact h.groups.change_parents fun _ => Table.contains_insert
    · refine h.domainNames.insert fun d hd _ heq => ?_
      obtain ⟨hname, hsys⟩ := Prod.mk.inj heq
      exact hfree d hd hname hsys
  | @renameDomain current name description now hcurrent hfree =>
    refine { h with systems := fun d hd => ?_, groups := ?_, domainNames := ?_ }
    · rcases Table.mem_insert.1 hd with rfl | ⟨hd, _⟩
      · exact h.systems current hcurrent
      · exact h.systems d hd
    · exact h.groups.change_parents fun _ => Table.contains_insert
    · refine h.domainNames.insert fun d hd hne heq => ?_
      obtain ⟨hname, hsys⟩ := Prod.mk.inj heq
      exact hfree d hd hne hname hsys
  | removeDomains ids =>
    exact wellFormed_sweepOrphans (fun d hd => h.systems d (Table.mem_of_mem_eraseAll hd))
      (h.domainNames.mono fun _ => Table.mem_of_mem_eraseAll) h.groupNames h.applicationNames
  | @addGroup row _ hparent hfree =>
    refine { h with groups := ?_, applications := ?_, groupNames := ?_ }
    · exact h.groups.insert hparent
    · exact h.applications.change_parents fun _ => Table.contains_insert
    · refine h.groupNames.insert fun g hg _ heq => ?_
      obtain ⟨hname, hdom⟩ := Prod.mk.inj heq
      exact hfree g hg hname hdom
  | @renameGroup current name description now hcurrent hfree =>
    refine { h with groups := ?_, applications := ?_, groupNames := ?_ }
    · exact h.groups.insert (h.groups current hcurrent)
    · exact h.applications.change_parents fun _ => Table.contains_insert
    · refine h.groupNames.insert fun g hg hne heq => ?_
      obtain ⟨hname, hdom⟩ := Prod.mk.inj heq
      exact hfree g hg hne hname hdom
  | removeGroups ids =>
    exact wellFormed_sweepOrphans h.systems h.domainNames
      (h.groupNames.mono fun _ => Table.mem_of_mem_eraseAll) h.applicationNames
  | @addApplication row _ hparent hfree =>
    refine { h with applications := ?_, tokens := ?_, permissions := ?_, applicationNames := ?_ }
    · exact h.applications.insert hparent
    · exact h.tokens.change_parents fun _ => Table.contains_insert
    · exact h.permissions.change_parents fun _ => Table.contains_insert
    · refine h.applicationNames.insert fun a ha _ heq => ?_
      obtain ⟨hname, hgroup⟩ := Prod.mk.inj heq
      exact hfree a ha hname hgroup
  | @renameApplication current name description now hcurrent hfree =>
    obtain ⟨happs, hnames⟩ := h.replaceApplication
      { current with name, description, updatedAt := now } hcurrent rfl hfree
    refine { h with
      applications := happs, tokens := ?_, permissions := ?_, applicationNames := hnames }
    · exact h.tokens.change_parents fun _ hid => contains_replaceApplication hid fun _ => rfl
    · exact h.permissions.change_parents fun _ hid => contains_replaceApplication hid fun _ => rfl
  | @moveApplication current newId name description now hcurrent hid hfree =>
    obtain ⟨happs, hnames⟩ := h.replaceApplication
      { current with id := newId, name, description, updatedAt := now } hcurrent rfl hfree
    refine { h with
      applications := happs, tokens := ?_, permissions := ?_, applicationNames := hnames }
    · intro k hk
      obtain ⟨k, hmem, rfl⟩ := (Table.mem_map fun _ => by split <;> rfl).1 hk
      split
      · exact Table.contains_insert_self
      · rename_i hne
        exact contains_replaceApplication (h.tokens k hmem) fun heq => absurd heq hne
    · refine Table.LinkedTo.insertAll (fun a ha => ?_) fun a ha => ?_
      · obtain ⟨ha, hne⟩ := Table.mem_filter.1 ha
        refine contains_replaceApplication (h.permissions a ha) fun heq => absurd heq ?_
        simpa using hne
      · obtain ⟨b, _, rfl⟩ := List.mem_map.1 ha
        exact Table.contains_insert_self
  | removeApplications ids =>
    exact wellFormed_sweepOrphans h.systems h.domainNames h.groupNames
      (h.applicationNames.mono fun _ => Table.mem_of_mem_eraseAll)
  | addToken _ howner => exact { h with tokens := h.tokens.insert howner }
  | removeTokens texts =>
    exact { h with tokens := h.tokens.mono fun _ => Table.mem_of_mem_eraseAll }
  | putPermissions howner => exact { h with permissions := h.permissions.insertAll howner }
  | removePermissions p =>
    exact { h with permissions := h.permissions.mono fun _ ha => (Table.mem_filter.1 ha).1 }

/-! ## New ids -/

/-- The ids of all domains lie below the next one. -/
def DomainsBelow (t : Tables) : Prop := ∀ d ∈ t.domains, d.id < t.nextDomainId

/-- The ids of all groups lie below the next one. -/
def GroupsBelow (t : Tables) : Prop := ∀ g ∈ t.groups, g.id < t.nextGroupId

theorem domainsBelow_empty : empty.DomainsBelow := fun _ h => absurd h Table.not_mem_empty

theorem groupsBelow_empty : empty.GroupsBelow := fun _ h => absurd h Table.not_mem_empty

theorem DomainsBelow.unused (h : t.DomainsBelow) : ¬ t.domains.contains t.nextDomainId := by
  intro hused
  obtain ⟨d, hd, hid⟩ := Table.contains_iff.1 hused
  have hlt := h d hd
  rw [← Domain.key_eq, hid] at hlt
  exact Int32.lt_irrefl hlt

theorem GroupsBelow.unused (h : t.GroupsBelow) : ¬ t.groups.contains t.nextGroupId := by
  intro hused
  obtain ⟨g, hg, hid⟩ := Table.contains_iff.1 hused
  have hlt := h g hg
  rw [← AppGroup.key_eq, hid] at hlt
  exact Int32.lt_irrefl hlt

theorem toInt_add_one {n : Int32} (h : n < Int32.maxValue) : (n + 1).toInt = n.toInt + 1 := by
  have hmax := Int32.lt_iff_toInt_lt.1 h
  rw [Int32.toInt_maxValue] at hmax
  have hmin := Int32.le_toInt n
  have hone : (1 : Int32).toInt = 1 := rfl
  rw [Int32.toInt_add, hone, Int.bmod_eq_of_le] <;> omega

theorem lt_add_one_of_lt_max {n : Int32} (h : n < Int32.maxValue) : n < n + 1 := by
  rw [Int32.lt_iff_toInt_lt, toInt_add_one h]
  omega

theorem Edit.domainsBelow (e : Edit t t') (hmax : t.nextDomainId < Int32.maxValue)
    (h : t.DomainsBelow) : t'.DomainsBelow := by
  cases e with
  | addDomain hid =>
    have hnext := lt_add_one_of_lt_max hmax
    intro d hd
    rcases Table.mem_insert.1 hd with rfl | ⟨hd, _⟩
    · rw [hid]
      exact hnext
    · exact Int32.lt_trans (h d hd) hnext
  | @renameDomain current _ _ _ hcurrent =>
    intro d hd
    rcases Table.mem_insert.1 hd with rfl | ⟨hd, _⟩
    · exact h current hcurrent
    · exact h d hd
  | removeDomains ids => exact fun d hd => h d (Table.mem_of_mem_eraseAll hd)
  | _ => exact h

theorem Edit.groupsBelow (e : Edit t t') (hmax : t.nextGroupId < Int32.maxValue)
    (h : t.GroupsBelow) : t'.GroupsBelow := by
  cases e with
  | addGroup hid =>
    have hnext := lt_add_one_of_lt_max hmax
    intro g hg
    rcases Table.mem_insert.1 hg with rfl | ⟨hg, _⟩
    · rw [hid]
      exact hnext
    · exact Int32.lt_trans (h g hg) hnext
  | @renameGroup current _ _ _ hcurrent =>
    intro g hg
    rcases Table.mem_insert.1 hg with rfl | ⟨hg, _⟩
    · exact h current hcurrent
    · exact h g hg
  | removeDomains ids => exact fun g hg => h g (Table.mem_filter.1 hg).1
  | removeGroups ids =>
    exact fun g hg => h g (Table.mem_of_mem_eraseAll (Table.mem_filter.1 hg).1)
  | removeApplications ids => exact fun g hg => h g (Table.mem_filter.1 hg).1
  | _ => exact h

/-! ## The next id of an application -/

theorem nextApplicationId_cases (t : Tables) :
    t.nextApplicationId = 1 ∨ ∃ a ∈ t.applications, t.nextApplicationId = a.id + 1 := by
  unfold nextApplicationId
  cases hlast : t.applications.last? with
  | none => exact .inl rfl
  | some last => exact .inr ⟨last, (Table.last?_eq_some hlast).1, rfl⟩

theorem lt_nextApplicationId (h : ∀ a ∈ t.applications, a.id < Int32.maxValue) {a : Application}
    (ha : a ∈ t.applications) : a.id < t.nextApplicationId := by
  unfold nextApplicationId
  cases hlast : t.applications.last? with
  | none => exact absurd ha (Table.last?_eq_none hlast)
  | some last =>
    obtain ⟨hmem, hall⟩ := Table.last?_eq_some hlast
    have hnext := lt_add_one_of_lt_max (h last hmem)
    rcases hall a ha with rfl | hlt
    · exact hnext
    · exact Int32.lt_trans (Std.compare_eq_lt.1 hlt) hnext

theorem nextApplicationId_unused (h : ∀ a ∈ t.applications, a.id < Int32.maxValue) :
    ¬ t.applications.contains t.nextApplicationId := by
  intro hused
  obtain ⟨a, ha, hid⟩ := Table.contains_iff.1 hused
  have hlt := lt_nextApplicationId h ha
  rw [← Application.key_eq, hid] at hlt
  exact Int32.lt_irrefl hlt

theorem nextApplicationId_pos (h : ∀ a ∈ t.applications, 0 < a.id ∧ a.id < Int32.maxValue) :
    0 < t.nextApplicationId := by
  rcases nextApplicationId_cases t with hid | ⟨a, ha, hid⟩
  · rw [hid]
    decide
  · rw [hid]
    exact Int32.lt_trans (h a ha).1 (lt_add_one_of_lt_max (h a ha).2)

theorem lt_max_of_lt_sub_one {n : Int32} (h : n < Int32.maxValue - 1) : n < Int32.maxValue := by
  have hlt := Int32.lt_iff_toInt_lt.1 h
  have hbound : (Int32.maxValue - 1).toInt = Int32.maxValue.toInt - 1 := by decide
  rw [Int32.lt_iff_toInt_lt]
  omega

theorem nextApplicationId_lt_max (h : ∀ a ∈ t.applications, a.id < Int32.maxValue - 1) :
    t.nextApplicationId < Int32.maxValue := by
  rcases nextApplicationId_cases t with hid | ⟨a, ha, hid⟩
  · rw [hid]
    decide
  · have hlt := Int32.lt_iff_toInt_lt.1 (h a ha)
    have hbound : (Int32.maxValue - 1).toInt = Int32.maxValue.toInt - 1 := by decide
    rw [hid, Int32.lt_iff_toInt_lt, toInt_add_one (lt_max_of_lt_sub_one (h a ha))]
    omega

end Tables
end AccessRegistry
