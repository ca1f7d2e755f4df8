import Mathlib.Data.Multiset.UnionInter
import AccessRegistry.Proofs.Schema
import AccessRegistry.Proofs.Agreement

/-!
# AccessRegistry.Proofs.Acceptance

The tables in memory accept what the schema of the database allows. A statement succeeds if the row
it is about is there and the rows that it would leave satisfy every constraint, and then it leaves
these rows; if it is refused, the failure is the one that a violated constraint is reported as
(`accepted_iff_allowed`).
-/

namespace AccessRegistry

/-! ## Rows in no order -/

/-- Rows that an update changes into themselves. -/
theorem map_update_self {ρ : Type} {rows : Multiset ρ} {p : ρ → Prop} [DecidablePred p]
    {f : ρ → ρ} (h : ∀ r ∈ rows, p r → f r = r) :
    (rows.map fun r => if p r then f r else r) = rows := by
  refine (Multiset.map_congr rfl fun r hr => ?_).trans (Multiset.map_id rows)
  split
  · exact h r hr ‹_›
  · rfl

namespace Table

variable {ρ κ : Type} [Keyed ρ κ] {t : Table ρ} {r s : ρ} {k : κ}

@[simp]
theorem mem_bag : r ∈ t.bag ↔ r ∈ t := Multiset.mem_coe

theorem nodup_keys : (t.bag.map Keyed.key).Nodup := by
  rw [bag, Multiset.map_coe, Multiset.coe_nodup, List.Nodup, List.pairwise_map]
  exact t.pairwise_key_ne

theorem nodup_bag : t.bag.Nodup := Multiset.Nodup.of_map _ nodup_keys

theorem bag_eq {m : Multiset ρ} (hm : m.Nodup) (h : ∀ r, r ∈ t ↔ r ∈ m) : t.bag = m :=
  (Multiset.Nodup.ext nodup_bag hm).2 fun r => mem_bag.trans (h r)

/-- A table whose rows are those of another one that pass a test. -/
theorem bag_eq_filter {u : Table ρ} {p : ρ → Prop} [DecidablePred p]
    (h : ∀ r, r ∈ u ↔ r ∈ t ∧ p r) : u.bag = t.bag.filter p := by
  refine bag_eq (nodup_bag.filter p) fun r => ?_
  rw [h, Multiset.mem_filter, mem_bag]

theorem bag_insert [DecidableEq κ] (t : Table ρ) (r : ρ) :
    (t.insert r).bag = r ::ₘ t.bag.filter fun s => Keyed.key s ≠ Keyed.key r := by
  refine bag_eq (Multiset.nodup_cons.2 ⟨?_, nodup_bag.filter _⟩) fun s => ?_
  · simp
  · rw [mem_insert, Multiset.mem_cons, Multiset.mem_filter, mem_bag]

theorem bag_insert_new (h : ¬ t.contains (Keyed.key r)) : (t.insert r).bag = r ::ₘ t.bag := by
  classical
  rw [bag_insert, Multiset.filter_eq_self.2]
  intro s hs heq
  exact h (contains_iff.2 ⟨s, mem_bag.1 hs, heq⟩)

/-- A row changed where it is. -/
theorem map_replace [DecidableEq κ] (hs : s ∈ t) (f : ρ → ρ) :
    (t.bag.map fun r => if Keyed.key r = Keyed.key s then f r else r) =
      f s ::ₘ t.bag.filter fun r => Keyed.key r ≠ Keyed.key s := by
  have hbag : t.bag = s ::ₘ t.bag.filter fun r => Keyed.key r ≠ Keyed.key s := by
    rw [← bag_insert]
    refine bag_eq nodup_bag fun r => ?_
    rw [mem_bag, mem_insert]
    constructor
    · intro hr
      by_cases hkey : Keyed.key r = Keyed.key s
      · exact .inl (eq_of_key_eq hr hs hkey)
      · exact .inr ⟨hr, hkey⟩
    · rintro (rfl | ⟨hr, _⟩)
      · exact hs
      · exact hr
  conv_lhs => rw [hbag]
  rw [Multiset.map_cons, if_pos rfl]
  congr 1
  exact map_update_self fun r hr hkey => absurd hkey (Multiset.mem_filter.1 hr).2

theorem bag_update [DecidableEq κ] (hs : s ∈ t) {f : ρ → ρ} (hkey : Keyed.key (f s) = Keyed.key s) :
    (t.insert (f s)).bag = t.bag.map fun r => if Keyed.key r = Keyed.key s then f r else r := by
  rw [bag_insert, map_replace hs, hkey]

/-- A row that may get another key, if that key is free. -/
theorem bag_move [DecidableEq κ] (hs : s ∈ t) {f : ρ → ρ}
    (hfree : Keyed.key (f s) ≠ Keyed.key s → ¬ t.contains (Keyed.key (f s))) :
    ((t.erase (Keyed.key s)).insert (f s)).bag =
      t.bag.map fun r => if Keyed.key r = Keyed.key s then f r else r := by
  have hnew : ¬ (t.erase (Keyed.key s)).contains (Keyed.key (f s)) := by
    intro h
    obtain ⟨r, hr, heq⟩ := contains_iff.1 h
    obtain ⟨hmem, hne⟩ := mem_erase.1 hr
    exact hfree (heq ▸ hne) (contains_iff.2 ⟨r, hmem, heq⟩)
  rw [bag_insert_new hnew, map_replace hs, bag_eq_filter fun _ => mem_erase]

theorem bag_map {f : ρ → ρ} (hf : ∀ r, Keyed.key (f r) = Keyed.key r) :
    (t.map f).bag = t.bag.map f := by
  have hnodup : (t.bag.map f).Nodup := by
    refine Multiset.Nodup.of_map Keyed.key ?_
    simpa only [Multiset.map_map, Function.comp_def, hf] using nodup_keys
  refine bag_eq hnodup fun r => ?_
  rw [mem_map hf, Multiset.mem_map]
  simp only [mem_bag]

/-- Among rows that refer to a table, those whose row there stays. -/
theorem contains_filter_iff {σ : Type} {ι : Type} [Keyed σ ι] [DecidableEq ι] {parents : Table σ}
    {parent : ρ → ι} (h : t.LinkedTo parents parent) (hr : r ∈ t) (gone : σ → Prop)
    [DecidablePred gone] {left : Table σ} (hleft : ∀ s, s ∈ left ↔ s ∈ parents ∧ ¬ gone s) :
    left.contains (parent r) = true ↔
      parent r ∉ (parents.bag.filter gone).map Keyed.key := by
  rw [contains_iff, Multiset.mem_map]
  simp only [hleft, Multiset.mem_filter, mem_bag]
  obtain ⟨s, hs, hkey⟩ := contains_iff.1 (h r hr)
  constructor
  · rintro ⟨a, ⟨ha, hstays⟩, heq⟩ ⟨b, ⟨hb, hgone⟩, heq'⟩
    rw [eq_of_key_eq ha hb (heq.trans heq'.symm)] at hstays
    exact hstays hgone
  · intro hall
    exact ⟨s, ⟨hs, fun hgone => hall ⟨s, ⟨hs, hgone⟩, hkey⟩⟩, hkey⟩

/-! ## What tables satisfy -/

open Schema

theorem Distinct.unique {ν : Type} {label : ρ → ν} (h : t.Distinct label) : Unique t.bag label :=
  Multiset.Nodup.map_on (fun r hr s hs => h r (mem_bag.1 hr) s (mem_bag.1 hs)) nodup_bag

theorem LinkedTo.references {σ ι : Type} [Keyed σ ι] {parents : Table σ} {parent : ρ → ι}
    (h : t.LinkedTo parents parent) : References t.bag parent (parents.bag.map Keyed.key) := by
  intro r hr
  obtain ⟨s, hs, hkey⟩ := contains_iff.1 (h r (mem_bag.1 hr))
  exact Multiset.mem_map.2 ⟨s, mem_bag.2 hs, hkey⟩

theorem mem_keys : k ∈ t.bag.map Keyed.key ↔ t.contains k = true := by
  rw [contains_iff, Multiset.mem_map]
  simp only [mem_bag]

end Table

namespace Schema

variable {ρ ν : Type} {rows : Multiset ρ} {columns : ρ → ν} {r s : ρ}

theorem not_unique_cons (hs : s ∈ rows) (heq : columns s = columns r) :
    ¬ Unique (r ::ₘ rows) columns := by
  rw [Unique, Multiset.map_cons, Multiset.nodup_cons]
  exact fun h => h.1 (Multiset.mem_map.2 ⟨s, hs, heq⟩)

theorem not_unique_map {f : ρ → ρ} (hr : r ∈ rows) (hs : s ∈ rows) (hne : r ≠ s)
    (heq : columns (f r) = columns (f s)) : ¬ Unique (rows.map f) columns := by
  rw [Unique, Multiset.map_map]
  exact fun h => hne (Multiset.inj_on_of_nodup_map h r hr s hs heq)

theorem references_cons {column : ρ → ν} {keys : Multiset ν} :
    References (r ::ₘ rows) column keys ↔ column r ∈ keys ∧ References rows column keys :=
  Multiset.forall_mem_cons

end Schema

namespace Tables

open Schema

variable {t t' : Tables} {α β : Type}

/-- Whatever the rows are, keys are unique. -/
theorem WellFormed.holds (h : t.WellFormed) (c : Constraint) : c.Holds t.database := by
  cases c with
  | domainKey => exact Table.nodup_keys (t := t.domains)
  | domainName => exact h.domainNames.unique
  | domainSystem =>
    exact fun d hd => Multiset.mem_singleton.2 (h.systems d (Table.mem_bag.1 hd))
  | groupKey => exact Table.nodup_keys (t := t.groups)
  | groupName => exact h.groupNames.unique
  | groupDomain => exact h.groups.references
  | applicationKey => exact Table.nodup_keys (t := t.applications)
  | applicationName => exact h.applicationNames.unique
  | applicationGroup => exact h.applications.references
  | applicationType =>
    intro a _
    cases a.type <;> simp [ApplicationType.text]
  | tokenKey => exact Table.nodup_keys (t := t.tokens)
  | tokenApplication => exact h.tokens.references
  | accessListKey =>
    refine Multiset.Nodup.map_on (fun a ha b hb heq => ?_) Table.nodup_bag
    obtain ⟨happ, hmethod⟩ := Prod.mk.inj heq
    exact Table.eq_of_key_eq (Table.mem_bag.1 ha) (Table.mem_bag.1 hb)
      (PermissionKey.mk.injEq .. ▸ ⟨happ, hmethod⟩)
  | accessListApplication => exact h.permissions.references

/-- The outcome of a statement agrees with the schema: it succeeds with the rows that the statement
leaves, or one of the constraints is to blame, unless there is no row to update. -/
def Agrees (target : Prop) (naive : Database) : Except Failure α × Tables → Prop
  | (.ok _, t') => target ∧ t'.database = naive
  | (.error f, _) => target → ∃ c : Constraint, ¬ c.Holds naive ∧ c.failure? = some f

/-! ## Domains -/

theorem createDomain_agrees (hbelow : t.DomainsBelow) (now : Instant)
    (name description : String) (systemId : Int32) :
    Agrees True ((Write.createDomain name description systemId).naive now t.database)
      ((createDomain now name description systemId).apply t) := by
  rw [apply_createDomain]
  split
  · rename_i hname
    obtain ⟨d, hd, heq⟩ := Table.any_iff.1 hname
    obtain ⟨hname, hsystem⟩ := of_decide_eq_true heq
    refine fun _ => ⟨.domainName, not_unique_cons (Table.mem_bag.2 hd) ?_, rfl⟩
    rw [hname, hsystem]
  split
  · rename_i hsystem
    refine fun _ => ⟨.domainSystem, fun h : References (_ ::ₘ t.domains.bag) _ _ => hsystem ?_, rfl⟩
    exact Multiset.mem_singleton.1 (references_cons.1 h).1
  · let row : Domain := ⟨t.nextDomainId, name, description, systemId, now, now⟩
    have hnew : ¬ t.domains.contains (Keyed.key row) := by
      intro h
      obtain ⟨d, hd, hid⟩ := Table.contains_iff.1 h
      have hlt : d.id < t.nextDomainId := hbelow d hd
      have heq : d.id = t.nextDomainId := hid
      rw [heq] at hlt
      exact Int32.lt_irrefl hlt
    exact ⟨trivial, Database.ext (Table.bag_insert_new hnew) rfl rfl rfl rfl rfl rfl⟩

theorem updateDomain_agrees (now : Instant) (id : Int32) (name description : String) :
    Agrees ((Write.updateDomain id name description).TargetExists t.database)
      ((Write.updateDomain id name description).naive now t.database)
      ((updateDomain now id name description).apply t) := by
  rw [apply_updateDomain]
  cases hfind : t.domains.find? id with
  | none =>
    rintro ⟨d, hd, rfl⟩
    rw [← Domain.key_eq, Table.find?_of_mem (Table.mem_bag.1 hd)] at hfind
    cases hfind
  | some current =>
    obtain ⟨hcurrent, hid⟩ := Table.find?_eq_some_iff.1 hfind
    rw [Domain.key_eq] at hid
    subst hid
    dsimp only
    split
    · rename_i hname
      obtain ⟨d, hd, heq⟩ := Table.any_iff.1 hname
      obtain ⟨hne, hname, hsystem⟩ := of_decide_eq_true heq
      refine fun _ => ⟨.domainName, ?_, rfl⟩
      refine not_unique_map (Table.mem_bag.2 hcurrent) (Table.mem_bag.2 hd) ?_ ?_
      · exact fun h => hne (congrArg Domain.id h).symm
      · rw [if_pos rfl, if_neg hne, hname, hsystem]
    · refine ⟨⟨current, Table.mem_bag.2 hcurrent, rfl⟩, ?_⟩
      exact Database.ext (Table.bag_update hcurrent
        (f := fun r => { r with name, description, updatedAt := now }) rfl) rfl rfl rfl rfl rfl rfl

/-! ## Groups -/

theorem createGroup_agrees (hbelow : t.GroupsBelow) (now : Instant)
    (name description : String) (domainId : Int32) :
    Agrees True ((Write.createGroup name description domainId).naive now t.database)
      ((createGroup now name description domainId).apply t) := by
  rw [apply_createGroup]
  split
  · rename_i hname
    obtain ⟨g, hg, heq⟩ := Table.any_iff.1 hname
    obtain ⟨hname, hdomain⟩ := of_decide_eq_true heq
    refine fun _ => ⟨.groupName, not_unique_cons (Table.mem_bag.2 hg) ?_, rfl⟩
    rw [hname, hdomain]
  split
  · rename_i hparent
    refine fun _ => ⟨.groupDomain, fun h : References (_ ::ₘ t.groups.bag) _ _ => ?_, rfl⟩
    have hcontains := Table.mem_keys.1 (references_cons.1 h).1
    rw [hcontains] at hparent
    cases hparent
  · let row : AppGroup := ⟨t.nextGroupId, name, description, domainId, now, now⟩
    have hnew : ¬ t.groups.contains (Keyed.key row) := by
      intro h
      obtain ⟨g, hg, hid⟩ := Table.contains_iff.1 h
      have hlt : g.id < t.nextGroupId := hbelow g hg
      have heq : g.id = t.nextGroupId := hid
      rw [heq] at hlt
      exact Int32.lt_irrefl hlt
    exact ⟨trivial, Database.ext rfl (Table.bag_insert_new hnew) rfl rfl rfl rfl rfl⟩

theorem updateGroup_agrees (now : Instant) (id : Int32) (name description : String) :
    Agrees ((Write.updateGroup id name description).TargetExists t.database)
      ((Write.updateGroup id name description).naive now t.database)
      ((updateGroup now id name description).apply t) := by
  rw [apply_updateGroup]
  cases hfind : t.groups.find? id with
  | none =>
    rintro ⟨g, hg, rfl⟩
    rw [← AppGroup.key_eq, Table.find?_of_mem (Table.mem_bag.1 hg)] at hfind
    cases hfind
  | some current =>
    obtain ⟨hcurrent, hid⟩ := Table.find?_eq_some_iff.1 hfind
    rw [AppGroup.key_eq] at hid
    subst hid
    dsimp only
    split
    · rename_i hname
      obtain ⟨g, hg, heq⟩ := Table.any_iff.1 hname
      obtain ⟨hne, hname, hdomain⟩ := of_decide_eq_true heq
      refine fun _ => ⟨.groupName, ?_, rfl⟩
      refine not_unique_map (Table.mem_bag.2 hcurrent) (Table.mem_bag.2 hg) ?_ ?_
      · exact fun h => hne (congrArg AppGroup.id h).symm
      · rw [if_pos rfl, if_neg hne, hname, hdomain]
    · refine ⟨⟨current, Table.mem_bag.2 hcurrent, rfl⟩, ?_⟩
      exact Database.ext rfl (Table.bag_update hcurrent
        (f := fun r => { r with name, description, updatedAt := now }) rfl) rfl rfl rfl rfl rfl

/-! ## Applications -/

theorem createApplication_agrees (now : Instant) (app : NewApplication) :
    Agrees True ((Write.createApplication app).naive now t.database)
      ((createApplication now app).apply t) := by
  rw [apply_createApplication]
  split
  · rename_i hid
    obtain ⟨a, ha, hkey⟩ := Table.contains_iff.1 hid
    exact fun _ => ⟨.applicationKey, not_unique_cons (Table.mem_bag.2 ha) hkey, rfl⟩
  rename_i hid
  split
  · rename_i hname
    obtain ⟨a, ha, heq⟩ := Table.any_iff.1 hname
    obtain ⟨hname, hgroup⟩ := of_decide_eq_true heq
    refine fun _ => ⟨.applicationName, not_unique_cons (Table.mem_bag.2 ha) ?_, rfl⟩
    rw [hname, hgroup]
  split
  · rename_i hparent
    refine fun _ =>
      ⟨.applicationGroup, fun h : References (_ ::ₘ t.applications.bag) _ _ => ?_, rfl⟩
    have hcontains := Table.mem_keys.1 (references_cons.1 h).1
    rw [hcontains] at hparent
    cases hparent
  · let row : Application :=
      ⟨app.id, app.name, app.description, app.applicationGroupId, app.type, now, now⟩
    have hnew : ¬ t.applications.contains (Keyed.key row) := hid
    exact ⟨trivial, Database.ext rfl rfl (Table.bag_insert_new hnew) rfl rfl rfl rfl⟩

/-- The rows that refer to an application go to its new id. -/
theorem database_moveChildren (hwf : t.WellFormed) {oldId newId : Int32} (hne : newId ≠ oldId)
    (hnew : ¬ t.applications.contains newId) (applications : Table Application) :
    (moveChildren oldId newId { t with applications }).database =
      { t.database with
        applications := applications.bag
        tokens := t.tokens.bag.map fun k =>
          if k.appId = oldId then { k with appId := newId } else k
        accessLists := t.accessLists.bag.map fun l =>
          if l.appId = oldId then { l with appId := newId } else l } := by
  have htokens : (moveChildren oldId newId { t with applications }).tokens.bag =
      t.tokens.bag.map fun k => if k.appId = oldId then { k with appId := newId } else k :=
    Table.bag_map fun k => by split <;> rfl
  -- no permission belongs to an id that no application has
  have hunused : ∀ l ∈ t.accessLists, l.appId ≠ newId := by
    rintro l hl rfl
    exact hnew (hwf.permissions l hl)
  have hlists : (moveChildren oldId newId { t with applications }).accessLists.bag =
      t.accessLists.bag.map fun l =>
        if l.appId = oldId then { l with appId := newId } else l := by
    refine Table.bag_eq (Multiset.Nodup.map_on ?_ Table.nodup_bag) fun l => ?_
    · intro a ha b hb heq
      have ha := hunused a (Table.mem_bag.1 ha)
      have hb := hunused b (Table.mem_bag.1 hb)
      cases a
      cases b
      grind
    · rw [mem_moveChildren (t := { t with applications }) hunused, Multiset.mem_map]
      simp only [Table.mem_bag]
      grind
  exact Database.ext rfl rfl rfl htokens hlists rfl rfl

theorem updateApplication_agrees (hwf : t.WellFormed) (now : Instant) (oldId newId : Int32)
    (name description : String) :
    Agrees ((Write.updateApplication oldId newId name description).TargetExists t.database)
      ((Write.updateApplication oldId newId name description).naive now t.database)
      ((updateApplication now oldId newId name description).apply t) := by
  rw [apply_updateApplication]
  cases hfind : t.applications.find? oldId with
  | none =>
    rintro ⟨a, ha, rfl⟩
    rw [← Application.key_eq, Table.find?_of_mem (Table.mem_bag.1 ha)] at hfind
    cases hfind
  | some current =>
    obtain ⟨hcurrent, hid⟩ := Table.find?_eq_some_iff.1 hfind
    rw [Application.key_eq] at hid
    subst hid
    dsimp only
    split
    · rename_i hused
      obtain ⟨hne, hcontains⟩ := hused
      obtain ⟨a, ha, hkey⟩ := Table.contains_iff.1 hcontains
      rw [Application.key_eq] at hkey
      subst hkey
      refine fun _ => ⟨.applicationKey, ?_, rfl⟩
      refine not_unique_map (Table.mem_bag.2 hcurrent) (Table.mem_bag.2 ha) ?_ ?_
      · exact fun h => hne (congrArg Application.id h).symm
      · rw [if_pos rfl, if_neg hne]
    rename_i hfree
    split
    · rename_i hname
      obtain ⟨a, ha, heq⟩ := Table.any_iff.1 hname
      obtain ⟨hne, hname, hgroup⟩ := of_decide_eq_true heq
      refine fun _ => ⟨.applicationName, ?_, rfl⟩
      refine not_unique_map (Table.mem_bag.2 hcurrent) (Table.mem_bag.2 ha) ?_ ?_
      · exact fun h => hne (congrArg Application.id h).symm
      · rw [if_pos rfl, if_neg hne, hname, hgroup]
    · refine ⟨⟨current, Table.mem_bag.2 hcurrent, rfl⟩, ?_⟩
      have hrows := Table.bag_move hcurrent
        (f := fun r => { r with id := newId, name, description, updatedAt := now })
        fun hne hcontains => hfree ⟨hne, hcontains⟩
      split
      · rename_i hsame
        -- whatever refers to the application keeps its id
        refine Database.ext rfl rfl hrows ?_ ?_ rfl rfl
        · exact (map_update_self fun k _ happ => by rw [hsame, ← happ]).symm
        · exact (map_update_self fun l _ happ => by rw [hsame, ← happ]).symm
      · rename_i hne
        rw [database_moveChildren hwf hne fun hcontains => hfree ⟨hne, hcontains⟩]
        exact Database.ext rfl rfl hrows rfl rfl rfl rfl

/-! ## Tokens and permissions -/

theorem saveToken_agrees (now : Instant) (token : Token) :
    Agrees True ((Write.saveToken token).naive now t.database) ((saveToken token).apply t) := by
  rw [apply_saveToken]
  split
  · rename_i hkey
    obtain ⟨k, hk, heq⟩ := Table.contains_iff.1 hkey
    exact fun _ => ⟨.tokenKey, not_unique_cons (Table.mem_bag.2 hk) heq, rfl⟩
  rename_i hkey
  split
  · rename_i howner
    refine fun _ => ⟨.tokenApplication, fun h : References (_ ::ₘ t.tokens.bag) _ _ => ?_, rfl⟩
    have hcontains := Table.mem_keys.1 (references_cons.1 h).1
    rw [hcontains] at howner
    cases howner
  · exact ⟨trivial, Database.ext rfl rfl rfl (Table.bag_insert_new hkey) rfl rfl rfl⟩

theorem deleteTokens_agrees (now : Instant) (appId : Int32) (texts : List String) :
    Agrees True ((Write.deleteTokens appId texts).naive now t.database)
      ((deleteTokens appId texts).apply t) := by
  rw [apply_deleteTokens]
  refine ⟨trivial, Database.ext rfl rfl rfl (Table.bag_eq_filter fun k => ?_) rfl rfl rfl⟩
  rw [Table.mem_eraseAll, owned, List.mem_filter]
  refine and_congr_right fun hk => ?_
  rw [Table.find?_of_mem hk, Option.any_some, decide_eq_true_eq, Token.key_eq, and_comm]

theorem upsertAccessList_agrees (now : Instant) (row : AccessList) :
    Agrees True ((Write.upsertAccessList row).naive now t.database)
      ((upsertAccessList row).apply t) := by
  rw [apply_upsertAccessList]
  split
  · rename_i howner
    refine fun _ => ⟨.accessListApplication,
      fun h : References (row ::ₘ t.accessLists.bag.filter _) _ _ => ?_, rfl⟩
    have hcontains := Table.mem_keys.1 (references_cons.1 h).1
    rw [hcontains] at howner
    cases howner
  · refine ⟨trivial, Database.ext rfl rfl rfl rfl ((Table.bag_insert _ _).trans ?_) rfl rfl⟩
    refine congrArg (row ::ₘ ·) (Multiset.filter_congr fun l _ => ?_)
    rw [AccessList.key_eq, AccessList.key_eq, ne_eq, PermissionKey.mk.injEq]

/-- Permissions are refused one by one for what is wrong with all of them. -/
theorem forM_insertAccessList_agrees (rows : List AccessList) :
    Agrees True { t.database with accessLists := rows + t.accessLists.bag }
      ((rows.forM insertAccessList).apply t) := by
  induction rows generalizing t with
  | nil => exact ⟨trivial, Database.ext rfl rfl rfl rfl (Multiset.zero_add _).symm rfl rfl⟩
  | cons row rest ih =>
    have hstep : ((row :: rest).forM insertAccessList).apply t =
        (insertAccessList row >>= fun _ => rest.forM insertAccessList).apply t := rfl
    have hrows : ((row :: rest : List AccessList) : Multiset AccessList) + t.accessLists.bag =
        row ::ₘ (rest + t.accessLists.bag) := Multiset.cons_add row rest t.accessLists.bag
    rw [hstep, Change.apply_bind, apply_insertAccessList, hrows]
    by_cases howner : t.applications.contains row.appId
    case neg =>
      simp only [howner, Bool.not_false, if_true]
      refine fun _ => ⟨.accessListApplication,
        fun h : References (row ::ₘ (rest + t.accessLists.bag)) _ _ => ?_, rfl⟩
      exact howner (Table.mem_keys.1 (references_cons.1 h).1)
    by_cases hfresh : t.accessLists.contains row.key
    case pos =>
      simp only [howner, hfresh, Bool.not_true, Bool.false_eq_true, if_false, if_true]
      obtain ⟨l, hl, hkey⟩ := Table.contains_iff.1 hfresh
      obtain ⟨happ, hmethod⟩ := PermissionKey.mk.inj hkey
      have htwice : ¬ Unique (row ::ₘ (rest + t.accessLists.bag)) fun l => (l.appId, l.method) := by
        refine not_unique_cons (Multiset.mem_add.2 (.inr (Table.mem_bag.2 hl))) ?_
        rw [happ, hmethod]
      exact fun _ => ⟨.accessListKey, htwice, rfl⟩
    simp only [howner, hfresh, Bool.not_true, Bool.false_eq_true, if_false]
    have hrest := @ih { t with accessLists := t.accessLists.insert row }
    have hbag : (t.accessLists.insert row).bag = row ::ₘ t.accessLists.bag :=
      Table.bag_insert_new hfresh
    rw [hbag, Multiset.add_cons] at hrest
    exact hrest

theorem insertAccessLists_agrees (now : Instant) (rows : List AccessList) :
    Agrees True ((Write.insertAccessLists rows).naive now t.database)
      ((insertAccessLists rows).apply t) := by
  have h := forM_insertAccessList_agrees (t := t) rows
  rw [apply_insertAccessLists]
  cases hrun : (rows.forM insertAccessList).apply t with
  | mk r t' =>
    rw [hrun] at h
    cases r <;> exact h

theorem deleteAccessListsWhere_agrees (gone : AccessList → Prop) [DecidablePred gone] :
    Agrees True { t.database with accessLists := t.accessLists.bag.filter fun l => ¬ gone l }
      ((deleteAccessListsWhere fun l => gone l).apply t) := by
  rw [apply_deleteAccessListsWhere]
  refine ⟨trivial, Database.ext rfl rfl rfl rfl (Table.bag_eq_filter fun l => ?_) rfl rfl⟩
  rw [Table.mem_filter, Bool.not_eq_true', decide_eq_false_iff_not]

/-! ## Deletion -/

/-- A sweep after applications are gone is the cascade. -/
theorem database_sweep_applications (hwf : t.WellFormed) (gone : Application → Prop)
    [DecidablePred gone] {left : Table Application}
    (hleft : ∀ a, a ∈ left ↔ a ∈ t.applications ∧ ¬ gone a) :
    (sweepOrphans { t with applications := left }).database =
      t.database.deleteApplications gone := by
  have hgroups : (t.groups.filter fun g => t.domains.contains g.domainId) = t.groups :=
    Table.filter_eq_self hwf.groups
  have happs : (left.filter fun a => t.groups.contains a.applicationGroupId) = left :=
    Table.filter_eq_self fun a ha => hwf.applications a ((hleft a).1 ha).1
  have hsweep : sweepOrphans { t with applications := left } =
      { t with
        applications := left
        tokens := t.tokens.filter fun k => left.contains k.appId
        accessLists := t.accessLists.filter fun l => left.contains l.appId } := by
    simp only [sweepOrphans, hgroups, happs]
  rw [hsweep]
  refine Database.ext rfl rfl (Table.bag_eq_filter hleft) ?_ ?_ rfl rfl
  · refine Table.bag_eq_filter fun k => Table.mem_filter.trans (and_congr_right fun hk => ?_)
    exact Table.contains_filter_iff hwf.tokens hk gone hleft
  · refine Table.bag_eq_filter fun l => Table.mem_filter.trans (and_congr_right fun hl => ?_)
    exact Table.contains_filter_iff hwf.permissions hl gone hleft

theorem database_sweep_groups (hwf : t.WellFormed) (gone : AppGroup → Prop) [DecidablePred gone]
    {left : Table AppGroup} (hleft : ∀ g, g ∈ left ↔ g ∈ t.groups ∧ ¬ gone g) :
    (sweepOrphans { t with groups := left }).database = t.database.deleteGroups gone := by
  have hlinked : (left.filter fun g => t.domains.contains g.domainId) = left :=
    Table.filter_eq_self fun g hg => hwf.groups g ((hleft g).1 hg).1
  have hgroups : (t.groups.filter fun g => t.domains.contains g.domainId) = t.groups :=
    Table.filter_eq_self hwf.groups
  let apps := t.applications.filter fun a => left.contains a.applicationGroupId
  have happs : ∀ a, a ∈ apps ↔ a ∈ t.applications ∧
      ¬ a.applicationGroupId ∈ (t.groups.bag.filter gone).map AppGroup.id := fun a =>
    Table.mem_filter.trans (and_congr_right fun ha =>
      Table.contains_filter_iff hwf.applications ha gone hleft)
  have hparents : (apps.filter fun a => t.groups.contains a.applicationGroupId) = apps :=
    Table.filter_eq_self fun a ha => hwf.applications a ((happs a).1 ha).1
  -- the applications of the groups that are gone are swept as if they had been deleted
  have hsweep : sweepOrphans { t with groups := left } =
      { sweepOrphans { t with applications := apps } with groups := left } := by
    simp only [sweepOrphans, hlinked, hgroups, hparents]
    rfl
  have hcascade := database_sweep_applications hwf _ happs
  have happlications := congrArg Database.applications hcascade
  have htokens := congrArg Database.tokens hcascade
  have hlists := congrArg Database.accessLists hcascade
  rw [hsweep]
  exact Database.ext rfl (Table.bag_eq_filter hleft) happlications htokens hlists rfl rfl

theorem database_sweep_domains (hwf : t.WellFormed) (gone : Domain → Prop) [DecidablePred gone]
    {left : Table Domain} (hleft : ∀ d, d ∈ left ↔ d ∈ t.domains ∧ ¬ gone d) :
    (sweepOrphans { t with domains := left }).database = t.database.deleteDomains gone := by
  let groups := t.groups.filter fun g => left.contains g.domainId
  have hgroups : ∀ g, g ∈ groups ↔ g ∈ t.groups ∧
      ¬ g.domainId ∈ (t.domains.bag.filter gone).map Domain.id := fun g =>
    Table.mem_filter.trans (and_congr_right fun hg =>
      Table.contains_filter_iff hwf.groups hg gone hleft)
  have hparents : (groups.filter fun g => t.domains.contains g.domainId) = groups :=
    Table.filter_eq_self fun g hg => hwf.groups g ((hgroups g).1 hg).1
  have hsweep : sweepOrphans { t with domains := left } =
      { sweepOrphans { t with groups := groups } with domains := left } := by
    simp only [sweepOrphans, hparents]
    rfl
  have hcascade := database_sweep_groups hwf _ hgroups
  have hgroups' := congrArg Database.groups hcascade
  have happlications := congrArg Database.applications hcascade
  have htokens := congrArg Database.tokens hcascade
  have hlists := congrArg Database.accessLists hcascade
  rw [hsweep]
  exact Database.ext (Table.bag_eq_filter hleft) hgroups' happlications htokens hlists rfl rfl

/-! ## All statements -/

theorem write_agrees (hwf : t.WellFormed) (hdomains : t.DomainsBelow) (hgroups : t.GroupsBelow)
    (now : Instant) (w : Write α) :
    Agrees (w.TargetExists t.database) (w.naive now t.database) ((w.change now).apply t) := by
  cases w with
  | createDomain name description systemId =>
    exact createDomain_agrees hdomains now name description systemId
  | updateDomain id name description => exact updateDomain_agrees now id name description
  | deleteDomains ids =>
    exact ⟨trivial, database_sweep_domains hwf _ fun _ => Table.mem_eraseAll⟩
  | createGroup name description domainId =>
    exact createGroup_agrees hgroups now name description domainId
  | updateGroup id name description => exact updateGroup_agrees now id name description
  | deleteGroups ids =>
    exact ⟨trivial, database_sweep_groups hwf _ fun _ => Table.mem_eraseAll⟩
  | createApplication app => exact createApplication_agrees now app
  | updateApplication oldId newId name description =>
    exact updateApplication_agrees hwf now oldId newId name description
  | deleteApplications ids =>
    exact ⟨trivial, database_sweep_applications hwf _ fun _ => Table.mem_eraseAll⟩
  | saveToken token => exact saveToken_agrees now token
  | deleteTokens appId texts => exact deleteTokens_agrees now appId texts
  | upsertAccessList row => exact upsertAccessList_agrees now row
  | insertAccessLists rows => exact insertAccessLists_agrees now rows
  | deleteAccessLists appId => exact deleteAccessListsWhere_agrees fun l => l.appId = appId
  | deleteAccessListMethods appId methods =>
    have hmethods : deleteAccessListMethods appId methods =
        deleteAccessListsWhere fun l => l.appId = appId ∧ l.method ∈ methods := by
      simp only [deleteAccessListMethods, List.contains_iff_mem]
    rw [Write.change, hmethods]
    exact deleteAccessListsWhere_agrees _

theorem write_edit (now : Instant) (w : Write α) : Edit t ((w.change now).apply t).2 := by
  cases w with
  | createDomain name description systemId => exact createDomain_edit now name description systemId
  | updateDomain id name description => exact updateDomain_edit now id name description
  | deleteDomains ids => exact .removeDomains ids
  | createGroup name description domainId => exact createGroup_edit now name description domainId
  | updateGroup id name description => exact updateGroup_edit now id name description
  | deleteGroups ids => exact .removeGroups ids
  | createApplication app => exact createApplication_edit now app
  | updateApplication oldId newId name description =>
    exact updateApplication_edit now oldId newId name description
  | deleteApplications ids => exact .removeApplications ids
  | saveToken token => exact saveToken_edit token
  | deleteTokens appId texts => exact .removeTokens _
  | upsertAccessList row => exact upsertAccessList_edit row
  | insertAccessLists rows => exact insertAccessLists_edit rows
  | deleteAccessLists appId => exact .removePermissions _
  | deleteAccessListMethods appId methods => exact .removePermissions _

/-- The tables accept exactly the statements that the schema allows, with the rows that they leave,
and name a violated constraint when they refuse one. -/
theorem accepted_iff_allowed (hwf : t.WellFormed) (hdomains : t.DomainsBelow)
    (hgroups : t.GroupsBelow) (now : Instant) (w : Write α) :
    ((∃ a t', (w.change now).apply t = (.ok a, t')) ↔
      w.TargetExists t.database ∧ ∀ c : Constraint, c.Holds (w.naive now t.database)) ∧
    (∀ a t', (w.change now).apply t = (.ok a, t') → t'.database = w.naive now t.database) ∧
    (∀ f t', (w.change now).apply t = (.error f, t') → w.TargetExists t.database →
      ∃ c : Constraint, ¬ c.Holds (w.naive now t.database) ∧ c.failure? = some f) := by
  have hagrees := write_agrees hwf hdomains hgroups now w
  have hedit := write_edit (t := t) now w
  cases hrun : (w.change now).apply t with
  | mk r t' =>
    rw [hrun] at hagrees hedit
    cases r with
    | ok a =>
      obtain ⟨htarget, hrows⟩ := hagrees
      refine ⟨⟨fun _ => ⟨htarget, fun c => ?_⟩, fun _ => ⟨a, t', rfl⟩⟩, ?_, ?_⟩
      · rw [← hrows]
        exact (hedit.wellFormed hwf).holds c
      · rintro _ _ ⟨⟩
        exact hrows
      · rintro _ _ ⟨⟩
    | error f =>
      refine ⟨⟨?_, fun hallowed => ?_⟩, ?_, ?_⟩
      · rintro ⟨_, _, ⟨⟩⟩
      · obtain ⟨c, hviolated, _⟩ := hagrees hallowed.1
        exact absurd (hallowed.2 c) hviolated
      · rintro _ _ ⟨⟩
      · rintro _ _ ⟨⟩
        exact hagrees

/-- A domain under the name of another one is refused for what the schema says against it. -/
theorem refused_second_domain :
    let t := ((createDomain ⟨0, 0⟩ "a" "" 1).apply .empty).2
    t.WellFormed ∧ t.DomainsBelow ∧ t.GroupsBelow ∧
      ∃ c : Constraint, ¬ c.Holds ((Write.createDomain "a" "b" 1).naive ⟨1, 0⟩ t.database) ∧
        c.failure? = some .domainDuplicateName := by
  intro t
  have hedit := createDomain_edit (t := .empty) ⟨0, 0⟩ "a" "" 1
  have hwf := hedit.wellFormed wellFormed_empty
  have hdomains := hedit.domainsBelow (by decide) domainsBelow_empty
  have hgroups := hedit.groupsBelow (by decide) groupsBelow_empty
  have h := accepted_iff_allowed hwf hdomains hgroups ⟨1, 0⟩ (.createDomain "a" "b" 1)
  exact ⟨hwf, hdomains, hgroups, h.2.2 _ t rfl trivial⟩

end Tables
end AccessRegistry
