import AccessRegistry.Proofs.Cascade
import AccessRegistry.Proofs.Listing
import AccessRegistry.Proofs.Stitching
import AccessRegistry.Proofs.Traffic

/-!
# AccessRegistry.Proofs.Display

What the tree shows of the stored rows. It is read level by level, each with one question for the
children of all rows above, and yet every row has the children that it would have if it were asked
about alone (`Tables.systemTree_eq`). So the tree of well-formed tables `Displays` all of their rows
once, and the tree after some domains are deleted is the one before without their nodes.
-/

namespace AccessRegistry

open AccessRegistry.Action World Tables

namespace Tables

variable {t : Tables}

/-! ## Rows and their children -/

def serviceOf (t : Tables) (g : AppGroup) : ServiceNode :=
  ⟨g, t.applicationsWhere fun a => a.applicationGroupId = g.id⟩

def nodeOf (t : Tables) (d : Domain) : DomainNode :=
  ⟨d, (t.groupsWhere fun g => g.domainId = d.id).map t.serviceOf⟩

/-- The children of one of several rows are found among the children of all. -/
theorem filter_children {ρ σ κ : Type} [Keyed ρ κ] (children : Table ρ)
    (age : ρ → Instant × Int32) (parent : ρ → Int32) {parents : List σ} {id : σ → Int32} {p : σ}
    (hp : p ∈ parents) :
    (newestFirst age (children.select fun r => (parents.map id).contains (parent r))).filter
        (fun r => parent r = id p) =
      newestFirst age (children.select fun r => parent r = id p) := by
  rw [filter_newestFirst]
  simp only [contains_and_eq hp]

theorem systemTree_eq (t : Tables) (systemId : Int32) : t.systemTree systemId =
    (t.domainsWhere fun d => d.systemId = systemId).map t.nodeOf := by
  let domains := t.domainsWhere fun d => d.systemId = systemId
  let groups := t.groupsWhere fun g => (domains.map Domain.id).contains g.domainId
  let apps := t.applicationsWhere fun a => (groups.map AppGroup.id).contains a.applicationGroupId
  have htree : t.systemTree systemId = domains.map fun d => ⟨d, servicesOf groups apps d⟩ :=
    buildSystemTree_eq (nodup_newestFirst _ _ _) (nodup_newestFirst _ _ _) _
  rw [htree]
  refine List.map_congr_left fun d hd => congrArg (DomainNode.mk d) ?_
  have hgroups : groups.filter (fun g => g.domainId = d.id) =
      t.groupsWhere fun g => g.domainId = d.id := filter_children t.groups _ AppGroup.domainId hd
  rw [servicesOf, ← hgroups]
  refine List.map_congr_left fun g hg => congrArg (ServiceNode.mk g) ?_
  exact filter_children t.applications _ Application.applicationGroupId (List.mem_filter.1 hg).1

/-! ## What is shown of the rows -/

/-- The tree shows the rows of the tables, all of them and each once, as they are stored, under
their parents and from the newest to the oldest. -/
structure Displays (t : Tables) (tree : List DomainNode) : Prop where
  domains : (tree.map DomainNode.domain).Perm t.domains.rows
  groups : (shownGroups tree).Perm t.groups.rows
  applications : (shownApps tree).Perm t.applications.rows
  underDomain : ∀ n ∈ tree, ∀ s ∈ n.services, s.group.domainId = n.domain.id
  underGroup : ∀ n ∈ tree, ∀ s ∈ n.services, ∀ a ∈ s.apps, a.applicationGroupId = s.group.id
  domainOrder : tree.Pairwise (Newer fun n => (n.domain.createdAt, n.domain.id))
  groupOrder : ∀ n ∈ tree, n.services.Pairwise (Newer fun s => (s.group.createdAt, s.group.id))
  applicationOrder : ∀ n ∈ tree, ∀ s ∈ n.services,
    s.apps.Pairwise (Newer fun a => (a.createdAt, a.id))

/-- Rows that have a parent in a list of all parents are all rows. -/
theorem perm_newestFirst_linked {ρ σ κ : Type} [Keyed ρ κ] [Keyed σ Int32] {t : Table ρ}
    {parents : Table σ} {parent : ρ → Int32} (hlinked : t.LinkedTo parents parent)
    {listed : List σ} (hlisted : ∀ q, q ∈ listed ↔ q ∈ parents) (age : ρ → Instant × Int32) :
    (newestFirst age (t.select fun r => (listed.map Keyed.key).contains (parent r))).Perm
      t.rows := by
  refine (List.perm_ext_iff_of_nodup ?_ t.nodup_rows).2
    (mem_newestFirst_linked hlinked hlisted age)
  exact (nodup_newestFirst t age _).of_map

namespace WellFormed

/-- Every row is shown, because its parent is. -/
theorem perm_shown (h : t.WellFormed) :
    ((t.systemTree defaultSystemId).map DomainNode.domain).Perm t.domains.rows ∧
      (shownGroups (t.systemTree defaultSystemId)).Perm t.groups.rows ∧
      (shownApps (t.systemTree defaultSystemId)).Perm t.applications.rows := by
  have hdomains : (t.domainsWhere fun d => d.systemId = defaultSystemId).Perm t.domains.rows := by
    refine (List.mergeSort_perm _ _).trans (.of_eq (List.filter_eq_self.2 fun d hd => ?_))
    exact decide_eq_true (h.systems d hd)
  have hgroups := perm_newestFirst_linked h.groups (fun _ => hdomains.mem_iff)
    fun g => (g.createdAt, g.id)
  have happs := perm_newestFirst_linked h.applications (fun _ => hgroups.mem_iff)
    fun a => (a.createdAt, a.id)
  have hshown : (shownGroups (t.systemTree defaultSystemId)).Perm t.groups.rows := by
    refine (perm_shownGroups (nodup_newestFirst _ _ _) (nodup_newestFirst _ _ _) _).trans ?_
    refine (List.Perm.of_eq (List.filter_eq_self.2 fun g hg => ?_)).trans hgroups
    exact decide_eq_true (List.contains_iff_mem.1 (mem_newestFirst.1 hg).2)
  refine ⟨?_, hshown, ?_⟩
  · rw [systemTree_eq, List.map_map]
    exact (List.Perm.of_eq (List.map_id _)).trans hdomains
  · refine (perm_shownApps (nodup_newestFirst _ _ _) (nodup_newestFirst _ _ _) _).trans ?_
    refine (List.Perm.of_eq (List.filter_eq_self.2 fun a ha => ?_)).trans happs
    obtain ⟨g, hg, hid⟩ := Table.contains_iff.1 (h.applications a (mem_newestFirst.1 ha).1)
    exact decide_eq_true (List.mem_map.2 ⟨g, hshown.mem_iff.2 hg, hid⟩)

theorem displays_systemTree (h : t.WellFormed) : t.Displays (t.systemTree defaultSystemId) := by
  obtain ⟨hdomains, hgroups, happs⟩ := h.perm_shown
  have hnode : ∀ n ∈ t.systemTree defaultSystemId, ∃ d, n = t.nodeOf d := by
    rw [systemTree_eq]
    intro n hn
    obtain ⟨d, _, rfl⟩ := List.mem_map.1 hn
    exact ⟨d, rfl⟩
  have hservice (d : Domain) : ∀ s ∈ (t.nodeOf d).services,
      s.group.domainId = d.id ∧ s = t.serviceOf s.group := by
    intro s hs
    obtain ⟨g, hg, rfl⟩ := List.mem_map.1 hs
    exact ⟨of_decide_eq_true (mem_newestFirst.1 hg).2, rfl⟩
  refine ⟨hdomains, hgroups, happs, fun n hn s hs => ?_, fun n hn s hs a ha => ?_, ?_,
    fun n hn => ?_, fun n hn s hs => ?_⟩
  · obtain ⟨d, rfl⟩ := hnode n hn
    exact (hservice d s hs).1
  · obtain ⟨d, rfl⟩ := hnode n hn
    rw [(hservice d s hs).2] at ha
    exact of_decide_eq_true (mem_newestFirst.1 ha).2
  · rw [systemTree_eq]
    exact List.pairwise_map.2 (pairwise_newestFirst (fun _ => rfl) _ _)
  · obtain ⟨d, rfl⟩ := hnode n hn
    exact List.pairwise_map.2 (pairwise_newestFirst (fun _ => rfl) _ _)
  · obtain ⟨d, rfl⟩ := hnode n hn
    rw [(hservice d s hs).2]
    exact pairwise_newestFirst (fun _ => rfl) _ _

theorem systemTree_other (h : t.WellFormed) {systemId : Int32}
    (hother : systemId ≠ defaultSystemId) : t.systemTree systemId = [] := by
  rw [systemTree_eq, List.map_eq_nil_iff]
  refine List.eq_nil_iff_forall_not_mem.2 fun d hd => ?_
  obtain ⟨hd, hsystem⟩ := mem_newestFirst.1 hd
  exact hother ((of_decide_eq_true hsystem).symm.trans (h.systems d hd))

end WellFormed

/-! ## Deletion -/

/-- A domain that stays keeps what is under it. -/
theorem nodeOf_without (t : Tables) {ids : List Int32} {d : Domain}
    (hd : d ∈ (t.without { domains := ids }).domains) :
    (t.without { domains := ids }).nodeOf d = t.nodeOf d := by
  let left := t.without { domains := ids }
  have hgroups : (left.groupsWhere fun g => g.domainId = d.id) =
      t.groupsWhere fun g => g.domainId = d.id := by
    refine congrArg (newestFirst _) (t.groups.select_filter_of_imp fun g hg => ?_)
    rw [of_decide_eq_true hg]
    exact Table.contains_of_mem hd
  have happs : ∀ g ∈ left.groups, (left.applicationsWhere fun a => a.applicationGroupId = g.id) =
      t.applicationsWhere fun a => a.applicationGroupId = g.id := by
    intro g hg
    refine congrArg (newestFirst _) (t.applications.select_filter_of_imp fun a ha => ?_)
    rw [of_decide_eq_true ha]
    exact Table.contains_of_mem hg
  refine congrArg (DomainNode.mk d) (Eq.trans ?_ (congrArg (List.map t.serviceOf) hgroups))
  refine List.map_congr_left fun g hg => congrArg (ServiceNode.mk g) (happs g ?_)
  exact (mem_newestFirst.1 hg).1

theorem systemTree_without (t : Tables) (ids : List Int32) (systemId : Int32) :
    (t.without { domains := ids }).systemTree systemId =
      (t.systemTree systemId).filter fun n => n.domain.id ∉ ids := by
  let left := t.without { domains := ids }
  have hleft : left.domains = t.domains.filter fun d => d.id ∉ ids :=
    congrArg Prod.fst (t.domains.eraseAll_eq ids)
  have hdomains : (left.domainsWhere fun d => d.systemId = systemId) =
      (t.domainsWhere fun d => d.systemId = systemId).filter fun d => d.id ∉ ids := by
    rw [domainsWhere, hleft, Table.select_filter, domainsWhere, filter_newestFirst]
  rw [systemTree_eq, systemTree_eq, List.filter_map]
  refine Eq.trans ?_ (congrArg (List.map t.nodeOf) hdomains)
  exact List.map_congr_left fun d hd => nodeOf_without t (mem_newestFirst.1 hd).1

end Tables

theorem Domains.delete_outcome (w : World) {ids : List Int32} (hids : ids ≠ []) :
    outcome answer (delete ids) w = (.ok (w.tables.domains.eraseAll ids).2,
      { w with tables := w.tables.without { domains := ids } }) := by
  cases ids with
  | nil => exact absurd rfl hids
  | cons id ids =>
    show outcome answer (call (.deleteDomains (id :: ids))) w = _
    exact outcome_done rfl (apply_deleteDomains _)

/-- Whatever several clients have done, the tree shows all rows once. Other systems than the one
there is have nothing to show. When domains are deleted, the tree lacks their nodes, and is the same
otherwise. -/
theorem systemTree_complete {α : Type} (now : Instant) (mint : Nat → String)
    (clients : List (Program (Effect Port) α)) (turns : List Turn) :
    let w := ((Traffic.start now mint clients).after turns).world
    ∃ tree, outcome answer (Applications.systemTree defaultSystemId) w = (.ok tree, w) ∧
      w.tables.Displays tree ∧
      (∀ systemId, systemId ≠ defaultSystemId →
        outcome answer (Applications.systemTree systemId) w = (.ok [], w)) ∧
      ∀ ids, ids ≠ [] → ∃ deleted w', outcome answer (Domains.delete ids) w = (.ok deleted, w') ∧
        outcome answer (Applications.systemTree defaultSystemId) w' =
          (.ok (tree.filter fun n => n.domain.id ∉ ids), w') := by
  intro w
  have hwf : w.tables.WellFormed := Traffic.start_wellFormed
  refine ⟨_, Applications.systemTree_outcome w _, hwf.displays_systemTree,
    fun systemId hother => ?_, fun ids hids => ?_⟩
  · rw [Applications.systemTree_outcome, hwf.systemTree_other hother]
  · refine ⟨_, _, Domains.delete_outcome w hids, ?_⟩
    rw [Applications.systemTree_outcome, systemTree_without]

/-- The tree of a registry that has just been set up shows its application, until the root domain
is deleted. -/
theorem systemTree_of_root :
    let w := ((Traffic.start ⟨0, 0⟩ (fun _ => "")
      [program (Provisioning.run "root")]).after [.client 0]).world
    ∃ tree, outcome answer (Applications.systemTree defaultSystemId) w = (.ok tree, w) ∧
      (shownApps tree).map Application.name = ["admin"] ∧
      outcome answer (Applications.systemTree 2) w = (.ok [], w) ∧
      ∃ deleted w', outcome answer (Domains.delete [1]) w = (.ok deleted, w') ∧
        outcome answer (Applications.systemTree defaultSystemId) w' = (.ok [], w') := by
  intro w
  have hnames : w.tables.applications.rows.map Application.name = ["admin"] := by decide +kernel
  have hids : w.tables.domains.rows.map Domain.id = [1] := by decide +kernel
  obtain ⟨tree, htree, (hshown : w.tables.Displays tree), hother, hdelete⟩ :=
    systemTree_complete ⟨0, 0⟩ (fun _ => "") [program (Provisioning.run "root")] [.client 0]
  obtain ⟨deleted, w', hdeleted, hleft⟩ := hdelete [1] (by decide)
  have hnone : tree.filter (fun n => n.domain.id ∉ [1]) = [] := by
    refine List.filter_eq_nil_iff.2 fun n hn => ?_
    have hid := (hshown.domains.map Domain.id).mem_iff.1
      (List.mem_map_of_mem (List.mem_map_of_mem hn))
    rw [hids] at hid
    simpa using hid
  rw [hnone] at hleft
  refine ⟨tree, htree, ?_, hother 2 (by decide), deleted, w', hdeleted, hleft⟩
  have happs := hshown.applications.map Application.name
  rw [hnames] at happs
  exact List.perm_singleton.1 happs

end AccessRegistry
