import AccessRegistry.Proofs.Tree

/-!
# AccessRegistry.Proofs.Stitching

What the tree takes from the lists that it is put together from, whatever they are. Ids may occur
again in a list: only the first row of an id is given children (`buildSystemTree_nested`). If they
do not, nothing is shown twice, and only that is left out whose parent is not shown.

* `shownGroups`, `shownApps` — the rows of a tree, level by level.
* `perm_filter_parents`      — children sorted by different parents are those that have a parent.
-/

namespace AccessRegistry

/-- The groups of a tree, one for each time that it shows one. -/
def shownGroups (tree : List DomainNode) : List AppGroup :=
  tree.flatMap fun n => n.services.map ServiceNode.group

/-- The applications of a tree, one for each time that it shows one. -/
def shownApps (tree : List DomainNode) : List Application :=
  tree.flatMap fun n => n.services.flatMap ServiceNode.apps

/-- Different parents have different children, and together all that have a parent. -/
theorem perm_filter_parents {α β : Type} (id : α → Int32) (parent : β → Int32) {parents : List α}
    (h : (parents.map id).Nodup) (l : List β) :
    (parents.flatMap fun p => l.filter fun c => parent c = id p).Perm
      (l.filter fun c => parent c ∈ parents.map id) := by
  induction parents with
  | nil => simp
  | cons p parents ih =>
    obtain ⟨hp, hparents⟩ := List.nodup_cons.1 h
    have hsplit := List.filter_append_perm (fun c => decide (parent c = id p))
      (l.filter fun c => parent c ∈ (p :: parents).map id)
    have hfirst : (l.filter fun c => parent c ∈ (p :: parents).map id).filter
        (fun c => parent c = id p) = l.filter fun c => parent c = id p := by
      rw [List.filter_filter]
      refine List.filter_congr fun c _ => ?_
      by_cases hc : parent c = id p <;> simp [hc]
    have hrest : (l.filter fun c => parent c ∈ (p :: parents).map id).filter
        (fun c => !decide (parent c = id p)) = l.filter fun c => parent c ∈ parents.map id := by
      rw [List.filter_filter]
      refine List.filter_congr fun c _ => ?_
      by_cases hc : parent c = id p
      · simp [hc, hp]
      · simp [hc]
    rw [hfirst, hrest] at hsplit
    rw [List.flatMap_cons]
    exact ((ih hparents).append_left _).trans hsplit

section Shown

variable {domains : List Domain} {groups : List AppGroup}

/-- All groups are shown whose domain is in the list. -/
theorem perm_shownGroups (hdomains : (domains.map Domain.id).Nodup)
    (hgroups : (groups.map AppGroup.id).Nodup) (apps : List Application) :
    (shownGroups (buildSystemTree domains groups apps)).Perm
      (groups.filter fun g => g.domainId ∈ domains.map Domain.id) := by
  have hshown : shownGroups (buildSystemTree domains groups apps) =
      domains.flatMap fun d => groups.filter fun g => g.domainId = d.id := by
    simp [buildSystemTree_eq hdomains hgroups, shownGroups, servicesOf, List.flatMap_map,
      Function.comp_def]
  rw [hshown]
  exact perm_filter_parents Domain.id AppGroup.domainId hdomains groups

/-- All applications are shown whose group is shown. -/
theorem perm_shownApps (hdomains : (domains.map Domain.id).Nodup)
    (hgroups : (groups.map AppGroup.id).Nodup) (apps : List Application) :
    let tree := buildSystemTree domains groups apps
    (shownApps tree).Perm
      (apps.filter fun a => a.applicationGroupId ∈ (shownGroups tree).map AppGroup.id) := by
  intro tree
  have hids : ((shownGroups tree).map AppGroup.id).Nodup :=
    ((perm_shownGroups hdomains hgroups apps).map _).nodup_iff.2
      (hgroups.sublist (List.filter_sublist.map _))
  have happs : shownApps tree =
      (shownGroups tree).flatMap fun g => apps.filter fun a => a.applicationGroupId = g.id := by
    simp [tree, buildSystemTree_eq hdomains hgroups, shownApps, shownGroups, servicesOf,
      List.flatMap_map, List.flatMap_assoc]
  rw [happs]
  exact perm_filter_parents AppGroup.id Application.applicationGroupId hids apps

end Shown

/-- There is a node for every domain, in order. A domain has the groups that name it, and a group
the applications that name it, in order, unless a row with the same id comes before it. With
different ids that is what names it in any case; then every domain is shown once, every group once
if its domain is shown, and every application once if its group is shown. -/
theorem buildSystemTree_nested (domains : List Domain) (groups : List AppGroup)
    (apps : List Application) :
    let tree := buildSystemTree domains groups apps
    let services := groups.mapIdx fun i g => ServiceNode.mk g
      (if g.id ∈ (groups.take i).map AppGroup.id then []
        else apps.filter fun a => a.applicationGroupId = g.id)
    tree = domains.mapIdx (fun i d => DomainNode.mk d
      (if d.id ∈ (domains.take i).map Domain.id then []
        else services.filter fun s => s.group.domainId = d.id)) ∧
    ((domains.map Domain.id).Nodup → (groups.map AppGroup.id).Nodup →
      tree = domains.map (fun d => DomainNode.mk d
        ((groups.filter fun g => g.domainId = d.id).map fun g => ServiceNode.mk g
          (apps.filter fun a => a.applicationGroupId = g.id))) ∧
      tree.map DomainNode.domain = domains ∧
      (shownGroups tree).Perm
        (groups.filter fun g => g.domainId ∈ domains.map Domain.id) ∧
      (shownApps tree).Perm
        (apps.filter fun a => a.applicationGroupId ∈ (shownGroups tree).map AppGroup.id)) := by
  intro tree services
  have htree : tree = domains.mapIdx fun i d => DomainNode.mk d
      (if d.id ∈ (domains.take i).map Domain.id then []
        else services.filter fun s => s.group.domainId = d.id) := by
    unfold tree buildSystemTree
    simp only [distribute_eq_mapIdx, Boxes.children_ofList]
    rfl
  refine ⟨htree, fun hdomains hgroups => ?_⟩
  have hplain : tree = domains.map fun d => ⟨d, servicesOf groups apps d⟩ :=
    buildSystemTree_eq hdomains hgroups apps
  refine ⟨hplain, ?_, perm_shownGroups hdomains hgroups apps, perm_shownApps hdomains hgroups apps⟩
  rw [hplain, List.map_map]
  exact List.map_id _

/-- A group of no domain is left out, and so is what is under it. -/
theorem buildSystemTree_without_orphan :
    let root : Domain := ⟨2, "root", "", 1, ⟨0, 0⟩, ⟨0, 0⟩⟩
    let empty : Domain := ⟨1, "empty", "", 1, ⟨0, 0⟩, ⟨0, 0⟩⟩
    let orphan : AppGroup := ⟨6, "orphan", "", 9, ⟨0, 0⟩, ⟨0, 0⟩⟩
    let service : AppGroup := ⟨5, "service", "", 2, ⟨0, 0⟩, ⟨0, 0⟩⟩
    let lost : Application := ⟨1, "lost", "", 6, .system, ⟨0, 0⟩, ⟨0, 0⟩⟩
    let admin : Application := ⟨2, "admin", "", 5, .system, ⟨0, 0⟩, ⟨0, 0⟩⟩
    buildSystemTree [empty, root] [orphan, service] [lost, admin] =
      [⟨empty, []⟩, ⟨root, [⟨service, [admin]⟩]⟩] := by
  intro root empty orphan service lost admin
  have hdomains : ([empty, root].map Domain.id).Nodup := by decide
  have hgroups : ([orphan, service].map AppGroup.id).Nodup := by decide
  exact ((buildSystemTree_nested _ _ [lost, admin]).2 hdomains hgroups).1

end AccessRegistry
