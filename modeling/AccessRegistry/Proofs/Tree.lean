import Mathlib.Data.List.Nodup
import AccessRegistry.Proofs.Integrity
import AccessRegistry.Proofs.Outcome
import AccessRegistry.Rules.Applications

/-!
# AccessRegistry.Proofs.Tree

The tree of domains, groups and applications. It is put together by sorting children into boxes and
handing each parent its box. If the parents have different ids, every parent gets just the children
that name it, in their order (`buildSystemTree_eq`). A `Branch` leads down to an application; the
tree of well-formed tables has one branch for every application (`WellFormed.shown_once`).
-/

namespace AccessRegistry

namespace Boxes

variable {α : Type} {id parent : Int32} {child : α} {boxes : Boxes α}

theorem children_cons (box : Int32 × List α) :
    children id (box :: boxes) = if box.1 = id then box.2 else children id boxes := by
  unfold children
  rw [List.find?_cons]
  by_cases h : box.1 = id <;> simp [h]

theorem children_add : (boxes.add parent child).children id =
    if parent = id then boxes.children id ++ [child] else boxes.children id := by
  induction boxes with
  | nil => rw [add, children_cons]; rfl
  | cons box boxes ih =>
    obtain ⟨key, content⟩ := box
    unfold add
    by_cases hparent : key = parent
    · subst hparent
      rw [if_pos rfl, children_cons, children_cons]
      by_cases hid : key = id <;> simp [hid]
    · rw [if_neg hparent, children_cons, children_cons, ih]
      by_cases hid : key = id
      · subst hid
        rw [if_pos rfl, if_pos rfl, if_neg (Ne.symm hparent)]
      · rw [if_neg hid, if_neg hid]

/-- The box of a parent holds the children that name it, in their order. -/
theorem children_ofList (parent : α → Int32) (cs : List α) :
    (ofList parent cs).children id = cs.filter fun c => parent c = id := by
  suffices h : ∀ boxes : Boxes α,
      (cs.foldl (fun boxes c => boxes.add (parent c) c) boxes).children id =
        boxes.children id ++ cs.filter fun c => parent c = id from h []
  induction cs with
  | nil => exact fun boxes => (List.append_nil _).symm
  | cons c cs ih =>
    intro boxes
    rw [List.foldl_cons, ih, children_add]
    by_cases h : parent c = id <;> simp [h]

theorem children_without : (boxes.without parent).children id =
    if id = parent then [] else boxes.children id := by
  induction boxes with
  | nil => exact (ite_self _).symm
  | cons box boxes ih =>
    unfold without at ih ⊢
    rw [List.filter_cons, children_cons]
    by_cases hparent : box.1 = parent
    · rw [if_neg (by simpa using hparent), ih]
      by_cases hid : id = parent
      · rw [if_pos hid, if_pos hid]
      · rw [if_neg hid, if_neg hid, if_neg fun heq => hid (heq.symm.trans hparent)]
    · rw [if_pos (by simpa using hparent), children_cons, ih]
      by_cases hid : id = parent
      · rw [if_pos hid, if_pos hid, if_neg fun heq => hparent (heq.trans hid)]
      · rw [if_neg hid, if_neg hid]

end Boxes

section Distribute

variable {α β γ : Type} (id : α → Int32) (build : α → List β → γ)

/-- A parent gets what names it, unless one with its id comes before it. -/
theorem distribute_eq_mapIdx (parents : List α) (boxes : Boxes β) :
    distribute id build parents boxes = parents.mapIdx fun i p =>
      build p (if id p ∈ (parents.take i).map id then [] else boxes.children (id p)) := by
  induction parents generalizing boxes with
  | nil => rfl
  | cons p parents ih =>
    rw [distribute, ih, List.mapIdx_cons]
    refine congrArg₂ List.cons (by simp) (congrArg (List.mapIdx · parents) ?_)
    funext i q
    rw [Boxes.children_without, List.take_succ_cons, List.map_cons]
    by_cases hq : id q = id p <;> simp [hq]

/-- Parents with different ids get what names them. -/
theorem distribute_eq {parents : List α} (h : (parents.map id).Nodup) (boxes : Boxes β) :
    distribute id build parents boxes = parents.map fun p => build p (boxes.children (id p)) := by
  rw [distribute_eq_mapIdx]
  refine List.ext_getElem (by simp) fun i hi _ => ?_
  rw [List.getElem_mapIdx, List.getElem_map, if_neg]
  intro hmem
  obtain ⟨q, hq, hid⟩ := List.mem_map.1 hmem
  obtain ⟨j, hj, rfl⟩ := List.mem_take_iff_getElem.1 hq
  obtain ⟨hji, hlength⟩ := Nat.lt_min.1 hj
  have hi' : i < (parents.map id).length := by simpa using hi
  have hne := List.pairwise_iff_getElem.1 h j i (Nat.lt_trans hji hi') hi' hji
  rw [List.getElem_map, List.getElem_map] at hne
  exact hne hid

end Distribute

/-- The groups of a domain, each with its applications. -/
def servicesOf (groups : List AppGroup) (apps : List Application) (d : Domain) :
    List ServiceNode :=
  (groups.filter fun g => g.domainId = d.id).map fun g =>
    ⟨g, apps.filter fun a => a.applicationGroupId = g.id⟩

theorem buildSystemTree_eq {domains : List Domain} {groups : List AppGroup}
    (hdomains : (domains.map Domain.id).Nodup) (hgroups : (groups.map AppGroup.id).Nodup)
    (apps : List Application) :
    buildSystemTree domains groups apps = domains.map fun d => ⟨d, servicesOf groups apps d⟩ := by
  unfold buildSystemTree
  dsimp only
  rw [distribute_eq _ _ hgroups, distribute_eq _ _ hdomains]
  refine List.map_congr_left fun d _ => ?_
  simp only [Boxes.children_ofList, servicesOf, List.filter_map]
  rfl

/-! ## Branches -/

/-- An application with the group and the domain above it. -/
structure Branch where
  domain : Domain
  group : AppGroup
  app : Application
deriving DecidableEq, Repr

/-- The branches of a tree, one for each time that it shows an application. -/
def branches (tree : List DomainNode) : List Branch :=
  tree.flatMap fun n => n.services.flatMap fun s => s.apps.map fun a => ⟨n.domain, s.group, a⟩

section Branches

variable {domains : List Domain} {groups : List AppGroup} {apps : List Application} {b : Branch}

theorem branches_eq (hdomains : (domains.map Domain.id).Nodup)
    (hgroups : (groups.map AppGroup.id).Nodup) (apps : List Application) :
    branches (buildSystemTree domains groups apps) =
      domains.flatMap fun d => (groups.filter fun g => g.domainId = d.id).flatMap fun g =>
        (apps.filter fun a => a.applicationGroupId = g.id).map fun a => ⟨d, g, a⟩ := by
  rw [buildSystemTree_eq hdomains hgroups]
  simp only [branches, servicesOf, List.flatMap_map]

theorem mem_branches (hdomains : (domains.map Domain.id).Nodup)
    (hgroups : (groups.map AppGroup.id).Nodup) :
    b ∈ branches (buildSystemTree domains groups apps) ↔
      b.domain ∈ domains ∧ (b.group ∈ groups ∧ b.group.domainId = b.domain.id) ∧
        b.app ∈ apps ∧ b.app.applicationGroupId = b.group.id := by
  rw [branches_eq hdomains hgroups]
  simp only [List.mem_flatMap, List.mem_map, List.mem_filter, decide_eq_true_eq]
  constructor
  · rintro ⟨d, hd, g, hg, a, ha, rfl⟩
    exact ⟨hd, hg, ha⟩
  · rintro ⟨hd, hg, ha⟩
    exact ⟨b.domain, hd, b.group, hg, b.app, ha, rfl⟩

/-- Lists of which every value tells where it comes from. -/
theorem nodup_flatMap_of_label {α β : Type} {l : List α} {f : α → List β} (label : β → α)
    (hl : l.Nodup) (hf : ∀ x ∈ l, (f x).Nodup) (hlabel : ∀ x, ∀ y ∈ f x, label y = x) :
    (l.flatMap f).Nodup := by
  refine List.nodup_flatMap.2 ⟨hf, hl.imp fun hne => ?_⟩
  intro z hz hz'
  exact hne ((hlabel _ z hz).symm.trans (hlabel _ z hz'))

theorem nodup_branches (hdomains : (domains.map Domain.id).Nodup)
    (hgroups : (groups.map AppGroup.id).Nodup) (happs : apps.Nodup) :
    (branches (buildSystemTree domains groups apps)).Nodup := by
  rw [branches_eq hdomains hgroups]
  refine nodup_flatMap_of_label Branch.domain hdomains.of_map (fun d _ => ?_) fun d p hp => ?_
  · refine nodup_flatMap_of_label Branch.group (hgroups.of_map.filter _) (fun g _ => ?_) ?_
    · exact (happs.filter _).map fun a b heq => (Branch.mk.inj heq).2.2
    · intro g p hp
      obtain ⟨a, _, rfl⟩ := List.mem_map.1 hp
      rfl
  · obtain ⟨g, _, hp⟩ := List.mem_flatMap.1 hp
    obtain ⟨a, _, rfl⟩ := List.mem_map.1 hp
    rfl

end Branches

/-! ## The tree of the tables -/

namespace Tables

variable {t : Tables}

theorem mem_newestFirst {ρ κ : Type} [Keyed ρ κ] {t : Table ρ} {key : ρ → Instant × Int32}
    {p : ρ → Bool} {r : ρ} : r ∈ newestFirst key (t.select p) ↔ r ∈ t ∧ p r = true := by
  rw [newestFirst, List.mem_mergeSort]
  exact List.mem_filter

/-- All rows are found by their parents, if each has one. -/
theorem mem_newestFirst_linked {ρ σ κ : Type} [Keyed ρ κ] [Keyed σ Int32] {t : Table ρ}
    {parents : Table σ} {parent : ρ → Int32} (hlinked : t.LinkedTo parents parent)
    {listed : List σ} (hlisted : ∀ q, q ∈ listed ↔ q ∈ parents) (key : ρ → Instant × Int32)
    (r : ρ) :
    r ∈ newestFirst key (t.select fun r => (listed.map Keyed.key).contains (parent r)) ↔
      r ∈ t := by
  rw [mem_newestFirst]
  refine and_iff_left_of_imp fun hr => ?_
  obtain ⟨q, hq, hkey⟩ := Table.contains_iff.1 (hlinked r hr)
  exact List.contains_iff_mem.2 (List.mem_map.2 ⟨q, (hlisted q).2 hq, hkey⟩)

/-- A child of one parent is a child of several. -/
theorem contains_and_eq {σ : Type} {parents : List σ} {id : σ → Int32} {p : σ} (hp : p ∈ parents)
    (i : Int32) : ((parents.map id).contains i && decide (i = id p)) = decide (i = id p) := by
  rw [Bool.and_eq_right_iff_imp, decide_eq_true_eq]
  rintro rfl
  exact List.contains_iff_mem.2 (List.mem_map_of_mem hp)

theorem nodup_newestFirst {ρ κ : Type} [Keyed ρ κ] (t : Table ρ) (key : ρ → Instant × Int32)
    (p : ρ → Bool) : ((newestFirst key (t.select p)).map Keyed.key).Nodup := by
  refine ((List.mergeSort_perm _ _).map _).nodup_iff.2 ?_
  exact List.pairwise_map.2 (t.pairwise_key_ne.filter p)

theorem newestFirst_select_nil {ρ κ : Type} [Keyed ρ κ] (t : Table ρ) (key : ρ → Instant × Int32)
    (parent : ρ → Int32) : newestFirst key (t.select fun r => [].contains (parent r)) = [] := by
  rw [Table.select, List.filter_eq_nil_iff.2 fun r _ => by simp, newestFirst, List.mergeSort_nil]

def systemTree (t : Tables) (systemId : Int32) : List DomainNode :=
  let domains := t.domainsWhere fun d => d.systemId = systemId
  let groups := t.groupsWhere fun g => (domains.map Domain.id).contains g.domainId
  let apps := t.applicationsWhere fun a => (groups.map AppGroup.id).contains a.applicationGroupId
  buildSystemTree domains groups apps

end Tables

open AccessRegistry.Action World Tables

theorem Applications.systemTree_outcome (w : World) (systemId : Int32) :
    outcome answer (systemTree systemId) w = (.ok (w.tables.systemTree systemId), w) := by
  apply outcome_eq_of_ends
  unfold systemTree
  rw [ends_bind, ends_look (f := fun t => .ok (t.domainsWhere fun d => d.systemId = systemId)) rfl]
  unfold Tables.systemTree
  dsimp only
  generalize w.tables.domainsWhere (fun d => d.systemId = systemId) = domains
  -- a level without parents is not asked for, and would be empty
  have happs (groups : List AppGroup) : Ends answer (do
      let apps ← if groups.isEmpty then pure [] else
        Action.call (Port.applicationsByGroups (groups.map AppGroup.id))
      return buildSystemTree domains groups apps) w
      (fun tree w' => tree = buildSystemTree domains groups (w.tables.applicationsWhere fun a =>
        (groups.map AppGroup.id).contains a.applicationGroupId) ∧ w' = w) fun _ _ => False := by
    by_cases hempty : groups.isEmpty
    · obtain rfl := List.isEmpty_iff.1 hempty
      refine ⟨?_, rfl⟩
      rw [applicationsWhere, List.map_nil, newestFirst_select_nil]
    · rw [if_neg hempty]
      exact ⟨rfl, rfl⟩
  by_cases hempty : domains.isEmpty
  · obtain rfl := List.isEmpty_iff.1 hempty
    rw [groupsWhere, List.map_nil, newestFirst_select_nil]
    exact happs []
  · rw [if_neg hempty]
    exact (ends_bind _ _).2 (happs _)

namespace Tables.WellFormed

variable {t : Tables} {b : Branch}

/-- Every application is shown under its group, and the group under its domain. -/
theorem mem_branches (h : t.WellFormed) : b ∈ branches (t.systemTree defaultSystemId) ↔
    b.domain ∈ t.domains ∧ (b.group ∈ t.groups ∧ b.group.domainId = b.domain.id) ∧
      b.app ∈ t.applications ∧ b.app.applicationGroupId = b.group.id := by
  have hdomains (d : Domain) :
      d ∈ t.domainsWhere (fun d => d.systemId = defaultSystemId) ↔ d ∈ t.domains := by
    refine mem_newestFirst.trans (and_iff_left_of_imp fun hd => ?_)
    exact decide_eq_true (h.systems d hd)
  have hgroups := mem_newestFirst_linked h.groups hdomains fun g => (g.createdAt, g.id)
  have happs := mem_newestFirst_linked h.applications hgroups fun a => (a.createdAt, a.id)
  refine (AccessRegistry.mem_branches (nodup_newestFirst _ _ _) (nodup_newestFirst _ _ _)).trans ?_
  exact and_congr (hdomains _)
    (and_congr (and_congr_left fun _ => hgroups _) (and_congr_left fun _ => happs _))

theorem shown_once (h : t.WellFormed) {a : Application} (ha : a ∈ t.applications) :
    ∃ b, b.app = a ∧
      (branches (t.systemTree defaultSystemId)).filter (fun b => b.app.id = a.id) = [b] := by
  obtain ⟨g, hg, hgroup⟩ := Table.contains_iff.1 (h.applications a ha)
  obtain ⟨d, hd, hdomain⟩ := Table.contains_iff.1 (h.groups g hg)
  have hb : ⟨d, g, a⟩ ∈ branches (t.systemTree defaultSystemId) :=
    h.mem_branches.2 ⟨hd, ⟨hg, hdomain.symm⟩, ha, hgroup.symm⟩
  refine ⟨⟨d, g, a⟩, rfl, filter_eq_singleton ?_ hb (decide_eq_true rfl) fun q hq hid => ?_⟩
  · refine nodup_branches (nodup_newestFirst _ _ _) (nodup_newestFirst _ _ _) ?_
    exact (nodup_newestFirst _ _ _).of_map
  · -- the ids lead from the application up to the same rows
    obtain ⟨hqd, ⟨hqg, hqdomain⟩, hqa, hqgroup⟩ := h.mem_branches.1 hq
    obtain ⟨domain, group, app⟩ := q
    obtain rfl : app = a := Table.eq_of_key_eq hqa ha (of_decide_eq_true hid)
    obtain rfl : group = g := Table.eq_of_key_eq hqg hg (hqgroup.symm.trans hgroup.symm)
    obtain rfl : domain = d := Table.eq_of_key_eq hqd hd (hqdomain.symm.trans hdomain.symm)
    rfl

end Tables.WellFormed

end AccessRegistry
