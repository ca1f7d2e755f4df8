import Mathlib.Data.Finset.Card
import Mathlib.Logic.Relation
import AccessRegistry.Proofs.History
import AccessRegistry.Proofs.Deletion

/-!
# AccessRegistry.Proofs.Cascade

Deletions with all that hangs on the deleted rows. The rows of the five tables form a forest, and a
row descends from those above it. A deletion takes away the rows that it names and their descendants
and nothing else, although the sweep only goes through the tables once, from the top
(`deletes_exactly`).

* `Row`              — a row of any table, and what it hangs on.
* `Level`            — the tables whose rows are deleted by id.
* `Tables.Descends`  — a row hangs on another one, directly or through others.
* `mem_without_iff`  — a row stays if it is not named and what it hangs on stays. All the rest goes
  by induction along the forest from here.
-/

namespace AccessRegistry

/-! ## Rows -/

/-- A row of any of the tables. -/
inductive Row where
  | domain (d : Domain)
  | group (g : AppGroup)
  | application (a : Application)
  | token (k : Token)
  | permission (p : AccessList)

/-- The first row names the second one as the row that it belongs to. -/
def Row.ChildOf : Row → Row → Prop
  | .group g, .domain d => g.domainId = d.id
  | .application a, .group g => a.applicationGroupId = g.id
  | .token k, .application a => k.appId = a.id
  | .permission p, .application a => p.appId = a.id
  | _, _ => False

/-- Everything that a row belongs to stands in the table above. -/
theorem Row.ChildOf.parent {r p : Row} (h : r.ChildOf p) :
    match r with
    | .domain _ => False
    | .group _ => ∃ d, .domain d = p
    | .application _ => ∃ g, .group g = p
    | .token _ | .permission _ => ∃ a, .application a = p := by
  cases r <;> cases p <;> first | exact ⟨_, rfl⟩ | exact False.elim h

/-- What holds of a row if it holds of those that it belongs to holds of all rows. -/
theorem Row.forest_induction {P : Row → Prop} (h : ∀ r, (∀ p, r.ChildOf p → P p) → P r) :
    ∀ r, P r := by
  have domain (d : Domain) : P (.domain d) := h _ fun _ hp => hp.parent.elim
  have group (g : AppGroup) : P (.group g) := h _ fun p hp => by
    obtain ⟨d, rfl⟩ := hp.parent
    exact domain d
  have application (a : Application) : P (.application a) := h _ fun p hp => by
    obtain ⟨g, rfl⟩ := hp.parent
    exact group g
  intro r
  cases r with
  | domain d => exact domain d
  | group g => exact group g
  | application a => exact application a
  | token k =>
    refine h _ fun p hp => ?_
    obtain ⟨a, rfl⟩ := hp.parent
    exact application a
  | permission l =>
    refine h _ fun p hp => ?_
    obtain ⟨a, rfl⟩ := hp.parent
    exact application a

namespace Tables

variable {t t' : Tables}

instance : Membership Row Tables where
  mem t
    | .domain d => d ∈ t.domains
    | .group g => g ∈ t.groups
    | .application a => a ∈ t.applications
    | .token k => k ∈ t.tokens
    | .permission p => p ∈ t.accessLists

/-- A stored row hangs on another stored row, directly or through others. -/
def Descends (t : Tables) : Row → Row → Prop :=
  Relation.TransGen fun r p => r ∈ t ∧ p ∈ t ∧ r.ChildOf p

theorem Descends.child {r p : Row} (hr : r ∈ t) (hp : p ∈ t) (h : r.ChildOf p) :
    t.Descends r p := .single ⟨hr, hp, h⟩

theorem Descends.up {r p top : Row} (hr : r ∈ t) (hp : p ∈ t) (h : r.ChildOf p)
    (htop : t.Descends p top) : t.Descends r top := .head ⟨hr, hp, h⟩ htop

/-- A stored row that is no domain and hangs on nothing. -/
def Orphan (t : Tables) (r : Row) : Prop :=
  r ∈ t ∧ (∀ d, r ≠ .domain d) ∧ ∀ p ∈ t, ¬ r.ChildOf p

/-- Tables with the same rows and the same next ids are equal. -/
theorem eq_of_rows (h : ∀ r : Row, r ∈ t ↔ r ∈ t') (hdomain : t.nextDomainId = t'.nextDomainId)
    (hgroup : t.nextGroupId = t'.nextGroupId) : t = t' := by
  have domains := Table.eq_of_mem_iff fun d => h (.domain d)
  have groups := Table.eq_of_mem_iff fun g => h (.group g)
  have applications := Table.eq_of_mem_iff fun a => h (.application a)
  have tokens := Table.eq_of_mem_iff fun k => h (.token k)
  have permissions := Table.eq_of_mem_iff fun p => h (.permission p)
  cases t
  cases t'
  dsimp only at *
  subst domains groups applications tokens permissions hdomain hgroup
  rfl

end Tables

/-! ## Sweeping -/

/-- Among rows whose parents are left, a row stays if the parent that it names is left. -/
theorem Table.mem_filter_parent {ρ σ κ ι : Type} [Keyed ρ κ] [Keyed σ ι] {t : Table ρ}
    {parents left : Table σ} {parent : ρ → ι} (hlinked : t.LinkedTo parents parent)
    (hleft : ∀ p ∈ left, p ∈ parents) {r : ρ} :
    r ∈ t.filter (fun r => left.contains (parent r)) ↔
      r ∈ t ∧ ∀ p ∈ parents, parent r = Keyed.key p → p ∈ left := by
  refine mem_filter.trans (and_congr_right fun hr => ⟨fun h p hp hkey => ?_, fun h => ?_⟩)
  · obtain ⟨q, hq, hqkey⟩ := contains_iff.1 h
    rwa [← eq_of_key_eq (hleft q hq) hp (hqkey.trans hkey)]
  · obtain ⟨p, hp, hkey⟩ := contains_iff.1 (hlinked r hr)
    exact contains_iff.2 ⟨p, h p hp hkey.symm, hkey⟩

namespace Removal

/-- The deletion names this row. -/
def Names (d : Removal) : Row → Prop
  | .domain r => r.id ∈ d.domains
  | .group g => g.id ∈ d.groups
  | .application a => a.id ∈ d.applications
  | _ => False

end Removal

namespace Tables

variable {t : Tables} {d : Removal} {r : Row}

theorem mem_of_mem_without (h : r ∈ t.without d) : r ∈ t := by
  cases r with
  | domain x => exact Table.mem_of_mem_eraseAll h
  | group g => exact Table.mem_of_mem_eraseAll (Table.mem_filter.1 h).1
  | application a => exact Table.mem_of_mem_eraseAll (Table.mem_filter.1 h).1
  | token k => exact (Table.mem_filter.1 h).1
  | permission p => exact (Table.mem_filter.1 h).1

/-- If a row belongs to rows of one table, these are all that it belongs to. -/
theorem forall_parents {σ : Type} (row : σ → Row) (hrow : ∀ p, r.ChildOf p → ∃ s, row s = p)
    {Q : Row → Prop} : (∀ p ∈ t, r.ChildOf p → Q p) ↔
      ∀ s, row s ∈ t → r.ChildOf (row s) → Q (row s) := by
  refine ⟨fun h s => h (row s), fun h p hp hchild => ?_⟩
  obtain ⟨s, rfl⟩ := hrow p hchild
  exact h s hp hchild

/-- A row stays if it is not named and the row that it belongs to stays. -/
theorem WellFormed.mem_without_iff (h : t.WellFormed) :
    r ∈ t.without d ↔ r ∈ t ∧ ¬ d.Names r ∧ ∀ p ∈ t, r.ChildOf p → p ∈ t.without d := by
  cases r with
  | domain x =>
    refine Table.mem_eraseAll.trans (and_congr_right fun _ => ?_)
    exact (and_iff_left fun p _ hp => hp.parent.elim).symm
  | group g =>
    rw [forall_parents .domain fun _ hp => hp.parent, ← and_assoc]
    refine (Table.mem_filter_parent (h.groups.mono fun _ => Table.mem_of_mem_eraseAll)
      fun x hx => mem_of_mem_without (r := .domain x) hx).trans ?_
    exact and_congr_left' Table.mem_eraseAll
  | application a =>
    rw [forall_parents .group fun _ hp => hp.parent, ← and_assoc]
    refine (Table.mem_filter_parent (h.applications.mono fun _ => Table.mem_of_mem_eraseAll)
      fun g hg => mem_of_mem_without (r := .group g) hg).trans ?_
    exact and_congr_left' Table.mem_eraseAll
  | token k =>
    rw [forall_parents .application fun _ hp => hp.parent,
      and_iff_right (show ¬ d.Names (.token k) from id)]
    exact Table.mem_filter_parent h.tokens fun a ha => mem_of_mem_without (r := .application a) ha
  | permission l =>
    rw [forall_parents .application fun _ hp => hp.parent,
      and_iff_right (show ¬ d.Names (.permission l) from id)]
    exact Table.mem_filter_parent h.permissions
      fun a ha => mem_of_mem_without (r := .application a) ha

/-- From a row that stays only rows that stay are reached. -/
theorem WellFormed.mem_without_of_descends (h : t.WellFormed) {p : Row} (hr : r ∈ t.without d)
    (hp : t.Descends r p) : p ∈ t.without d := by
  induction hp with
  | single hstep => exact (h.mem_without_iff.1 hr).2.2 _ hstep.2.1 hstep.2.2
  | tail _ hstep ih => exact (h.mem_without_iff.1 ih).2.2 _ hstep.2.1 hstep.2.2

/-- What is taken away is what is named and what descends from it. -/
theorem WellFormed.mem_without (h : t.WellFormed) : r ∈ t.without d ↔
    r ∈ t ∧ ¬ d.Names r ∧ ∀ top ∈ t, d.Names top → ¬ t.Descends r top := by
  constructor
  · intro hr
    obtain ⟨hmem, hnamed, _⟩ := h.mem_without_iff.1 hr
    refine ⟨hmem, hnamed, fun top _ htop hdescends => ?_⟩
    exact (h.mem_without_iff.1 (h.mem_without_of_descends hr hdescends)).2.1 htop
  · induction r using Row.forest_induction with
    | h r ih =>
      rintro ⟨hmem, hnamed, hfree⟩
      refine h.mem_without_iff.2 ⟨hmem, hnamed, fun p hp hchild => ?_⟩
      refine ih p hchild ⟨hp, fun hnamed => ?_, fun top htop hnames hup => ?_⟩
      · exact hfree p hp hnamed (.child hmem hp hchild)
      · exact hfree top htop hnames (.up hmem hp hchild hup)

/-- The tables are swept once for several deletions as they would be for each. -/
theorem WellFormed.without_without (h : t.WellFormed) {d₁ d₂ both : Removal}
    (hboth : ∀ r, both.Names r ↔ d₁.Names r ∨ d₂.Names r)
    (hwf : (t.without d₁).WellFormed) : (t.without d₁).without d₂ = t.without both := by
  refine eq_of_rows (fun r => ?_) rfl rfl
  induction r using Row.forest_induction with
  | h r ih =>
    rw [hwf.mem_without_iff, h.mem_without_iff, h.mem_without_iff (d := both), hboth, not_or]
    constructor
    · rintro ⟨⟨hr, hfirst, hstays⟩, hsecond, hstays'⟩
      refine ⟨hr, ⟨hfirst, hsecond⟩, fun p hp hchild => ?_⟩
      exact (ih p hchild).1 (hstays' p (hstays p hp hchild) hchild)
    · rintro ⟨hr, ⟨hfirst, hsecond⟩, hstays⟩
      have hlater (p : Row) (hp : p ∈ t) (hchild : r.ChildOf p) :
          p ∈ (t.without d₁).without d₂ := (ih p hchild).2 (hstays p hp hchild)
      refine ⟨⟨hr, hfirst, fun p hp hchild => mem_of_mem_without (hlater p hp hchild)⟩, hsecond, ?_⟩
      exact fun p hp hchild => hlater p (mem_of_mem_without hp) hchild

/-! ## Orphans -/

theorem not_orphan_sweepOrphans (t : Tables) (r : Row) : ¬ t.sweepOrphans.Orphan r := by
  rintro ⟨hr, hdomain, halone⟩
  cases r with
  | domain d => exact hdomain d rfl
  | group g =>
    obtain ⟨d, hd, hid⟩ := Table.contains_iff.1 (Table.mem_filter.1 hr).2
    exact halone (.domain d) hd hid.symm
  | application a =>
    obtain ⟨g, hg, hid⟩ := Table.contains_iff.1 (Table.mem_filter.1 hr).2
    exact halone (.group g) hg hid.symm
  | token k =>
    obtain ⟨a, ha, hid⟩ := Table.contains_iff.1 (Table.mem_filter.1 hr).2
    exact halone (.application a) ha hid.symm
  | permission l =>
    obtain ⟨a, ha, hid⟩ := Table.contains_iff.1 (Table.mem_filter.1 hr).2
    exact halone (.application a) ha hid.symm

/-- Where every row has a parent, a sweep changes nothing. -/
theorem sweepOrphans_eq_self (hgroups : t.groups.LinkedTo t.domains AppGroup.domainId)
    (happlications : t.applications.LinkedTo t.groups Application.applicationGroupId)
    (htokens : t.tokens.LinkedTo t.applications Token.appId)
    (hpermissions : t.accessLists.LinkedTo t.applications AccessList.appId) :
    t.sweepOrphans = t := by
  have hg : (t.groups.filter fun g => t.domains.contains g.domainId) = t.groups :=
    Table.filter_eq_self hgroups
  have ha : (t.applications.filter fun a => t.groups.contains a.applicationGroupId) =
      t.applications := Table.filter_eq_self happlications
  have hk : (t.tokens.filter fun k => t.applications.contains k.appId) = t.tokens :=
    Table.filter_eq_self htokens
  have hl : (t.accessLists.filter fun l => t.applications.contains l.appId) = t.accessLists :=
    Table.filter_eq_self hpermissions
  simp only [sweepOrphans, hg, ha, hk, hl]

theorem sweepOrphans_sweepOrphans (t : Tables) : t.sweepOrphans.sweepOrphans = t.sweepOrphans :=
  sweepOrphans_eq_self .filter .filter .filter .filter

end Tables

/-! ## Deletions by id -/

/-- The tables whose rows are deleted by id. -/
inductive Level where
  | domains
  | groups
  | applications

namespace Level

def delete (ids : List Int32) : Level → Tables.Change Nat
  | .domains => Tables.deleteDomains ids
  | .groups => Tables.deleteGroups ids
  | .applications => Tables.deleteApplications ids

def removal (ids : List Int32) : Level → Removal
  | .domains => { domains := ids }
  | .groups => { groups := ids }
  | .applications => { applications := ids }

/-- The ids that are stored. -/
def ids (t : Tables) : Level → List Int32
  | .domains => t.domains.rows.map Domain.id
  | .groups => t.groups.rows.map AppGroup.id
  | .applications => t.applications.rows.map Application.id

/-- How many of the stored ids are listed. -/
def count (level : Level) (t : Tables) (listed : List Int32) : Nat :=
  {id ∈ (level.ids t).toFinset | id ∈ listed}.card

end Level

namespace Table

variable {ρ κ : Type} [Keyed ρ κ]

/-- Keys are counted once, however often they are listed. -/
theorem card_keys [DecidableEq κ] (t : Table ρ) (keys : List κ) :
    {k ∈ (t.rows.map Keyed.key).toFinset | k ∈ keys}.card = (t.eraseAll keys).2 := by
  have hlisted : {k ∈ (t.rows.map Keyed.key).toFinset | k ∈ keys} =
      ((t.select fun r => Keyed.key r ∈ keys).map Keyed.key).toFinset := by
    ext k
    simp only [select, Finset.mem_filter, List.mem_toFinset, List.mem_map, List.mem_filter,
      decide_eq_true_eq]
    grind
  have hnodup : ((t.select fun r => Keyed.key r ∈ keys).map Keyed.key).Nodup :=
    List.pairwise_map.2 (t.pairwise_key_ne.filter _)
  rw [hlisted, List.toFinset_card_of_nodup hnodup, List.length_map, eraseAll_eq]

theorem mem_keys_of_mem_iff {t left : Table ρ} {keys : List κ}
    (h : ∀ r, r ∈ left ↔ r ∈ t ∧ Keyed.key r ∉ keys) {k : κ} :
    k ∈ left.rows.map Keyed.key ↔ k ∈ t.rows.map Keyed.key ∧ k ∉ keys := by
  have hmem (r : ρ) : r ∈ left.rows ↔ r ∈ t.rows ∧ Keyed.key r ∉ keys := h r
  simp only [List.mem_map, hmem]
  grind

end Table

namespace Level

variable {t : Tables} (level : Level) (listed more : List Int32)

theorem apply_delete : (level.delete listed).apply t =
    (.ok (level.count t listed), t.without (level.removal listed)) := by
  cases level with
  | domains => exact Prod.ext (congrArg Except.ok (t.domains.card_keys listed).symm) rfl
  | groups => exact Prod.ext (congrArg Except.ok (t.groups.card_keys listed).symm) rfl
  | applications => exact Prod.ext (congrArg Except.ok (t.applications.card_keys listed).symm) rfl

/-- Ids that are not listed stay: whatever hangs on a deleted row stands in a table below. -/
theorem mem_ids_without (h : t.WellFormed) {id : Int32} :
    id ∈ level.ids (t.without (level.removal listed)) ↔ id ∈ level.ids t ∧ id ∉ listed := by
  cases level with
  | domains => exact Table.mem_keys_of_mem_iff fun d => Table.mem_eraseAll
  | groups =>
    refine Table.mem_keys_of_mem_iff fun g => (h.mem_without_iff (r := .group g)).trans ?_
    refine and_congr_right fun _ => and_iff_left fun p hp hchild => ?_
    obtain ⟨d, rfl⟩ := hchild.parent
    exact h.mem_without_iff.2 ⟨hp, List.not_mem_nil, fun _ _ hd => hd.parent.elim⟩
  | applications =>
    refine Table.mem_keys_of_mem_iff fun a => (h.mem_without_iff (r := .application a)).trans ?_
    refine and_congr_right fun _ => and_iff_left fun p hp hchild => ?_
    obtain ⟨g, rfl⟩ := hchild.parent
    refine h.mem_without_iff.2 ⟨hp, List.not_mem_nil, fun q hq hchild => ?_⟩
    obtain ⟨d, rfl⟩ := hchild.parent
    exact h.mem_without_iff.2 ⟨hq, List.not_mem_nil, fun _ _ hd => hd.parent.elim⟩

theorem count_append (h : t.WellFormed) : level.count t (listed ++ more) =
    level.count t listed + level.count (t.without (level.removal listed)) more := by
  have hsplit : {id ∈ (level.ids t).toFinset | id ∈ listed ++ more} =
      {id ∈ (level.ids t).toFinset | id ∈ listed} ∪
        {id ∈ (level.ids (t.without (level.removal listed))).toFinset | id ∈ more} := by
    ext id
    simp only [Finset.mem_filter, Finset.mem_union, List.mem_toFinset, List.mem_append,
      level.mem_ids_without listed h]
    tauto
  rw [count, hsplit, Finset.card_union_of_disjoint]
  · rfl
  · refine Finset.disjoint_left.2 fun id hid hid' => ?_
    simp only [Finset.mem_filter, List.mem_toFinset, level.mem_ids_without listed h] at hid hid'
    exact hid'.1.2 hid.2

theorem names_append (r : Row) : (level.removal (listed ++ more)).Names r ↔
    (level.removal listed).Names r ∨ (level.removal more).Names r := by
  cases level <;> cases r <;> simp [removal, Removal.Names]

theorem names_congr {listed more : List Int32} (h : ∀ id, id ∈ more ↔ id ∈ listed) (r : Row) :
    (level.removal more).Names r ↔ (level.removal listed).Names r := by
  cases level <;> cases r <;> simp [removal, Removal.Names, h]

theorem wellFormed_without (h : t.WellFormed) : (t.without (level.removal listed)).WellFormed := by
  cases level with
  | domains => exact (Tables.Edit.removeDomains listed).wellFormed h
  | groups => exact (Tables.Edit.removeGroups listed).wellFormed h
  | applications => exact (Tables.Edit.removeApplications listed).wellFormed h

/-- Only which ids are listed matters. -/
theorem apply_delete_congr (h : t.WellFormed) {listed more : List Int32}
    (hsame : ∀ id, id ∈ more ↔ id ∈ listed) :
    (level.delete more).apply t = (level.delete listed).apply t := by
  have hleft : t.without (level.removal more) = t.without (level.removal listed) := by
    refine Tables.eq_of_rows (fun r => ?_) rfl rfl
    simp only [h.mem_without, level.names_congr hsame]
  have hcount : level.count t more = level.count t listed := by
    simp only [count, hsame]
  rw [apply_delete, apply_delete, hleft, hcount]

theorem apply_delete_append (h : t.WellFormed) : (level.delete (listed ++ more)).apply t =
    (.ok (level.count t listed + level.count (t.without (level.removal listed)) more),
      (t.without (level.removal listed)).without (level.removal more)) := by
  rw [apply_delete, level.count_append listed more h,
    h.without_without (level.names_append listed more) (level.wellFormed_without listed h)]

/-- What is deleted twice is deleted once. -/
theorem apply_delete_again (h : t.WellFormed) :
    (level.delete listed).apply (t.without (level.removal listed)) =
      (.ok 0, t.without (level.removal listed)) := by
  have htwice : (level.delete (listed ++ listed)).apply t = (level.delete listed).apply t :=
    level.apply_delete_congr h fun id => by rw [List.mem_append, or_self]
  rw [level.apply_delete_append listed listed h, apply_delete, Prod.mk.injEq,
    Except.ok.injEq] at htwice
  obtain ⟨hcount, hleft⟩ := htwice
  rw [apply_delete, hleft, Nat.left_eq_add.1 hcount.symm]

/-- In well-formed tables a deletion by ids takes away the rows with these ids and all that hangs on
them, directly or through others, and nothing else. It counts the rows with these ids, once each.
Neither the order of the ids matters nor how often one is listed; two deletions do what one with the
ids of both does, and a second one with the same ids does nothing. Whatever rows there are, one
sweep leaves none without a parent, so that a second sweep changes nothing. -/
theorem deletes_exactly (t : Tables) :
    (t.WellFormed → ∀ (level : Level) (listed : List Int32),
      let left := ((level.delete listed).apply t).2
      ((level.delete listed).apply t).1 = .ok {id ∈ (level.ids t).toFinset | id ∈ listed}.card ∧
      (∀ r, r ∈ left ↔ r ∈ t ∧ ¬ (level.removal listed).Names r ∧
        ∀ top ∈ t, (level.removal listed).Names top → ¬ t.Descends r top) ∧
      left.nextDomainId = t.nextDomainId ∧ left.nextGroupId = t.nextGroupId ∧
      (∀ more, (∀ id, id ∈ more ↔ id ∈ listed) →
        (level.delete more).apply t = (level.delete listed).apply t) ∧
      (∀ more, (level.delete (listed ++ more)).apply t =
        (do return (← level.delete listed) + (← level.delete more) : Tables.Change Nat).apply t) ∧
      (level.delete listed).apply left = (.ok 0, left)) ∧
    (∀ r, ¬ t.sweepOrphans.Orphan r) ∧ t.sweepOrphans.sweepOrphans = t.sweepOrphans := by
  refine ⟨fun h level listed => ?_, t.not_orphan_sweepOrphans, t.sweepOrphans_sweepOrphans⟩
  rw [apply_delete]
  refine ⟨rfl, fun r => h.mem_without, rfl, rfl, fun more hsame => ?_, fun more => ?_,
    level.apply_delete_again listed h⟩
  · rw [level.apply_delete_congr h hsame, apply_delete]
  · rw [level.apply_delete_append listed more h, Tables.Change.apply_bind, apply_delete]
    dsimp only
    rw [Tables.Change.apply_bind, apply_delete]
    rfl

/-- The root domain goes with the administrator's token, and is counted once. -/
theorem deletes_root :
    let t := ((World.fresh ⟨0, 0⟩ fun _ => "").after [
      ⟨.writeDomain ⟨0, "other", "", defaultSystemId⟩, ⟨1, 0⟩⟩, ⟨.provision "root", ⟨0, 0⟩⟩]).tables
    let left := ((Level.domains.delete [1, 9, 1]).apply t).2
    t.WellFormed ∧ ((Level.domains.delete [1, 9, 1]).apply t).1 = .ok 1 ∧
      Row.token ⟨"root", 1, neverExpires, ⟨0, 0⟩⟩ ∈ t ∧
      Row.token ⟨"root", 1, neverExpires, ⟨0, 0⟩⟩ ∉ left := by
  intro t left
  have hwf : t.WellFormed := World.after_wellFormed ..
  obtain ⟨hcount, hleft, _⟩ := (deletes_exactly t).1 hwf .domains [1, 9, 1]
  have hone : {id ∈ (Level.domains.ids t).toFinset | id ∈ [1, 9, 1]}.card = 1 := by decide +kernel
  let domain : Domain := ⟨1, "root", "", defaultSystemId, ⟨0, 0⟩, ⟨0, 0⟩⟩
  let group : AppGroup := ⟨1, "rootService", "", 1, ⟨0, 0⟩, ⟨0, 0⟩⟩
  let admin : Application := ⟨1, "admin", "", 1, .system, ⟨0, 0⟩, ⟨0, 0⟩⟩
  have hdomain : domain ∈ t.domains.rows := by decide +kernel
  have hgroup : group ∈ t.groups.rows := by decide +kernel
  have hadmin : admin ∈ t.applications.rows := by decide +kernel
  have htoken : ⟨"root", 1, neverExpires, ⟨0, 0⟩⟩ ∈ t.tokens.rows := by decide +kernel
  clear_value t
  have hgroupUnder : t.Descends (.group group) (.domain domain) := .child hgroup hdomain rfl
  have hadminUnder : t.Descends (.application admin) (.domain domain) :=
    .up (p := .group group) hadmin hgroup rfl hgroupUnder
  have htokenUnder : t.Descends (.token ⟨"root", 1, neverExpires, ⟨0, 0⟩⟩) (.domain domain) :=
    .up (p := .application admin) htoken hadmin rfl hadminUnder
  refine ⟨hwf, hcount.trans (congrArg Except.ok hone), htoken, fun hstays => ?_⟩
  exact ((hleft _).1 hstays).2.2 (.domain domain) hdomain List.mem_cons_self htokenUnder

end Level

end AccessRegistry
