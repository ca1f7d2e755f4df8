import AccessRegistry.Proofs.Agreement
import AccessRegistry.Proofs.Enrichment

/-!
# AccessRegistry.Proofs.Reading

The calls that list rows, and the rules that show them. A call answers with the stored rows that are
asked for, every one once, in an order in which no two rows can be exchanged. That determines the
answer (`IsListing.unique`), so a call that is given ids answers alike whenever the same rows are
asked for: whatever the order of the ids, however often one is repeated, and whether or not they
name rows that do not exist (`ReadsByIds`).

A rule shows what a call lists. It asks nothing if it is given no ids, makes a list of a single one,
and shows applications with their tokens; its result is as exact as the answer of the call
(`World.RulesAreExact`).
-/

namespace AccessRegistry

open AccessRegistry.Action World Tables

section Listing

variable {ρ κ : Type} [Keyed ρ κ] {rows rows' : List ρ} {t : Table ρ} {asked asked' : ρ → Prop}
  {precedes : ρ → ρ → Prop}

/-- The rows of a table that are asked for, once each and in order. -/
structure IsListing (rows : List ρ) (t : Table ρ) (asked : ρ → Prop) (precedes : ρ → ρ → Prop) :
    Prop where
  exact : ∀ r, r ∈ rows ↔ r ∈ t ∧ asked r
  once : rows.Nodup
  ordered : rows.Pairwise precedes

/-- There is one way to list the rows that are asked for. -/
theorem IsListing.unique (hasymm : ∀ {a b}, precedes a b → ¬ precedes b a)
    (hrows : IsListing rows t asked precedes) (hrows' : IsListing rows' t asked' precedes)
    (hasked : ∀ r ∈ t, asked r ↔ asked' r) : rows = rows' := by
  have hperm : rows.Perm rows' := (List.perm_ext_iff_of_nodup hrows.once hrows'.once).2 fun r => by
    rw [hrows.exact, hrows'.exact]
    exact and_congr_right (hasked r)
  exact hperm.eq_of_pairwise (fun a b _ _ hab hba => absurd hba (hasymm hab)) hrows.ordered
    hrows'.ordered

/-- What is made of listed rows is the same however the same rows are asked for. -/
theorem IsListing.canonical {β : Type} {answers : List Int32 → β} {key : ρ → Int32}
    (hasymm : ∀ {a b}, precedes a b → ¬ precedes b a) (form : List ρ → β)
    (h : ∀ ids, ∃ rows, answers ids = form rows ∧
      IsListing rows t (fun r => key r ∈ ids) precedes)
    (ids ids' : List Int32) (hids : ∀ r ∈ t, key r ∈ ids ↔ key r ∈ ids') :
    answers ids = answers ids' := by
  obtain ⟨rows, hanswer, hrows⟩ := h ids
  obtain ⟨rows', hanswer', hrows'⟩ := h ids'
  rw [hanswer, hanswer', hrows.unique hasymm hrows' hids]

theorem IsListing.nil (hnone : ∀ r ∈ t, ¬ asked r) : IsListing [] t asked precedes where
  exact r := ⟨fun hr => absurd hr List.not_mem_nil, fun hr => absurd hr.2 (hnone r hr.1)⟩
  once := List.nodup_nil
  ordered := .nil

theorem IsListing.newestFirst {ρ : Type} [Keyed ρ Int32] {t : Table ρ} {age : ρ → Instant × Int32}
    {asked : ρ → Prop} {p : ρ → Bool} (hage : ∀ r, (age r).2 = Keyed.key r)
    (hp : ∀ r, p r = true ↔ asked r) :
    IsListing (newestFirst age (t.select p)) t asked (Newer age) where
  exact r := by rw [mem_newestFirst, hp]
  once := (nodup_newestFirst t age p).of_map
  ordered := pairwise_newestFirst hage t p

theorem IsListing.accessListsFor (t : Tables) (appId : Int32) :
    IsListing (t.accessListsFor appId) t.accessLists (fun a => a.appId = appId)
      fun a b => a.method < b.method where
  exact _ := mem_accessListsFor
  once := t.accessLists.nodup_rows.filter _
  ordered := sorted_accessListsFor t appId

end Listing

/-! ## Calls -/

/-- The ages by which rows are shown. -/
abbrev Domain.age (d : Domain) : Instant × Int32 := (d.createdAt, d.id)

abbrev AppGroup.age (g : AppGroup) : Instant × Int32 := (g.createdAt, g.id)

abbrev Application.age (a : Application) : Instant × Int32 := (a.createdAt, a.id)

namespace World

variable {ρ κ : Type} [Keyed ρ κ] {w : World}

/-- A call answers with the rows of a table that it asks for, and changes nothing. -/
def Reads (w : World) (c : Port (List ρ)) (t : Table ρ) (asked : ρ → Prop)
    (precedes : ρ → ρ → Prop) : Prop :=
  ∃ rows, (answerCall c).run w = (.ok rows, w) ∧ IsListing rows t asked precedes

/-- A call asks for the rows with one of the ids that it is given, in whatever way these name
them. -/
structure ReadsByIds (w : World) (call : List Int32 → Port (List ρ)) (t : Table ρ)
    (id : ρ → Int32) (precedes : ρ → ρ → Prop) : Prop where
  reads : ∀ ids, w.Reads (call ids) t (fun r => id r ∈ ids) precedes
  canonical : ∀ ids ids', (∀ r ∈ t, id r ∈ ids ↔ id r ∈ ids') →
    (answerCall (call ids)).run w = (answerCall (call ids')).run w

theorem readsByIds_of_reads {call : List Int32 → Port (List ρ)} {t : Table ρ} {id : ρ → Int32}
    {precedes : ρ → ρ → Prop} (hasymm : ∀ {a b}, precedes a b → ¬ precedes b a)
    (hreads : ∀ ids, w.Reads (call ids) t (fun r => id r ∈ ids) precedes) :
    w.ReadsByIds call t id precedes where
  reads := hreads
  canonical := IsListing.canonical hasymm (fun rows => (.ok rows, w)) hreads

theorem readsByIds_newest {ρ : Type} [Keyed ρ Int32] {call : List Int32 → Port (List ρ)}
    {t : Table ρ} {id : ρ → Int32} {age : ρ → Instant × Int32}
    (hage : ∀ r, (age r).2 = Keyed.key r)
    (hanswer : ∀ ids, (answerCall (call ids)).run w =
      (.ok (newestFirst age (t.select fun r => ids.contains (id r))), w)) :
    w.ReadsByIds call t id (Newer age) :=
  readsByIds_of_reads Newer.asymm fun ids =>
    ⟨_, hanswer ids, .newestFirst hage fun _ => List.contains_iff_mem⟩

/-- What the calls answer that list rows. -/
structure CallsAreExact (w : World) : Prop where
  domainsByIds : w.ReadsByIds .domainsByIds w.tables.domains Domain.id (Newer Domain.age)
  groupsByIds : w.ReadsByIds .groupsByIds w.tables.groups AppGroup.id (Newer AppGroup.age)
  applicationsByIds :
    w.ReadsByIds .applicationsByIds w.tables.applications Application.id (Newer Application.age)
  groupsByDomains :
    w.ReadsByIds .groupsByDomains w.tables.groups AppGroup.domainId (Newer AppGroup.age)
  applicationsByGroups : w.ReadsByIds .applicationsByGroups w.tables.applications
    Application.applicationGroupId (Newer Application.age)
  domainsBySystem : ∀ systemId, w.Reads (.domainsBySystem systemId) w.tables.domains
    (fun d => d.systemId = systemId) (Newer Domain.age)
  allGroups : w.Reads .allGroups w.tables.groups (fun _ => True) (Newer AppGroup.age)
  allApplications :
    w.Reads .allApplications w.tables.applications (fun _ => True) (Newer Application.age)
  permissions : ∀ appId, w.Reads (.accessLists appId) w.tables.accessLists
    (fun a => a.appId = appId) fun a b => a.method < b.method

theorem callsAreExact (w : World) : w.CallsAreExact where
  domainsByIds := readsByIds_newest (fun _ => rfl) fun _ => rfl
  groupsByIds := readsByIds_newest (fun _ => rfl) fun _ => rfl
  applicationsByIds := readsByIds_newest (fun _ => rfl) fun _ => rfl
  groupsByDomains := readsByIds_newest (fun _ => rfl) fun _ => rfl
  applicationsByGroups := readsByIds_newest (fun _ => rfl) fun _ => rfl
  domainsBySystem _ := ⟨_, rfl, .newestFirst (fun _ => rfl) fun _ => decide_eq_true_iff⟩
  allGroups := ⟨_, rfl, .newestFirst (fun _ => rfl) fun _ => iff_of_true rfl trivial⟩
  allApplications := ⟨_, rfl, .newestFirst (fun _ => rfl) fun _ => iff_of_true rfl trivial⟩
  permissions appId := ⟨_, rfl, .accessListsFor w.tables appId⟩

end World

/-! ## Rules -/

namespace World

variable {ρ κ β : Type} [Keyed ρ κ] {w : World} {t : Table ρ} {form : ρ → β} {key : ρ → Int32}
  {asked : ρ → Prop} {precedes : ρ → ρ → Prop}

/-- A rule shows the rows of a table that it asks for, each of them in some form, and changes
nothing. -/
def Presents (w : World) (r : Rule (List β)) (form : ρ → β) (t : Table ρ) (asked : ρ → Prop)
    (precedes : ρ → ρ → Prop) : Prop :=
  ∃ rows, outcome answer r w = (.ok (rows.map form), w) ∧ IsListing rows t asked precedes

/-- A rule shows the rows with one of the ids that it is given, in whatever way these name them. -/
structure PresentsByIds (w : World) (rule : List Int32 → Rule (List β)) (form : ρ → β)
    (t : Table ρ) (key : ρ → Int32) (precedes : ρ → ρ → Prop) : Prop where
  presents : ∀ ids, w.Presents (rule ids) form t (fun r => key r ∈ ids) precedes
  canonical : ∀ ids ids', (∀ r ∈ t, key r ∈ ids ↔ key r ∈ ids') →
    outcome answer (rule ids) w = outcome answer (rule ids') w

theorem presentsByIds_of_presents {rule : List Int32 → Rule (List β)}
    (hasymm : ∀ {a b}, precedes a b → ¬ precedes b a)
    (hpresents : ∀ ids, w.Presents (rule ids) form t (fun r => key r ∈ ids) precedes) :
    w.PresentsByIds rule form t key precedes where
  presents := hpresents
  canonical := IsListing.canonical hasymm (fun rows => (.ok (rows.map form), w)) hpresents

theorem Reads.presents {c : Port (List ρ)} (h : w.Reads c t asked precedes) :
    w.Presents (call c) id t asked precedes := by
  obtain ⟨rows, hanswer, hrows⟩ := h
  refine ⟨rows, ?_, hrows⟩
  rw [List.map_id]
  exact hanswer

/-- Without ids nothing is asked for, and nothing would be found. -/
theorem ReadsByIds.presents_unless_empty {ask : List Int32 → Port (List ρ)}
    (h : w.ReadsByIds ask t key precedes) (ids : List Int32) :
    w.Presents (if ids.isEmpty then pure [] else call (ask ids)) id t (fun r => key r ∈ ids)
      precedes := by
  cases ids with
  | nil => exact ⟨[], rfl, .nil fun r _ => List.not_mem_nil⟩
  | cons i ids => exact (h.reads (i :: ids)).presents

theorem presents_selection {asked : Application → Prop} (s : Applications.Selection)
    (hasked : ∀ a, s.includes a = true ↔ asked a) :
    w.Presents s.rule w.tables.withTokens w.tables.applications asked (Newer Application.age) :=
  ⟨_, s.rule_outcome, .newestFirst (fun _ => rfl) hasked⟩

/-- What the rules show that list rows. Those of an application that does not exist are not just
none. -/
structure RulesAreExact (w : World) : Prop where
  domainsByIds :
    w.PresentsByIds Domains.getByIdList id w.tables.domains Domain.id (Newer Domain.age)
  groupsByIds :
    w.PresentsByIds Groups.getByIdList id w.tables.groups AppGroup.id (Newer AppGroup.age)
  applicationsByIds : w.PresentsByIds Applications.getByIdList w.tables.withTokens
    w.tables.applications Application.id (Newer Application.age)
  domainsOfSystem : ∀ systemId, w.Presents (Domains.getBySystemId systemId) id w.tables.domains
    (fun d => d.systemId = systemId) (Newer Domain.age)
  groupsOfDomain : ∀ domainId, w.Presents (Groups.getByDomainId domainId) id w.tables.groups
    (fun g => g.domainId = domainId) (Newer AppGroup.age)
  applicationsOfGroup : ∀ groupId, w.Presents (Applications.getByServiceId groupId)
    w.tables.withTokens w.tables.applications (fun a => a.applicationGroupId = groupId)
    (Newer Application.age)
  allGroups : w.Presents Groups.getAll id w.tables.groups (fun _ => True) (Newer AppGroup.age)
  allApplications : w.Presents Applications.getAll w.tables.withTokens w.tables.applications
    (fun _ => True) (Newer Application.age)
  permissions : ∀ appId,
    if w.tables.applications.contains appId then
      w.Presents (Permissions.getById appId) id w.tables.accessLists (fun a => a.appId = appId)
        fun a b => a.method < b.method
    else outcome answer (Permissions.getById appId) w = (.error .applicationNotFound, w)

theorem CallsAreExact.rules (h : w.CallsAreExact) : w.RulesAreExact where
  domainsByIds := presentsByIds_of_presents Newer.asymm h.domainsByIds.presents_unless_empty
  groupsByIds := presentsByIds_of_presents Newer.asymm h.groupsByIds.presents_unless_empty
  applicationsByIds := presentsByIds_of_presents Newer.asymm fun ids =>
    presents_selection (.byIds ids) fun _ => List.contains_iff_mem
  domainsOfSystem systemId := (h.domainsBySystem systemId).presents
  groupsOfDomain domainId := by
    have hone := (h.groupsByDomains.reads [domainId]).presents
    simp only [List.mem_singleton] at hone
    exact hone
  applicationsOfGroup groupId := presents_selection (.ofGroup groupId) fun _ => decide_eq_true_iff
  allGroups := h.allGroups.presents
  allApplications := presents_selection .all fun _ => iff_of_true rfl trivial
  permissions appId := by
    have hfind : outcome answer (Permissions.getById appId) w =
        if !w.tables.applications.contains appId then (.error .applicationNotFound, w)
        else outcome answer (call (.accessLists appId)) w :=
      outcome_find_bind (c := .applicationById appId) (f := (·.application appId)) rfl rfl _
    split
    · rename_i happ
      obtain ⟨rows, houtcome, hrows⟩ := (h.permissions appId).presents
      refine ⟨rows, ?_, hrows⟩
      rw [hfind, if_neg (by simpa using happ), houtcome]
    · rename_i hmissing
      rw [hfind, if_pos (by simpa using hmissing)]

end World

/-- Whatever is stored, domains, groups and applications are listed exactly as they are asked for,
those created last first and of equal times the greatest id first, and permissions of an application
by ascending methods. So they are shown. -/
theorem World.lists_are_exact (w : World) : w.CallsAreExact ∧ w.RulesAreExact :=
  ⟨w.callsAreExact, w.callsAreExact.rules⟩

end AccessRegistry
