import AccessRegistry.Proofs.Session
import AccessRegistry.Proofs.TokenViews

/-!
# AccessRegistry.Proofs.Restoration

Tables written down as lists of rows and filled again. Of the rows of a list that have one key the
last stays (`find?_ofList`), so what is read back is in one form only: the rows in ascending order
of their keys (`KeepsLast`), whatever rows with different keys have changed places (`Reorders`). The
counters start anew past the ids that the rows have.

Nothing that only reads looks at the counters, so tables that were restored from their own rows
answer as they did (`AnswersAlike`).
-/

namespace AccessRegistry

open AccessRegistry.Action World Tables

/-! ## Tables of rows that were listed -/

namespace Table

variable {ρ κ : Type} [Keyed ρ κ] [DecidableEq κ] {rows rows' : List ρ} {k : κ}

/-- The rows of a list with a key, in their order. -/
def rowsOf (rows : List ρ) (k : κ) : List ρ := rows.filter fun r => Keyed.key r = k

theorem find?_insertAll (t : Table ρ) (rows : List ρ) (k : κ) :
    (t.insertAll rows).find? k = (rowsOf rows k).getLast?.or (t.find? k) := by
  induction rows generalizing t with
  | nil => rfl
  | cons a rows ih =>
    rw [insertAll_cons, ih, find?_insert, rowsOf, rowsOf, List.filter_cons]
    by_cases hkey : Keyed.key a = k
    · rw [if_pos hkey.symm, if_pos (decide_eq_true hkey), List.getLast?_cons]
      cases (rows.filter fun r => Keyed.key r = k).getLast? <;> rfl
    · rw [if_neg (Ne.symm hkey), if_neg (by simpa using hkey)]

/-- The last row of a key takes the place of those before it. -/
theorem find?_ofList (rows : List ρ) (k : κ) :
    (ofList rows).find? k = (rowsOf rows k).getLast? := by
  rw [ofList, find?_insertAll]
  exact Option.or_none

omit [DecidableEq κ] in
theorem ofList_rows (t : Table ρ) : ofList t.rows = t := by
  refine eq_of_mem_iff fun r => ?_
  rw [ofList, mem_insertAll t.pairwise_key_ne]
  exact or_iff_left fun h => not_mem_empty h.1

/-- The rows that come last of their keys in a list, in ascending order of key. -/
structure KeepsLast (rows kept : List ρ) : Prop where
  ascending : kept.Pairwise fun a b => compare (Keyed.key a) (Keyed.key b) = .lt
  last : ∀ r, r ∈ kept ↔ (rowsOf rows (Keyed.key r)).getLast? = some r

theorem keepsLast_ofList (rows : List ρ) : KeepsLast rows (ofList rows).rows where
  ascending := (ofList rows).sorted
  last r := by
    rw [← find?_ofList, find?_eq_some_iff]
    exact (and_iff_left rfl).symm

/-- Rows with different keys change places, one pair of neighbours after another. -/
inductive Reorders : List ρ → List ρ → Prop where
  | nil : Reorders [] []
  | cons (a : ρ) {rows rows' : List ρ} : Reorders rows rows' → Reorders (a :: rows) (a :: rows')
  | swap {a b : ρ} (rows : List ρ) :
    Keyed.key a ≠ Keyed.key b → Reorders (a :: b :: rows) (b :: a :: rows)
  | trans {rows rows' rows'' : List ρ} :
    Reorders rows rows' → Reorders rows' rows'' → Reorders rows rows''

/-- The rows of one key stay in their order. -/
theorem Reorders.rowsOf_eq (h : Reorders rows rows') (k : κ) : rowsOf rows k = rowsOf rows' k := by
  induction h with
  | nil => rfl
  | cons a _ ih =>
    rw [rowsOf, rowsOf, List.filter_cons, List.filter_cons]
    exact if_congr Iff.rfl (congrArg _ ih) ih
  | @swap a b rows hne =>
    by_cases ha : Keyed.key a = k
    · have hb : Keyed.key b ≠ k := fun hb => hne (ha.trans hb.symm)
      simp [rowsOf, List.filter_cons, hb]
    · simp [rowsOf, List.filter_cons, ha]
  | trans _ _ ih ih' => exact ih.trans ih'

theorem Reorders.ofList_eq (h : Reorders rows rows') : ofList rows = ofList rows' := by
  have hfind (k : κ) : (ofList rows).find? k = (ofList rows').find? k := by
    rw [find?_ofList, find?_ofList, h.rowsOf_eq]
  have hmem (t : Table ρ) (r : ρ) : r ∈ t ↔ t.find? (Keyed.key r) = some r :=
    (find?_eq_some_iff.trans (and_iff_left rfl)).symm
  exact eq_of_mem_iff fun r => by rw [hmem, hmem, hfind]

end Table

/-! ## Counters -/

namespace Tables

theorem countPast_eq (counter id : Int32) :
    countPast counter id = if counter ≤ id + 1 then id + 1 else counter := rfl

theorem le_countPast (counter id : Int32) : counter ≤ countPast counter id := by
  rw [countPast_eq]
  split
  · assumption
  · exact Int32.le_refl _

theorem lt_countPast (counter : Int32) {id : Int32} (hmax : id < Int32.maxValue) :
    id < countPast counter id := by
  have hnext : id < id + 1 := lt_add_one_of_lt_max hmax
  rw [countPast_eq]
  split
  · exact hnext
  · rename_i hgreater
    exact Int32.lt_trans hnext (Int32.not_le.1 hgreater)

theorem le_foldl_countPast (ids : List Int32) (counter : Int32) :
    counter ≤ ids.foldl countPast counter := by
  induction ids generalizing counter with
  | nil => exact Int32.le_refl _
  | cons id ids ih => exact Int32.le_trans (le_countPast counter id) (ih _)

theorem lt_foldl_countPast {ids : List Int32} {id : Int32} (hid : id ∈ ids)
    (hmax : id < Int32.maxValue) (counter : Int32) : id < ids.foldl countPast counter := by
  induction ids generalizing counter with
  | nil => exact absurd hid List.not_mem_nil
  | cons first ids ih =>
    rcases List.mem_cons.1 hid with rfl | hid
    · exact Int32.lt_of_lt_of_le (lt_countPast counter hmax) (le_foldl_countPast ids _)
    · exact ih hid _

end Tables

/-! ## Snapshots -/

namespace Snapshot

/-- Rows with different keys change places within their lists. -/
structure Reorders (s s' : Snapshot) : Prop where
  domains : Table.Reorders s.domains s'.domains
  groups : Table.Reorders s.groups s'.groups
  applications : Table.Reorders s.applications s'.applications
  tokens : Table.Reorders s.tokens s'.tokens
  accessLists : Table.Reorders s.accessLists s'.accessLists

/-- Tables hold the rows of a snapshot, and count on from its ids. -/
structure Fills (s : Snapshot) (t : Tables) : Prop where
  domains : Table.KeepsLast s.domains t.snapshot.domains
  groups : Table.KeepsLast s.groups t.snapshot.groups
  applications : Table.KeepsLast s.applications t.snapshot.applications
  tokens : Table.KeepsLast s.tokens t.snapshot.tokens
  accessLists : Table.KeepsLast s.accessLists t.snapshot.accessLists
  domainIds : 1 ≤ t.nextDomainId ∧
    ((∀ d ∈ s.domains, d.id < Int32.maxValue) → ∀ d ∈ s.domains, d.id < t.nextDomainId)
  groupIds : 1 ≤ t.nextGroupId ∧
    ((∀ g ∈ s.groups, g.id < Int32.maxValue) → ∀ g ∈ s.groups, g.id < t.nextGroupId)

theorem fills_ofSnapshot (s : Snapshot) : s.Fills (.ofSnapshot s) where
  domains := Table.keepsLast_ofList _
  groups := Table.keepsLast_ofList _
  applications := Table.keepsLast_ofList _
  tokens := Table.keepsLast_ofList _
  accessLists := Table.keepsLast_ofList _
  domainIds := ⟨le_foldl_countPast _ _, fun hmax d hd =>
    lt_foldl_countPast (List.mem_map_of_mem hd) (hmax d hd) 1⟩
  groupIds := ⟨le_foldl_countPast _ _, fun hmax g hg =>
    lt_foldl_countPast (List.mem_map_of_mem hg) (hmax g hg) 1⟩

theorem Reorders.snapshot_eq {s s' : Snapshot} (h : s.Reorders s') :
    (ofSnapshot s).snapshot = (ofSnapshot s').snapshot := by
  simp only [ofSnapshot, snapshot, h.domains.ofList_eq, h.groups.ofList_eq,
    h.applications.ofList_eq, h.tokens.ofList_eq, h.accessLists.ofList_eq]

end Snapshot

namespace Tables

variable {t t' : Tables}

theorem snapshot_ofSnapshot (t : Tables) : (ofSnapshot t.snapshot).snapshot = t.snapshot := by
  simp only [ofSnapshot, snapshot, Table.ofList_rows]

theorem domainsBelow_ofSnapshot (h : ∀ d ∈ t.domains, d.id < Int32.maxValue) :
    (ofSnapshot t.snapshot).DomainsBelow := by
  have hrows : (ofSnapshot t.snapshot).domains = t.domains := Table.ofList_rows _
  intro d hd
  exact t.snapshot.fills_ofSnapshot.domainIds.2 h d (hrows ▸ hd : d ∈ t.domains)

theorem groupsBelow_ofSnapshot (h : ∀ g ∈ t.groups, g.id < Int32.maxValue) :
    (ofSnapshot t.snapshot).GroupsBelow := by
  have hrows : (ofSnapshot t.snapshot).groups = t.groups := Table.ofList_rows _
  intro g hg
  exact t.snapshot.fills_ofSnapshot.groupIds.2 h g (hrows ▸ hg : g ∈ t.groups)

/-- Tables with the same rows differ in their counters at most. -/
theorem eq_of_snapshot_eq (h : t'.snapshot = t.snapshot) :
    t' = { t with nextDomainId := t'.nextDomainId, nextGroupId := t'.nextGroupId } := by
  obtain ⟨hdomains, hgroups, happs, htokens, hpermissions⟩ := Snapshot.mk.inj h
  cases t
  cases t'
  simp only [mk.injEq, and_true]
  exact ⟨Table.ext hdomains, Table.ext hgroups, Table.ext happs, Table.ext htokens,
    Table.ext hpermissions⟩

theorem WellFormed.of_snapshot_eq (hwf : t.WellFormed) (h : t'.snapshot = t.snapshot) :
    t'.WellFormed := by
  rw [eq_of_snapshot_eq h]
  exact ⟨hwf.systems, hwf.groups, hwf.applications, hwf.tokens, hwf.permissions, hwf.domainNames,
    hwf.groupNames, hwf.applicationNames⟩

end Tables

/-! ## Reading -/

namespace World

variable {w : World} {t : Tables}

theorem answerCall_alike (h : t.snapshot = w.tables.snapshot) {γ : Type} {c : Port γ}
    (hc : c.writes = false) :
    ((answerCall c).run { w with tables := t }).1 = ((answerCall c).run w).1 := by
  rw [eq_of_snapshot_eq h]
  cases c <;> first | rfl | cases hc

theorem run_alike (h : t.snapshot = w.tables.snapshot) {ρ : Type} {p : Program (Effect Port) ρ}
    (hp : p.Looks) :
    ((p.run answer).run { w with tables := t }).1 = ((p.run answer).run w).1 := by
  induction p with
  | done a => rfl
  | ask e next ih =>
    cases e with
    | now => exact ih _ (hp _)
    | mint => exact hp.elim
    | call c =>
      have hrun (v : World) : ((Program.ask (.call c) next).run answer).run v =
          ((next ((answerCall c).run v).1).run answer).run ((answerCall c).run v).2 := rfl
      rw [hrun, hrun, answerCall_look hp.1, answerCall_look hp.1, answerCall_alike h hp.1]
      exact ih _ (hp.2 _)

/-- Two worlds answer everything alike that does not ask for a change. -/
structure AnswersAlike (w w' : World) : Prop where
  calls : ∀ {γ : Type} (c : Port γ), c.writes = false →
    ((answerCall c).run w).1 = ((answerCall c).run w').1
  operations : ∀ {β : Type} (op : Operation β), op.reads = true →
    w.result op.rule = w'.result op.rule
  requests : ∀ (r : Http.Request) (kept : Option Http.Metrics),
    (∀ (β : Type) (op : Operation β) (view : β → Json.Value),
      r.AsksFor op view → op.reads = true) → (w.serve r kept).1 = (w'.serve r kept).1

theorem answersAlike_of_snapshot_eq (h : t.snapshot = w.tables.snapshot) :
    AnswersAlike { w with tables := t } w where
  calls _ hc := answerCall_alike h hc
  operations op hop := run_alike h (Operation.looks_of_reads op hop)
  requests r kept hreads := by
    rcases Http.answer_cases kept r with ⟨β, op, view, hasks⟩ | hlooks
    · have hop : op.reads = true := hreads β op view hasks
      rw [serve_of_asksFor hasks, serve_of_asksFor hasks]
      exact congrArg (fun x => Http.Answer.ofResult (x.map view))
        (run_alike h (Operation.looks_of_reads op hop))
    · rw [serve_eq, serve_eq]
      exact run_alike h hlooks

end World

/-- Tables that are filled from a snapshot hold the last row of every key and nothing else, and
read back in one form, whatever order the snapshot had. Tables that any clients have come to are
restored from what they hold: the rows and the rules among them are the same, new ids are new, and
everything that only reads is answered as before. -/
theorem snapshots_restore {α : Type} :
    (∀ s : Snapshot, s.Fills (ofSnapshot s) ∧
      (ofSnapshot (ofSnapshot s).snapshot).snapshot = (ofSnapshot s).snapshot ∧
      ∀ s', s.Reorders s' → (ofSnapshot s).snapshot = (ofSnapshot s').snapshot) ∧
    ∀ (now : Instant) (mint : Nat → String) (clients : List (Program (Effect Port) α))
      (turns : List Turn) (later : Instant),
      let w := { ((Traffic.start now mint clients).after turns).world with now := later }
      let t := ofSnapshot w.tables.snapshot
      t.FoundByKey ∧ t.WellFormed ∧
        ((∀ d ∈ w.tables.domains, d.id < Int32.maxValue) → t.DomainsBelow) ∧
        ((∀ g ∈ w.tables.groups, g.id < Int32.maxValue) → t.GroupsBelow) ∧
        t.snapshot = w.tables.snapshot ∧ AnswersAlike { w with tables := t } w := by
  refine ⟨fun s => ⟨s.fills_ofSnapshot, snapshot_ofSnapshot _, fun s' h => h.snapshot_eq⟩, ?_⟩
  intro now mint clients turns later w t
  have hsame : t.snapshot = w.tables.snapshot := snapshot_ofSnapshot w.tables
  have hwf : w.tables.WellFormed := Traffic.start_wellFormed
  exact ⟨t.foundByKey, hwf.of_snapshot_eq hsame, domainsBelow_ofSnapshot, groupsBelow_ofSnapshot,
    hsame, answersAlike_of_snapshot_eq hsame⟩

end AccessRegistry
