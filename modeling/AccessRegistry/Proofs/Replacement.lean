import Mathlib.Data.List.Nodup
import AccessRegistry.Proofs.Lifecycle
import AccessRegistry.Proofs.Listing

/-!
# AccessRegistry.Proofs.Replacement

Setting the permissions of an application in one request. The old ones that would be in the way are
dropped before the new ones are added, so adding fails just when a method is listed twice, and the
transaction takes the drop back. What is left otherwise does not depend on the order of the list,
and is what the entries set one by one leave.

* `Table.Fresh`               — rows that can be added to a table one after another.
* `SetListRequest.ListsOnce`  — what a request has to be for that.
* `SetListRequest.replaced`   — the tables after it.
-/

namespace AccessRegistry

open AccessRegistry.Action World Tables

namespace Table

variable {ρ κ : Type} [Keyed ρ κ] {t : Table ρ} {r : ρ} {rows : List ρ}

/-- The rows can be stored next to each other without one taking the place of another. -/
def Fresh (t : Table ρ) (rows : List ρ) : Prop :=
  (∀ a ∈ rows, ¬ t.contains (Keyed.key a)) ∧ (rows.map Keyed.key).Nodup

theorem fresh_nil : t.Fresh [] := ⟨fun _ ha => absurd ha List.not_mem_nil, List.nodup_nil⟩

/-- Once the first row is stored, the others have to differ from it as from the old ones. -/
theorem fresh_cons (hr : ¬ t.contains (Keyed.key r)) :
    t.Fresh (r :: rows) ↔ (t.insert r).Fresh rows := by
  unfold Fresh
  rw [List.forall_mem_cons, List.map_cons, List.nodup_cons]
  simp only [contains_insert_iff, not_or]
  constructor
  · rintro ⟨⟨_, hfresh⟩, hne, hdistinct⟩
    refine ⟨fun a ha => ⟨fun hkey => hne ?_, hfresh a ha⟩, hdistinct⟩
    exact List.mem_map.2 ⟨a, ha, hkey⟩
  · rintro ⟨hfresh, hdistinct⟩
    refine ⟨⟨hr, fun a ha => (hfresh a ha).2⟩, fun hmem => ?_, hdistinct⟩
    obtain ⟨a, ha, hkey⟩ := List.mem_map.1 hmem
    exact (hfresh a ha).1 hkey

end Table

namespace Tables

variable {t : Tables} {appId : Int32}

/-- Permissions of applications that are there are added just when they are fresh. -/
theorem apply_forM_insertAccessList_of_owned {rows : List AccessList}
    (howners : ∀ a ∈ rows, t.applications.contains a.appId) :
    (t.accessLists.Fresh rows → (rows.forM insertAccessList).apply t =
      (.ok (), { t with accessLists := t.accessLists.insertAll rows })) ∧
    (¬ t.accessLists.Fresh rows → ((rows.forM insertAccessList).apply t).1 =
      .error (.invalidArgument "method listed more than once for the application")) := by
  induction rows generalizing t with
  | nil => exact ⟨fun _ => rfl, fun hstale => absurd Table.fresh_nil hstale⟩
  | cons row rest ih =>
    obtain ⟨hrow, hrest⟩ := List.forall_mem_cons.1 howners
    have hstep : ((row :: rest).forM insertAccessList).apply t =
        (insertAccessList row >>= fun _ => rest.forM insertAccessList).apply t := rfl
    rw [hstep, Change.apply_bind, apply_insertAccessList]
    simp only [hrow, Bool.not_true, Bool.false_eq_true, if_false]
    by_cases hused : t.accessLists.contains row.key
    · rw [if_pos hused]
      exact ⟨fun hfresh => absurd hused (hfresh.1 row List.mem_cons_self), fun _ => rfl⟩
    · rw [if_neg hused, Table.fresh_cons hused]
      exact @ih { t with accessLists := t.accessLists.insert row } hrest

end Tables

/-- No method is listed twice. -/
def SetListRequest.ListsOnce (req : SetListRequest) : Prop :=
  (req.methods.map MethodValue.method).Nodup

/-- The tables after the permissions are set. -/
def SetListRequest.replaced (req : SetListRequest) (t : Tables) : Tables :=
  { t with accessLists := (req.left t.accessLists).insertAll req.rows }

namespace Permissions

variable {w : World} {req : SetListRequest}

theorem setOne_outcome (row : AccessList) (h : w.tables.applications.contains row.appId) :
    outcome answer (setOne row) w =
      (.ok 1, { w with tables :=
        { w.tables with accessLists := w.tables.accessLists.insert row } }) := by
  obtain ⟨app, happ⟩ := Option.isSome_iff_exists.1 h
  apply outcome_eq_of_ends
  unfold setOne
  rw [ends_bind, ends_look (f := (·.application row.appId)) rfl, application, happ]
  refine (ends_transaction _).2 ((ends_perform _).2 ?_)
  have happly : (perform w.now (.upsert row)).apply w.tables = _ := apply_upsertAccessList row
  rw [happly, h]
  exact ⟨rfl, rfl⟩

theorem setEach_outcome {appId : Int32} (h : w.tables.applications.contains appId)
    (entries : List MethodValue) :
    let rows := entries.map fun m => ⟨appId, m.method, m.value⟩
    outcome answer (entries.mapM fun m => setOne ⟨appId, m.method, m.value⟩) w =
      (.ok (entries.map fun _ => 1), { w with tables :=
        { w.tables with accessLists := w.tables.accessLists.insertAll rows } }) := by
  induction entries generalizing w with
  | nil => rfl
  | cons m rest ih =>
    have hone := setOne_outcome ⟨appId, m.method, m.value⟩ h
    have hrest := @ih { w with tables := { w.tables with
      accessLists := w.tables.accessLists.insert ⟨appId, m.method, m.value⟩ } } h
    rw [List.mapM_cons, outcome_bind, hone]
    dsimp only at hrest ⊢
    rw [outcome_bind, hrest]
    rfl

theorem nodup_keys : (req.rows.map Keyed.key).Nodup ↔ req.ListsOnce := by
  have hkeys : req.rows.map Keyed.key =
      (req.methods.map MethodValue.method).map (PermissionKey.mk req.appId) := by
    simp only [SetListRequest.rows, List.map_map]
    rfl
  rw [hkeys, List.nodup_map_iff fun _ _ h => (PermissionKey.mk.inj h).2]
  rfl

/-- What is left of the old permissions is in nobody's way. -/
theorem fresh_left {permissions : Table AccessList} :
    (req.left permissions).Fresh req.rows ↔ req.ListsOnce := by
  refine (and_iff_right fun a ha hused => ?_).trans nodup_keys
  obtain ⟨b, hb, hkey⟩ := Table.contains_iff.1 hused
  exact (Operation.mem_left.1 hb).2.2 ⟨a, ha, hkey.symm⟩

/-- The old permissions are dropped first, so that the new ones meet only each other. -/
theorem replace_left (req : SetListRequest) (w : World) :
    outcome answerWork (replace req) w =
      outcome answerWork
        (do
          let _ ← Action.call (Capability.insertAll req.rows)
          Action.call (Capability.getByAppId req.appId))
        { w with tables :=
          { w.tables with accessLists := req.left w.tables.accessLists } } := by
  unfold replace SetListRequest.left
  split <;> rfl

theorem replace_outcome (h : w.tables.applications.contains req.appId) :
    (req.ListsOnce → outcome answerWork (replace req) w =
      (.ok ((req.replaced w.tables).accessListsFor req.appId),
        { w with tables := req.replaced w.tables })) ∧
    (¬ req.ListsOnce → ∃ t, outcome answerWork (replace req) w =
      (.error (.invalidArgument "method listed more than once for the application"),
        { w with tables := t })) := by
  have howners : ∀ a ∈ req.rows, w.tables.applications.contains a.appId := fun a ha => by
    rw [(SetListRequest.mem_rows.1 ha).1]
    exact h
  obtain ⟨hadds, hrefuses⟩ := apply_forM_insertAccessList_of_owned
    (t := { w.tables with accessLists := req.left w.tables.accessLists }) howners
  have hrun (t : Tables) :
      outcome answerWork (call (Capability.insertAll req.rows)) { w with tables := t } =
        ((insertAccessLists req.rows).apply t).map id fun tables => { w with tables } := rfl
  rw [replace_left, outcome_bind, hrun, apply_insertAccessLists]
  constructor
  · intro honce
    rw [hadds (fresh_left.2 honce)]
    rfl
  · intro htwice
    rw [hrefuses fun hfresh => htwice (fresh_left.1 hfresh)]
    exact ⟨_, rfl⟩

/-- A refused request leaves no trace, though its old permissions were dropped. -/
theorem setList_outcome (h : w.tables.applications.contains req.appId) :
    (req.ListsOnce → outcome answer (setList req) w =
      (.ok ((req.replaced w.tables).accessListsFor req.appId),
        { w with tables := req.replaced w.tables })) ∧
    (¬ req.ListsOnce → outcome answer (setList req) w =
      (.error (.invalidArgument "method listed more than once for the application"), w)) := by
  obtain ⟨app, happ⟩ := Option.isSome_iff_exists.1 h
  have hfound : w.tables.application req.appId = .ok app :=
    congrArg (found .applicationNotFound) happ
  obtain ⟨hadds, hrefuses⟩ := replace_outcome h
  unfold setList
  rw [outcome_look_bind (·.application req.appId) rfl hfound, outcome_transaction]
  constructor
  · intro honce
    rw [hadds honce]
    rfl
  · intro htwice
    obtain ⟨t, hrefused⟩ := hrefuses htwice
    rw [hrefused]
    rfl

/-- What is there afterwards, when no method is listed twice. -/
theorem mem_replaced {t : Tables} {l : AccessList} (honce : req.ListsOnce) :
    l ∈ (req.replaced t).accessLists ↔
      l.appId = req.appId ∧ ⟨l.method, l.value⟩ ∈ req.methods ∨
        l ∈ t.accessLists ∧ (l.appId = req.appId →
          req.removeOld = false ∧ l.method ∉ req.methods.map MethodValue.method) := by
  have hkeys : req.rows.Pairwise fun a b => Keyed.key a ≠ Keyed.key b :=
    List.pairwise_map.1 (nodup_keys.2 honce)
  have hwithdraws : (Operation.setPermissions req).Withdraws l ↔ l.appId = req.appId ∧
      req.removeOld = true ∧ l.method ∉ req.methods.map MethodValue.method := .rfl
  rw [SetListRequest.replaced, Table.mem_insertAll hkeys, SetListRequest.mem_rows,
    Operation.mem_left, hwithdraws, SetListRequest.sets_iff]
  refine or_congr_right ((and_iff_left_of_imp fun h a ha heq => ?_).trans ?_)
  · exact h.2.2 (SetListRequest.sets_iff.1 ⟨a, ha, heq.symm⟩)
  · rw [← Bool.not_eq_true]
    tauto

/-- Permissions that are set one by one are the same in any order. -/
theorem insertAll_eq {t : Tables} {order : List MethodValue} (honce : req.ListsOnce)
    (hkeep : req.removeOld = false) (hperm : order.Perm req.methods) :
    t.accessLists.insertAll (order.map fun m => ⟨req.appId, m.method, m.value⟩) =
      (req.replaced t).accessLists := by
  let ordered : SetListRequest := { req with methods := order }
  have hrows : ordered.rows.Perm req.rows := hperm.map _
  have hkeys : ordered.rows.Pairwise fun a b => Keyed.key a ≠ Keyed.key b :=
    List.pairwise_map.1 (nodup_keys.2 ((hperm.map _).nodup_iff.2 honce))
  have hnotSet (l : AccessList) : (∀ a ∈ ordered.rows, Keyed.key l ≠ Keyed.key a) ↔
      ¬ (l.appId = req.appId ∧ l.method ∈ req.methods.map MethodValue.method) := by
    rw [← SetListRequest.sets_iff]
    simp only [hrows.mem_iff, not_exists, not_and, ne_comm (a := Keyed.key l), ne_eq]
  refine Table.eq_of_mem_iff fun l => (Table.mem_insertAll hkeys).trans ?_
  rw [mem_replaced honce, hrows.mem_iff, SetListRequest.mem_rows, hnotSet]
  simp only [hkeep, true_and, not_and]

/-- A request that lists a method twice is refused, and nothing happens. Any other one leaves the
application with the permissions that it lists and, unless the old ones are to go, with those for
other methods; no other application notices. All of them are shown, in the order of their methods.
If the old ones are kept, the listed ones may as well be set one by one, in any order. -/
theorem sets_exactly (w : World) (req : SetListRequest)
    (h : w.tables.applications.contains req.appId) :
    (¬ req.ListsOnce → outcome answer (setList req) w =
      (.error (.invalidArgument "method listed more than once for the application"), w)) ∧
    (req.ListsOnce → ∃ rows w',
      outcome answer (setList req) w = (.ok rows, w') ∧
      w' = { w with tables :=
        { w.tables with accessLists := w'.tables.accessLists } } ∧
      (∀ l, l ∈ w'.tables.accessLists ↔
        l.appId = req.appId ∧ ⟨l.method, l.value⟩ ∈ req.methods ∨
          l ∈ w.tables.accessLists ∧ (l.appId = req.appId →
            req.removeOld = false ∧ l.method ∉ req.methods.map MethodValue.method)) ∧
      (∀ l, l ∈ rows ↔ l ∈ w'.tables.accessLists ∧ l.appId = req.appId) ∧
      (rows.Pairwise fun a b => a.method < b.method) ∧
      (req.removeOld = false → ∀ order : List MethodValue, order.Perm req.methods →
        outcome answer (order.mapM fun m => setOne ⟨req.appId, m.method, m.value⟩) w =
          (.ok (order.map fun _ => 1), w'))) := by
  obtain ⟨hset, hrefused⟩ := setList_outcome h
  refine ⟨hrefused, fun honce => ⟨_, _, hset honce, rfl, fun l => mem_replaced honce,
    fun l => mem_accessListsFor, sorted_accessListsFor _ _, fun hkeep order hperm => ?_⟩⟩
  rw [setEach_outcome h, insertAll_eq honce hkeep hperm]
  rfl

/-- The administrator may be given the same permission twice only in two requests. -/
theorem sets_permissions_of_admin :
    let w := (fresh ⟨0, 0⟩ fun _ => "").after [⟨.provision "root", ⟨0, 0⟩⟩]
    w.tables.applications.contains 1 ∧
      outcome answer (setList ⟨1, true, [⟨"m", true⟩, ⟨"m", false⟩]⟩) w =
        (.error (.invalidArgument "method listed more than once for the application"), w) ∧
      ∃ rows w', outcome answer (setList ⟨1, false, [⟨"m", true⟩]⟩) w = (.ok rows, w') ∧
        ⟨1, "m", true⟩ ∈ rows ∧ ⟨1, "admin/auth/login", true⟩ ∈ rows := by
  intro w
  have hadmin : w.tables.applications.contains 1 := by decide +kernel
  have hlogin : ⟨1, "admin/auth/login", true⟩ ∈ w.tables.accessLists.rows := by decide +kernel
  clear_value w
  obtain ⟨hrefused, _⟩ := sets_exactly w ⟨1, true, [⟨"m", true⟩, ⟨"m", false⟩]⟩ hadmin
  obtain ⟨_, hset⟩ := sets_exactly w ⟨1, false, [⟨"m", true⟩]⟩ hadmin
  obtain ⟨rows, w', h, _, hmem, hrows, _⟩ := hset (List.nodup_singleton _)
  refine ⟨hadmin, hrefused (by unfold SetListRequest.ListsOnce; decide), rows, w', h, ?_, ?_⟩
  · exact (hrows _).2 ⟨(hmem _).2 (.inl ⟨rfl, List.mem_singleton_self _⟩), rfl⟩
  · exact (hrows _).2 ⟨(hmem _).2 (.inr ⟨hlogin, fun _ => ⟨rfl, by decide⟩⟩), rfl⟩

end Permissions

end AccessRegistry
