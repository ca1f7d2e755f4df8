import AccessRegistry.Proofs.Renaming
import AccessRegistry.Proofs.Contest

/-!
# AccessRegistry.Proofs.Allocation

The ids that applications get. The next id is one more than the greatest, in 32 bits, and callers
may bring any positive id, the greatest of all included. That one has no successor: as long as it is
stored, the next id is negative, and no application can be created without an id of its own.

* `nextApplicationId_above_iff` — when the next id is positive and above all others.
* `Applications.outcome_write_new` — what becomes of an application without an id.
* `Traffic.allocates_unless_last_used` — both, for requests in every state that callers lead to.
-/

namespace AccessRegistry

open AccessRegistry.Action World Tables

/-! ## The next id -/

namespace Tables

variable {t : Tables}

theorem nextApplicationId_of_empty (h : ∀ a, a ∉ t.applications) : t.nextApplicationId = 1 := by
  rcases nextApplicationId_cases t with hid | ⟨a, ha, _⟩
  · exact hid
  · exact absurd ha (h a)

/-- The greatest id is followed by the least number. -/
theorem nextApplicationId_of_last (h : t.applications.contains Int32.maxValue) :
    t.nextApplicationId = Int32.minValue := by
  obtain ⟨a, ha, hid⟩ := Table.contains_iff.1 h
  rw [Application.key_eq] at hid
  unfold nextApplicationId
  cases hlast : t.applications.last? with
  | none => exact absurd ha (Table.last?_eq_none hlast)
  | some last =>
    have hmax : last.id = Int32.maxValue := by
      rcases (Table.last?_eq_some hlast).2 a ha with rfl | hlt
      · exact hid
      · have habove : a.id < last.id := Std.compare_eq_lt.1 hlt
        rw [hid] at habove
        exact absurd (Int32.le_maxValue last.id) (Int32.not_le.2 habove)
    show last.id + 1 = Int32.minValue
    rw [hmax]
    decide

theorem lt_max_of_not_contains (h : ¬ t.applications.contains Int32.maxValue) :
    ∀ a ∈ t.applications, a.id < Int32.maxValue := by
  intro a ha
  refine Int32.lt_of_le_of_ne (Int32.le_maxValue a.id) fun hmax => ?_
  exact h (Table.contains_iff.2 ⟨a, ha, hmax⟩)

/-- The next id is what it should be unless the greatest one is stored. -/
theorem nextApplicationId_above_iff (hpos : ∀ a ∈ t.applications, 1 ≤ a.id) :
    (0 < t.nextApplicationId ∧ ∀ a ∈ t.applications, a.id < t.nextApplicationId) ↔
      ¬ t.applications.contains Int32.maxValue := by
  constructor
  · rintro ⟨hnext, _⟩ hlast
    rw [nextApplicationId_of_last hlast] at hnext
    exact absurd hnext (by decide)
  · intro hlast
    have hmax := lt_max_of_not_contains hlast
    refine ⟨nextApplicationId_pos fun a ha => ⟨?_, hmax a ha⟩,
      fun a ha => lt_nextApplicationId hmax ha⟩
    exact Int32.lt_of_lt_of_le (by decide) (hpos a ha)

end Tables

/-! ## An application without an id -/

/-- The row of a new application. -/
def NewApplication.row (req : NewApplication) (now : Instant) : Application :=
  ⟨req.id, req.name, req.description, req.applicationGroupId, req.type, now, now⟩

namespace Applications

variable {w : World} (req : NewApplication)

theorem outcome_create_refused (h : req.id ≤ 0) :
    outcome answer (create req) w =
      (.error (.invalidArgument "application id must be positive"), w) := by
  unfold create
  rw [if_pos h]
  rfl

theorem outcome_create (hpos : 0 < req.id) (hid : ¬ w.tables.applications.contains req.id)
    (hparent : w.tables.groups.contains req.applicationGroupId)
    (hfree : ∀ a ∈ w.tables.applications, a.name = req.name →
      a.applicationGroupId ≠ req.applicationGroupId) :
    outcome answer (create req) w =
      (.ok ⟨req.row w.now, []⟩, { w with
        tables := { w.tables with
          applications := w.tables.applications.insert (req.row w.now) } }) := by
  have hname : ¬ w.tables.applications.any fun a =>
      a.name = req.name ∧ a.applicationGroupId = req.applicationGroupId := by
    simpa [Table.any_iff] using hfree
  have hgroup : ¬ (!w.tables.groups.contains req.applicationGroupId) = true := by
    simpa using hparent
  have hchange : (createApplication w.now req).apply w.tables = (.ok (req.row w.now),
      { w.tables with applications := w.tables.applications.insert (req.row w.now) }) := by
    rw [apply_createApplication, if_neg hid, if_neg hname, if_neg hgroup]
    rfl
  unfold create
  rw [if_neg (Int32.not_le.2 hpos)]
  dsimp only
  rw [outcome_bind, outcome_done rfl hchange]
  rfl

theorem outcome_nextId : outcome answer nextId w = (.ok w.tables.nextApplicationId, w) :=
  outcome_look (f := fun t => .ok t.nextApplicationId) rfl

/-- The first attempt under the next id, if nobody comes between. -/
theorem outcome_createUnderNextId (retries : Nat) :
    outcome answer (createUnderNextId req (retries + 1)) w =
      let first := outcome answer (create { req with id := w.tables.nextApplicationId }) w
      outcome answer (orAgain req retries first.1) first.2 := by
  rw [createUnderNextId_succ,
    outcome_look_bind (fun t => .ok t.nextApplicationId) rfl rfl, outcome_bind, outcome_attempt]

/-- An application without an id is created after looking for its name and its group. No
application has the id 0, so a name that is taken is taken by another one. -/
theorem outcome_new {req : NewApplication} (hwf : w.tables.WellFormed)
    (hids : ∀ a ∈ w.tables.applications, 1 ≤ a.id) (hid : req.id = 0) :
    outcome answer (createUpdate req) w =
      if w.tables.applications.any fun a =>
          a.name = req.name ∧ a.applicationGroupId = req.applicationGroupId then
        (.error .applicationDuplicateName, w)
      else if !w.tables.groups.contains req.applicationGroupId then (.error .appGroupNotFound, w)
      else outcome answer (createUnderNextId req 2) w := by
  have hother : (w.tables.applications.rows.any fun a => a.id ≠ req.id ∧
      decide (a.name = req.name ∧ a.applicationGroupId = req.applicationGroupId)) =
      w.tables.applications.any fun a =>
        a.name = req.name ∧ a.applicationGroupId = req.applicationGroupId := by
    rw [Bool.eq_iff_iff, List.any_eq_true, Table.any_iff]
    constructor
    · rintro ⟨a, ha, htaken⟩
      exact ⟨a, ha, (of_decide_eq_true htaken).2⟩
    · rintro ⟨a, ha, hsame⟩
      have hne : a.id ≠ req.id := by
        intro hzero
        have hpos := hids a ha
        rw [hzero, hid] at hpos
        exact absurd hpos (by decide)
      exact ⟨a, ha, decide_eq_true ⟨hne, hsame⟩⟩
  unfold createUpdate
  rw [outcome_ensureNameFree (·.applications.rows)
      (fun a => a.name = req.name ∧ a.applicationGroupId = req.applicationGroupId) rfl rfl
      (hwf.applicationNames.named _ _),
    hother, if_neg (not_not.2 hid), outcome_find_bind (f := (·.group _)) rfl rfl]
  rfl

/-- An application with a free name gets the next id, unless the greatest id is stored. -/
theorem outcome_write_new (hwf : w.tables.WellFormed)
    (hids : ∀ a ∈ w.tables.applications, 1 ≤ a.id) (hid : req.id = 0)
    (hparent : w.tables.groups.contains req.applicationGroupId)
    (hfree : ∀ a ∈ w.tables.applications, a.name = req.name →
      a.applicationGroupId ≠ req.applicationGroupId) :
    outcome answer (createUpdate req) w =
      if w.tables.applications.contains Int32.maxValue then
        (.error (.invalidArgument "application id must be positive"), w)
      else
        let row := { req with id := w.tables.nextApplicationId }.row w.now
        (.ok ⟨row, []⟩, { w with
          tables := { w.tables with applications := w.tables.applications.insert row } }) := by
  have htaken : ¬ w.tables.applications.any fun a =>
      a.name = req.name ∧ a.applicationGroupId = req.applicationGroupId := by
    simpa [Table.any_iff] using hfree
  have hmissing : ¬ (!w.tables.groups.contains req.applicationGroupId) = true := by
    simpa using hparent
  rw [outcome_new hwf hids hid, if_neg htaken, if_neg hmissing]
  show outcome answer (createUnderNextId req (1 + 1)) w = _
  rw [outcome_createUnderNextId]
  split
  · rename_i hlast
    have hnext : w.tables.nextApplicationId ≤ 0 := by
      rw [nextApplicationId_of_last hlast]
      decide
    rw [outcome_create_refused { req with id := w.tables.nextApplicationId } hnext]
    rfl
  · rename_i hlast
    obtain ⟨hpos, _⟩ := (nextApplicationId_above_iff hids).2 hlast
    have hunused := nextApplicationId_unused (lt_max_of_not_contains hlast)
    rw [outcome_create { req with id := w.tables.nextApplicationId } hpos hunused hparent hfree]
    rfl

end Applications

/-! ## Requests -/

namespace Traffic

/-- Whoever has called and in whatever order: the next id that a request is told is positive and
above all others unless the greatest id is stored, and in that case only, a request that brings a
free name and an existing group but no id is refused. -/
theorem allocates_unless_last_used (now : Instant) (mint : Nat → String) (callers : List Caller)
    (turns : List Turn) :
    let w := ((receiving now mint callers).after turns).world
    let id := w.tables.nextApplicationId
    (∀ (r : Http.Request) (kept : Option Http.Metrics),
      r.AsksFor .nextApplicationId Http.View.nextId →
        w.serve r kept = (.ok (Http.View.nextId id), w)) ∧
    ((∀ a, a ∉ w.tables.applications) → id = 1) ∧
    ((0 < id ∧ ∀ a ∈ w.tables.applications, a.id < id) ↔
      ¬ w.tables.applications.contains Int32.maxValue) ∧
    (∀ (r : Http.Request) (kept : Option Http.Metrics) (req : NewApplication),
      r.AsksFor (.writeApplication req) ApplicationWithTokens.toJson → req.id = 0 →
      w.tables.groups.contains req.applicationGroupId →
      (∀ a ∈ w.tables.applications, a.name = req.name →
        a.applicationGroupId ≠ req.applicationGroupId) →
        w.serve r kept =
          if w.tables.applications.contains Int32.maxValue then
            (.ofFailure (.invalidArgument "application id must be positive"), w)
          else
            let row := { req with id }.row w.now
            (.ok (ApplicationWithTokens.mk row []).toJson, { w with
              tables := { w.tables with
                applications := w.tables.applications.insert row } })) := by
  intro w id
  have hwf : w.tables.WellFormed := wellFormed_receiving now mint callers turns
  have hlawful : w.tables.Lawful := lawful_receiving now mint callers turns
  have hids : ∀ a ∈ w.tables.applications, 1 ≤ a.id := fun a ha => (hlawful.applications a ha).2
  refine ⟨?_, nextApplicationId_of_empty, nextApplicationId_above_iff hids, ?_⟩
  · intro r kept hasks
    have houtcome : outcome answer Operation.nextApplicationId.rule w = (.ok id, w) :=
      Applications.outcome_nextId
    rw [serve_of_asksFor hasks, houtcome]
    rfl
  · intro r kept req hasks hid hparent hfree
    have houtcome : outcome answer (Operation.writeApplication req).rule w = _ :=
      Applications.outcome_write_new req hwf hids hid hparent hfree
    rw [serve_of_asksFor hasks, houtcome]
    split <;> rfl

/-- A domain, a group, and an application that brings the greatest id. -/
def lastIdUsed : List Caller :=
  [.request (.post "/system/domain/create_update_domain" "\x7b\"name\":\"d\"\x7d") none,
    .request (.post "/system/application_group/create"
      "\x7b\"name\":\"g\",\"domainId\":1\x7d") none,
    .request (.post "/system/application/create_application"
      "\x7b\"id\":2147483647,\"name\":\"a\",\"serviceId\":1,\"type\":\"SYSTEM\"\x7d") none]

/-- After the greatest id the next one is negative, and a name that is free is refused. -/
theorem runs_out_of_ids :
    let w := ((receiving ⟨0, 0⟩ (fun _ => "") lastIdUsed).after (Turn.inOrder 3 4)).world
    w.tables.applications.contains Int32.maxValue ∧
    (w.serve (.post "/system/application/next_id" "") none).1 =
      .ok (Http.View.nextId Int32.minValue) ∧
    (w.serve (.post "/system/application/create_update_application"
      "\x7b\"name\":\"b\",\"serviceId\":1,\"type\":\"SYSTEM\"\x7d") none).1.status = 400 := by
  intro w
  have hlast : w.tables.applications.contains Int32.maxValue := by decide +kernel
  have hasks : (Http.Request.post "/system/application/next_id" "").AsksFor .nextApplicationId
      Http.View.nextId := ⟨rfl, _, rfl, rfl⟩
  refine ⟨hlast, ?_, by decide +kernel⟩
  have houtcome : outcome answer Operation.nextApplicationId.rule w =
      (.ok w.tables.nextApplicationId, w) := Applications.outcome_nextId
  rw [serve_of_asksFor hasks, houtcome, nextApplicationId_of_last hlast]
  rfl

end Traffic

end AccessRegistry
