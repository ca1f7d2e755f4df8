import AccessRegistry.Proofs.Admission
import AccessRegistry.Proofs.Session

/-!
# AccessRegistry.Proofs.Renaming

When a rename is refused. The name is looked up twice: the rule looks under the parent that the
request names, if it names one, and the table looks under the parent that the row has. For domains
there is one system, so the two agree; a group or an application is refused a name that another row
has under either parent, although it stays under its own (`Traffic.renamed_unless_taken`).
-/

namespace AccessRegistry

open AccessRegistry.Action World Tables

/-! ## Looking for a name -/

/-- A row is found if one test or the other finds it. -/
theorem Table.any_or {ρ κ : Type} [Keyed ρ κ] {t : Table ρ} {p q either : ρ → Bool}
    (h : ∀ r, either r = (p r || q r)) : t.any either = (t.any p || t.any q) := by
  rw [Bool.eq_iff_iff, Bool.or_eq_true, any_iff, any_iff, any_iff]
  simp only [h, Bool.or_eq_true, and_or_left, exists_or]

/-- At most one row has a name under a parent. -/
theorem Table.Distinct.named {ρ κ : Type} [Keyed ρ κ] {t : Table ρ} {name : ρ → String}
    {parent : ρ → Int32} (h : t.Distinct fun r => (name r, parent r)) (n : String) (p : Int32) :
    ∀ r ∈ t, ∀ s ∈ t, decide (name r = n ∧ parent r = p) = true →
      decide (name s = n ∧ parent s = p) = true → r = s := by
  intro r hr s hs hhas hhas'
  obtain ⟨hname, hparent⟩ := of_decide_eq_true hhas
  obtain ⟨hname', hparent'⟩ := of_decide_eq_true hhas'
  exact h r hr s hs (Prod.ext (hname.trans hname'.symm) (hparent.trans hparent'.symm))

section Search

variable {γ β : Type} {w : World}

/-- If at most one row can be found, a name is free unless it is found on another row. -/
theorem nameIsFree_found {rows : List γ} {p : γ → Bool} {missing : Failure}
    (hmissing : missing.isNotFound = true)
    (hunique : ∀ r ∈ rows, ∀ s ∈ rows, p r = true → p s = true → r = s) (id : Int32)
    (idOf : γ → Int32) (duplicate : Failure) :
    nameIsFree (found missing (rows.find? p)) id idOf duplicate =
      if rows.any fun r => idOf r ≠ id ∧ p r then .error duplicate else .ok () := by
  cases hfind : rows.find? p with
  | none =>
    have hnone : ¬ rows.any fun r => idOf r ≠ id ∧ p r := by
      rw [List.any_eq_true]
      rintro ⟨r, hr, htaken⟩
      exact List.find?_eq_none.1 hfind r hr (of_decide_eq_true htaken).2
    rw [if_neg hnone]
    exact if_pos hmissing
  | some r =>
    have hp := List.find?_some hfind
    have hmem := List.mem_of_find?_eq_some hfind
    have htaken : (rows.any fun r => idOf r ≠ id ∧ p r) = true ↔ idOf r ≠ id := by
      rw [List.any_eq_true]
      constructor
      · rintro ⟨s, hs, htaken⟩
        obtain ⟨hne, hps⟩ := of_decide_eq_true htaken
        rwa [hunique r hmem s hs hp hps]
      · exact fun hne => ⟨r, hmem, decide_eq_true ⟨hne, hp⟩⟩
    by_cases hid : idOf r = id
    · rw [if_neg fun h => htaken.1 h hid]
      exact if_pos hid
    · rw [if_pos (htaken.2 hid)]
      exact if_neg hid

/-- A rule goes on after it has looked for a name, unless another row has the name. -/
theorem outcome_ensureNameFree {search : Port γ} (rows : Tables → List γ) (p : γ → Bool)
    {missing : Failure} (h : answerCall search = look fun t => found missing ((rows t).find? p))
    (hmissing : missing.isNotFound = true)
    (hunique : ∀ r ∈ rows w.tables, ∀ s ∈ rows w.tables, p r = true → p s = true → r = s)
    (id : Int32) (idOf : γ → Int32) (duplicate : Failure) (k : Unit → Rule β) :
    outcome answer (ensureNameFree search id idOf duplicate >>= k) w =
      if (rows w.tables).any fun r => idOf r ≠ id ∧ p r then (.error duplicate, w)
      else outcome answer (k ()) w := by
  unfold ensureNameFree
  rw [outcome_bind, outcome_bind, outcome_attempt, outcome_look h]
  dsimp only
  rw [nameIsFree_found hmissing hunique]
  cases (rows w.tables).any fun r => idOf r ≠ id ∧ p r <;> rfl

end Search

/-! ## Renaming a row -/

/-- What is refused twice for one reason is refused if either holds. -/
theorem ite_ite_same {α : Type} {first second either : Bool} (h : either = (first || second))
    (x y : α) : (if first then x else if second then x else y) = if either then x else y := by
  subst h
  cases first <;> rfl

section Rules

variable {w : World}

/-- A domain is renamed unless another domain of its system has the name. -/
theorem Domains.outcome_rename (hwf : w.tables.WellFormed) (req : DomainWrite)
    (hid : req.id ≠ 0) {current : Domain}
    (hcurrent : w.tables.domains.find? req.id = some current) :
    outcome answer (Domains.createUpdate req) w =
      if w.tables.domains.any fun d =>
          d.id ≠ req.id ∧ d.name = req.name ∧ d.systemId = current.systemId then
        (.error .domainDuplicateName, w)
      else
        let row := { current with
          name := req.name, description := req.description, updatedAt := w.now }
        (.ok row,
          { w with tables := { w.tables with domains := w.tables.domains.insert row } }) := by
  have hfound : w.tables.domain req.id = .ok current := by
    rw [Tables.domain, hcurrent]
    rfl
  have hchange := apply_updateDomain (t := w.tables) w.now req.id req.name req.description
  rw [hcurrent] at hchange
  unfold Domains.createUpdate
  rw [outcome_ensureNameFree (·.domains.rows)
    (fun d => d.name = req.name ∧ d.systemId = req.systemId) rfl rfl
      (hwf.domainNames.named _ _),
    if_neg hid, outcome_look_bind (·.domain req.id) rfl hfound, outcome_change rfl hchange]
  refine ite_ite_same ?_ _ _
  -- there is one system, so another domain that the rule finds is one that the table finds
  have hsystem := hwf.systems current (Table.mem_of_find? hcurrent)
  have himp : (w.tables.domains.any fun d =>
      d.id ≠ req.id ∧ decide (d.name = req.name ∧ d.systemId = req.systemId)) = true →
        (w.tables.domains.any fun d =>
          d.id ≠ req.id ∧ d.name = req.name ∧ d.systemId = current.systemId) = true := by
    intro h
    obtain ⟨d, hd, htaken⟩ := Table.any_iff.1 h
    obtain ⟨hne, hsame⟩ := of_decide_eq_true htaken
    refine Table.any_iff.2 ⟨d, hd, decide_eq_true ⟨hne, (of_decide_eq_true hsame).1, ?_⟩⟩
    rw [hwf.systems d hd, hsystem]
  exact (Bool.or_eq_right_iff_imp.2 himp).symm

/-- A group is renamed unless another group of its domain or of the one that the request names has
the name. -/
theorem Groups.outcome_rename (hwf : w.tables.WellFormed) (req : GroupWrite) (hid : req.id ≠ 0)
    {current : AppGroup} (hcurrent : w.tables.groups.find? req.id = some current) :
    outcome answer (Groups.update req) w =
      if w.tables.groups.any fun g => g.id ≠ req.id ∧ g.name = req.name ∧
          (g.domainId = current.domainId ∨ some g.domainId = req.domainId) then
        (.error .appGroupDuplicateName, w)
      else
        let row := { current with
          name := req.name, description := req.description, updatedAt := w.now }
        (.ok row, { w with tables := { w.tables with groups := w.tables.groups.insert row } }) := by
  have hfound : w.tables.group req.id = .ok current := by
    rw [Tables.group, hcurrent]
    rfl
  have hchange := apply_updateGroup (t := w.tables) w.now req.id req.name req.description
  rw [hcurrent] at hchange
  unfold Groups.update
  rw [if_neg hid, outcome_look_bind (·.group req.id) rfl hfound,
    outcome_ensureNameFree (·.groups.rows)
      (fun g => g.name = req.name ∧ g.domainId = req.domainId.getD current.domainId) rfl rfl
      (hwf.groupNames.named _ _), outcome_change rfl hchange]
  refine ite_ite_same (Table.any_or fun g => ?_) _ _
  cases req.domainId <;> grind

/-- An application is renamed unless another application of its group or of the one that the request
names has the name. -/
theorem Applications.outcome_rename (hwf : w.tables.WellFormed) (req : NewApplication)
    (hid : req.id ≠ 0) {current : Application}
    (hcurrent : w.tables.applications.find? req.id = some current) :
    outcome answer (Applications.createUpdate req) w =
      if w.tables.applications.any fun a => a.id ≠ req.id ∧ a.name = req.name ∧
          (a.applicationGroupId = current.applicationGroupId ∨
            a.applicationGroupId = req.applicationGroupId) then
        (.error .applicationDuplicateName, w)
      else
        let row := { current with
          name := req.name, description := req.description, updatedAt := w.now }
        (.ok ⟨row, w.tables.tokensWhere fun k => k.appId = req.id⟩,
          { w with
            tables := { w.tables with
              applications := (w.tables.applications.erase req.id).insert row } }) := by
  obtain ⟨id, name, description, groupId, type⟩ := req
  obtain rfl : current.id = id := Table.key_of_find? hcurrent
  have hfound : w.tables.application current.id = .ok current := by
    rw [Tables.application, hcurrent]
    rfl
  have hchange :=
    apply_updateApplication (t := w.tables) w.now current.id current.id name description
  have hsame : ¬ (current.id ≠ current.id ∧ w.tables.applications.contains current.id) :=
    fun h => h.1 rfl
  rw [hcurrent] at hchange
  dsimp only at hchange
  rw [if_neg hsame, if_pos rfl] at hchange
  unfold Applications.createUpdate
  rw [outcome_ensureNameFree (·.applications.rows)
    (fun a => a.name = name ∧ a.applicationGroupId = groupId) rfl rfl
      (hwf.applicationNames.named _ _),
    if_pos hid, outcome_look_bind (·.application current.id) rfl hfound,
    outcome_change_bind rfl hchange]
  refine ite_ite_same (Table.any_or fun a => ?_) _ _
  grind

end Rules

/-! ## Requests -/

namespace Traffic

theorem wellFormed_receiving (now : Instant) (mint : Nat → String) (callers : List Caller)
    (turns : List Turn) : ((receiving now mint callers).after turns).world.tables.WellFormed :=
  start_wellFormed

/-- Whoever has called and in whatever order: a request that renames a stored row is refused,
without effect, if another row has the name under the parent of the row or under the one that the
request names; otherwise the row gets the name and the description, and stays where it is. -/
theorem renamed_unless_taken (now : Instant) (mint : Nat → String) (callers : List Caller)
    (turns : List Turn) :
    let w := ((receiving now mint callers).after turns).world
    (∀ (r : Http.Request) (kept : Option Http.Metrics) (req : DomainWrite) (current : Domain),
      r.AsksFor (.writeDomain req) Domain.toJson → req.id ≠ 0 →
      w.tables.domains.find? req.id = some current →
        w.serve r kept =
          if w.tables.domains.any fun d =>
              d.id ≠ req.id ∧ d.name = req.name ∧ d.systemId = current.systemId then
            (.ofFailure .domainDuplicateName, w)
          else
            let row := { current with
              name := req.name, description := req.description, updatedAt := w.now }
            (.ok row.toJson, { w with
              tables := { w.tables with domains := w.tables.domains.insert row } })) ∧
    (∀ (r : Http.Request) (kept : Option Http.Metrics) (req : GroupWrite) (current : AppGroup),
      r.AsksFor (.updateGroup req) AppGroup.toJson → req.id ≠ 0 →
      w.tables.groups.find? req.id = some current →
        w.serve r kept =
          if w.tables.groups.any fun g => g.id ≠ req.id ∧ g.name = req.name ∧
              (g.domainId = current.domainId ∨ some g.domainId = req.domainId) then
            (.ofFailure .appGroupDuplicateName, w)
          else
            let row := { current with
              name := req.name, description := req.description, updatedAt := w.now }
            (.ok row.toJson, { w with
              tables := { w.tables with groups := w.tables.groups.insert row } })) ∧
    (∀ (r : Http.Request) (kept : Option Http.Metrics) (req : NewApplication)
        (current : Application),
      r.AsksFor (.writeApplication req) ApplicationWithTokens.toJson → req.id ≠ 0 →
      w.tables.applications.find? req.id = some current →
        w.serve r kept =
          if w.tables.applications.any fun a => a.id ≠ req.id ∧ a.name = req.name ∧
              (a.applicationGroupId = current.applicationGroupId ∨
                a.applicationGroupId = req.applicationGroupId) then
            (.ofFailure .applicationDuplicateName, w)
          else
            let row := { current with
              name := req.name, description := req.description, updatedAt := w.now }
            (.ok (ApplicationWithTokens.mk row
                (w.tables.tokensWhere fun k => k.appId = req.id)).toJson,
              { w with
                tables := { w.tables with
                  applications := (w.tables.applications.erase req.id).insert row } })) := by
  intro w
  have hwf : w.tables.WellFormed := wellFormed_receiving now mint callers turns
  refine ⟨?_, ?_, ?_⟩
  · intro r kept req current hasks hid hcurrent
    have houtcome : outcome answer (Operation.writeDomain req).rule w = _ :=
      Domains.outcome_rename hwf req hid hcurrent
    rw [serve_of_asksFor hasks, houtcome]
    split <;> rfl
  · intro r kept req current hasks hid hcurrent
    have houtcome : outcome answer (Operation.updateGroup req).rule w = _ :=
      Groups.outcome_rename hwf req hid hcurrent
    rw [serve_of_asksFor hasks, houtcome]
    split <;> rfl
  · intro r kept req current hasks hid hcurrent
    have houtcome : outcome answer (Operation.writeApplication req).rule w = _ :=
      Applications.outcome_rename hwf req hid hcurrent
    rw [serve_of_asksFor hasks, houtcome]
    split <;> rfl

/-- Two domains, with the group `x` in the first and the group `y` in the second. -/
def groupsApart : List Caller :=
  [.request (.post "/system/domain/create_update_domain" "\x7b\"name\":\"a\"\x7d") none,
    .request (.post "/system/domain/create_update_domain" "\x7b\"name\":\"b\"\x7d") none,
    .request (.post "/system/application_group/create"
      "\x7b\"name\":\"x\",\"domainId\":1\x7d") none,
    .request (.post "/system/application_group/create"
      "\x7b\"name\":\"y\",\"domainId\":2\x7d") none]

/-- A request that gives group 1 the name `y`, and names the other domain. -/
def renameAcross : Http.Request :=
  .post "/system/application_group/update" "\x7b\"id\":1,\"name\":\"y\",\"domainId\":2\x7d"

theorem asks_renameAcross :
    renameAcross.AsksFor (.updateGroup ⟨1, "y", "", some 2⟩) AppGroup.toJson := by
  have hfields : (Http.Endpoint.readBody Http.Body.group renameAcross).toOption.map
      (fun req => (req.id, req.name, req.description, req.domainId)) =
      some (1, "y", "", some 2) := by decide +kernel
  have hread : Http.Endpoint.readBody Http.Body.group renameAcross = .ok ⟨1, "y", "", some 2⟩ := by
    cases hread : Http.Endpoint.readBody Http.Body.group renameAcross with
    | error message =>
      rw [hread] at hfields
      cases hfields
    | ok req =>
      obtain ⟨id, name, description, domainId⟩ := req
      rw [hread] at hfields
      obtain ⟨rfl, rfl, rfl, rfl⟩ : id = 1 ∧ name = "y" ∧ description = "" ∧
        domainId = some 2 := by simpa [Except.toOption] using hfields
      rfl
  exact Http.asksFor_of_readBody rfl rfl hread

theorem serve_renameAcross {w : World} (hwf : w.tables.WellFormed)
    (hcurrent : w.tables.groups.find? 1 = some ⟨1, "x", "", 1, ⟨0, 0⟩, ⟨0, 0⟩⟩)
    (htaken : w.tables.groups.any fun g => g.id ≠ 1 ∧ g.name = "y" ∧
      (g.domainId = 1 ∨ some g.domainId = some 2)) :
    w.serve renameAcross none = (.ofFailure .appGroupDuplicateName, w) := by
  have houtcome : outcome answer (Operation.updateGroup ⟨1, "y", "", some 2⟩).rule w = _ :=
    Groups.outcome_rename hwf ⟨1, "y", "", some 2⟩ (by decide) hcurrent
  rw [serve_of_asksFor asks_renameAcross, houtcome, if_pos htaken]
  rfl

/-- The name is free in the domain of the group, and yet the group does not get it. -/
theorem refused_across_domains :
    let w := ((receiving ⟨0, 0⟩ (fun _ => "") groupsApart).after (Turn.inOrder 4 4)).world
    (∃ current, w.tables.groups.find? 1 = some current ∧
      ¬ w.tables.groups.any fun g => g.id ≠ 1 ∧ g.name = "y" ∧ g.domainId = current.domainId) ∧
    renameAcross.AsksFor (.updateGroup ⟨1, "y", "", some 2⟩) AppGroup.toJson ∧
    w.serve renameAcross none = (.ofFailure .appGroupDuplicateName, w) := by
  intro w
  have hcurrent : w.tables.groups.find? 1 = some ⟨1, "x", "", 1, ⟨0, 0⟩, ⟨0, 0⟩⟩ := by
    decide +kernel
  have hfree : ¬ w.tables.groups.any fun g => g.id ≠ 1 ∧ g.name = "y" ∧ g.domainId = 1 := by
    decide +kernel
  have htaken : w.tables.groups.any fun g => g.id ≠ 1 ∧ g.name = "y" ∧
      (g.domainId = 1 ∨ some g.domainId = some 2) := by decide +kernel
  have hwf : w.tables.WellFormed := wellFormed_receiving ..
  exact ⟨⟨_, hcurrent, hfree⟩, asks_renameAcross, serve_renameAcross hwf hcurrent htaken⟩

end Traffic

end AccessRegistry
