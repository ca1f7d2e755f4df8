import AccessRegistry.Proofs.Allocation

/-!
# AccessRegistry.Proofs.Precedence

Which requests that create a row succeed, and what the others are told. A rule looks for the name
and the parent before it asks for the row, and the tables look again, in an order of their own.
`Operation.refusal?` is the one order that a caller sees; the two never disagree.

* `Operation.Creates`       — the operations that create a row, each with what it fails with when
  it is repeated.
* `Operation.Decided`       — an operation is refused as the tables say, or adds its row.
* `Traffic.creates_exactly` — both for requests, and what comes of a request that is repeated.
-/

namespace AccessRegistry

open AccessRegistry.Action World Tables

/-! ## Reasons to refuse -/

namespace Tables

variable (t : Tables)

def domainRefusal? (req : DomainWrite) : Option Failure :=
  if t.domains.any fun d => d.name = req.name ∧ d.systemId = req.systemId then
    some .domainDuplicateName
  else if req.systemId ≠ defaultSystemId then some .systemNotFound
  else none

def groupRefusal? (req : GroupWrite) : Option Failure :=
  let domainId := req.domainId.getD defaultDomainId
  if t.groups.any fun g => g.name = req.name ∧ g.domainId = domainId then
    some .appGroupDuplicateName
  else if !t.domains.contains domainId then some .domainNotFound
  else none

/-- An id that a request brings counts before the name. -/
def applicationRefusal? (req : NewApplication) : Option Failure :=
  if req.id ≤ 0 then some (.invalidArgument "application id must be positive")
  else if t.applications.contains req.id then some .applicationDuplicateId
  else if t.applications.any fun a =>
      a.name = req.name ∧ a.applicationGroupId = req.applicationGroupId then
    some .applicationDuplicateName
  else if !t.groups.contains req.applicationGroupId then some .appGroupNotFound
  else none

/-- The next id counts after everything else. -/
def nextApplicationRefusal? (req : NewApplication) : Option Failure :=
  if t.applications.any fun a =>
      a.name = req.name ∧ a.applicationGroupId = req.applicationGroupId then
    some .applicationDuplicateName
  else if !t.groups.contains req.applicationGroupId then some .appGroupNotFound
  else if t.applications.contains Int32.maxValue then
    some (.invalidArgument "application id must be positive")
  else none

end Tables

namespace Operation

variable {α : Type}

/-- The operation creates a row, and the failure is the one of a repetition. -/
inductive Creates : {α : Type} → Operation α → Failure → Prop where
  | domain (req : DomainWrite) (hid : req.id = 0) :
      Creates (.writeDomain req) .domainDuplicateName
  | group (req : GroupWrite) : Creates (.createGroup req) .appGroupDuplicateName
  | application (req : NewApplication) : Creates (.createApplication req) .applicationDuplicateId
  | nextApplication (req : NewApplication) (hid : req.id = 0) :
      Creates (.writeApplication req) .applicationDuplicateName

/-- The first reason to refuse an operation that creates a row. -/
def refusal? (t : Tables) : Operation α → Option Failure
  | .writeDomain req => t.domainRefusal? req
  | .createGroup req => t.groupRefusal? req
  | .createApplication req => t.applicationRefusal? req
  | .writeApplication req => t.nextApplicationRefusal? req
  | _ => none

/-- The operation is refused for the first reason that there is. Otherwise it adds its row, if the
counters still give new ids. -/
def Decided (w : World) (op : Operation α) : Prop :=
  match op.refusal? w.tables with
  | some f => outcome answer op.rule w = (.error f, w)
  | none => w.tables.DomainsBelow → w.tables.GroupsBelow → ∃ x t',
      outcome answer op.rule w = (.ok x, { w with tables := t' }) ∧ op.Adds w.tables x t'

/-- The row that the operation has created is there, under the name and the parent that the
operation has given it. -/
def Keeps (t : Tables) : Operation α → α → Prop
  | .writeDomain req, domain =>
    ∃ d ∈ t.domains, d.id = domain.id ∧ d.name = req.name ∧ d.systemId = req.systemId
  | .createGroup req, group =>
    ∃ g ∈ t.groups, g.id = group.id ∧ g.name = req.name ∧
      g.domainId = req.domainId.getD defaultDomainId
  | .createApplication req, out | .writeApplication req, out =>
    ∃ a ∈ t.applications, a.id = out.app.id ∧ a.name = req.name ∧
      a.applicationGroupId = req.applicationGroupId
  | _, _ => False

end Operation

/-! ## Looking before asking -/

section Outcomes

variable {w : World}

/-- Creating a domain after looking for its name comes to the same as creating it. -/
theorem Domains.outcome_new (hwf : w.tables.WellFormed) {req : DomainWrite} (hid : req.id = 0) :
    outcome answer (Domains.createUpdate req) w =
      outcome answer (call (.createDomain req.name req.description req.systemId)) w := by
  unfold Domains.createUpdate
  rw [outcome_ensureNameFree (·.domains.rows)
    (fun d => d.name = req.name ∧ d.systemId = req.systemId) rfl rfl
      (hwf.domainNames.named _ _), if_pos hid]
  split
  · rename_i hother
    obtain ⟨d, hd, htaken⟩ := List.any_eq_true.1 hother
    have hsame := of_decide_eq_true (of_decide_eq_true htaken).2
    rw [outcome_apply (m := createDomain w.now _ _ _) rfl, createDomain_taken ⟨d, hd, hsame⟩]
  · rfl

/-- So does creating a group after looking for its name and its domain. -/
theorem Groups.outcome_new (hwf : w.tables.WellFormed) (req : GroupWrite) :
    outcome answer (Groups.create req) w =
      outcome answer (call (.createGroup req.name req.description
        (req.domainId.getD defaultDomainId))) w := by
  unfold Groups.create
  rw [outcome_ensureNameFree (·.groups.rows)
    (fun g => g.name = req.name ∧ g.domainId = req.domainId.getD defaultDomainId) rfl rfl
      (hwf.groupNames.named _ _)]
  split
  · rename_i hother
    obtain ⟨g, hg, htaken⟩ := List.any_eq_true.1 hother
    have hsame := of_decide_eq_true (of_decide_eq_true htaken).2
    rw [outcome_apply (m := createGroup w.now _ _ _) rfl, createGroup_taken ⟨g, hg, hsame⟩]
  · rw [outcome_find_bind (f := (·.domain _)) rfl rfl]
    split
    · rename_i hmissing
      -- a group with the name would have the domain
      have hfree : ¬ w.tables.groups.any fun g =>
          g.name = req.name ∧ g.domainId = req.domainId.getD defaultDomainId := by
        intro htaken
        obtain ⟨g, hg, hsame⟩ := Table.any_iff.1 htaken
        have hparent := hwf.groups g hg
        rw [(of_decide_eq_true hsame).2] at hparent
        simp [hparent] at hmissing
      rw [outcome_apply (m := createGroup w.now _ _ _) rfl, apply_createGroup, if_neg hfree,
        if_pos hmissing]
    · rfl

end Outcomes

/-! ## Operations -/

section Decided

variable {w : World}

theorem decided_domain (hwf : w.tables.WellFormed) {req : DomainWrite} (hid : req.id = 0) :
    (Operation.writeDomain req).Decided w := by
  have houtcome : outcome answer (Operation.writeDomain req).rule w = _ :=
    (Domains.outcome_new hwf hid).trans (outcome_apply (m := createDomain w.now _ _ _) rfl)
  rw [apply_createDomain] at houtcome
  unfold Operation.Decided
  dsimp only [Operation.refusal?, domainRefusal?]
  by_cases htaken : w.tables.domains.any fun d => d.name = req.name ∧ d.systemId = req.systemId
  · rw [if_pos htaken] at houtcome ⊢
    exact houtcome
  rw [if_neg htaken] at houtcome ⊢
  by_cases hsystem : req.systemId ≠ defaultSystemId
  · rw [if_pos hsystem] at houtcome ⊢
    exact houtcome
  · rw [if_neg hsystem] at houtcome ⊢
    intro hdomains _
    exact ⟨_, _, houtcome, ⟨w.now, rfl⟩, hdomains.unused, rfl⟩

theorem decided_group (hwf : w.tables.WellFormed) (req : GroupWrite) :
    (Operation.createGroup req).Decided w := by
  have houtcome : outcome answer (Operation.createGroup req).rule w = _ :=
    (Groups.outcome_new hwf req).trans (outcome_apply (m := createGroup w.now _ _ _) rfl)
  rw [apply_createGroup] at houtcome
  unfold Operation.Decided
  dsimp only [Operation.refusal?, groupRefusal?]
  by_cases htaken : w.tables.groups.any fun g =>
      g.name = req.name ∧ g.domainId = req.domainId.getD defaultDomainId
  · rw [if_pos htaken] at houtcome ⊢
    exact houtcome
  rw [if_neg htaken] at houtcome ⊢
  by_cases hmissing : !w.tables.domains.contains (req.domainId.getD defaultDomainId)
  · rw [if_pos hmissing] at houtcome ⊢
    exact houtcome
  · rw [if_neg hmissing] at houtcome ⊢
    intro _ hgroups
    exact ⟨_, _, houtcome, ⟨w.now, rfl⟩, hgroups.unused, rfl⟩

theorem decided_application (req : NewApplication) :
    (Operation.createApplication req).Decided w := by
  unfold Operation.Decided
  dsimp only [Operation.refusal?, applicationRefusal?]
  by_cases hid : req.id ≤ 0
  · rw [if_pos hid]
    exact Applications.outcome_create_refused req hid
  have houtcome : outcome answer (Operation.createApplication req).rule w =
      match outcome answer (call (.createApplication req)) w with
      | (.ok app, w') => (.ok ⟨app, []⟩, w')
      | (.error f, w') => (.error f, w') := by
    show outcome answer (Applications.create req) w = _
    unfold Applications.create
    rw [if_neg hid]
    dsimp only
    rw [outcome_bind]
    rcases outcome answer (call (.createApplication req)) w with ⟨_ | app, w'⟩ <;> rfl
  rw [outcome_apply (m := createApplication w.now req) rfl, apply_createApplication] at houtcome
  rw [if_neg hid]
  by_cases hused : w.tables.applications.contains req.id
  · rw [if_pos hused] at houtcome ⊢
    exact houtcome
  rw [if_neg hused] at houtcome ⊢
  by_cases htaken : w.tables.applications.any fun a =>
      a.name = req.name ∧ a.applicationGroupId = req.applicationGroupId
  · rw [if_pos htaken] at houtcome ⊢
    exact houtcome
  rw [if_neg htaken] at houtcome ⊢
  by_cases hmissing : !w.tables.groups.contains req.applicationGroupId
  · rw [if_pos hmissing] at houtcome ⊢
    exact houtcome
  · rw [if_neg hmissing] at houtcome ⊢
    intro _ _
    exact ⟨_, _, houtcome, ⟨w.now, rfl⟩, hused, rfl⟩

theorem decided_nextApplication (hwf : w.tables.WellFormed)
    (hids : ∀ a ∈ w.tables.applications, 1 ≤ a.id) {req : NewApplication} (hid : req.id = 0) :
    (Operation.writeApplication req).Decided w := by
  have hsearch : outcome answer (Operation.writeApplication req).rule w = _ :=
    Applications.outcome_new hwf hids hid
  unfold Operation.Decided
  dsimp only [Operation.refusal?, nextApplicationRefusal?]
  by_cases htaken : w.tables.applications.any fun a =>
      a.name = req.name ∧ a.applicationGroupId = req.applicationGroupId
  · rw [if_pos htaken] at hsearch ⊢
    exact hsearch
  rw [if_neg htaken] at hsearch ⊢
  by_cases hmissing : !w.tables.groups.contains req.applicationGroupId
  · rw [if_pos hmissing] at hsearch ⊢
    exact hsearch
  rw [if_neg hmissing]
  have houtcome : outcome answer (Operation.writeApplication req).rule w = _ :=
    Applications.outcome_write_new req hwf hids hid (by simpa using hmissing)
      (by simpa [Table.any_iff] using htaken)
  by_cases hlast : w.tables.applications.contains Int32.maxValue
  · rw [if_pos hlast] at houtcome ⊢
    exact houtcome
  · rw [if_neg hlast] at houtcome ⊢
    intro _ _
    have hunused := nextApplicationId_unused (lt_max_of_not_contains hlast)
    exact ⟨_, _, houtcome, ⟨w.now, rfl⟩, hunused, rfl⟩

theorem Operation.decided (hwf : w.tables.WellFormed)
    (hids : ∀ a ∈ w.tables.applications, 1 ≤ a.id) {α : Type} {op : Operation α}
    {duplicate : Failure} (h : op.Creates duplicate) : op.Decided w := by
  cases h with
  | domain req hid => exact decided_domain hwf hid
  | group req => exact decided_group hwf req
  | application req => exact decided_application req
  | nextApplication req hid => exact decided_nextApplication hwf hids hid

end Decided

/-! ## Operations that are repeated -/

namespace Operation

variable {α : Type} {op : Operation α} {duplicate : Failure} {t t' later : Tables} {x : α}

theorem Creates.keeps (h : op.Creates duplicate) (hadds : op.Adds t x t') : op.Keeps t' x := by
  cases h with
  | domain | group | application | nextApplication =>
    obtain ⟨⟨now, rfl⟩, _, rfl⟩ := hadds
    exact ⟨_, Table.mem_insert.2 (.inl rfl), rfl, rfl, rfl⟩

/-- While the row is there, the reason that counts first is the row. -/
theorem Creates.refusal?_of_keeps (h : op.Creates duplicate) (hnone : op.refusal? t = none)
    (hadds : op.Adds t x t') (hkeeps : op.Keeps later x) : op.refusal? later = some duplicate := by
  cases h with
  | domain req hid =>
    obtain ⟨d, hd, _, hname, hsystem⟩ := hkeeps
    exact if_pos (Table.any_iff.2 ⟨d, hd, decide_eq_true ⟨hname, hsystem⟩⟩)
  | group req =>
    obtain ⟨g, hg, _, hname, hparent⟩ := hkeeps
    exact if_pos (Table.any_iff.2 ⟨g, hg, decide_eq_true ⟨hname, hparent⟩⟩)
  | application req =>
    obtain ⟨a, ha, hid, _, _⟩ := hkeeps
    obtain ⟨now, rfl⟩ := hadds.row
    have hpos : ¬ req.id ≤ 0 := by
      intro hle
      have hrefused : (Operation.createApplication req).refusal? t =
          some (.invalidArgument "application id must be positive") := if_pos hle
      rw [hrefused] at hnone
      cases hnone
    dsimp only [Operation.refusal?, applicationRefusal?]
    rw [if_neg hpos, if_pos (Table.contains_iff.2 ⟨a, ha, hid⟩)]
  | nextApplication req hid =>
    obtain ⟨a, ha, _, hname, hparent⟩ := hkeeps
    exact if_pos (Table.any_iff.2 ⟨a, ha, decide_eq_true ⟨hname, hparent⟩⟩)

end Operation

/-- One more than the greatest id. -/
theorem Tables.nextApplicationId_of_greatest {t : Tables} {a : Application}
    (ha : a ∈ t.applications) (hgreatest : ∀ b ∈ t.applications, b.id ≤ a.id) :
    t.nextApplicationId = a.id + 1 := by
  unfold nextApplicationId
  cases hlast : t.applications.last? with
  | none => exact absurd ha (Table.last?_eq_none hlast)
  | some last =>
    obtain ⟨hmem, hall⟩ := Table.last?_eq_some hlast
    have hid : a.id = last.id := by
      rcases hall a ha with rfl | hlt
      · rfl
      · exact absurd (hgreatest last hmem) (Int32.not_le.2 (Std.compare_eq_lt.1 hlt))
    rw [hid]

/-! ## Requests -/

/-- A request for the operation is refused: the operation fails, the client is told so, and nothing
has changed. -/
structure World.Refuses {α : Type} (w : World) (r : Http.Request) (kept : Option Http.Metrics)
    (op : Operation α) (f : Failure) : Prop where
  fails : outcome answer op.rule w = (.error f, w)
  served : w.serve r kept = (.ofFailure f, w)
  told : (w.serve r kept).1.Reports (.error f)

theorem World.refuses_of_fails {r : Http.Request} {α : Type} {op : Operation α}
    {view : α → Json.Value} {w : World} {f : Failure} (hasks : r.AsksFor op view)
    (h : outcome answer op.rule w = (.error f, w)) (kept : Option Http.Metrics) :
    w.Refuses r kept op f := by
  have hserved : w.serve r kept = (.ofFailure f, w) := by
    rw [serve_of_asksFor hasks, h]
    rfl
  exact ⟨h, hserved, hserved ▸ Http.Answer.reports_ofFailure f⟩

namespace Traffic

/-- Whoever has called and in whatever order, a request that creates a row is refused for the first
reason that there is, which its client is told, and then changes nothing; without a reason it
succeeds, and adds its row and nothing else under an id that no row has. When it is repeated,
whatever others have done in between, it is told that there is such a row as long as that is so. -/
theorem creates_exactly (now : Instant) (mint : Nat → String) (callers : List Caller)
    (turns : List Turn)
    (hcounters : ∀ p ∈ (receiving now mint callers).past turns,
      p.nextDomainId < Int32.maxValue ∧ p.nextGroupId < Int32.maxValue) :
    let w := ((receiving now mint callers).after turns).world
    ((∀ a, a ∉ w.tables.applications) → w.tables.nextApplicationId = 1) ∧
    (∀ a ∈ w.tables.applications, (∀ b ∈ w.tables.applications, b.id ≤ a.id) →
      a.id < Int32.maxValue → w.tables.nextApplicationId.toInt = a.id.toInt + 1) ∧
    ∀ (r : Http.Request) (kept : Option Http.Metrics) (α : Type) (op : Operation α)
      (view : α → Json.Value) (duplicate : Failure),
      r.AsksFor op view → op.Creates duplicate →
        match op.refusal? w.tables with
        | some f => w.Refuses r kept op f
        | none => ∃ x w', w.serve r kept = (.ok (view x), w') ∧
            w' = { w with tables := w'.tables } ∧ op.Done w x w' ∧
            op.Adds w.tables x w'.tables ∧ op.Keeps w'.tables x ∧
            ∀ (others : List Caller) (between : List Turn) (kept' : Option Http.Metrics),
              let v := ((Traffic.mk w' (others.map Caller.program)).after between).world
              op.Keeps v.tables x → v.Refuses r kept' op duplicate := by
  intro w
  have hwf : w.tables.WellFormed := wellFormed_receiving now mint callers turns
  have hlawful : w.tables.Lawful := lawful_receiving now mint callers turns
  have hids {t : Tables} (h : t.Lawful) : ∀ a ∈ t.applications, 1 ≤ a.id :=
    fun a ha => (h.applications a ha).2
  refine ⟨nextApplicationId_of_empty, ?_, ?_⟩
  · intro a ha hgreatest hmax
    rw [nextApplicationId_of_greatest ha hgreatest, toInt_add_one hmax]
  intro r kept α op view duplicate hasks hcreates
  have hdecided := op.decided hwf (hids hlawful) hcreates
  unfold Operation.Decided at hdecided
  split
  · rename_i f hf
    rw [hf] at hdecided
    exact World.refuses_of_fails hasks hdecided kept
  rename_i hnone
  rw [hnone] at hdecided
  obtain ⟨x, t', houtcome, hadds⟩ :=
    hdecided (start_domainsBelow fun p hp => (hcounters p hp).1)
      (start_groupsBelow fun p hp => (hcounters p hp).2)
  have hserve : w.serve r kept = (.ok (view x), { w with tables := t' }) := by
    rw [serve_of_asksFor hasks, houtcome]
    rfl
  have hdone := op.rule_writes w
  unfold Writes Ends at hdone
  rw [houtcome] at hdone
  refine ⟨x, { w with tables := t' }, hserve, rfl, hdone, hadds, hcreates.keeps hadds, ?_⟩
  intro others between kept' v hkeeps
  -- the tables are well-formed and lawful after the request, and after whatever others do then
  have hanswer : ((Http.answer kept r).run answer).run w =
      (.ok (view x), { w with tables := t' }) := (serve_eq w r kept).symm.trans hserve
  have hwf' := run_wellFormed (Http.answer kept r) hwf
  have hlawful' := run_lawful (Http.answer_lawful kept r) hlawful
  rw [hanswer] at hwf' hlawful'
  have hwfv : v.tables.WellFormed := keeps_wellFormed _ hwf' between
  have hlawfulv : v.tables.Lawful := after_lawful (lawful_programs others) hlawful' between
  have hdecidedv := op.decided hwfv (hids hlawfulv) hcreates
  unfold Operation.Decided at hdecidedv
  rw [hcreates.refusal?_of_keeps hnone hadds hkeeps] at hdecidedv
  exact World.refuses_of_fails hasks hdecidedv kept'

/-- The first domain is not in the way of one with another name; the second one is in the way of a
third. -/
theorem creates_second_domain :
    let s := receiving ⟨0, 0⟩ (fun _ => "")
      [.request (.post "/system/domain/create_update_domain" "\x7b\"name\":\"b\"\x7d") none]
    let w := (s.after (Turn.inOrder 1 2)).world
    (∀ p ∈ s.past (Turn.inOrder 1 2),
      p.nextDomainId < Int32.maxValue ∧ p.nextGroupId < Int32.maxValue) ∧
    ∃ d w', w.serve Contest.createA none = (.ok (Domain.toJson d), w') ∧ d.id = 2 ∧
      w'.serve Contest.createA none = (.ofFailure .domainDuplicateName, w') ∧
      (w'.serve Contest.createA none).1.Refuses 409 "ALREADY_EXISTS"
        "domain with the same name already exists" "DOMAIN_DUPLICATE_NAME" := by
  intro s w
  have hcounters : ∀ p ∈ s.past (Turn.inOrder 1 2),
      p.nextDomainId < Int32.maxValue ∧ p.nextGroupId < Int32.maxValue := by decide +kernel
  have hnext : w.tables.nextDomainId = 2 := by decide +kernel
  have hnone : (Operation.writeDomain ⟨0, "a", "", defaultSystemId⟩).refusal? w.tables = none := by
    decide +kernel
  obtain ⟨_, _, hcreates⟩ := creates_exactly _ _ _ _ hcounters
  have h := hcreates Contest.createA none _ _ _ _ Contest.entrantA.asks (.domain _ rfl)
  change match (Operation.writeDomain ⟨0, "a", "", defaultSystemId⟩).refusal? w.tables with
    | some f => _
    | none => _ at h
  rw [hnone] at h
  obtain ⟨d, w', hserve, _, _, hadds, hkeeps, hagain⟩ := h
  have hrefused := hagain [] [] none hkeeps
  refine ⟨hcounters, d, w', hserve, ?_, hrefused.served, hrefused.told⟩
  obtain ⟨now, rfl⟩ := hadds.row
  exact hnext

end Traffic

end AccessRegistry
