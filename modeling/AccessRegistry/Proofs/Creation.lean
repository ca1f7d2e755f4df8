import AccessRegistry.Proofs.Operation
import AccessRegistry.Proofs.Race

/-!
# AccessRegistry.Proofs.Creation

The operations that create a row, as contenders for its name. While the tables stay as they are, an
operation finds the name free and adds its row (`Operation.Adds`). Once somebody else has taken the
name, it is stopped by its search for the name, by the table, or first by an id that is taken as
well, after which it tries again; it fails with the same failure in any case (`Operation.Contends`).
-/

namespace AccessRegistry

open AccessRegistry.Action World Tables

/-! ## Calls in given tables -/

section Calls

variable {γ ρ α : Type} {c : Port γ} {t : Tables} {r : Except Failure γ} {n : Nat}
  {wins : ρ → Tables → Prop} {lost : Tables → Prop} {a loss : ρ}
  {next : Except Failure γ → Program (Effect Port) ρ}

/-- In these tables, whatever the time is, the call is answered like this and leaves them alone. -/
def Answers (c : Port γ) (t : Tables) (r : Except Failure γ) : Prop :=
  ∀ w : World, w.tables = t →
    ((answerCall c).run w).1 = r ∧ ((answerCall c).run w).2.tables = t

theorem answers_look (f : Tables → Except Failure γ) (hc : answerCall c = look f) (t : Tables) :
    Answers c t (f t) := by
  rintro w rfl
  rw [hc]
  exact ⟨rfl, rfl⟩

theorem answers_refused {m : Instant → Change γ} {f : Failure} (hc : answerCall c = change m)
    (h : ∀ now, (m now).apply t = (.error f, t)) : Answers c t (.error f) := by
  rintro w rfl
  rw [hc]
  exact ⟨congrArg Prod.fst (h w.now), congrArg Prod.snd (h w.now)⟩

theorem Answers.settles (h : Answers c t r) (hnext : Settles a t n (next r)) :
    Settles a t (n + 1) (.ask (.call c) next) := by
  intro w hw
  obtain ⟨hanswer, htables⟩ := h w hw
  exact ⟨htables, hanswer.symm ▸ hnext⟩

theorem Answers.contends (h : Answers c t r) (hnext : Contends wins lost loss t n (next r))
    (hlost : ∀ t', lost t' → Settles loss t' (n + 1) (.ask (.call c) next)) :
    Contends wins lost loss t (n + 1) (.ask (.call c) next) := by
  refine ⟨fun w hw => ?_, hlost⟩
  obtain ⟨hanswer, htables⟩ := h w hw
  exact .inl ⟨htables, hanswer.symm ▸ hnext⟩

/-- The write by which a client wins. -/
theorem contends_change {m : Instant → Change γ} (hc : answerCall c = change m)
    (hwins : ∀ now, ∃ x t' a, (m now).apply t = (.ok x, t') ∧ next (.ok x) = .done a ∧ wins a t')
    (hlost : ∀ t', lost t' → Settles loss t' (n + 1) (.ask (.call c) next)) :
    Contends wins lost loss t (n + 1) (.ask (.call c) next) := by
  refine ⟨fun w hw => .inr ?_, hlost⟩
  obtain ⟨x, t', a, happly, hdone, hwins⟩ := hwins w.now
  have hrun : (World.answer _ (.call c)).run w = (.ok x, { w with tables := t' }) := by
    show (answerCall c).run w = _
    rw [hc]
    show (((m w.now).apply w.tables).1, { w with tables := ((m w.now).apply w.tables).2 }) = _
    rw [hw, happly]
  rw [hrun]
  exact ⟨a, hdone, hwins⟩

end Calls

/-! ## Rules in given tables -/

section Rules

variable {γ α : Type} {c : Port γ} {t : Tables} {n : Nat} {f : Failure}
  {wins : Except Failure α → Tables → Prop} {lost : Tables → Prop} {k : γ → Rule α}

theorem program_ensureNameFree (search : Port γ) (id : Int32) (idOf : γ → Int32)
    (duplicate : Failure) (k : Unit → Rule α) :
    program (ensureNameFree search id idOf duplicate >>= k) = .ask (.call search) fun found =>
      match nameIsFree found id idOf duplicate with
      | .ok u => program (k u)
      | .error f => .done (.error f) := by
  show Program.ask _ _ = _
  congr
  funext found
  show ((program (liftExcept (nameIsFree found id idOf duplicate) : Rule Unit)).bind _) = _
  cases nameIsFree found id idOf duplicate <;> rfl

theorem settles_call_bind {x : γ} {a : Except Failure α} (h : Answers c t (.ok x))
    (hk : Settles a t n (program (k x))) : Settles a t (n + 1) (program (call c >>= k)) := by
  rw [program_call_bind]
  exact h.settles hk

theorem contends_call_bind {x : γ} {loss : Except Failure α} (h : Answers c t (.ok x))
    (hk : Contends wins lost loss t n (program (k x)))
    (hlost : ∀ t', lost t' → ∃ y, Answers c t' (.ok y) ∧ Settles loss t' n (program (k y))) :
    Contends wins lost loss t (n + 1) (program (call c >>= k)) := by
  rw [program_call_bind]
  refine h.contends hk fun t' ht => ?_
  obtain ⟨y, hy, hsettles⟩ := hlost t' ht
  exact hy.settles hsettles

/-- A search that finds a row or finds nothing. -/
def Searches (search : Port γ) (t : Tables) : Prop :=
  ∃ found, Answers search t found ∧ ∀ f, found = .error f → f.isNotFound

theorem searches_found {search : Port γ} {missing : Failure} (row : Tables → Option γ)
    (hm : missing.isNotFound) (hc : answerCall search = look fun t => found missing (row t))
    (t : Tables) : Searches search t := by
  refine ⟨_, answers_look _ hc t, fun f hf => ?_⟩
  cases hrow : row t with
  | none =>
    rw [hrow] at hf
    cases hf
    exact hm
  | some r =>
    rw [hrow] at hf
    cases hf

/-- Whether the search stops it or not, a rule that ends like this after it ends like this. -/
theorem settles_ensureNameFree {search : Port γ} {id : Int32} {idOf : γ → Int32} {k : Unit → Rule α}
    (h : Searches search t) (hk : Settles (.error f) t n (program (k ()))) :
    Settles (.error f) t (n + 1) (program (ensureNameFree search id idOf f >>= k)) := by
  obtain ⟨found, hfound, hmissing⟩ := h
  rw [program_ensureNameFree]
  refine hfound.settles ?_
  cases found with
  | ok row =>
    simp only [nameIsFree]
    by_cases hid : idOf row = id
    · rw [if_pos hid]
      exact hk
    · rw [if_neg hid]
      exact settles_done.2 rfl
  | error g =>
    simp only [nameIsFree, hmissing g rfl, if_true]
    exact hk

theorem contends_ensureNameFree {search : Port γ} {id : Int32} {idOf : γ → Int32}
    {k : Unit → Rule α} {g : Failure} (h : Answers search t (.error g)) (hg : g.isNotFound)
    (hsearch : ∀ t', Searches search t')
    (hk : Contends wins lost (.error f) t n (program (k ()))) :
    Contends wins lost (.error f) t (n + 1) (program (ensureNameFree search id idOf f >>= k)) := by
  have hlost : ∀ t', lost t' →
      Settles (.error f) t' (n + 1) (program (ensureNameFree search id idOf f >>= k)) :=
    fun t' ht => settles_ensureNameFree (hsearch t') (hk.settles ht)
  rw [program_ensureNameFree] at hlost ⊢
  refine h.contends ?_ hlost
  simp only [nameIsFree, hg, if_true]
  exact hk

end Rules

/-! ## Names that are free or taken -/

section Names

variable {t : Tables}

theorem searches_domainByName (name : String) (systemId : Int32) (t : Tables) :
    Searches (.domainByName name systemId) t :=
  searches_found (fun t => t.domains.rows.find? fun d => d.name = name ∧ d.systemId = systemId)
    rfl rfl t

theorem searches_groupByName (name : String) (domainId : Int32) (t : Tables) :
    Searches (.groupByName name domainId) t :=
  searches_found (fun t => t.groups.rows.find? fun g => g.name = name ∧ g.domainId = domainId)
    rfl rfl t

theorem searches_applicationByName (name : String) (groupId : Int32) (t : Tables) :
    Searches (.applicationByName name groupId) t :=
  searches_found
    (fun t => t.applications.rows.find? fun a => a.name = name ∧ a.applicationGroupId = groupId)
    rfl rfl t

theorem answers_free {γ κ : Type} [Keyed γ κ] {search : Port γ} {missing : Failure}
    (table : Tables → Table γ) (p : γ → Bool)
    (hc : answerCall search = look fun t => found missing ((table t).rows.find? p))
    (hfree : ∀ r ∈ table t, p r = false) : Answers search t (.error missing) := by
  have hnone : (table t).rows.find? p = none :=
    List.find?_eq_none.2 fun r hr => Bool.eq_false_iff.1 (hfree r hr)
  have h := answers_look _ hc t
  rw [hnone] at h
  exact h

theorem answers_domainById {id : Int32} (h : t.domains.contains id) :
    ∃ d, Answers (.domainById id) t (.ok d) := by
  obtain ⟨d, hd⟩ := Option.isSome_iff_exists.1 h
  have hlook := answers_look (c := .domainById id) (fun t => t.domain id) rfl t
  rw [domain, hd] at hlook
  exact ⟨d, hlook⟩

theorem answers_groupById {id : Int32} (h : t.groups.contains id) :
    ∃ g, Answers (.groupById id) t (.ok g) := by
  obtain ⟨g, hg⟩ := Option.isSome_iff_exists.1 h
  have hlook := answers_look (c := .groupById id) (fun t => t.group id) rfl t
  rw [group, hg] at hlook
  exact ⟨g, hlook⟩

theorem answers_nextApplicationId : Answers .nextApplicationId t (.ok t.nextApplicationId) :=
  answers_look (fun t => .ok t.nextApplicationId) rfl t

end Names

/-! ## Rows that are added -/

namespace Tables

variable {t t' : Tables}

/-- The tables have this domain more, under an id that no domain had. -/
structure AddsDomain (t : Tables) (req : DomainWrite) (domain : Domain) (t' : Tables) : Prop where
  row : ∃ now, domain = ⟨t.nextDomainId, req.name, req.description, req.systemId, now, now⟩
  fresh : ¬ t.domains.contains domain.id
  tables : t' = { t with nextDomainId := t.nextDomainId + 1, domains := t.domains.insert domain }

structure AddsGroup (t : Tables) (req : GroupWrite) (group : AppGroup) (t' : Tables) : Prop where
  row : ∃ now, group =
    ⟨t.nextGroupId, req.name, req.description, req.domainId.getD defaultDomainId, now, now⟩
  fresh : ¬ t.groups.contains group.id
  tables : t' = { t with nextGroupId := t.nextGroupId + 1, groups := t.groups.insert group }

/-- The tables have this application more; it has no tokens. -/
structure AddsApplication (t : Tables) (req : NewApplication) (out : ApplicationWithTokens)
    (t' : Tables) : Prop where
  row : ∃ now, out =
    ⟨⟨req.id, req.name, req.description, req.applicationGroupId, req.type, now, now⟩, []⟩
  fresh : ¬ t.applications.contains out.app.id
  tables : t' = { t with applications := t.applications.insert out.app }

theorem createDomain_taken {name : String} {systemId : Int32}
    (h : ∃ d ∈ t.domains, d.name = name ∧ d.systemId = systemId) (description : String)
    (now : Instant) :
    (createDomain now name description systemId).apply t = (.error .domainDuplicateName, t) := by
  rw [apply_createDomain, if_pos]
  simpa [Table.any_iff] using h

theorem createDomain_free {req : DomainWrite}
    (hfree : ∀ d ∈ t.domains, d.name = req.name → d.systemId ≠ req.systemId)
    (hsystem : req.systemId = defaultSystemId) (hbelow : t.DomainsBelow) (now : Instant) :
    ∃ domain t', (createDomain now req.name req.description req.systemId).apply t =
      (.ok domain, t') ∧ t.AddsDomain req domain t' := by
  refine ⟨_, _, ?_, ⟨now, rfl⟩, hbelow.unused, rfl⟩
  rw [apply_createDomain, if_neg, if_neg (not_not.2 hsystem)]
  simpa [Table.any_iff] using hfree

theorem createGroup_taken {name : String} {domainId : Int32}
    (h : ∃ g ∈ t.groups, g.name = name ∧ g.domainId = domainId) (description : String)
    (now : Instant) :
    (createGroup now name description domainId).apply t = (.error .appGroupDuplicateName, t) := by
  rw [apply_createGroup, if_pos]
  simpa [Table.any_iff] using h

theorem createGroup_free {req : GroupWrite}
    (hparent : t.domains.contains (req.domainId.getD defaultDomainId))
    (hfree : ∀ g ∈ t.groups, g.name = req.name →
      g.domainId ≠ req.domainId.getD defaultDomainId) (hbelow : t.GroupsBelow) (now : Instant) :
    ∃ group t', (createGroup now req.name req.description
      (req.domainId.getD defaultDomainId)).apply t = (.ok group, t') ∧
        t.AddsGroup req group t' := by
  refine ⟨_, _, ?_, ⟨now, rfl⟩, hbelow.unused, rfl⟩
  rw [apply_createGroup, if_neg, if_neg (by simpa using hparent)]
  simpa [Table.any_iff] using hfree

theorem createApplication_used {req : NewApplication} (h : t.applications.contains req.id)
    (now : Instant) :
    (createApplication now req).apply t = (.error .applicationDuplicateId, t) := by
  rw [apply_createApplication, if_pos h]

theorem createApplication_taken {req : NewApplication} (hid : ¬ t.applications.contains req.id)
    (h : ∃ a ∈ t.applications, a.name = req.name ∧ a.applicationGroupId = req.applicationGroupId)
    (now : Instant) :
    (createApplication now req).apply t = (.error .applicationDuplicateName, t) := by
  rw [apply_createApplication, if_neg hid, if_pos]
  simpa [Table.any_iff] using h

theorem createApplication_free (req : NewApplication) (hid : ¬ t.applications.contains req.id)
    (hparent : t.groups.contains req.applicationGroupId)
    (hfree : ∀ a ∈ t.applications, a.name = req.name →
      a.applicationGroupId ≠ req.applicationGroupId) (now : Instant) :
    ∃ app t', (createApplication now req).apply t = (.ok app, t') ∧
      t.AddsApplication req ⟨app, []⟩ t' := by
  refine ⟨_, _, ?_, ⟨now, rfl⟩, hid, rfl⟩
  rw [apply_createApplication, if_neg hid, if_neg, if_neg (by simpa using hparent)]
  simpa [Table.any_iff] using hfree

end Tables

/-- What an operation that creates a row does to tables when it succeeds. -/
def Operation.Adds {α : Type} (t : Tables) : Operation α → α → Tables → Prop
  | .writeDomain req, domain, t' => t.AddsDomain req domain t'
  | .createGroup req, group, t' => t.AddsGroup req group t'
  | .createApplication req, out, t' => t.AddsApplication req out t'
  | .writeApplication req, out, t' =>
    t.AddsApplication { req with id := t.nextApplicationId } out t'
  | _, _, _ => False

/-! ## Operations that create a row -/

/-- The operation ends with the row that it adds, unless the tables are lost before. -/
abbrev Operation.Contends {α : Type} (op : Operation α) (t : Tables) (lost : Tables → Prop)
    (duplicate : Failure) (n : Nat) : Prop :=
  AccessRegistry.Contends (fun r t' => ∃ x, r = .ok x ∧ op.Adds t x t') lost (.error duplicate) t n
    (program op.rule)

section Creates

variable {t : Tables} {lost : Tables → Prop}

theorem writeDomain_contends {req : DomainWrite} (hid : req.id = 0)
    (hsystem : req.systemId = defaultSystemId)
    (hfree : ∀ d ∈ t.domains, d.name = req.name → d.systemId ≠ req.systemId)
    (hbelow : t.DomainsBelow)
    (hlost : ∀ t', lost t' → ∃ d ∈ t'.domains, d.name = req.name ∧ d.systemId = req.systemId) :
    (Operation.writeDomain req).Contends t lost .domainDuplicateName 2 := by
  refine contends_ensureNameFree (answers_free Tables.domains _ rfl ?_) rfl
    (searches_domainByName _ _) ?_
  · simpa using hfree
  rw [if_pos hid]
  refine contends_change (m := fun now => createDomain now _ _ _) rfl (fun now => ?_)
    fun t' ht => ?_
  · obtain ⟨domain, t', happly, hadds⟩ := createDomain_free hfree hsystem hbelow now
    exact ⟨domain, t', _, happly, rfl, domain, rfl, hadds⟩
  · exact (answers_refused rfl (createDomain_taken (hlost t' ht) _)).settles (settles_done.2 rfl)

theorem createGroup_contends {req : GroupWrite}
    (hparent : t.domains.contains (req.domainId.getD defaultDomainId))
    (hfree : ∀ g ∈ t.groups, g.name = req.name → g.domainId ≠ req.domainId.getD defaultDomainId)
    (hbelow : t.GroupsBelow)
    (hlost : ∀ t', lost t' → t'.domains.contains (req.domainId.getD defaultDomainId) ∧
      ∃ g ∈ t'.groups, g.name = req.name ∧ g.domainId = req.domainId.getD defaultDomainId) :
    (Operation.createGroup req).Contends t lost .appGroupDuplicateName 3 := by
  have hcreate {t' : Tables} (ht : lost t') : Settles (Except.error .appGroupDuplicateName) t' 1
      (program (call (.createGroup req.name req.description
        (req.domainId.getD defaultDomainId)))) :=
    (answers_refused rfl (createGroup_taken (hlost t' ht).2 _)).settles (settles_done.2 rfl)
  refine contends_ensureNameFree (answers_free Tables.groups _ rfl ?_) rfl
    (searches_groupByName _ _) ?_
  · simpa using hfree
  obtain ⟨parent, hlook⟩ := answers_domainById hparent
  refine contends_call_bind hlook (contends_change (m := fun now => createGroup now _ _ _) rfl
    (fun now => ?_) fun _ ht => hcreate ht) ?_
  · obtain ⟨group, t', happly, hadds⟩ := createGroup_free hparent hfree hbelow now
    exact ⟨group, t', _, happly, rfl, group, rfl, hadds⟩
  · intro t' ht
    obtain ⟨parent, hlook⟩ := answers_domainById (hlost t' ht).1
    exact ⟨parent, hlook, hcreate ht⟩

theorem answers_createApplication_used (req : NewApplication)
    (h : t.applications.contains req.id) :
    Answers (.createApplication req) t (.error .applicationDuplicateId) :=
  answers_refused (m := fun now => createApplication now req) rfl (createApplication_used h)

theorem answers_createApplication_taken (req : NewApplication)
    (hid : ¬ t.applications.contains req.id)
    (h : ∃ a ∈ t.applications, a.name = req.name ∧
      a.applicationGroupId = req.applicationGroupId) :
    Answers (.createApplication req) t (.error .applicationDuplicateName) :=
  answers_refused (m := fun now => createApplication now req) rfl (createApplication_taken hid h)

/-- With a positive id, creating an application is one call. -/
theorem Applications.program_attempt_create {α : Type} (req : NewApplication) (hpos : 0 < req.id)
    (k : Except Failure ApplicationWithTokens → Rule α) :
    program ((Applications.create req).attempt >>= k) =
      .ask (.call (.createApplication req)) fun r => program (k (r.map fun app => ⟨app, []⟩)) := by
  unfold Applications.create
  rw [if_neg (Int32.not_le.2 hpos)]
  show Program.ask _ _ = _
  congr
  funext r
  cases r <;> rfl

theorem createApplication_contends {req : NewApplication} (hpos : 0 < req.id)
    (hid : ¬ t.applications.contains req.id) (hparent : t.groups.contains req.applicationGroupId)
    (hfree : ∀ a ∈ t.applications, a.name = req.name →
      a.applicationGroupId ≠ req.applicationGroupId)
    (hlost : ∀ t', lost t' → ¬ t'.applications.contains req.id ∧
      ∃ a ∈ t'.applications, a.name = req.name ∧ a.applicationGroupId = req.applicationGroupId) :
    (Operation.createApplication req).Contends t lost .applicationDuplicateName 1 := by
  show Contends _ _ _ _ _ (program (Applications.create req))
  unfold Applications.create
  rw [if_neg (Int32.not_le.2 hpos)]
  show Contends _ _ _ _ _ (program (call _ >>= _))
  rw [program_call_bind]
  refine contends_change (m := fun now => Tables.createApplication now _) rfl (fun now => ?_)
    fun t' ht => ?_
  · obtain ⟨app, t', happly, hadds⟩ := createApplication_free req hid hparent hfree now
    exact ⟨app, t', _, happly, rfl, _, rfl, hadds⟩
  · exact (answers_createApplication_taken req (hlost t' ht).1 (hlost t' ht).2).settles
      (settles_done.2 rfl)

/-- How `createUnderNextId` goes on after an attempt. -/
def Applications.orAgain (req : NewApplication) (retries : Nat) :
    Except Failure ApplicationWithTokens → Rule ApplicationWithTokens
  | .error .applicationDuplicateId => Applications.createUnderNextId req retries
  | result => liftExcept result

theorem Applications.createUnderNextId_succ (req : NewApplication) (retries : Nat) :
    Applications.createUnderNextId req (retries + 1) = (call .nextApplicationId >>= fun id =>
      (Applications.create { req with id }).attempt >>= Applications.orAgain req retries) := by
  rw [Applications.createUnderNextId]
  rfl

/-- Where the name is taken, the next id leads to the same end. -/
theorem Applications.createUnderNextId_settles {req : NewApplication}
    (hids : ∀ a ∈ t.applications, 0 < a.id ∧ a.id < Int32.maxValue)
    (htaken : ∃ a ∈ t.applications, a.name = req.name ∧
      a.applicationGroupId = req.applicationGroupId) (retries n : Nat) :
    Settles (.error .applicationDuplicateName) t (n + 2)
      (program (Applications.createUnderNextId req (retries + 1))) := by
  rw [Applications.createUnderNextId_succ]
  refine settles_call_bind answers_nextApplicationId ?_
  rw [Applications.program_attempt_create { req with id := t.nextApplicationId }
    (nextApplicationId_pos hids)]
  have hunused := nextApplicationId_unused fun a ha => (hids a ha).2
  exact (answers_createApplication_taken { req with id := t.nextApplicationId } hunused
    htaken).settles (settles_done.2 rfl)

theorem Applications.createUnderNextId_contends {req : NewApplication}
    (hids : ∀ a ∈ t.applications, 0 < a.id ∧ a.id < Int32.maxValue)
    (hparent : t.groups.contains req.applicationGroupId)
    (hfree : ∀ a ∈ t.applications, a.name = req.name →
      a.applicationGroupId ≠ req.applicationGroupId)
    (hlost : ∀ t', lost t' → t'.applications.contains t.nextApplicationId ∧
      (∀ a ∈ t'.applications, 0 < a.id ∧ a.id < Int32.maxValue) ∧
      ∃ a ∈ t'.applications, a.name = req.name ∧ a.applicationGroupId = req.applicationGroupId)
    (retries : Nat) :
    Contends
      (fun r t' => ∃ x, r = .ok x ∧ t.AddsApplication { req with id := t.nextApplicationId } x t')
      lost (.error .applicationDuplicateName) t 4
      (program (Applications.createUnderNextId req (retries + 2))) := by
  rw [Applications.createUnderNextId_succ]
  refine contends_call_bind answers_nextApplicationId ?_ fun t' ht => ?_
  · rw [Applications.program_attempt_create { req with id := t.nextApplicationId }
      (nextApplicationId_pos hids)]
    have hunused := nextApplicationId_unused fun a ha => (hids a ha).2
    refine contends_change (m := fun now => Tables.createApplication now _) rfl (fun now => ?_)
      fun t' ht => ?_
    · obtain ⟨app, t', happly, hadds⟩ :=
        createApplication_free { req with id := t.nextApplicationId } hunused hparent hfree now
      exact ⟨app, t', _, happly, rfl, _, rfl, hadds⟩
    · -- the winner took the id as well, so there is another attempt
      obtain ⟨hused, hids', htaken⟩ := hlost t' ht
      exact (answers_createApplication_used { req with id := t.nextApplicationId } hused).settles
        (Applications.createUnderNextId_settles hids' htaken retries 0)
  · -- lost before the next id is known
    obtain ⟨_, hids', htaken⟩ := hlost t' ht
    refine ⟨t'.nextApplicationId, answers_nextApplicationId, ?_⟩
    rw [Applications.program_attempt_create { req with id := t'.nextApplicationId }
      (nextApplicationId_pos hids')]
    have hunused := nextApplicationId_unused fun a ha => (hids' a ha).2
    exact (answers_createApplication_taken { req with id := t'.nextApplicationId } hunused
      htaken).settles (settles_done.2 rfl)

theorem writeApplication_contends {req : NewApplication} (hid : req.id = 0)
    (hids : ∀ a ∈ t.applications, 0 < a.id ∧ a.id < Int32.maxValue)
    (hparent : t.groups.contains req.applicationGroupId)
    (hfree : ∀ a ∈ t.applications, a.name = req.name →
      a.applicationGroupId ≠ req.applicationGroupId)
    (hlost : ∀ t', lost t' → t'.groups.contains req.applicationGroupId ∧
      t'.applications.contains t.nextApplicationId ∧
      (∀ a ∈ t'.applications, 0 < a.id ∧ a.id < Int32.maxValue) ∧
      ∃ a ∈ t'.applications, a.name = req.name ∧ a.applicationGroupId = req.applicationGroupId) :
    (Operation.writeApplication req).Contends t lost .applicationDuplicateName 6 := by
  refine contends_ensureNameFree (answers_free Tables.applications _ rfl ?_) rfl
    (searches_applicationByName _ _) ?_
  · simpa using hfree
  rw [if_neg (not_not.2 hid)]
  obtain ⟨parent, hlook⟩ := answers_groupById hparent
  have hcreate := Applications.createUnderNextId_contends hids hparent hfree
    (fun t' ht => (hlost t' ht).2) 0
  refine contends_call_bind hlook hcreate fun t' ht => ?_
  obtain ⟨parent, hlook⟩ := answers_groupById (hlost t' ht).1
  exact ⟨parent, hlook, hcreate.settles ht⟩

end Creates

end AccessRegistry
