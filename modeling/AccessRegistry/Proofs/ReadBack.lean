import AccessRegistry.Proofs.Session
import AccessRegistry.Proofs.Authentication
import AccessRegistry.Proofs.Authorization

/-!
# AccessRegistry.Proofs.ReadBack

A write answers what the matching read returns right afterwards (`reads_written`). `Confirms` says
which read belongs to which write. The two are put together differently: a created application is
shown without tokens, an updated one with the tokens found under its id, and the permissions are
read inside the transaction. That the tables show the same is `Tables.Shows`; for a new application
it rests on the rule that no token waits for its id.
-/

namespace AccessRegistry

universe u

open AccessRegistry.Action World Tables

variable {w : World}

namespace Action

variable {C : Type → Type u} {σ α β : Type} {answer : (β : Type) → Effect C β → StateM σ β}
  {a : Action C α} {s s' : σ}

/-- What holds of every success holds of this one. -/
theorem Ends.ok {x : α} {Q : α → σ → Prop} {E : Failure → σ → Prop} (h : Ends answer a s Q E)
    (ho : outcome answer a s = (.ok x, s')) : Q x s' := by
  unfold Ends at h
  rw [ho] at h
  exact h

/-- Whatever an action begins with, what its end makes sure of holds. -/
theorem ends_of_end {k : α → Action C β} {Q : β → σ → Prop}
    (h : ∀ x s', Ends answer (k x) s' Q fun _ _ => True) :
    Ends answer (a >>= k) s Q fun _ _ => True := by
  rw [ends_bind]
  unfold Ends
  split
  · exact h _ _
  · trivial

end Action

/-! ## Single rows -/

/-- A list of one id finds one group. -/
theorem Groups.getByIdList_single {g : AppGroup} (h : g ∈ w.tables.groups) :
    outcome answer (Groups.getByIdList [g.id]) w = (.ok [g], w) := by
  apply outcome_eq_of_ends
  show Ends answer (call (.groupsByIds [g.id])) w _ _
  rw [ends_look (f := fun t => .ok (t.groupsWhere fun g' => [g.id].contains g'.id)) rfl]
  refine ⟨?_, rfl⟩
  rw [groupsWhere, Table.select_key h (by simp), newestFirst, List.mergeSort_singleton]

theorem Domains.getById_stored {d : Domain} (h : d ∈ w.tables.domains) :
    outcome answer (Domains.getById d.id) w = (.ok d, w) := by
  apply outcome_eq_of_ends
  show Ends answer (call (.domainById d.id)) w _ _
  rw [ends_look (f := (·.domain d.id)) rfl, domain, ← Domain.key_eq, Table.find?_of_mem h]
  exact ⟨rfl, rfl⟩

/-! ## Applications -/

/-- The application is in the tables, with just these tokens. -/
structure Tables.Shows (t : Tables) (out : ApplicationWithTokens) : Prop where
  app : t.applications.find? out.app.id = some out.app
  tokens : out.tokens = t.tokensWhere fun k => k.appId = out.app.id

/-- Any success of the rule is an application as the tables show it then. -/
abbrev World.Shown (w : World) (r : Rule ApplicationWithTokens) : Prop :=
  Ends answer r w (fun out w' => w'.tables.Shows out) fun _ _ => True

namespace Applications

theorem getById_outcome {out : ApplicationWithTokens} (h : w.tables.Shows out) :
    outcome answer (getById out.app.id) w = (.ok out, w) := by
  apply outcome_eq_of_ends
  rw [ends_getById, h.app]
  refine ⟨?_, rfl⟩
  rw [← h.tokens]

theorem getById_shown (id : Int32) : Shown w (getById id) := by
  rw [Shown, ends_getById]
  cases happ : w.tables.applications.find? id with
  | none => trivial
  | some app =>
    have hid : app.id = id := Table.key_of_find? happ
    exact ⟨by rw [hid, happ], rfl⟩

end Applications

theorem Looks.shown {α : Type} {r : Rule α} {k : α → Rule ApplicationWithTokens} (h : Looks r)
    (hk : ∀ x, Shown w (k x)) : Shown w (r >>= k) :=
  (ends_bind r k).2 (h.ends hk fun _ => trivial)

namespace Applications

theorem updated_shown {c : Port Application} {oldId newId : Int32} {name description : String}
    (hc : answerCall c =
      change fun now => Tables.updateApplication now oldId newId name description) :
    Shown w (call c >>= enrichOne) := by
  have hrun : (answerCall c).run w = ((Tables.updateApplication w.now oldId newId name
      description).apply w.tables).map id fun tables => { w with tables } := by
    rw [hc]
    rfl
  rw [Shown, ends_bind]
  refine (ends_atomic hrun (updateApplication_atomic _ _ _ _ _)).mono (fun app w' h => ?_)
    fun _ _ _ => trivial
  obtain ⟨_, _, _, _, _, rfl, htables⟩ := updateApplication_ok h
  refine (ends_enrichOne _).2 ⟨?_, rfl⟩
  rw [htables]
  split <;> exact Table.find?_of_mem (Table.mem_insert.2 (.inl rfl))

theorem update_shown (req : ApplicationUpdate) : Shown w (update req) := updated_shown rfl

/-- No token waits for an application that is not there. -/
theorem tokens_free {t : Tables} (hwf : t.WellFormed) {id : Int32}
    (hid : ¬ t.applications.contains id) : (t.tokensWhere fun k => k.appId = id) = [] := by
  refine List.eq_nil_iff_forall_not_mem.2 fun k hk => ?_
  obtain ⟨hk, howner⟩ := mem_tokensWhere.1 hk
  rw [decide_eq_true_eq] at howner
  exact hid (howner ▸ hwf.tokens k hk)

theorem create_shown (hwf : w.tables.WellFormed) (req : NewApplication) :
    Ends answer (create req) w (fun out w' => w'.tables.Shows out)
      fun _ w' => w'.tables.WellFormed := by
  unfold create
  split
  · exact hwf
  show Ends _ (_ >>= _) _ _ _
  rw [ends_bind]
  refine (ends_atomic rfl (createApplication_atomic _ _)).mono (fun app w' h => ?_) fun _ w' h => ?_
  · obtain ⟨hid, _, _, rfl, htables⟩ := createApplication_ok h
    refine ⟨?_, ?_⟩
    · rw [htables]
      exact Table.find?_of_mem (Table.mem_insert.2 (.inl rfl))
    · rw [htables]
      exact (tokens_free hwf hid).symm
  · rw [h.tables]
    exact hwf

theorem createUnderNextId_shown (hwf : w.tables.WellFormed) (req : NewApplication) (retries : Nat) :
    Shown w (createUnderNextId req retries) := by
  induction retries generalizing w with
  | zero =>
    refine Looks.shown (.call rfl) fun id => ?_
    exact (create_shown hwf _).mono (fun _ _ h => h) fun _ _ _ => trivial
  | succ retries ih =>
    refine Looks.shown (.call rfl) fun id => ?_
    rw [Shown, ends_bind, ends_attempt]
    refine (create_shown hwf _).mono (fun _ _ h => h) fun f w' hw' => ?_
    split
    · exact ih hw'
    · exact (ends_liftExcept _).2 trivial

theorem createUpdate_shown (hwf : w.tables.WellFormed) (req : NewApplication) :
    Shown w (createUpdate req) := by
  unfold createUpdate
  refine Looks.shown (looks_ensureNameFree rfl _ _ _) fun _ => ?_
  split
  · exact Looks.shown (.call rfl) fun _ => updated_shown rfl
  · exact Looks.shown (.call rfl) fun _ => createUnderNextId_shown hwf req _

end Applications

/-! ## Tokens -/

namespace Credentials

theorem create_shown (appId : Int32) (lifetime : Int64) : Shown w (create appId lifetime) := by
  unfold create
  split
  · trivial
  show Shown w (_ >>= _)
  refine ends_of_end fun _ _ => ends_of_end fun _ _ => ends_of_end fun _ _ => ?_
  exact ends_of_end fun _ _ => Applications.getById_shown appId

theorem revoke_shown (appId : Int32) (texts : List String) :
    Ends answer (revoke appId texts) w (fun out w' => w'.tables.Shows out.app)
      fun _ _ => True := by
  have hend (n : Nat) (w : World) : Ends answer
      (Applications.getById appId >>= fun app => pure (⟨app, n⟩ : RevokeOutcome)) w
      (fun out w' => w'.tables.Shows out.app) fun _ _ => True := by
    rw [ends_bind]
    exact Applications.getById_shown appId
  unfold revoke
  refine ends_of_end fun _ _ => ?_
  dsimp only
  split
  · exact ends_of_end hend
  · exact ends_of_end hend

theorem revokeByAppId_shown (appId : Int32) :
    Ends answer (revokeByAppId appId) w (fun out w' => w'.tables.Shows out.app)
      fun _ _ => True := by
  unfold revokeByAppId
  exact ends_of_end fun _ _ => ends_of_end fun _ _ => revoke_shown appId _

end Credentials

/-! ## Permissions -/

namespace Permissions

theorem getById_outcome {appId : Int32} (h : w.tables.applications.contains appId) :
    outcome answer (getById appId) w = (.ok (w.tables.accessListsFor appId), w) := by
  obtain ⟨app, happ⟩ := Option.isSome_iff_exists.1 h
  apply outcome_eq_of_ends
  unfold getById
  rw [ends_bind, ends_look (f := (·.application appId)) rfl, application, happ]
  exact ⟨rfl, rfl⟩

/-- The rows are read when all of them are written. -/
theorem replace_ends (req : SetListRequest) : Ends answerWork (replace req) w
    (fun rows w' => rows = w'.tables.accessListsFor req.appId) fun _ _ => True := by
  have hread (w : World) : Ends answerWork (call (.getByAppId req.appId)) w
      (fun rows w' => rows = w'.tables.accessListsFor req.appId) fun _ _ => True :=
    (ends_perform _).2 rfl
  unfold replace
  split
  · exact ends_of_end fun _ _ => ends_of_end fun _ _ => ends_of_end fun _ w => hread w
  · exact ends_of_end fun _ _ => ends_of_end fun _ w => hread w

theorem setList_shown (req : SetListRequest) : Ends answer (setList req) w
    (fun rows w' => w.tables.applications.contains req.appId ∧
      rows = w'.tables.accessListsFor req.appId) fun _ _ => True := by
  unfold setList
  rw [ends_bind, ends_look (f := (·.application req.appId)) rfl, application]
  cases happ : w.tables.applications.find? req.appId with
  | none => trivial
  | some app =>
    have hthere : w.tables.applications.contains req.appId := by rw [Table.contains, happ]; rfl
    refine (ends_transaction _).2 ((replace_ends req).mono (fun rows w' h => ⟨hthere, h⟩) ?_)
    exact fun _ _ _ => trivial

end Permissions

/-! ## What is read back -/

/-- A write, its answer, the read that belongs to it, and what that has to return. -/
inductive Confirms : {α β : Type} → Operation α → α → Operation β → β → Prop where
  | domain (req : DomainWrite) (d : Domain) : Confirms (.writeDomain req) d (.domainById d.id) d
  | createdGroup (req : GroupWrite) (g : AppGroup) :
      Confirms (.createGroup req) g (.groupsByIds [g.id]) [g]
  | updatedGroup (req : GroupWrite) (g : AppGroup) :
      Confirms (.updateGroup req) g (.groupsByIds [g.id]) [g]
  | createdApplication (req : NewApplication) (out : ApplicationWithTokens) :
      Confirms (.createApplication req) out (.applicationById out.app.id) out
  | writtenApplication (req : NewApplication) (out : ApplicationWithTokens) :
      Confirms (.writeApplication req) out (.applicationById out.app.id) out
  | updatedApplication (req : ApplicationUpdate) (out : ApplicationWithTokens) :
      Confirms (.updateApplication req) out (.applicationById out.app.id) out
  | createdToken (appId : Int32) (lifetime : Int64) (out : ApplicationWithTokens) :
      Confirms (.createToken appId lifetime) out (.applicationById out.app.id) out
  | revokedTokens (appId : Int32) (texts : List String) (out : RevokeOutcome) :
      Confirms (.revokeTokens appId texts) out (.applicationById out.app.app.id) out.app
  | revokedAllTokens (appId : Int32) (out : RevokeOutcome) :
      Confirms (.revokeAllTokens appId) out (.applicationById out.app.app.id) out.app
  | permissions (req : SetListRequest) (rows : List AccessList) :
      Confirms (.setPermissions req) rows (.permissionsOf req.appId) rows
  | permission (row : AccessList) (n : Nat) :
      Confirms (.setPermission row) n (.authorize row.appId row.method) row.value

/-! ### Rows that were written -/

section Written

variable {t t' : Tables} {now : Instant} {id parent : Int32} {name description : String}

theorem createDomain_mem {d : Domain}
    (h : (createDomain now name description parent).apply t = (.ok d, t')) : d ∈ t'.domains := by
  obtain ⟨_, _, _, rfl⟩ := createDomain_ok h
  exact Table.mem_insert.2 (.inl rfl)

theorem updateDomain_mem {d : Domain}
    (h : (updateDomain now id name description).apply t = (.ok d, t')) : d ∈ t'.domains := by
  obtain ⟨_, _, _, _, _, rfl⟩ := updateDomain_ok h
  exact Table.mem_insert.2 (.inl rfl)

theorem createGroup_mem {g : AppGroup}
    (h : (createGroup now name description parent).apply t = (.ok g, t')) : g ∈ t'.groups := by
  obtain ⟨_, _, _, rfl⟩ := createGroup_ok h
  exact Table.mem_insert.2 (.inl rfl)

theorem updateGroup_mem {g : AppGroup}
    (h : (updateGroup now id name description).apply t = (.ok g, t')) : g ∈ t'.groups := by
  obtain ⟨_, _, _, _, _, rfl⟩ := updateGroup_ok h
  exact Table.mem_insert.2 (.inl rfl)

end Written

theorem Tables.Shows.at {t : Tables} {out : ApplicationWithTokens} (h : t.Shows out) {w : World}
    (hw : w.tables = t) : outcome answer (Applications.getById out.app.id) w = (.ok out, w) := by
  subst hw
  exact Applications.getById_outcome h

/-- What a write answers is read at any later time, if nothing else is written. -/
theorem Confirms.reads {α β : Type} {op : Operation α} {x : α} {read : Operation β} {y : β}
    (h : Confirms op x read y) {w w' : World} (hwf : w.tables.WellFormed)
    (ho : outcome answer op.rule w = (.ok x, w')) (later : Instant) :
    outcome answer read.rule { w' with now := later } = (.ok y, { w' with now := later }) := by
  have hdone : op.Done w x w' := (op.rule_writes w).ok ho
  cases h with
  | domain req d =>
    refine Domains.getById_stored (w := { w' with now := later }) ?_
    simp only [Operation.Done] at hdone
    split at hdone
    · exact createDomain_mem hdone
    · exact updateDomain_mem hdone
  | createdGroup req g =>
    exact Groups.getByIdList_single (w := { w' with now := later }) (createGroup_mem hdone)
  | updatedGroup req g =>
    exact Groups.getByIdList_single (w := { w' with now := later }) (updateGroup_mem hdone)
  | createdApplication req out => exact ((Applications.create_shown hwf req).ok ho).at rfl
  | writtenApplication req out => exact ((Applications.createUpdate_shown hwf req).ok ho).at rfl
  | updatedApplication req out => exact ((Applications.update_shown req).ok ho).at rfl
  | createdToken appId lifetime out =>
    exact ((Credentials.create_shown appId lifetime).ok ho).at rfl
  | revokedTokens appId texts out => exact ((Credentials.revoke_shown appId texts).ok ho).at rfl
  | revokedAllTokens appId out => exact ((Credentials.revokeByAppId_shown appId).ok ho).at rfl
  | permissions req rows =>
    obtain ⟨hthere, rfl⟩ := (Permissions.setList_shown req).ok ho
    refine Permissions.getById_outcome (w := { w' with now := later }) ?_
    show w'.tables.applications.contains req.appId
    rw [hdone]
    exact hthere
  | permission row n =>
    obtain ⟨_, htables⟩ := upsertAccessList_ok hdone
    have hrow : w'.tables.accessLists.find? ⟨row.appId, row.method⟩ = some row := by
      rw [htables]
      exact Table.find?_of_mem (Table.mem_insert.2 (.inl rfl))
    show outcome answer (Permissions.authorize row.appId row.method) _ = _
    rw [Permissions.authorize_outcome, Tables.ledger_permissions]
    dsimp only
    rw [hrow]
    rfl

namespace ReadBack

/-- A request that replaces the permissions of application 1. -/
def replacing : Http.Request where
  method := "POST"
  target := "/system/access_list/set_list"
  contentType := some "application/json"
  body := Json.Source.ofString
    "\x7b\"appId\":1,\"removeOld\":true,\"methods\":[\x7b\"method\":\"m\",\"value\":false\x7d]\x7d"

/-- A request for the permissions of application 1. -/
def reading : Http.Request where
  method := "POST"
  target := "/system/access_list/get_by_id"
  contentType := some "application/json"
  body := Json.Source.ofString "\x7b\"id\":1\x7d"

theorem readBody_replacing :
    Http.Endpoint.readBody Http.Body.setList replacing = .ok ⟨1, true, [⟨"m", false⟩]⟩ := by
  have hfields : (Http.Endpoint.readBody Http.Body.setList replacing).toOption.map
      (fun req => (req.appId, req.removeOld, req.methods.map fun m => (m.method, m.value))) =
      some (1, true, [("m", false)]) := by decide +kernel
  cases hread : Http.Endpoint.readBody Http.Body.setList replacing with
  | error message =>
    rw [hread] at hfields
    cases hfields
  | ok req =>
    obtain ⟨appId, removeOld, methods⟩ := req
    rw [hread] at hfields
    obtain ⟨rfl, rfl, hmethods⟩ : appId = 1 ∧ removeOld = true ∧
      methods.map (fun m => (m.method, m.value)) = [("m", false)] := by
        simpa [Except.toOption] using hfields
    obtain ⟨⟨method, value⟩, rfl, hm⟩ := List.map_eq_singleton_iff.1 hmethods
    obtain ⟨rfl, rfl⟩ := Prod.mk.inj hm
    rfl

theorem asks_replacing : replacing.AsksFor (.setPermissions ⟨1, true, [⟨"m", false⟩]⟩)
    (Http.View.list Http.View.methodEntry) :=
  Http.asksFor_of_readBody rfl rfl readBody_replacing

theorem asks_reading :
    reading.AsksFor (.permissionsOf 1) (Http.View.list Http.View.methodEntry) := by
  have hread : Http.Endpoint.readBody Http.Body.id reading = .ok 1 := by decide +kernel
  exact Http.asksFor_of_readBody rfl rfl hread

end ReadBack

/-- A request that writes and is answered with success is told what the matching read returns right
afterwards, at any later time, both to the rule and to a request for it. -/
theorem reads_written (now : Instant) (mint : Nat → String) (visits : List Visit) (time : Instant)
    (r : Http.Request) (kept : Option Http.Metrics) {α : Type} (op : Operation α)
    (view : α → Json.Value) (hasks : r.AsksFor op view) :
    let served := serve { (fresh now mint).session visits with now := time } r kept
    served.1.status = 200 → ∃ x, served.1 = .ok (view x) ∧
      ∀ {β : Type} (read : Operation β) (y : β), Confirms op x read y → ∀ later : Instant,
        let w := { served.2 with now := later }
        outcome answer read.rule w = (.ok y, w) ∧
        ∀ (r' : Http.Request) (kept' : Option Http.Metrics) (view' : β → Json.Value),
          r'.AsksFor read view' → serve w r' kept' = (.ok (view' y), w) := by
  intro served hstatus
  have hwf : ((fresh now mint).session visits).tables.WellFormed :=
    session_wellFormed Tables.wellFormed_empty visits
  have hserved := serve_of_asksFor hasks { (fresh now mint).session visits with now := time } kept
  cases ho : outcome answer op.rule { (fresh now mint).session visits with now := time } with
  | mk result w' =>
    rw [ho] at hserved
    have hanswer : served.1 = .ofResult (result.map view) := congrArg Prod.fst hserved
    rw [hanswer, Http.Answer.status_ofResult] at hstatus
    cases result with
    | error f =>
      obtain ⟨_, hstatus⟩ := hstatus
      cases hstatus
    | ok x =>
      refine ⟨x, hanswer, fun read y hconfirms later => ?_⟩
      have hread := hconfirms.reads (w := { (fresh now mint).session visits with now := time })
        hwf ho later
      have hworld : served.2 = w' := congrArg Prod.snd hserved
      rw [hworld]
      refine ⟨hread, fun r' kept' view' hasks' => ?_⟩
      rw [serve_of_asksFor hasks', hread]
      rfl

/-- The administrator's permissions are replaced and read. -/
theorem reads_setList :
    let w := (fresh ⟨0, 0⟩ fun _ => "").session [.provision "root" ⟨0, 0⟩]
    let served := serve { w with now := ⟨1, 0⟩ } ReadBack.replacing none
    served.1.status = 200 ∧
      (serve { served.2 with now := ⟨2, 0⟩ } ReadBack.reading none).1 = served.1 := by
  intro w served
  have hstatus : served.1.status = 200 := by decide +kernel
  obtain ⟨rows, hrows, hread⟩ := reads_written ⟨0, 0⟩ (fun _ => "") [.provision "root" ⟨0, 0⟩]
    ⟨1, 0⟩ ReadBack.replacing none _ _ ReadBack.asks_replacing hstatus
  obtain ⟨_, hagain⟩ := hread _ _ (.permissions _ rows) ⟨2, 0⟩
  refine ⟨hstatus, ?_⟩
  rw [hagain ReadBack.reading none _ ReadBack.asks_reading]
  exact hrows.symm

end AccessRegistry
