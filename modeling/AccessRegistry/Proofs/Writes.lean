import AccessRegistry.Proofs.Outcome
import AccessRegistry.Rules.Credentials
import AccessRegistry.Rules.Permissions
import AccessRegistry.Rules.Provisioning

/-!
# AccessRegistry.Proofs.Writes

What every rule that writes does to the world when nothing else happens meanwhile: it succeeds and
has made one change to the tables, or it fails and has changed nothing. The statements name the
change, so that later proofs can forget the calls around it.
-/

namespace AccessRegistry

open AccessRegistry.Action World Tables Tables.Change

variable {w : World}

/-- A rule that ends with a write of which `Q` holds, or fails and leaves the tables alone. -/
abbrev World.Writes {α : Type} (w : World) (r : Rule α) (Q : α → World → Prop) : Prop :=
  Ends answer r w Q fun _ w' => Untouched w w'

/-- A transaction writes what its work leaves behind when it succeeds. -/
theorem World.writes_transaction {α : Type} {u : UseCase} {work : Work u α} {Q : α → World → Prop}
    (h : Ends answerWork work w Q fun _ _ => True) :
    Writes w (call (.transaction u work)) Q := by
  have hw := untouched_work (Action.program work) w
  rw [Writes, ends_transaction]
  unfold Ends outcome at *
  split
  · rename_i x w' ho
    rw [ho] at h
    exact h
  · rename_i f w' ho
    rw [ho] at hw
    exact hw

/-- Work whose statements together make one change. -/
def World.Makes {α : Type} {u : UseCase} (now : Instant) (work : Work u α) (m : Change α) : Prop :=
  ∀ w : World, w.now = now → Ends answerWork work w
    (fun x w' => m.apply w.tables = (.ok x, w'.tables) ∧ w' = { w with tables := w'.tables })
    fun _ _ => True

namespace World.Makes

variable {α β : Type} {u : UseCase} {now : Instant} {work : Work u α} {m : Change α}

theorem call (c : Capability u α) : Makes now (.call c) (perform now c) := by
  rintro w rfl
  rw [ends_perform]
  cases hm : (perform w.now c).apply w.tables with
  | mk r tables =>
    cases r with
    | ok x => exact ⟨rfl, rfl⟩
    | error f => trivial

theorem pure (x : α) : Makes now (pure x : Work u α) (pure x) := fun _ _ => ⟨rfl, rfl⟩

theorem now_bind {k : Instant → Work u α} (h : Makes now (k now) m) :
    Makes now (Action.now >>= k) m := by
  rintro w rfl
  rw [ends_bind, ends_answerWork_now]
  exact h w rfl

theorem bind {k : α → Work u β} {f : α → Change β} (h : Makes now work m)
    (hk : ∀ x, Makes now (k x) (f x)) : Makes now (work >>= k) (m >>= f) := by
  rintro w rfl
  rw [ends_bind]
  refine (h w rfl).mono (fun x w' hx => ?_) fun _ _ h => h
  obtain ⟨hx, hw'⟩ := hx
  have hnow : w'.now = w.now := hw' ▸ rfl
  refine (hk x w' hnow).mono (fun y w'' hy => ?_) fun _ _ h => h
  obtain ⟨hy, hw''⟩ := hy
  refine ⟨?_, ?_⟩
  · rw [Change.apply_bind, hx]
    exact hy
  · rw [hw'', hw']

end World.Makes

/-- A transaction that succeeds has made the change of its work. -/
theorem World.writes_change {α : Type} {u : UseCase} {work : Work u α} {m : Change α}
    (h : Makes w.now work m) :
    Writes w (call (.transaction u work)) fun x w' =>
      m.apply w.tables = (.ok x, w'.tables) ∧ w' = { w with tables := w'.tables } :=
  writes_transaction (h w rfl)

theorem Looks.writes {α β : Type} {r : Rule α} {k : α → Rule β} {Q : β → World → Prop}
    (h : Looks r) (hk : ∀ x, Writes w (k x) Q) : Writes w (r >>= k) Q :=
  (ends_bind r k).2 (h.ends hk fun _ => .refl w)

/-! ## Checks -/

theorem looks_requireIds (ids : List Int32) (what : String) :
    Looks (requireIds ids what : Rule Unit) := by
  unfold requireIds
  split
  · exact .throw _
  · exact .pure _

theorem looks_ensureNameFree {α : Type} {search : Port α} (h : search.writes = false)
    (id : Int32) (idOf : α → Int32) (duplicate : Failure) :
    Looks (ensureNameFree search id idOf duplicate) :=
  .bind (.attempt (.call h)) fun _ => .liftExcept _

/-! ## Domains and groups -/

theorem Domains.createUpdate_writes (req : DomainWrite) :
    Writes w (Domains.createUpdate req) fun d w' =>
      (if req.id = 0 then createDomain w.now req.name req.description req.systemId
        else updateDomain w.now req.id req.name req.description).apply w.tables =
        (.ok d, w'.tables) := by
  unfold Domains.createUpdate
  refine Looks.writes (looks_ensureNameFree rfl _ _ _) fun _ => ?_
  split
  · exact ends_atomic rfl (createDomain_atomic _ _ _ _)
  · refine Looks.writes (.call rfl) fun _ => ?_
    exact ends_atomic rfl (updateDomain_atomic _ _ _ _)

theorem Domains.delete_writes (ids : List Int32) :
    Writes w (Domains.delete ids) fun n w' =>
      (deleteDomains ids).apply w.tables = (.ok n, w'.tables) := by
  refine Looks.writes (looks_requireIds ids _) fun _ => ?_
  exact rfl

theorem Groups.create_writes (req : GroupWrite) :
    Writes w (Groups.create req) fun g w' =>
      (createGroup w.now req.name req.description (req.domainId.getD defaultDomainId)).apply
        w.tables = (.ok g, w'.tables) := by
  refine Looks.writes (looks_ensureNameFree rfl _ _ _) fun _ => ?_
  refine Looks.writes (.call rfl) fun _ => ?_
  exact ends_atomic rfl (createGroup_atomic _ _ _ _)

theorem Groups.update_writes (req : GroupWrite) :
    Writes w (Groups.update req) fun g w' =>
      (updateGroup w.now req.id req.name req.description).apply w.tables = (.ok g, w'.tables) := by
  unfold Groups.update
  split
  · exact .refl w
  · refine Looks.writes (.call rfl) fun _ => ?_
    refine Looks.writes (looks_ensureNameFree rfl _ _ _) fun _ => ?_
    exact ends_atomic rfl (updateGroup_atomic _ _ _ _)

theorem Groups.deleteList_writes (ids : List Int32) :
    Writes w (Groups.deleteList ids) fun n w' =>
      (deleteGroups ids).apply w.tables = (.ok n, w'.tables) := by
  refine Looks.writes (looks_requireIds ids _) fun _ => ?_
  exact rfl

/-! ## Applications -/

theorem Applications.ends_enrichOne (app : Application)
    {Q : ApplicationWithTokens → World → Prop} {E : Failure → World → Prop} :
    Ends answer (Applications.enrichOne app) w Q E ↔
      Q ⟨app, w.tables.tokensWhere fun k => k.appId = app.id⟩ w := Iff.rfl

/-- A change of one application whose tokens are then shown. -/
theorem Applications.enriched_writes {c : Port Application} {m : Tables.Change Application}
    (h : (answerCall c).run w = (m.apply w.tables).map id fun tables => { w with tables })
    (hatomic : m.Atomic) :
    Writes w (call c >>= enrichOne) fun out w' =>
      m.apply w.tables = (.ok out.app, w'.tables) := by
  rw [Writes, ends_bind]
  refine (ends_atomic h hatomic).mono (fun app w' happ => ?_) fun _ _ hw => hw
  exact (ends_enrichOne app).2 happ

theorem Applications.create_writes (req : NewApplication) :
    Writes w (Applications.create req) fun out w' =>
      (createApplication w.now req).apply w.tables = (.ok out.app, w'.tables) := by
  unfold Applications.create
  split
  · exact .refl w
  · show Ends _ (_ >>= _) _ _ _
    rw [ends_bind]
    exact (ends_atomic rfl (createApplication_atomic _ _)).mono (fun _ _ h => h) fun _ _ h => h

theorem Applications.update_writes (req : ApplicationUpdate) :
    Writes w (Applications.update req) fun out w' =>
      (updateApplication w.now req.oldId req.newId req.name req.description).apply w.tables =
        (.ok out.app, w'.tables) :=
  enriched_writes rfl (updateApplication_atomic _ _ _ _ _)

/-- The created application has the id of one of the attempts. -/
theorem Applications.createUnderNextId_writes (req : NewApplication) (retries : Nat) :
    Writes w (Applications.createUnderNextId req retries) fun out w' =>
      ∃ id,
        (createApplication w.now { req with id }).apply w.tables = (.ok out.app, w'.tables) := by
  induction retries generalizing w with
  | zero =>
    refine Looks.writes (.call rfl) fun id => ?_
    exact (create_writes _).mono (fun _ _ h => ⟨id, h⟩) fun _ _ h => h
  | succ retries ih =>
    refine Looks.writes (.call rfl) fun id => ?_
    rw [Writes, ends_bind, ends_attempt]
    refine (create_writes _).mono (fun _ _ h => ⟨id, h⟩) fun f w' hw => ?_
    split
    · obtain ⟨n, hn, rfl⟩ := hw
      exact (ih (w := { w with minted := n })).mono (fun _ _ h => h) fun _ _ h =>
        .trans ⟨n, hn, rfl⟩ h
    · exact (ends_liftExcept _).2 hw

theorem Applications.createUpdate_writes (req : NewApplication) :
    Writes w (Applications.createUpdate req) fun out w' =>
      if req.id = 0 then
        ∃ id, (createApplication w.now { req with id }).apply w.tables = (.ok out.app, w'.tables)
      else
        (updateApplication w.now req.id req.id req.name req.description).apply w.tables =
          (.ok out.app, w'.tables) := by
  unfold Applications.createUpdate
  refine Looks.writes (looks_ensureNameFree rfl _ _ _) fun _ => ?_
  by_cases hid : req.id = 0
  · simp only [hid, ne_eq, not_true_eq_false, if_false, if_true]
    refine Looks.writes (.call rfl) fun _ => ?_
    exact createUnderNextId_writes req _
  · simp only [hid, ne_eq, not_false_eq_true, if_false, if_true]
    refine Looks.writes (.call rfl) fun _ => ?_
    exact enriched_writes rfl (updateApplication_atomic _ _ _ _ _)

theorem Applications.delete_writes (ids : List Int32) :
    Writes w (Applications.delete ids) fun n w' =>
      (deleteApplications ids).apply w.tables = (.ok n, w'.tables) := by
  refine Looks.writes (looks_requireIds ids _) fun _ => ?_
  exact (writes_change (.call _)).mono (fun _ _ h => h.1) fun _ _ h => h

/-! ## Tokens -/

theorem Applications.ends_getById (id : Int32) {Q : ApplicationWithTokens → World → Prop}
    {E : Failure → World → Prop} :
    Ends answer (Applications.getById id) w Q E ↔
      match w.tables.applications.find? id with
      | some app => Q ⟨app, w.tables.tokensWhere fun k => k.appId = app.id⟩ w
      | none => E .applicationNotFound w := by
  unfold Applications.getById
  rw [ends_bind, ends_look (f := (·.application id)) rfl, application]
  cases w.tables.applications.find? id <;> rfl

theorem Credentials.issueOnce_writes (appId : Int32) (lifetime : Int64) :
    Writes w (Credentials.issueOnce appId lifetime) fun _ w' => w'.minted = w.minted + 1 ∧
      (saveToken ⟨w.mint w.minted, appId, lifetime, w.now⟩).apply w.tables =
        (.ok (), w'.tables) := by
  unfold Credentials.issueOnce
  rw [Writes, ends_bind, ends_answer_mint, ends_bind, ends_answer_now]
  refine (writes_change (.call _)).mono (fun _ w' h => ?_) fun _ _ h =>
    .trans ⟨w.minted + 1, Nat.le_succ _, rfl⟩ h
  obtain ⟨hsave, hw'⟩ := h
  exact ⟨congrArg World.minted hw', hsave⟩

/-- The stored token is the last one made. -/
theorem Credentials.issue_writes (appId : Int32) (lifetime : Int64) (retries : Nat) :
    Writes w (Credentials.issue appId lifetime retries) fun _ w' =>
      ∃ n, w.minted ≤ n ∧ w'.minted = n + 1 ∧
        (saveToken ⟨w.mint n, appId, lifetime, w.now⟩).apply w.tables = (.ok (), w'.tables) := by
  induction retries generalizing w with
  | zero =>
    exact (issueOnce_writes appId lifetime).mono (fun _ _ h => ⟨_, Nat.le_refl _, h⟩)
      fun _ _ h => h
  | succ retries ih =>
    unfold Credentials.issue
    rw [Writes, ends_bind, ends_attempt]
    refine (issueOnce_writes appId lifetime).mono (fun _ _ h => ?_) fun f w' hw => ?_
    · exact ⟨_, Nat.le_refl _, h⟩
    · split
      · obtain ⟨m, hm, rfl⟩ := hw
        refine (ih (w := { w with minted := m })).mono (fun _ _ h => ?_) fun _ _ h =>
          .trans ⟨m, hm, rfl⟩ h
        obtain ⟨n, hn, h⟩ := h
        exact ⟨n, Nat.le_trans hm hn, h⟩
      · exact (ends_liftExcept _).2 hw

theorem Credentials.create_writes (appId : Int32) (lifetime : Int64) :
    Writes w (Credentials.create appId lifetime) fun _ w' =>
      ∃ n, w.minted ≤ n ∧ w'.minted = n + 1 ∧
        (saveToken ⟨w.mint n, appId, lifetime, w.now⟩).apply w.tables = (.ok (), w'.tables) := by
  unfold Credentials.create
  split
  · exact .refl w
  · show Ends _ (_ >>= _) _ _ _
    refine Looks.writes (.call rfl) fun app => ?_
    refine Looks.writes (.call rfl) fun group => ?_
    refine Looks.writes (.call rfl) fun _ => ?_
    rw [Writes, ends_bind]
    refine (issue_writes appId lifetime _).mono (fun _ w' h => ?_) fun _ _ h => h
    -- the owner is there, or the token would have been refused
    obtain ⟨n, hn, hminted, hsave⟩ := h
    obtain ⟨_, howner, htables⟩ := saveToken_ok hsave
    obtain ⟨app, happ⟩ := Option.isSome_iff_exists.1 howner
    have hfound : w'.tables.applications.find? appId = some app := by rw [htables, happ]
    rw [Applications.ends_getById, hfound]
    exact ⟨n, hn, hminted, hsave⟩

/-- A rule that first looks for an application. -/
theorem writes_ofApplication {α : Type} (id : Int32) {k : Application → Rule α}
    {Q : α → World → Prop}
    (h : ∀ app, w.tables.applications.find? id = some app → Writes w (k app) Q) :
    Writes w (call (.applicationById id) >>= k) Q := by
  rw [Writes, ends_bind, ends_look (f := (·.application id)) rfl, application]
  cases happ : w.tables.applications.find? id with
  | none => exact .refl w
  | some app => exact h app happ

theorem Credentials.revoke_writes (appId : Int32) (texts : List String) :
    Writes w (Credentials.revoke appId texts) fun out w' =>
      (deleteTokens appId texts).apply w.tables = (.ok out.deleted, w'.tables) := by
  unfold Credentials.revoke
  refine writes_ofApplication appId fun app happ => ?_
  -- the application is still there when it is read for the answer
  have hend (n : Nat) (tables : Tables) (h : (deleteTokens appId texts).apply w.tables =
      (.ok n, tables)) : Ends answer
        (Applications.getById appId >>= fun app => pure (⟨app, n⟩ : RevokeOutcome))
        { w with tables }
        (fun out w' => (deleteTokens appId texts).apply w.tables = (.ok out.deleted, w'.tables))
        fun _ w' => Untouched w w' := by
    have happ' : tables.applications.find? appId = some app := by
      rw [apply_deleteTokens] at h
      cases h
      exact happ
    rw [ends_bind, Applications.ends_getById]
    dsimp only
    rw [happ']
    exact h
  by_cases hempty : texts.isEmpty
  · obtain rfl := List.isEmpty_iff.1 hempty
    exact hend 0 w.tables rfl
  · rw [if_neg hempty, Writes, ends_bind]
    refine (writes_change (.call _)).mono (fun n w' h => ?_) fun _ _ h => h
    rw [h.2]
    exact hend n w'.tables h.1

theorem Credentials.revokeByAppId_writes (appId : Int32) :
    Writes w (Credentials.revokeByAppId appId) fun out w' =>
      (deleteTokens appId
        ((w.tables.tokensWhere fun k => k.appId = appId).map Token.token)).apply w.tables =
        (.ok out.deleted, w'.tables) := by
  unfold Credentials.revokeByAppId
  refine Looks.writes (.call rfl) fun _ => ?_
  rw [Writes, ends_bind]
  exact revoke_writes appId _

/-! ## Permissions -/

theorem Permissions.setOne_writes (row : AccessList) :
    Writes w (Permissions.setOne row) fun n w' =>
      (upsertAccessList row).apply w.tables = (.ok n, w'.tables) := by
  refine Looks.writes (.call rfl) fun _ => ?_
  exact (writes_change (.call _)).mono (fun _ _ h => h.1) fun _ _ h => h

/-- The rows that a list of methods stands for. -/
def SetListRequest.rows (req : SetListRequest) : List AccessList :=
  req.methods.map fun m => ⟨req.appId, m.method, m.value⟩

theorem SetListRequest.mem_rows {req : SetListRequest} {l : AccessList} :
    l ∈ req.rows ↔ l.appId = req.appId ∧ ⟨l.method, l.value⟩ ∈ req.methods := by
  rw [rows, List.mem_map]
  constructor
  · rintro ⟨m, hm, rfl⟩
    exact ⟨rfl, hm⟩
  · rintro ⟨happ, hm⟩
    exact ⟨_, hm, by rw [← happ]⟩

/-- The permission is one of those that are set, with whatever value. -/
theorem SetListRequest.sets_iff {req : SetListRequest} {l : AccessList} :
    (∃ b ∈ req.rows, Keyed.key b = Keyed.key l) ↔
      l.appId = req.appId ∧ l.method ∈ req.methods.map MethodValue.method := by
  simp only [rows, List.mem_map, AccessList.key_eq, PermissionKey.mk.injEq]
  constructor
  · rintro ⟨_, ⟨m, hm, rfl⟩, happ, hmethod⟩
    exact ⟨happ.symm, m, hm, hmethod⟩
  · rintro ⟨happ, m, hm, hmethod⟩
    exact ⟨_, ⟨m, hm, rfl⟩, happ.symm, hmethod⟩

/-- The permissions that are left when the listed ones are to be set anew. -/
def SetListRequest.left (req : SetListRequest) (permissions : Table AccessList) :
    Table AccessList :=
  let kept :=
    if req.removeOld then permissions.filter fun a => !decide (a.appId = req.appId)
    else permissions
  kept.filter fun a =>
    !decide (a.appId = req.appId ∧ (req.methods.map MethodValue.method).contains a.method)

theorem Permissions.setList_writes (req : SetListRequest) :
    Writes w (Permissions.setList req) fun _ w' =>
      w'.tables = { w.tables with
        accessLists := (req.left w.tables.accessLists).insertAll req.rows } := by
  refine Looks.writes (.call rfl) fun _ => writes_transaction ?_
  -- what is written when `permissions` are left of the old ones
  have hinsert (permissions : Table AccessList) : Ends answerWork
      (do
        let _ ← Action.call (Capability.insertAll req.rows)
        Action.call (Capability.getByAppId req.appId))
      { w with tables := { w.tables with accessLists := permissions } }
      (fun _ w' => w'.tables = { w.tables with accessLists := permissions.insertAll req.rows })
      fun _ _ => True := by
    rw [ends_bind, ends_perform]
    split
    · rename_i h
      exact insertAccessLists_ok h
    · trivial
  unfold Permissions.replace SetListRequest.left
  split
  · exact (ends_bind _ _).2 ((ends_bind _ _).2 (hinsert _))
  · exact (ends_bind _ _).2 (hinsert _)

theorem Permissions.deleteList_writes (appId : Int32) (methods : List String) :
    Writes w (Permissions.deleteList appId methods) fun n w' =>
      (deleteAccessListMethods appId methods).apply w.tables = (.ok n, w'.tables) := by
  refine Looks.writes (.call rfl) fun _ => ?_
  split
  · rename_i hempty
    obtain rfl := List.isEmpty_iff.1 hempty
    have hkept : (w.tables.accessLists.filter fun a =>
        !decide (a.appId = appId ∧ ([] : List String).contains a.method)) = w.tables.accessLists :=
      Table.filter_eq_self fun a _ => by simp
    rw [Writes, ends_pure, deleteAccessListMethods, apply_deleteAccessListsWhere, hkept,
      Nat.sub_self]
  · rfl

/-! ## Provisioning -/

/-- The changes that set up a registry, one after another. -/
def Tables.provision (now : Instant) (token : String) : Change BaselineOutcome := do
  let domain ← createDomain now Provisioning.rootDomainName "" defaultSystemId
  let group ← createGroup now Provisioning.rootGroupName "" domain.id
  let app ← createApplication now
    ⟨Provisioning.adminAppId, Provisioning.adminAppName, "", group.id, .system⟩
  let _ ← saveToken ⟨token, app.id, neverExpires, now⟩
  let _ ← upsertAccessList ⟨app.id, Provisioning.adminLoginMethod, true⟩
  return .provisioned

theorem Provisioning.createAll_makes (now : Instant) (token : String) :
    Makes now (Provisioning.createAll token) (provision now token) := by
  refine .bind (.call _) fun domain => ?_
  refine .bind (.call _) fun group => ?_
  refine .bind (.call _) fun app => ?_
  refine .now_bind ?_
  refine .bind (.call _) fun _ => ?_
  refine .bind (.call _) fun _ => ?_
  exact .pure _

theorem Tables.provision_ok {t t' : Tables} {now : Instant} {token : String}
    {o : BaselineOutcome} (h : (provision now token).apply t = (.ok o, t')) : o = .provisioned := by
  unfold provision at h
  obtain ⟨domain, t₁, _, h⟩ := apply_bind_ok.1 h
  obtain ⟨group, t₂, _, h⟩ := apply_bind_ok.1 h
  obtain ⟨app, t₃, _, h⟩ := apply_bind_ok.1 h
  obtain ⟨_, t₄, _, h⟩ := apply_bind_ok.1 h
  obtain ⟨_, t₅, _, h⟩ := apply_bind_ok.1 h
  cases h
  rfl

/-- Setting up the registry creates everything or writes nothing. -/
theorem Provisioning.run_writes (token : String) :
    Writes w (Provisioning.run token) fun o w' =>
      if o = .provisioned then (provision w.now token).apply w.tables = (.ok o, w'.tables)
      else w'.tables = w.tables := by
  unfold Provisioning.run
  split
  · rfl
  refine writes_transaction ?_
  unfold Provisioning.work
  rw [ends_bind, ends_perform]
  show Ends answerWork ((Action.call (Capability.getToken token)).attempt >>= _) w _ _
  rw [ends_bind, ends_attempt, ends_perform]
  have hlook : (perform w.now (Capability.getToken token)).apply w.tables =
      (w.tables.token token, w.tables) := by
    rw [perform, apply_get_bind, apply_liftExcept]
  rw [hlook]
  cases w.tables.token token with
  | ok k => rfl
  | error f =>
    refine (ends_ite _ _ _).2 ?_
    split
    · refine (createAll_makes w.now token w rfl).mono (fun o w' h => ?_) fun _ _ h => h
      rw [if_pos (provision_ok h.1)]
      exact h.1
    · trivial

end AccessRegistry
