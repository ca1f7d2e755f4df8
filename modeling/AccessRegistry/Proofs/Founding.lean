import AccessRegistry.Proofs.Authentication
import AccessRegistry.Proofs.Authorization
import AccessRegistry.Proofs.Creation
import AccessRegistry.Proofs.Serial

/-!
# AccessRegistry.Proofs.Founding

Setting up a registry: five rows that are linked to each other are added, or nothing at all
(`provisions_once`).

* `Provisioning.verdict` — how it ends, read off the tables.
* `Founding`             — the five rows; `Founding.AddedTo` says that some tables have them more.
* `Program.Comes`        — what some work comes to whatever the time is at each of its requests, so
  that it is known both for a run that has the storage for itself and for one of many at the gate.

Only the first of several runs finds the token missing; every later one finds the token that the
first has stored, and writes nothing (`replay_runs`).
-/

namespace AccessRegistry

open AccessRegistry.Action World Tables

/-! ## Work at any time -/

namespace Program

variable {u : UseCase} {ρ : Type} {Q : ρ → Tables → Prop} {t : Tables}
  {p : Program (Effect (Capability u)) ρ}

def Comes : Program (Effect (Capability u)) ρ → Tables → (ρ → Tables → Prop) → Prop
  | .done r, t, Q => Q r t
  | .ask e next, t, Q => ∀ w : World, w.tables = t →
    (next ((answerWork _ e).run w).1).Comes ((answerWork _ e).run w).2.tables Q

theorem Comes.mono {Q' : ρ → Tables → Prop} (h : p.Comes t Q) (hQ : ∀ r t', Q r t' → Q' r t') :
    p.Comes t Q' := by
  induction p generalizing t with
  | done r => exact hQ r t h
  | ask e next ih => exact fun w hw => ih _ (h w hw)

theorem Comes.run {w : World} (h : p.Comes w.tables Q) :
    Q ((p.run answerWork).run w).1 ((p.run answerWork).run w).2.tables := by
  induction p generalizing w with
  | done r => exact h
  | ask e next ih => exact ih _ (h w rfl)

/-- The end that the work comes to step by step, with a moment of its own for every request. -/
theorem Comes.moments {moments : List Gate.Moment} {r : ρ} {copy : Tables} (h : p.Comes t Q)
    (hend : moments.foldl Gate.workStep (p, t) = (.done r, copy)) : Q r copy := by
  induction moments generalizing p t with
  | nil =>
    cases hend
    exact h
  | cons m moments ih =>
    rw [List.foldl_cons] at hend
    cases p with
    | done r' => exact ih h hend
    | ask e next => exact ih (h (m.world t) rfl) hend

end Program

namespace Action

variable {u : UseCase} {α β : Type} {Q : Except Failure β → Tables → Prop} {t : Tables}

theorem answerWork_call (c : Capability u α) (w : World) :
    (answerWork _ (.call c)).run w = (((perform w.now c).apply w.tables).1,
      { w with tables := ((perform w.now c).apply w.tables).2 }) := rfl

/-- A statement that succeeds at any time. -/
theorem comes_call_ok {c : Capability u α} {k : α → Work u β} {x : Instant → α}
    {after : Instant → Tables} (hc : ∀ now, (perform now c).apply t = (.ok (x now), after now))
    (h : ∀ now, (program (k (x now))).Comes (after now) Q) :
    (program (call c >>= k)).Comes t Q := by
  rw [program_call_bind]
  rintro w rfl
  rw [answerWork_call, hc]
  exact h w.now

/-- A statement that is refused at any time. -/
theorem comes_call_error {c : Capability u α} {k : α → Work u β} {f : Failure} {t' : Tables}
    (hc : ∀ now, (perform now c).apply t = (.error f, t')) (h : Q (.error f) t') :
    (program (call c >>= k)).Comes t Q := by
  rw [program_call_bind]
  rintro w rfl
  rw [answerWork_call, hc]
  exact h

theorem comes_attempt_call {c : Capability u α} {k : Except Failure α → Work u β}
    {r : Except Failure α} (hc : ∀ now, (perform now c).apply t = (r, t))
    (h : (program (k r)).Comes t Q) : (program ((call c).attempt >>= k)).Comes t Q := by
  rintro w rfl
  rw [answerWork_call, hc]
  exact h

theorem comes_now {k : Instant → Work u β} (h : ∀ now, (program (k now)).Comes t Q) :
    (program (Action.now >>= k)).Comes t Q := by
  rintro w rfl
  exact h w.now

end Action

/-! ## The five rows -/

/-- The tables have this row more, and no other. -/
def Table.Gains {ρ κ : Type} [Keyed ρ κ] (t : Table ρ) (r : ρ) (t' : Table ρ) : Prop :=
  r ∉ t ∧ ∀ s, s ∈ t' ↔ s = r ∨ s ∈ t

theorem Table.gains_insert {ρ κ : Type} [Keyed ρ κ] {t : Table ρ} {r : ρ}
    (h : ¬ t.contains (Keyed.key r)) : t.Gains r (t.insert r) := by
  exact ⟨fun hr => h (contains_of_mem hr), fun s => mem_insert_new h⟩

/-- What setting up a registry adds. -/
structure Founding where
  domain : Domain
  group : AppGroup
  app : Application
  token : Token
  permission : AccessList

namespace Founding

/-- The rows are what they should be, with this token, and belong together. -/
structure IsFor (f : Founding) (text : String) : Prop where
  domain : f.domain.name = Provisioning.rootDomainName ∧ f.domain.description = "" ∧
    f.domain.systemId = defaultSystemId
  group : f.group.name = Provisioning.rootGroupName ∧ f.group.description = "" ∧
    f.group.domainId = f.domain.id
  app : f.app.id = Provisioning.adminAppId ∧ f.app.name = Provisioning.adminAppName ∧
    f.app.description = "" ∧ f.app.type = .system ∧ f.app.applicationGroupId = f.group.id
  token : f.token.token = text ∧ f.token.appId = f.app.id ∧ f.token.expireTime = neverExpires
  permission : f.permission = ⟨f.app.id, Provisioning.adminLoginMethod, true⟩

/-- The second tables have the five rows more than the first ones, and differ in nothing else but
the next ids. -/
structure AddedTo (f : Founding) (t t' : Tables) : Prop where
  domains : t.domains.Gains f.domain t'.domains
  groups : t.groups.Gains f.group t'.groups
  applications : t.applications.Gains f.app t'.applications
  tokens : t.tokens.Gains f.token t'.tokens
  accessLists : t.accessLists.Gains f.permission t'.accessLists
  domainId : f.domain.id = t.nextDomainId ∧ t'.nextDomainId = t.nextDomainId + 1
  groupId : f.group.id = t.nextGroupId ∧ t'.nextGroupId = t.nextGroupId + 1

variable {f : Founding} {t t' : Tables} {text : String}

theorem AddedTo.contains_token (hf : f.IsFor text) (h : f.AddedTo t t') :
    t'.tokens.contains text := by
  have hmem : f.token ∈ t'.tokens := (h.tokens.2 _).2 (.inl rfl)
  rw [← hf.token.1]
  exact Table.contains_of_mem hmem

/-- The token stands for the administrator. -/
theorem AddedTo.authData? (hf : f.IsFor text) (h : f.AddedTo t t') :
    t'.authData? text = some ⟨Provisioning.adminAppId, Provisioning.adminAppName, f.group.id,
      f.domain.id, defaultSystemId, neverExpires, f.token.createdAt⟩ := by
  obtain ⟨_, _, hsystem⟩ := hf.domain
  obtain ⟨_, _, hdomain⟩ := hf.group
  obtain ⟨hid, hname, _, _, hgroup⟩ := hf.app
  obtain ⟨htext, howner, hlifetime⟩ := hf.token
  rw [authData?_of_find
    (Table.find?_eq_some_iff.2 ⟨(h.tokens.2 f.token).2 (.inl rfl), htext⟩)
    (Table.find?_eq_some_iff.2 ⟨(h.applications.2 f.app).2 (.inl rfl), howner.symm⟩)
    (Table.find?_eq_some_iff.2 ⟨(h.groups.2 f.group).2 (.inl rfl), hgroup.symm⟩)
    (Table.find?_eq_some_iff.2 ⟨(h.domains.2 f.domain).2 (.inl rfl), hdomain.symm⟩),
    hid, hname, hsystem, hlifetime]

/-- Whenever the token is presented, it is accepted as the administrator's. -/
theorem AddedTo.authenticates (hf : f.IsFor text) (h : f.AddedTo t t') {w : World}
    (hw : w.tables = t') : ∃ d : AuthData, d.appId = Provisioning.adminAppId ∧
      (outcome answer (Credentials.authenticate text) w).1 = .ok (.authenticated d) := by
  refine ⟨⟨Provisioning.adminAppId, Provisioning.adminAppName, f.group.id, f.domain.id,
    defaultSystemId, neverExpires, f.token.createdAt⟩, rfl, ?_⟩
  rw [Credentials.authenticate_outcome, hw, h.authData? hf]
  rfl

/-- The administrator may log in. -/
theorem AddedTo.authorizes (hf : f.IsFor text) (h : f.AddedTo t t') {w : World}
    (hw : w.tables = t') : (outcome answer (Permissions.authorize Provisioning.adminAppId
      Provisioning.adminLoginMethod) w).1 = .ok true := by
  have hrow := hf.permission
  rw [hf.app.1] at hrow
  have hfind : t'.accessLists.find? ⟨Provisioning.adminAppId, Provisioning.adminLoginMethod⟩ =
      some f.permission :=
    Table.find?_eq_some_iff.2 ⟨(h.accessLists.2 _).2 (.inl rfl), by rw [hrow]; rfl⟩
  rw [Permissions.authorize_outcome, hw, Tables.ledger_permissions, hfind, hrow]
  rfl

end Founding

/-! ## One run -/

namespace Provisioning

variable {t : Tables} {token : String}

/-- How setting up with this token ends, and why it may be refused. -/
def verdict (t : Tables) (token : String) : Except Failure BaselineOutcome :=
  if token.isEmpty then .ok .disabled
  else if t.tokens.contains token then .ok .skippedTokenPresent
  else if t.domains.any fun d => d.name = rootDomainName ∧ d.systemId = defaultSystemId then
    .error .domainDuplicateName
  else if t.applications.contains adminAppId then .error .applicationDuplicateId
  else .ok .provisioned

/-- The end that `verdict` says, with the five rows more if it is success, and the same tables if
there was nothing to do. What a failure leaves behind is not said; it is dropped. -/
structure Settled (t : Tables) (token : String) (r : Except Failure BaselineOutcome)
    (t' : Tables) : Prop where
  result : r = verdict t token
  idle : r.toBool → r ≠ .ok .provisioned → t' = t
  founded : r = .ok .provisioned → ∃ f : Founding, f.IsFor token ∧ f.AddedTo t t'

/-- An application that is not there has no permissions. -/
theorem permission_free (hwf : t.WellFormed) {appId : Int32}
    (hid : ¬ t.applications.contains appId) (method : String) :
    ¬ t.accessLists.contains ⟨appId, method⟩ := by
  intro hused
  obtain ⟨row, hrow, hkey⟩ := Table.contains_iff.1 hused
  have howner := hwf.permissions row hrow
  rw [(PermissionKey.mk.inj hkey).1] at howner
  exact hid howner

theorem createAll_comes (hwf : t.WellFormed) (hdomains : t.DomainsBelow) (hgroups : t.GroupsBelow)
    (hempty : token.isEmpty = false) (htoken : ¬ t.tokens.contains token) :
    (program (createAll token)).Comes t (Settled t token) := by
  have hverdict : verdict t token =
      if t.domains.any fun d => d.name = rootDomainName ∧ d.systemId = defaultSystemId then
        .error .domainDuplicateName
      else if t.applications.contains adminAppId then .error .applicationDuplicateId
      else .ok .provisioned := by
    rw [verdict, hempty, if_neg Bool.false_ne_true, if_neg htoken]
  unfold createAll
  by_cases hname : t.domains.any fun d => d.name = rootDomainName ∧ d.systemId = defaultSystemId
  case pos =>
    rw [if_pos hname] at hverdict
    exact comes_call_error (fun _ => (apply_createDomain ..).trans (if_pos hname))
      ⟨hverdict.symm, nofun, nofun⟩
  rw [if_neg hname] at hverdict
  refine comes_call_ok (fun _ =>
    (apply_createDomain ..).trans ((if_neg hname).trans (if_neg (by decide)))) fun now₁ => ?_
  have hthere {found : Bool} (h : found = true) : ¬ (!found) = true := by simp [h]
  -- no group belongs to a domain that was not there
  have hgroupFree : ¬ t.groups.any fun g =>
      g.name = rootGroupName ∧ g.domainId = t.nextDomainId := by
    simp only [Table.any_iff, decide_eq_true_eq, not_exists, not_and]
    rintro g hg _ heq
    exact hdomains.unused (heq ▸ hwf.groups g hg)
  refine comes_call_ok (fun _ => (apply_createGroup ..).trans ((if_neg hgroupFree).trans
    (if_neg (hthere Table.contains_insert_self)))) fun now₂ => ?_
  by_cases hid : t.applications.contains adminAppId
  case pos =>
    rw [if_pos hid] at hverdict
    exact comes_call_error (fun _ => (apply_createApplication ..).trans (if_pos hid))
      ⟨hverdict.symm, nofun, nofun⟩
  rw [if_neg hid] at hverdict
  -- and no application belongs to a group that was not there
  have happFree : ¬ t.applications.any fun a =>
      a.name = adminAppName ∧ a.applicationGroupId = t.nextGroupId := by
    simp only [Table.any_iff, decide_eq_true_eq, not_exists, not_and]
    rintro a ha _ heq
    exact hgroups.unused (heq ▸ hwf.applications a ha)
  refine comes_call_ok (fun _ => (apply_createApplication ..).trans ((if_neg hid).trans
    ((if_neg happFree).trans (if_neg (hthere Table.contains_insert_self)))))
    fun now₃ => ?_
  refine comes_now fun now₄ => ?_
  refine comes_call_ok (fun _ => (apply_saveToken ..).trans ((if_neg htoken).trans
    (if_neg (hthere Table.contains_insert_self)))) fun _ => ?_
  refine comes_call_ok (fun _ => (apply_upsertAccessList ..).trans
    (if_neg (hthere Table.contains_insert_self))) fun _ => ?_
  let f : Founding :=
    { domain := ⟨t.nextDomainId, rootDomainName, "", defaultSystemId, now₁, now₁⟩
      group := ⟨t.nextGroupId, rootGroupName, "", t.nextDomainId, now₂, now₂⟩
      app := ⟨adminAppId, adminAppName, "", t.nextGroupId, .system, now₃, now₃⟩
      token := ⟨token, adminAppId, neverExpires, now₄⟩
      permission := ⟨adminAppId, adminLoginMethod, true⟩ }
  refine ⟨hverdict.symm, fun _ hne => absurd rfl hne, fun _ => ⟨f, ?_, ?_⟩⟩
  · exact ⟨⟨rfl, rfl, rfl⟩, ⟨rfl, rfl, rfl⟩, ⟨rfl, rfl, rfl, rfl, rfl⟩, ⟨rfl, rfl, rfl⟩, rfl⟩
  · exact {
      domains := Table.gains_insert hdomains.unused
      groups := Table.gains_insert hgroups.unused
      applications := Table.gains_insert hid
      tokens := Table.gains_insert htoken
      accessLists := Table.gains_insert (permission_free hwf hid _)
      domainId := ⟨rfl, rfl⟩
      groupId := ⟨rfl, rfl⟩ }

theorem getToken_apply (now : Instant) (text : String) :
    (perform now (.getToken text)).apply t = (t.token text, t) := by
  rw [perform, Change.apply_get_bind, Change.apply_liftExcept]

/-- Whoever finds the token writes nothing. -/
theorem work_comes_stored (htoken : t.tokens.contains token) :
    (program (work token)).Comes t fun r t' => r = .ok .skippedTokenPresent ∧ t' = t := by
  obtain ⟨k, hk⟩ := Option.isSome_iff_exists.1 htoken
  unfold work
  refine comes_call_ok (fun _ => rfl) fun _ => ?_
  refine comes_attempt_call (fun now => getToken_apply now token) ?_
  rw [Tables.token, hk]
  exact ⟨rfl, rfl⟩

theorem work_comes (hwf : t.WellFormed) (hdomains : t.DomainsBelow) (hgroups : t.GroupsBelow)
    (hempty : token.isEmpty = false) : (program (work token)).Comes t (Settled t token) := by
  by_cases htoken : t.tokens.contains token
  · refine (work_comes_stored htoken).mono fun r t' h => ?_
    obtain ⟨rfl, rfl⟩ := h
    refine ⟨?_, fun _ _ => rfl, nofun⟩
    rw [verdict, hempty, if_neg Bool.false_ne_true, if_pos htoken]
  · have hnone : t.tokens.find? token = none := Option.not_isSome_iff_eq_none.1 htoken
    unfold work
    refine comes_call_ok (fun _ => rfl) fun _ => ?_
    refine comes_attempt_call (fun now => getToken_apply now token) ?_
    rw [Tables.token, hnone]
    exact createAll_comes hwf hdomains hgroups hempty htoken

/-- The storage keeps what the work leaves behind only if it succeeds. -/
theorem run_comes {w : World} {Q : Except Failure BaselineOutcome → Tables → Prop}
    (hempty : token.isEmpty = false) (h : (program (work token)).Comes w.tables Q) :
    ∃ copy, Q (outcome answer (run token) w).1 copy ∧
      (outcome answer (run token) w).2.tables =
        if (outcome answer (run token) w).1.toBool then copy else w.tables := by
  have hrun : outcome answer (run token) w =
      ((outcome answerWork (work token) w).1,
        { (outcome answerWork (work token) w).2 with
          tables := if (outcome answerWork (work token) w).1.toBool then
            (outcome answerWork (work token) w).2.tables else w.tables }) := by
    rw [run, hempty]
    rfl
  rw [hrun]
  exact ⟨_, h.run, rfl⟩

theorem run_stored {w : World} (hempty : token.isEmpty = false)
    (htoken : w.tables.tokens.contains token) :
    (outcome answer (run token) w).1 = .ok .skippedTokenPresent ∧
      (outcome answer (run token) w).2.tables = w.tables := by
  obtain ⟨copy, ⟨hresult, rfl⟩, htables⟩ := run_comes hempty (work_comes_stored htoken)
  exact ⟨hresult, htables.trans (ite_self _)⟩

theorem run_settled {w : World} (hwf : w.tables.WellFormed) (hdomains : w.tables.DomainsBelow)
    (hgroups : w.tables.GroupsBelow) (token : String) :
    Settled w.tables token (outcome answer (run token) w).1
      (outcome answer (run token) w).2.tables ∧
    ((outcome answer (run token) w).1 ≠ .ok .provisioned →
      (outcome answer (run token) w).2.tables = w.tables) := by
  cases hempty : token.isEmpty with
  | true =>
    have hrun : outcome answer (run token) w = (.ok .disabled, w) := by
      rw [run, hempty]
      rfl
    have hverdict : verdict w.tables token = .ok .disabled := by
      rw [verdict, hempty]
      rfl
    rw [hrun]
    exact ⟨⟨hverdict.symm, fun _ _ => rfl, nofun⟩, fun _ => rfl⟩
  | false =>
    obtain ⟨copy, hwork, htables⟩ := run_comes hempty (work_comes hwf hdomains hgroups hempty)
    rw [htables]
    cases hr : (outcome answer (run token) w).1 with
    | error f =>
      rw [hr] at hwork
      exact ⟨⟨hwork.result, nofun, nofun⟩, fun _ => rfl⟩
    | ok o =>
      rw [hr] at hwork
      exact ⟨hwork, hwork.idle rfl⟩

/-! ## Many runs -/

/-- A run with a token that is not empty, as a client of the storage. -/
abbrev client (token : String) : Gate.Client := ⟨.transaction .baseline (work token)⟩

/-- Many runs with the same token. -/
abbrev clients (token : String) : Nat → Gate.Client := fun _ => client token

section Gate

open Gate (Moment Entry alone replay Served workStep)

theorem alone_comes {u : UseCase} {α : Type} {work : Work u α} {moments : List Moment}
    {Q : Except Failure α → Tables → Prop} {r : Except Failure α} {t' : Tables}
    (h : (program work).Comes t Q)
    (halone : alone (.transaction u work) moments t = some (r, t')) :
    ∃ copy, Q r copy ∧ t' = if r.toBool then copy else t := by
  simp only [alone] at halone
  split at halone
  · rename_i r' copy hend
    cases halone
    exact ⟨copy, h.moments hend, rfl⟩
  · cases halone

/-- A run alone, once the token is stored. -/
theorem alone_stored {i : Nat} {moments : List Moment} {r : Except Failure (clients token i).γ}
    {t' : Tables} (htoken : t.tokens.contains token)
    (halone : alone (clients token i).call moments t = some (r, t')) :
    r = .ok BaselineOutcome.skippedTokenPresent ∧ t' = t := by
  obtain ⟨copy, ⟨rfl, rfl⟩, rfl⟩ := alone_comes (work_comes_stored htoken) halone
  exact ⟨rfl, rfl⟩

/-- The first write of a log is made alone. -/
theorem replay_cons {e : Entry} {log : List Entry} {t' : Tables}
    (h : replay (clients token) (e :: log) t = some t') :
    ∃ x t₁, alone (clients token e.client).call e.moments t = some (.ok x, t₁) ∧
      replay (clients token) log t₁ = some t' := by
  rw [replay, List.foldlM_cons, Option.bind_eq_bind, Option.bind_eq_some_iff] at h
  obtain ⟨t₁, hfirst, hrest⟩ := h
  split at hfirst
  · rename_i x t₂ halone
    cases hfirst
    exact ⟨x, t₁, halone, hrest⟩
  · cases hfirst

/-- Once the token is stored, no run writes anything. -/
theorem replay_stored {log : List Entry} {t' : Tables} (htoken : t.tokens.contains token)
    (h : replay (clients token) log t = some t') : t' = t := by
  induction log with
  | nil =>
    cases h
    rfl
  | cons e log ih =>
    obtain ⟨x, t₁, halone, hrest⟩ := replay_cons h
    obtain ⟨_, rfl⟩ := alone_stored htoken halone
    exact ih hrest

/-- These tables are well-formed, new ids are new, and a registry can be set up in them. -/
structure Vacant (t : Tables) (token : String) : Prop where
  wellFormed : t.WellFormed
  domains : t.DomainsBelow
  groups : t.GroupsBelow
  verdict : verdict t token = .ok .provisioned

theorem Vacant.isEmpty (h : Vacant t token) : token.isEmpty = false := by
  cases hempty : token.isEmpty with
  | false => rfl
  | true =>
    have hverdict := h.verdict
    rw [Provisioning.verdict, hempty] at hverdict
    cases hverdict

/-- A run alone, in tables that are vacant. -/
theorem Vacant.alone (h : Vacant t token) {i : Nat} {moments : List Moment}
    {r : Except Failure (clients token i).γ} {t' : Tables}
    (halone : alone (clients token i).call moments t = some (r, t')) :
    r = .ok BaselineOutcome.provisioned ∧ ∃ f : Founding, f.IsFor token ∧ f.AddedTo t t' := by
  obtain ⟨copy, hsettled, rfl⟩ :=
    alone_comes (work_comes h.wellFormed h.domains h.groups h.isEmpty) halone
  have hr : r = .ok BaselineOutcome.provisioned := hsettled.result.trans h.verdict
  subst hr
  exact ⟨rfl, hsettled.founded rfl⟩

/-- The first write of a log sets up the registry, and no other one changes anything. -/
theorem Vacant.replay (h : Vacant t token) {e : Entry} {log : List Entry} {t' : Tables}
    (hreplay : replay (clients token) (e :: log) t = some t') :
    ∃ f : Founding, f.IsFor token ∧ f.AddedTo t t' := by
  obtain ⟨x, t₁, halone, hrest⟩ := replay_cons hreplay
  obtain ⟨_, f, hf, hadded⟩ := h.alone halone
  rw [replay_stored (hadded.contains_token hf) hrest]
  exact ⟨f, hf, hadded⟩

/-- Every answer belongs to a write of the log, and the first of them is another one than all
others. -/
theorem Vacant.served (h : Vacant t token) {log : List Entry} (honce : (log.map Entry.client).Nodup)
    {i : Nat} {r : Except Failure (clients token i).γ}
    (hserved : Served (clients token) t log i r) :
    ∃ e later, log = e :: later ∧ r = if i = e.client then .ok BaselineOutcome.provisioned
      else .ok BaselineOutcome.skippedTokenPresent := by
  obtain ⟨before, later, moments, t₁, t', rfl, hreplay, halone, hnext⟩ := hserved
  cases before with
  | nil =>
    cases hreplay
    obtain ⟨rfl, _⟩ := h.alone halone
    obtain ⟨later, rfl⟩ := List.head?_eq_some_iff.1 (hnext rfl rfl)
    exact ⟨_, later, rfl, (if_pos rfl).symm⟩
  | cons e before =>
    obtain ⟨f, hf, hadded⟩ := h.replay hreplay
    obtain ⟨rfl, _⟩ := alone_stored (hadded.contains_token hf) halone
    obtain ⟨later, rfl⟩ := List.head?_eq_some_iff.1 (hnext rfl rfl)
    refine ⟨e, _, rfl, (if_neg ?_).symm⟩
    rintro rfl
    simp at honce

theorem runs_agree (h : Vacant t token) (events : List Gate.Event) :
    let s := (Gate.State.start (clients token) t).after events
    ∀ i r, (s.stage i).answer? = some r →
      (∃ f : Founding, f.IsFor token ∧ f.AddedTo t s.tables) ∧
      ∃ k, (s.stage k).answer? = some (.ok BaselineOutcome.provisioned) ∧
        ∀ j r, (s.stage j).answer? = some r →
          r = if j = k then .ok BaselineOutcome.provisioned
            else .ok BaselineOutcome.skippedTokenPresent := by
  intro s i r hr
  obtain ⟨hs, ho⟩ := Gate.State.after_serial (Gate.State.serial_start (clients token) t)
    (Gate.State.inOrder_start (clients token) t) events
  have honce : (s.log.map Entry.client).Nodup := ho.order.nodup ho.once
  obtain ⟨e, later, hlog, _⟩ := h.served honce (hs.served i r hr)
  have hreplay : replay (clients token) (e :: later) t = some s.tables := hlog ▸ hs.replayed
  have hall : ∀ j r, (s.stage j).answer? = some r →
      r = if j = e.client then .ok BaselineOutcome.provisioned
        else .ok BaselineOutcome.skippedTokenPresent := by
    intro j r hr
    obtain ⟨e', later', hlog', hj⟩ := h.served honce (hs.served j r hr)
    rw [hlog] at hlog'
    cases hlog'
    exact hj
  have hmem : e.client ∈ s.writers := by
    rw [Gate.State.writers, hlog]
    exact List.mem_cons_self
  obtain ⟨_, x, hx⟩ := hs.writers e.client hmem
  have hwon := hall e.client _ hx
  rw [if_pos rfl] at hwon
  rw [hwon] at hx
  exact ⟨h.replay hreplay, e.client, hx, hall⟩

end Gate

/-- Setting up a registry is refused or skipped as `verdict` says, and then changes nothing, or it
adds the five rows. From then on the token is the administrator's, who may log in, and every other
run with it is skipped. Of several runs at once that start where the registry can be set up, just
one does it, whatever the order in which they take the gate. -/
theorem provisions_once (w : World) (token : String) (hwf : w.tables.WellFormed)
    (hdomains : w.tables.DomainsBelow) (hgroups : w.tables.GroupsBelow) :
    let after := (outcome answer (run token) w).2
    (outcome answer (run token) w).1 = verdict w.tables token ∧
    (verdict w.tables token ≠ .ok .provisioned → after.tables = w.tables) ∧
    (verdict w.tables token = .ok .provisioned →
      (∃ f : Founding, f.IsFor token ∧ f.AddedTo w.tables after.tables) ∧
      (∀ later : Instant,
        (∃ d : AuthData, d.appId = adminAppId ∧
          (outcome answer (Credentials.authenticate token) { after with now := later }).1 =
            .ok (.authenticated d)) ∧
        (outcome answer (Permissions.authorize adminAppId adminLoginMethod)
          { after with now := later }).1 = .ok true ∧
        (outcome answer (run token) { after with now := later }).1 = .ok .skippedTokenPresent ∧
        (outcome answer (run token) { after with now := later }).2.tables = after.tables) ∧
      ∀ events : List Gate.Event,
        let s := (Gate.State.start (clients token) w.tables).after events
        ∀ i r, (s.stage i).answer? = some r →
          (∃ f : Founding, f.IsFor token ∧ f.AddedTo w.tables s.tables) ∧
          ∃ k, (s.stage k).answer? = some (.ok BaselineOutcome.provisioned) ∧
            ∀ j r, (s.stage j).answer? = some r →
              r = if j = k then .ok BaselineOutcome.provisioned
                else .ok BaselineOutcome.skippedTokenPresent) := by
  intro after
  obtain ⟨hsettled, hidle⟩ := run_settled hwf hdomains hgroups token
  refine ⟨hsettled.result, fun hne => hidle (hsettled.result ▸ hne), fun hverdict => ?_⟩
  have hvacant : Vacant w.tables token := ⟨hwf, hdomains, hgroups, hverdict⟩
  obtain ⟨f, hf, hadded⟩ := hsettled.founded (hsettled.result.trans hverdict)
  refine ⟨⟨f, hf, hadded⟩, fun later => ⟨?_, ?_, ?_⟩, runs_agree hvacant⟩
  · exact hadded.authenticates hf rfl
  · exact hadded.authorizes hf rfl
  · exact run_stored hvacant.isEmpty (w := { after with now := later }) (hadded.contains_token hf)

/-- Two clients want the gate. The second one is let in when the first one has left. -/
def twoRuns : List Gate.Event :=
  let m : Gate.Moment := ⟨⟨0, 0⟩, ""⟩
  .enter 0 :: .enter 1 :: List.replicate 11 (.step 0 m) ++ .enter 1 :: List.replicate 5 (.step 1 m)

theorem twoRuns_empty :
    let s := (Gate.State.start (clients "root") .empty).after twoRuns
    (s.stage 0).answer? = some (.ok BaselineOutcome.provisioned) ∧
    (s.stage 1).answer? = some (.ok BaselineOutcome.skippedTokenPresent) ∧
    ∃ f : Founding, f.IsFor "root" ∧ f.AddedTo .empty s.tables := by
  intro s
  have hfirst : @Eq (Option (Except Failure BaselineOutcome)) (s.stage 0).answer?
    (some (.ok .provisioned)) := by decide +kernel
  have hsecond : @Eq (Option (Except Failure BaselineOutcome)) (s.stage 1).answer?
    (some (.ok .skippedTokenPresent)) := by decide +kernel
  have hverdict : verdict .empty "root" = .ok .provisioned := by decide +kernel
  obtain ⟨_, _, hfounded⟩ := provisions_once (.fresh ⟨0, 0⟩ fun _ => "") "root" wellFormed_empty
    domainsBelow_empty groupsBelow_empty
  obtain ⟨_, _, hruns⟩ := hfounded hverdict
  exact ⟨hfirst, hsecond, (hruns twoRuns 0 _ hfirst).1⟩

end Provisioning
end AccessRegistry
