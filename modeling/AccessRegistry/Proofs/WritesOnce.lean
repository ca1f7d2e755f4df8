import AccessRegistry.Proofs.Operation
import AccessRegistry.Proofs.Trial

/-!
# AccessRegistry.Proofs.WritesOnce

Every operation makes at most one write that takes effect, whatever its calls are answered.

* `OneWrite`               — the ways in which such an operation goes, in terms of its calls.
* `WritesOnce`             — that a rule goes so, with one rule for each way to build it. A failed
  attempt has written nothing, so it may be repeated.
* `Operation.Writes`       — the write that belongs to an operation.
* `Operation.Shows`        — the calls that look for its result afterwards.
* `Operation.rule_once`    — every operation goes so.
-/

namespace AccessRegistry

open AccessRegistry.Action World

/-! ## Writing once -/

/-- How an action goes that makes at most one write: it fails without it, it succeeds without it
because there is nothing to write, it succeeds with it, or the write took effect and the call that
looks for its result fails. -/
inductive OneWrite (write : Exchange Port → Prop) (rests : Prop) (shows : Exchange Port → Prop)
    {α : Type} : List (Exchange Port) → Except Failure α → Prop where
  | failed {calls : List (Exchange Port)} {f : Failure} (hcalls : Quiet calls) :
      OneWrite write rests shows calls (.error f)
  | rested {calls : List (Exchange Port)} {x : α} (hrests : rests) (hcalls : Quiet calls) :
      OneWrite write rests shows calls (.ok x)
  | wrote {before after : List (Exchange Port)} {e : Exchange Port} {x : α}
      (hbefore : Quiet before) (he : e.commits = true) (hwrite : write e) (hafter : Quiet after) :
      OneWrite write rests shows (before ++ e :: after) (.ok x)
  | unseen {before after : List (Exchange Port)} {e : Exchange Port} {γ : Type} {d : Port γ}
      {f : Failure} (hbefore : Quiet before) (he : e.commits = true) (hwrite : write e)
      (hafter : Quiet after) (hshows : shows ⟨d, .error f⟩) :
      OneWrite write rests shows (before ++ e :: (after ++ [⟨d, .error f⟩])) (.error f)

/-- No call looks for the result of the write. -/
def Unshown : Exchange Port → Prop := fun _ => False

namespace OneWrite

variable {write : Exchange Port → Prop} {rests : Prop} {shows : Exchange Port → Prop}
  {α β : Type}

/-- Looking before changes nothing. -/
theorem after {calls more : List (Exchange Port)} {r : Except Failure α} (hcalls : Quiet calls)
    (h : OneWrite write rests shows more r) : OneWrite write rests shows (calls ++ more) r := by
  cases h with
  | failed hmore => exact .failed (hcalls.append hmore)
  | rested hrests hmore => exact .rested hrests (hcalls.append hmore)
  | wrote hbefore he hwrite hafter =>
    rw [← List.append_assoc]
    exact .wrote (hcalls.append hbefore) he hwrite hafter
  | unseen hbefore he hwrite hafter hshows =>
    rw [← List.append_assoc]
    exact .unseen (hcalls.append hbefore) he hwrite hafter hshows

theorem mono {write' : Exchange Port → Prop} {rests' : Prop} {shows' : Exchange Port → Prop}
    {calls : List (Exchange Port)} {r : Except Failure α}
    (h : OneWrite write rests shows calls r) (hwrite : ∀ e, write e → write' e)
    (hrests : rests → rests') (hshows : ∀ e, shows e → shows' e) :
    OneWrite write' rests' shows' calls r := by
  cases h with
  | failed hcalls => exact .failed hcalls
  | rested h hcalls => exact .rested (hrests h) hcalls
  | wrote hbefore he h hafter => exact .wrote hbefore he (hwrite _ h) hafter
  | unseen hbefore he h hafter hd => exact .unseen hbefore he (hwrite _ h) hafter (hshows _ hd)

theorem quiet_of_error {calls : List (Exchange Port)} {f : Failure}
    (h : OneWrite write rests Unshown calls (.error f : Except Failure α)) : Quiet calls := by
  cases h with
  | failed hcalls => exact hcalls
  | unseen _ _ _ _ hshows => exact hshows.elim

end OneWrite

/-- A rule that makes at most one write, whatever it is answered. -/
def WritesOnce {α : Type} (write : Exchange Port → Prop) (rests : Prop)
    (shows : Exchange Port → Prop) (r : Rule α) : Prop := Always r (OneWrite write rests shows)

/-- A rule that looks for the result of a write. -/
def ShowsResult {α : Type} (shows : Exchange Port → Prop) (r : Rule α) : Prop :=
  Always r fun calls x => match x with
    | .ok _ => Quiet calls
    | .error f => ∃ (before : List (Exchange Port)) (γ : Type) (d : Port γ),
        calls = before ++ [⟨d, .error f⟩] ∧ Quiet before ∧ shows ⟨d, .error f⟩

namespace ShowsResult

variable {shows : Exchange Port → Prop} {α β : Type}

theorem pure (x : α) : ShowsResult shows (pure x : Rule α) := Quiet.nil

theorem call_bind {c : Port α} {k : α → Rule β} (h : c.writes = false)
    (hshows : ∀ r, shows ⟨c, r⟩) (hk : ∀ x, ShowsResult shows (k x)) :
    ShowsResult shows (call c >>= k) := by
  refine (always_call_bind c k).2
    ⟨fun x => Always.mono (hk x) fun calls y hcalls => ?_, fun f => ?_⟩
  · have hx : Exchange.commits ⟨c, .ok x⟩ = false := Exchange.commits_look h _
    cases y with
    | ok y => exact Quiet.cons hx hcalls
    | error f =>
      obtain ⟨before, γ, d, rfl, hbefore, hd⟩ := hcalls
      exact ⟨_ :: before, γ, d, rfl, hbefore.cons hx, hd⟩
  · exact ⟨[], _, c, rfl, .nil, hshows _⟩

theorem bind_pure {r : Rule α} (h : ShowsResult shows r) (g : α → β) :
    ShowsResult shows (r >>= fun x => Pure.pure (g x)) := by
  refine (always_bind r _).2 (Always.mono h fun calls x hcalls => ?_)
  cases x with
  | error f => exact hcalls
  | ok x =>
    refine (always_pure (g x)).2 ?_
    rw [List.append_nil]
    exact hcalls

end ShowsResult

namespace WritesOnce

variable {write : Exchange Port → Prop} {rests : Prop} {shows : Exchange Port → Prop}
  {α β : Type}

theorem weaken {write' : Exchange Port → Prop} {rests' : Prop} {shows' : Exchange Port → Prop}
    {r : Rule α} (h : WritesOnce write rests shows r) (hwrite : ∀ e, write e → write' e)
    (hrests : rests → rests') (hshows : ∀ e, shows e → shows' e) :
    WritesOnce write' rests' shows' r :=
  Always.mono h fun _ _ hcalls => hcalls.mono hwrite hrests hshows

theorem throw (f : Failure) : WritesOnce write rests shows (throw f : Rule α) := .failed .nil

theorem look {r : Rule α} (h : Looks r) (hrests : rests) : WritesOnce write rests shows r := by
  refine Always.mono h.quiet fun calls x hcalls => ?_
  cases x with
  | ok x => exact .rested hrests hcalls
  | error f => exact .failed hcalls

/-- The write itself. -/
theorem call {c : Port α} (h : c.writes = true) (hwrite : ∀ r, write ⟨c, r⟩) :
    WritesOnce write rests shows (Action.call c) := by
  refine (always_call c).2 fun r => ?_
  cases r with
  | error f => exact .failed (.cons (Exchange.commits_error c f) .nil)
  | ok x =>
    have he : Exchange.commits ⟨c, .ok x⟩ = true := by
      rw [Exchange.commits, h]
      rfl
    exact .wrote .nil he (hwrite (.ok x)) .nil

theorem look_bind {r : Rule α} {k : α → Rule β} (h : Looks r)
    (hk : ∀ x, WritesOnce write rests shows (k x)) : WritesOnce write rests shows (r >>= k) := by
  refine (always_bind r k).2 (Always.mono h.quiet fun calls x hcalls => ?_)
  cases x with
  | error f => exact .failed hcalls
  | ok x => exact Always.mono (hk x) fun _ _ hmore => hmore.after hcalls

theorem mint_bind {k : String → Rule β} (hk : ∀ text, WritesOnce write rests shows (k text)) :
    WritesOnce write rests shows (Action.mint >>= k) := hk

theorem call_bind {c : Port α} {k : α → Rule β} (h : c.writes = false)
    (hk : ∀ x, WritesOnce write rests shows (k x)) :
    WritesOnce write rests shows (Action.call c >>= k) := look_bind (.call h) hk

/-- A write, and then its result. -/
theorem show_bind {r : Rule α} {k : α → Rule β} (h : WritesOnce write rests Unshown r)
    (hk : ∀ x, ShowsResult shows (k x)) : WritesOnce write rests shows (r >>= k) := by
  refine (always_bind r k).2 (Always.mono h fun calls x hcalls => ?_)
  cases x with
  | error f => exact .failed hcalls.quiet_of_error
  | ok x =>
    refine Always.mono (hk x) fun more y hmore => ?_
    cases hcalls with
    | rested hrests hcalls =>
      cases y with
      | ok y => exact .rested hrests (hcalls.append hmore)
      | error f =>
        obtain ⟨before, γ, d, rfl, hbefore, _⟩ := hmore
        exact .failed (hcalls.append (hbefore.append (.cons (Exchange.commits_error d f) .nil)))
    | @wrote before after e _ hbefore he hwrite hafter =>
      rw [List.append_assoc, List.cons_append]
      cases y with
      | ok y => exact .wrote hbefore he hwrite (hafter.append hmore)
      | error f =>
        obtain ⟨reads, γ, d, rfl, hreads, hshows⟩ := hmore
        rw [← List.append_assoc after]
        exact .unseen hbefore he hwrite (hafter.append hreads) hshows

/-- Trying, and going on after a failure, which has written nothing. -/
theorem attempt_bind {r : Rule α} {k : Except Failure α → Rule α}
    (h : WritesOnce write rests Unshown r) (hok : ∀ x, k (.ok x) = pure x)
    (herror : ∀ f, WritesOnce write rests Unshown (k (.error f))) :
    WritesOnce write rests Unshown (r.attempt >>= k) := by
  refine (always_bind _ k).2 ((always_attempt r).2 (Always.mono h fun calls x hcalls => ?_))
  cases x with
  | error f => exact Always.mono (herror f) fun _ _ hmore => hmore.after hcalls.quiet_of_error
  | ok x =>
    show Always (k (.ok x)) _
    rw [hok, always_pure, List.append_nil]
    exact hcalls

end WritesOnce

/-! ## The write of every operation -/

/-- Whether the exchange is this call. -/
def Exchange.Asks (e : Exchange Port) {γ : Type} (c : Port γ) : Prop := ∃ r, e = ⟨c, r⟩

namespace Operation

/-- The write that an operation makes. -/
def Writes {α : Type} : Operation α → Exchange Port → Prop
  | .writeDomain req, e =>
    if req.id = 0 then e.Asks (.createDomain req.name req.description req.systemId)
    else e.Asks (.updateDomain req.id req.name req.description)
  | .deleteDomains ids, e => e.Asks (.deleteDomains ids)
  | .createGroup req, e =>
    e.Asks (.createGroup req.name req.description (req.domainId.getD defaultDomainId))
  | .updateGroup req, e => e.Asks (.updateGroup req.id req.name req.description)
  | .writeGroup req, e =>
    if req.id = 0 then
      e.Asks (.createGroup req.name req.description (req.domainId.getD defaultDomainId))
    else e.Asks (.updateGroup req.id req.name req.description)
  | .deleteGroups ids, e => e.Asks (.deleteGroups ids)
  | .createApplication req, e => e.Asks (.createApplication req)
  | .updateApplication req, e =>
    e.Asks (.updateApplicationId req.oldId req.newId req.name req.description)
  | .writeApplication req, e =>
    if req.id = 0 then ∃ id, e.Asks (.createApplication { req with id })
    else e.Asks (.updateApplication req.id req.name req.description)
  | .deleteApplications ids, e =>
    e.Asks (.transaction .applicationDelete (.call (.deleteByIdList ids)))
  | .createToken appId lifetime, e => ∃ text createdAt,
    e.Asks (.transaction .tokenCreate (.call (.save ⟨text, appId, lifetime, createdAt⟩)))
  | .revokeTokens appId tokens, e =>
    e.Asks (.transaction .tokenRevoke (.call (.deleteByAppIdAndTokens appId tokens)))
  | .revokeAllTokens appId, e => ∃ tokens,
    e.Asks (.transaction .tokenRevoke (.call (.deleteByAppIdAndTokens appId tokens)))
  | .setPermission row, e => e.Asks (.transaction .accessListSetOne (.call (.upsert row)))
  | .setPermissions req, e =>
    e.Asks (.transaction .accessListSetList (Permissions.replace req))
  | .deletePermissions appId methods, e => e.Asks (.deleteAccessLists appId methods)
  | .provision token, e => e.Asks (.transaction .baseline (Provisioning.work token))
  | _, _ => False

/-- Whether an operation may succeed without a write: it only reads, or its list is empty. -/
def MayRest {α : Type} : Operation α → Prop
  | .revokeTokens _ tokens => tokens = []
  | .deletePermissions _ methods => methods = []
  | .revokeAllTokens _ => True
  | .provision token => token.isEmpty
  | op => op.reads = true

/-- Whether an operation that writes has nothing to write in these tables. -/
def NothingToWrite {α : Type} (t : Tables) : Operation α → Prop
  | .revokeTokens _ tokens => tokens = []
  | .deletePermissions _ methods => methods = []
  | .revokeAllTokens appId => t.tokensWhere (fun k => k.appId = appId) = []
  | .provision token => token.isEmpty
  | _ => False

/-- The calls that look for the result of the write of an operation. -/
def Shows {α : Type} : Operation α → Exchange Port → Prop
  | .createToken appId _, e | .revokeTokens appId _, e | .revokeAllTokens appId, e =>
    e.Asks (.applicationById appId) ∨ ∃ id, e.Asks (.tokensByApplication id)
  | .updateApplication _, e => ∃ id, e.Asks (.tokensByApplication id)
  | .writeApplication req, e => req.id ≠ 0 ∧ ∃ id, e.Asks (.tokensByApplication id)
  | _, _ => False

end Operation

/-! ## Every operation writes once -/

variable {write : Exchange Port → Prop} {rests : Prop} {shows : Exchange Port → Prop}

theorem Domains.createUpdate_once (req : DomainWrite) :
    WritesOnce (Operation.writeDomain req).Writes rests shows (Domains.createUpdate req) := by
  unfold Domains.createUpdate
  refine .look_bind (looks_ensureNameFree rfl _ _ _) fun _ => ?_
  by_cases hid : req.id = 0
  · rw [if_pos hid]
    exact .call rfl fun r => by simp only [Operation.Writes, if_pos hid]; exact ⟨r, rfl⟩
  · rw [if_neg hid]
    refine .call_bind rfl fun _ => ?_
    exact .call rfl fun r => by simp only [Operation.Writes, if_neg hid]; exact ⟨r, rfl⟩

theorem Groups.create_once (req : GroupWrite) :
    WritesOnce (Operation.createGroup req).Writes rests shows (Groups.create req) := by
  refine .look_bind (looks_ensureNameFree rfl _ _ _) fun _ => .call_bind rfl fun _ => ?_
  exact .call rfl fun r => ⟨r, rfl⟩

theorem Groups.update_once (req : GroupWrite) :
    WritesOnce (Operation.updateGroup req).Writes rests shows (Groups.update req) := by
  unfold Groups.update
  split
  · exact .throw _
  · refine .call_bind rfl fun _ => .look_bind (looks_ensureNameFree rfl _ _ _) fun _ => ?_
    exact .call rfl fun r => ⟨r, rfl⟩

theorem Groups.createUpdate_once (req : GroupWrite) :
    WritesOnce (Operation.writeGroup req).Writes rests shows (Groups.createUpdate req) := by
  unfold Groups.createUpdate
  by_cases hid : req.id = 0
  · rw [if_pos hid]
    refine (create_once req).weaken (fun e h => ?_) id fun _ h => h
    simpa only [Operation.Writes, if_pos hid] using h
  · rw [if_neg hid]
    refine (update_once req).weaken (fun e h => ?_) id fun _ h => h
    simpa only [Operation.Writes, if_neg hid] using h

theorem Applications.create_once (req : NewApplication)
    (hwrite : ∀ r, write ⟨.createApplication req, r⟩) :
    WritesOnce write rests shows (Applications.create req) := by
  unfold Applications.create
  split
  · exact .throw _
  · show WritesOnce write rests shows (_ >>= _)
    exact .show_bind (.call rfl hwrite) fun _ => .pure _

theorem Applications.createUnderNextId_once (req : NewApplication)
    (hwrite : ∀ id r, write ⟨.createApplication { req with id }, r⟩) (retries : Nat) :
    WritesOnce write rests Unshown (Applications.createUnderNextId req retries) := by
  induction retries with
  | zero => exact .call_bind rfl fun id => create_once _ (hwrite id)
  | succ retries ih =>
    refine .call_bind rfl fun id => .attempt_bind (create_once _ (hwrite id)) (fun _ => rfl) ?_
    intro f
    split
    · exact ih
    · exact .throw _

/-- Looking for the tokens of an application. -/
theorem Applications.enrichOne_shows (hshows : ∀ id r, shows ⟨.tokensByApplication id, r⟩)
    (app : Application) : ShowsResult shows (Applications.enrichOne app) :=
  .call_bind rfl (hshows _) fun _ => .pure _

theorem Applications.getById_shows (id : Int32) (happ : ∀ r, shows ⟨.applicationById id, r⟩)
    (htokens : ∀ id r, shows ⟨.tokensByApplication id, r⟩) :
    ShowsResult shows (Applications.getById id) :=
  .call_bind rfl happ fun _ => enrichOne_shows htokens _

theorem Applications.createUpdate_once (req : NewApplication) :
    WritesOnce (Operation.writeApplication req).Writes rests (Operation.writeApplication req).Shows
      (Applications.createUpdate req) := by
  unfold Applications.createUpdate
  refine .look_bind (looks_ensureNameFree rfl _ _ _) fun _ => ?_
  by_cases hid : req.id = 0
  · simp only [hid, ne_eq, not_true_eq_false, if_false]
    refine .call_bind rfl fun _ => ?_
    refine (createUnderNextId_once req (fun id r => ?_) _).weaken (fun _ h => h) id
      fun _ => False.elim
    simp only [Operation.Writes, if_pos hid]
    exact ⟨id, r, rfl⟩
  · simp only [hid, ne_eq, not_false_eq_true, if_true]
    refine .call_bind rfl fun _ => ?_
    refine .show_bind (.call rfl fun r => ?_) fun app => enrichOne_shows (fun id r => ?_) app
    · simp only [Operation.Writes, if_neg hid]
      exact ⟨r, rfl⟩
    · exact ⟨hid, id, r, rfl⟩

theorem Credentials.issueOnce_once (appId : Int32) (lifetime : Int64) :
    WritesOnce (Operation.createToken appId lifetime).Writes rests shows
      (Credentials.issueOnce appId lifetime) := by
  refine .mint_bind fun text => .look_bind .now fun createdAt => ?_
  exact .call rfl fun r => ⟨text, createdAt, r, rfl⟩

theorem Credentials.issue_once (appId : Int32) (lifetime : Int64) (retries : Nat) :
    WritesOnce (Operation.createToken appId lifetime).Writes rests Unshown
      (Credentials.issue appId lifetime retries) := by
  induction retries with
  | zero => exact issueOnce_once appId lifetime
  | succ retries ih =>
    refine .attempt_bind (issueOnce_once appId lifetime) (fun _ => rfl) fun f => ?_
    split
    · exact ih
    · exact .throw _

theorem Credentials.create_once (appId : Int32) (lifetime : Int64) :
    WritesOnce (Operation.createToken appId lifetime).Writes rests
      (Operation.createToken appId lifetime).Shows (Credentials.create appId lifetime) := by
  unfold Credentials.create
  split
  · exact .throw _
  · show WritesOnce _ _ _ (_ >>= _)
    refine .call_bind rfl fun app => .call_bind rfl fun group => .call_bind rfl fun _ => ?_
    refine .show_bind (issue_once appId lifetime _) fun _ => ?_
    exact Applications.getById_shows appId (fun r => .inl ⟨r, rfl⟩) fun id r => .inr ⟨id, r, rfl⟩

theorem Credentials.revoke_once (appId : Int32) (tokens : List String) :
    WritesOnce (Operation.revokeTokens appId tokens).Writes (tokens = [])
      (Operation.revokeTokens appId tokens).Shows (Credentials.revoke appId tokens) := by
  unfold Credentials.revoke
  refine .call_bind rfl fun _ => ?_
  have hshow (n : Nat) : ShowsResult (Operation.revokeTokens appId tokens).Shows
      (Applications.getById appId >>= fun app => pure (⟨app, n⟩ : RevokeOutcome)) :=
    .bind_pure (Applications.getById_shows appId (fun r => .inl ⟨r, rfl⟩)
      fun id r => .inr ⟨id, r, rfl⟩) _
  by_cases hempty : tokens.isEmpty
  · rw [if_pos hempty]
    exact .show_bind (.look (.pure 0) (List.isEmpty_iff.1 hempty)) hshow
  · rw [if_neg hempty]
    exact .show_bind (.call rfl fun r => ⟨r, rfl⟩) hshow

theorem Credentials.revokeByAppId_once (appId : Int32) :
    WritesOnce (Operation.revokeAllTokens appId).Writes True
      (Operation.revokeAllTokens appId).Shows (Credentials.revokeByAppId appId) := by
  refine .call_bind rfl fun _ => .call_bind rfl fun tokens => ?_
  exact (revoke_once appId _).weaken (fun e h => ⟨_, h⟩) (fun _ => trivial) fun _ h => h

theorem Permissions.deleteList_once (appId : Int32) (methods : List String) :
    WritesOnce (Operation.deletePermissions appId methods).Writes (methods = []) shows
      (Permissions.deleteList appId methods) := by
  refine .call_bind rfl fun _ => ?_
  split
  · rename_i hempty
    exact .look (.pure 0) (List.isEmpty_iff.1 hempty)
  · exact .call rfl fun r => ⟨r, rfl⟩

theorem Provisioning.run_once (token : String) :
    WritesOnce (Operation.provision token).Writes token.isEmpty shows
      (Provisioning.run token) := by
  unfold Provisioning.run
  split
  · rename_i hempty
    exact .look (.pure _) hempty
  · exact .call rfl fun r => ⟨r, rfl⟩

theorem Operation.rule_once {α : Type} (op : Operation α) :
    WritesOnce op.Writes op.MayRest op.Shows op.rule := by
  have hlook (h : op.reads = true) (hrests : op.MayRest) :
      WritesOnce op.Writes op.MayRest op.Shows op.rule := .look (looks_of_reads op h) hrests
  cases op with
  | writeDomain req => exact Domains.createUpdate_once req
  | createGroup req => exact Groups.create_once req
  | updateGroup req => exact Groups.update_once req
  | writeGroup req => exact Groups.createUpdate_once req
  | deleteDomains ids | deleteGroups ids | deleteApplications ids =>
    exact .look_bind (looks_requireIds ids _) fun _ => .call rfl fun r => ⟨r, rfl⟩
  | createApplication req => exact Applications.create_once req fun r => ⟨r, rfl⟩
  | updateApplication req =>
    refine .show_bind (.call rfl fun r => ⟨r, rfl⟩) fun app => ?_
    exact Applications.enrichOne_shows (fun id r => ⟨id, r, rfl⟩) app
  | writeApplication req => exact Applications.createUpdate_once req
  | createToken appId lifetime => exact Credentials.create_once appId lifetime
  | revokeTokens appId tokens => exact Credentials.revoke_once appId tokens
  | revokeAllTokens appId => exact Credentials.revokeByAppId_once appId
  | setPermission row => exact .call_bind rfl fun _ => .call rfl fun r => ⟨r, rfl⟩
  | setPermissions req => exact .call_bind rfl fun _ => .call rfl fun r => ⟨r, rfl⟩
  | deletePermissions appId methods => exact Permissions.deleteList_once appId methods
  | provision token => exact Provisioning.run_once token
  | _ => exact hlook rfl rfl

/-- Whoever revokes all tokens and writes nothing has found none. -/
theorem Credentials.revokeByAppId_quiet (appId : Int32) :
    Always (Credentials.revokeByAppId appId) fun calls x => ∀ out, x = .ok out → Quiet calls →
      ⟨Port.tokensByApplication appId, .ok []⟩ ∈ calls := by
  refine (always_call_bind _ _).2 ⟨fun app => (always_call_bind _ _).2 ⟨fun tokens => ?_, ?_⟩, ?_⟩
  · cases tokens with
    | nil => exact (revoke_once appId []).mono fun _ _ _ _ _ _ => by simp
    | cons token tokens =>
      refine (revoke_once appId _).mono fun calls x hcalls out hx hquiet => ?_
      subst hx
      cases hcalls with
      | rested hempty => cases hempty
      | wrote _ he =>
        have := hquiet _ (List.mem_cons_of_mem _ (List.mem_cons_of_mem _
          (List.mem_append_right _ List.mem_cons_self)))
        rw [he] at this
        cases this
  · exact fun f out hx => nomatch hx
  · exact fun f out hx => nomatch hx

end AccessRegistry
