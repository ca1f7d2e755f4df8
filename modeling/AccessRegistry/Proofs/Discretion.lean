import AccessRegistry.Program.Script
import AccessRegistry.Proofs.Session

/-!
# AccessRegistry.Proofs.Discretion

What an internal failure says stays inside. Two runs are compared whose storage fails at the same
calls with the same failures, but for the messages of internal ones.

* `Program.Paired`    — two programs ask the same requests as long as they are answered alike.
* `Action.Pairs`      — the same of actions, which end alike.
* `paired_serve`      — the program of every request is paired with itself, up to equal answers.
* `World.deliver`     — requests one after another, each with its time and with the script that the
  storage follows for it.
* `World.internal_messages_hidden` — all answers and the tables are the same in two such runs.
-/

namespace AccessRegistry

universe u

/-! ## Failures and outcomes that look alike -/

/-- The same failure, but for what an internal one says. -/
inductive Failure.Alike : Failure → Failure → Prop where
  | refl (f : Failure) : Alike f f
  | internal (message message' : String) : Alike (.internal message) (.internal message')

theorem Failure.Alike.isNotFound {f g : Failure} (h : f.Alike g) :
    f.isNotFound = g.isNotFound := by
  cases h <;> rfl

/-- The same value, or failures that look alike. -/
inductive Resembles {α : Type} : Except Failure α → Except Failure α → Prop where
  | ok (x : α) : Resembles (.ok x) (.ok x)
  | error {f g : Failure} (h : f.Alike g) : Resembles (.error f) (.error g)

namespace Resembles

variable {α β : Type}

theorem refl (r : Except Failure α) : Resembles r r := by
  cases r with
  | ok x => exact .ok x
  | error f => exact .error (.refl f)

theorem map (g : α → β) {r r' : Except Failure α} (h : Resembles r r') :
    Resembles (r.map g) (r'.map g) := by
  cases h with
  | ok x => exact .ok (g x)
  | error h => exact .error h

end Resembles

/-! ## Paired programs -/

/-- Two programs that ask the same requests, as long as their calls have outcomes that resemble each
other and all else is answered equally, and that end with values related by `R`. -/
inductive Program.Paired {C : Type → Type u} {ρ : Type} (R : ρ → ρ → Prop) :
    Program (Effect C) ρ → Program (Effect C) ρ → Prop where
  | done {a a' : ρ} (h : R a a') : Paired R (.done a) (.done a')
  | call {γ : Type} (c : C γ) {next next' : Except Failure γ → Program (Effect C) ρ}
      (h : ∀ r r', Resembles r r' → Paired R (next r) (next' r')) :
      Paired R (.ask (.call c) next) (.ask (.call c) next')
  | now {next next' : Instant → Program (Effect C) ρ} (h : ∀ t, Paired R (next t) (next' t)) :
      Paired R (.ask .now next) (.ask .now next')
  | mint {next next' : String → Program (Effect C) ρ} (h : ∀ s, Paired R (next s) (next' s)) :
      Paired R (.ask .mint next) (.ask .mint next')

theorem Program.Paired.bind {C : Type → Type u} {ρ σ : Type} {R : ρ → ρ → Prop}
    {S : σ → σ → Prop} {p p' : Program (Effect C) ρ} {k k' : ρ → Program (Effect C) σ}
    (h : Paired R p p') (hk : ∀ a a', R a a' → Paired S (k a) (k' a')) :
    Paired S (p.bind k) (p'.bind k') := by
  induction h with
  | done h => exact hk _ _ h
  | call c _ ih => exact .call c ih
  | now _ ih => exact .now ih
  | mint _ ih => exact .mint ih

namespace Action

variable {C : Type → Type u} {α β : Type}

/-- Two actions that ask the same requests as long as they are answered alike, and end alike. -/
def Pairs (a a' : Action C α) : Prop := Program.Paired Resembles (program a) (program a')

/-- An action that does the same whatever its failures say. -/
def Discreet (a : Action C α) : Prop := Pairs a a

namespace Pairs

theorem pure (x : α) : Pairs (pure x : Action C α) (pure x) := .done (.ok x)

theorem throw {f g : Failure} (h : f.Alike g) :
    Pairs (throw f : Action C α) (throw g) := .done (.error h)

theorem liftExcept {r r' : Except Failure α} (h : Resembles r r') :
    Pairs (liftExcept r : Action C α) (liftExcept r') := by
  cases h with
  | ok x => exact .pure x
  | error h => exact .throw h

theorem call (c : C α) : Discreet (Action.call c) :=
  Program.Paired.call c fun _ _ h => .done h

theorem now : Pairs (Action.now : Action C Instant) Action.now :=
  Program.Paired.now fun t => .done (.ok t)

theorem mint : Pairs (Action.mint : Action C String) Action.mint :=
  Program.Paired.mint fun s => .done (.ok s)

theorem bind {a a' : Action C α} {k k' : α → Action C β} (h : Pairs a a')
    (hk : ∀ x, Pairs (k x) (k' x)) : Pairs (a >>= k) (a' >>= k') := by
  refine Program.Paired.bind h fun r r' hr => ?_
  cases hr with
  | ok x => exact hk x
  | error h => exact .done (.error h)

theorem call_bind {c : C α} {k k' : α → Action C β} (hk : ∀ x, Pairs (k x) (k' x)) :
    Pairs (Action.call c >>= k) (Action.call c >>= k') := (call c).bind hk

/-- The next action may look at the outcome, failures included. -/
theorem attempt_bind {a a' : Action C α} {k k' : Except Failure α → Action C β} (h : Pairs a a')
    (hk : ∀ r r', Resembles r r' → Pairs (k r) (k' r')) :
    Pairs (a.attempt >>= k) (a'.attempt >>= k') := by
  have hprogram (b : Action C α) (l : Except Failure α → Action C β) :
      program (b.attempt >>= l) = (program b).bind fun r => program (l r) :=
    Program.bind_assoc ..
  unfold Pairs
  rw [hprogram, hprogram]
  exact Program.Paired.bind h hk

theorem map (g : α → β) {a a' : Action C α} (h : Pairs a a') : Pairs (g <$> a) (g <$> a') := by
  unfold Pairs
  rw [program_map, program_map]
  exact Program.Paired.bind h fun _ _ hr => .done (hr.map g)

end Pairs
end Action

/-! ## The rules of the registry -/

open AccessRegistry.Action

theorem requireIds_discreet {C : Type → Type 1} (ids : List Int32) (what : String) :
    Pairs (requireIds ids what : Action C Unit) (requireIds ids what) := by
  unfold requireIds
  split
  · exact .throw (.refl _)
  · exact .pure ()

/-- A search that fails decides by the kind of its failure. -/
theorem nameIsFree_resembles {α : Type} {r r' : Except Failure α} (h : Resembles r r')
    (id : Int32) (idOf : α → Int32) (duplicate : Failure) :
    Resembles (nameIsFree r id idOf duplicate) (nameIsFree r' id idOf duplicate) := by
  cases h with
  | ok row => exact .refl _
  | error h =>
    simp only [nameIsFree, h.isNotFound]
    split
    · exact .ok ()
    · exact .error h

theorem ensureNameFree_discreet {α : Type} (search : Port α) (id : Int32) (idOf : α → Int32)
    (duplicate : Failure) :
    Discreet (ensureNameFree search id idOf duplicate) :=
  .attempt_bind (.call search) fun _ _ h =>
    .liftExcept (nameIsFree_resembles h id idOf duplicate)

theorem Domains.createUpdate_discreet (req : DomainWrite) :
    Discreet (createUpdate req) := by
  unfold createUpdate
  refine .bind (ensureNameFree_discreet _ _ _ _) fun _ => ?_
  split
  · exact .call _
  · exact .call_bind fun _ => .call _

theorem Groups.create_discreet (req : GroupWrite) : Discreet (create req) :=
  .bind (ensureNameFree_discreet _ _ _ _) fun _ => .call_bind fun _ => .call _

theorem Groups.update_discreet (req : GroupWrite) : Discreet (update req) := by
  unfold update
  split
  · exact .throw (.refl _)
  · exact .call_bind fun _ => .bind (ensureNameFree_discreet _ _ _ _) fun _ => .call _

namespace Applications

theorem enrichOne_discreet (app : Application) : Discreet (enrichOne app) :=
  .call_bind fun _ => .pure _

theorem enrichWithTokens_discreet (apps : List Application) :
    Discreet (enrichWithTokens apps) := by
  unfold enrichWithTokens
  split
  · exact .pure []
  · exact .call_bind fun _ => .pure _

theorem getById_discreet (id : Int32) : Discreet (getById id) :=
  .call_bind fun app => enrichOne_discreet app

theorem create_discreet (req : NewApplication) : Discreet (create req) := by
  unfold create
  split
  · exact .throw (.refl _)
  · exact .call_bind fun _ => .pure _

/-- Only an id that is taken leads to another attempt, and that failure has no message. -/
theorem createUnderNextId_discreet (req : NewApplication) (retries : Nat) :
    Discreet (createUnderNextId req retries) := by
  induction retries with
  | zero => exact .call_bind fun _ => create_discreet _
  | succ retries ih =>
    refine .call_bind fun _ => .attempt_bind (create_discreet _) fun r r' h => ?_
    cases h with
    | ok x => exact .pure x
    | error h =>
      cases h with
      | internal => exact .throw (.internal _ _)
      | refl =>
        split
        · exact ih
        · exact .throw (.refl _)

theorem createUpdate_discreet (req : NewApplication) :
    Discreet (createUpdate req) := by
  unfold createUpdate
  refine .bind (ensureNameFree_discreet _ _ _ _) fun _ => ?_
  split
  · exact .call_bind fun _ => .call_bind fun app => enrichOne_discreet app
  · exact .call_bind fun _ => createUnderNextId_discreet req _

theorem systemTree_discreet (systemId : Int32) :
    Discreet (systemTree systemId) := by
  refine .call_bind fun domains => ?_
  -- with or without groups, the applications are read next
  have hgroups (groups : List AppGroup) : Discreet (do
      let apps ← if groups.isEmpty then pure [] else
        Action.call (Port.applicationsByGroups (groups.map AppGroup.id))
      return buildSystemTree domains groups apps) := by
    split
    · exact .bind (.pure []) fun _ => .pure _
    · exact .call_bind fun _ => .pure _
  split
  · exact .bind (.pure []) hgroups
  · exact .call_bind hgroups

end Applications

namespace Credentials

theorem issueOnce_discreet (appId : Int32) (lifetime : Int64) :
    Discreet (issueOnce appId lifetime) :=
  .bind .mint fun _ => .bind .now fun _ => .call _

/-- Only a text that is taken leads to another attempt, and that failure has no message. -/
theorem issue_discreet (appId : Int32) (lifetime : Int64) (retries : Nat) :
    Discreet (issue appId lifetime retries) := by
  induction retries with
  | zero => exact issueOnce_discreet appId lifetime
  | succ retries ih =>
    refine .attempt_bind (issueOnce_discreet appId lifetime) fun r r' h => ?_
    cases h with
    | ok x => exact .pure x
    | error h =>
      cases h with
      | internal => exact .throw (.internal _ _)
      | refl =>
        split
        · exact ih
        · exact .throw (.refl _)

theorem create_discreet (appId : Int32) (lifetime : Int64) :
    Discreet (create appId lifetime) := by
  unfold create
  split
  · exact .throw (.refl _)
  · refine .call_bind fun _ => .call_bind fun _ => .call_bind fun _ => ?_
    exact .bind (issue_discreet appId lifetime _) fun _ => Applications.getById_discreet appId

theorem revoke_discreet (appId : Int32) (tokens : List String) :
    Discreet (revoke appId tokens) := by
  have hshow (deleted : Nat) : Discreet (do
      return (⟨← Applications.getById appId, deleted⟩ : RevokeOutcome)) :=
    .bind (Applications.getById_discreet appId) fun _ => .pure _
  refine .call_bind fun _ => ?_
  split
  · exact .bind (.pure 0) hshow
  · exact .call_bind hshow

theorem authenticate_discreet (token : String) : Discreet (authenticate token) := by
  refine .attempt_bind (.call _) fun r r' h => .bind .now fun now => .liftExcept ?_
  cases h with
  | ok data => exact .refl _
  | error h =>
    cases h with
    | internal message message' => exact .error (.internal message message')
    | refl f => exact .refl _

end Credentials

namespace Permissions

theorem deleteList_discreet (appId : Int32) (methods : List String) :
    Discreet (deleteList appId methods) := by
  refine .call_bind fun _ => ?_
  split
  · exact .pure 0
  · exact .call _

theorem authorize_discreet (appId : Int32) (endpoint : String) :
    Discreet (authorize appId endpoint) := by
  refine .attempt_bind (.call _) fun r r' h => ?_
  cases h with
  | ok row => exact .pure _
  | error h =>
    cases h with
    | internal => exact .throw (.internal _ _)
    | refl f =>
      split
      · exact .pure _
      · exact .pure _
      · exact .throw (.refl _)

end Permissions

theorem Provisioning.run_discreet (token : String) : Discreet (run token) := by
  unfold run
  split
  · exact .pure _
  · exact .call _

theorem Operation.rule_discreet {α : Type} (op : Operation α) : Discreet op.rule := by
  have hlist {β : Type} (ids : List Int32) (rule : Rule (List β)) (h : Discreet rule) :
      Discreet (if ids.isEmpty then pure [] else rule) := by
    split
    · exact .pure []
    · exact h
  cases op with
  | domainById | domainsOfSystem | groupById | groupsOfDomain | allGroups | nextApplicationId =>
    exact .call _
  | domainsByIds ids | groupsByIds ids => exact hlist ids _ (.call _)
  | writeDomain req => exact Domains.createUpdate_discreet req
  | deleteDomains ids | deleteGroups ids | deleteApplications ids =>
    exact .bind (requireIds_discreet ids _) fun _ => .call _
  | createGroup req => exact Groups.create_discreet req
  | updateGroup req => exact Groups.update_discreet req
  | writeGroup req =>
    show Discreet (Groups.createUpdate req)
    unfold Groups.createUpdate
    split
    · exact Groups.create_discreet req
    · exact Groups.update_discreet req
  | applicationById id => exact Applications.getById_discreet id
  | applicationsByIds ids =>
    exact hlist ids _ (.call_bind fun _ => Applications.enrichWithTokens_discreet _)
  | applicationsOfGroup | allApplications =>
    exact .call_bind fun _ => Applications.enrichWithTokens_discreet _
  | applicationByToken => exact .call_bind fun _ => Applications.getById_discreet _
  | withTokens apps => exact Applications.enrichWithTokens_discreet apps
  | createApplication req => exact Applications.create_discreet req
  | updateApplication => exact .call_bind fun app => Applications.enrichOne_discreet app
  | writeApplication req => exact Applications.createUpdate_discreet req
  | systemTree systemId => exact Applications.systemTree_discreet systemId
  | createToken appId lifetime => exact Credentials.create_discreet appId lifetime
  | revokeTokens appId tokens => exact Credentials.revoke_discreet appId tokens
  | revokeAllTokens appId =>
    exact .call_bind fun _ => .call_bind fun _ => Credentials.revoke_discreet appId _
  | tokensOf | permissionsOf => exact .call_bind fun _ => .call _
  | setPermission | setPermissions => exact .call_bind fun _ => .call _
  | deletePermissions appId methods => exact Permissions.deleteList_discreet appId methods
  | authenticate token => exact Credentials.authenticate_discreet token
  | authorize appId endpoint => exact Permissions.authorize_discreet appId endpoint
  | provision token => exact Provisioning.run_discreet token

/-! ## Requests -/

namespace Http

/-- Outcomes that resemble each other look the same to a client. -/
theorem Answer.ofResult_resembles {r r' : Except Failure Json.Value} (h : Resembles r r') :
    Answer.ofResult r = Answer.ofResult r' := by
  cases h with
  | ok v => rfl
  | error h => cases h <;> rfl

theorem Endpoint.paired_answer {β : Type} (op : Operation β) (view : β → Json.Value) :
    Program.Paired Eq (answer (view <$> op.rule)) (answer (view <$> op.rule)) :=
  Program.Paired.bind (op.rule_discreet.map view) fun _ _ h =>
    .done (Answer.ofResult_resembles h)

theorem Resource.paired_answer {path : String} {resource : Resource}
    (h : Resource.at? path = some resource) (kept : Option Metrics) (r : Request) :
    Program.Paired Eq (resource.answer kept r) (resource.answer kept r) := by
  cases resource with
  | operation e =>
    rw [Resource.answer]
    rcases (Endpoint.runs_of_mem (mem_of_at? h)).handle_cases r with
      ⟨β, op, view, hhandle⟩ | ⟨a, hhandle⟩
    · rw [hhandle]
      exact Endpoint.paired_answer op view
    · rw [hhandle]
      exact .done rfl
  | document => exact .done rfl
  | liveness => exact .done rfl
  | readiness =>
    refine .call _ fun x x' h => ?_
    cases h <;> exact .done rfl
  | metrics => cases kept <;> exact .done rfl

theorem paired_serve (r : Request) (kept : Option Metrics) :
    Program.Paired Eq (serve r kept) (serve r kept) := by
  refine Program.Paired.bind (R := Eq) ?_ fun a a' h => .done (by rw [h])
  unfold answer
  split
  · exact .done rfl
  · rename_i resource hat
    split
    · exact Program.Paired.bind (Resource.paired_answer hat kept r) fun a a' h =>
        .done (by rw [h])
    · exact .done rfl

end Http

/-! ## Runs under scripts -/

/-- The same calls fail, with failures that look alike. -/
structure Fault.Alike (f g : Fault) : Prop where
  call : f.call = g.call
  skip : f.skip = g.skip
  failure : f.failure.Alike g.failure

structure Script.Alike (s s' : Script) : Prop where
  faults : List.Forall₂ Fault.Alike s.faults s'.faults
  nextIds : s.nextIds = s'.nextIds

/-- The same fault strikes, or none in either script. -/
theorem Fault.strike_alike {name : String} {faults faults' : List Fault}
    (h : List.Forall₂ Fault.Alike faults faults') :
    Option.Rel Failure.Alike (strike name faults).1 (strike name faults').1 ∧
      List.Forall₂ Fault.Alike (strike name faults).2 (strike name faults').2 := by
  induction h with
  | nil => exact ⟨.none, .nil⟩
  | @cons f g faults faults' hfg hrest ih =>
    obtain ⟨call, failure, skip⟩ := f
    obtain ⟨_, failure', _⟩ := g
    obtain ⟨rfl, rfl, hfailure⟩ := hfg
    by_cases hname : call = name
    · cases skip with
      | zero =>
        simp only [strike, if_pos hname]
        exact ⟨.some hfailure, hrest⟩
      | succ n =>
        simp only [strike, if_pos hname]
        exact ⟨.none, .cons ⟨rfl, rfl, hfailure⟩ hrest⟩
    · simp only [strike, if_neg hname]
      exact ⟨ih.1, .cons ⟨rfl, rfl, hfailure⟩ ih.2⟩

namespace World

/-- A run of a program whose calls are answered by the script first, and by the world otherwise. -/
def runScript {ρ : Type} (script : Script) (p : Program (Effect Port) ρ) (w : World) :
    (ρ × Script) × World :=
  ((p.run (Script.answer answer)).run script).run w

theorem call_struck {γ : Type} (c : Port γ) {faults left : List Fault} {f : Failure}
    (h : Fault.strike c.name faults = (some f, left)) (nextIds : List Int32) (w : World) :
    ((Script.answer answer _ (.call c)).run ⟨faults, nextIds⟩).run w =
      ((.error f, ⟨left, nextIds⟩), w) := by
  unfold Script.answer
  simp only [Script.struck, StateT.run_bind, StateT.run_get, StateT.run_set, pure_bind, h]
  rfl

/-- Whether a call gets a prepared answer does not depend on the faults. -/
theorem run_prepared {γ : Type} (c : Port γ) (nextIds : List Int32) :
    ∃ (a : Option γ) (ids : List Int32), ∀ (left : List Fault) (w : World),
      ((Script.prepared c : StateT Script (StateM World) _).run ⟨left, nextIds⟩).run w =
        ((a, ⟨left, ids⟩), w) := by
  cases c with
  | nextApplicationId =>
    cases nextIds with
    | nil => exact ⟨none, [], fun _ _ => rfl⟩
    | cons id ids => exact ⟨some id, ids, fun _ _ => rfl⟩
  | _ => exact ⟨none, nextIds, fun _ _ => rfl⟩

/-- A call that no fault strikes has an answer that does not depend on the other faults. -/
theorem call_passed {γ : Type} (c : Port γ) (nextIds : List Int32) (w : World) :
    ∃ (r : Except Failure γ) (ids : List Int32) (w' : World), ∀ faults left : List Fault,
      Fault.strike c.name faults = (none, left) →
        ((Script.answer answer _ (.call c)).run ⟨faults, nextIds⟩).run w =
          ((r, ⟨left, ids⟩), w') := by
  obtain ⟨a, ids, ha⟩ := run_prepared c nextIds
  have hrun (faults left : List Fault) (h : Fault.strike c.name faults = (none, left)) :
      ((Script.answer answer _ (.call c)).run ⟨faults, nextIds⟩).run w =
        ((a.elim (liftM (answer _ (.call c))) fun a => pure (.ok a) :
          StateT Script (StateM World) _).run ⟨left, ids⟩).run w := by
    unfold Script.answer
    simp only [Script.struck, StateT.run_bind, StateT.run_get, StateT.run_set, pure_bind, h,
      StateT.run_pure, ha]
    cases a <;> rfl
  cases a with
  | some a => exact ⟨.ok a, ids, w, hrun⟩
  | none => exact ⟨((answerCall c).run w).1, ids, ((answerCall c).run w).2, hrun⟩

/-- Scripts that look alike have calls answered alike, by the same world. -/
theorem call_alike {γ : Type} (c : Port γ) {s s' : Script} (h : s.Alike s') (w : World) :
    let out := ((Script.answer answer _ (.call c)).run s).run w
    let out' := ((Script.answer answer _ (.call c)).run s').run w
    Resembles out.1.1 out'.1.1 ∧ out.1.2.Alike out'.1.2 ∧ out.2 = out'.2 := by
  obtain ⟨faults, nextIds⟩ := s
  obtain ⟨faults', _⟩ := s'
  obtain ⟨hfaults, rfl⟩ := h
  obtain ⟨hstruck, hleft⟩ := @Fault.strike_alike c.name _ _ hfaults
  rcases hf : Fault.strike c.name faults with ⟨struck, left⟩
  rcases hf' : Fault.strike c.name faults' with ⟨struck', left'⟩
  rw [hf, hf'] at hstruck hleft
  cases hstruck with
  | some hfailure =>
    simp only [call_struck c hf, call_struck c hf']
    exact ⟨.error hfailure, ⟨hleft, rfl⟩, trivial⟩
  | none =>
    obtain ⟨r, ids, w', hpassed⟩ := call_passed c nextIds w
    simp only [hpassed _ _ hf, hpassed _ _ hf']
    exact ⟨.refl r, ⟨hleft, rfl⟩, trivial⟩

theorem runScript_alike {ρ : Type} {R : ρ → ρ → Prop} {p p' : Program (Effect Port) ρ}
    (h : Program.Paired R p p') {s s' : Script} (hs : s.Alike s') {w w' : World} (hw : w = w') :
    R (runScript s p w).1.1 (runScript s' p' w').1.1 ∧
      (runScript s p w).2 = (runScript s' p' w').2 := by
  induction h generalizing s s' w w' with
  | done h => exact ⟨h, hw⟩
  | call c _ ih =>
    subst hw
    obtain ⟨hout, hscript, hworld⟩ := call_alike c hs w
    exact ih _ _ hout hscript hworld
  | now _ ih =>
    subst hw
    exact ih w.now hs rfl
  | mint _ ih =>
    subst hw
    exact ih (w.mint w.minted) hs rfl

end World

/-! ## Sessions -/

/-- A request, the time at which it comes, and the script of the storage for it. -/
structure Delivery where
  request : Http.Request
  now : Instant
  script : Script

structure Delivery.Alike (d d' : Delivery) : Prop where
  request : d.request = d'.request
  now : d.now = d'.now
  script : d.script.Alike d'.script

namespace World

/-- The answers to some deliveries, with the world and the counts of requests after them. -/
def deliver : List Delivery → World → Option Http.Metrics →
    List Http.Answer × World × Option Http.Metrics
  | [], w, kept => ([], w, kept)
  | d :: rest, w, kept =>
    let out := runScript d.script (Http.serve d.request kept) { w with now := d.now }
    let later := deliver rest out.2 out.1.1.2
    (out.1.1.1 :: later.1, later.2)

/-- Clients and tables cannot tell apart two runs whose failures differ in the messages of internal
ones: every answer is the same, and so are the tables, the tokens made and the counts at the end. -/
theorem internal_messages_hidden {deliveries deliveries' : List Delivery}
    (h : List.Forall₂ Delivery.Alike deliveries deliveries') (w : World)
    (kept : Option Http.Metrics) :
    deliver deliveries w kept = deliver deliveries' w kept := by
  induction h generalizing w kept with
  | nil => rfl
  | @cons d d' rest rest' hd _ ih =>
    obtain ⟨request, now, script⟩ := d
    obtain ⟨_, _, script'⟩ := d'
    obtain ⟨rfl, rfl, hscript⟩ := hd
    obtain ⟨hanswer, hworld⟩ :=
      runScript_alike (Http.paired_serve request kept) hscript (w := { w with now }) rfl
    unfold deliver
    simp only [hanswer, hworld, ih]

/-- A token for the administrator, which the storage fails to store. -/
def unstoredToken (message : String) : Delivery where
  request := ⟨"POST", "/system/token/create_token", some "application/json",
    .ofString "\x7b\"appId\":1\x7d"⟩
  now := ⟨1, 0⟩
  script := ⟨[⟨"tx.token_create_tx", .internal message, 0⟩], []⟩

/-- The message of the database does not show in the answer. -/
theorem message_of_unstoredToken_hidden :
    let w := (fresh ⟨0, 0⟩ fun _ => "made").session [.provision "root" ⟨0, 0⟩]
    let full := [unstoredToken "disk full"]
    let lost := [unstoredToken "connection lost"]
    List.Forall₂ Delivery.Alike full lost ∧ deliver full w none = deliver lost w none ∧
      (deliver full w none).1.map Http.Answer.status = [500] := by
  intro w full lost
  have halike : List.Forall₂ Delivery.Alike full lost :=
    .cons ⟨rfl, rfl, .cons ⟨rfl, rfl, .internal _ _⟩ .nil, rfl⟩ .nil
  exact ⟨halike, internal_messages_hidden halike w none, by decide +kernel⟩

end World
end AccessRegistry
