import AccessRegistry.Proofs.Borders
import AccessRegistry.Proofs.Keys
import AccessRegistry.Proofs.Trace

/-!
# AccessRegistry.Proofs.Protocol

The calls of the transaction that sets up a registry, whatever they are answered. They begin a fixed
list of seven, each made with the ids that the rows before it were given, and stop at the first
answer that leaves nothing to do (`run_protocol`).

* `calls`    — the seven calls.
* `settles?` — what an answer makes of the run, if the run does not go on after it.
* `Protocol` — the exchanges of a run, and how it ends.
-/

namespace AccessRegistry

open AccessRegistry.Action

namespace Provisioning

/-- What has been asked. -/
def asked (e : Exchange (Capability .baseline)) : (γ : Type) × Capability .baseline γ :=
  ⟨e.γ, e.call⟩

/-- The calls that set up a registry. -/
def calls (token : String) (c : Carried) : List ((γ : Type) × Capability .baseline γ) :=
  [⟨_, .tryLock (Lock.key Lock.baselineName)⟩,
    ⟨_, .getToken token⟩,
    ⟨_, .createDomain rootDomainName "" defaultSystemId⟩,
    ⟨_, .createAppGroup rootGroupName "" c.domainId⟩,
    ⟨_, .createApplication ⟨adminAppId, adminAppName, "", c.groupId, .system⟩⟩,
    ⟨_, .saveToken ⟨token, c.appId, neverExpires, c.createdAt⟩⟩,
    ⟨_, .upsertAccessList ⟨c.appId, adminLoginMethod, true⟩⟩]

/-- The ids of the rows that have been created are carried on. -/
def learn (c : Carried) : Exchange (Capability .baseline) → Carried
  | ⟨.createDomain .., .ok domain⟩ => { c with domainId := domain.id }
  | ⟨.createAppGroup .., .ok group⟩ => { c with groupId := group.id }
  | ⟨.createApplication _, .ok app⟩ => { c with appId := app.id }
  | _ => c

/-- What is carried after some exchanges. -/
def carried (createdAt : Instant) (es : List (Exchange (Capability .baseline))) : Carried :=
  es.foldl learn ⟨0, 0, 0, createdAt⟩

/-- What the run comes to once a call succeeds, if it does not go on. -/
def doneBy? {γ : Type} : Capability .baseline γ → γ → Option BaselineOutcome
  | .tryLock _, free => if free then none else some .skippedLockBusy
  | .getToken _, _ => some .skippedTokenPresent
  | .upsertAccessList _, _ => some .provisioned
  | .createDomain .., _ | .createAppGroup .., _ | .createApplication _, _ | .saveToken _, _ => none

/-- Whether the run goes on although a call fails. -/
def excuses {γ : Type} : Capability .baseline γ → Failure → Bool
  | .getToken _, f => f.isNotFound
  | .tryLock _, _ | .createDomain .., _ | .createAppGroup .., _ | .createApplication _, _
  | .saveToken _, _ | .upsertAccessList _, _ => false

/-- How an answer ends the run, if it does. -/
def settles? : Exchange (Capability .baseline) → Option (Except Failure BaselineOutcome)
  | ⟨call, .ok x⟩ => (doneBy? call x).map .ok
  | ⟨call, .error f⟩ => if excuses call f then none else some (.error f)

/-- The exchanges of a run, and how it ends. -/
structure Protocol (token : String) (es : List (Exchange (Capability .baseline)))
    (r : Except Failure BaselineOutcome) : Prop where
  /-- the calls come in their order, with the ids that were answered -/
  calls : ∃ createdAt, es.map asked <+: calls token (carried createdAt es)
  /-- the run goes on after every answer but the last one -/
  goesOn : ∀ e ∈ es.dropLast, settles? e = none
  ends : es.getLast?.bind settles? = some r

section Runs

variable {token : String} {before : List (Exchange (Capability .baseline))}

theorem Protocol.of_last {e : Exchange (Capability .baseline)}
    {r : Except Failure BaselineOutcome} (hbefore : ∀ e ∈ before, settles? e = none)
    (hcalls : ∃ createdAt,
      (before ++ [e]).map asked <+: Provisioning.calls token (carried createdAt (before ++ [e])))
    (he : settles? e = some r) : Protocol token (before ++ [e]) r where
  calls := hcalls
  goesOn := by rwa [List.dropLast_concat]
  ends := by rw [List.getLast?_concat, Option.bind_some, he]

/-- A call whose failure ends the run, and after which it goes on otherwise. -/
theorem Protocol.call_bind {γ : Type} {c : Capability .baseline γ}
    {k : γ → Work .baseline BaselineOutcome} (hbefore : ∀ e ∈ before, settles? e = none)
    (hfails : ∀ f, settles? ⟨c, .error f⟩ = some (.error f))
    (hcalls : ∀ f, ∃ createdAt, (before ++ [Exchange.mk c (.error f)]).map asked <+:
      Provisioning.calls token (carried createdAt (before ++ [Exchange.mk c (.error f)])))
    (hgoes : ∀ x, settles? ⟨c, .ok x⟩ = none)
    (hk : ∀ x, (∀ e ∈ before ++ [Exchange.mk c (.ok x)], settles? e = none) →
      Always (k x) fun es => Protocol token (before ++ [Exchange.mk c (.ok x)] ++ es)) :
    Always (call c >>= k) fun es => Protocol token (before ++ es) := by
  refine (always_call_bind _ _).2 ⟨fun x => ?_, fun f => .of_last hbefore (hcalls f) (hfails f)⟩
  have hnext := hk x (List.forall_mem_append.2 ⟨hbefore, List.forall_mem_singleton.2 (hgoes x)⟩)
  refine hnext.mono fun es r h => ?_
  rwa [List.append_assoc] at h

theorem createAll_protocol (token : String) {f : Failure} (hf : f.isNotFound = true) :
    Always (createAll token) fun es => Protocol token
      ([⟨.tryLock (Lock.key Lock.baselineName), .ok true⟩, ⟨.getToken token, .error f⟩] ++ es) := by
  have hbefore : ∀ e ∈ ([⟨.tryLock (Lock.key Lock.baselineName), .ok true⟩,
      ⟨.getToken token, .error f⟩] : List (Exchange (Capability .baseline))),
      settles? e = none := by
    simp [settles?, doneBy?, excuses, hf]
  unfold createAll
  -- a call that fails is the last one, so the ids it would have given need not be known
  refine Protocol.call_bind hbefore (fun _ => rfl) (fun _ => ⟨⟨0, 0⟩, _, rfl⟩) (fun _ => rfl)
    fun domain hdomain => ?_
  refine Protocol.call_bind hdomain (fun _ => rfl) (fun _ => ⟨⟨0, 0⟩, _, rfl⟩) (fun _ => rfl)
    fun group hgroup => ?_
  refine Protocol.call_bind hgroup (fun _ => rfl) (fun _ => ⟨⟨0, 0⟩, _, rfl⟩) (fun _ => rfl)
    fun app happ => ?_
  intro createdAt
  refine Protocol.call_bind happ (fun _ => rfl) (fun _ => ⟨createdAt, _, rfl⟩) (fun _ => rfl)
    fun _ htoken => ?_
  refine (always_call_bind _ _).2 ⟨fun n => ?_, fun f => ?_⟩
  · exact .of_last htoken ⟨createdAt, _, rfl⟩ rfl
  · exact .of_last htoken ⟨createdAt, _, rfl⟩ rfl

theorem work_protocol (token : String) : Always (work token) (Protocol token) := by
  unfold work
  refine (always_call_bind _ _).2 ⟨fun free => ?_, fun f => ?_⟩
  · cases free with
    | false => exact .of_last (List.forall_mem_nil _) ⟨⟨0, 0⟩, _, rfl⟩ rfl
    | true =>
      refine (always_bind _ _).2 ((always_attempt _).2 ((always_call _).2 fun found => ?_))
      have hbefore : ∀ e ∈ ([⟨.tryLock (Lock.key Lock.baselineName), .ok true⟩] :
          List (Exchange (Capability .baseline))), settles? e = none := by
        simp [settles?, doneBy?]
      cases found with
      | ok row => exact .of_last hbefore ⟨⟨0, 0⟩, _, rfl⟩ rfl
      | error f =>
        cases hf : f.isNotFound with
        | true =>
          have hrest := createAll_protocol token hf
          show Always (if f.isNotFound then createAll token else throw f) _
          rwa [if_pos hf]
        | false =>
          have hends : settles? ⟨.getToken token, .error f⟩ = some (.error f) := by
            simp [settles?, excuses, hf]
          show Always (if f.isNotFound then createAll token else throw f) _
          rw [if_neg (by simp [hf])]
          exact Protocol.of_last hbefore ⟨⟨0, 0⟩, _, rfl⟩ hends
  · exact .of_last (List.forall_mem_nil _) ⟨⟨0, 0⟩, _, rfl⟩ rfl

end Runs

/-- An empty token asks for nothing. Any other token asks for one transaction, and the run of its
work keeps the protocol whatever it is answered. -/
theorem run_protocol (token : String) :
    (token = "" → Always (run token) fun es r => es = [] ∧ r = .ok .disabled) ∧
      (token ≠ "" →
        Always (run token) fun es r => es = [⟨.transaction .baseline (work token), r⟩]) ∧
      Always (work token) (Protocol token) ∧
      (Lock.key Lock.baselineName).toInt = (Lock.fnv1a32
        (Lock.nameSpace.toUTF8.toList ++ Lock.baselineName.toUTF8.toList)).toNat := by
  refine ⟨?_, fun htoken => ?_, work_protocol token, Lock.toInt_key Lock.baselineName⟩
  · rintro rfl
    exact ⟨rfl, rfl⟩
  · have hempty : token.isEmpty = false := by
      simpa [String.isEmpty_iff] using htoken
    unfold run
    rw [hempty]
    exact fun r => rfl

theorem run_asks_unless_empty :
    Always (run "") (fun es r => es = [] ∧ r = .ok .disabled) ∧
      Always (run "root") fun es r => es = [⟨.transaction .baseline (work "root"), r⟩] :=
  ⟨(run_protocol "").1 rfl, (run_protocol "root").2.1 (by decide)⟩

end Provisioning

end AccessRegistry
