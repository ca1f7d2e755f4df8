import AccessRegistry.Sql.Peer
import AccessRegistry.Proofs.Request
import AccessRegistry.Proofs.Wire

/-!
# AccessRegistry.Proofs.Borders

Transactions over a connection, from BEGIN to COMMIT or ROLLBACK.

* `Job`        — the works of the six use cases, with their data.
* `Job.steps`  — the statements that a job is made of, in order, and what the reply to each of them
  means for the next ones.
* `Follows`    — statements that follow such steps: one after the other, until the work is over, has
  nothing left to do or fails.
* `Closes`     — how a transaction ends after work that is over or has failed.
* `transaction_borders` — every transaction of a use case goes this way, whatever is replied.
-/

namespace AccessRegistry

open Sql (Wire Message Query Reply Statement Border Connection.answer Connection.answerWork
  Connection.answerCall Connection.send Connection.transact Connection.outcome)
open AccessRegistry.Action

/-! ## The statements of each use case -/

/-- What a transaction does for its use case. -/
inductive Job : UseCase → Type → Type where
  | setPermission (row : AccessList) : Job .accessListSetOne Nat
  | setPermissions (req : SetListRequest) : Job .accessListSetList (List AccessList)
  | deleteApplications (ids : List Int32) : Job .applicationDelete Nat
  | storeToken (token : Token) : Job .tokenCreate Unit
  | revokeTokens (appId : Int32) (tokens : List String) : Job .tokenRevoke Nat
  | provision (token : String) : Job .baseline BaselineOutcome

def Job.work {u : UseCase} {α : Type} : Job u α → Work u α
  | .setPermission row => .call (.upsert row)
  | .setPermissions req => Permissions.replace req
  | .deleteApplications ids => .call (.deleteByIdList ids)
  | .storeToken token => .call (.save token)
  | .revokeTokens appId tokens => .call (.deleteByAppIdAndTokens appId tokens)
  | .provision token => Provisioning.work token

/-- A statement, and what becomes of the work after a reply to it. -/
structure Step where
  statement : Statement
  /-- the next statement is sent -/
  goes : Reply → Prop
  /-- nothing is left to do -/
  stops : Reply → Prop
  fails : Reply → Failure → Prop

/-- The work goes on after a reply that is read as a value with the property, and fails with the
failure that a reply is read as. -/
def Sql.Query.step {α : Type} (q : Query α) (goes : α → Prop) : Step where
  statement := q.statement
  goes r := ∃ x, q.read r = .ok x ∧ goes x
  stops _ := False
  fails r f := q.read r = .error f

/-- What the statements that set up the registry carry on: the ids of the rows before them, and the
time at which the token is made. -/
structure Carried where
  domainId : Int32
  groupId : Int32
  appId : Int32
  createdAt : Instant

namespace Job

/-- Nothing is done unless the lock is free. -/
def lockStep : Step :=
  let q := Query.tryLock (Lock.key Lock.baselineName)
  { q.step (· = true) with stops := fun r => q.read r = .ok false }

/-- Nothing is done if the token is there. That it is not there is no failure. -/
def tokenStep (token : String) : Step :=
  let q := Query.tokenByText token
  { statement := q.statement
    goes := fun r => ∃ f, q.read r = .error f ∧ f.isNotFound = true
    stops := fun r => ∃ t, q.read r = .ok t
    fails := fun r f => q.read r = .error f ∧ f.isNotFound = false }

/-- The five rows, each under the id that the one before it was given. -/
def createSteps (token : String) (c : Carried) : List Step :=
  [(Query.createDomain Provisioning.rootDomainName "" defaultSystemId).step (·.id = c.domainId),
    (Query.createGroup Provisioning.rootGroupName "" c.domainId).step (·.id = c.groupId),
    (Query.createApplication
      ⟨Provisioning.adminAppId, Provisioning.adminAppName, "", c.groupId, .system⟩).step
        (·.id = c.appId),
    (Query.saveToken ⟨token, c.appId, neverExpires, c.createdAt⟩).step fun _ => True,
    (Query.upsertAccessList ⟨c.appId, Provisioning.adminLoginMethod, true⟩).step fun _ => True]

def steps {u : UseCase} {α : Type} : Job u α → Carried → List Step
  | .setPermission row, _ => [(Query.upsertAccessList row).step fun _ => True]
  | .setPermissions req, _ =>
    (if req.removeOld then [(Query.deleteAccessLists req.appId).step fun _ => True] else []) ++
      (Query.deleteAccessListMethods req.appId (req.methods.map MethodValue.method)).step
        (fun _ => True) ::
      (if req.methods.isEmpty then []
        else [(Query.insertAccessLists req.appId
          (req.methods.map fun m => ⟨req.appId, m.method, m.value⟩)).step fun _ => True]) ++
      [(Query.accessLists req.appId).step fun _ => True]
  | .deleteApplications ids, _ => [(Query.deleteApplications ids).step fun _ => True]
  | .storeToken token, _ => [(Query.saveToken token).step fun _ => True]
  | .revokeTokens appId tokens, _ => [(Query.deleteTokens appId tokens).step fun _ => True]
  | .provision token, c => lockStep :: tokenStep token :: createSteps token c

end Job

/-- Statements with their replies that follow some steps, and the failure that ends them, if one
does. -/
inductive Follows : List Step → List (Statement × Reply) → Option Failure → Prop where
  | complete : Follows [] [] none
  | goes {step : Step} {rest : List Step} {r : Reply} {sent : List (Statement × Reply)}
      {failed : Option Failure} (h : step.goes r) (hrest : Follows rest sent failed) :
      Follows (step :: rest) ((step.statement, r) :: sent) failed
  | stops {step : Step} {rest : List Step} {r : Reply} (h : step.stops r) :
      Follows (step :: rest) [(step.statement, r)] none
  | fails {step : Step} {rest : List Step} {r : Reply} {f : Failure} (h : step.fails r f) :
      Follows (step :: rest) [(step.statement, r)] (some f)

/-- What is sent is the beginning of what the steps say. -/
theorem Follows.isPrefix {steps : List Step} {sent : List (Statement × Reply)}
    {failed : Option Failure} (h : Follows steps sent failed) :
    sent.map Prod.fst <+: steps.map Step.statement := by
  induction h with
  | complete => exact List.nil_prefix
  | goes _ _ ih => exact (List.prefix_cons_inj _).2 ih
  | stops | fails => exact (List.prefix_cons_inj _).2 List.nil_prefix

def messagesOf (sent : List (Statement × Reply)) : List Message :=
  sent.map fun s => .statement s.1 s.2

def failureOf? {α : Type} : Except Failure α → Option Failure
  | .ok _ => none
  | .error f => some f

/-- Work that sends what follows one of the plans, and fails where that fails. -/
def Performs {u : UseCase} {α : Type} (work : Work u α) (plans : List Step → Prop) : Prop :=
  Says Connection.answerWork work fun messages r => ∃ steps sent,
    plans steps ∧ messages = messagesOf sent ∧ Follows steps sent (failureOf? r)

namespace Performs

variable {u : UseCase} {α β : Type}

theorem mono {work : Work u α} {plans plans' : List Step → Prop} (h : Performs work plans)
    (hplans : ∀ steps, plans steps → plans' steps) : Performs work plans' :=
  Says.mono h fun _ _ ⟨steps, sent, hsteps, hsent⟩ => ⟨steps, sent, hplans steps hsteps, hsent⟩

theorem done (x : α) : Performs (pure x : Work u α) (· = []) := ⟨[], [], rfl, rfl, .complete⟩

theorem now_bind {k : Instant → Work u β} {plans : List Step → Prop}
    (hk : ∀ t, Performs (k t) plans) : Performs (Action.now >>= k) plans := fun t => hk t

theorem says_call {c : Capability u α} {q : Query α} (hq : Query.ofCapability c = .ok q)
    {P : List Message → Except Failure α → Prop} :
    Says Connection.answerWork (call c) P ↔ ∀ r, P [.statement q.statement r] (q.read r) := by
  rw [Action.says_call]
  unfold Connection.answerWork
  simp only [hq]
  exact Sql.says_send q

/-- A call, and work after it that depends on the value it is answered with. The value is what the
later steps of a plan are made from. -/
theorem call_bind {c : Capability u α} {q : Query α} (hq : Query.ofCapability c = .ok q)
    {k : α → Work u β} {plans : List Step → Prop}
    (hk : ∀ x, Performs (k x) fun rest => ∃ goes, goes x ∧ plans (q.step goes :: rest))
    (hfails : ∃ goes rest, plans (q.step goes :: rest)) :
    Performs (call c >>= k) plans := by
  refine (Action.says_bind _ _).2 ((says_call hq).2 fun r => ?_)
  cases hread : q.read r with
  | ok x =>
    refine Says.mono (hk x) fun messages result ⟨rest, sent, ⟨goes, hx, hplans⟩, hsent, hrest⟩ => ?_
    refine ⟨_, (q.statement, r) :: sent, hplans, ?_, .goes ⟨x, hread, hx⟩ hrest⟩
    rw [hsent]
    rfl
  | error f =>
    obtain ⟨goes, rest, hplans⟩ := hfails
    exact ⟨_, [(q.statement, r)], hplans, rfl, .fails hread⟩

/-- A call whose value does not matter for the statements after it. -/
theorem call_then {c : Capability u α} {q : Query α} (hq : Query.ofCapability c = .ok q)
    {k : α → Work u β} {rest : List Step} (hk : ∀ x, Performs (k x) (· = rest)) :
    Performs (call c >>= k) (· = q.step (fun _ => True) :: rest) :=
  call_bind hq (fun x => (hk x).mono fun _ h => ⟨fun _ => True, trivial, by rw [h]⟩) ⟨_, rest, rfl⟩

theorem last {c : Capability u α} {q : Query α} (hq : Query.ofCapability c = .ok q) :
    Performs (call c) (· = [q.step fun _ => True]) := by
  refine (says_call hq).2 fun r => ⟨_, [(q.statement, r)], rfl, rfl, ?_⟩
  cases hread : q.read r with
  | ok x => exact .goes ⟨x, hread, trivial⟩ .complete
  | error f => exact .fails hread

end Performs

/-! ## The work of the use cases -/

/-- Without entries to add, no statement adds any. -/
theorem Permissions.replace_performs (req : SetListRequest) (c : Carried) :
    Performs (replace req) (· = (Job.setPermissions req).steps c) := by
  have hadd : Performs (do
      let _ ← Action.call (.insertAll (req.methods.map fun m => ⟨req.appId, m.method, m.value⟩))
      Action.call (.getByAppId req.appId))
      (· = (if req.methods.isEmpty then [] else [(Query.insertAccessLists req.appId
        (req.methods.map fun m => ⟨req.appId, m.method, m.value⟩)).step fun _ => True]) ++
        [(Query.accessLists req.appId).step fun _ => True]) := by
    cases req.methods with
    | nil => exact .last rfl
    | cons m methods => exact .call_then rfl fun _ => .last rfl
  unfold replace
  cases hold : req.removeOld with
  | true =>
    simp only [Job.steps, hold, if_true]
    exact .call_then rfl fun _ => .call_then rfl fun _ => hadd
  | false =>
    simp only [Job.steps, hold, Bool.false_eq_true, if_false]
    exact .call_then rfl fun _ => hadd

/-- The ids that the rows are given are those that the later statements carry. -/
theorem Provisioning.createAll_performs (token : String) (c : Carried) :
    Performs (createAll token) fun steps => ∃ c, steps = Job.createSteps token c := by
  -- each answer fixes one id of the plan, so a plan for a call that fails may carry any
  refine .call_bind rfl (fun domain => ?_) ⟨_, _, c, rfl⟩
  refine .mono (?_ : Performs _ fun rest => ∃ c : Carried, domain.id = c.domainId ∧
    rest = (Job.createSteps token c).tail) fun _ ⟨c, hid, hrest⟩ =>
    ⟨(·.id = c.domainId), hid, c, by rw [hrest]; rfl⟩
  refine .call_bind rfl (fun group => ?_) ⟨_, _, { c with domainId := domain.id }, rfl, rfl⟩
  refine .mono (?_ : Performs _ fun rest => ∃ c : Carried, domain.id = c.domainId ∧
    group.id = c.groupId ∧ rest = (Job.createSteps token c).tail.tail)
    fun _ ⟨c, hdomain, hid, hrest⟩ =>
      ⟨(·.id = c.groupId), hid, c, hdomain, by rw [hrest, hdomain]; rfl⟩
  refine .call_bind rfl (fun app => ?_)
    ⟨_, _, { c with domainId := domain.id, groupId := group.id }, rfl, rfl, rfl⟩
  refine .now_bind fun createdAt => ?_
  refine .mono (.call_then rfl fun _ => .call_then rfl fun _ => .done _) fun rest hrest => ?_
  exact ⟨(·.id = app.id), rfl, ⟨domain.id, group.id, app.id, createdAt⟩, rfl, rfl,
    by rw [hrest]; rfl⟩

/-- A busy lock and a stored token leave nothing to do. -/
theorem Provisioning.work_performs (token : String) (c : Carried) :
    Performs (work token) fun steps => ∃ c, steps = (Job.provision token).steps c := by
  refine (Action.says_bind _ _).2 ((Performs.says_call rfl).2 fun r => ?_)
  let lock := Query.tryLock (Lock.key Lock.baselineName)
  cases hlock : lock.read r with
  | error f => exact ⟨_, [(lock.statement, r)], ⟨c, rfl⟩, rfl, .fails hlock⟩
  | ok free =>
    cases free with
    | false => exact ⟨_, [(lock.statement, r)], ⟨c, rfl⟩, rfl, .stops hlock⟩
    | true =>
      refine (says_attempt_bind _ _).2 ((Performs.says_call rfl).2 fun r' => ?_)
      let stored := Query.tokenByText token
      have hgo : Job.lockStep.goes r := ⟨true, hlock, rfl⟩
      cases htoken : stored.read r' with
      | ok t =>
        exact ⟨_, [(lock.statement, r), (stored.statement, r')], ⟨c, rfl⟩, rfl,
          .goes hgo (.stops ⟨t, htoken⟩)⟩
      | error f =>
        -- only a failure to look for the token ends the work; a token that is missing is made
        cases hf : f.isNotFound with
        | false =>
          simp only [hf, Bool.false_eq_true, if_false]
          exact ⟨_, [(lock.statement, r), (stored.statement, r')], ⟨c, rfl⟩, rfl,
            .goes hgo (.fails ⟨htoken, hf⟩)⟩
        | true =>
          simp only [hf, if_true]
          refine Says.mono (createAll_performs token c) fun messages result => ?_
          rintro ⟨_, sent, ⟨c, rfl⟩, rfl, hfollows⟩
          exact ⟨_, (lock.statement, r) :: (stored.statement, r') :: sent, ⟨c, rfl⟩, rfl,
            .goes hgo (.goes ⟨f, htoken, hf⟩ hfollows)⟩

theorem Job.performs {u : UseCase} {α : Type} (job : Job u α) :
    Performs job.work fun steps => ∃ c, steps = job.steps c := by
  -- only the set-up carries anything, all other jobs have the same steps for any `c`
  let c : Carried := ⟨0, 0, 0, ⟨0, 0⟩⟩
  have hone {work : Work u α} {step : Step} (h : Performs work (· = [step]))
      (hsteps : ∀ c, job.steps c = [step]) : Performs work fun steps => ∃ c, steps = job.steps c :=
    h.mono fun steps hs => ⟨c, hs.trans (hsteps c).symm⟩
  cases job with
  | setPermissions req =>
    exact (Permissions.replace_performs req c).mono fun steps hs => ⟨c, hs⟩
  | provision token => exact Provisioning.work_performs token c
  | _ => exact hone (.last rfl) fun _ => rfl

/-! ## The borders -/

/-- How a transaction ends whose work is over or has failed, and what its caller gets. -/
inductive Closes {α : Type} : Option Failure → List Message → Except Failure α → Prop where
  | committed (x : α) : Closes none [.border .commit none] (.ok x)
  | notCommitted (e : Sql.Error) (again : Option Sql.Error) :
      Closes none [.border .commit (some e), .border .rollback again] (.error e.toFailure)
  | rolledBack (f : Failure) : Closes (some f) [.border .rollback none] (.error f)
  | notRolledBack (f : Failure) (e : Sql.Error) (again : Option Sql.Error) :
      Closes (some f) [.border .rollback (some e), .border .rollback again] (.error f)

/-- The messages of a transaction and its result. -/
inductive Bordered {u : UseCase} {α : Type} (job : Job u α) :
    List Message → Except Failure α → Prop where
  | notBegun (e : Sql.Error) : Bordered job [.border .begin (some e)] (.error e.toFailure)
  | begun {c : Carried} {sent : List (Statement × Reply)} {failed : Option Failure}
      {closing : List Message} {result : Except Failure α}
      (hsent : Follows (job.steps c) sent failed) (hclose : Closes failed closing result) :
      Bordered job (.border .begin none :: (messagesOf sent ++ closing)) result

/-- What a transaction says: its work between the borders, unless it does not begin. -/
theorem says_transact {u : UseCase} {ρ : Type} {work : Program (Effect (Capability u)) ρ}
    {commits : ρ → Bool} {P : List Message → Sql.Settled ρ → Prop}
    (hbegin : ∀ e, P [.border .begin (some e)] (.notBegun e))
    (hwork : (work.run Connection.answerWork).Says fun messages r =>
      (commits r = true → P (.border .begin none :: (messages ++ [.border .commit none])) (.done r) ∧
        ∀ e again, P (.border .begin none ::
          (messages ++ [.border .commit (some e), .border .rollback again])) (.notCommitted r e)) ∧
      (commits r = false →
        P (.border .begin none :: (messages ++ [.border .rollback none])) (.done r) ∧
        ∀ e again, P (.border .begin none ::
          (messages ++ [.border .rollback (some e), .border .rollback again])) (.done r))) :
    (Connection.transact work commits).Says P := by
  intro refused
  cases refused with
  | some e => exact hbegin e
  | none =>
    refine (Program.says_bind (work.run _) _ _).2 (hwork.mono fun messages r hr => ?_)
    cases hcommits : commits r with
    | true =>
      obtain ⟨hcommitted, hnot⟩ := hr.1 hcommits
      simp only [if_true]
      rintro (_ | e)
      · exact hcommitted
      · exact hnot e
    | false =>
      obtain ⟨hrolled, hnot⟩ := hr.2 hcommits
      simp only [Bool.false_eq_true, if_false]
      rintro (_ | e)
      · exact hrolled
      · exact hnot e

theorem Job.bordered {u : UseCase} {α : Type} (job : Job u α) :
    (Connection.answerCall (.transaction u job.work)).Says (Bordered job) := by
  refine (Program.says_bind_done _ Connection.outcome _).2
    (says_transact (fun e => .notBegun e) (Says.mono job.performs fun messages r => ?_))
  rintro ⟨_, sent, ⟨c, rfl⟩, rfl, hfollows⟩
  cases r with
  | ok x =>
    refine ⟨fun _ => ⟨?_, fun e again => ?_⟩, fun h => nomatch h⟩
    · exact .begun hfollows (.committed x)
    · exact .begun hfollows (.notCommitted e again)
  | error f =>
    refine ⟨fun h => (nomatch h), fun _ => ⟨?_, fun e again => ?_⟩⟩
    · exact .begun hfollows (.rolledBack f)
    · exact .begun hfollows (.notRolledBack f e again)

/-! ## Counting transactions -/

namespace Sql

def Message.isBegin : Message → Bool
  | .border .begin _ => true
  | _ => false

/-- A transaction that took effect. -/
def Message.isCommit : Message → Bool
  | .border .commit none => true
  | _ => false

/-- How many transactions were asked for. -/
def begins (messages : List Message) : Nat := messages.countP Message.isBegin

/-- How many transactions took effect. -/
def commits (messages : List Message) : Nat := messages.countP Message.isCommit

@[simp]
theorem begins_cons (m : Message) (messages : List Message) :
    begins (m :: messages) = begins messages + if m.isBegin then 1 else 0 := List.countP_cons

@[simp]
theorem commits_cons (m : Message) (messages : List Message) :
    commits (m :: messages) = commits messages + if m.isCommit then 1 else 0 := List.countP_cons

@[simp]
theorem begins_append (messages more : List Message) :
    begins (messages ++ more) = begins messages + begins more := List.countP_append

@[simp]
theorem commits_append (messages more : List Message) :
    commits (messages ++ more) = commits messages + commits more := List.countP_append

@[simp]
theorem begins_messagesOf (sent : List (Statement × Reply)) : begins (messagesOf sent) = 0 := by
  simp [begins, messagesOf, Message.isBegin]

@[simp]
theorem commits_messagesOf (sent : List (Statement × Reply)) :
    commits (messagesOf sent) = 0 := by
  simp [commits, messagesOf, Message.isCommit]

end Sql

open Sql (begins commits)

/-- A transaction begins once, and takes effect once at most, and only if its caller gets a value. -/
theorem Bordered.counts {u : UseCase} {α : Type} {job : Job u α} {messages : List Message}
    {r : Except Failure α} (h : Bordered job messages r) :
    begins messages = 1 ∧ commits messages ≤ 1 ∧ ∀ f, r = .error f → commits messages = 0 := by
  cases h with
  | notBegun e => exact ⟨rfl, Nat.zero_le 1, fun _ _ => rfl⟩
  | @begun c sent failed closing _ hsent hclose =>
    simp only [Sql.begins_cons, Sql.commits_cons, Sql.begins_append, Sql.commits_append,
      Sql.begins_messagesOf, Sql.commits_messagesOf, Nat.zero_add]
    cases hclose with
    | committed x => exact ⟨rfl, Nat.le_refl 1, fun f hf => nomatch hf⟩
    | notCommitted | rolledBack | notRolledBack => exact ⟨rfl, Nat.zero_le 1, fun _ _ => rfl⟩

def OpensNone {α : Type} (a : Rule α) : Prop :=
  Says Connection.answer a fun messages _ => begins messages = 0 ∧ commits messages = 0

namespace OpensNone

variable {α β : Type}

theorem pure (x : α) : OpensNone (pure x) := ⟨rfl, rfl⟩

/-- A call outside transactions is one statement. -/
theorem call {c : Port α} {q : Query α} (hc : Connection.answerCall c = Connection.send q) :
    OpensNone (Action.call c) := by
  refine (says_call c).2 ?_
  rw [show Connection.answer _ (.call c) = Connection.send q from hc]
  exact fun _ => ⟨rfl, rfl⟩

theorem bind {a : Rule α} (h : OpensNone a) {k : α → Rule β} (hk : ∀ x, OpensNone (k x)) :
    OpensNone (a >>= k) := by
  refine (says_bind _ _).2 (Says.mono h fun messages r hr => ?_)
  cases r with
  | error f => exact hr
  | ok x =>
    refine Says.mono (hk x) fun more _ hmore => ?_
    simp [hr, hmore]

end OpensNone

/-- What begins no transaction may come first. -/
theorem Says.after {α β : Type} {a : Rule α} (h : OpensNone a) {k : α → Rule β}
    {opens effects : Nat}
    (hk : ∀ x, Says Connection.answer (k x) fun messages _ =>
      begins messages ≤ opens ∧ commits messages ≤ effects) :
    Says Connection.answer (a >>= k) fun messages _ =>
      begins messages ≤ opens ∧ commits messages ≤ effects := by
  refine (says_bind _ _).2 (Says.mono h fun messages r hr => ?_)
  cases r with
  | error f => simp [hr]
  | ok x =>
    refine Says.mono (hk x) fun more _ hmore => ?_
    simpa [hr] using hmore

namespace Credentials

theorem says_issueOnce (appId : Int32) (lifetime : Int64) :
    Says Connection.answer (issueOnce appId lifetime) fun messages r =>
      begins messages ≤ 1 ∧ commits messages ≤ 1 ∧ ∀ f, r = .error f → commits messages = 0 := by
  refine (says_bind _ _).2 ((says_mint rfl).2 fun text => ?_)
  refine (says_bind _ _).2 ((says_now rfl).2 fun createdAt => ?_)
  refine (says_call _).2 ?_
  exact (Job.storeToken ⟨text, appId, lifetime, createdAt⟩).bordered.mono fun messages r h =>
    ⟨Nat.le_of_eq h.counts.1, h.counts.2⟩

/-- A further attempt follows a transaction that took no effect. -/
theorem says_issue (appId : Int32) (lifetime : Int64) (retries : Nat) :
    Says Connection.answer (issue appId lifetime retries) fun messages r =>
      begins messages ≤ retries + 1 ∧ commits messages ≤ 1 ∧
        ∀ f, r = .error f → commits messages = 0 := by
  induction retries with
  | zero => exact says_issueOnce appId lifetime
  | succ retries ih =>
    refine (says_attempt_bind _ _).2 (Says.mono (says_issueOnce appId lifetime) ?_)
    rintro messages r ⟨hbegins, hcommits, herror⟩
    split
    · -- the text is taken: nothing took effect yet
      have hnone := herror _ rfl
      refine Says.mono ih fun more r hmore => ?_
      simp only [Sql.begins_append, Sql.commits_append, hnone, Nat.zero_add]
      exact ⟨by omega, hmore.2⟩
    · refine (says_liftExcept _).2 ?_
      rw [List.append_nil]
      exact ⟨Nat.le_trans hbegins (Nat.le_add_left _ _), hcommits, herror⟩

theorem getById_opensNone (id : Int32) : OpensNone (Applications.getById id) :=
  .bind (.call rfl) fun _ => .bind (.call rfl) fun _ => .pure _

theorem create_says (appId : Int32) (lifetime : Int64) :
    Says Connection.answer (create appId lifetime) fun messages _ =>
      begins messages ≤ generateAttempts ∧ commits messages ≤ 1 := by
  unfold create
  split
  · exact ⟨Nat.zero_le _, Nat.zero_le _⟩
  refine Says.after (.call rfl) fun app => Says.after (.call rfl) fun group => ?_
  refine Says.after (.call rfl) fun _ => ?_
  refine (says_bind _ _).2 (Says.mono (says_issue appId lifetime _) fun messages r hr => ?_)
  cases r with
  | error f => exact ⟨hr.1, hr.2.1⟩
  | ok _ =>
    refine Says.mono (getById_opensNone appId) fun more _ hmore => ?_
    simp only [Sql.begins_append, Sql.commits_append, hmore, Nat.add_zero]
    exact ⟨hr.1, hr.2.1⟩

end Credentials

/-- Whatever the peer answers, a request for a token asks for few transactions. -/
theorem Http.serve_says (r : Http.Request) (kept : Option Http.Metrics)
    (hpath : r.path = "/system/token/create_token") :
    ((Http.serve r kept).run Connection.answer).Says fun messages _ =>
      begins messages ≤ Credentials.generateAttempts ∧ commits messages ≤ 1 := by
  have hquiet {ρ : Type} (a : ρ) : ((.done a : Program (Effect Port) ρ).run Connection.answer).Says
      fun messages _ => begins messages ≤ Credentials.generateAttempts ∧ commits messages ≤ 1 :=
    ⟨Nat.zero_le _, Nat.zero_le _⟩
  obtain ⟨e, hat, hhandle⟩ : ∃ e : Http.Endpoint,
      Http.Resource.at? "/system/token/create_token" = some (.operation e) ∧
      ∀ r, e.handle r = match Http.Endpoint.readBody Http.Body.createToken r with
        | .ok a => Http.Endpoint.answer (ApplicationWithTokens.toJson <$> Credentials.create a.1 a.2)
        | .error message => .done (.malformed message) := by
    refine ⟨_, rfl, fun r => ?_⟩
    simp only [Http.Endpoint.reading]
    cases Http.Endpoint.readBody Http.Body.createToken r <;> rfl
  have hanswer : ((Http.answer kept r).run Connection.answer).Says fun messages _ =>
      begins messages ≤ Credentials.generateAttempts ∧ commits messages ≤ 1 := by
    unfold Http.answer
    rw [hpath, hat]
    dsimp only
    split
    · refine (Program.says_run_bind_done _ (e.handle r) (Http.Answer.forMethod r.method) _).2 ?_
      rw [hhandle]
      split
      · refine (Program.says_run_bind_done _ _ Http.Answer.ofResult _).2 ?_
        exact (says_map _ _).2 (Credentials.create_says _ _)
      · exact hquiet _
    · exact hquiet _
  exact (Program.says_run_bind_done _ (Http.answer kept r)
    (fun a => (a, kept.map (Http.count r a))) _).2 hanswer

/-- Every transaction of the six use cases, whatever the peer answers: nothing follows a BEGIN that
fails. After one that succeeds come the first statements of the use case up to the first that fails,
or all of them unless nothing is left to do; then COMMIT if the work succeeded and ROLLBACK if not,
and one more ROLLBACK if that fails. The caller gets a value only if the COMMIT succeeds, the failure
of the COMMIT if that fails, and otherwise the failure of the work. A request for a token asks for
at most three transactions, one of which takes effect at most. -/
theorem transaction_borders :
    (∀ {u : UseCase} {α : Type} (job : Job u α),
      (Connection.answerCall (.transaction u job.work)).Says fun messages result =>
        (∃ e, messages = [.border .begin (some e)] ∧ result = .error e.toFailure) ∨
        ∃ (c : Carried) (sent : List (Statement × Reply)) (failed : Option Failure)
          (closing : List Message),
          messages = .border .begin none :: (messagesOf sent ++ closing) ∧
          sent.map Prod.fst <+: (job.steps c).map Step.statement ∧
          Follows (job.steps c) sent failed ∧ Closes failed closing result) ∧
    ∀ (r : Http.Request) (kept : Option Http.Metrics), r.path = "/system/token/create_token" →
      ((Http.serve r kept).run Connection.answer).Says fun messages _ =>
        begins messages ≤ 3 ∧ commits messages ≤ 1 := by
  refine ⟨fun job => job.bordered.mono fun messages result h => ?_, Http.serve_says⟩
  cases h with
  | notBegun e => exact .inl ⟨e, rfl, rfl⟩
  | begun hsent hclose => exact .inr ⟨_, _, _, _, rfl, hsent.isPrefix, hsent, hclose⟩

/-- A request for a token of application 1. -/
def tokenRequest : Http.Request where
  method := "POST"
  target := "/system/token/create_token"
  contentType := some "application/json"
  body := Json.Source.ofString "\x7b\"appId\":1\x7d"

/-- A database that has the application and fails every COMMIT, for a token that is there. -/
def takenPeer : Sql.Peer where
  replies :=
    [.rows [[("id", .int 1), ("name", .text "a"), ("description", .text ""),
      ("application_group_id", .int 1), ("type", .text "SYSTEM"), ("created_at", .time ⟨0, 0⟩),
      ("updated_at", .time ⟨0, 0⟩)]],
    .rows [[("id", .int 1), ("name", .text "g"), ("description", .text ""), ("domain_id", .int 1),
      ("created_at", .time ⟨0, 0⟩), ("updated_at", .time ⟨0, 0⟩)]],
    .rows [[("id", .int 1), ("name", .text "d"), ("description", .text ""), ("system_id", .int 1),
      ("created_at", .time ⟨0, 0⟩), ("updated_at", .time ⟨0, 0⟩)]]]
  borderErrors := [(.commit, .reported (some "token_pkey") "taken")]
  sent := []
  now := ⟨0, 0⟩
  mint := fun _ => "made"
  minted := 0

/-- Three attempts to store a token that is there already, and no fourth. -/
theorem three_transactions_for_token :
    tokenRequest.path = "/system/token/create_token" ∧
    ((Http.serve tokenRequest none).run Connection.answer).Says (fun messages _ =>
      begins messages ≤ 3 ∧ commits messages ≤ 1) ∧
    let sent := ((((Http.serve tokenRequest none).run Connection.answer).run Sql.Peer.answer).run
      takenPeer).2.sent
    (sent.map Statement.text).countP (· == "BEGIN") = 3 :=
  ⟨by decide +kernel, transaction_borders.2 tokenRequest none (by decide +kernel),
    by decide +kernel⟩

/-- What a peer is sent for a job. -/
def sentFor {u : UseCase} {α : Type} (job : Job u α) (peer : Sql.Peer) : List Statement :=
  (((Connection.answerCall (.transaction u job.work)).run Sql.Peer.answer).run peer).2.sent

/-- A COMMIT that fails is followed by a ROLLBACK, so that the transaction has both. A lookup that
finds no token fails, and statements follow it. -/
theorem statements_after_failures :
    let deleted := sentFor (Job.deleteApplications [1]) { takenPeer with replies := [.count 1] }
    let free : Reply := .rows [[("pg_try_advisory_xact_lock", .bool true)]]
    let made := sentFor (Job.provision "t") { takenPeer with replies := [free, .rows []] }
    let lookup := Query.tokenByText "t"
    deleted.map Statement.text =
        ["BEGIN", "DELETE FROM application WHERE id = ANY($1)", "COMMIT", "ROLLBACK"] ∧
      (deleted.filter fun s =>
        s.text = Border.commit.text ∨ s.text = Border.rollback.text).length ≠ 1 ∧
      (lookup.read (.rows [])).toOption = none ∧
      made.map Statement.text = ["BEGIN", (Query.tryLock 0).statement.text, lookup.statement.text,
        (Query.createDomain "" "" 0).statement.text, "ROLLBACK"] := by
  decide +kernel

end AccessRegistry
