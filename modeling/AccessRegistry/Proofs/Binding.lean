import AccessRegistry.Proofs.Borders
import AccessRegistry.Proofs.Lawful
import AccessRegistry.Proofs.SchemaName

/-!
# AccessRegistry.Proofs.Binding

What the registry sends to a database has one text for each operation. What a caller hands over is
bound to the places of the text, in the order in which the operation declares it, and is not part of
it.

* `Argument`           — a value that is handed over, and the parameter that it is bound as.
* `Sql.texts`          — the texts, by the names of the operations.
* `Port.sendsOnce`     — a call sends the text of its name with its arguments bound.
* `sendsListed_run`    — nothing but these texts is sent, whatever a program asks for.
* `requests_are_bound` — all of it, with what rows are bound as, and the one text that is built from
  a value: the statement for the schema.
-/

namespace AccessRegistry

open Sql

/-! ## Arguments -/

inductive Argument where
  | id (n : Int32)
  | long (n : Int64)
  | text (s : String)
  | flag (b : Bool)
  | time (t : Instant)
  | ids (ns : List Int32)
  | texts (ss : List String)
  | flags (bs : List Bool)

/-- What an argument is bound as. A time is bound as it is, and cut to the microsecond by the driver
when it encodes it. -/
def Argument.param : Argument → Param
  | .id n => .int n.toInt
  | .long n => .int n.toInt
  | .text s => .text s
  | .flag b => .bool b
  | .time t => .instant t
  | .ids ns => .ints (ns.map Int32.toInt)
  | .texts ss => .texts ss
  | .flags bs => .bools bs

/-- The driver cuts nothing off a time in whole microseconds. -/
theorem Argument.param_time {seconds : Int} {micros : Nat} (hmicros : micros < 1000000) :
    Argument.param (.time ⟨seconds, micros * 1000⟩) = .time ⟨seconds, micros * 1000⟩ := by
  have hnanos : Instant.totalNanos ⟨seconds, micros * 1000⟩ -
      Param.epoch * Instant.nanosPerSecond =
        1000 * (seconds * 1000000 + micros - Param.epoch * 1000000) := by
    unfold Instant.totalNanos Instant.nanosPerSecond
    dsimp only
    omega
  have htotal : (Instant.totalNanos ⟨seconds, micros * 1000⟩ -
      Param.epoch * Instant.nanosPerSecond).tdiv 1000 + Param.epoch * 1000000 =
        seconds * 1000000 + micros := by
    rw [hnanos, Int.mul_tdiv_cancel_left _ (by decide), Int.sub_add_cancel]
  have hseconds : (seconds * 1000000 + micros) / 1000000 = seconds := by omega
  have hrest : ((seconds * 1000000 + micros) % 1000000).toNat = micros := by omega
  simp only [Argument.param, Param.instant]
  rw [htotal, hseconds, hrest]

/-- The arguments of a call, as it declares them. An id that stays is handed over twice. -/
def Port.arguments {γ : Type} : Port γ → List Argument
  | .domainById id | .groupById id | .applicationById id => [.id id]
  | .domainsByIds ids | .groupsByIds ids | .applicationsByIds ids => [.ids ids]
  | .domainsBySystem systemId => [.id systemId]
  | .domainByName name parentId | .groupByName name parentId | .applicationByName name parentId =>
    [.text name, .id parentId]
  | .createDomain name description parentId | .createGroup name description parentId =>
    [.text name, .text description, .id parentId]
  | .updateDomain id name description | .updateGroup id name description =>
    [.id id, .text name, .text description]
  | .deleteDomains ids | .deleteGroups ids => [.ids ids]
  | .groupsByDomains parentIds | .applicationsByGroups parentIds => [.ids parentIds]
  | .createApplication app =>
    [.id app.id, .text app.name, .text app.description, .id app.applicationGroupId,
      .text app.type.text]
  | .updateApplication id name description => [.id id, .id id, .text name, .text description]
  | .updateApplicationId oldId newId name description =>
    [.id oldId, .id newId, .text name, .text description]
  | .tokenByText token | .authData token => [.text token]
  | .tokensByApplication appId | .accessLists appId => [.id appId]
  | .tokensByApplications appIds => [.ids appIds]
  | .accessList appId method => [.id appId, .text method]
  | .deleteAccessLists appId methods => [.id appId, .texts methods]
  | .ping | .allGroups | .allApplications | .nextApplicationId | .transaction .. => []

namespace Capability

variable {u : UseCase} {γ : Type}

/-- The arguments of a statement of a transaction. Rows that are added belong to the application of
the first one. -/
def arguments : Capability u γ → List Argument
  | .upsert row | .upsertAccessList row => [.id row.appId, .text row.method, .flag row.value]
  | .deleteByAppId appId | .getByAppId appId => [.id appId]
  | .deleteByAppIdAndMethods appId methods => [.id appId, .texts methods]
  | .insertAll rows =>
    (rows.map fun row => Argument.id row.appId).take 1 ++
      [.texts (rows.map AccessList.method), .flags (rows.map AccessList.value)]
  | .deleteByIdList ids => [.ids ids]
  | .save token | .saveToken token =>
    [.text token.token, .id token.appId, .long token.expireTime, .time token.createdAt]
  | .deleteByAppIdAndTokens appId tokens => [.id appId, .texts tokens]
  | .tryLock key => [.long key]
  | .getToken token => [.text token]
  | .createDomain name description parentId | .createAppGroup name description parentId =>
    [.text name, .text description, .id parentId]
  | .createApplication app =>
    [.id app.id, .text app.name, .text app.description, .id app.applicationGroupId,
      .text app.type.text]

/-- Whether a statement is sent at all: adding no rows needs none. -/
def sends : Capability u γ → Bool
  | .insertAll rows => !rows.isEmpty
  | _ => true

end Capability

/-! ## Texts -/

namespace Sql

/-- The text of each call, in the order of the calls. -/
def portTexts : List (String × String) := [
  ("storage.ping", Query.ping.statement.text),
  ("domains.get_by_id", (Query.domainById 0).statement.text),
  ("domains.get_by_id_list", (Query.domainsByIds []).statement.text),
  ("domains.get_by_system_id", (Query.domainsBySystem 0).statement.text),
  ("domains.get_by_name_and_system_id", (Query.domainByName "" 0).statement.text),
  ("domains.create", (Query.createDomain "" "" 0).statement.text),
  ("domains.update", (Query.updateDomain 0 "" "").statement.text),
  ("domains.delete_by_id_list", (Query.deleteDomains []).statement.text),
  ("app_groups.get_by_id", (Query.groupById 0).statement.text),
  ("app_groups.get_by_id_list", (Query.groupsByIds []).statement.text),
  ("app_groups.get_by_domain_ids", (Query.groupsByDomains []).statement.text),
  ("app_groups.get_all", Query.allGroups.statement.text),
  ("app_groups.get_by_name_and_domain_id", (Query.groupByName "" 0).statement.text),
  ("app_groups.create", (Query.createGroup "" "" 0).statement.text),
  ("app_groups.update", (Query.updateGroup 0 "" "").statement.text),
  ("app_groups.delete_by_id_list", (Query.deleteGroups []).statement.text),
  ("applications.get_by_id", (Query.applicationById 0).statement.text),
  ("applications.get_by_id_list", (Query.applicationsByIds []).statement.text),
  ("applications.get_by_app_group_ids", (Query.applicationsByGroups []).statement.text),
  ("applications.get_by_name_and_app_group_id", (Query.applicationByName "" 0).statement.text),
  ("applications.get_all", Query.allApplications.statement.text),
  ("applications.next_id", Query.nextApplicationId.statement.text),
  ("applications.create", (Query.createApplication ⟨0, "", "", 0, .system⟩).statement.text),
  ("applications.update", (Query.updateApplication 0 0 "" "").statement.text),
  ("applications.update_with_new_id", (Query.updateApplication 0 0 "" "").statement.text),
  ("tokens.get_by_token", (Query.tokenByText "").statement.text),
  ("tokens.get_by_app_id", (Query.tokensByApplication 0).statement.text),
  ("tokens.get_by_app_ids", (Query.tokensByApplications []).statement.text),
  ("tokens.select_auth_data_by_token", (Query.authData "").statement.text),
  ("access_lists.get_by_app_id", (Query.accessLists 0).statement.text),
  ("access_lists.get_by_app_id_and_method", (Query.accessList 0 "").statement.text),
  ("access_lists.delete_by_app_id_and_methods",
    (Query.deleteAccessListMethods 0 []).statement.text)]

/-- The text of each statement of a transaction, in the order of the statements. -/
def capabilityTexts : List (String × String) := [
  ("upsert", (Query.upsertAccessList ⟨0, "", false⟩).statement.text),
  ("delete_by_app_id", (Query.deleteAccessLists 0).statement.text),
  ("delete_by_app_id_and_methods", (Query.deleteAccessListMethods 0 []).statement.text),
  ("insert_all", (Query.insertAccessLists 0 []).statement.text),
  ("get_by_app_id", (Query.accessLists 0).statement.text),
  ("delete_by_id_list", (Query.deleteApplications []).statement.text),
  ("save", (Query.saveToken ⟨"", 0, 0, ⟨0, 0⟩⟩).statement.text),
  ("delete_by_app_id_and_tokens", (Query.deleteTokens 0 []).statement.text),
  ("try_lock", (Query.tryLock 0).statement.text),
  ("get_token", (Query.tokenByText "").statement.text),
  ("create_domain", (Query.createDomain "" "" 0).statement.text),
  ("create_app_group", (Query.createGroup "" "" 0).statement.text),
  ("create_application", (Query.createApplication ⟨0, "", "", 0, .system⟩).statement.text),
  ("save_token", (Query.saveToken ⟨"", 0, 0, ⟨0, 0⟩⟩).statement.text),
  ("upsert_access_list", (Query.upsertAccessList ⟨0, "", false⟩).statement.text)]

def texts : List (String × String) := portTexts ++ capabilityTexts

/-- The text of the operation with a name. -/
def textOf (name : String) : String := (texts.lookup name).getD ""

theorem lookup_of_mem {l : List (String × String)} {name text : String}
    (hl : (l.map Prod.fst).Nodup) (h : (name, text) ∈ l) : l.lookup name = some text := by
  induction l with
  | nil => exact absurd h List.not_mem_nil
  | cons entry l ih =>
    obtain ⟨hentry, hl⟩ := List.nodup_cons.1 hl
    rcases List.mem_cons.1 h with rfl | h
    · exact List.lookup_cons_self
    · have hne : name ≠ entry.1 := by
        rintro rfl
        exact hentry (List.mem_map.2 ⟨_, h, rfl⟩)
      rw [List.lookup_cons, beq_false_of_ne hne]
      exact ih hl h

/-- No two operations share a name. -/
theorem nodup_texts : (texts.map Prod.fst).Nodup := by decide +kernel

theorem textOf_of_mem {name text : String} (h : (name, text) ∈ texts) : textOf name = text := by
  rw [textOf, lookup_of_mem nodup_texts h, Option.getD_some]

end Sql

/-! ## Calls -/

namespace Program

variable {ρ : Type}

/-- Whatever is answered, one statement is sent and nothing else. -/
def SendsOnce (p : Program Wire ρ) (s : Statement) : Prop :=
  p.Says fun messages _ => ∃ reply, messages = [.statement s reply]

/-- Whatever is answered, only statements with listed texts are sent. -/
def SendsListed (p : Program Wire ρ) : Prop :=
  p.Says fun messages _ => ∀ s reply, .statement s reply ∈ messages → s.text ∈ texts.map Prod.snd

end Program

variable {u : UseCase} {γ ρ : Type}

/-- The query of a call is listed under the name of the call. -/
theorem Port.query_listed (c : Port γ) (hc : ∀ u (work : Work u γ), c ≠ .transaction u work) :
    ∃ q : Query γ, Connection.answerCall c = Connection.send q ∧
      portTexts[c.ctorIdx]? = some (c.name, q.statement.text) ∧
      q.statement.params = c.arguments.map Argument.param := by
  cases c <;> first | exact ⟨_, rfl, rfl, rfl⟩ | exact absurd rfl (hc _ _)

theorem Capability.query_listed (c : Capability u γ) (hc : c.sends = true) :
    ∃ q : Query γ, Query.ofCapability c = .ok q ∧
      capabilityTexts[c.ctorIdx]? = some (c.name, q.statement.text) ∧
      q.statement.params = c.arguments.map Argument.param := by
  cases c with
  | insertAll rows =>
    cases rows with
    | nil => cases hc
    | cons row rows => exact ⟨_, rfl, rfl, rfl⟩
  | _ => exact ⟨_, rfl, rfl, rfl⟩

theorem Sql.sendsOnce_of_listed {α : Type} {q : Query α} {name : String} {arguments : List Argument}
    (hlisted : (name, q.statement.text) ∈ texts)
    (hparams : q.statement.params = arguments.map Argument.param) :
    (Connection.send q).SendsOnce ⟨textOf name, arguments.map Argument.param⟩ := by
  rw [textOf_of_mem hlisted, ← hparams]
  exact fun reply => ⟨reply, rfl⟩

/-- A call sends the text of its name, with its arguments bound. -/
theorem Port.sendsOnce (c : Port γ) (hc : ∀ u (work : Work u γ), c ≠ .transaction u work) :
    (Connection.answerCall c).SendsOnce ⟨textOf c.name, c.arguments.map Argument.param⟩ := by
  obtain ⟨q, hq, hat, hparams⟩ := c.query_listed hc
  rw [hq]
  exact sendsOnce_of_listed (List.mem_append_left _ (List.mem_of_getElem? hat)) hparams

theorem Capability.sendsOnce (c : Capability u γ) (hc : c.sends = true) :
    (Connection.answerWork _ (.call c)).SendsOnce
      ⟨textOf c.name, c.arguments.map Argument.param⟩ := by
  obtain ⟨q, hq, hat, hparams⟩ := c.query_listed hc
  rw [Connection.answerWork, hq]
  exact sendsOnce_of_listed (List.mem_append_right _ (List.mem_of_getElem? hat)) hparams

theorem Capability.sends_nothing (c : Capability u γ) (hc : c.sends = false) :
    (Connection.answerWork _ (.call c)).Says fun messages _ => messages = [] := by
  cases c with
  | insertAll rows =>
    cases rows with
    | nil => exact rfl
    | cons row rows => cases hc
  | _ => cases hc

/-! ## All that is sent -/

namespace Program

variable {σ : Type}

theorem sendsListed_done (a : ρ) : (Program.done a : Program Wire ρ).SendsListed :=
  fun _ _ h => absurd h List.not_mem_nil

theorem sendsListed_border (b : Border) : (Program.request (.border b)).SendsListed := by
  intro e s reply h
  cases List.mem_singleton.1 h

theorem sendsListed_send {α : Type} {q : Query α} {name : String}
    (hlisted : (name, q.statement.text) ∈ texts) : (Connection.send q).SendsListed := by
  intro reply s reply' h
  cases List.mem_singleton.1 h
  exact List.mem_map.2 ⟨_, hlisted, rfl⟩

theorem SendsListed.bind {p : Program Wire ρ} {k : ρ → Program Wire σ} (h : p.SendsListed)
    (hk : ∀ a, (k a).SendsListed) : (p.bind k).SendsListed := by
  refine (says_bind p k _).2 (h.mono fun messages a hmessages => ?_)
  refine (hk a).mono fun more _ hmore s reply hs => ?_
  exact (List.mem_append.1 hs).elim (hmessages s reply) (hmore s reply)

theorem sendsListed_run {E : Type → Type*} {answer : (β : Type) → E β → Program Wire β}
    (hanswer : ∀ β e, (answer β e).SendsListed) (p : Program E ρ) :
    (p.run answer).SendsListed := by
  induction p with
  | done a => exact sendsListed_done a
  | ask e next ih => exact (hanswer _ e).bind ih

end Program

namespace Sql.Connection

open Program

theorem sendsListed_answerWork {β : Type} (e : Effect (Capability u) β) :
    (answerWork β e).SendsListed := by
  cases e with
  | now => exact fun _ => sendsListed_done _
  | mint => exact fun _ => sendsListed_done _
  | call c =>
    cases hc : c.sends with
    | true =>
      obtain ⟨q, hq, hat, _⟩ := c.query_listed hc
      rw [answerWork, hq]
      exact sendsListed_send (List.mem_append_right _ (List.mem_of_getElem? hat))
    | false =>
      refine (c.sends_nothing hc).mono fun messages _ hmessages s reply h => ?_
      rw [hmessages] at h
      cases h

theorem sendsListed_finish (b : Border) : (finish b).SendsListed := by
  refine (sendsListed_border b).bind fun refused => ?_
  cases refused with
  | none => exact sendsListed_done _
  | some e => exact (sendsListed_border .rollback).bind fun _ => sendsListed_done _

theorem sendsListed_transact (work : Program (Effect (Capability u)) ρ) (commits : ρ → Bool) :
    (transact work commits).SendsListed := by
  refine (sendsListed_border .begin).bind fun refused => ?_
  cases refused with
  | some e => exact sendsListed_done _
  | none =>
    refine (sendsListed_run (fun _ e => sendsListed_answerWork e) work).bind fun r => ?_
    split
    · refine (sendsListed_finish .commit).bind fun failed => ?_
      cases failed <;> exact sendsListed_done _
    · exact (sendsListed_finish .rollback).bind fun _ => sendsListed_done _

theorem sendsListed_answerCall (c : Port γ) : (answerCall c).SendsListed := by
  by_cases hc : ∀ u (work : Work u γ), c ≠ .transaction u work
  · obtain ⟨q, hq, hat, _⟩ := c.query_listed hc
    rw [hq]
    exact sendsListed_send (List.mem_append_left _ (List.mem_of_getElem? hat))
  · push Not at hc
    obtain ⟨u, work, rfl⟩ := hc
    exact (sendsListed_transact work.program _).bind fun _ => sendsListed_done _

theorem sendsListed_answer {β : Type} (e : Effect Port β) : (answer β e).SendsListed := by
  cases e with
  | now => exact fun _ => sendsListed_done _
  | mint => exact fun _ => sendsListed_done _
  | call c => exact sendsListed_answerCall c

end Sql.Connection

/-! ## Rows that are added -/

/-- Rows are added to this application only. -/
def Capability.AddsTo (appId : Int32) : Capability u γ → Prop
  | .insertAll rows => ∀ row ∈ rows, row.appId = appId
  | _ => True

def Port.AddsTo (appId : Int32) : Port γ → Prop
  | .transaction _ work => Action.Only (fun _ c => c.AddsTo appId) work
  | _ => True

theorem Permissions.setList_addsTo (req : SetListRequest) :
    Action.Only (fun _ c => c.AddsTo req.appId) (Permissions.setList req) := by
  have hrows : ∀ row ∈ req.rows, row.appId = req.appId := by
    intro row hrow
    obtain ⟨m, _, rfl⟩ := List.mem_map.1 hrow
    rfl
  exact .bind (.call trivial) fun _ => .call (replace_only trivial trivial hrows trivial)

/-- No request becomes part of a text. Every call and every statement of a transaction sends the one
text of its name, once, with its arguments bound in their order and as they are; only the encoding
of the driver cuts times to the microsecond, and one in whole microseconds arrives as it was bound.
Whatever a program asks for, no other text is sent. Rows that are added are bound as two arrays in
their order, and setting permissions adds rows of the application only that it is for. The one text
that is built has no parameters and is the statement for the schema: the name in it is one that was
accepted, and is all that stands between its double quotes. -/
theorem requests_are_bound :
    (∀ {γ : Type} (c : Port γ), (∀ u (work : Work u γ), c ≠ .transaction u work) →
      (Connection.answerCall c).SendsOnce ⟨textOf c.name, c.arguments.map Argument.param⟩) ∧
    (∀ {u : UseCase} {γ : Type} (c : Capability u γ),
      (c.sends = true → (Connection.answerWork _ (.call c)).SendsOnce
        ⟨textOf c.name, c.arguments.map Argument.param⟩) ∧
      (c.sends = false → (Connection.answerWork _ (.call c)).Says fun messages _ =>
        messages = [])) ∧
    (∀ (seconds : Int) (micros : Nat), micros < 1000000 →
      Argument.param (.time ⟨seconds, micros * 1000⟩) = .time ⟨seconds, micros * 1000⟩) ∧
    (∀ {ρ : Type} (p : Program (Effect Port) ρ), (p.run Connection.answer).SendsListed) ∧
    (∀ (row : AccessList) (rows : List AccessList), ∃ methods values,
      (Capability.insertAll (row :: rows)).arguments =
        [.id row.appId, .texts methods, .flags values] ∧
      methods.length = values.length ∧
      methods.zip values = (row :: rows).map fun r => (r.method, r.value)) ∧
    (∀ req : SetListRequest,
      Action.Only (fun _ c => c.AddsTo req.appId) (Permissions.setList req)) ∧
    (∀ (d : Config.Database) (s : Statement), .schema s ∈ Stage.all d →
      s.params = [] ∧ ∃ name, d.schema = some name ∧ s = Stage.createSchema name) ∧
    ∀ (args : List String) (place : Option String)
      (file : String → Except Config.ReadError String) (s : Config.Settings)
      (address : Config.Address) (d : Config.Database) (name : String),
      Config.load args place file = .ok (s, address) → s.database = some d →
        d.schema = some name →
          Config.IsIdentifier name ∧ name.utf8ByteSize ≤ 63 ∧
          quotedNames none (Stage.createSchema name).text.toList = [name] := by
  refine ⟨fun c => c.sendsOnce, fun c => ⟨c.sendsOnce, c.sends_nothing⟩,
    fun _ _ => Argument.param_time, fun p => ?_, fun row rows => ?_,
    Permissions.setList_addsTo, fun d s h => ?_, ?_⟩
  · exact Program.sendsListed_run (fun _ e => Connection.sendsListed_answer e) p
  · exact ⟨_, _, rfl, by simp, List.zip_map'⟩
  · obtain ⟨name, hname, rfl⟩ := Stage.eq_createSchema h
    exact ⟨rfl, name, hname, rfl⟩
  · intro args place file s address d name hload hd hname
    have hidentifier := Config.isIdentifier_of_load hload hd hname
    exact ⟨hidentifier, hidentifier.utf8ByteSize_le,
      quotedNames_createSchema fun hquote =>
        Config.not_follows_quote (hidentifier.follows _ hquote)⟩

end AccessRegistry
