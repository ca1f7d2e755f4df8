import AccessRegistry.Proofs.Admission
import AccessRegistry.Proofs.Encounter

/-!
# AccessRegistry.Proofs.Attempts

How an application without an id gets one, while others create, delete and move applications. The
next id that the storage tells may be taken, or worse, by the time the application is created under
it, and a request tries again when it is; the third attempt is the last.

* `Applications.Attempts` — the calls of the attempts, and how they end.
* `Applications.Course`   — the calls of the request, from the search for its name on.
* `Applications.allocates_among_others` — what that means for the stored rows.
-/

namespace AccessRegistry

open AccessRegistry.Action World Tables

/-! ## Calls -/

namespace Exchange

/-- What the storage has told when it was asked for the next id. -/
def nextId? : Exchange Port → Option (Except Failure Int32)
  | ⟨.nextApplicationId, answer⟩ => some answer
  | _ => none

/-- What has come of creating an application. -/
def created? : Exchange Port → Option (Except Failure Application)
  | ⟨.createApplication _, answer⟩ => some answer
  | _ => none

/-- The failure that must end a request at once: there is no next id, it cannot be used, or creating
the application fails for another reason than that the id is taken. -/
def fatal? : Exchange Port → Option Failure
  | ⟨.nextApplicationId, .error f⟩ => some f
  | ⟨.nextApplicationId, .ok id⟩ =>
    if id ≤ 0 then some (.invalidArgument "application id must be positive") else none
  | ⟨.createApplication _, .error f⟩ => if f = .applicationDuplicateId then none else some f
  | _ => none

section

variable (app : NewApplication) (r : Except Failure Application) (f : Failure)

@[simp]
theorem nextId?_next (told : Except Failure Int32) :
    nextId? ⟨.nextApplicationId, told⟩ = some told := rfl

@[simp]
theorem nextId?_create : nextId? ⟨.createApplication app, r⟩ = none := rfl

@[simp]
theorem fatal?_unanswered : fatal? ⟨.nextApplicationId, .error f⟩ = some f := rfl

@[simp]
theorem fatal?_told (id : Int32) : fatal? ⟨.nextApplicationId, .ok id⟩ =
    if id ≤ 0 then some (.invalidArgument "application id must be positive") else none := rfl

@[simp]
theorem fatal?_created (row : Application) : fatal? ⟨.createApplication app, .ok row⟩ = none := rfl

@[simp]
theorem fatal?_refused : fatal? ⟨.createApplication app, .error f⟩ =
    if f = .applicationDuplicateId then none else some f := rfl

end

end Exchange

namespace Applications

/-- The calls of some attempts, of which `retries` may follow the first one. -/
inductive Attempts (req : NewApplication) :
    Nat → List (Exchange Port) → Except Failure ApplicationWithTokens → Prop where
  | unanswered (retries : Nat) (f : Failure) :
      Attempts req retries [⟨.nextApplicationId, .error f⟩] (.error f)
  | unusable (retries : Nat) {id : Int32} (hid : id ≤ 0) :
      Attempts req retries [⟨.nextApplicationId, .ok id⟩]
        (.error (.invalidArgument "application id must be positive"))
  | stored (retries : Nat) {id : Int32} (hpos : 0 < id) (row : Application) :
      Attempts req retries
        [⟨.nextApplicationId, .ok id⟩, ⟨.createApplication { req with id }, .ok row⟩]
        (.ok ⟨row, []⟩)
  | refused (retries : Nat) {id : Int32} (hpos : 0 < id) {f : Failure}
      (hf : f ≠ .applicationDuplicateId) :
      Attempts req retries
        [⟨.nextApplicationId, .ok id⟩, ⟨.createApplication { req with id }, .error f⟩] (.error f)
  | givenUp {id : Int32} (hpos : 0 < id) :
      Attempts req 0
        [⟨.nextApplicationId, .ok id⟩,
          ⟨.createApplication { req with id }, .error .applicationDuplicateId⟩]
        (.error .applicationDuplicateId)
  | again {retries : Nat} {id : Int32} (hpos : 0 < id) {calls : List (Exchange Port)}
      {x : Except Failure ApplicationWithTokens} (rest : Attempts req retries calls x) :
      Attempts req (retries + 1)
        (⟨.nextApplicationId, .ok id⟩ ::
          ⟨.createApplication { req with id }, .error .applicationDuplicateId⟩ :: calls) x

/-- The calls of a request that brings no id. -/
inductive Course (req : NewApplication) :
    List (Exchange Port) → Except Failure ApplicationWithTokens → Prop where
  | taken {found : Except Failure Application} {f : Failure}
      (h : nameIsFree found 0 Application.id .applicationDuplicateName = .error f) :
      Course req [⟨.applicationByName req.name req.applicationGroupId, found⟩] (.error f)
  | orphaned (found : Except Failure Application) (f : Failure) :
      Course req [⟨.applicationByName req.name req.applicationGroupId, found⟩,
        ⟨.groupById req.applicationGroupId, .error f⟩] (.error f)
  | placed (found : Except Failure Application) (group : AppGroup) {calls : List (Exchange Port)}
      {x : Except Failure ApplicationWithTokens} (attempts : Attempts req 2 calls x) :
      Course req (⟨.applicationByName req.name req.applicationGroupId, found⟩ ::
        ⟨.groupById req.applicationGroupId, .ok group⟩ :: calls) x

/-! ## Every run is such a course -/

section Runs

variable {req : NewApplication}

theorem always_ensureNameFree_bind {γ β : Type} {search : Port γ} {id : Int32} {idOf : γ → Int32}
    {duplicate : Failure} {k : Unit → Rule β}
    {P : List (Exchange Port) → Except Failure β → Prop}
    (hfree : ∀ found, nameIsFree found id idOf duplicate = .ok () →
      Always (k ()) fun calls => P (⟨search, found⟩ :: calls))
    (htaken : ∀ found f, nameIsFree found id idOf duplicate = .error f →
      P [⟨search, found⟩] (.error f)) :
    Always (ensureNameFree search id idOf duplicate >>= k) P := by
  unfold ensureNameFree
  refine (always_bind _ _).2 ((always_bind _ _).2 ((always_attempt _).2 ?_))
  refine (always_call _).2 fun found => ?_
  dsimp only
  cases hname : nameIsFree found id idOf duplicate with
  | ok u => exact hfree found hname
  | error f => exact htaken found f hname

theorem always_create {P : List (Exchange Port) → Except Failure ApplicationWithTokens → Prop}
    (hrefused : req.id ≤ 0 → P [] (.error (.invalidArgument "application id must be positive")))
    (hcreated : 0 < req.id → ∀ r, P [⟨.createApplication req, r⟩] (r.map fun row => ⟨row, []⟩)) :
    Always (create req) P := by
  unfold create
  by_cases hid : req.id ≤ 0
  · rw [if_pos hid]
    exact hrefused hid
  · rw [if_neg hid]
    have hpos : 0 < req.id := Int32.not_le.1 hid
    refine (always_call_bind _ _).2 ⟨fun row => ?_, fun f => ?_⟩
    · exact hcreated hpos (.ok row)
    · exact hcreated hpos (.error f)

theorem createUnderNextId_attempts (req : NewApplication) (retries : Nat) :
    Always (createUnderNextId req retries) (Attempts req retries) := by
  induction retries with
  | zero =>
    refine (always_call_bind _ _).2 ⟨fun id => ?_, fun f => .unanswered 0 f⟩
    refine always_create (fun hid => .unusable 0 hid) fun hpos r => ?_
    cases r with
    | ok row => exact .stored 0 hpos row
    | error f =>
      by_cases hf : f = .applicationDuplicateId
      · subst hf
        exact .givenUp hpos
      · exact .refused 0 hpos hf
  | succ retries ih =>
    rw [createUnderNextId_succ]
    refine (always_call_bind _ _).2 ⟨fun id => ?_, fun f => .unanswered _ f⟩
    refine (always_bind _ _).2 ((always_attempt _).2 ?_)
    refine always_create (fun hid => .unusable _ hid) fun hpos r => ?_
    cases r with
    | ok row => exact .stored _ hpos row
    | error f =>
      by_cases hf : f = .applicationDuplicateId
      · subst hf
        exact ih.mono fun calls x hrest => .again hpos hrest
      · have hend : orAgain req retries (.error f) = liftExcept (.error f) := by
          unfold orAgain
          split
          · rename_i hdup
            cases hdup
            exact absurd rfl hf
          · rfl
        show Always (orAgain req retries (.error f)) _
        rw [hend]
        exact .refused _ hpos hf

theorem createUpdate_course (hid : req.id = 0) : Always (createUpdate req) (Course req) := by
  unfold createUpdate
  refine always_ensureNameFree_bind (fun found _ => ?_) fun found f htaken => ?_
  · rw [if_neg (not_not.2 hid)]
    refine (always_call_bind _ _).2 ⟨fun group => ?_, fun f => .orphaned found f⟩
    exact (createUnderNextId_attempts req 2).mono fun calls x h => .placed found group h
  · rw [hid] at htaken
    exact .taken htaken

end Runs

/-! ## What the calls say -/

section Facts

variable {req : NewApplication} {retries : Nat} {calls : List (Exchange Port)}
  {x : Except Failure ApplicationWithTokens}

theorem Attempts.ne_nil (h : Attempts req retries calls x) : calls ≠ [] := by
  cases h <;> exact List.cons_ne_nil _ _

theorem Attempts.questions (h : Attempts req retries calls x) :
    (calls.filterMap Exchange.nextId?).length ≤ retries + 1 := by
  induction h with
  | unanswered | unusable | stored | refused | givenUp => simp [List.filterMap_cons]
  | again _ _ ih => simpa [List.filterMap_cons] using ih

theorem Attempts.quiet (h : Attempts req retries calls x) {f : Failure} (hx : x = .error f) :
    Quiet calls := by
  induction h with
  | unanswered | unusable => exact .cons (Exchange.commits_look rfl _) .nil
  | stored => cases hx
  | refused | givenUp =>
    exact .cons (Exchange.commits_look rfl _) (.cons (Exchange.commits_error _ _) .nil)
  | again _ _ ih =>
    exact .cons (Exchange.commits_look rfl _) (.cons (Exchange.commits_error _ _) (ih hx))

/-- Success comes from the last call, and the question right before it has told the id. -/
theorem Attempts.stored_last (h : Attempts req retries calls x) {out : ApplicationWithTokens}
    (hx : x = .ok out) : ∃ before id, Quiet before ∧ 0 < id ∧ calls = before ++
      [⟨.nextApplicationId, .ok id⟩, ⟨.createApplication { req with id }, .ok out.app⟩] ∧
        out.tokens = [] := by
  induction h with
  | unanswered | unusable | refused | givenUp => cases hx
  | stored _ hpos row =>
    cases hx
    exact ⟨[], _, .nil, hpos, rfl, rfl⟩
  | again _ _ ih =>
    obtain ⟨before, id, hquiet, hpos, rfl, htokens⟩ := ih hx
    exact ⟨_ :: _ :: before, id, .cons (Exchange.commits_look rfl _)
      (.cons (Exchange.commits_error _ _) hquiet), hpos, rfl, htokens⟩

/-- Whoever is told that the id is taken has tried as often as it may. -/
theorem Attempts.exhausted (h : Attempts req retries calls x)
    (hstray : ∀ e ∈ calls, ¬ e.Strays) (hx : x = .error .applicationDuplicateId) :
    calls.filterMap Exchange.created? =
      List.replicate (retries + 1) (.error .applicationDuplicateId) := by
  induction h with
  | unanswered _ f =>
    cases hx
    exact absurd ⟨rfl, rfl⟩ (hstray _ List.mem_cons_self)
  | unusable | stored => cases hx
  | refused _ _ hf =>
    cases hx
    exact absurd rfl hf
  | givenUp => rfl
  | @again retries _ _ _ _ _ ih =>
    have hrest := ih (fun e he => hstray e (.tail _ (.tail _ he))) hx
    rw [List.replicate_succ, ← hrest]
    rfl

theorem Attempts.ends (h : Attempts req retries calls x) :
    (∀ e ∈ calls.dropLast, e.fatal? = none) ∧
      ∀ f, calls.getLast?.bind Exchange.fatal? = some f → x = .error f := by
  induction h with
  | unanswered => simp
  | unusable _ hid => simp [hid]
  | stored _ hpos => simp [hpos]
  | refused _ hpos hf => simp [hpos, hf]
  | givenUp hpos => simp [hpos]
  | again hpos rest ih =>
    obtain ⟨hlast, hend⟩ := ih
    have hne := rest.ne_nil
    constructor
    · rw [List.dropLast_cons_of_ne_nil (List.cons_ne_nil _ _), List.dropLast_cons_of_ne_nil hne]
      simpa [hpos] using hlast
    · rwa [List.getLast?_cons_of_ne_nil (List.cons_ne_nil _ _), List.getLast?_cons_of_ne_nil hne]

theorem Course.questions (h : Course req calls x) :
    (calls.filterMap Exchange.nextId?).length ≤ 3 := by
  cases h with
  | taken | orphaned => exact Nat.zero_le 3
  | placed _ _ attempts => exact attempts.questions

theorem Course.quiet (h : Course req calls x) {f : Failure} (hx : x = .error f) : Quiet calls := by
  cases h with
  | taken => exact .cons (Exchange.commits_look rfl _) .nil
  | orphaned =>
    exact .cons (Exchange.commits_look rfl _) (.cons (Exchange.commits_look rfl _) .nil)
  | placed _ _ attempts =>
    exact .cons (Exchange.commits_look rfl _)
      (.cons (Exchange.commits_look rfl _) (attempts.quiet hx))

theorem Course.stored_last (h : Course req calls x) {out : ApplicationWithTokens}
    (hx : x = .ok out) : ∃ before id, Quiet before ∧ 0 < id ∧ calls = before ++
      [⟨.nextApplicationId, .ok id⟩, ⟨.createApplication { req with id }, .ok out.app⟩] ∧
        out.tokens = [] := by
  cases h with
  | taken | orphaned => cases hx
  | placed _ _ attempts =>
    obtain ⟨before, id, hquiet, hpos, rfl, htokens⟩ := attempts.stored_last hx
    exact ⟨_ :: _ :: before, id, .cons (Exchange.commits_look rfl _)
      (.cons (Exchange.commits_look rfl _) hquiet), hpos, rfl, htokens⟩

/-- A failure other than that the name is taken is the one of the search. -/
theorem found_of_nameIsFree {γ : Type} {found : Except Failure γ} {id : Int32} {idOf : γ → Int32}
    {duplicate f : Failure} (h : nameIsFree found id idOf duplicate = .error f)
    (hne : f ≠ duplicate) : found = .error f := by
  unfold nameIsFree at h
  cases found with
  | ok row =>
    dsimp only at h
    split at h
    · cases h
    · cases h
      exact absurd rfl hne
  | error g =>
    dsimp only at h
    split at h
    · cases h
    · cases h
      rfl

theorem Course.exhausted (h : Course req calls x) (hstray : ∀ e ∈ calls, ¬ e.Strays)
    (hx : x = .error .applicationDuplicateId) :
    calls.filterMap Exchange.created? = List.replicate 3 (.error .applicationDuplicateId) := by
  cases h with
  | @taken found _ hfree =>
    cases hx
    have hfound := found_of_nameIsFree hfree (by decide)
    exact absurd ⟨rfl, hfound⟩ (hstray _ List.mem_cons_self)
  | orphaned =>
    cases hx
    exact absurd ⟨rfl, rfl⟩ (hstray _ (.tail _ List.mem_cons_self))
  | placed _ _ attempts =>
    exact attempts.exhausted (fun e he => hstray e (.tail _ (.tail _ he))) hx

theorem Course.ends (h : Course req calls x) :
    (∀ e ∈ calls.dropLast, e.fatal? = none) ∧
      ∀ f, calls.getLast?.bind Exchange.fatal? = some f → x = .error f := by
  cases h with
  | taken => exact ⟨List.forall_mem_nil _, fun f hf => nomatch hf⟩
  | orphaned => exact ⟨List.forall_mem_singleton.2 rfl, fun f hf => nomatch hf⟩
  | placed found group attempts =>
    obtain ⟨hlast, hend⟩ := attempts.ends
    have hne := attempts.ne_nil
    constructor
    · rw [List.dropLast_cons_of_ne_nil (List.cons_ne_nil _ _), List.dropLast_cons_of_ne_nil hne]
      exact List.forall_mem_cons.2 ⟨rfl, List.forall_mem_cons.2 ⟨rfl, hlast⟩⟩
    · rwa [List.getLast?_cons_of_ne_nil (List.cons_ne_nil _ _), List.getLast?_cons_of_ne_nil hne]

end Facts

/-! ## What becomes of the rows -/

/-- An application gets an id in these calls of a client, or none. -/
structure Allocates (req : NewApplication) (es : List Encounter)
    (x : Except Failure ApplicationWithTokens) : Prop where
  course : Course req (es.map Encounter.exchange) x
  /-- The storage is asked for an id three times at most. -/
  attempts : (es.filterMap fun e => e.exchange.nextId?).length ≤ 3
  /-- Success comes from a row that the last call has added, as the only call that has written. It
  is stored under the positive id that has been told right before, which no row had, and leaves all
  others as they are. -/
  stored : ∀ out, x = .ok out → ∃ before q e id,
    es = before ++ [q, e] ∧ q.exchange = ⟨.nextApplicationId, .ok id⟩ ∧ 0 < id ∧
    e.exchange = ⟨.createApplication { req with id }, .ok out.app⟩ ∧
    out.app.id = id ∧ e.before.AddsApplication { req with id } out e.after ∧
    (∀ a, a ∈ e.after.applications ↔ a = out.app ∨ a ∈ e.before.applications) ∧
    ∀ e' ∈ before ++ [q], e'.after = e'.before
  /-- That the id is taken has been found out three times. -/
  exhausted : x = .error .applicationDuplicateId →
    (es.filterMap fun e => e.exchange.created?) =
      List.replicate 3 (.error .applicationDuplicateId)
  /-- After any other failure there are no more calls, and it is the answer. -/
  ends : (∀ e ∈ es.dropLast, e.exchange.fatal? = none) ∧
    ∀ f, (es.getLast?.bind fun e => e.exchange.fatal?) = some f → x = .error f
  unchanged : ∀ f, x = .error f → ∀ e ∈ es, e.after = e.before

theorem Course.allocates {req : NewApplication} {es : List Encounter}
    {x : Except Failure ApplicationWithTokens} (h : Course req (es.map Encounter.exchange) x)
    (hpossible : ∀ e ∈ es, e.Possible) : Allocates req es x where
  course := h
  attempts := by
    have hquestions := h.questions
    rwa [List.filterMap_map] at hquestions
  stored := by
    intro out hx
    obtain ⟨before, id, hquiet, hpos, hcalls, htokens⟩ := h.stored_last hx
    obtain ⟨es₁, es₂, rfl, rfl, hlast⟩ := List.map_eq_append_iff.1 hcalls
    obtain ⟨q, rest, rfl, hq, hrest⟩ := List.map_eq_cons_iff.1 hlast
    obtain ⟨e, rest, rfl, he, hnil⟩ := List.map_eq_cons_iff.1 hrest
    obtain rfl := List.map_eq_nil_iff.1 hnil
    have hpossible' : ∀ e' ∈ es₁ ++ [q], e'.Possible := fun e' he' => hpossible e' (by
      rw [List.append_cons]
      exact List.mem_append_left _ he')
    have hquiet' : ∀ e' ∈ es₁ ++ [q], e'.exchange.commits = false := by
      refine List.forall_mem_append.2 ⟨fun e' he' => hquiet _ (List.mem_map_of_mem he'), ?_⟩
      rw [List.forall_mem_singleton, hq]
      exact Exchange.commits_look rfl _
    have hadds := (hpossible e (by simp)).adds he
    obtain ⟨app, tokens⟩ := out
    obtain rfl : tokens = [] := htokens
    obtain ⟨now, hrow⟩ := hadds.row
    refine ⟨es₁, q, e, id, rfl, hq, hpos, he, ?_, hadds, fun a => ?_,
      fun e' he' => (hpossible' e' he').unchanged (hquiet' e' he')⟩
    · exact congrArg (fun out : ApplicationWithTokens => out.app.id) hrow
    · rw [hadds.tables]
      exact Table.mem_insert_new hadds.fresh
  exhausted := by
    intro hx
    have hcreated := h.exhausted ?_ hx
    · rwa [List.filterMap_map] at hcreated
    · rintro _ hmem
      obtain ⟨e, he, rfl⟩ := List.mem_map.1 hmem
      exact (hpossible e he).not_strays
  ends := by
    obtain ⟨hlast, hend⟩ := h.ends
    rw [← List.map_dropLast] at hlast
    rw [List.getLast?_map] at hend
    refine ⟨fun e he => hlast _ (List.mem_map_of_mem he), fun f hf => hend f ?_⟩
    rw [← hf]
    cases es.getLast? <;> rfl
  unchanged := by
    intro f hx e he
    exact (hpossible e he).unchanged (h.quiet hx _ (List.mem_map_of_mem he))

/-- Whatever others do between the calls of a request that brings no id, and whatever its looks are
answered: it gets an id as `Allocates` says, or fails and changes nothing, and its client is told
which. -/
theorem allocates_among_others {req : NewApplication} (hid : req.id = 0) {r : Http.Request}
    {view : ApplicationWithTokens → Json.Value} (hasks : r.AsksFor (.writeApplication req) view)
    (kept : Option Http.Metrics) :
    ((Http.answer kept r).Always fun calls a => ∀ es : List Encounter,
      es.map Encounter.exchange = calls → (∀ e ∈ es, e.Possible) →
        ∃ x, a = .ofResult (x.map view) ∧ a.Reports (x.map view) ∧ Allocates req es x) ∧
    ∀ (s : Traffic Http.Answer) (i : Nat) (turns : List Turn) (a : Http.Answer),
      s.clients[i]? = some (Http.answer kept r) → (s.after turns).answer? i = some a →
        ∃ x, a = .ofResult (x.map view) ∧ a.Reports (x.map view) ∧
          Allocates req (s.encounters i turns) x := by
  have hcourse : (Http.answer kept r).Always fun calls a =>
      ∃ x, a = .ofResult (x.map view) ∧ Course req calls x := by
    rw [Http.answer_eq_bind hasks, Program.always_bind]
    refine (createUpdate_course hid).mono fun calls x h => ⟨x, rfl, ?_⟩
    rwa [List.append_nil]
  constructor
  · refine hcourse.mono fun calls a h es hes hpossible => ?_
    obtain ⟨x, rfl, hx⟩ := h
    subst hes
    exact ⟨x, rfl, Http.Answer.reports_ofResult _, hx.allocates hpossible⟩
  · intro s i turns a hclient hanswer
    obtain ⟨x, rfl, hx⟩ := Traffic.run_of_always hclient hcourse hanswer
    exact ⟨x, rfl, Http.Answer.reports_ofResult _, hx.allocates (s.encounters_possible i turns)⟩

/-- A request for an application in the first group. -/
def requestNamed (name : String) : Http.Request :=
  .post "/system/application/create_update_application"
    ("\x7b\"name\":\"" ++ name ++ "\",\"serviceId\":1,\"type\":\"SYSTEM\"\x7d")

/-- Two requests are told the same id. The one that comes second gets another one. -/
theorem allocates_at_second_attempt :
    let s : Traffic Http.Answer := .start ⟨0, 0⟩ (fun _ => "") [
      Http.answer none (.post "/system/domain/create_update_domain" "\x7b\"name\":\"d\"\x7d"),
      Http.answer none (.post "/system/application_group/create" "\x7b\"name\":\"g\"\x7d"),
      Http.answer none (requestNamed "a"), Http.answer none (requestNamed "b")]
    let turns : List Turn := [.client 0, .client 0, .client 1, .client 1, .client 1,
      .client 2, .client 2, .client 2, .client 3, .client 3, .client 3, .client 3,
      .client 2, .client 2, .client 2]
    ((s.after turns).answer? 2).map Http.Answer.status = some 200 ∧
    (s.encounters 2 turns).length = 6 ∧
    ∃ req x, (requestNamed "a").AsksFor (.writeApplication req) ApplicationWithTokens.toJson ∧
      req.id = 0 ∧
      (s.after turns).answer? 2 = some (.ofResult (x.map ApplicationWithTokens.toJson)) ∧
      Allocates req (s.encounters 2 turns) x := by
  intro s turns
  have hread : ((Http.Endpoint.readBody Http.Body.application (requestNamed "a")).toOption.map
      NewApplication.id) = some 0 := by decide +kernel
  have hlength : (s.encounters 2 turns).length = 6 := by decide +kernel
  have hstatus : ((s.after turns).answer? 2).map Http.Answer.status = some 200 := by
    decide +kernel
  cases hreq : Http.Endpoint.readBody Http.Body.application (requestNamed "a") with
  | error message =>
    rw [hreq] at hread
    cases hread
  | ok req =>
    rw [hreq] at hread
    have hid : req.id = 0 := Option.some.inj hread
    have hasks : (requestNamed "a").AsksFor (.writeApplication req) ApplicationWithTokens.toJson :=
      Http.asksFor_of_readBody rfl rfl hreq
    obtain ⟨a, ha, _⟩ := Option.map_eq_some_iff.1 hstatus
    have hclient : s.clients[2]? = some (Http.answer none (requestNamed "a")) := rfl
    clear_value s turns
    obtain ⟨x, rfl, _, h⟩ := (allocates_among_others hid hasks none).2 s 2 turns a hclient ha
    exact ⟨hstatus, hlength, req, x, hasks, hid, ha, h⟩

end Applications

end AccessRegistry
