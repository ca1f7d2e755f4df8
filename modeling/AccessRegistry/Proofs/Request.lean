import AccessRegistry.Proofs.Refusal

/-!
# AccessRegistry.Proofs.Request

Which operation a request asks for, and what its client is told. The endpoint at the path of a
request reads the body and runs one operation, or it refuses the body; every other resource only
looks. What is known of an operation is known of the requests that ask for it.

* `Request.AsksFor` — the operation that a request asks for.
* `Answer.Reports`  — what an answer has to be when an operation ends in some way: the status and the
  whole body, for each kind of failure.
-/

namespace AccessRegistry
namespace Http

open AccessRegistry.Action World

/-! ## What clients are told -/

namespace Answer

/-- A refusal: a status, and a body with the class of what went wrong, a text for people, and the
reason. -/
def Refuses (a : Answer) (status : Nat) (code message reason : String) : Prop :=
  a.status = status ∧ a.content = .json (.object [("error", .object
    [("code", .string code), ("message", .string message),
      ("details", .object [("reason", .string reason)])])])

/-- The answer tells how an operation has ended. Of a failure that is nobody's business but the
service's, it says no more than that there was one. -/
def Reports (a : Answer) : Except Failure Json.Value → Prop
  | .ok v => a.status = 200 ∧ a.content = .json v
  | .error f =>
    match f with
    | .systemNotFound => a.Refuses 404 "NOT_FOUND" f.text "SYSTEM_NOT_FOUND"
    | .domainNotFound => a.Refuses 404 "NOT_FOUND" f.text "DOMAIN_NOT_FOUND"
    | .appGroupNotFound => a.Refuses 404 "NOT_FOUND" f.text "APP_GROUP_NOT_FOUND"
    | .applicationNotFound => a.Refuses 404 "NOT_FOUND" f.text "APPLICATION_NOT_FOUND"
    | .tokenNotFound => a.Refuses 404 "NOT_FOUND" f.text "TOKEN_NOT_FOUND"
    | .accessListNotFound => a.Refuses 404 "NOT_FOUND" f.text "ACCESS_LIST_NOT_FOUND"
    | .domainDuplicateName => a.Refuses 409 "ALREADY_EXISTS" f.text "DOMAIN_DUPLICATE_NAME"
    | .appGroupDuplicateName => a.Refuses 409 "ALREADY_EXISTS" f.text "APP_GROUP_DUPLICATE_NAME"
    | .applicationDuplicateName =>
      a.Refuses 409 "ALREADY_EXISTS" f.text "APPLICATION_DUPLICATE_NAME"
    | .applicationDuplicateId => a.Refuses 409 "ALREADY_EXISTS" f.text "APPLICATION_DUPLICATE_ID"
    | .invalidArgument message => a.Refuses 400 "INVALID_ARGUMENT" message "INVALID_ARGUMENT"
    | .tokenExpired | .tokenDuplicate | .internal _ =>
      a.Refuses 500 "INTERNAL" "An internal error occurred" "INTERNAL"

variable {a : Answer} {x : Except Failure Json.Value}

/-- Answers are made as `Reports` says, and there is one such answer to each end. -/
theorem reports_iff : a.Reports x ↔ a = .ofResult x := by
  constructor
  · intro h
    obtain ⟨status, content⟩ := a
    cases x with
    | ok v =>
      obtain ⟨rfl, rfl⟩ := h
      rfl
    | error f =>
      cases f <;> obtain ⟨rfl, rfl⟩ := h <;> rfl
  · rintro rfl
    cases x with
    | ok v => exact ⟨rfl, rfl⟩
    | error f => cases f <;> exact ⟨rfl, rfl⟩

theorem reports_ofResult (x : Except Failure Json.Value) : (ofResult x).Reports x :=
  reports_iff.2 rfl

theorem reports_ofFailure (f : Failure) : (ofFailure f).Reports (.error f) :=
  reports_ofResult (.error f)

end Answer

/-! ## Which operation is asked for -/

/-- The endpoint at the path of the request runs this operation for it, and shows its result. -/
structure Request.AsksFor (r : Request) {β : Type} (op : Operation β) (view : β → Json.Value) :
    Prop where
  method : r.method = "POST"
  handled : ∃ e, Resource.at? r.path = some (.operation e) ∧
    e.handle r = Endpoint.answer (view <$> op.rule)

/-- A body that is read leads to the operation of the endpoint. -/
theorem asksFor_of_readBody {r : Request} {α β : Type} {path name tag : String} {body : Body α}
    {responses : List (Nat × String)} {op : α → Operation β} {view : β → Json.Value} {a : α}
    (hmethod : r.method = "POST")
    (hat : Resource.at? r.path = some (.operation
      (.reading path name body responses (fun a => view <$> (op a).rule) tag)))
    (hread : Endpoint.readBody body r = .ok a) : r.AsksFor (op a) view := by
  refine ⟨hmethod, _, hat, ?_⟩
  simp only [Endpoint.reading, hread]

theorem Answer.forMethod_post (a : Answer) : a.forMethod "POST" = a := by
  unfold Answer.forMethod
  exact if_neg (by decide)

theorem answer_of_asksFor {r : Request} {β : Type} {op : Operation β} {view : β → Json.Value}
    (h : r.AsksFor op view) (kept : Option Metrics) :
    answer kept r = Endpoint.answer (view <$> op.rule) := by
  obtain ⟨e, hat, hhandle⟩ := h.handled
  have hforward : (fun a : Answer => (Program.done (a.forMethod r.method) :
      Program (Effect Port) Answer)) = .done := by
    funext a
    rw [h.method, Answer.forMethod_post]
  have hmethod : (Resource.operation e).hasMethod r.method = true := by
    rw [h.method]
    rfl
  unfold answer
  rw [hat]
  dsimp only
  rw [if_pos hmethod]
  show ((e.handle r).bind fun a => .done (a.forMethod r.method)) = _
  rw [hforward, Program.bind_done, hhandle]

/-- A request is answered with what the outcome of its operation looks like. -/
theorem answer_eq_bind {r : Request} {β : Type} {op : Operation β} {view : β → Json.Value}
    (h : r.AsksFor op view) (kept : Option Metrics) :
    answer kept r =
      (program op.rule).bind fun x => .done (Answer.ofResult (x.map view)) := by
  rw [answer_of_asksFor h]
  show (program (view <$> op.rule)).bind _ = _
  rw [program_map, Program.bind_assoc]
  rfl

theorem Refusal.status_ne (refusal : Refusal) : refusal.status ≠ 200 := by
  cases refusal <;> simp [status]

/-- Only success is reported as success. -/
theorem Answer.status_ofResult (x : Except Failure Json.Value) :
    (Answer.ofResult x).status = 200 ↔ ∃ v, x = .ok v := by
  cases x with
  | ok v => exact iff_of_true rfl ⟨v, rfl⟩
  | error f => exact iff_of_false (Refusal.status_ne _) fun h => nomatch h

/-- An endpoint refuses a body or runs an operation. -/
theorem Endpoint.Runs.handle_cases {e : Endpoint} (h : e.Runs) (r : Request) :
    (∃ (β : Type) (op : Operation β) (view : β → Json.Value),
      e.handle r = Endpoint.answer (view <$> op.rule)) ∨
    ∃ a : Answer, e.handle r = .done a := by
  cases h with
  | plain op view => exact .inl ⟨_, op, view, rfl⟩
  | reading op view =>
    simp only [Endpoint.reading]
    split
    · exact .inl ⟨_, op _, view, rfl⟩
    · exact .inr ⟨_, rfl⟩

/-- A request asks for an operation, or its answer is a look at most. -/
theorem answer_cases (kept : Option Metrics) (r : Request) :
    (∃ (β : Type) (op : Operation β) (view : β → Json.Value), r.AsksFor op view) ∨
      (answer kept r).Looks := by
  unfold answer
  split
  · exact .inr trivial
  rename_i resource hat
  by_cases hmethod : resource.hasMethod r.method = true
  case neg =>
    rw [if_neg hmethod]
    exact .inr trivial
  rw [if_pos hmethod]
  have hlook (h : (resource.answer kept r).Looks) :
      ((resource.answer kept r).bind fun a =>
        (.done (a.forMethod r.method) : Program (Effect Port) Answer)).Looks :=
    h.bind fun _ => trivial
  cases resource with
  | operation e =>
    have hpost : r.method = "POST" := by
      simpa [Resource.hasMethod, Resource.isReadable] using hmethod
    rcases (Endpoint.runs_of_mem (Resource.mem_of_at? hat)).handle_cases r with
      ⟨β, op, view, hhandle⟩ | ⟨a, hhandle⟩
    · exact .inl ⟨β, op, view, hpost, e, hat, hhandle⟩
    · refine .inr (hlook ?_)
      rw [Resource.answer, hhandle]
      trivial
  | document => exact .inr (hlook trivial)
  | liveness => exact .inr (hlook trivial)
  | readiness =>
    refine .inr (hlook ?_)
    refine ⟨rfl, fun x => ?_⟩
    cases x <;> exact trivial
  | metrics => exact .inr (hlook (by cases kept <;> exact trivial))

end Http
end AccessRegistry
