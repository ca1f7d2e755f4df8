import AccessRegistry.Http.Service
import AccessRegistry.Proofs.Operation

/-!
# AccessRegistry.Proofs.Refusal

Requests that are refused leave no trace in the tables, and neither does setting up a registry when
it fails. Every endpoint runs one operation and shows its result (`Endpoint.runs_of_mem`); an
operation that fails has changed nothing (`Operation.rule_writes`), also when it fails in the middle
of a transaction; so does a body that cannot be read.
-/

namespace AccessRegistry

open AccessRegistry.Action World

theorem Operation.ends_unchanged {α : Type} (op : Operation α) (w : World) :
    Ends World.answer op.rule w (fun _ _ => True) fun _ w' => w'.tables = w.tables :=
  (op.rule_writes w).mono (fun _ _ _ => trivial) fun _ _ h => h.tables

namespace Http

/-- An answer that reports success, or a world with the tables of the first one. -/
def Settled (w : World) (out : Answer × World) : Prop :=
  out.1.status = 200 ∨ out.2.tables = w.tables

namespace Endpoint

/-- An endpoint that runs an operation and shows its result. -/
inductive Runs : Endpoint → Prop where
  | reading {α β : Type} {path name tag : String} {body : Body α}
      {responses : List (Nat × String)} (op : α → Operation β) (view : β → Json.Value) :
      Runs (reading path name body responses (fun a => view <$> (op a).rule) tag)
  | plain {β : Type} {path name tag : String} {responses : List (Nat × String)}
      (op : Operation β) (view : β → Json.Value) :
      Runs (plain path name responses (view <$> op.rule) tag)

theorem secure_runs : ∀ e ∈ secure, e.Runs := by
  refine List.forall_mem_cons.2 ⟨.reading .authenticate View.decision, ?_⟩
  refine List.forall_mem_cons.2
    ⟨.reading (fun x : Int32 × String => .authorize x.1 x.2) View.authorized, ?_⟩
  exact List.forall_mem_nil _

theorem permissions_runs : ∀ e ∈ permissions, e.Runs := by
  refine List.forall_mem_cons.2 ⟨.reading .permissionsOf (View.list View.methodEntry), ?_⟩
  refine List.forall_mem_cons.2 ⟨.reading .setPermission View.count, ?_⟩
  refine List.forall_mem_cons.2 ⟨.reading .setPermissions (View.list View.methodEntry), ?_⟩
  refine List.forall_mem_cons.2
    ⟨.reading (fun x : Int32 × List String => .deletePermissions x.1 x.2) View.count, ?_⟩
  exact List.forall_mem_nil _

theorem domains_runs : ∀ e ∈ domains, e.Runs := by
  refine List.forall_mem_cons.2 ⟨.reading .domainsOfSystem (View.list Domain.toJson), ?_⟩
  refine List.forall_mem_cons.2 ⟨.reading .writeDomain Domain.toJson, ?_⟩
  refine List.forall_mem_cons.2 ⟨.reading .domainById Domain.toJson, ?_⟩
  refine List.forall_mem_cons.2 ⟨.reading .deleteDomains View.count, ?_⟩
  exact List.forall_mem_nil _

theorem applications_runs : ∀ e ∈ applications, e.Runs := by
  refine List.forall_mem_cons.2
    ⟨.reading .applicationsByIds (View.list ApplicationWithTokens.toJson), ?_⟩
  refine List.forall_mem_cons.2
    ⟨.reading .applicationsOfGroup (View.list ApplicationWithTokens.toJson), ?_⟩
  refine List.forall_mem_cons.2 ⟨.reading .writeApplication ApplicationWithTokens.toJson, ?_⟩
  refine List.forall_mem_cons.2 ⟨.reading .applicationById ApplicationWithTokens.toJson, ?_⟩
  refine List.forall_mem_cons.2 ⟨.reading .applicationByToken ApplicationWithTokens.toJson, ?_⟩
  refine List.forall_mem_cons.2 ⟨.reading .deleteApplications View.count, ?_⟩
  refine List.forall_mem_cons.2 ⟨.reading .systemTree (View.list DomainNode.toJson), ?_⟩
  refine List.forall_mem_cons.2 ⟨.plain .nextApplicationId View.nextId, ?_⟩
  refine List.forall_mem_cons.2
    ⟨.plain .allApplications (View.list ApplicationWithTokens.toJson), ?_⟩
  refine List.forall_mem_cons.2 ⟨.reading .createApplication ApplicationWithTokens.toJson, ?_⟩
  refine List.forall_mem_cons.2 ⟨.reading .updateApplication ApplicationWithTokens.toJson, ?_⟩
  exact List.forall_mem_nil _

theorem tokens_runs : ∀ e ∈ tokens, e.Runs := by
  refine List.forall_mem_cons.2
    ⟨.reading (fun x : Int32 × Int64 => .createToken x.1 x.2) ApplicationWithTokens.toJson, ?_⟩
  refine List.forall_mem_cons.2
    ⟨.reading (fun x : Int32 × List String => .revokeTokens x.1 x.2) View.revoked, ?_⟩
  refine List.forall_mem_cons.2 ⟨.reading .revokeAllTokens View.revoked, ?_⟩
  refine List.forall_mem_cons.2 ⟨.reading .tokensOf (View.list Token.toJson), ?_⟩
  exact List.forall_mem_nil _

theorem groups_runs : ∀ e ∈ groups, e.Runs := by
  refine List.forall_mem_cons.2 ⟨.reading .createGroup AppGroup.toJson, ?_⟩
  refine List.forall_mem_cons.2 ⟨.reading .updateGroup AppGroup.toJson, ?_⟩
  refine List.forall_mem_cons.2 ⟨.reading .deleteGroups View.count, ?_⟩
  refine List.forall_mem_cons.2 ⟨.reading .groupsByIds (View.list AppGroup.toJson), ?_⟩
  refine List.forall_mem_cons.2 ⟨.plain .allGroups (View.list AppGroup.toJson), ?_⟩
  exact List.forall_mem_nil _

/-- Every endpoint runs one operation. -/
theorem runs_of_mem {e : Endpoint} (h : e ∈ all) : e.Runs := by
  simp only [all, List.mem_append] at h
  rcases h with ((((h | h) | h) | h) | h) | h
  · exact secure_runs e h
  · exact permissions_runs e h
  · exact domains_runs e h
  · exact applications_runs e h
  · exact tokens_runs e h
  · exact groups_runs e h

theorem answer_settled {β : Type} (op : Operation β) (view : β → Json.Value) (w : World) :
    Settled w (((answer (view <$> op.rule)).run World.answer).run w) := by
  have hrun : ((answer (view <$> op.rule)).run World.answer).run w =
      (Answer.ofResult (outcome World.answer (view <$> op.rule) w).1,
        (outcome World.answer (view <$> op.rule) w).2) := Program.run_bind _ _ _
  have h : Ends World.answer (view <$> op.rule) w (fun _ _ => True)
      fun _ w' => w'.tables = w.tables := (ends_map _ _).2 (op.ends_unchanged w)
  unfold Ends at h
  rw [hrun]
  split at h
  · rename_i ho
    rw [ho]
    exact .inl rfl
  · rename_i ho
    rw [ho]
    exact .inr h

theorem Runs.settled {e : Endpoint} (h : e.Runs) (r : Request) (w : World) :
    Settled w (((e.handle r).run World.answer).run w) := by
  cases h with
  | plain op view => exact answer_settled op view w
  | @reading _ _ path name tag body responses op view =>
    simp only [Endpoint.reading]
    split
    · exact answer_settled _ view w
    · exact .inr rfl

end Endpoint

theorem Resource.mem_of_at? {path : String} {e : Endpoint}
    (h : Resource.at? path = some (.operation e)) : e ∈ Endpoint.all := by
  obtain ⟨⟨p, res⟩, hfind, rfl⟩ := Option.map_eq_some_iff.1 h
  have hmem := List.mem_of_find?_eq_some hfind
  rw [Resource.all, List.mem_append] at hmem
  rcases hmem with hmem | hmem
  · simp [Resource.fixed] at hmem
  · obtain ⟨e', he, heq⟩ := List.mem_map.1 hmem
    cases heq
    exact he

theorem Resource.settled {path : String} {resource : Resource}
    (h : Resource.at? path = some resource) (kept : Option Metrics) (r : Request) (w : World) :
    Settled w (((resource.answer kept r).run World.answer).run w) := by
  cases resource with
  | operation e => exact (Endpoint.runs_of_mem (mem_of_at? h)).settled r w
  | document => exact .inr rfl
  | liveness => exact .inr rfl
  | readiness => exact .inr rfl
  | metrics => cases kept <;> exact .inr rfl

theorem Answer.forMethod_status (method : String) (a : Answer) :
    (a.forMethod method).status = a.status := by
  unfold Answer.forMethod
  split <;> rfl

theorem answer_settled (kept : Option Metrics) (r : Request) (w : World) :
    Settled w (((answer kept r).run World.answer).run w) := by
  unfold answer
  split
  · exact .inr rfl
  rename_i resource hresource
  split
  · have hrun : (((resource.answer kept r).bind fun a => .done (a.forMethod r.method)).run
          World.answer).run w =
        ((((resource.answer kept r).run World.answer).run w).1.forMethod r.method,
          (((resource.answer kept r).run World.answer).run w).2) := Program.run_bind _ _ _
    show Settled w ((((resource.answer kept r).bind fun a =>
      .done (a.forMethod r.method)).run World.answer).run w)
    rw [hrun, Settled, Answer.forMethod_status]
    exact Resource.settled hresource kept r w
  · exact .inr rfl

end Http

/-- A request whose answer does not report success, and a failure to set up the registry, leave all
tables and both counters as they were. -/
theorem refused_unchanged (w : World) :
    (∀ (kept : Option Http.Metrics) (r : Http.Request),
      (((Http.serve r kept).run World.answer).run w).1.1.status = 200 ∨
        (((Http.serve r kept).run World.answer).run w).2.tables = w.tables) ∧
    ∀ token : String,
      (∃ o, (outcome World.answer (Provisioning.run token) w).1 = .ok o) ∨
        (outcome World.answer (Provisioning.run token) w).2.tables = w.tables := by
  refine ⟨fun kept r => ?_, fun token => ?_⟩
  · have hrun : ((Http.serve r kept).run World.answer).run w =
        (((((Http.answer kept r).run World.answer).run w).1,
          kept.map (Http.count r (((Http.answer kept r).run World.answer).run w).1)),
          (((Http.answer kept r).run World.answer).run w).2) := Program.run_bind _ _ _
    rw [hrun]
    exact Http.answer_settled kept r w
  · have h : Ends World.answer (Provisioning.run token) w (fun _ _ => True)
        fun _ w' => w'.tables = w.tables := (Operation.provision token).ends_unchanged w
    unfold Ends at h
    split at h
    · rename_i o w' ho
      rw [ho]
      exact .inl ⟨o, rfl⟩
    · rename_i ho
      rw [ho]
      exact .inr h

end AccessRegistry
