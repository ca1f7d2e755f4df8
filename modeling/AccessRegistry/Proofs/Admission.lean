import AccessRegistry.Proofs.Lawful
import AccessRegistry.Proofs.Request

/-!
# AccessRegistry.Proofs.Admission

What the service lets in. The rules on fields are enforced in different places: when a body is read,
by the rule of an operation, or by the tables. Together they cover every way into the tables, so
every stored row is lawful, whoever calls and however the calls are interleaved.

* `Endpoint.Guards` — the form of an endpoint makes sure of what its operation relies on.
* `Caller`          — who comes to the service: requests, and runs that set up the registry.
* `Traffic.admitted_after` — the rows are lawful in every state that callers lead to, and no row has
  the id 0.
-/

namespace AccessRegistry

open AccessRegistry.Action World Tables

/-! ## Requests -/

namespace Http

theorem Body.nonBlank_ok {value what : String} (h : nonBlank value what = .ok ()) :
    Text.isBlank value = false := by
  unfold nonBlank at h
  split at h
  · cases h
  · rename_i hblank
    exact Bool.not_eq_true _ ▸ hblank

theorem Body.setList_check {req : SetListRequest} (h : setList.check req = .ok ()) :
    ∀ m ∈ req.methods, Text.isBlank m.method = false := by
  have hall : ∀ {methods : List MethodValue},
      (methods.forM fun m => nonBlank m.method "method") = .ok () →
        ∀ m ∈ methods, Text.isBlank m.method = false := by
    intro methods hcheck
    induction methods with
    | nil => exact List.forall_mem_nil _
    | cons m rest ih =>
      obtain ⟨_, hfirst, hrest⟩ := except_bind_ok hcheck
      exact List.forall_mem_cons.2 ⟨nonBlank_ok hfirst, ih hrest⟩
  exact hall h

theorem Body.updateApplication_check {req : ApplicationUpdate}
    (h : updateApplication.check req = .ok ()) :
    Text.isBlank req.name = false ∧ 1 ≤ req.newId := by
  obtain ⟨_, hname, hid⟩ := except_bind_ok h
  refine ⟨nonBlank_ok hname, ?_⟩
  split at hid
  · cases hid
  · rename_i hpos
    exact one_le_of_not_le_zero hpos

namespace Endpoint

/-- An endpoint whose form makes sure of what its operation relies on. -/
inductive Guards : Endpoint → Prop where
  | reading {α β : Type} {path name tag : String} {body : Body α}
      {responses : List (Nat × String)} (op : α → Operation β) (view : β → Json.Value)
      (hcheck : ∀ a, body.check a = .ok () → (op a).Lawful) :
      Guards (reading path name body responses (fun a => view <$> (op a).rule) tag)
  | plain {β : Type} {path name tag : String} {responses : List (Nat × String)}
      (op : Operation β) (view : β → Json.Value) (h : op.Lawful) :
      Guards (plain path name responses (view <$> op.rule) tag)

theorem secure_guards : ∀ e ∈ secure, e.Guards := by
  refine List.forall_mem_cons.2 ⟨.reading .authenticate View.decision fun _ _ => trivial, ?_⟩
  refine List.forall_mem_cons.2 ⟨.reading (fun x : Int32 × String => .authorize x.1 x.2)
    View.authorized fun _ _ => trivial, ?_⟩
  exact List.forall_mem_nil _

theorem permissions_guards : ∀ e ∈ permissions, e.Guards := by
  refine List.forall_mem_cons.2
    ⟨.reading .permissionsOf (View.list View.methodEntry) fun _ _ => trivial, ?_⟩
  refine List.forall_mem_cons.2
    ⟨.reading .setPermission View.count fun _ => Body.nonBlank_ok, ?_⟩
  refine List.forall_mem_cons.2
    ⟨.reading .setPermissions (View.list View.methodEntry) fun _ => Body.setList_check, ?_⟩
  refine List.forall_mem_cons.2 ⟨.reading
    (fun x : Int32 × List String => .deletePermissions x.1 x.2) View.count fun _ _ => trivial, ?_⟩
  exact List.forall_mem_nil _

theorem domains_guards : ∀ e ∈ domains, e.Guards := by
  refine List.forall_mem_cons.2
    ⟨.reading .domainsOfSystem (View.list Domain.toJson) fun _ _ => trivial, ?_⟩
  refine List.forall_mem_cons.2
    ⟨.reading .writeDomain Domain.toJson fun _ => Body.nonBlank_ok, ?_⟩
  refine List.forall_mem_cons.2 ⟨.reading .domainById Domain.toJson fun _ _ => trivial, ?_⟩
  refine List.forall_mem_cons.2 ⟨.reading .deleteDomains View.count fun _ _ => trivial, ?_⟩
  exact List.forall_mem_nil _

theorem applications_guards : ∀ e ∈ applications, e.Guards := by
  let shown := View.list ApplicationWithTokens.toJson
  refine List.forall_mem_cons.2 ⟨.reading .applicationsByIds shown fun _ _ => trivial, ?_⟩
  refine List.forall_mem_cons.2 ⟨.reading .applicationsOfGroup shown fun _ _ => trivial, ?_⟩
  refine List.forall_mem_cons.2
    ⟨.reading .writeApplication ApplicationWithTokens.toJson fun _ => Body.nonBlank_ok, ?_⟩
  refine List.forall_mem_cons.2
    ⟨.reading .applicationById ApplicationWithTokens.toJson fun _ _ => trivial, ?_⟩
  refine List.forall_mem_cons.2
    ⟨.reading .applicationByToken ApplicationWithTokens.toJson fun _ _ => trivial, ?_⟩
  refine List.forall_mem_cons.2 ⟨.reading .deleteApplications View.count fun _ _ => trivial, ?_⟩
  refine List.forall_mem_cons.2
    ⟨.reading .systemTree (View.list DomainNode.toJson) fun _ _ => trivial, ?_⟩
  refine List.forall_mem_cons.2 ⟨.plain .nextApplicationId View.nextId trivial, ?_⟩
  refine List.forall_mem_cons.2 ⟨.plain .allApplications shown trivial, ?_⟩
  refine List.forall_mem_cons.2
    ⟨.reading .createApplication ApplicationWithTokens.toJson fun _ => Body.nonBlank_ok, ?_⟩
  refine List.forall_mem_cons.2 ⟨.reading .updateApplication ApplicationWithTokens.toJson
    fun _ => Body.updateApplication_check, ?_⟩
  exact List.forall_mem_nil _

theorem tokens_guards : ∀ e ∈ tokens, e.Guards := by
  refine List.forall_mem_cons.2 ⟨.reading (fun x : Int32 × Int64 => .createToken x.1 x.2)
    ApplicationWithTokens.toJson fun _ _ => trivial, ?_⟩
  refine List.forall_mem_cons.2 ⟨.reading
    (fun x : Int32 × List String => .revokeTokens x.1 x.2) View.revoked fun _ _ => trivial, ?_⟩
  refine List.forall_mem_cons.2 ⟨.reading .revokeAllTokens View.revoked fun _ _ => trivial, ?_⟩
  refine List.forall_mem_cons.2
    ⟨.reading .tokensOf (View.list Token.toJson) fun _ _ => trivial, ?_⟩
  exact List.forall_mem_nil _

theorem groups_guards : ∀ e ∈ groups, e.Guards := by
  refine List.forall_mem_cons.2
    ⟨.reading .createGroup AppGroup.toJson fun _ => Body.nonBlank_ok, ?_⟩
  refine List.forall_mem_cons.2
    ⟨.reading .updateGroup AppGroup.toJson fun _ => Body.nonBlank_ok, ?_⟩
  refine List.forall_mem_cons.2 ⟨.reading .deleteGroups View.count fun _ _ => trivial, ?_⟩
  refine List.forall_mem_cons.2
    ⟨.reading .groupsByIds (View.list AppGroup.toJson) fun _ _ => trivial, ?_⟩
  refine List.forall_mem_cons.2 ⟨.plain .allGroups (View.list AppGroup.toJson) trivial, ?_⟩
  exact List.forall_mem_nil _

theorem guards_of_mem {e : Endpoint} (h : e ∈ all) : e.Guards := by
  simp only [all, List.mem_append] at h
  rcases h with ((((h | h) | h) | h) | h) | h
  · exact secure_guards e h
  · exact permissions_guards e h
  · exact domains_guards e h
  · exact applications_guards e h
  · exact tokens_guards e h
  · exact groups_guards e h

/-- A body that is read keeps the rules of its form. -/
theorem check_of_readBody {α : Type} {body : Body α} {r : Request} {a : α}
    (h : readBody body r = .ok a) : body.check a = .ok () := by
  obtain ⟨_, _, h⟩ := except_bind_ok h
  obtain ⟨b, _, h⟩ := except_bind_ok h
  obtain ⟨_, hcheck, h⟩ := except_bind_ok h
  cases h
  exact hcheck

theorem Guards.handle_lawful {e : Endpoint} (h : e.Guards) (r : Request) :
    (e.handle r).Only fun _ c => Port.Lawful c := by
  have hanswer {β : Type} {op : Operation β} (view : β → Json.Value) (hop : op.Lawful) :
      (Endpoint.answer (view <$> op.rule)).Only fun _ c => Port.Lawful c :=
    Program.Only.bind (Action.Only.map (op.rule_lawful hop) view) fun _ => trivial
  cases h with
  | plain op view h => exact hanswer view h
  | reading op view hcheck =>
    simp only [Endpoint.reading]
    split
    · rename_i a hread
      exact hanswer view (hcheck a (check_of_readBody hread))
    · trivial

end Endpoint

theorem answer_lawful (kept : Option Metrics) (r : Request) :
    (answer kept r).Only fun _ c => Port.Lawful c := by
  unfold answer
  split
  · trivial
  rename_i resource hat
  split
  · refine Program.Only.bind ?_ fun _ => trivial
    cases resource with
    | operation e => exact (Endpoint.guards_of_mem (Resource.mem_of_at? hat)).handle_lawful r
    | document => trivial
    | liveness => trivial
    | readiness =>
      refine ⟨trivial, fun x => ?_⟩
      cases x <;> exact trivial
    | metrics => cases kept <;> exact trivial
  · trivial

end Http

/-! ## Callers -/

/-- A request with a body. -/
def Http.Request.post (target text : String) : Http.Request where
  method := "POST"
  target := target
  contentType := some "application/json"
  body := Json.Source.ofString text

/-- Who comes to the service. -/
inductive Caller where
  /-- a request, with the counts of requests if they are kept -/
  | request (r : Http.Request) (kept : Option Http.Metrics)
  /-- a run that sets up the registry -/
  | provision (token : String)

/-- What a caller makes the service do, and what it is told. -/
def Caller.program : Caller → Program (Effect Port) (Http.Answer ⊕ Except Failure BaselineOutcome)
  | .request r kept => (Http.serve r kept).bind fun a => .done (.inl a.1)
  | .provision token => (Action.program (Provisioning.run token)).bind fun x => .done (.inr x)

theorem Caller.program_lawful (c : Caller) : c.program.Only fun _ c => Port.Lawful c := by
  cases c with
  | request r kept =>
    exact .bind (.bind (Http.answer_lawful kept r) fun _ => trivial) fun _ => trivial
  | provision token => exact .bind (Provisioning.run_lawful token) fun _ => trivial

/-- The turns of clients that are served one after the other. -/
def Turn.inOrder (clients turnsEach : Nat) : List Turn :=
  (List.range clients).flatMap fun i => List.replicate turnsEach (.client i)

namespace World

/-- Lawful work leaves lawful rows. -/
theorem lawful_work {u : UseCase} {ρ : Type} {p : Program (Effect (Capability u)) ρ}
    (hp : p.Only fun _ c => Capability.Lawful c) {w : World} (h : w.tables.Lawful) :
    ((p.run answerWork).run w).2.tables.Lawful := by
  induction p generalizing w with
  | done a => exact h
  | ask e next ih =>
    cases e with
    | call c => exact ih _ (hp.2 _) (lawful_perform h w.now hp.1)
    | now => exact ih _ (hp _) h
    | mint => exact ih _ (hp _) h

/-- The answer to a lawful call leaves lawful rows. -/
theorem lawful_answerCall {γ : Type} {c : Port γ} (hc : c.Lawful) {w : World}
    (h : w.tables.Lawful) : ((answerCall c).run w).2.tables.Lawful := by
  cases c with
  | createDomain name description systemId => exact lawful_createDomain h w.now hc _ _
  | updateDomain id name description => exact lawful_updateDomain h w.now id hc _
  | deleteDomains ids => exact lawful_deleteDomains h ids
  | createGroup name description domainId => exact lawful_createGroup h w.now hc _ _
  | updateGroup id name description => exact lawful_updateGroup h w.now id hc _
  | deleteGroups ids => exact lawful_deleteGroups h ids
  | createApplication app => exact lawful_createApplication h w.now hc
  | updateApplication id name description =>
    exact lawful_updateApplication h w.now (.inl rfl) hc _
  | updateApplicationId oldId newId name description =>
    exact lawful_updateApplication h w.now (.inr hc.2) hc.1 _
  | deleteAccessLists appId methods => exact lawful_deleteAccessListsWhere h _
  | transaction u work =>
    have hwork : (outcome answerWork work w).2.tables.Lawful := lawful_work hc h
    have htables : ((answerCall (.transaction u work)).run w).2.tables =
      if (outcome answerWork work w).1.toBool then (outcome answerWork work w).2.tables
      else w.tables := rfl
    rw [htables]
    split
    · exact hwork
    · exact h
  | _ => exact h

/-- A program that makes only lawful calls leaves lawful rows. -/
theorem run_lawful {ρ : Type} {p : Program (Effect Port) ρ}
    (hp : p.Only fun _ c => Port.Lawful c) {w : World} (h : w.tables.Lawful) :
    ((p.run answer).run w).2.tables.Lawful := by
  induction p generalizing w with
  | done a => exact h
  | ask e next ih =>
    cases e with
    | call c => exact ih _ (hp.2 _) (lawful_answerCall hp.1 h)
    | now => exact ih _ (hp _) h
    | mint => exact ih _ (hp _) h

end World

namespace Traffic

variable {α : Type}

/-- A turn of clients that make only lawful calls leaves lawful rows, and such clients. -/
theorem turn_lawful {s : Traffic α} (hclients : ∀ p ∈ s.clients, p.Only fun _ c => Port.Lawful c)
    (h : s.world.tables.Lawful) (next : Turn) :
    (∀ p ∈ (s.turn next).clients, p.Only fun _ c => Port.Lawful c) ∧
      (s.turn next).world.tables.Lawful := by
  cases next with
  | clock now => exact ⟨hclients, h⟩
  | client i =>
    simp only [turn]
    cases hp : s.clients[i]? with
    | none => exact ⟨hclients, h⟩
    | some p =>
      have hlawful := hclients p (List.mem_of_getElem? hp)
      have hrest {p' : Program (Effect Port) α} (hp' : p'.Only fun _ c => Port.Lawful c) :
          ∀ q ∈ s.clients.set i p', q.Only fun _ c => Port.Lawful c := by
        intro q hq
        rcases List.mem_or_eq_of_mem_set hq with hq | rfl
        · exact hclients q hq
        · exact hp'
      cases p with
      | done a => exact ⟨hrest trivial, h⟩
      | ask e next =>
        cases e with
        | call c => exact ⟨hrest (hlawful.2 _), lawful_answerCall hlawful.1 h⟩
        | now => exact ⟨hrest (hlawful _), h⟩
        | mint => exact ⟨hrest (hlawful _), h⟩

theorem after_lawful {s : Traffic α} (hclients : ∀ p ∈ s.clients, p.Only fun _ c => Port.Lawful c)
    (h : s.world.tables.Lawful) (turns : List Turn) : (s.after turns).world.tables.Lawful := by
  induction turns generalizing s with
  | nil => exact h
  | cons next turns ih =>
    obtain ⟨hclients, h⟩ := turn_lawful hclients h next
    exact ih hclients h

theorem lawful_programs (callers : List Caller) :
    ∀ p ∈ callers.map Caller.program, p.Only fun _ c => Port.Lawful c := by
  intro p hp
  obtain ⟨c, _, rfl⟩ := List.mem_map.1 hp
  exact c.program_lawful

/-- Callers, at a world with empty tables. -/
def receiving (now : Instant) (mint : Nat → String) (callers : List Caller) :
    Traffic (Http.Answer ⊕ Except Failure BaselineOutcome) :=
  start now mint (callers.map Caller.program)

theorem lawful_receiving (now : Instant) (mint : Nat → String) (callers : List Caller)
    (turns : List Turn) : ((receiving now mint callers).after turns).world.tables.Lawful :=
  after_lawful (lawful_programs callers) lawful_empty turns

/-- Whoever calls and in whatever order: the rules on fields hold of every stored row, and as long
as the counters have not ended, ids are at least 1 in every table, so that none is 0. -/
theorem admitted_after (now : Instant) (mint : Nat → String) (callers : List Caller)
    (turns : List Turn) :
    let s := receiving now mint callers
    let t := (s.after turns).world.tables
    t.Lawful ∧ ¬ t.applications.contains 0 ∧
      ((∀ p ∈ s.past turns, p.nextDomainId < Int32.maxValue) →
        (∀ d ∈ t.domains, 1 ≤ d.id) ∧ ¬ t.domains.contains 0) ∧
      ((∀ p ∈ s.past turns, p.nextGroupId < Int32.maxValue) →
        (∀ g ∈ t.groups, 1 ≤ g.id) ∧ ¬ t.groups.contains 0) := by
  intro s t
  have hlawful : t.Lawful := lawful_receiving now mint callers turns
  -- a row under the id 0 would be one with an id of at least 1
  have hzero {ρ : Type} [Keyed ρ Int32] {rows : Table ρ}
      (h : ∀ r ∈ rows, 1 ≤ (Keyed.key r : Int32)) : ¬ rows.contains 0 := by
    intro hused
    obtain ⟨r, hr, hkey⟩ := Table.contains_iff.1 hused
    have hpos := h r hr
    rw [hkey] at hpos
    exact absurd hpos (by decide)
  refine ⟨hlawful, hzero fun a ha => (hlawful.applications a ha).2, fun hpast => ?_,
    fun hpast => ?_⟩
  · have hids : t.DomainIds :=
      after_invariant (fun he hmax h => he.domainIds hmax h) s turns hpast domainIds_empty
    exact ⟨hids.rows, hzero hids.rows⟩
  · have hids : t.GroupIds :=
      after_invariant (fun he hmax h => he.groupIds hmax h) s turns hpast groupIds_empty
    exact ⟨hids.rows, hzero hids.rows⟩

end Traffic

end AccessRegistry
