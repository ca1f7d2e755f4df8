import AccessRegistry.Proofs.Creation
import AccessRegistry.Proofs.Request

/-!
# AccessRegistry.Proofs.Contest

Several requests create something under the same name and parent at the same time, and all of them
may find the name free before one of them takes it. One request succeeds (`one_winner`).

* `Contest`         — what is created, with its name and parent; `Contest.Enters` says by which
  operations.
* `Contest.Entrant` — a request for such an operation.
-/

namespace AccessRegistry

open AccessRegistry.Action World Tables

/-! ## Contests -/

/-- What several requests want to create at the same time, each a row of its own. -/
inductive Contest where
  | domain (name : String)
  | group (name : String) (domainId : Int32)
  /-- under ids that the requests bring -/
  | application (name : String) (groupId : Int32)
  /-- under the next id -/
  | nextApplication (name : String) (groupId : Int32)

/-- The id that a new row gets from the operation. -/
def Operation.newId? {α : Type} : Operation α → Option Int32
  | .createApplication req => some req.id
  | _ => none

namespace Contest

variable {t : Tables} {lost : Tables → Prop}

/-- The parent is there and the name is free. The parent of a domain is the one system. Where the
storage chooses ids, there are two more of them. -/
def Open (t : Tables) : Contest → Prop
  | .domain name => ∀ d ∈ t.domains, d.name = name → d.systemId ≠ defaultSystemId
  | .group name domainId =>
    t.domains.contains domainId ∧ ∀ g ∈ t.groups, g.name = name → g.domainId ≠ domainId
  | .application name groupId =>
    t.groups.contains groupId ∧
      ∀ a ∈ t.applications, a.name = name → a.applicationGroupId ≠ groupId
  | .nextApplication name groupId =>
    t.groups.contains groupId ∧
      (∀ a ∈ t.applications, a.name = name → a.applicationGroupId ≠ groupId) ∧
      ∀ a ∈ t.applications, 0 < a.id ∧ a.id < Int32.maxValue - 1

/-- The operation creates what the contest is about, in the way that the contest is about. -/
inductive Enters (t : Tables) : Contest → {α : Type} → Operation α → Prop where
  | domain {name : String} (req : DomainWrite) (hid : req.id = 0) (hname : req.name = name)
      (hsystem : req.systemId = defaultSystemId) : Enters t (.domain name) (.writeDomain req)
  | group {name : String} {domainId : Int32} (req : GroupWrite) (hname : req.name = name)
      (hparent : req.domainId.getD defaultDomainId = domainId) :
      Enters t (.group name domainId) (.createGroup req)
  | application {name : String} {groupId : Int32} (req : NewApplication) (hpos : 0 < req.id)
      (hid : ¬ t.applications.contains req.id) (hname : req.name = name)
      (hparent : req.applicationGroupId = groupId) :
      Enters t (.application name groupId) (.createApplication req)
  | nextApplication {name : String} {groupId : Int32} (req : NewApplication) (hid : req.id = 0)
      (hname : req.name = name) (hparent : req.applicationGroupId = groupId) :
      Enters t (.nextApplication name groupId) (.writeApplication req)

/-- How many calls an operation makes at most. -/
def calls : Contest → Nat
  | .domain _ => 2
  | .group .. => 3
  | .application .. => 1
  | .nextApplication .. => 6

/-- What those who lose are told. -/
def duplicate : Contest → Failure
  | .domain _ => .domainDuplicateName
  | .group .. => .appGroupDuplicateName
  | .application .. | .nextApplication .. => .applicationDuplicateName

theorem contends {c : Contest} {α : Type} {op : Operation α} (hopen : c.Open t)
    (hdomains : t.DomainsBelow) (hgroups : t.GroupsBelow) (henters : c.Enters t op)
    (hlost : ∀ t', lost t' → ∃ (β : Type) (other : Operation β) (x : β), c.Enters t other ∧
      (∀ id ∈ op.newId?, ∀ id' ∈ other.newId?, id ≠ id') ∧ other.Adds t x t') :
    op.Contends t lost c.duplicate c.calls := by
  cases henters with
  | domain req hid hname hsystem =>
    subst hname
    refine writeDomain_contends hid hsystem (by rwa [hsystem]) hdomains fun t' ht => ?_
    -- whoever has won has entered the same contest, and the tables have its row
    obtain ⟨_, _, _, hother, _, hadds⟩ := hlost t' ht
    cases hother with
    | domain req' _ hname' hsystem' =>
      obtain ⟨⟨now, rfl⟩, _, rfl⟩ := hadds
      exact ⟨_, Table.mem_insert.2 (.inl rfl), hname', hsystem'.trans hsystem.symm⟩
  | group req hname hparent =>
    subst hname hparent
    refine createGroup_contends hopen.1 hopen.2 hgroups fun t' ht => ?_
    obtain ⟨_, _, _, hother, _, hadds⟩ := hlost t' ht
    cases hother with
    | group req' hname' hparent' =>
      obtain ⟨⟨now, rfl⟩, _, rfl⟩ := hadds
      exact ⟨hopen.1, _, Table.mem_insert.2 (.inl rfl), hname', hparent'⟩
  | application req hpos hid hname hparent =>
    subst hname hparent
    refine createApplication_contends hpos hid hopen.1 hopen.2 fun t' ht => ?_
    obtain ⟨_, _, _, hother, hne, hadds⟩ := hlost t' ht
    cases hother with
    | application req' _ _ hname' hparent' =>
      obtain ⟨⟨now, rfl⟩, _, rfl⟩ := hadds
      refine ⟨?_, _, Table.mem_insert.2 (.inl rfl), hname', hparent'⟩
      -- the winner has brought another id
      rw [Table.contains_insert_ne (hne _ rfl _ rfl)]
      exact hid
  | nextApplication req hid hname hparent =>
    subst hname hparent
    obtain ⟨hgroup, hfree, hids⟩ := hopen
    have hids' : ∀ a ∈ t.applications, 0 < a.id ∧ a.id < Int32.maxValue :=
      fun a ha => ⟨(hids a ha).1, lt_max_of_lt_sub_one (hids a ha).2⟩
    refine writeApplication_contends hid hids' hgroup hfree fun t' ht => ?_
    obtain ⟨_, _, _, hother, _, hadds⟩ := hlost t' ht
    cases hother with
    | nextApplication req' _ hname' hparent' =>
      obtain ⟨⟨now, rfl⟩, _, rfl⟩ := hadds
      refine ⟨hgroup, Table.contains_insert_self, fun a ha => ?_, _,
        Table.mem_insert.2 (.inl rfl), hname', hparent'⟩
      rcases Table.mem_insert.1 ha with rfl | ⟨ha, _⟩
      · exact ⟨nextApplicationId_pos hids', nextApplicationId_lt_max fun a ha => (hids a ha).2⟩
      · exact hids' a ha

/-- A request that takes part in a contest, and the operation that it asks for. -/
structure Entrant (c : Contest) (t : Tables) where
  {α : Type}
  request : Http.Request
  kept : Option Http.Metrics
  op : Operation α
  view : α → Json.Value
  asks : request.AsksFor op view
  enters : c.Enters t op

variable {c : Contest}

/-- The answer to the request. -/
def Entrant.program (e : c.Entrant t) : Program (Effect Port) Http.Answer :=
  Http.answer e.kept e.request

/-- The entrant is shown its row, which the tables have gained. -/
def Entrant.Wins (e : c.Entrant t) (a : Http.Answer) (t' : Tables) : Prop :=
  ∃ x, a = .ok (e.view x) ∧ e.op.Adds t x t'

theorem Entrant.contends (e : c.Entrant t) (hopen : c.Open t) (hdomains : t.DomainsBelow)
    (hgroups : t.GroupsBelow)
    (hlost : ∀ t', lost t' → ∃ other : c.Entrant t,
      (∀ id ∈ e.op.newId?, ∀ id' ∈ other.op.newId?, id ≠ id') ∧ ∃ a, other.Wins a t') :
    Contends e.Wins lost (.ofFailure c.duplicate) t c.calls e.program := by
  have hop : e.op.Contends t lost c.duplicate c.calls :=
    Contest.contends hopen hdomains hgroups e.enters fun t' ht => by
      obtain ⟨other, hne, _, x, _, hadds⟩ := hlost t' ht
      exact ⟨_, other.op, x, other.enters, hne, hadds⟩
  rw [program, Http.answer_eq_bind e.asks]
  refine (hop.map fun r => Http.Answer.ofResult (r.map e.view)).mono ?_
  rintro _ t' ⟨_, rfl, x, rfl, hadds⟩
  exact ⟨x, rfl, hadds⟩

/-- The ids that two entrants bring are different. -/
theorem newId_ne {entrants : List (c.Entrant t)}
    (hids : (entrants.filterMap fun e => e.op.newId?).Nodup) {i j : Nat} {e other : c.Entrant t}
    (he : entrants[i]? = some e) (hother : entrants[j]? = some other) (hij : i ≠ j) :
    ∀ id ∈ e.op.newId?, ∀ id' ∈ other.op.newId?, id ≠ id' := by
  have hpairwise := List.pairwise_iff_getElem.1 (List.pairwise_filterMap.1 hids)
  obtain ⟨hi, rfl⟩ := List.getElem?_eq_some_iff.1 he
  obtain ⟨hj, rfl⟩ := List.getElem?_eq_some_iff.1 hother
  intro id hid id' hid'
  rcases Nat.lt_or_gt_of_ne hij with hlt | hlt
  · exact hpairwise i j hi hj hlt id hid id' hid'
  · exact Ne.symm (hpairwise j i hj hi hlt id' hid' id hid)

/-- Several requests create something under one name and parent at the same time, in any
interleaving of their calls. Who has had turns enough is done, and when all are done, one of them
has succeeded and its row is what the tables have gained; all others are told that the name is
taken. -/
theorem one_winner (c : Contest) (w : World) (hopen : c.Open w.tables)
    (hdomains : w.tables.DomainsBelow) (hgroups : w.tables.GroupsBelow)
    (entrants : List (c.Entrant w.tables)) (hsome : entrants ≠ [])
    (hids : (entrants.filterMap fun e => e.op.newId?).Nodup) (turns : List Turn) :
    let s := (Traffic.mk w (entrants.map Entrant.program)).after turns
    (∀ i p, s.clients[i]? = some p → c.calls ≤ turns.countP (Turn.isOf i) → ∃ a, p = .done a) ∧
    ((∀ p ∈ s.clients, ∃ a, p = .done a) →
      ∃ k e x, entrants[k]? = some e ∧ s.clients[k]? = some (.done (.ok (e.view x))) ∧
        e.op.Adds w.tables x s.world.tables ∧
        ∀ j, j ≠ k → j < entrants.length →
          ∃ a, s.clients[j]? = some (.done a) ∧ a = .ofFailure c.duplicate ∧
            a.Reports (.error c.duplicate)) := by
  intro s
  let wins (i : Nat) (a : Http.Answer) (t' : Tables) : Prop :=
    ∃ e, entrants[i]? = some e ∧ e.Wins a t'
  have hcontends (i : Nat) (p : Program (Effect Port) Http.Answer)
      (hp : (entrants.map Entrant.program)[i]? = some p) :
      Contends (wins i) (Traffic.Lost wins i) (.ofFailure c.duplicate) w.tables c.calls p := by
    rw [List.getElem?_map] at hp
    obtain ⟨e, he, rfl⟩ := Option.map_eq_some_iff.1 hp
    refine (e.contends hopen hdomains hgroups fun t' ht => ?_).mono fun a t' h => ⟨e, he, h⟩
    obtain ⟨j, hji, a, other, hother, hwins⟩ := ht
    exact ⟨other, newId_ne hids he hother hji.symm, a, hwins⟩
  have hsome' : entrants.map Entrant.program ≠ [] := by simpa using hsome
  obtain ⟨hdone, hall⟩ :=
    Traffic.race (s := ⟨w, entrants.map Entrant.program⟩) hsome' hcontends turns
  refine ⟨hdone, fun h => ?_⟩
  obtain ⟨k, _, hk, ⟨e, he, x, rfl, hadds⟩, hothers⟩ := hall h
  refine ⟨k, e, x, he, hk, hadds, fun j hjk hj =>
    ⟨_, hothers j hjk ?_, rfl, Http.Answer.reports_ofFailure _⟩⟩
  rwa [List.length_map]

/-- A request that creates the domain `a`. -/
def createA : Http.Request where
  method := "POST"
  target := "/system/domain/create_update_domain"
  contentType := some "application/json"
  body := Json.Source.ofString "\x7b\"name\":\"a\"\x7d"

theorem readBody_createA :
    Http.Endpoint.readBody Http.Body.domain createA = .ok ⟨0, "a", "", defaultSystemId⟩ := by
  have hfields : (Http.Endpoint.readBody Http.Body.domain createA).toOption.map
      (fun req => (req.id, req.name, req.description, req.systemId)) =
      some (0, "a", "", defaultSystemId) := by decide +kernel
  cases hread : Http.Endpoint.readBody Http.Body.domain createA with
  | error message =>
    rw [hread] at hfields
    cases hfields
  | ok req =>
    obtain ⟨id, name, description, systemId⟩ := req
    rw [hread] at hfields
    obtain ⟨rfl, rfl, rfl, rfl⟩ : id = 0 ∧ name = "a" ∧ description = "" ∧
      systemId = defaultSystemId := by simpa [Except.toOption] using hfields
    rfl

def entrantA : (domain "a").Entrant .empty where
  request := createA
  kept := none
  op := .writeDomain ⟨0, "a", "", defaultSystemId⟩
  view := Domain.toJson
  asks := Http.asksFor_of_readBody rfl rfl readBody_createA
  enters := .domain _ rfl rfl rfl

/-- Of two clients that both find the name free one gets it. -/
theorem one_of_two_domains :
    let s := (Traffic.mk (.fresh ⟨0, 0⟩ fun _ => "") [Http.answer none createA,
      Http.answer none createA]).after [.client 0, .client 1, .client 1, .client 0]
    ∃ k x, k < 2 ∧ s.clients[k]? = some (.done (.ok (Domain.toJson x))) ∧
      Tables.empty.AddsDomain ⟨0, "a", "", defaultSystemId⟩ x s.world.tables ∧
      ∃ a, s.clients[1 - k]? = some (.done a) ∧ a.Refuses 409 "ALREADY_EXISTS"
        "domain with the same name already exists" "DOMAIN_DUPLICATE_NAME" := by
  intro s
  have hopen : (domain "a").Open .empty := fun d hd => absurd hd Table.not_mem_empty
  obtain ⟨henough, hall⟩ := one_winner (domain "a") (.fresh ⟨0, 0⟩ fun _ => "") hopen
    domainsBelow_empty groupsBelow_empty [entrantA, entrantA] (List.cons_ne_nil _ _) (by decide)
    [.client 0, .client 1, .client 1, .client 0]
  have hlength : s.clients.length = 2 := Traffic.length_after _ _
  have hdone : ∀ p ∈ s.clients, ∃ a, p = .done a := by
    intro p hp
    obtain ⟨i, hi, rfl⟩ := List.mem_iff_getElem.1 hp
    refine henough i _ (List.getElem?_eq_getElem hi) ?_
    rw [hlength] at hi
    obtain rfl | rfl : i = 0 ∨ i = 1 := by omega
    · decide
    · decide
  obtain ⟨k, e, x, he, hk, hadds, hothers⟩ := hall hdone
  obtain ⟨hlt, _⟩ := List.getElem?_eq_some_iff.1 hk
  have hk2 : k < 2 := hlength ▸ hlt
  obtain rfl : entrantA = e := by
    obtain rfl | rfl : k = 0 ∨ k = 1 := by omega
    · exact Option.some.inj he
    · exact Option.some.inj he
  obtain ⟨a, ha, _, htold⟩ := hothers (1 - k) (by omega) (by show _ < 2; omega)
  exact ⟨k, x, hk2, hk, hadds, a, ha, htold⟩

end Contest

end AccessRegistry
