import AccessRegistry.Proofs.Integrity

/-!
# AccessRegistry.Proofs.Traffic

Several clients at one world. Each client works through a program of its own; a turn is the next
request of one client, or the clock being set. `Traffic.after` is the state after any sequence of
turns, so its states are those that some interleaving of the clients' calls leads to.

* `World.passed`  — the tables that the statements of a request start from, the private copies of
  a transaction that commits included.
* `Tables.Edits`  — a chain of edits through given tables.
* `answer_edits`  — every request is such a chain.
* `Traffic.after_invariant` — what every edit keeps, every sequence of turns keeps.
-/

namespace AccessRegistry

/-! ## Requests as chains of edits -/

/-- The second tables come from the first by edits, one from each of the listed tables. -/
inductive Tables.Edits : List Tables → Tables → Tables → Prop where
  | refl {t : Tables} : Edits [] t t
  | cons {t t' t'' : Tables} {past : List Tables} :
      Edit t t' → Edits past t' t'' → Edits (t :: past) t t''

namespace Tables.Edits

theorem single {t t' : Tables} (h : Edit t t') : Edits [t] t t' := .cons h .refl

/-- What edits keep as long as the tables they start from satisfy `P`, chains of them keep. -/
theorem invariant {I P : Tables → Prop}
    (hedit : ∀ {t t' : Tables}, Edit t t' → P t → I t → I t') {past : List Tables}
    {t t' : Tables} (h : Edits past t t') (hpast : ∀ s ∈ past, P s) (hI : I t) : I t' := by
  induction h with
  | refl => exact hI
  | cons he _ ih =>
    obtain ⟨ht, hpast⟩ := List.forall_mem_cons.1 hpast
    exact ih hpast (hedit he ht hI)

end Tables.Edits

namespace World

open Tables

/-- No rows, and no token made yet. -/
def fresh (now : Instant) (mint : Nat → String) : World := ⟨.empty, now, mint, 0⟩

/-- The tables before each request of some work. -/
def copies {u : UseCase} {ρ : Type} : Program (Effect (Capability u)) ρ → World → List Tables
  | .done _, _ => []
  | .ask e next, w =>
    let (b, w') := (answerWork _ e).run w
    w.tables :: copies (next b) w'

/-- The tables that the statements of a request start from. A transaction that fails leaves none
behind. -/
def passed {β : Type} (w : World) : Effect Port β → List Tables
  | .call (.transaction _ work) =>
    if ((work.program.run answerWork).run w).1.toBool then copies work.program w else []
  | _ => [w.tables]

theorem answerWork_edit {u : UseCase} {β : Type} (e : Effect (Capability u) β) (w : World) :
    Edit w.tables ((answerWork β e).run w).2.tables := by
  cases e with
  | call c => exact perform_edit w.now c
  | now => exact .nothing
  | mint => exact .nothing

theorem copies_edits {u : UseCase} {ρ : Type} (p : Program (Effect (Capability u)) ρ)
    (w : World) : Edits (copies p w) w.tables ((p.run answerWork).run w).2.tables := by
  induction p generalizing w with
  | done a => exact .refl
  | ask e next ih => exact .cons (answerWork_edit e w) (ih _ _)

/-- The result of a transaction is kept or dropped as a whole. -/
theorem transact_edits {u : UseCase} {ρ : Type} (work : Program (Effect (Capability u)) ρ)
    (commits : ρ → Bool) (w : World) :
    Edits (if commits ((work.run answerWork).run w).1 then copies work w else []) w.tables
      ((transact work commits).run w).2.tables := by
  have htables : ((transact work commits).run w).2.tables =
      if commits ((work.run answerWork).run w).1 then ((work.run answerWork).run w).2.tables
      else w.tables := rfl
  rw [htables]
  split
  · exact copies_edits work w
  · exact .refl

/-- A request leads through edits. -/
theorem answer_edits {β : Type} (e : Effect Port β) (w : World) :
    Edits (w.passed e) w.tables ((answer β e).run w).2.tables := by
  cases e with
  | now => exact .single .nothing
  | mint => exact .single .nothing
  | call c =>
    cases c with
    | transaction u work => exact transact_edits work.program _ w
    | createDomain name description systemId => exact .single (createDomain_edit ..)
    | updateDomain id name description => exact .single (updateDomain_edit ..)
    | deleteDomains ids => exact .single (.removeDomains ids)
    | createGroup name description domainId => exact .single (createGroup_edit ..)
    | updateGroup id name description => exact .single (updateGroup_edit ..)
    | deleteGroups ids => exact .single (.removeGroups ids)
    | createApplication app => exact .single (createApplication_edit ..)
    | updateApplication id name description => exact .single (updateApplication_edit ..)
    | updateApplicationId oldId newId name description =>
      exact .single (updateApplication_edit ..)
    | deleteAccessLists appId methods => exact .single (.removePermissions _)
    | _ => exact .single .nothing

end World

/-! ## Clients -/

/-- A world and what is left of the programs of its clients. -/
structure Traffic (α : Type) where
  world : World
  clients : List (Program (Effect Port) α)

/-- What happens next: a client makes its next request, or the clock is set. -/
inductive Turn where
  | client (i : Nat)
  | clock (now : Instant)

namespace Traffic

variable {α : Type}

/-- Answers the next request of a program. -/
def advance (w : World) : Program (Effect Port) α → Program (Effect Port) α × World
  | .done a => (.done a, w)
  | .ask e next =>
    let (b, w') := (World.answer _ e).run w
    (next b, w')

/-- The state after a turn. The turn of a client that is not there changes nothing. -/
def turn (s : Traffic α) : Turn → Traffic α
  | .client i =>
    match s.clients[i]? with
    | none => s
    | some p =>
      let (p', w) := advance s.world p
      ⟨w, s.clients.set i p'⟩
  | .clock now => { s with world := { s.world with now } }

/-- The tables that the statements of a turn start from. -/
def passed (s : Traffic α) : Turn → List Tables
  | .client i =>
    match s.clients[i]? with
    | some (.ask e _) => s.world.passed e
    | _ => []
  | .clock _ => []

/-- The state after some turns. -/
def after (s : Traffic α) (turns : List Turn) : Traffic α := turns.foldl turn s

/-- The tables that the statements of some turns start from. -/
def past (s : Traffic α) : List Turn → List Tables
  | [] => []
  | next :: turns => s.passed next ++ (s.turn next).past turns

theorem after_append (s : Traffic α) (turns more : List Turn) :
    s.after (turns ++ more) = (s.after turns).after more := List.foldl_append

theorem past_append (s : Traffic α) (turns more : List Turn) :
    s.past (turns ++ more) = s.past turns ++ (s.after turns).past more := by
  induction turns generalizing s with
  | nil => rfl
  | cons next turns ih =>
    rw [List.cons_append, past, ih, past, List.append_assoc]
    rfl

/-- A world with empty tables, and clients. -/
def start (now : Instant) (mint : Nat → String) (clients : List (Program (Effect Port) α)) :
    Traffic α := ⟨.fresh now mint, clients⟩

section Invariants

variable {I P : Tables → Prop}

theorem turn_invariant (hedit : ∀ {t t' : Tables}, Tables.Edit t t' → P t → I t → I t')
    (s : Traffic α) (next : Turn) (hpast : ∀ t ∈ s.passed next, P t) (hI : I s.world.tables) :
    I (s.turn next).world.tables := by
  cases next with
  | clock now => exact hI
  | client i =>
    simp only [turn, passed] at hpast ⊢
    cases hp : s.clients[i]? with
    | none => exact hI
    | some p =>
      rw [hp] at hpast
      cases p with
      | done a => exact hI
      | ask e next => exact (World.answer_edits e s.world).invariant hedit hpast hI

/-- What edits keep as long as the tables they start from satisfy `P` holds after any turns. -/
theorem after_invariant (hedit : ∀ {t t' : Tables}, Tables.Edit t t' → P t → I t → I t')
    (s : Traffic α) (turns : List Turn) (hpast : ∀ t ∈ s.past turns, P t)
    (hI : I s.world.tables) : I (s.after turns).world.tables := by
  induction turns generalizing s with
  | nil => exact hI
  | cons next turns ih =>
    have hmem : ∀ t, t ∈ s.passed next ∨ t ∈ (s.turn next).past turns → P t := fun t ht =>
      hpast t (List.mem_append.2 ht)
    exact ih (s.turn next) (fun t ht => hmem t (.inr ht))
      (turn_invariant hedit s next (fun t ht => hmem t (.inl ht)) hI)

end Invariants

/-- The rules among the rows are kept whatever the clients do. -/
theorem keeps_wellFormed (s : Traffic α) (h : s.world.tables.WellFormed) (turns : List Turn) :
    (s.after turns).world.tables.WellFormed :=
  after_invariant (fun he _ h => he.wellFormed h) s turns (fun _ _ => trivial) h

section Start

variable {now : Instant} {mint : Nat → String} {clients : List (Program (Effect Port) α)}
  {turns : List Turn}

theorem start_wellFormed : ((start now mint clients).after turns).world.tables.WellFormed :=
  keeps_wellFormed (start now mint clients) Tables.wellFormed_empty turns

theorem start_domainsBelow
    (hpast : ∀ p ∈ (start now mint clients).past turns, p.nextDomainId < Int32.maxValue) :
    ((start now mint clients).after turns).world.tables.DomainsBelow :=
  after_invariant (fun he hmax h => he.domainsBelow hmax h) _ turns hpast Tables.domainsBelow_empty

theorem start_groupsBelow
    (hpast : ∀ p ∈ (start now mint clients).past turns, p.nextGroupId < Int32.maxValue) :
    ((start now mint clients).after turns).world.tables.GroupsBelow :=
  after_invariant (fun he hmax h => he.groupsBelow hmax h) _ turns hpast Tables.groupsBelow_empty

end Start

/-- Whatever several clients do, in whatever order their requests are answered: rows are found under
their own keys, as they are in all tables, the rules among the rows hold, and new ids are new until
a counter ends. -/
theorem wellFormed_after (now : Instant) (mint : Nat → String)
    (clients : List (Program (Effect Port) α)) (turns : List Turn) :
    let s := start now mint clients
    let t := (s.after turns).world.tables
    t.FoundByKey ∧ t.WellFormed ∧
      ((∀ p ∈ s.past turns, p.nextDomainId < Int32.maxValue) → t.DomainsBelow) ∧
      ((∀ p ∈ s.past turns, p.nextGroupId < Int32.maxValue) → t.GroupsBelow) := by
  intro s t
  exact ⟨t.foundByKey, start_wellFormed, start_domainsBelow, start_groupsBelow⟩

end Traffic
end AccessRegistry
