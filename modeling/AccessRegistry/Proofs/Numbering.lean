import AccessRegistry.Proofs.Traffic

/-!
# AccessRegistry.Proofs.Numbering

The ids of domains and groups are counted up, and a counter never goes back: a deletion leaves it
alone, a request that fails leaves it where it was, and a transaction that is rolled back has only
moved its own copy of it. `Numbered.Counts k ids t t'` says what that means for the ids of one kind
between two states of the tables, when `ids` are given out in between. It holds of every edit
(`Edit.counts`) and of what follows one another (`Counts.trans`), so of every sequence of turns.

* `Numbered`           — the two kinds of record that get their ids from a counter.
* `World.issues`       — the ids that a request gives out to stay.
* `Traffic.issued`     — the ids that some turns give out, in their order.
* `ids_never_reissued` — an id that was given out or seen never comes to denote another record.
-/

namespace AccessRegistry

open Tables

/-- What is found of a row among fewer rows is found among all. -/
theorem Table.map_find?_of_subset {ρ κ β : Type} [Keyed ρ κ] {t u : Table ρ} {k : κ} {f : ρ → β}
    {x : β} (hsub : ∀ r ∈ u, r ∈ t) (h : (u.find? k).map f = some x) :
    (t.find? k).map f = some x := by
  obtain ⟨r, hr, rfl⟩ := Option.map_eq_some_iff.1 h
  obtain ⟨hmem, hkey⟩ := Table.find?_eq_some_iff.1 hr
  rw [Table.find?_eq_some_iff.2 ⟨hsub r hmem, hkey⟩, Option.map_some]

/-! ## Counters -/

/-- The records whose ids are counted. -/
inductive Numbered where
  | domain
  | group

namespace Numbered

variable {k : Numbered} {ids ids' : List Int32} {t t' t'' : Tables} {id : Int32}
  {x : Int32 × Instant}

/-- The id that the next new record gets. -/
def next : Numbered → Tables → Int32
  | .domain => Tables.nextDomainId
  | .group => Tables.nextGroupId

/-- The ids of all records lie below the next one. -/
def Below : Numbered → Tables → Prop
  | .domain => DomainsBelow
  | .group => GroupsBelow

/-- What the record with an id is, however it is renamed: where it belongs and when it was made. -/
def identity? (k : Numbered) (t : Tables) (id : Int32) : Option (Int32 × Instant) :=
  match k with
  | .domain => (t.domains.find? id).map fun d => (d.systemId, d.createdAt)
  | .group => (t.groups.find? id).map fun g => (g.domainId, g.createdAt)

theorem Below.lt_next (h : k.Below t) (hid : k.identity? t id = some x) : id < k.next t := by
  cases k with
  | domain =>
    obtain ⟨d, hd, _⟩ := Option.map_eq_some_iff.1 hid
    obtain ⟨hmem, rfl⟩ := Table.find?_eq_some_iff.1 hd
    exact h d hmem
  | group =>
    obtain ⟨g, hg, _⟩ := Option.map_eq_some_iff.1 hid
    obtain ⟨hmem, rfl⟩ := Table.find?_eq_some_iff.1 hg
    exact h g hmem

/-- From some tables to later ones, with `ids` given out in between. -/
structure Counts (k : Numbered) (ids : List Int32) (t t' : Tables) : Prop where
  ascending : ids.Pairwise (· < ·)
  given : ∀ id ∈ ids, k.next t ≤ id ∧ id < k.next t'
  forward : k.next t ≤ k.next t'
  below : k.Below t → k.Below t'
  /-- what an old id denotes, it has denoted before -/
  old : ∀ id x, id < k.next t → k.identity? t' id = some x → k.identity? t id = some x

namespace Counts

theorem refl (k : Numbered) (t : Tables) : k.Counts [] t t where
  ascending := .nil
  given := nofun
  forward := Int32.le_refl _
  below := id
  old _ _ _ := id

theorem trans (h : k.Counts ids t t') (h' : k.Counts ids' t' t'') :
    k.Counts (ids ++ ids') t t'' where
  ascending := by
    refine List.pairwise_append.2 ⟨h.ascending, h'.ascending, fun i hi j hj => ?_⟩
    exact Int32.lt_of_lt_of_le (h.given i hi).2 (h'.given j hj).1
  given i hi := by
    rcases List.mem_append.1 hi with hi | hi
    · exact ⟨(h.given i hi).1, Int32.lt_of_lt_of_le (h.given i hi).2 h'.forward⟩
    · exact ⟨Int32.le_trans h.forward (h'.given i hi).1, (h'.given i hi).2⟩
  forward := Int32.le_trans h.forward h'.forward
  below hbelow := h'.below (h.below hbelow)
  old i x hi hx := h.old i x hi (h'.old i x (Int32.lt_of_lt_of_le hi h.forward) hx)

/-- A step of the counter gives out the id that it was at. -/
theorem give (h : k.Counts [] t t') (hnext : k.next t' = k.next t + 1)
    (hmax : k.next t < Int32.maxValue) : k.Counts [k.next t] t t' where
  ascending := List.pairwise_singleton _ _
  given i hi := by
    rw [List.mem_singleton.1 hi, hnext]
    exact ⟨Int32.le_refl _, lt_add_one_of_lt_max hmax⟩
  forward := h.forward
  below := h.below
  old := h.old

end Counts

end Numbered

/-! ## Edits -/

namespace Tables.Edit

variable {t t' : Tables} {k : Numbered} {id : Int32} {x : Int32 × Instant}

theorem next_le (e : Edit t t') (hmax : k.next t < Int32.maxValue) : k.next t ≤ k.next t' := by
  have hstep : k.next t ≤ k.next t + 1 := Int32.le_of_lt (lt_add_one_of_lt_max hmax)
  cases k with
  | domain => cases e <;> first | exact hstep | exact Int32.le_refl _
  | group => cases e <;> first | exact hstep | exact Int32.le_refl _

theorem domain_of_old (e : Edit t t') (hid : id < t.nextDomainId)
    (hx : Numbered.domain.identity? t' id = some x) : Numbered.domain.identity? t id = some x := by
  cases e with
  | @addDomain row hrow =>
    have hne : id ≠ Keyed.key row := by
      rw [Domain.key_eq, hrow]
      exact Int32.ne_of_lt hid
    rwa [Numbered.identity?, Table.map_find?_insert, if_neg hne] at hx
  | renameDomain hcurrent =>
    rwa [Numbered.identity?, Table.map_find?_insert_same hcurrent (by rfl) (by rfl)] at hx
  | removeDomains ids => exact Table.map_find?_of_subset (fun _ => Table.mem_of_mem_eraseAll) hx
  | _ => exact hx

theorem group_of_old (e : Edit t t') (hid : id < t.nextGroupId)
    (hx : Numbered.group.identity? t' id = some x) : Numbered.group.identity? t id = some x := by
  cases e with
  | @addGroup row hrow =>
    have hne : id ≠ Keyed.key row := by
      rw [AppGroup.key_eq, hrow]
      exact Int32.ne_of_lt hid
    rwa [Numbered.identity?, Table.map_find?_insert, if_neg hne] at hx
  | renameGroup hcurrent =>
    rwa [Numbered.identity?, Table.map_find?_insert_same hcurrent (by rfl) (by rfl)] at hx
  | removeDomains ids => exact Table.map_find?_of_subset (fun _ hg => (Table.mem_filter.1 hg).1) hx
  | removeGroups ids =>
    exact Table.map_find?_of_subset
      (fun _ hg => Table.mem_of_mem_eraseAll (Table.mem_filter.1 hg).1) hx
  | removeApplications ids =>
    exact Table.map_find?_of_subset (fun _ hg => (Table.mem_filter.1 hg).1) hx
  | _ => exact hx

theorem counts (e : Edit t t') (hmax : k.next t < Int32.maxValue) : k.Counts [] t t' where
  ascending := .nil
  given := nofun
  forward := e.next_le hmax
  below h := by
    cases k with
    | domain => exact e.domainsBelow hmax h
    | group => exact e.groupsBelow hmax h
  old id x hid hx := by
    cases k with
    | domain => exact e.domain_of_old hid hx
    | group => exact e.group_of_old hid hx

end Tables.Edit

theorem Tables.Edits.counts {k : Numbered} {past : List Tables} {t t' : Tables}
    (h : Edits past t t') (hpast : ∀ p ∈ past, k.next p < Int32.maxValue) : k.Counts [] t t' := by
  induction h with
  | refl => exact .refl k _
  | cons he _ ih =>
    obtain ⟨hmax, hpast⟩ := List.forall_mem_cons.1 hpast
    exact (he.counts hmax).trans (ih hpast)

/-! ## Requests -/

namespace Numbered

variable {k : Numbered} {t : Tables}

/-- The id that a creation of a domain gives out, if it succeeds. -/
def ofDomain : Numbered → Except Failure Domain → List Int32
  | .domain, .ok d => [d.id]
  | _, _ => []

/-- The id that a creation of a group gives out, if it succeeds. -/
def ofGroup : Numbered → Except Failure AppGroup → List Int32
  | .group, .ok g => [g.id]
  | _, _ => []

/-- A change gives out nothing, or the id that its counter was at before it stepped. -/
theorem counts_change {α : Type} {c : Change α} {given : Except Failure α → List Int32}
    (hmax : k.next t < Int32.maxValue) (hedit : Edit t (c.apply t).2)
    (hfailed : ∀ e, given (.error e) = [])
    (hgiven : ∀ x t', c.apply t = (.ok x, t') →
      given (.ok x) = [] ∨ given (.ok x) = [k.next t] ∧ k.next t' = k.next t + 1) :
    k.Counts (given (c.apply t).1) t (c.apply t).2 := by
  have hcounts : k.Counts [] t (c.apply t).2 := hedit.counts hmax
  rcases hrun : c.apply t with ⟨e | x, t'⟩
  · rw [hrun] at hcounts
    rw [hfailed]
    exact hcounts
  · rw [hrun] at hcounts
    rcases hgiven x t' hrun with hnone | ⟨hone, hnext⟩
    · rw [hnone]
      exact hcounts
    · rw [hone]
      exact hcounts.give hnext hmax

theorem counts_createDomain (hmax : k.next t < Int32.maxValue) (now : Instant)
    (name description : String) (systemId : Int32) :
    let (r, t') := (createDomain now name description systemId).apply t
    k.Counts (k.ofDomain r) t t' := by
  refine counts_change hmax (createDomain_edit ..) (fun e => by cases k <;> rfl) ?_
  intro row t' hrun
  obtain ⟨_, _, rfl, rfl⟩ := createDomain_ok hrun
  cases k with
  | domain => exact .inr ⟨rfl, rfl⟩
  | group => exact .inl rfl

theorem counts_createGroup (hmax : k.next t < Int32.maxValue) (now : Instant)
    (name description : String) (domainId : Int32) :
    let (r, t') := (createGroup now name description domainId).apply t
    k.Counts (k.ofGroup r) t t' := by
  refine counts_change hmax (createGroup_edit ..) (fun e => by cases k <;> rfl) ?_
  intro row t' hrun
  obtain ⟨_, _, rfl, rfl⟩ := createGroup_ok hrun
  cases k with
  | domain => exact .inl rfl
  | group => exact .inr ⟨rfl, rfl⟩

end Numbered

namespace World

variable {k : Numbered}

/-- The ids that a request of a transaction gives out with its answer. -/
def workIssues (k : Numbered) {u : UseCase} : {β : Type} → Effect (Capability u) β → β → List Int32
  | _, .call (.createDomain ..), r => k.ofDomain r
  | _, .call (.createAppGroup ..), r => k.ofGroup r
  | _, _, _ => []

/-- The ids that the work of a transaction gives out. -/
def workIssued (k : Numbered) {u : UseCase} {ρ : Type} :
    Program (Effect (Capability u)) ρ → World → List Int32
  | .done _, _ => []
  | .ask e next, w =>
    let (b, w') := (answerWork _ e).run w
    workIssues k e b ++ workIssued k (next b) w'

/-- The ids that a request gives out. Those of a transaction that fails are not given out. -/
def issues (k : Numbered) (w : World) {β : Type} : Effect Port β → List Int32
  | .call (.createDomain name description systemId) =>
    k.ofDomain ((answerCall (.createDomain name description systemId)).run w).1
  | .call (.createGroup name description domainId) =>
    k.ofGroup ((answerCall (.createGroup name description domainId)).run w).1
  | .call (.transaction _ work) =>
    if ((work.program.run answerWork).run w).1.toBool then workIssued k work.program w else []
  | _ => []

theorem counts_answerWork {u : UseCase} {β : Type} (e : Effect (Capability u) β) (w : World)
    (hmax : k.next w.tables < Int32.maxValue) :
    let (b, w') := (answerWork β e).run w
    k.Counts (workIssues k e b) w.tables w'.tables := by
  have hedit := answerWork_edit e w
  cases e with
  | now => exact .refl k _
  | mint => exact .refl k _
  | call c =>
    cases c with
    | createDomain name description systemId =>
      exact Numbered.counts_createDomain hmax w.now name description systemId
    | createAppGroup name description domainId =>
      exact Numbered.counts_createGroup hmax w.now name description domainId
    | _ => exact hedit.counts hmax

theorem counts_copies {u : UseCase} {ρ : Type} (p : Program (Effect (Capability u)) ρ) (w : World)
    (hpast : ∀ t ∈ copies p w, k.next t < Int32.maxValue) :
    k.Counts (workIssued k p w) w.tables ((p.run answerWork).run w).2.tables := by
  induction p generalizing w with
  | done a => exact .refl k _
  | ask e next ih =>
    obtain ⟨hmax, hpast⟩ := List.forall_mem_cons.1 hpast
    exact (counts_answerWork e w hmax).trans (ih _ _ hpast)

theorem counts_transact {u : UseCase} {γ : Type} (work : Work u γ) (w : World)
    (hpast : ∀ t ∈ w.passed (.call (.transaction u work)), k.next t < Int32.maxValue) :
    k.Counts (w.issues k (.call (.transaction u work))) w.tables
      ((answerCall (.transaction u work)).run w).2.tables := by
  have htables : ((answerCall (.transaction u work)).run w).2.tables =
      if ((work.program.run answerWork).run w).1.toBool then
        ((work.program.run answerWork).run w).2.tables
      else w.tables := rfl
  by_cases hcommits : ((work.program.run answerWork).run w).1.toBool
  · simp only [passed, issues, if_pos hcommits] at hpast htables ⊢
    rw [htables]
    exact counts_copies work.program w hpast
  · simp only [issues, if_neg hcommits] at htables ⊢
    rw [htables]
    exact .refl k _

theorem counts_answer {β : Type} (e : Effect Port β) (w : World)
    (hpast : ∀ t ∈ w.passed e, k.next t < Int32.maxValue) :
    k.Counts (w.issues k e) w.tables ((answer β e).run w).2.tables := by
  have hedits := answer_edits e w
  cases e with
  | now => exact hedits.counts hpast
  | mint => exact hedits.counts hpast
  | call c =>
    cases c with
    | createDomain name description systemId =>
      exact Numbered.counts_createDomain (hpast _ (List.mem_singleton_self _)) w.now name
        description systemId
    | createGroup name description domainId =>
      exact Numbered.counts_createGroup (hpast _ (List.mem_singleton_self _)) w.now name
        description domainId
    | transaction u work => exact counts_transact work w hpast
    | _ => exact hedits.counts hpast

end World

/-! ## Turns -/

namespace Traffic

variable {α : Type} {k : Numbered} {s : Traffic α}

/-- The ids that a turn gives out. -/
def issues (k : Numbered) (s : Traffic α) : Turn → List Int32
  | .client i =>
    match s.clients[i]? with
    | some (.ask e _) => s.world.issues k e
    | _ => []
  | .clock _ => []

/-- The ids that some turns give out, in their order. -/
def issued (k : Numbered) (s : Traffic α) : List Turn → List Int32
  | [] => []
  | next :: turns => s.issues k next ++ (s.turn next).issued k turns

theorem counts_turn (next : Turn) (hpast : ∀ t ∈ s.passed next, k.next t < Int32.maxValue) :
    k.Counts (s.issues k next) s.world.tables (s.turn next).world.tables := by
  cases next with
  | clock now => exact .refl k _
  | client i =>
    simp only [turn, passed, issues] at hpast ⊢
    cases hp : s.clients[i]? with
    | none => exact .refl k _
    | some p =>
      rw [hp] at hpast
      cases p with
      | done a => exact .refl k _
      | ask e next => exact World.counts_answer e s.world hpast

theorem counts_after (s : Traffic α) (turns : List Turn)
    (hpast : ∀ t ∈ s.past turns, k.next t < Int32.maxValue) :
    k.Counts (s.issued k turns) s.world.tables (s.after turns).world.tables := by
  induction turns generalizing s with
  | nil => exact .refl k _
  | cons next turns ih =>
    obtain ⟨hnext, hturns⟩ := List.forall_mem_append.1 hpast
    exact (counts_turn next hnext).trans (ih (s.turn next) hturns)

/-- No two creations give out one id, and no id denotes anything before it is given out. An id that
was given out or denoted a domain or a group at some time denotes later only what it denoted at all
times in between. -/
theorem ids_never_reissued (k : Numbered) (s : Traffic α) (turns : List Turn)
    (hbelow : k.Below s.world.tables)
    (hpast : ∀ t ∈ s.past turns, k.next t < Int32.maxValue) :
    (s.issued k turns).Pairwise (· < ·) ∧
    (∀ before next, before ++ [next] <+: turns → ∀ id ∈ (s.after before).issues k next,
      ∀ earlier, earlier <+: before →
        k.identity? (s.after earlier).world.tables id = none) ∧
    ∀ earlier middle later, earlier <+: middle → middle <+: later → later <+: turns → ∀ id,
      id ∈ s.issued k earlier ∨ k.identity? (s.after earlier).world.tables id ≠ none →
        ∀ x, k.identity? (s.after later).world.tables id = some x →
          k.identity? (s.after middle).world.tables id = some x := by
  -- from any state of the run to any later one
  have hcounts {first last} (hfirst : first <+: last) (hlast : last <+: turns) : ∃ ids,
      k.Counts ids (s.after first).world.tables (s.after last).world.tables := by
    obtain ⟨rest, rfl⟩ := hfirst
    obtain ⟨more, rfl⟩ := hlast
    rw [past_append, past_append] at hpast
    rw [after_append]
    exact ⟨_, counts_after _ rest fun t ht => hpast t (by simp [ht])⟩
  have hstart {last} (hlast : last <+: turns) :
      k.Counts (s.issued k last) s.world.tables (s.after last).world.tables := by
    obtain ⟨more, rfl⟩ := hlast
    rw [past_append] at hpast
    exact counts_after s last fun t ht => hpast t (by simp [ht])
  have hbelow' {last} (hlast : last <+: turns) : k.Below (s.after last).world.tables :=
    (hstart hlast).below hbelow
  refine ⟨(counts_after s turns hpast).ascending, ?_, ?_⟩
  · intro before next hnext id hid earlier hearlier
    have hbefore : before <+: turns := (List.prefix_append _ _).trans hnext
    obtain ⟨_, hforward⟩ := hcounts hearlier hbefore
    have hissues : k.Counts ((s.after before).issues k next) (s.after before).world.tables
        ((s.after before).turn next).world.tables := by
      obtain ⟨more, rfl⟩ := hnext
      rw [List.append_assoc, past_append, List.singleton_append, past] at hpast
      exact counts_turn next fun t ht => hpast t (by simp [ht])
    cases hx : k.identity? (s.after earlier).world.tables id with
    | none => rfl
    | some x =>
      have hlt := (hbelow' (hearlier.trans hbefore)).lt_next hx
      have hle := Int32.le_trans hforward.forward (hissues.given id hid).1
      exact absurd (Int32.lt_of_lt_of_le hlt hle) (Int32.lt_irrefl)
  · intro earlier middle later hmiddle hlater hturns id hknown x hx
    have hearlier : earlier <+: turns := hmiddle.trans (hlater.trans hturns)
    obtain ⟨_, hforward⟩ := hcounts hmiddle (hlater.trans hturns)
    obtain ⟨_, hold⟩ := hcounts hlater hturns
    -- the counter was past the id already
    have hlt : id < k.next (s.after earlier).world.tables := by
      rcases hknown with hissued | hdenoted
      · exact ((hstart hearlier).given id hissued).2
      · obtain ⟨y, hy⟩ := Option.ne_none_iff_exists'.1 hdenoted
        exact (hbelow' hearlier).lt_next hy
    exact hold.old id x (Int32.lt_of_lt_of_le hlt hforward.forward) hx

open AccessRegistry.Action in
/-- A client that creates a domain, deletes it and creates it once more, and one whose transaction
fails after it has created a domain. -/
def recreation : Traffic (Except Failure Domain) :=
  .start ⟨0, 0⟩ (fun _ => "") [
    program do
      let d ← call (.createDomain "a" "" defaultSystemId)
      let _ ← call (.deleteDomains [d.id])
      call (.createDomain "a" "" defaultSystemId),
    program (call (.transaction .baseline do
      let _ ← call (.createDomain "b" "" defaultSystemId)
      throw .tokenNotFound))]

/-- The deleted domain comes back under the next id, which the failed transaction has not used. -/
theorem ids_never_reissued_recreation :
    let s := recreation
    let turns := [.client 0, .client 0, .client 1, .client 0]
    (Numbered.domain.Below s.world.tables ∧ ∀ t ∈ s.past turns, t.nextDomainId < Int32.maxValue) ∧
      s.issued .domain turns = [1, 2] ∧ (s.issued .domain turns).Pairwise (· < ·) ∧
      Numbered.domain.identity? s.world.tables 2 = none ∧
      ∀ x, Numbered.domain.identity? (s.after turns).world.tables 1 = some x →
        Numbered.domain.identity? (s.after [.client 0, .client 0]).world.tables 1 = some x := by
  intro s turns
  have hpast : ∀ t ∈ s.past turns, t.nextDomainId < Int32.maxValue := by decide +kernel
  have hissued : 2 ∈ (s.after [.client 0, .client 0, .client 1]).issues .domain (.client 0) := by
    decide +kernel
  obtain ⟨hascending, hnew, hold⟩ :=
    ids_never_reissued .domain s turns domainsBelow_empty hpast
  refine ⟨⟨domainsBelow_empty, hpast⟩, by decide +kernel, hascending, ?_, ?_⟩
  · exact hnew [.client 0, .client 0, .client 1] (.client 0) List.prefix_rfl 2 hissued []
      List.nil_prefix
  · exact hold [.client 0] [.client 0, .client 0] turns ⟨[.client 0], rfl⟩
      ⟨[.client 1, .client 0], rfl⟩ List.prefix_rfl 1 (.inl (by decide +kernel))

end Traffic
end AccessRegistry
