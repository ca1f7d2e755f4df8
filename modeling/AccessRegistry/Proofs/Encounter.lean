import AccessRegistry.Proofs.Creation
import AccessRegistry.Proofs.Issuing
import AccessRegistry.Proofs.Trial

/-!
# AccessRegistry.Proofs.Encounter

One client among others, seen as its calls with the tables right before and right after each. What
the others do lies between the calls, so nothing is said there: the tables after one call and the
tables before the next have nothing to do with each other.

* `Encounter.Possible`    — the call was answered from the tables, or something in between has
  answered it and has not touched them.
* `Traffic.encounters`    — the calls that a client has made in some turns.
* `Traffic.run_of_always` — what always holds of a program holds of these.
-/

namespace AccessRegistry

open AccessRegistry.Action World Tables

/-- A look that has failed as only the creation of an application does. -/
def Exchange.Strays (e : Exchange Port) : Prop :=
  e.call.writes = false ∧ e.answer = .error .applicationDuplicateId

structure Encounter where
  exchange : Exchange Port
  before : Tables
  after : Tables

namespace Encounter

/-- A world with these tables has answered. -/
def Real (e : Encounter) : Prop :=
  ∃ w : World, w.tables = e.before ∧ e.exchange.TurnedInto w e.after

/-- Something else has answered: a look with whatever it likes, a write with a failure. -/
structure Scripted (e : Encounter) : Prop where
  same : e.after = e.before
  quiet : e.exchange.commits = false
  noStray : ¬ e.exchange.Strays

def Possible (e : Encounter) : Prop := e.Real ∨ e.Scripted

variable {e : Encounter}

/-- Only a write that took effect changes the tables. -/
theorem Possible.unchanged (h : e.Possible) (hquiet : e.exchange.commits = false) :
    e.after = e.before := by
  rcases h with ⟨w, hw, w₁, w₂, hw₁, hrun, hafter⟩ | h
  · have hcall : tryCall none e.exchange.call w₁ = (e.exchange.answer, w₂) := hrun
    have hsame : Untouched w₁ (tryCall none e.exchange.call w₁).2 := by
      refine untouched_tryCall none _ _ ?_
      rw [hcall]
      exact hquiet
    rw [hcall] at hsame
    rw [hafter, hsame.tables, hw₁.tables, hw]
  · exact h.same

theorem Possible.adds (h : e.Possible) {app : NewApplication} {row : Application}
    (he : e.exchange = ⟨.createApplication app, .ok row⟩) :
    e.before.AddsApplication app ⟨row, []⟩ e.after := by
  rcases h with ⟨w, hw, hturned⟩ | h
  · rw [he] at hturned
    obtain ⟨w₁, w₂, hw₁, hrun, hafter⟩ := hturned
    have hchange : (Tables.createApplication w₁.now app).apply w₁.tables =
        (.ok row, w₂.tables) := by
      have happly : (answerCall (.createApplication app)).run w₁ =
        ((Tables.createApplication w₁.now app).apply w₁.tables).map id
          fun tables => { w₁ with tables } := rfl
      rw [happly] at hrun
      obtain ⟨hrow, hw₂⟩ := Prod.mk.inj hrun
      exact Prod.ext hrow (congrArg World.tables hw₂)
    rw [hw₁.tables, hw, ← hafter] at hchange
    obtain ⟨hunused, _, _, rfl, hrows⟩ := createApplication_ok hchange
    exact ⟨⟨w₁.now, rfl⟩, hunused, hrows⟩
  · have hquiet := h.quiet
    rw [he] at hquiet
    cases hquiet

theorem isNotFound_of_look {γ : Type} {c : Port γ} (hc : c.writes = false) {w : World}
    {f : Failure} (h : ((answerCall c).run w).1 = .error f) : f.isNotFound = true := by
  have hfound {α : Type} {missing : Failure} {o : Option α} (hm : missing.isNotFound = true)
      (h : found missing o = .error f) : f.isNotFound = true := by
    cases o with
    | none =>
      cases h
      exact hm
    | some a => cases h
  cases c <;> first | exact hfound rfl h | cases h | cases hc

theorem Possible.not_strays (h : e.Possible) : ¬ e.exchange.Strays := by
  rcases h with ⟨w, _, w₁, w₂, _, hrun, _⟩ | h
  · rintro ⟨hlook, hanswer⟩
    have hfailed : ((answerCall e.exchange.call).run w₁).1 = .error .applicationDuplicateId := by
      rw [hrun]
      exact hanswer
    have hmissing := isNotFound_of_look hlook hfailed
    cases hmissing
  · exact h.noStray

end Encounter

/-! ## The calls of a client in traffic -/

namespace Traffic

variable {ρ : Type} {s : Traffic ρ} {i : Nat} {p : Program (Effect Port) ρ}

/-- The call of the `i`-th client in a turn, if it makes one. -/
def encounter? (s : Traffic ρ) (i : Nat) (next : Turn) : Option Encounter :=
  match s.clients[i]? with
  | some (.ask (.call c) _) =>
    if next.isOf i then
      some ⟨⟨c, ((answerCall c).run s.world).1⟩, s.world.tables, (s.turn next).world.tables⟩
    else none
  | _ => none

/-- The calls of the `i`-th client in some turns. -/
def encounters (s : Traffic ρ) (i : Nat) : List Turn → List Encounter
  | [] => []
  | next :: turns => (s.encounter? i next).toList ++ (s.turn next).encounters i turns

theorem encounter?_possible {next : Turn} {e : Encounter} (h : s.encounter? i next = some e) :
    e.Possible := by
  unfold encounter? at h
  split at h
  · rename_i γ c k hp
    split at h
    · rename_i hnext
      obtain rfl := Turn.isOf_iff.1 hnext
      cases h
      rw [turn_client hp]
      exact .inl ⟨s.world, rfl, s.world, _, .refl _, rfl, rfl⟩
    · cases h
  · cases h

theorem encounters_possible (s : Traffic ρ) (i : Nat) (turns : List Turn) :
    ∀ e ∈ s.encounters i turns, e.Possible := by
  induction turns generalizing s with
  | nil => exact List.forall_mem_nil _
  | cons next turns ih =>
    intro e he
    rcases List.mem_append.1 he with he | he
    · exact encounter?_possible (Option.mem_toList.1 he)
    · exact ih (s.turn next) e he

theorem encounter?_other {next : Turn} (h : next.isOf i = false) : s.encounter? i next = none := by
  unfold encounter?
  rw [h]
  split <;> rfl

/-- A client that is answered has made a run of its program, whatever others have done. -/
theorem run_of_always {P : List (Exchange Port) → ρ → Prop} (hp : s.clients[i]? = some p)
    (h : p.Always P) {turns : List Turn} {a : ρ} (ha : (s.after turns).answer? i = some a) :
    P ((s.encounters i turns).map Encounter.exchange) a := by
  induction turns generalizing s p P with
  | nil =>
    have hdone := (answer?_eq_some.1 ha).symm.trans hp
    cases hdone
    exact h
  | cons next turns ih =>
    cases hnext : next.isOf i with
    | false =>
      rw [encounters, encounter?_other hnext]
      exact ih ((clients_turn_other hnext).trans hp) h ha
    | true =>
      obtain rfl := Turn.isOf_iff.1 hnext
      have hclient := clients_turn_self hp
      unfold encounters encounter?
      rw [hp]
      cases p with
      | done b => exact ih hclient h ha
      | ask e k =>
        cases e with
        | call c =>
          dsimp only
          rw [if_pos hnext]
          exact ih hclient (h _) ha
        | now => exact ih hclient (h _) ha
        | mint => exact ih hclient (h _) ha

end Traffic

end AccessRegistry
