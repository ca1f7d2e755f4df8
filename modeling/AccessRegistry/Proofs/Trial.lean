import AccessRegistry.Proofs.Writes
import AccessRegistry.Proofs.Trace

/-!
# AccessRegistry.Proofs.Trial

Programs whose calls may fail. `World.trial outages p w` runs `p` in the world `w` while some of its
calls, chosen by their number in any way, fail with any failure and do nothing; a transaction is one
call. A trial records its calls.

* `Exchange.commits` — a write that took effect.
* `World.Course`     — the worlds that the calls of a trial lead through.
* `Course.untouched` — without a write that took effect, the tables stay as they were.
-/

namespace AccessRegistry

/-! ## Writes among the calls -/

/-- A write that took effect. -/
def Exchange.commits (e : Exchange Port) : Bool := e.call.writes && e.answer.toBool

/-- The writes that took effect, in order. -/
def committed (calls : List (Exchange Port)) : List (Exchange Port) := calls.filter Exchange.commits

theorem committed_append (calls more : List (Exchange Port)) :
    committed (calls ++ more) = committed calls ++ committed more := List.filter_append ..

/-- Nothing was written. -/
def Quiet (calls : List (Exchange Port)) : Prop := ∀ e ∈ calls, e.commits = false

namespace Quiet

variable {calls more : List (Exchange Port)}

theorem nil : Quiet [] := List.forall_mem_nil _

theorem cons {e : Exchange Port} (he : e.commits = false) (h : Quiet calls) : Quiet (e :: calls) :=
  List.forall_mem_cons.2 ⟨he, h⟩

theorem append (h : Quiet calls) (h' : Quiet more) : Quiet (calls ++ more) :=
  List.forall_mem_append.2 ⟨h, h'⟩

theorem committed_eq (h : Quiet calls) : committed calls = [] :=
  List.filter_eq_nil_iff.2 fun e he => by simp [h e he]

end Quiet

theorem Exchange.commits_look {γ : Type} {c : Port γ} (h : c.writes = false)
    (r : Except Failure γ) : Exchange.commits ⟨c, r⟩ = false := by
  rw [commits, h, Bool.false_and]

theorem Exchange.commits_error {γ : Type} (c : Port γ) (f : Failure) :
    Exchange.commits ⟨c, .error f⟩ = false := Bool.and_false _

theorem Program.Looks.quiet {ρ : Type} {p : Program (Effect Port) ρ} (h : p.Looks) :
    p.Always fun calls _ => Quiet calls := by
  induction p with
  | done a => exact .nil
  | ask e next ih =>
    cases e with
    | call c =>
      exact fun r => (ih r (h.2 r)).mono fun _ _ hcalls =>
        .cons (Exchange.commits_look h.1 r) hcalls
    | now => exact fun t => ih t (h t)
    | mint => exact h.elim

theorem Looks.quiet {α : Type} {r : Rule α} (h : Looks r) :
    Action.Always r fun calls _ => Quiet calls := Program.Looks.quiet h

/-! ## Trials -/

/-- The calls that fail, by their number, and how. -/
abbrev Outages := Nat → Option Failure

/-- A run of a program: its calls, its end, and the world it leaves behind. -/
structure Trial (ρ : Type) where
  calls : List (Exchange Port)
  result : ρ
  world : World

namespace World

/-- A call, unless it fails without being carried out. -/
def tryCall {γ : Type} (outage : Option Failure) (c : Port γ) (w : World) :
    Except Failure γ × World :=
  match outage with
  | some f => (.error f, w)
  | none => (answerCall c).run w

def trial {ρ : Type} (outages : Outages) : Program (Effect Port) ρ → World → Trial ρ
  | .done a, w => ⟨[], a, w⟩
  | .ask (.call c) next, w =>
    let (r, w') := tryCall (outages 0) c w
    let rest := trial (fun n => outages (n + 1)) (next r) w'
    { rest with calls := ⟨c, r⟩ :: rest.calls }
  | .ask .now next, w => trial outages (next w.now) w
  | .ask .mint next, w => trial outages (next (w.mint w.minted)) { w with minted := w.minted + 1 }

/-- What always holds of a program holds of its trials. -/
theorem trial_of_always {ρ : Type} {p : Program (Effect Port) ρ}
    {P : List (Exchange Port) → ρ → Prop} (h : p.Always P) (outages : Outages) (w : World) :
    P (trial outages p w).calls (trial outages p w).result := by
  induction p generalizing P outages w with
  | done a => exact h
  | ask e next ih =>
    cases e with
    | call c => exact ih _ (h _) _ _
    | now => exact ih _ (h _) _ _
    | mint => exact ih _ (h _) _ _

/-- The calls of a trial, from one world to another. Tokens may be made between them. -/
inductive Course : Outages → World → List (Exchange Port) → World → Prop where
  | nil {outages : Outages} {w w' : World} (h : Untouched w w') : Course outages w [] w'
  | cons {outages : Outages} {w w' w'' : World} {γ : Type} {c : Port γ}
      {calls : List (Exchange Port)} (h : Untouched w w')
      (rest : Course (fun n => outages (n + 1)) (tryCall (outages 0) c w').2 calls w'') :
      Course outages w (⟨c, (tryCall (outages 0) c w').1⟩ :: calls) w''

theorem Untouched.course {outages : Outages} {w w' w'' : World} {calls : List (Exchange Port)}
    (h : Untouched w w') (hc : Course outages w' calls w'') : Course outages w calls w'' := by
  cases hc with
  | nil h' => exact .nil (h.trans h')
  | cons h' rest => exact .cons (h.trans h') rest

theorem trial_course {ρ : Type} (outages : Outages) (p : Program (Effect Port) ρ) (w : World) :
    Course outages w (trial outages p w).calls (trial outages p w).world := by
  induction p generalizing outages w with
  | done a => exact .nil (.refl w)
  | ask e next ih =>
    cases e with
    | call c => exact .cons (.refl w) (ih _ _ _)
    | now => exact ih _ _ _
    | mint => exact Untouched.course ⟨w.minted + 1, Nat.le_succ _, rfl⟩ (ih _ _ _)

/-! ## What the calls do to the tables -/

open AccessRegistry.Action

/-- A call that is refused changes nothing. -/
theorem refused_untouched {γ : Type} (c : Port γ) (w : World) :
    Writes w (call c) fun _ _ => True := by
  have hatomic {m : Tables.Change γ}
      (h : (answerCall c).run w = (m.apply w.tables).map id fun tables => { w with tables })
      (hm : m.Atomic) : Writes w (call c) fun _ _ => True :=
    (ends_atomic h hm).mono (fun _ _ _ => trivial) fun _ _ h => h
  cases c with
  | transaction u work =>
    exact writes_transaction (by unfold Ends; split <;> trivial)
  | createDomain name description systemId => exact hatomic rfl (Tables.createDomain_atomic _ _ _ _)
  | updateDomain id name description => exact hatomic rfl (Tables.updateDomain_atomic _ _ _ _)
  | createGroup name description domainId => exact hatomic rfl (Tables.createGroup_atomic _ _ _ _)
  | updateGroup id name description => exact hatomic rfl (Tables.updateGroup_atomic _ _ _ _)
  | createApplication app => exact hatomic rfl (Tables.createApplication_atomic _ _)
  | updateApplication id name description =>
    exact hatomic rfl (Tables.updateApplication_atomic _ _ _ _ _)
  | updateApplicationId oldId newId name description =>
    exact hatomic rfl (Tables.updateApplication_atomic _ _ _ _ _)
  | deleteDomains | deleteGroups | deleteAccessLists => exact trivial
  | _ => exact (Looks.call rfl).ends (fun _ => trivial) fun _ => .refl w

/-- A call that is not carried out as a write leaves the tables alone. -/
theorem untouched_tryCall {γ : Type} (outage : Option Failure) (c : Port γ) (w : World)
    (h : Exchange.commits ⟨c, (tryCall outage c w).1⟩ = false) :
    Untouched w (tryCall outage c w).2 := by
  cases outage with
  | some f => exact .refl w
  | none =>
    have hrefused := refused_untouched c w
    rw [Writes, ends_call] at hrefused
    unfold tryCall at h ⊢
    cases hlook : c.writes with
    | false =>
      dsimp only
      rw [answerCall_look hlook]
      exact .refl w
    | true =>
      rw [Exchange.commits, hlook, Bool.true_and] at h
      dsimp only at h ⊢
      split at hrefused
      · rename_i x w' ho
        rw [show (answerCall c).run w = (.ok x, w') from ho] at h
        cases h
      · rename_i f w' ho
        rw [show (answerCall c).run w = (.error f, w') from ho]
        exact hrefused

namespace Course

variable {outages : Outages} {w w' : World} {calls more : List (Exchange Port)}

theorem append (h : Course outages w (calls ++ more) w') :
    ∃ between, Course outages w calls between ∧
      Course (fun n => outages (n + calls.length)) between more w' := by
  induction calls generalizing outages w with
  | nil => exact ⟨w, .nil (.refl w), h⟩
  | cons e calls ih =>
    cases h with
    | cons h rest =>
      obtain ⟨between, hcalls, hmore⟩ := ih rest
      refine ⟨between, .cons h hcalls, ?_⟩
      simpa [Nat.add_assoc, Nat.add_comm 1] using hmore

/-- Without a write that took effect, the tables stay as they were. -/
theorem untouched (h : Course outages w calls w') (hquiet : Quiet calls) : Untouched w w' := by
  induction h with
  | nil h => exact h
  | cons h _ ih =>
    obtain ⟨he, hquiet⟩ := List.forall_mem_cons.1 hquiet
    exact (h.trans (untouched_tryCall _ _ _ he)).trans (ih hquiet)

/-- As long as nothing is written, what a call finds is found in the first tables. -/
theorem looked {γ : Type} {c : Port γ} {x : γ} (h : Course outages w calls w')
    (hquiet : Quiet calls) (hmem : ⟨c, .ok x⟩ ∈ calls) :
    ∃ w', Untouched w w' ∧ ((answerCall c).run w').1 = .ok x := by
  induction h with
  | nil => cases hmem
  | @cons outages w w₁ _ γ' c' calls h rest ih =>
    obtain ⟨he, hquiet⟩ := List.forall_mem_cons.1 hquiet
    rcases List.mem_cons.1 hmem with heq | hmem
    · obtain ⟨rfl, hc, hx⟩ := Exchange.mk.inj heq
      obtain rfl := eq_of_heq hc
      have hx := eq_of_heq hx
      cases hout : outages 0 with
      | some f =>
        rw [hout, tryCall] at hx
        cases hx
      | none =>
        rw [hout, tryCall] at hx
        exact ⟨w₁, h, hx.symm⟩
    · obtain ⟨w₂, hw₂, hx⟩ := ih hquiet hmem
      exact ⟨w₂, (h.trans (untouched_tryCall _ _ _ he)).trans hw₂, hx⟩

end Course

end World

/-- The call was answered by a world with the tables of `w`, and left these tables behind. -/
def Exchange.TurnedInto (e : Exchange Port) (w : World) (tables : Tables) : Prop :=
  ∃ w' w'', World.Untouched w w' ∧ (World.answerCall e.call).run w' = (e.answer, w'') ∧
    tables = w''.tables

namespace World

/-- A write that takes effect was not prevented by an outage. -/
theorem tryCall_of_commits {γ : Type} {outage : Option Failure} {c : Port γ} {w : World}
    (h : Exchange.commits ⟨c, (tryCall outage c w).1⟩ = true) : outage = none := by
  cases outage with
  | none => rfl
  | some f => rw [tryCall, Exchange.commits_error] at h; cases h

/-- One write that took effect, with no other around it, is all that happens to the tables. -/
theorem Course.turnedInto {outages : Outages} {w w' : World} {before after : List (Exchange Port)}
    {e : Exchange Port} (h : Course outages w (before ++ e :: after) w') (hbefore : Quiet before)
    (he : e.commits = true) (hafter : Quiet after) : e.TurnedInto w w'.tables := by
  obtain ⟨w₁, h₁, h₂⟩ := h.append
  cases h₂ with
  | @cons _ _ w₂ _ γ c _ h₂ h₃ =>
    have hnone := tryCall_of_commits he
    rw [hnone] at h₃ ⊢
    exact ⟨w₂, _, (h₁.untouched hbefore).trans h₂, rfl, (h₃.untouched hafter).tables⟩

end World
end AccessRegistry
