import AccessRegistry.Proofs.Change

/-!
# AccessRegistry.Proofs.Outcome

What an action comes to when its requests are answered from a state. `Action.Ends a s Q E` says that
`a` either succeeds with a value and a state that satisfy `Q`, or fails with a failure and a state
that satisfy `E`. Every way to build an action has one equation for it, so a claim about a rule
turns into a claim about the answers to its calls.
-/

namespace AccessRegistry

universe u

namespace Action

variable {C : Type → Type u} {σ α β : Type} (answer : (β : Type) → Effect C β → StateM σ β)

/-- The outcome of an action and the state after it. -/
def outcome (a : Action C α) (s : σ) : Except Failure α × σ := ((program a).run answer).run s

def Ends (a : Action C α) (s : σ) (Q : α → σ → Prop) (E : Failure → σ → Prop) : Prop :=
  match outcome answer a s with
  | (.ok x, s') => Q x s'
  | (.error f, s') => E f s'

end Action

namespace Program

variable {E : Type → Type u} {σ α β : Type} {answer : (β : Type) → E β → StateM σ β}

theorem run_bind (p : Program E α) (k : α → Program E β) (s : σ) :
    ((p.bind k).run answer).run s =
      ((k ((p.run answer).run s).1).run answer).run ((p.run answer).run s).2 := by
  induction p generalizing s with
  | done a => rfl
  | ask e next ih => exact ih _ _

end Program

namespace Action

variable {C : Type → Type u} {σ α β : Type} {answer : (β : Type) → Effect C β → StateM σ β}
  {s : σ} {Q : α → σ → Prop} {E : Failure → σ → Prop}

theorem program_call_bind (c : C α) (k : α → Action C β) :
    program (call c >>= k) = .ask (.call c) fun r =>
      match r with
      | .ok x => program (k x)
      | .error f => .done (.error f) := by
  show Program.ask _ _ = _
  congr
  funext r
  cases r <;> rfl

theorem program_map (f : α → β) (a : Action C α) :
    program (f <$> a) = (program a).bind fun r => .done (r.map f) := by
  show (program a).bind _ = _
  congr
  funext r
  cases r <;> rfl

theorem outcome_bind (a : Action C α) (k : α → Action C β) (s : σ) :
    outcome answer (a >>= k) s =
      match outcome answer a s with
      | (.ok x, s') => outcome answer (k x) s'
      | (.error f, s') => (.error f, s') := by
  have h : program (a >>= k) = (program a).bind (ExceptT.bindCont k) := rfl
  unfold outcome
  rw [h, Program.run_bind]
  rcases ((program a).run answer).run s with ⟨_ | x, s'⟩ <;> rfl

@[simp]
theorem ends_pure (x : α) : Ends answer (pure x) s Q E ↔ Q x s := Iff.rfl

@[simp]
theorem ends_bind {Q : β → σ → Prop} (a : Action C α) (k : α → Action C β) :
    Ends answer (a >>= k) s Q E ↔ Ends answer a s (fun x s' => Ends answer (k x) s' Q E) E := by
  unfold Ends
  rw [outcome_bind]
  rcases outcome answer a s with ⟨_ | x, s'⟩ <;> rfl

@[simp]
theorem ends_map {Q : β → σ → Prop} (g : α → β) (a : Action C α) :
    Ends answer (g <$> a) s Q E ↔ Ends answer a s (fun x => Q (g x)) E := by
  rw [← bind_pure_comp, ends_bind]
  simp only [ends_pure]

theorem ends_call (c : C α) :
    Ends answer (call c) s Q E ↔
      match (answer _ (.call c)).run s with
      | (.ok x, s') => Q x s'
      | (.error f, s') => E f s' := Iff.rfl

theorem outcome_attempt (a : Action C α) (s : σ) :
    outcome answer a.attempt s = (.ok (outcome answer a s).1, (outcome answer a s).2) :=
  Program.run_bind _ _ _

@[simp]
theorem ends_attempt {Q : Except Failure α → σ → Prop} (a : Action C α) :
    Ends answer a.attempt s Q E ↔
      Ends answer a s (fun x => Q (.ok x)) fun f => Q (.error f) := by
  unfold Ends
  rw [outcome_attempt]
  rcases outcome answer a s with ⟨_ | x, s'⟩ <;> rfl

@[simp]
theorem ends_liftExcept (r : Except Failure α) :
    Ends answer (liftExcept r) s Q E ↔
      match r with
      | .ok x => Q x s
      | .error f => E f s := by
  cases r <;> rfl

@[simp]
theorem ends_ite (condition : Prop) [Decidable condition] (a b : Action C α) :
    Ends answer (if condition then a else b) s Q E ↔
      if condition then Ends answer a s Q E else Ends answer b s Q E := by
  split <;> rfl

theorem Ends.mono {Q' : α → σ → Prop} {E' : Failure → σ → Prop} {a : Action C α}
    (h : Ends answer a s Q E) (hQ : ∀ x s', Q x s' → Q' x s') (hE : ∀ f s', E f s' → E' f s') :
    Ends answer a s Q' E' := by
  unfold Ends at *
  cases ho : outcome answer a s with
  | mk r s' =>
    rw [ho] at h
    cases r with
    | error f => exact hE f s' h
    | ok x => exact hQ x s' h

theorem outcome_eq_of_ends {a : Action C α} {x : α} {s' : σ}
    (h : Ends answer a s (fun y t => y = x ∧ t = s') fun _ _ => False) :
    outcome answer a s = (.ok x, s') := by
  unfold Ends at h
  cases ho : outcome answer a s with
  | mk r t =>
    rw [ho] at h
    cases r with
    | error f => exact h.elim
    | ok y =>
      obtain ⟨rfl, rfl⟩ := h
      rfl

end Action

/-! ## Answers of a world -/

namespace World

open AccessRegistry.Action

variable {β γ : Type} {w : World} {Q : γ → World → Prop} {E : Failure → World → Prop}

/-- A call that only looks at the tables. -/
theorem outcome_look {c : Port γ} {f : Tables → Except Failure γ} (h : answerCall c = look f) :
    outcome answer (call c) w = (f w.tables, w) := by
  show (answerCall c).run w = _
  rw [h]
  rfl

/-- A call that only looks, and finds something. -/
theorem outcome_look_bind {c : Port γ} (f : Tables → Except Failure γ) {x : γ}
    (h : answerCall c = look f) (hx : f w.tables = .ok x) (k : γ → Rule β) :
    outcome answer (call c >>= k) w = outcome answer (k x) w := by
  rw [outcome_bind, outcome_look h, hx]

/-- A rule goes on after it has found a row under its key. -/
theorem outcome_find_bind {κ : Type} [Keyed γ κ] {rows : Table γ} {k : κ} {c : Port γ}
    {missing : Failure} {f : Tables → Except Failure γ} (h : answerCall c = look f)
    (hf : f w.tables = Tables.found missing (rows.find? k)) (next : Rule β) :
    outcome answer (call c >>= fun _ => next) w =
      if !rows.contains k then (.error missing, w) else outcome answer next w := by
  rw [outcome_bind, outcome_look h, hf, Table.contains]
  cases rows.find? k <;> rfl

theorem ends_look {c : Port γ} {f : Tables → Except Failure γ} (h : answerCall c = look f) :
    Ends answer (call c) w Q E ↔
      match f w.tables with
      | .ok x => Q x w
      | .error e => E e w := by
  unfold Ends
  rw [outcome_look h]
  cases f w.tables <;> rfl

section Changes

variable {c : Port γ} {m : Tables.Change γ} {refused : Bool} {f : Failure} {row : γ} {t : Tables}

theorem outcome_apply
    (h : (answerCall c).run w = (m.apply w.tables).map id fun tables => { w with tables }) :
    outcome answer (call c) w =
      ((m.apply w.tables).1, { w with tables := (m.apply w.tables).2 }) := h

/-- A change that is made. -/
theorem outcome_done
    (h : (answerCall c).run w = (m.apply w.tables).map id fun tables => { w with tables })
    (hm : m.apply w.tables = (.ok row, t)) :
    outcome answer (call c) w = (.ok row, { w with tables := t }) := by
  rw [outcome_apply h, hm]

/-- A change that is refused on a condition. -/
theorem outcome_change
    (h : (answerCall c).run w = (m.apply w.tables).map id fun tables => { w with tables })
    (hm : m.apply w.tables = if refused then (.error f, w.tables) else (.ok row, t)) :
    outcome answer (call c) w =
      if refused then (.error f, w) else (.ok row, { w with tables := t }) := by
  rw [outcome_apply h, hm]
  cases refused <;> rfl

theorem outcome_change_bind
    (h : (answerCall c).run w = (m.apply w.tables).map id fun tables => { w with tables })
    (hm : m.apply w.tables = if refused then (.error f, w.tables) else (.ok row, t))
    (k : γ → Rule β) :
    outcome answer (call c >>= k) w =
      if refused then (.error f, w) else outcome answer (k row) { w with tables := t } := by
  rw [outcome_bind, outcome_change h hm]
  cases refused <;> rfl

end Changes

/-- A statement inside a transaction. -/
theorem ends_perform {u : UseCase} (c : Capability u γ) :
    Ends answerWork (call c) w Q E ↔
      match (Tables.perform w.now c).apply w.tables with
      | (.ok x, tables) => Q x { w with tables }
      | (.error e, tables) => E e { w with tables } := by
  have hrun : (answerWork _ (.call c)).run w =
      (((Tables.perform w.now c).apply w.tables).1,
        { w with tables := ((Tables.perform w.now c).apply w.tables).2 }) := rfl
  rw [ends_call, hrun]
  rcases (Tables.perform w.now c).apply w.tables with ⟨_ | x, tables⟩ <;> rfl

/-- A transaction keeps what its work leaves behind, unless the work fails. -/
theorem outcome_transaction {u : UseCase} (work : Work u γ) (w : World) :
    outcome answer (call (.transaction u work)) w =
      ((outcome answerWork work w).1,
        { (outcome answerWork work w).2 with
          tables := if (outcome answerWork work w).1.toBool then
            (outcome answerWork work w).2.tables else w.tables }) := rfl

theorem ends_transaction {u : UseCase} (work : Work u γ) :
    Ends answer (call (.transaction u work)) w Q E ↔
      Ends answerWork work w Q fun f w' => E f { w' with tables := w.tables } := by
  unfold Ends
  rw [outcome_transaction]
  rcases outcome answerWork work w with ⟨_ | x, w'⟩ <;> rfl

@[simp]
theorem ends_answer_now {Q : Instant → World → Prop} :
    Ends answer Action.now w Q E ↔ Q w.now w := Iff.rfl

@[simp]
theorem ends_answerWork_now {u : UseCase} {Q : Instant → World → Prop} :
    Ends (@answerWork u) Action.now w Q E ↔ Q w.now w := Iff.rfl

@[simp]
theorem ends_answer_mint {Q : String → World → Prop} :
    Ends answer Action.mint w Q E ↔ Q (w.mint w.minted) { w with minted := w.minted + 1 } := Iff.rfl

/-! ## Rules that write nothing -/

/-- Only tokens may have been made in the meantime. -/
def Untouched (w w' : World) : Prop := ∃ n, w.minted ≤ n ∧ w' = { w with minted := n }

theorem Untouched.refl (w : World) : Untouched w w := ⟨w.minted, Nat.le_refl _, rfl⟩

theorem Untouched.trans {w w' w'' : World} (h : Untouched w w') (h' : Untouched w' w'') :
    Untouched w w'' := by
  obtain ⟨n, hn, rfl⟩ := h
  obtain ⟨m, hm, rfl⟩ := h'
  exact ⟨m, Nat.le_trans hn hm, rfl⟩

theorem Untouched.tables {w w' : World} (h : Untouched w w') : w'.tables = w.tables := by
  obtain ⟨n, _, rfl⟩ := h
  rfl

/-- The call of an atomic change makes the change or changes nothing. -/
theorem ends_atomic {c : Port γ} {m : Tables.Change γ}
    (h : (answerCall c).run w = (m.apply w.tables).map id fun tables => { w with tables })
    (hatomic : m.Atomic) :
    Ends answer (call c) w (fun x w' => m.apply w.tables = (.ok x, w'.tables))
      fun _ w' => Untouched w w' := by
  have hrun : (answer _ (.call c)).run w = _ := h
  rw [ends_call, hrun]
  cases hm : m.apply w.tables with
  | mk r tables =>
    cases r with
    | ok x => rfl
    | error e =>
      rw [hatomic _ _ _ hm]
      exact .refl w

/-- Work changes nothing but the tables, and makes tokens. -/
theorem untouched_work {u : UseCase} {ρ : Type} (p : Program (Effect (Capability u)) ρ)
    (w : World) : Untouched w { ((p.run answerWork).run w).2 with tables := w.tables } := by
  induction p generalizing w with
  | done a => exact .refl w
  | ask e next ih =>
    cases e with
    | call c =>
      obtain ⟨n, hn, h⟩ := ih ((answerWork _ (.call c)).run w).1 ((answerWork _ (.call c)).run w).2
      exact ⟨n, hn, congrArg (fun w' : World => { w' with tables := w.tables }) h⟩
    | now => exact ih _ w
    | mint =>
      exact Untouched.trans ⟨w.minted + 1, Nat.le_succ _, rfl⟩
        (ih (w.mint w.minted) { w with minted := w.minted + 1 })

end World

/-! ## Rules that only look -/

/-- Whether a call may change the tables. -/
def Port.writes {γ : Type} : Port γ → Bool
  | .createDomain .. | .updateDomain .. | .deleteDomains .. | .createGroup .. | .updateGroup ..
  | .deleteGroups .. | .createApplication .. | .updateApplication .. | .updateApplicationId ..
  | .deleteAccessLists .. | .transaction .. => true
  | _ => false

/-- A program that makes no call that may change the tables, and no token, whatever it is
answered. -/
def Program.Looks {ρ : Type} : Program (Effect Port) ρ → Prop
  | .done _ => True
  | .ask (.call c) next => c.writes = false ∧ ∀ r, (next r).Looks
  | .ask .now next => ∀ t, (next t).Looks
  | .ask .mint _ => False

theorem Program.Looks.bind {ρ σ : Type} {p : Program (Effect Port) ρ}
    {k : ρ → Program (Effect Port) σ} (h : p.Looks) (hk : ∀ a, (k a).Looks) :
    (p.bind k).Looks := by
  induction p with
  | done a => exact hk a
  | ask e next ih =>
    cases e with
    | call c => exact ⟨h.1, fun r => ih r (h.2 r)⟩
    | now => exact fun t => ih t (h t)
    | mint => exact h.elim

theorem World.answerCall_look {γ : Type} {c : Port γ} (h : c.writes = false) (w : World) :
    ((answerCall c).run w).2 = w := by
  cases c <;> first | rfl | cases h

theorem Program.Looks.run {ρ : Type} {p : Program (Effect Port) ρ} (h : p.Looks) (w : World) :
    ((p.run World.answer).run w).2 = w := by
  induction p generalizing w with
  | done a => rfl
  | ask e next ih =>
    cases e with
    | call c =>
      have hw : ((World.answerCall c).run w).2 = w := World.answerCall_look h.1 w
      exact (ih _ (h.2 _) _).trans hw
    | now => exact ih _ (h _) w
    | mint => exact h.elim

/-- A rule that only looks. -/
def Looks {α : Type} (r : Rule α) : Prop := (Action.program r).Looks

namespace Looks

variable {α β : Type} {r : Rule α}

theorem pure (x : α) : Looks (pure x : Rule α) := trivial

theorem throw (f : Failure) : Looks (throw f : Rule α) := trivial

theorem liftExcept (x : Except Failure α) : Looks (liftExcept x : Rule α) := by
  cases x <;> exact trivial

theorem call {c : Port α} (h : c.writes = false) : Looks (Action.call c) :=
  ⟨h, fun _ => trivial⟩

theorem now : Looks (Action.now : Rule Instant) := fun _ => trivial

theorem bind {k : α → Rule β} (h : Looks r) (hk : ∀ x, Looks (k x)) : Looks (r >>= k) := by
  refine Program.Looks.bind h fun x => ?_
  cases x with
  | ok x => exact hk x
  | error f => exact trivial

theorem call_bind {c : Port α} {k : α → Rule β} (h : c.writes = false) (hk : ∀ x, Looks (k x)) :
    Looks (Action.call c >>= k) := (call h).bind hk

theorem attempt (h : Looks r) : Looks (Action.attempt r) := Program.Looks.bind h fun _ => trivial

/-- A rule that only looks leaves the world as it is. -/
theorem ends {w : World} {Q : α → World → Prop} {E : Failure → World → Prop} (h : Looks r)
    (hQ : ∀ x, Q x w) (hE : ∀ f, E f w) : Action.Ends World.answer r w Q E := by
  have hw : (Action.outcome World.answer r w).2 = w := Program.Looks.run h w
  unfold Action.Ends
  cases ho : Action.outcome World.answer r w with
  | mk x w' =>
    rw [ho] at hw
    subst hw
    cases x with
    | ok x => exact hQ x
    | error f => exact hE f

end Looks

end AccessRegistry
