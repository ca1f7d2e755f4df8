import AccessRegistry.Program.Basic

/-!
# AccessRegistry.Proofs.Trace

What a program does whatever it is answered. One run of it is seen as the calls that it makes, each
with its answer, and the value it ends with. `Program.Always p P` says that `P` holds of every run
of `p`: calls may be answered by anything, successes and failures alike, and so may questions for
the time and for tokens. As for outcomes, every way to build an action has one equation.
-/

namespace AccessRegistry

universe u

/-- A call and how it was answered. -/
structure Exchange (C : Type → Type u) : Type (max 1 u) where
  {γ : Type}
  call : C γ
  answer : Except Failure γ

namespace Program

variable {C : Type → Type u} {ρ σ : Type}

def Always : Program (Effect C) ρ → (List (Exchange C) → ρ → Prop) → Prop
  | .done a, P => P [] a
  | .ask (.call c) next, P => ∀ r, (next r).Always fun calls a => P (⟨c, r⟩ :: calls) a
  | .ask .now next, P => ∀ t, (next t).Always P
  | .ask .mint next, P => ∀ s, (next s).Always P

theorem Always.mono {p : Program (Effect C) ρ} {P Q : List (Exchange C) → ρ → Prop}
    (h : p.Always P) (hPQ : ∀ calls a, P calls a → Q calls a) : p.Always Q := by
  induction p generalizing P Q with
  | done a => exact hPQ [] a h
  | ask e next ih =>
    cases e with
    | call c => exact fun r => ih r (h r) fun calls a => hPQ (⟨c, r⟩ :: calls) a
    | now => exact fun t => ih t (h t) hPQ
    | mint => exact fun s => ih s (h s) hPQ

theorem always_bind (p : Program (Effect C) ρ) (k : ρ → Program (Effect C) σ)
    (P : List (Exchange C) → σ → Prop) :
    (p.bind k).Always P ↔
      p.Always fun calls a => (k a).Always fun more b => P (calls ++ more) b := by
  induction p generalizing P with
  | done a => rfl
  | ask e next ih =>
    cases e with
    | call c => exact forall_congr' fun r => ih r _
    | now => exact forall_congr' fun t => ih t P
    | mint => exact forall_congr' fun s => ih s P

end Program

namespace Action

variable {C : Type → Type u} {α β : Type}

def Always (a : Action C α) (P : List (Exchange C) → Except Failure α → Prop) : Prop :=
  (program a).Always P

theorem Always.mono {a : Action C α} {P Q : List (Exchange C) → Except Failure α → Prop}
    (h : Always a P) (hPQ : ∀ calls r, P calls r → Q calls r) : Always a Q :=
  Program.Always.mono h hPQ

variable {P : List (Exchange C) → Except Failure β → Prop}

theorem always_pure (x : β) : Always (pure x : Action C β) P ↔ P [] (.ok x) := Iff.rfl

theorem always_call (c : C β) : Always (call c) P ↔ ∀ r, P [⟨c, r⟩] r := Iff.rfl

theorem always_bind (a : Action C α) (k : α → Action C β) :
    Always (a >>= k) P ↔ Always a fun calls r =>
      match r with
      | .ok x => Always (k x) fun more => P (calls ++ more)
      | .error f => P calls (.error f) := by
  have h : program (a >>= k) = (program a).bind (ExceptT.bindCont k) := rfl
  unfold Always
  rw [h, Program.always_bind]
  constructor
  · refine fun ha => ha.mono fun calls r hr => ?_
    cases r with
    | ok x => exact hr
    | error f => simpa [ExceptT.bindCont, Pure.pure, Program.Always] using hr
  · refine fun ha => ha.mono fun calls r hr => ?_
    cases r with
    | ok x => exact hr
    | error f => simpa [ExceptT.bindCont, Pure.pure, Program.Always] using hr

/-- An action that begins with a call ends with the call if that fails, and goes on otherwise. -/
theorem always_call_bind (c : C α) (k : α → Action C β) :
    Always (call c >>= k) P ↔
      (∀ x, Always (k x) fun calls => P (⟨c, .ok x⟩ :: calls)) ∧
        ∀ f, P [⟨c, .error f⟩] (.error f) := by
  rw [always_bind, always_call]
  constructor
  · exact fun h => ⟨fun x => h (.ok x), fun f => h (.error f)⟩
  · rintro ⟨hok, herror⟩ (f | x)
    · exact herror f
    · exact hok x

theorem always_map (g : α → β) (a : Action C α) :
    Always (g <$> a) P ↔ Always a fun calls r => P calls (r.map g) := by
  rw [← bind_pure_comp, always_bind]
  constructor
  · refine fun h => h.mono fun calls r hr => ?_
    cases r with
    | ok x => simpa [always_pure, Except.map] using hr
    | error f => exact hr
  · refine fun h => h.mono fun calls r hr => ?_
    cases r with
    | ok x => simpa [always_pure, Except.map] using hr
    | error f => exact hr

theorem always_attempt (a : Action C α)
    {P : List (Exchange C) → Except Failure (Except Failure α) → Prop} :
    Always a.attempt P ↔ Always a fun calls r => P calls (.ok r) := by
  have h : program a.attempt = (program a).bind fun r => .done (.ok r) := rfl
  unfold Always
  rw [h, Program.always_bind]
  simp only [Program.Always, List.append_nil]

end Action
end AccessRegistry
