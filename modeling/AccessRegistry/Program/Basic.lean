import AccessRegistry.Failure
import AccessRegistry.Instant.Basic

/-!
# AccessRegistry.Program.Basic

Programs as sequences of calls.

* `Program E α` — asks requests of `E` one after another, each chosen by the answers before it, and
  ends with an `α`. What the requests do is left to whoever runs the program.
* `Effect C`    — the requests of this registry: calls of `C`, which may fail, readings of the clock
  and fresh token strings.
* `Action C α`  — a program over `Effect C` that may fail.
-/

namespace AccessRegistry

universe u v

inductive Program (E : Type → Type u) (α : Type) : Type (max 1 u) where
  | done (a : α)
  | ask {β : Type} (e : E β) (next : β → Program E α)

namespace Program

variable {E : Type → Type u} {α β : Type}

/-- Goes on with `f` where a program is done. -/
def bind : Program E α → (α → Program E β) → Program E β
  | .done a, f => f a
  | .ask e next, f => .ask e fun b => (next b).bind f

instance : Monad (Program E) where
  pure := .done
  bind := bind

/-- One request. -/
def request (e : E α) : Program E α := .ask e .done

/-- Runs a program by answering its requests in `m`. -/
def run {m : Type → Type v} [Monad m] (answer : (β : Type) → E β → m β) : Program E α → m α
  | .done a => pure a
  | .ask e next => do
    let b ← answer _ e
    (next b).run answer

@[simp]
theorem pure_bind (a : α) (f : α → Program E β) : (Program.done a).bind f = f a := rfl

@[simp]
theorem bind_done (p : Program E α) : p.bind .done = p := by
  induction p with
  | done a => rfl
  | ask e next ih => simp only [bind, ih]

theorem bind_assoc {γ : Type} (p : Program E α) (f : α → Program E β) (g : β → Program E γ) :
    (p.bind f).bind g = p.bind fun a => (f a).bind g := by
  induction p with
  | done a => rfl
  | ask e next ih => simp only [bind, ih]

instance : LawfulMonad (Program E) :=
  LawfulMonad.mk' _ (fun p => bind_done p) (fun a f => pure_bind a f)
    (fun p f g => bind_assoc p f g)

end Program

inductive Effect (C : Type → Type u) : Type → Type (max 1 u) where
  | call {γ : Type} (c : C γ) : Effect C (Except Failure γ)
  | now : Effect C Instant
  | mint : Effect C String

abbrev Action (C : Type → Type u) (α : Type) := ExceptT Failure (Program (Effect C)) α

namespace Action

variable {C : Type → Type u} {α : Type}

/-- The program of an action: it ends with a value or a failure. -/
def program (a : Action C α) : Program (Effect C) (Except Failure α) := ExceptT.run a

def ofProgram (p : Program (Effect C) (Except Failure α)) : Action C α := ExceptT.mk p

/-- A call; its failure ends the action. -/
def call (c : C α) : Action C α := ofProgram (.request (.call c))

/-- The current time. -/
def now : Action C Instant := ofProgram (.ask .now fun t => .done (.ok t))

/-- A fresh token string. -/
def mint : Action C String := ofProgram (.ask .mint fun s => .done (.ok s))

/-- The outcome of an action, whether it fails or not. -/
def attempt (a : Action C α) : Action C (Except Failure α) :=
  ofProgram ((program a).bind fun r => .done (.ok r))

end Action

end AccessRegistry
