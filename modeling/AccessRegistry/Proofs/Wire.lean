import AccessRegistry.Sql.Connection
import AccessRegistry.Proofs.Outcome

/-!
# AccessRegistry.Proofs.Wire

What a program sends over a connection, whatever it is answered. One run is seen as the messages
that it exchanges, each with its answer, and the value it ends with.

* `Program.Says p P`       — `P` holds of the messages and the value of every run of `p`.
* `Action.Says answer a P` — the same of an action whose requests are turned into messages by
  `answer`. Every way to build an action has one equation.
-/

namespace AccessRegistry

universe u

namespace Sql

/-- What is sent, and what comes back. -/
inductive Message where
  | statement (s : Statement) (reply : Reply)
  | border (b : Border) (error : Option Error)

end Sql

open Sql (Wire Message Query)

namespace Program

variable {ρ σ : Type}

def Says : Program Wire ρ → (List Message → ρ → Prop) → Prop
  | .done a, P => P [] a
  | .ask (.execute s) next, P => ∀ r, (next r).Says fun messages => P (.statement s r :: messages)
  | .ask (.border b) next, P => ∀ e, (next e).Says fun messages => P (.border b e :: messages)
  | .ask .now next, P => ∀ t, (next t).Says P
  | .ask .mint next, P => ∀ s, (next s).Says P

theorem Says.mono {p : Program Wire ρ} {P Q : List Message → ρ → Prop} (h : p.Says P)
    (hPQ : ∀ messages a, P messages a → Q messages a) : p.Says Q := by
  induction p generalizing P Q with
  | done a => exact hPQ [] a h
  | ask e next ih =>
    cases e with
    | execute s => exact fun r => ih r (h r) fun messages => hPQ (.statement s r :: messages)
    | border b => exact fun x => ih x (h x) fun messages => hPQ (.border b x :: messages)
    | now => exact fun t => ih t (h t) hPQ
    | mint => exact fun s => ih s (h s) hPQ

theorem says_bind (p : Program Wire ρ) (k : ρ → Program Wire σ) (P : List Message → σ → Prop) :
    (p.bind k).Says P ↔
      p.Says fun messages a => (k a).Says fun more b => P (messages ++ more) b := by
  induction p generalizing P with
  | done a => rfl
  | ask e next ih =>
    cases e with
    | execute s => exact forall_congr' fun r => ih r _
    | border b => exact forall_congr' fun x => ih x _
    | now => exact forall_congr' fun t => ih t P
    | mint => exact forall_congr' fun s => ih s P

theorem says_bind_done (p : Program Wire ρ) (g : ρ → σ) (P : List Message → σ → Prop) :
    (p.bind fun a => .done (g a)).Says P ↔ p.Says fun messages a => P messages (g a) := by
  rw [says_bind]
  simp only [Says, List.append_nil]

/-- To answer a program that goes on is to answer its parts one after the other. -/
theorem run_bind_wire {E : Type → Type u} (answer : (β : Type) → E β → Program Wire β)
    (p : Program E ρ) (k : ρ → Program E σ) :
    (p.bind k).run answer = (p.run answer).bind fun a => (k a).run answer := by
  induction p with
  | done a => rfl
  | ask e next ih =>
    show (answer _ e).bind (fun b => ((next b).bind k).run answer) =
      ((answer _ e).bind fun b => (next b).run answer).bind _
    rw [bind_assoc]
    simp only [ih]

theorem says_run_bind_done {E : Type → Type u} (answer : (β : Type) → E β → Program Wire β)
    (p : Program E ρ) (g : ρ → σ) (P : List Message → σ → Prop) :
    ((p.bind fun a => .done (g a)).run answer).Says P ↔
      (p.run answer).Says fun messages a => P messages (g a) := by
  rw [run_bind_wire]
  exact says_bind_done _ _ _

end Program

namespace Action

variable {C : Type → Type u} {α β : Type} (answer : (β : Type) → Effect C β → Program Wire β)

def Says (a : Action C α) (P : List Message → Except Failure α → Prop) : Prop :=
  ((program a).run answer).Says P

variable {answer}

theorem Says.mono {a : Action C α} {P Q : List Message → Except Failure α → Prop}
    (h : Says answer a P) (hPQ : ∀ messages r, P messages r → Q messages r) : Says answer a Q :=
  Program.Says.mono h hPQ

variable {P : List Message → Except Failure β → Prop}

theorem says_bind (a : Action C α) (k : α → Action C β) :
    Says answer (a >>= k) P ↔ Says answer a fun messages r =>
      match r with
      | .ok x => Says answer (k x) fun more => P (messages ++ more)
      | .error f => P messages (.error f) := by
  have hprogram : program (a >>= k) = (program a).bind (ExceptT.bindCont k) := rfl
  unfold Says
  rw [hprogram, Program.run_bind_wire, Program.says_bind]
  constructor
  · refine fun h => h.mono fun messages r hr => ?_
    cases r with
    | ok x => exact hr
    | error f => simpa [ExceptT.bindCont, Pure.pure, Program.run, Program.Says] using hr
  · refine fun h => h.mono fun messages r hr => ?_
    cases r with
    | ok x => exact hr
    | error f => simpa [ExceptT.bindCont, Pure.pure, Program.run, Program.Says] using hr

/-- An action may go on after a failure that it has looked at. -/
theorem says_attempt_bind (a : Action C α) (k : Except Failure α → Action C β) :
    Says answer (a.attempt >>= k) P ↔
      Says answer a fun messages r => Says answer (k r) fun more => P (messages ++ more) := by
  have hprogram : program (a.attempt >>= k) = (program a).bind fun r => program (k r) :=
    Program.bind_assoc ..
  unfold Says
  rw [hprogram, Program.run_bind_wire, Program.says_bind]

theorem says_map (g : α → β) (a : Action C α) :
    Says answer (g <$> a) P ↔ Says answer a fun messages r => P messages (r.map g) := by
  unfold Says
  rw [program_map]
  exact Program.says_run_bind_done _ _ _ _

theorem says_liftExcept (r : Except Failure β) : Says answer (liftExcept r) P ↔ P [] r := by
  cases r <;> rfl

theorem says_call (c : C α) {P : List Message → Except Failure α → Prop} :
    Says answer (call c) P ↔ (answer _ (.call c)).Says P := by
  have hrun : (program (call c)).run answer = (answer _ (.call c)).bind .done := rfl
  unfold Says
  rw [hrun, Program.bind_done]

theorem says_now (hanswer : answer _ .now = .request .now)
    {P : List Message → Except Failure Instant → Prop} :
    Says answer now P ↔ ∀ t, P [] (.ok t) := by
  have hrun : (program (now : Action C Instant)).run answer =
      (answer _ .now).bind fun t => .done (.ok t) := rfl
  unfold Says
  rw [hrun, hanswer]
  rfl

theorem says_mint (hanswer : answer _ .mint = .request .mint)
    {P : List Message → Except Failure String → Prop} :
    Says answer mint P ↔ ∀ s, P [] (.ok s) := by
  have hrun : (program (mint : Action C String)).run answer =
      (answer _ .mint).bind fun s => .done (.ok s) := rfl
  unfold Says
  rw [hrun, hanswer]
  rfl

end Action

namespace Sql

/-- A statement is sent once, and its reply is read. -/
theorem says_send {α : Type} (q : Query α) {P : List Message → Except Failure α → Prop} :
    (Connection.send q).Says P ↔ ∀ r, P [.statement q.statement r] (q.read r) := Iff.rfl

end Sql
end AccessRegistry
