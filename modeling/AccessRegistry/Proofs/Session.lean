import AccessRegistry.Proofs.Request
import AccessRegistry.Proofs.History

/-!
# AccessRegistry.Proofs.Session

The service from the outside: requests, and runs that set up the registry, one at a time from a
world with empty tables, each at a time of its own.

* `World.serve`       — the answer to a request, and the world after it.
* `World.session`     — the world after some visits.
* `serve_of_asksFor`  — a request for an operation is answered with the outcome of the operation.
-/

namespace AccessRegistry

open AccessRegistry.Action World

inductive Visit where
  /-- a request, with the counts of requests if they are kept -/
  | request (r : Http.Request) (kept : Option Http.Metrics) (now : Instant)
  | provision (token : String) (now : Instant)

namespace World

def serve (w : World) (r : Http.Request) (kept : Option Http.Metrics) : Http.Answer × World :=
  let out := ((Http.serve r kept).run answer).run w
  (out.1.1, out.2)

def receive (w : World) : Visit → World
  | .request r kept now => (serve { w with now } r kept).2
  | .provision token now => (outcome answer (Provisioning.run token) { w with now }).2

def session (w : World) (visits : List Visit) : World := visits.foldl receive w

theorem receive_wellFormed {w : World} (h : w.tables.WellFormed) (v : Visit) :
    (w.receive v).tables.WellFormed := by
  cases v with
  | request r kept now => exact run_wellFormed (Http.serve r kept) (w := { w with now }) h
  | provision token now =>
    exact run_wellFormed (program (Provisioning.run token)) (w := { w with now }) h

theorem session_wellFormed {w : World} (h : w.tables.WellFormed) (visits : List Visit) :
    (w.session visits).tables.WellFormed := by
  induction visits generalizing w with
  | nil => exact h
  | cons v visits ih => exact ih (receive_wellFormed h v)

theorem serve_eq (w : World) (r : Http.Request) (kept : Option Http.Metrics) :
    w.serve r kept = ((Http.answer kept r).run answer).run w := by
  have h : Http.serve r kept =
    (Http.answer kept r).bind fun a => .done (a, kept.map (Http.count r a)) := rfl
  rw [serve, h, Program.run_bind]
  rfl

theorem serve_of_asksFor {r : Http.Request} {α : Type} {op : Operation α} {view : α → Json.Value}
    (h : r.AsksFor op view) (w : World) (kept : Option Http.Metrics) :
    w.serve r kept = (.ofResult ((outcome answer op.rule w).1.map view),
      (outcome answer op.rule w).2) := by
  rw [serve_eq, Http.answer_eq_bind h, Program.run_bind]
  rfl

end World
end AccessRegistry
