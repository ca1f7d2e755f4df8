import AccessRegistry.Proofs.Operation
import AccessRegistry.Proofs.Traffic

/-!
# AccessRegistry.Proofs.History

One operation after another, from a world with empty tables. Both the operations that are ordered
and the events that they lead to are listed with the latest first, so that what came before an
event is the rest of the list.

* `World.after`   — the world after some orders.
* `World.history` — the events of some orders, failed ones included.
* `World.after_wellFormed` — the rules among the rows hold after any orders.
-/

namespace AccessRegistry

open AccessRegistry.Action World

/-- An operation and the time at which it runs. -/
structure Order where
  {α : Type}
  op : Operation α
  now : Instant

/-- An operation that ran, and what came of it. -/
structure Event where
  {α : Type}
  op : Operation α
  result : Except Failure α
  now : Instant
  /-- the last token text that the operation made, if it made any -/
  made : Option String

namespace World

/-- The answer to an order, and the world after it. -/
def carryOut (w : World) (o : Order) : Except Failure o.α × World :=
  outcome answer o.op.rule { w with now := o.now }

/-- The last token text that an order makes. -/
def lastMade (w : World) (o : Order) : Option String :=
  let n := (w.carryOut o).2.minted
  if w.minted < n then some (w.mint (n - 1)) else none

def event (w : World) (o : Order) : Event :=
  ⟨o.op, (w.carryOut o).1, o.now, w.lastMade o⟩

def after (w : World) : List Order → World
  | [] => w
  | o :: earlier => ((w.after earlier).carryOut o).2

def history (w : World) : List Order → List Event
  | [] => []
  | o :: earlier => (w.after earlier).event o :: w.history earlier

/-! ## What operations keep -/

theorem run_wellFormed {ρ : Type} (p : Program (Effect Port) ρ) {w : World}
    (h : w.tables.WellFormed) : ((p.run answer).run w).2.tables.WellFormed := by
  induction p generalizing w with
  | done a => exact h
  | ask e next ih =>
    refine ih _ ((answer_edits e w).invariant (P := fun _ => True) ?_ (fun _ _ => trivial) h)
    intro t t' he _ ht
    exact he.wellFormed ht

theorem after_wellFormed (now : Instant) (mint : Nat → String) (orders : List Order) :
    ((fresh now mint).after orders).tables.WellFormed := by
  induction orders with
  | nil => exact Tables.wellFormed_empty
  | cons o earlier ih =>
    let w := (fresh now mint).after earlier
    exact run_wellFormed (program o.op.rule) (w := { w with now := o.now }) ih

/-- An order either fails and leaves the tables alone, or does what its operation does. -/
theorem event_cases (w : World) (o : Order) :
    (∃ f, w.event o = ⟨o.op, .error f, o.now, w.lastMade o⟩ ∧
      (w.carryOut o).2.tables = w.tables) ∨
    ∃ x, w.event o = ⟨o.op, .ok x, o.now, w.lastMade o⟩ ∧
      o.op.Done { w with now := o.now } x (w.carryOut o).2 := by
  have h := o.op.rule_writes { w with now := o.now }
  unfold Writes Ends at h
  rw [show outcome answer o.op.rule { w with now := o.now } = w.carryOut o from rfl] at h
  unfold event
  cases hc : w.carryOut o with
  | mk r w' =>
    rw [hc] at h
    cases r with
    | error f => exact .inl ⟨f, rfl, h.tables⟩
    | ok x => exact .inr ⟨x, rfl, h⟩

end World
end AccessRegistry
