import Mathlib.Logic.Function.Basic
import AccessRegistry.Proofs.Trial

/-!
# AccessRegistry.Proofs.Gate

The storage in memory with several clients at it, step by step. Every client makes one call.

* A call that only looks is answered from the shared tables at any moment.
* A single statement takes the gate, changes the shared tables in place and leaves the gate.
* A transaction takes the gate, copies the shared tables and works on its copy, one request at a
  time. If the work succeeds, the copy takes the place of the shared tables; otherwise it is
  dropped. Then the transaction leaves the gate.
* A client may be dropped at any step. It leaves the gate if it holds it.

Steps of different clients follow each other in any order, and the time and the token strings may
be others at every step. `alone` is what a call comes to without other clients, and `replay` makes
the writes of a log one after another.
-/

namespace AccessRegistry
namespace Gate

/-- What a step finds besides the tables. -/
structure Moment where
  now : Instant
  token : String

def Moment.world (m : Moment) (t : Tables) : World := ⟨t, m.now, fun _ => m.token, 0⟩

structure Client where
  {γ : Type}
  call : Port γ

/-! ## Calls alone -/

/-- The next request of some work, on its copy of the tables. -/
def workStep {u : UseCase} {ρ : Type} :
    Program (Effect (Capability u)) ρ × Tables → Moment → Program (Effect (Capability u)) ρ × Tables
  | (.done r, copy), _ => (.done r, copy)
  | (.ask e next, copy), m =>
    let (b, w) := (World.answerWork _ e).run (m.world copy)
    (next b, w.tables)

/-- The outcome of a call that has the tables for itself, and the tables after it, if it is over
after these moments. -/
def alone {γ : Type} (c : Port γ) (moments : List Moment) (t : Tables) :
    Option (Except Failure γ × Tables) :=
  match c, moments with
  | .transaction _ work, moments =>
    match moments.foldl workStep (work.program, t) with
    | (.done r, copy) => some (r, if r.toBool then copy else t)
    | _ => none
  | c, [m] =>
    let (r, w) := (World.answerCall c).run (m.world t)
    some (r, w.tables)
  | _, _ => none

/-- A write that took effect. -/
structure Entry where
  client : Nat
  moments : List Moment

/-- Makes some writes one after another, if each of them succeeds. -/
def replay (clients : Nat → Client) (log : List Entry) (t : Tables) : Option Tables :=
  log.foldlM (fun t e =>
    match alone (clients e.client).call e.moments t with
    | some (.ok _, t') => some t'
    | _ => none) t

/-! ## Stages of a client -/

inductive Stage : {γ : Type} → Port γ → Type 1 where
  | waiting {γ : Type} {c : Port γ} : Stage c
  /-- holds the gate -/
  | entered {γ : Type} {c : Port γ} : Stage c
  /-- holds the gate and works on a copy; `moments` are those of the requests so far -/
  | working {u : UseCase} {α : Type} {work : Work u α} (moments : List Moment)
      (rest : Program (Effect (Capability u)) (Except Failure α)) (copy : Tables) :
      Stage (.transaction u work)
  /-- is answered, and still holds the gate -/
  | answered {γ : Type} {c : Port γ} (r : Except Failure γ) : Stage c
  /-- with an answer, or dropped before -/
  | gone {γ : Type} {c : Port γ} (r : Option (Except Failure γ)) : Stage c

/-- What a step of a client leads to. -/
structure Move {γ : Type} (c : Port γ) where
  stage : Stage c
  tables : Tables
  /-- the moments of the write, if it takes effect in this step -/
  commit : Option (List Moment)

namespace Stage

variable {γ : Type} {c : Port γ}

def isWaiting : Stage c → Bool
  | waiting => true
  | _ => false

def holds : Stage c → Bool
  | entered | working .. | answered _ => true
  | _ => false

def answer? : Stage c → Option (Except Failure γ)
  | answered r => some r
  | gone r => r
  | _ => none

/-- A single statement, in place. -/
def act (c : Port γ) (m : Moment) (t : Tables) : Move c :=
  let (r, w) := (World.answerCall c).run (m.world t)
  ⟨answered r, w.tables, if Exchange.commits ⟨c, r⟩ then some [m] else none⟩

def begin (c : Port γ) (m : Moment) (t : Tables) : Move c :=
  match c with
  | .transaction _ work => ⟨working [] work.program t, t, none⟩
  | c => act c m t

/-- The next step of a client, with these shared tables. -/
def next (m : Moment) (t : Tables) : Stage c → Move c
  | waiting =>
    if c.writes then ⟨waiting, t, none⟩
    else ⟨gone (some ((World.answerCall c).run (m.world t)).1), t, none⟩
  | entered => begin c m t
  | working moments (.ask e next) copy =>
    let (rest, copy) := workStep (.ask e next, copy) m
    ⟨working (moments ++ [m]) rest copy, t, none⟩
  | working moments (.done (.ok a)) copy => ⟨answered (.ok a), copy, some moments⟩
  | working _ (.done (.error f)) _ => ⟨answered (.error f), t, none⟩
  | answered r => ⟨gone (some r), t, none⟩
  | gone r => ⟨gone r, t, none⟩

def drop : Stage c → Stage c
  | answered r => gone (some r)
  | gone r => gone r
  | _ => gone none

end Stage

/-! ## All clients -/

structure State (clients : Nat → Client) where
  /-- the shared tables -/
  tables : Tables
  /-- who holds the gate -/
  holder : Option Nat
  stage : (i : Nat) → Stage (clients i).call
  /-- the clients in the order in which they took the gate -/
  entered : List Nat
  /-- the writes in the order in which they took effect -/
  log : List Entry

inductive Event where
  /-- a client takes the gate -/
  | enter (i : Nat)
  | step (i : Nat) (m : Moment)
  /-- a client is dropped -/
  | drop (i : Nat)

namespace State

variable {clients : Nat → Client}

/-- All clients wait. -/
def start (clients : Nat → Client) (t : Tables) : State clients :=
  ⟨t, none, fun _ => .waiting, [], []⟩

/-- The state after an event. An event that is not possible changes nothing. -/
def next (s : State clients) : Event → State clients
  | .enter i =>
    if s.holder = none ∧ (s.stage i).isWaiting ∧ (clients i).call.writes then
      { s with
        holder := some i
        stage := Function.update s.stage i .entered
        entered := s.entered ++ [i] }
    else s
  | .step i m =>
    let move := (s.stage i).next m s.tables
    { s with
      tables := move.tables
      holder := if (s.stage i).holds ∧ ¬ move.stage.holds then none else s.holder
      stage := Function.update s.stage i move.stage
      log := s.log ++ (move.commit.map (Entry.mk i)).toList }
  | .drop i =>
    { s with
      holder := if (s.stage i).holds then none else s.holder
      stage := Function.update s.stage i (s.stage i).drop }

def after (s : State clients) (events : List Event) : State clients := events.foldl next s

end State

end Gate
end AccessRegistry
