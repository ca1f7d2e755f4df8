import AccessRegistry.Sql.Connection

/-!
# AccessRegistry.Sql.Peer

A database that answers by a prepared script and writes down what it is sent.
-/

namespace AccessRegistry
namespace Sql

structure Peer where
  /-- the answers to the next statements; a count of 0 follows them -/
  replies : List Reply
  /-- the errors at the borders of transactions -/
  borderErrors : List (Border × Error)
  /-- everything that was sent, in order -/
  sent : List Statement
  now : Instant
  /-- the token strings, in the order in which they are made -/
  mint : Nat → String
  /-- how many of them were made -/
  minted : Nat

namespace Peer

def note (s : Statement) : StateM Peer Unit :=
  modify fun p => { p with sent := p.sent ++ [s] }

def nextReply : StateM Peer Reply := do
  let p ← get
  match p.replies with
  | [] => return .count 0
  | r :: replies =>
    set { p with replies }
    return r

def answer : (β : Type) → Wire β → StateM Peer β
  | _, .execute s => do
    note s
    nextReply
  | _, .border b => do
    note ⟨b.text, []⟩
    return ((← get).borderErrors.find? fun e => e.1 = b).map (·.2)
  | _, .now => return (← get).now
  | _, .mint => do
    let p ← get
    set { p with minted := p.minted + 1 }
    return p.mint p.minted

end Peer

end Sql
end AccessRegistry
