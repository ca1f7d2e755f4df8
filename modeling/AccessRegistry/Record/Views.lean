import AccessRegistry.Record.Basic

/-!
# AccessRegistry.Record.Views

What is shown of several records together: applications with their tokens, and the tree of domains,
groups and applications. Both are put together from flat lists and keep their order.
-/

namespace AccessRegistry

structure ApplicationWithTokens where
  app : Application
  tokens : List Token
deriving DecidableEq, Repr

/-- An application group with its applications. -/
structure ServiceNode where
  group : AppGroup
  apps : List Application
deriving DecidableEq, Repr

/-- A domain with its application groups. -/
structure DomainNode where
  domain : Domain
  services : List ServiceNode
deriving DecidableEq, Repr

/-- Children sorted into boxes by the id of their parent. -/
abbrev Boxes (α : Type) := List (Int32 × List α)

namespace Boxes

/-- Puts a child at the end of its parent's box. -/
def add {α : Type} (parent : Int32) (child : α) : Boxes α → Boxes α
  | [] => [(parent, [child])]
  | (id, children) :: rest =>
    if id = parent then (id, children ++ [child]) :: rest
    else (id, children) :: add parent child rest

def ofList {α : Type} (parent : α → Int32) (children : List α) : Boxes α :=
  children.foldl (fun boxes c => boxes.add (parent c) c) []

/-- The children in the box of a parent, none if there is no such box. -/
def children {α : Type} (parent : Int32) (boxes : Boxes α) : List α :=
  match boxes.find? fun b => b.1 = parent with
  | some b => b.2
  | none => []

/-- The boxes of all other parents. -/
def without {α : Type} (parent : Int32) (boxes : Boxes α) : Boxes α :=
  boxes.filter fun b => b.1 ≠ parent

end Boxes

/-- Each application with the tokens that belong to it. -/
def attachTokens (apps : List Application) (tokens : List Token) : List ApplicationWithTokens :=
  let boxes := Boxes.ofList Token.appId tokens
  apps.map fun app => ⟨app, boxes.children app.id⟩

/-- Gives every parent, in order, the box of its id. A parent whose box is gone gets nothing. -/
def distribute {α β γ : Type} (id : α → Int32) (build : α → List β → γ) :
    List α → Boxes β → List γ
  | [], _ => []
  | p :: rest, boxes =>
    build p (boxes.children (id p)) :: distribute id build rest (boxes.without (id p))

/-- The tree of domains, groups and applications. What has no parent in the lists is left out, and
of parents with equal ids the first one gets the children. -/
def buildSystemTree (domains : List Domain) (groups : List AppGroup) (apps : List Application) :
    List DomainNode :=
  let services := distribute AppGroup.id ServiceNode.mk groups
    (Boxes.ofList Application.applicationGroupId apps)
  distribute Domain.id DomainNode.mk domains (Boxes.ofList (fun s => s.group.domainId) services)

end AccessRegistry
