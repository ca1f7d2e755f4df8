import AccessRegistry.Yaml.Token

/-!
# AccessRegistry.Yaml.Node

The trees that YAML documents describe, and their construction from tokens.

* `Node.ofTokens?` — the tree of the only document, `none` inside if there is none at all.
* `Node.read?`     — the same from a text.
* `Node.anchored`  — the nodes of a tree that aliases can stand for.
* `Node.target`    — what a node stands for: itself, unless it is an alias.

Where a key, a value or an item is left out, an empty plain text stands in its place.
-/

namespace AccessRegistry
namespace Yaml

/-- What stands before a node: the number of its anchor, and its kind. -/
structure Properties where
  anchor : Option Nat := none
  tag : Option Tag := none
deriving DecidableEq, Repr

namespace Properties

def isEmpty (p : Properties) : Bool := p.anchor.isNone && p.tag.isNone

/-- The properties of a text that is not left out. It loses a tag that tells no kind. -/
def ofText (p : Properties) : Properties := { p with tag := p.tag.filter (· ≠ .nonspecific) }

end Properties

inductive Node where
  | scalar (properties : Properties) (style : Style) (text : String)
  | sequence (properties : Properties) (items : List Node)
  | mapping (properties : Properties) (entries : List (Node × Node))
  /-- the node whose anchor has this number -/
  | aliasOf (number : Nat)
deriving Repr

namespace Node

def empty (p : Properties) : Node := .scalar p .plain ""

/-! ## Construction -/

/-- Tokens that are left after some were read. -/
abbrev Shorter (ts : List Token) := { rest : List Token // rest.length < ts.length }

/-- Tokens that are left, perhaps all of them. -/
abbrev Suffix (ts : List Token) := { rest : List Token // rest.length ≤ ts.length }

/-- What follows a token, if that one stands at the front. -/
def after? {ts : List Token} (t : Token) : Suffix ts → Option (Shorter ts)
  | ⟨[], _⟩ => none
  | ⟨u :: rest, h⟩ => if u = t then some ⟨rest, h⟩ else none

/-- The properties at the front: an anchor and a tag in either order. -/
def properties : (ts : List Token) → Properties × Suffix ts
  | .anchor a :: .tag t :: rest => (⟨some a, some t⟩, ⟨rest, Nat.le_add_right _ 2⟩)
  | .tag t :: .anchor a :: rest => (⟨some a, some t⟩, ⟨rest, Nat.le_add_right _ 2⟩)
  | .anchor a :: rest => (⟨some a, none⟩, ⟨rest, Nat.le_succ _⟩)
  | .tag t :: rest => (⟨none, some t⟩, ⟨rest, Nat.le_succ _⟩)
  | ts => ({}, ⟨ts, Nat.le_refl _⟩)

/-- The tokens before which an item of a sequence may be missing. -/
def afterItem : List Token := [.item, .key, .value, .endBlock]

/-- The tokens before which a key or value of a mapping may be missing. -/
def afterMember : List Token := [.key, .value, .endBlock]

/-- The tokens before which a key or value between brackets may be missing. -/
def afterEntry : List Token := [.value, .comma, .endSequence, .endMapping]

/-- The tokens that stand for the key of a pair between square brackets, which is missing then. -/
def insteadOfKey : List Token := [.value, .comma, .endSequence]

/-- An entry between brackets: a key and a value, or a single node. -/
abbrev Entry := Node × Option Node

def Entry.item : Entry → Node
  | (n, none) => n
  | (k, some v) => .mapping {} [(k, v)]

def Entry.member (e : Entry) : Node × Node := (e.1, e.2.getD (.empty {}))

mutual

/-- The node at the front after its properties, which alone make an empty one. The items of a
sequence may stand there without any indentation if `loose` says so. -/
def content (p : Properties) (loose : Bool) : (ts : List Token) → Option (Node × Suffix ts)
  | .scalar style text :: rest => some (.scalar p.ofText style text, ⟨rest, Nat.le_succ _⟩)
  | .beginSequence :: rest => do
    let (es, ⟨r, h⟩) ← entries .endSequence rest
    return (.sequence p (es.map Entry.item), ⟨r, Nat.le_succ_of_le h⟩)
  | .beginMapping :: rest => do
    let (es, ⟨r, h⟩) ← entries .endMapping rest
    return (.mapping p (es.map Entry.member), ⟨r, Nat.le_succ_of_le h⟩)
  | .beginBlockSequence :: .item :: rest => do
    let (ns, r) ← items rest
    let ⟨q, h⟩ ← after? .endBlock r
    return (.sequence p ns, ⟨q, Nat.le_succ_of_le (Nat.le_succ_of_le (Nat.le_of_lt h))⟩)
  | .beginBlockMapping :: .key :: rest => do
    let (ms, r) ← members rest
    let ⟨q, h⟩ ← after? .endBlock r
    return (.mapping p ms, ⟨q, Nat.le_succ_of_le (Nat.le_succ_of_le (Nat.le_of_lt h))⟩)
  | .item :: rest =>
    if loose then do
      let (ns, ⟨r, h⟩) ← items rest
      return (.sequence p ns, ⟨r, Nat.le_succ_of_le h⟩)
    else if p.isEmpty then none
    else some (.empty p, ⟨.item :: rest, Nat.le_refl _⟩)
  | ts => if p.isEmpty then none else some (.empty p, ⟨ts, Nat.le_refl _⟩)
termination_by ts => 6 * ts.length
decreasing_by all_goals simp only [List.length_cons] at *; omega

/-- The node at the front. -/
def node (loose : Bool) : (ts : List Token) → Option (Node × Suffix ts)
  | .aliasOf number :: rest => some (.aliasOf number, ⟨rest, Nat.le_succ _⟩)
  | ts => do
    let (p, ⟨r, h⟩) := properties ts
    let (n, ⟨q, h'⟩) ← content p loose r
    return (n, ⟨q, Nat.le_trans h' h⟩)
termination_by ts => 6 * ts.length + 1
decreasing_by omega

/-- The node at the front, or the empty one if a token of `stops` stands there. -/
def nodeOrEmpty (stops : List Token) (loose : Bool) :
    (ts : List Token) → Option (Node × Suffix ts)
  | [] => none
  | t :: rest =>
    if t ∈ stops then some (.empty {}, ⟨t :: rest, Nat.le_refl _⟩) else node loose (t :: rest)
termination_by ts => 6 * ts.length + 2
decreasing_by simp only [List.length_cons] at *; omega

/-- The items of a sequence after the dash of the first one. -/
def items (ts : List Token) : Option (List Node × Suffix ts) := do
  let (n, r) ← nodeOrEmpty afterItem false ts
  match after? .item r with
  | none => return ([n], r)
  | some ⟨r, h⟩ =>
    let (ns, ⟨q, h'⟩) ← items r
    return (n :: ns, ⟨q, Nat.le_trans h' (Nat.le_of_lt h)⟩)
termination_by 6 * ts.length + 3
decreasing_by all_goals omega

/-- The value after a key, and what follows it; without a colon there is none. -/
def value (stops : List Token) (ts : List Token) : Option (Node × Suffix ts) :=
  match after? .value ⟨ts, Nat.le_refl _⟩ with
  | none => some (.empty {}, ⟨ts, Nat.le_refl _⟩)
  | some ⟨r, h⟩ => do
    let (n, ⟨q, h'⟩) ← nodeOrEmpty stops true r
    return (n, ⟨q, Nat.le_trans h' (Nat.le_of_lt h)⟩)
termination_by 6 * ts.length + 3
decreasing_by all_goals omega

/-- A key after its mark, and its value. -/
def member (stops : List Token) (ts : List Token) : Option ((Node × Node) × Suffix ts) := do
  let (k, ⟨r, h⟩) ← nodeOrEmpty stops true ts
  let (v, ⟨q, h'⟩) ← value stops r
  return ((k, v), ⟨q, Nat.le_trans h' h⟩)
termination_by 6 * ts.length + 4
decreasing_by all_goals omega

/-- The entries of a mapping after the mark of the first key. -/
def members (ts : List Token) : Option (List (Node × Node) × Suffix ts) := do
  let (m, r) ← member afterMember ts
  match after? .key r with
  | none => return ([m], r)
  | some ⟨r, h⟩ =>
    let (ms, ⟨q, h'⟩) ← members r
    return (m :: ms, ⟨q, Nat.le_trans h' (Nat.le_of_lt h)⟩)
termination_by 6 * ts.length + 5
decreasing_by all_goals omega

/-- The entry at the front of those that end with `close`. -/
def entry (close : Token) : (ts : List Token) → Option (Entry × Suffix ts)
  | .key :: t :: rest =>
    if close = .endSequence ∧ t ∈ insteadOfKey then do
      let (v, ⟨r, h⟩) ← value afterEntry rest
      return ((.empty {}, some v), ⟨r, Nat.le_succ_of_le (Nat.le_succ_of_le h)⟩)
    else do
      let ((k, v), ⟨r, h⟩) ← member afterEntry (t :: rest)
      return ((k, some v), ⟨r, Nat.le_succ_of_le h⟩)
  | ts => do
    let (n, r) ← node false ts
    return ((n, none), r)
termination_by ts => 6 * ts.length + 2
decreasing_by
  · simp only [List.length_cons]; omega
  · simp only [List.length_cons]; omega
  · omega

/-- The entries up to the closing bracket. -/
def entries (close : Token) : (ts : List Token) → Option (List Entry × Suffix ts)
  | [] => none
  | t :: rest =>
    if t = close then some ([], ⟨rest, Nat.le_succ _⟩)
    else do
      let (e, r) ← entry close (t :: rest)
      match after? .comma r, after? close r with
      | some ⟨r, h⟩, _ =>
        let (es, ⟨q, h'⟩) ← entries close r
        return (e :: es, ⟨q, Nat.le_trans h' (Nat.le_of_lt h)⟩)
      | _, some ⟨q, h⟩ => return ([e], ⟨q, Nat.le_of_lt h⟩)
      | _, _ => none
termination_by ts => 6 * ts.length + 3
decreasing_by all_goals simp only [List.length_cons] at *; omega

end

/-- The node of a document and what follows it. Only after the line `---` may it be left out. -/
def document (explicit : Bool) (ts : List Token) : Option (Node × List Token) :=
  match ts.head? with
  | none | some .directive | some .documentStart | some .documentEnd =>
    if explicit then some (.empty {}, ts) else none
  | _ => (node false ts).map fun (n, r) => (n, r.1)

/-- Directives ask for the line `---` after them. -/
def ofTokens? : List Token → Option (Option Node)
  | [] => some none
  | ts => do
    let (n, r) ←
      match ts.dropWhile (· = .directive) with
      | .documentStart :: rest => document true rest
      | _ => document false ts
    if r.all (· = .documentEnd) then return some n else none

def read? (s : String) : Option (Option Node) := do ofTokens? (← Token.scan s)

/-! ## Anchors and aliases -/

/-- Nodes by the numbers of their anchors. -/
abbrev Anchored := List (Nat × Node)

/-- A node under the number of its anchor, if it has one. -/
def numbered (p : Properties) (n : Node) : Anchored := (p.anchor.map fun a => (a, n)).toList

mutual

/-- The nodes of a tree that have anchors, the last one first. -/
def anchored : Node → Anchored
  | .scalar p style text => numbered p (.scalar p style text)
  | .sequence p items => anchoredItems items ++ numbered p (.sequence p items)
  | .mapping p entries => anchoredEntries entries ++ numbered p (.mapping p entries)
  | .aliasOf _ => []

def anchoredItems : List Node → Anchored
  | [] => []
  | n :: rest => anchoredItems rest ++ anchored n

def anchoredEntries : List (Node × Node) → Anchored
  | [] => []
  | (k, v) :: rest => anchoredEntries rest ++ (anchored v ++ anchored k)

end

/-- What a node stands for. Of the nodes with one number it is the last. -/
def target (table : Anchored) : Node → Node
  | .aliasOf number => (table.lookup number).getD (.empty {})
  | n => n

end Node

end Yaml
end AccessRegistry
