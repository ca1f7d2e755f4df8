import AccessRegistry.Json.Document
import AccessRegistry.Proofs.Lexeme
import Mathlib.Order.Lattice

/-!
# AccessRegistry.Proofs.Spelling

The JSON texts as a grammar, and what the reader makes of them.

* `Tree` — what a text says, with its numbers as they are written.
* `Tree.Spelled` — the texts that spell a tree: its words, with blanks anywhere between them.
* `Tree.Spelled.read` — such a text is read as the document of its tree, and nothing is left over.
-/

namespace AccessRegistry
namespace Json

/-- What a text says. The text of a string is missing when it holds half a pair of surrogates. -/
inductive Tree where
  | null
  | bool (b : Bool)
  | number (l : Number.Literal)
  | string (s : Option String)
  | array (items : List Tree)
  | object (members : List (Option String × Tree))

namespace Tree

mutual

/-- The words of a tree, before those of `tail`. -/
def words : Tree → List Word → List Word
  | .null, tail => .null :: tail
  | .bool b, tail => .bool b :: tail
  | .number l, tail => .number l :: tail
  | .string s, tail => .string s :: tail
  | .array [], tail => .beginArray :: .endArray :: tail
  | .array (t :: rest), tail => .beginArray :: words t (itemWords rest (.endArray :: tail))
  | .object [], tail => .beginObject :: .endObject :: tail
  | .object ((key, t) :: rest), tail =>
    .beginObject :: .string key :: .colon :: words t (memberWords rest (.endObject :: tail))

def itemWords : List Tree → List Word → List Word
  | [], tail => tail
  | t :: rest, tail => .comma :: words t (itemWords rest tail)

def memberWords : List (Option String × Tree) → List Word → List Word
  | [], tail => tail
  | (key, t) :: rest, tail => .comma :: .string key :: .colon :: words t (memberWords rest tail)

end

/-- The texts of a tree. -/
def Spelled (t : Tree) (cs : List Char) : Prop := WordsWritten (t.words []) cs

mutual

/-- The tree as a reader sees it, who knows numbers by their values. -/
def document : Tree → Document
  | .null => .null
  | .bool b => .bool b
  | .number l => .number l.value
  | .string s => .string s
  | .array items => .array (itemDocuments items) true
  | .object members => .object (memberDocuments members) true

def itemDocuments : List Tree → List Document
  | [] => []
  | t :: rest => document t :: itemDocuments rest

def memberDocuments : List (Option String × Tree) → List (Option String × Document)
  | [] => []
  | (key, t) :: rest => (key, document t) :: memberDocuments rest

end

theorem itemDocuments_eq (items : List Tree) : itemDocuments items = items.map document := by
  induction items with
  | nil => rfl
  | cons t rest ih => rw [itemDocuments, ih, List.map_cons]

theorem memberDocuments_eq (members : List (Option String × Tree)) :
    memberDocuments members = members.map fun m => (m.1, m.2.document) := by
  induction members with
  | nil => rfl
  | cons m rest ih => rw [memberDocuments, ih, List.map_cons]

/-! ## Numbers are followed by marks -/

/-- Words in which numbers are followed by marks, and that start with a mark. -/
def Continues (ws : List Word) : Prop := Separated ws ∧ ∀ w ∈ ws.head?, w.closes = true

theorem Continues.mark {w : Word} {ws : List Word} (hw : w.closes = true) (hws : Separated ws) :
    Continues (w :: ws) := by
  refine ⟨.cons ?_ hws, by simpa using hw⟩
  cases w <;> simp [Word.closes, Word.isNumber] at *

theorem Continues.cons {w : Word} {ws : List Word} (h : Continues ws) : Separated (w :: ws) := by
  cases ws with
  | nil => trivial
  | cons w' ws => exact ⟨fun _ => h.2 w' rfl, h.1⟩

mutual

theorem separated_words (t : Tree) {ws : List Word} (h : Continues ws) :
    Separated (t.words ws) := by
  match t with
  | .null | .bool _ | .number _ | .string _ => exact h.cons
  | .array [] => exact (Continues.mark rfl h.1).cons
  | .array (t :: rest) =>
    exact .cons rfl (separated_words t (continues_itemWords rest (.mark rfl h.1)))
  | .object [] => exact (Continues.mark rfl h.1).cons
  | .object ((key, t) :: rest) =>
    exact .cons rfl (.cons rfl (.cons rfl
      (separated_words t (continues_memberWords rest (.mark rfl h.1)))))

theorem continues_itemWords (ts : List Tree) {ws : List Word} (h : Continues ws) :
    Continues (itemWords ts ws) := by
  match ts with
  | [] => exact h
  | t :: rest => exact .mark rfl (separated_words t (continues_itemWords rest h))

theorem continues_memberWords (ms : List (Option String × Tree)) {ws : List Word}
    (h : Continues ws) : Continues (memberWords ms ws) := by
  match ms with
  | [] => exact h
  | (key, t) :: rest =>
    exact .mark rfl (.cons rfl (.cons rfl
      (separated_words t (continues_memberWords rest h))))

end

theorem Spelled.scan {t : Tree} {cs : List Char} (h : t.Spelled cs) :
    Token.scan (cs.map some) = (t.words []).map Word.token :=
  scan_written h (separated_words t ⟨trivial, by simp⟩)

/-! ## Reading -/

/-- Goes on after a token. -/
def resume (rest : List Token) : Document.Step → Document × List Token
  | .more place stack => Document.readFrom place stack rest
  | .complete v => (v, rest)
  | .stuck => (.broken, rest)

theorem readFrom_deliver {place : Document.Place} {stack stack' : List Document.Frame} {t : Token}
    {rest : List Token} {v : Document}
    (h : Document.step place stack t = Document.deliver v stack') :
    Document.readFrom place stack (t :: rest) = resume rest (Document.deliver v stack') := by
  rw [Document.readFrom, h]
  cases stack' with
  | nil => rfl
  | cons frame stack' => cases frame <;> rfl

/-- A value that begins an array is read like any other. -/
theorem readFrom_firstItem (t : Tree) (stack : List Document.Frame) (ws : List Word) :
    Document.readFrom .firstItem stack ((t.words ws).map Word.token)
      = Document.readFrom .value (.items [] :: stack) ((t.words ws).map Word.token) := by
  match t with
  | .null | .bool _ | .number _ | .string _ => rfl
  | .array [] | .array (_ :: _) | .object [] | .object ((_, _) :: _) => rfl

mutual

theorem readFrom_words (t : Tree) (stack : List Document.Frame) (ws : List Word) :
    Document.readFrom .value stack ((t.words ws).map Word.token)
      = resume (ws.map Word.token) (Document.deliver t.document stack) := by
  match t with
  | .null | .bool _ | .number _ | .string _ => exact readFrom_deliver rfl
  | .array [] =>
    show Document.readFrom .firstItem stack (.endArray :: ws.map Word.token) = _
    exact readFrom_deliver rfl
  | .array (t :: rest) =>
    have hfirst := readFrom_words t (.items [] :: stack) (itemWords rest (.endArray :: ws))
    have hrest := readFrom_itemWords rest [t.document] stack ws
    rw [← readFrom_firstItem] at hfirst
    exact hfirst.trans hrest
  | .object [] =>
    show Document.readFrom .firstKey stack (.endObject :: ws.map Word.token) = _
    exact readFrom_deliver rfl
  | .object ((key, t) :: rest) =>
    have hfirst := readFrom_words t (.members [] key :: stack) (memberWords rest (.endObject :: ws))
    have hrest := readFrom_memberWords rest [(key, t.document)] stack ws
    exact hfirst.trans hrest

theorem readFrom_itemWords (ts : List Tree) (done : List Document) (stack : List Document.Frame)
    (ws : List Word) :
    Document.readFrom (.afterItem done) stack ((itemWords ts (.endArray :: ws)).map Word.token)
      = resume (ws.map Word.token)
          (Document.deliver (.array (done.reverse ++ itemDocuments ts) true) stack) := by
  match ts with
  | [] =>
    rw [itemDocuments, List.append_nil]
    exact readFrom_deliver rfl
  | t :: rest =>
    have hfirst := readFrom_words t (.items done :: stack) (itemWords rest (.endArray :: ws))
    have hrest := readFrom_itemWords rest (t.document :: done) stack ws
    have h := hfirst.trans hrest
    rw [List.reverse_cons, List.append_assoc] at h
    exact h

theorem readFrom_memberWords (ms : List (Option String × Tree))
    (done : List (Option String × Document)) (stack : List Document.Frame) (ws : List Word) :
    Document.readFrom (.afterMember done) stack ((memberWords ms (.endObject :: ws)).map Word.token)
      = resume (ws.map Word.token)
          (Document.deliver (.object (done.reverse ++ memberDocuments ms) true) stack) := by
  match ms with
  | [] =>
    rw [memberDocuments, List.append_nil]
    exact readFrom_deliver rfl
  | (key, t) :: rest =>
    have hfirst := readFrom_words t (.members done key :: stack)
      (memberWords rest (.endObject :: ws))
    have hrest := readFrom_memberWords rest ((key, t.document) :: done) stack ws
    have h := hfirst.trans hrest
    rw [List.reverse_cons, List.append_assoc] at h
    exact h

end

/-- A text that spells a tree is read to its end. -/
theorem Spelled.read {t : Tree} {cs : List Char} (h : t.Spelled cs) :
    Document.read (cs.map some) = (t.document, []) := by
  rw [Document.read, h.scan, readFrom_words]
  rfl

/-! ## Nesting -/

mutual

/-- How many containers are nested in a tree. -/
def depth : Tree → Nat
  | .array items => itemsDepth items + 1
  | .object members => membersDepth members + 1
  | _ => 0

def itemsDepth : List Tree → Nat
  | [] => 0
  | t :: rest => max (depth t) (itemsDepth rest)

def membersDepth : List (Option String × Tree) → Nat
  | [] => 0
  | (_, t) :: rest => max (depth t) (membersDepth rest)

end

theorem depth_le_itemsDepth {t : Tree} {ts : List Tree} (h : t ∈ ts) : t.depth ≤ itemsDepth ts := by
  induction ts with
  | nil => cases h
  | cons t' rest ih =>
    rw [itemsDepth]
    rcases List.mem_cons.1 h with rfl | h
    · exact le_max_left ..
    · exact (ih h).trans (le_max_right ..)

theorem depth_le_membersDepth {m : Option String × Tree} {ms : List (Option String × Tree)}
    (h : m ∈ ms) : m.2.depth ≤ membersDepth ms := by
  induction ms with
  | nil => cases h
  | cons m' rest ih =>
    obtain ⟨key, t⟩ := m'
    rw [membersDepth]
    rcases List.mem_cons.1 h with rfl | h
    · exact le_max_left ..
    · exact (ih h).trans (le_max_right ..)

/-- At most a hundred containers are nested in the tree. -/
def Shallow (t : Tree) : Prop := t.depth ≤ 100

theorem Shallow.item {ts : List Tree} (h : Shallow (.array ts)) : ∀ t ∈ ts, t.Shallow := by
  intro t ht
  have := depth_le_itemsDepth ht
  simp only [Shallow, depth] at h ⊢
  omega

theorem Shallow.member {ms : List (Option String × Tree)} (h : Shallow (.object ms)) :
    ∀ m ∈ ms, m.2.Shallow := by
  intro m hm
  have := depth_le_membersDepth hm
  simp only [Shallow, depth] at h ⊢
  omega

mutual

/-- Whether every number has a double near it and every string is text. -/
def isReadable : Tree → Bool
  | .number l => l.value.isSome
  | .string s => s.isSome
  | .array items => areReadable items
  | .object members => areReadableMembers members
  | _ => true

def areReadable : List Tree → Bool
  | [] => true
  | t :: rest => isReadable t && areReadable rest

def areReadableMembers : List (Option String × Tree) → Bool
  | [] => true
  | (key, t) :: rest => key.isSome && isReadable t && areReadableMembers rest

end

mutual

/-- A readable tree that is not nested too deep is read as a value, and no other. -/
theorem isSome_value? (t : Tree) {levels : Nat} (h : t.depth ≤ levels) :
    (t.document.value? levels).isSome = t.isReadable := by
  match t, levels with
  | .null, _ | .bool _, _ => simp [document, Document.value?, isReadable]
  | .number _, _ | .string _, _ => simp [document, Document.value?, isReadable]
  | .array items, levels + 1 =>
    rw [document, Document.value?, Option.isSome_map, isReadable]
    exact isSome_values? items (by simpa [depth] using h)
  | .object members, levels + 1 =>
    rw [document, Document.value?, Option.isSome_map, isReadable]
    exact isSome_memberValues? members (by simpa [depth] using h)

theorem isSome_values? (ts : List Tree) {levels : Nat} (h : itemsDepth ts ≤ levels) :
    (Document.values? levels (itemDocuments ts)).isSome = areReadable ts := by
  match ts with
  | [] => rfl
  | t :: rest =>
    rw [itemsDepth, max_le_iff] at h
    rw [areReadable, ← isSome_value? t h.1, ← isSome_values? rest h.2, itemDocuments,
      Document.values?]
    cases Document.value? levels t.document <;>
      cases Document.values? levels (itemDocuments rest) <;> rfl

theorem isSome_memberValues? (ms : List (Option String × Tree)) {levels : Nat}
    (h : membersDepth ms ≤ levels) :
    (Document.memberValues? levels (memberDocuments ms)).isSome = areReadableMembers ms := by
  match ms with
  | [] => rfl
  | (key, t) :: rest =>
    rw [membersDepth, max_le_iff] at h
    rw [areReadableMembers, ← isSome_value? t h.1, ← isSome_memberValues? rest h.2, memberDocuments,
      Document.memberValues?]
    cases key <;> cases Document.value? levels t.document <;>
      cases Document.memberValues? levels (memberDocuments rest) <;> rfl

end

end Tree

end Json
end AccessRegistry
