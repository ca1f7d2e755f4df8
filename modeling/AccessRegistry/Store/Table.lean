/-!
# AccessRegistry.Store.Table

Tables of rows that carry their own keys. A table lists its rows in strictly ascending order of key,
so a key occurs at most once and two tables with the same rows are equal.
-/

namespace AccessRegistry

/-- Rows that are told apart by a key, which is part of the row. -/
class Keyed (ρ : Type) (κ : outParam Type) extends Ord κ, Std.TransOrd κ, Std.LawfulEqOrd κ where
  key : ρ → κ

structure Table (ρ : Type) {κ : Type} [Keyed ρ κ] where
  rows : List ρ
  sorted : rows.Pairwise fun a b => compare (Keyed.key a) (Keyed.key b) = .lt

namespace Table

variable {ρ κ : Type} [Keyed ρ κ]

@[ext]
theorem ext {s t : Table ρ} (h : s.rows = t.rows) : s = t := by
  cases s; cases t; cases h; rfl

instance : EmptyCollection (Table ρ) := ⟨⟨[], .nil⟩⟩

instance : Inhabited (Table ρ) := ⟨∅⟩

instance : Membership ρ (Table ρ) := ⟨fun t r => r ∈ t.rows⟩

def size (t : Table ρ) : Nat := t.rows.length

/-- The row with a key. -/
def find? (t : Table ρ) (k : κ) : Option ρ :=
  t.rows.find? fun r => compare k (Keyed.key r) == .eq

def contains (t : Table ρ) (k : κ) : Bool := (t.find? k).isSome

/-- The rows with a row put in its place, instead of one with an equal key. -/
def insertRow (r : ρ) : List ρ → List ρ
  | [] => [r]
  | a :: rest =>
    match compare (Keyed.key r) (Keyed.key a) with
    | .lt => r :: a :: rest
    | .eq => r :: rest
    | .gt => a :: insertRow r rest

theorem mem_of_mem_insertRow {r x : ρ} : {rows : List ρ} → x ∈ insertRow r rows → x = r ∨ x ∈ rows
  | [], h => by simpa [insertRow] using h
  | a :: rest, h => by
    unfold insertRow at h
    split at h
    · simpa using h
    · rcases List.mem_cons.1 h with h | h
      · exact .inl h
      · exact .inr (List.mem_cons_of_mem _ h)
    · rcases List.mem_cons.1 h with h | h
      · exact .inr (h ▸ List.mem_cons_self)
      · exact (mem_of_mem_insertRow h).imp_right (List.mem_cons_of_mem _)

theorem sorted_insertRow {r : ρ} : {rows : List ρ} →
    rows.Pairwise (fun a b => compare (Keyed.key a) (Keyed.key b) = .lt) →
    (insertRow r rows).Pairwise fun a b => compare (Keyed.key a) (Keyed.key b) = .lt
  | [], _ => by simp [insertRow]
  | a :: rest, h => by
    rw [List.pairwise_cons] at h
    unfold insertRow
    split
    · rename_i hlt
      refine List.pairwise_cons.2 ⟨fun x hx => ?_, List.pairwise_cons.2 h⟩
      rcases List.mem_cons.1 hx with rfl | hx
      · exact hlt
      · exact Std.TransCmp.lt_trans hlt (h.1 x hx)
    · rename_i heq
      refine List.pairwise_cons.2 ⟨fun x hx => ?_, h.2⟩
      rw [Std.LawfulEqCmp.eq_of_compare heq]
      exact h.1 x hx
    · rename_i hgt
      refine List.pairwise_cons.2 ⟨fun x hx => ?_, sorted_insertRow h.2⟩
      rcases mem_of_mem_insertRow hx with rfl | hx
      · exact Std.OrientedCmp.gt_iff_lt.1 hgt
      · exact h.1 x hx

/-- Stores a row, replacing the one with the same key. -/
def insert (t : Table ρ) (r : ρ) : Table ρ := ⟨insertRow r t.rows, sorted_insertRow t.sorted⟩

/-- Keeps the rows that pass a test. -/
def filter (t : Table ρ) (p : ρ → Bool) : Table ρ :=
  ⟨t.rows.filter p, t.sorted.filter p⟩

/-- Removes the row with a key. -/
def erase (t : Table ρ) (k : κ) : Table ρ :=
  t.filter fun r => compare k (Keyed.key r) != .eq

/-- Stores rows one after another. -/
def insertAll (t : Table ρ) (rows : List ρ) : Table ρ := rows.foldl insert t

/-- The table of some rows; of rows with equal keys the last one stays. -/
def ofList (rows : List ρ) : Table ρ := (∅ : Table ρ).insertAll rows

/-- Changes every row. -/
def map (t : Table ρ) (f : ρ → ρ) : Table ρ := ofList (t.rows.map f)

def any (t : Table ρ) (p : ρ → Bool) : Bool := t.rows.any p

/-- The rows that pass a test, in ascending order of key. -/
def select (t : Table ρ) (p : ρ → Bool) : List ρ := t.rows.filter p

/-- The row with the greatest key. -/
def last? (t : Table ρ) : Option ρ := t.rows.getLast?

/-- Removes the rows with some keys, and counts those that were there. -/
def eraseAll (t : Table ρ) (keys : List κ) : Table ρ × Nat :=
  keys.foldl (fun (t, n) k => if t.contains k then (t.erase k, n + 1) else (t, n)) (t, 0)

end Table

end AccessRegistry
