import Mathlib.Data.List.Basic
import AccessRegistry.Store.Table

/-!
# AccessRegistry.Proofs.Table

A table seen through its keys: what `find?` and membership say after each operation. Two rows of a
table with one key are the same row (`eq_of_key_eq`), so `find?` and membership determine each
other, and later proofs need not look at the order of the rows.
-/

namespace AccessRegistry

/-- Of different values only one passes the test. -/
theorem filter_eq_singleton {α : Type} {l : List α} {p : α → Bool} {x : α} (hl : l.Nodup)
    (hx : x ∈ l) (hp : p x = true) (hall : ∀ y ∈ l, p y = true → y = x) : l.filter p = [x] := by
  have heq : ∀ y ∈ l.filter p, y = x := fun y hy => by
    obtain ⟨hy, hpy⟩ := List.mem_filter.1 hy
    exact hall y hy hpy
  have hmem : x ∈ l.filter p := List.mem_filter.2 ⟨hx, hp⟩
  have hone : (l.filter p).Nodup := hl.filter p
  rw [List.eq_replicate_of_mem heq, List.nodup_replicate] at hone
  rw [List.eq_replicate_of_mem heq, Nat.le_antisymm hone (List.length_pos_of_mem hmem)]
  rfl

namespace Table

variable {ρ κ : Type} [Keyed ρ κ] {t : Table ρ} {r s : ρ} {k : κ}

theorem ne_of_compare_lt {i j : κ} (h : compare i j = .lt) : i ≠ j := by
  intro heq
  rw [Std.LawfulEqOrd.compare_eq_iff_eq.2 heq] at h
  cases h

theorem pairwise_key_ne : t.rows.Pairwise fun a b => Keyed.key a ≠ Keyed.key b :=
  t.sorted.imp ne_of_compare_lt

theorem eq_of_key_eq (hr : r ∈ t) (hs : s ∈ t) (h : Keyed.key r = Keyed.key s) : r = s := by
  have hinj : ∀ ⦃a⦄, a ∈ t.rows → ∀ ⦃b⦄, b ∈ t.rows → Keyed.key a = Keyed.key b → a = b :=
    List.Pairwise.forall_of_forall_of_flip (fun _ _ _ => rfl)
      (pairwise_key_ne.imp fun hne heq => absurd heq hne)
      (pairwise_key_ne.imp fun hne heq => absurd heq.symm hne)
  exact hinj hr hs h

theorem nodup_rows (t : Table ρ) : t.rows.Nodup :=
  t.pairwise_key_ne.imp fun hne heq => hne (congrArg _ heq)

theorem find?_eq_some_iff : t.find? k = some r ↔ r ∈ t ∧ Keyed.key r = k := by
  constructor
  · intro h
    have hk := List.find?_some h
    exact ⟨List.mem_of_find?_eq_some h, (Std.LawfulEqOrd.compare_beq_iff_eq.1 hk).symm⟩
  · rintro ⟨hr, rfl⟩
    cases h : t.find? (Keyed.key r) with
    | none =>
      have hne := List.find?_eq_none.1 h r hr
      simp at hne
    | some s =>
      have hk := List.find?_some h
      rw [eq_of_key_eq hr (List.mem_of_find?_eq_some h) (Std.LawfulEqOrd.compare_beq_iff_eq.1 hk)]

theorem find?_of_mem (h : r ∈ t) : t.find? (Keyed.key r) = some r :=
  find?_eq_some_iff.2 ⟨h, rfl⟩

theorem key_of_find? (h : t.find? k = some r) : Keyed.key r = k := (find?_eq_some_iff.1 h).2

theorem mem_of_find? (h : t.find? k = some r) : r ∈ t := (find?_eq_some_iff.1 h).1

theorem contains_iff : t.contains k = true ↔ ∃ r ∈ t, Keyed.key r = k := by
  rw [contains, Option.isSome_iff_exists]
  simp only [find?_eq_some_iff]

theorem contains_of_mem (h : r ∈ t) : t.contains (Keyed.key r) = true := contains_iff.2 ⟨r, h, rfl⟩

/-- Tables with the same rows are equal. -/
theorem eq_of_mem_iff {u : Table ρ} (h : ∀ r, r ∈ t ↔ r ∈ u) : t = u := by
  have hperm : t.rows.Perm u.rows :=
    (List.perm_ext_iff_of_nodup t.nodup_rows u.nodup_rows).2 h
  refine ext (hperm.eq_of_pairwise (fun a b _ _ hab hba => ?_) t.sorted u.sorted)
  exact absurd rfl (ne_of_compare_lt (Std.TransCmp.lt_trans hab hba))

theorem any_iff {p : ρ → Bool} : t.any p = true ↔ ∃ r ∈ t, p r = true := List.any_eq_true

@[simp]
theorem not_mem_empty : r ∉ (∅ : Table ρ) := List.not_mem_nil

/-- The last row has the greatest key. -/
theorem last?_eq_some (h : t.last? = some r) :
    r ∈ t ∧ ∀ s ∈ t, s = r ∨ compare (Keyed.key s) (Keyed.key r) = .lt := by
  obtain ⟨front, hrows⟩ := List.getLast?_eq_some_iff.1 h
  have hsorted := t.sorted
  rw [hrows, List.pairwise_append] at hsorted
  have hmem (s : ρ) : s ∈ t ↔ s ∈ front ∨ s = r := by
    show s ∈ t.rows ↔ _
    rw [hrows, List.mem_append, List.mem_singleton]
  refine ⟨(hmem r).2 (.inr rfl), fun s hs => ?_⟩
  rcases (hmem s).1 hs with hs | rfl
  · exact .inr (hsorted.2.2 s hs r (List.mem_singleton_self r))
  · exact .inl rfl

theorem last?_eq_none (h : t.last? = none) : r ∉ t := by
  have hrows : t.rows = [] := List.getLast?_eq_none_iff.1 h
  show r ∉ t.rows
  rw [hrows]
  exact List.not_mem_nil

/-- Only one row has the key. -/
theorem select_key {p : ρ → Bool} (hr : r ∈ t)
    (hp : ∀ s, p s = true ↔ Keyed.key s = Keyed.key r) : t.select p = [r] :=
  filter_eq_singleton t.nodup_rows hr ((hp r).2 rfl) fun s hs hps =>
    eq_of_key_eq hs hr ((hp s).1 hps)

/-! ## Storing a row -/

theorem mem_insertRow {x : ρ} {rows : List ρ}
    (h : rows.Pairwise fun a b => compare (Keyed.key a) (Keyed.key b) = .lt) :
    x ∈ insertRow r rows ↔ x = r ∨ x ∈ rows ∧ Keyed.key x ≠ Keyed.key r := by
  induction rows with
  | nil => simp [insertRow]
  | cons a rest ih =>
    obtain ⟨ha, hrest⟩ := List.pairwise_cons.1 h
    unfold insertRow
    split
    · rename_i hlt
      -- what comes after a greater row is greater too
      have hne : ∀ b ∈ a :: rest, Keyed.key b ≠ Keyed.key r := fun b hb => by
        rcases List.mem_cons.1 hb with rfl | hb
        · exact (ne_of_compare_lt hlt).symm
        · exact (ne_of_compare_lt (Std.TransCmp.lt_trans hlt (ha b hb))).symm
      rw [List.mem_cons]
      exact or_congr_right ⟨fun hx => ⟨hx, hne x hx⟩, And.left⟩
    · rename_i heq
      have hkey : Keyed.key r = Keyed.key a := Std.LawfulEqOrd.eq_of_compare heq
      have hne : ∀ b ∈ rest, Keyed.key b ≠ Keyed.key r := fun b hb => by
        rw [hkey]
        exact (ne_of_compare_lt (ha b hb)).symm
      rw [List.mem_cons, List.mem_cons]
      refine or_congr_right ⟨fun hx => ⟨.inr hx, hne x hx⟩, ?_⟩
      rintro ⟨rfl | hx, hxr⟩
      · exact absurd hkey.symm hxr
      · exact hx
    · rename_i hgt
      have hne : Keyed.key a ≠ Keyed.key r := ne_of_compare_lt (Std.OrientedCmp.gt_iff_lt.1 hgt)
      rw [List.mem_cons, List.mem_cons, ih hrest]
      constructor
      · rintro (rfl | rfl | ⟨hx, hxr⟩)
        · exact .inr ⟨.inl rfl, hne⟩
        · exact .inl rfl
        · exact .inr ⟨.inr hx, hxr⟩
      · rintro (rfl | ⟨rfl | hx, hxr⟩)
        · exact .inr (.inl rfl)
        · exact .inl rfl
        · exact .inr (.inr ⟨hx, hxr⟩)

theorem mem_insert : s ∈ t.insert r ↔ s = r ∨ s ∈ t ∧ Keyed.key s ≠ Keyed.key r :=
  mem_insertRow t.sorted

/-- A row under a new key is added to the others. -/
theorem mem_insert_new (h : ¬ t.contains (Keyed.key r)) : s ∈ t.insert r ↔ s = r ∨ s ∈ t := by
  rw [mem_insert]
  exact or_congr_right ⟨And.left, fun hs => ⟨hs, fun hkey => h (hkey ▸ contains_of_mem hs)⟩⟩

theorem forall_insert {p : ρ → Prop} (h : ∀ s ∈ t, p s) (hr : p r) : ∀ s ∈ t.insert r, p s := by
  intro s hs
  rcases mem_insert.1 hs with rfl | ⟨hs, _⟩
  · exact hr
  · exact h s hs

theorem find?_insert [DecidableEq κ] :
    (t.insert r).find? k = if k = Keyed.key r then some r else t.find? k := by
  split
  · rename_i h
    exact find?_eq_some_iff.2 ⟨mem_insert.2 (.inl rfl), h.symm⟩
  · rename_i h
    apply Option.ext
    intro x
    rw [find?_eq_some_iff, find?_eq_some_iff, mem_insert]
    constructor
    · rintro ⟨rfl | ⟨hx, _⟩, rfl⟩
      · exact absurd rfl h
      · exact ⟨hx, rfl⟩
    · rintro ⟨hx, rfl⟩
      exact ⟨.inr ⟨hx, h⟩, rfl⟩

/-- What is seen of the rows after one is stored. -/
theorem map_find?_insert [DecidableEq κ] {β : Type} (f : ρ → β) (r : ρ) (k : κ) :
    ((t.insert r).find? k).map f = if k = Keyed.key r then some (f r) else (t.find? k).map f := by
  rw [find?_insert]
  split <;> rfl

/-- Nothing is seen of a row that takes the place of one that looks the same. -/
theorem map_find?_insert_same [DecidableEq κ] {β : Type} {f : ρ → β} {r s : ρ}
    (hs : s ∈ t) (hkey : Keyed.key r = Keyed.key s) (hf : f r = f s) (k : κ) :
    ((t.insert r).find? k).map f = (t.find? k).map f := by
  rw [map_find?_insert]
  split
  · rename_i hk
    rw [hk, hkey, find?_of_mem hs, hf]
    rfl
  · rfl

/-! ## Removing rows -/

theorem mem_filter {p : ρ → Bool} : r ∈ t.filter p ↔ r ∈ t ∧ p r = true := List.mem_filter

theorem filter_eq_self {p : ρ → Bool} (h : ∀ r ∈ t, p r = true) : t.filter p = t :=
  ext (List.filter_eq_self.2 h)

theorem select_filter (t : Table ρ) (keep p : ρ → Bool) :
    (t.filter keep).select p = t.select fun r => p r && keep r := by
  rw [select, filter, List.filter_filter, select]

/-- A test that only rows pass which are kept. -/
theorem select_filter_of_imp (t : Table ρ) {keep p : ρ → Bool}
    (h : ∀ r, p r = true → keep r = true) : (t.filter keep).select p = t.select p := by
  rw [select_filter]
  refine congrArg t.select (funext fun r => ?_)
  rw [Bool.and_eq_left_iff_imp]
  exact h r

theorem find?_filter {p : ρ → Bool} : (t.filter p).find? k = (t.find? k).filter p := by
  apply Option.ext
  intro x
  rw [find?_eq_some_iff, mem_filter, Option.filter_eq_some_iff, find?_eq_some_iff]
  exact and_right_comm

theorem find?_erase [DecidableEq κ] {i : κ} :
    (t.erase i).find? k = if k = i then none else t.find? k := by
  rw [erase, find?_filter]
  apply Option.ext
  intro x
  rw [Option.filter_eq_some_iff]
  split
  · rename_i h
    subst h
    simp only [reduceCtorEq, iff_false, not_and]
    intro hx
    simp [key_of_find? hx]
  · rename_i h
    refine ⟨And.left, fun hx => ⟨hx, ?_⟩⟩
    rw [key_of_find? hx, bne_iff_ne, ne_eq, Std.LawfulEqOrd.compare_eq_iff_eq]
    exact fun heq => h heq.symm

theorem mem_erase {i : κ} : r ∈ t.erase i ↔ r ∈ t ∧ Keyed.key r ≠ i := by
  rw [erase, mem_filter, bne_iff_ne, ne_eq, Std.LawfulEqOrd.compare_eq_iff_eq, ne_comm]

theorem find?_eraseAll [DecidableEq κ] {keys : List κ} :
    (t.eraseAll keys).1.find? k = if k ∈ keys then none else t.find? k := by
  suffices h : ∀ p : Table ρ × Nat,
      (keys.foldl (fun p k => if p.1.contains k then (p.1.erase k, p.2 + 1) else p) p).1.find? k =
        if k ∈ keys then none else p.1.find? k from h (t, 0)
  induction keys with
  | nil => simp
  | cons i rest ih =>
    intro p
    -- erasing a key that is not there changes no answer
    have hstep : (if p.1.contains i then (p.1.erase i, p.2 + 1) else p).1.find? k =
        if k = i then none else p.1.find? k := by
      split
      · exact find?_erase
      · rename_i h
        split
        · rename_i hk
          subst hk
          simpa [contains] using h
        · rfl
    rw [List.foldl_cons, ih, hstep]
    by_cases hk : k = i <;> simp [hk]

theorem mem_eraseAll {keys : List κ} :
    r ∈ (t.eraseAll keys).1 ↔ r ∈ t ∧ Keyed.key r ∉ keys := by
  classical
  have h : (t.eraseAll keys).1.find? (Keyed.key r) = some r ↔
      t.find? (Keyed.key r) = some r ∧ Keyed.key r ∉ keys := by
    rw [find?_eraseAll]
    split <;> simp [*]
  simpa only [find?_eq_some_iff, and_true] using h

theorem size_erase (h : t.contains k = true) : (t.erase k).size + 1 = t.size := by
  obtain ⟨r, hr, rfl⟩ := contains_iff.1 h
  have hone : t.select (fun s => compare (Keyed.key r) (Keyed.key s) == .eq) = [r] := by
    refine select_key hr fun s => ?_
    rw [beq_iff_eq, Std.LawfulEqOrd.compare_eq_iff_eq]
    exact eq_comm
  have hsplit := t.rows.length_eq_length_filter_add
    fun s => compare (Keyed.key r) (Keyed.key s) == .eq
  have hlength := congrArg List.length hone
  rw [select, List.length_singleton] at hlength
  rw [hlength] at hsplit
  rw [size, size, hsplit, Nat.add_comm]
  rfl

/-- What is counted is what is missing afterwards. -/
theorem size_eraseAll (t : Table ρ) (keys : List κ) :
    (t.eraseAll keys).1.size + (t.eraseAll keys).2 = t.size := by
  suffices h : ∀ p : Table ρ × Nat,
      let q := keys.foldl
        (fun p k => if p.1.contains k then (p.1.erase k, p.2 + 1) else p) p
      q.1.size + q.2 = p.1.size + p.2 from h (t, 0)
  induction keys with
  | nil => exact fun p => rfl
  | cons i rest ih =>
    intro p
    rw [List.foldl_cons]
    refine (ih _).trans ?_
    split
    · rename_i hi
      have herase := size_erase hi
      dsimp only
      omega
    · rfl

/-- The order of the keys does not matter, nor how often one occurs. -/
theorem eraseAll_eq [DecidableEq κ] (t : Table ρ) (keys : List κ) :
    t.eraseAll keys = (t.filter fun r => Keyed.key r ∉ keys,
      (t.select fun r => Keyed.key r ∈ keys).length) := by
  have hleft : (t.eraseAll keys).1 = t.filter fun r => Keyed.key r ∉ keys := by
    refine eq_of_mem_iff fun r => ?_
    rw [mem_eraseAll, mem_filter, decide_eq_true_eq]
  have hsize := size_eraseAll t keys
  have hsplit := t.rows.length_eq_length_filter_add fun r => decide (Keyed.key r ∈ keys)
  rw [hleft] at hsize
  refine Prod.ext hleft ?_
  simp only [size, filter, decide_not] at hsize
  simp only [select]
  omega

/-! ## Storing several rows -/

theorem insertAll_cons {rows : List ρ} :
    t.insertAll (r :: rows) = (t.insert r).insertAll rows := rfl

theorem mem_of_mem_insertAll {rows : List ρ} (h : r ∈ t.insertAll rows) : r ∈ rows ∨ r ∈ t := by
  induction rows generalizing t with
  | nil => exact .inr h
  | cons a rows ih =>
    rw [insertAll_cons] at h
    rcases ih h with h | h
    · exact .inl (List.mem_cons_of_mem _ h)
    · rcases mem_insert.1 h with rfl | ⟨h, _⟩
      · exact .inl List.mem_cons_self
      · exact .inr h

theorem forall_insertAll {p : ρ → Prop} {rows : List ρ} (h : ∀ s ∈ t, p s)
    (hrows : ∀ r ∈ rows, p r) : ∀ s ∈ t.insertAll rows, p s := by
  intro s hs
  rcases mem_of_mem_insertAll hs with hs | hs
  · exact hrows s hs
  · exact h s hs

theorem mem_insertAll {rows : List ρ}
    (h : rows.Pairwise fun a b => Keyed.key a ≠ Keyed.key b) :
    r ∈ t.insertAll rows ↔ r ∈ rows ∨ r ∈ t ∧ ∀ a ∈ rows, Keyed.key r ≠ Keyed.key a := by
  induction rows generalizing t with
  | nil => simp [insertAll]
  | cons a rows ih =>
    obtain ⟨ha, hrows⟩ := List.pairwise_cons.1 h
    rw [insertAll_cons, ih hrows, mem_insert, List.mem_cons, List.forall_mem_cons]
    constructor
    · rintro (hr | ⟨rfl | ⟨hr, hra⟩, hne⟩)
      · exact .inl (.inr hr)
      · exact .inl (.inl rfl)
      · exact .inr ⟨hr, hra, hne⟩
    · rintro ((rfl | hr) | ⟨hr, hra, hne⟩)
      · exact .inr ⟨.inl rfl, ha⟩
      · exact .inl hr
      · exact .inr ⟨.inr ⟨hr, hra⟩, hne⟩

/-- Changing rows without their keys. -/
theorem mem_map {f : ρ → ρ} (hf : ∀ r, Keyed.key (f r) = Keyed.key r) :
    s ∈ t.map f ↔ ∃ r ∈ t, f r = s := by
  have hne : (t.rows.map f).Pairwise fun a b => Keyed.key a ≠ Keyed.key b := by
    rw [List.pairwise_map]
    simpa only [hf] using t.pairwise_key_ne
  rw [map, ofList, mem_insertAll hne, List.mem_map]
  exact or_iff_left fun h => not_mem_empty h.1

theorem find?_map {f : ρ → ρ} (hf : ∀ r, Keyed.key (f r) = Keyed.key r) :
    (t.map f).find? k = (t.find? k).map f := by
  apply Option.ext
  intro x
  rw [find?_eq_some_iff, mem_map hf, Option.map_eq_some_iff]
  constructor
  · rintro ⟨⟨r, hr, rfl⟩, rfl⟩
    exact ⟨r, find?_eq_some_iff.2 ⟨hr, (hf r).symm⟩, rfl⟩
  · rintro ⟨r, hr, rfl⟩
    obtain ⟨hmem, hkey⟩ := find?_eq_some_iff.1 hr
    exact ⟨⟨r, hmem, rfl⟩, (hf r).trans hkey⟩

/-- Rows that change without their keys keep their places. -/
theorem rows_map {f : ρ → ρ} (hf : ∀ r, Keyed.key (f r) = Keyed.key r) :
    (t.map f).rows = t.rows.map f := by
  have hsorted : (t.rows.map f).Pairwise
      fun a b => compare (Keyed.key a) (Keyed.key b) = .lt := by
    rw [List.pairwise_map]
    simpa only [hf] using t.sorted
  have heq : t.map f = ⟨t.rows.map f, hsorted⟩ :=
    eq_of_mem_iff fun r => (mem_map hf).trans List.mem_map.symm
  rw [heq]

end Table
end AccessRegistry
