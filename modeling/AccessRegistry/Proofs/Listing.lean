import AccessRegistry.Proofs.Change
import AccessRegistry.Proofs.Table

/-!
# AccessRegistry.Proofs.Listing

The order in which rows are shown. They come out of a table in ascending order of key and are then
sorted by what they say of themselves, the greatest first; rows that the sort does not tell apart
stay as they are. No two rows can be exchanged in such a listing (`pairwise_listing`), so that it is
determined by its rows: a listing of which some rows are kept is the listing of those rows
(`filter_listing`).
-/

namespace AccessRegistry

namespace Instant

instance : Std.TransOrd Instant :=
  inferInstanceAs (Std.TransCmp (compareLex (compareOn seconds) (compareOn nanos)))

instance : Std.LawfulEqOrd Instant where
  eq_of_compare {a b} h := by
    obtain ⟨hseconds, hnanos⟩ := Ordering.then_eq_eq.mp h
    cases a; cases b
    simp only [mk.injEq]
    exact ⟨Std.LawfulEqOrd.eq_of_compare hseconds, Std.LawfulEqOrd.eq_of_compare hnanos⟩

end Instant

namespace Table

variable {ρ κ τ : Type} [Keyed ρ κ] {cmp : τ → τ → Ordering} {value : ρ → τ} {t u : Table ρ}
  {p q : ρ → Bool}

/-- The rows that pass a test, those with the greatest values first. -/
def listing (t : Table ρ) (cmp : τ → τ → Ordering) (value : ρ → τ) (p : ρ → Bool) : List ρ :=
  (t.select p).mergeSort fun a b => (cmp (value b) (value a)).isLE

/-- By descending values; rows with values that do not differ by ascending keys. -/
def Precedes (cmp : τ → τ → Ordering) (value : ρ → τ) (a b : ρ) : Prop :=
  cmp (value b) (value a) = .lt ∨
    cmp (value b) (value a) = .eq ∧ compare (Keyed.key a) (Keyed.key b) = .lt

section

variable [Std.TransCmp cmp]

theorem isLE_flip_trans (a b c : ρ) (hab : (cmp (value b) (value a)).isLE = true)
    (hbc : (cmp (value c) (value b)).isLE = true) : (cmp (value c) (value a)).isLE = true :=
  Std.TransCmp.isLE_trans hbc hab

theorem isLE_flip_total (a b : ρ) :
    ((cmp (value b) (value a)).isLE || (cmp (value a) (value b)).isLE) = true := by
  have hswap : cmp (value b) (value a) = (cmp (value a) (value b)).swap :=
    Std.OrientedCmp.eq_swap
  rw [hswap]
  cases cmp (value a) (value b) <;> rfl

theorem Precedes.asymm {a b : ρ} (hab : Precedes cmp value a b) : ¬ Precedes cmp value b a := by
  have hswap : cmp (value b) (value a) = (cmp (value a) (value b)).swap :=
    Std.OrientedCmp.eq_swap
  have hkeys : compare (Keyed.key b) (Keyed.key a) =
      (compare (Keyed.key a) (Keyed.key b)).swap := Std.OrientedCmp.eq_swap
  unfold Precedes at hab ⊢
  rw [hswap] at hab
  rw [hkeys]
  cases hvalues : cmp (value a) (value b) with
  | lt => simp [hvalues] at hab
  | gt => simp
  | eq =>
    have hlt : compare (Keyed.key a) (Keyed.key b) = .lt := by simpa [hvalues] using hab
    simp [hlt]

/-- Rows that the sort does not tell apart stay in their order. -/
theorem filter_mergeSort_of_tied {rows : List ρ} {tied : ρ → Bool}
    (htied : ∀ a b, tied a = true → tied b = true → (cmp (value b) (value a)).isLE = true) :
    (rows.mergeSort fun a b => (cmp (value b) (value a)).isLE).filter tied = rows.filter tied := by
  have hperm := List.mergeSort_perm rows fun a b => (cmp (value b) (value a)).isLE
  have hpairwise : (rows.filter tied).Pairwise
      fun a b => (cmp (value b) (value a)).isLE = true := by
    refine List.pairwise_of_forall_mem_list fun a ha b hb => ?_
    exact htied a b (List.mem_filter.1 ha).2 (List.mem_filter.1 hb).2
  have hsublist := (List.sublist_mergeSort isLE_flip_trans isLE_flip_total hpairwise
    List.filter_sublist).filter tied
  simp only [List.filter_filter, Bool.and_self] at hsublist
  exact (hsublist.eq_of_length (hperm.filter tied).length_eq.symm).symm

theorem pairwise_listing (t : Table ρ) (p : ρ → Bool) :
    (t.listing cmp value p).Pairwise (Precedes cmp value) := by
  rw [List.pairwise_iff_forall_sublist]
  intro a b hab
  have hle := List.pairwise_iff_forall_sublist.1
    (List.pairwise_mergeSort isLE_flip_trans isLE_flip_total (t.select p)) hab
  cases hcmp : cmp (value b) (value a) with
  | lt => exact .inl hcmp
  | gt =>
    rw [hcmp] at hle
    cases hle
  | eq =>
    -- among the rows with this value, the two are in the order of the table
    have hkept := hab.filter fun r => cmp (value b) (value r) == .eq
    rw [listing, filter_mergeSort_of_tied fun x y hx hy => ?_] at hkept
    · rw [List.filter_eq_self.2] at hkept
      · exact .inr ⟨hcmp, List.pairwise_iff_forall_sublist.1 t.sorted
          (hkept.trans (List.filter_sublist.trans List.filter_sublist))⟩
      · simp [hcmp, Std.ReflCmp.compare_self]
    · rw [beq_iff_eq] at hx hy
      rw [Std.TransCmp.eq_trans (Std.OrientedCmp.eq_symm hy) hx]
      rfl

/-- What is kept of a listing is the listing of what is kept. -/
theorem filter_listing (t : Table ρ) (p q : ρ → Bool) :
    (t.listing cmp value p).filter q = t.listing cmp value fun r => p r && q r := by
  refine List.Perm.eq_of_pairwise (fun a b _ _ hab hba => absurd hba hab.asymm)
    ((pairwise_listing t p).filter q) (pairwise_listing t _) ?_
  refine ((List.mergeSort_perm _ _).filter q).trans (.trans ?_ (List.mergeSort_perm _ _).symm)
  rw [select, List.filter_filter, select]
  refine .of_eq (List.filter_congr fun r _ => Bool.and_comm _ _)

end

end Table

/-! ## Rows under ids -/

/-- By descending times, then by descending ids. -/
def byAge : Instant × Int32 → Instant × Int32 → Ordering :=
  compareLex (compareOn Prod.fst) (compareOn Prod.snd)

instance : Std.TransCmp byAge :=
  inferInstanceAs (Std.TransCmp (compareLex (compareOn Prod.fst) (compareOn Prod.snd)))

/-- One row was created later than the other, or at the same time under a greater id. -/
def Newer {ρ : Type} (age : ρ → Instant × Int32) (a b : ρ) : Prop :=
  compare (age b).1 (age a).1 = .lt ∨ (age a).1 = (age b).1 ∧ (age b).2 < (age a).2

/-- No row comes both before and after another. -/
theorem Newer.asymm {ρ : Type} {age : ρ → Instant × Int32} {a b : ρ} (hab : Newer age a b) :
    ¬ Newer age b a := by
  have hirrefl (i : Instant) : compare i i ≠ .lt := by
    have hself : compare i i = .eq := Std.ReflCmp.compare_self
    rw [hself]
    nofun
  intro hba
  rcases hab with hab | ⟨htime, hid⟩
  · rcases hba with hba | ⟨htime, _⟩
    · exact hirrefl _ (Std.TransCmp.lt_trans hab hba)
    · exact hirrefl _ (htime ▸ hab)
  · rcases hba with hba | ⟨_, hid'⟩
    · exact hirrefl _ (htime ▸ hba)
    · exact absurd hid' (Int32.lt_asymm hid)

namespace Tables

variable {ρ κ : Type} [Keyed ρ κ] {age : ρ → Instant × Int32}

theorem newestFirst_select (t : Table ρ) (p : ρ → Bool) :
    newestFirst age (t.select p) = t.listing byAge age p := rfl

theorem filter_newestFirst (t : Table ρ) (p q : ρ → Bool) :
    (newestFirst age (t.select p)).filter q = newestFirst age (t.select fun r => p r && q r) := by
  rw [newestFirst_select, Table.filter_listing, newestFirst_select]

theorem pairwise_newestFirst {ρ : Type} [Keyed ρ Int32] {age : ρ → Instant × Int32}
    (hage : ∀ r, (age r).2 = Keyed.key r) (t : Table ρ) (p : ρ → Bool) :
    (newestFirst age (t.select p)).Pairwise (Newer age) := by
  rw [newestFirst_select]
  refine (t.pairwise_listing p).imp fun {a b} h => ?_
  rcases h with h | ⟨h, hkeys⟩
  · rcases Ordering.then_eq_lt.1 h with htime | ⟨htime, hid⟩
    · exact .inl htime
    · exact .inr ⟨(Std.LawfulEqOrd.eq_of_compare htime).symm, Std.compare_eq_lt.1 hid⟩
  · -- rows of equal age have one id
    have hid := Std.LawfulEqOrd.eq_of_compare (Ordering.then_eq_eq.1 h).2
    rw [hage, hage] at hid
    exact absurd hid.symm (Table.ne_of_compare_lt hkeys)

end Tables

/-! ## Tokens -/

/-- One token was created later than the other, or at the same time with a smaller text. -/
def Token.Precedes (a b : Token) : Prop :=
  compare b.createdAt a.createdAt = .lt ∨ a.createdAt = b.createdAt ∧ a.token < b.token

namespace Tables

variable {t : Tables}

theorem tokensWhere_eq (t : Tables) (p : Token → Bool) :
    t.tokensWhere p = t.tokens.listing compare Token.createdAt p := rfl

theorem filter_tokensWhere (p q : Token → Bool) :
    (t.tokensWhere p).filter q = t.tokensWhere fun k => p k && q k := t.tokens.filter_listing p q

theorem pairwise_tokensWhere (p : Token → Bool) :
    (t.tokensWhere p).Pairwise Token.Precedes := by
  rw [tokensWhere_eq]
  refine (t.tokens.pairwise_listing p).imp fun {a b} h => ?_
  rcases h with h | ⟨h, htext⟩
  · exact .inl h
  · exact .inr ⟨(Std.LawfulEqOrd.eq_of_compare h).symm, compareOfLessAndEq_eq_lt.1 htext⟩

/-! ## Permissions -/

/-- Permissions of one application are in the order of their methods. -/
theorem sorted_accessListsFor (t : Tables) (appId : Int32) :
    (t.accessListsFor appId).Pairwise fun a b => a.method < b.method := by
  refine (t.accessLists.sorted.filter _).imp_of_mem fun {a b} ha hb hlt => ?_
  have ha := of_decide_eq_true (List.mem_filter.1 ha).2
  have hb := of_decide_eq_true (List.mem_filter.1 hb).2
  have hcompare : (compare a.appId b.appId).then (compare a.method b.method) = .lt := hlt
  have hsame : compare appId appId = .eq := Std.ReflCmp.compare_self
  rw [ha, hb, hsame] at hcompare
  exact compareOfLessAndEq_eq_lt.1 hcompare

end Tables

end AccessRegistry
