import AccessRegistry.Proofs.Integrity
import AccessRegistry.Proofs.Ledger

/-!
# AccessRegistry.Proofs.Deletion

What deletions leave. Rows vanish with their parents, so a row is gone after a sweep just when the
ledger says so: for a group, an application, a token and a permission in turn.
-/

namespace AccessRegistry

namespace Table

variable {ρ σ κ ι : Type} [Keyed ρ κ] [Keyed σ ι] {t t' : Table ρ} {parents parents' : Table σ}
  {parent : ρ → ι} {gone : κ → Bool} {goneParent : ι → Bool}

/-- The table `t'` has the rows of `t` but those whose keys are gone. -/
def Lacks (t' t : Table ρ) (gone : κ → Bool) : Prop :=
  ∀ k, t'.find? k = if gone k then none else t.find? k

theorem Lacks.refl : t.Lacks t fun _ => false := fun _ => rfl

theorem lacks_eraseAll [DecidableEq κ] (keys : List κ) :
    (t.eraseAll keys).1.Lacks t keys.contains := by
  intro k
  rw [find?_eraseAll]
  simp only [List.contains_iff_mem]

theorem lacks_filter {p : ρ → Bool} (hp : ∀ r ∈ t, p r = !gone (Keyed.key r)) :
    (t.filter p).Lacks t gone := by
  intro k
  rw [find?_filter]
  cases hrow : t.find? k with
  | none => simp
  | some r =>
    have hkey := key_of_find? hrow
    have hr := hp r (mem_of_find? hrow)
    rw [hkey] at hr
    cases hg : gone k <;> simp [Option.filter, hr, hg]

theorem Lacks.mem_iff {r : ρ} (h : t'.Lacks t gone) :
    r ∈ t' ↔ r ∈ t ∧ gone (Keyed.key r) = false := by
  have hfind := h (Keyed.key r)
  have hiff (u : Table ρ) : r ∈ u ↔ u.find? (Keyed.key r) = some r :=
    ⟨find?_of_mem, mem_of_find?⟩
  rw [hiff t', hiff t, hfind]
  cases gone (Keyed.key r) <;> simp

theorem Lacks.map_find? (h : t'.Lacks t gone) {β : Type} (f : ρ → β) (k : κ) :
    (t'.find? k).map f = if gone k then none else (t.find? k).map f := by
  rw [h k]
  split <;> rfl

theorem Lacks.contains (h : t'.Lacks t gone) (k : κ) :
    t'.contains k = (!gone k && t.contains k) := by
  unfold Table.contains
  rw [h k]
  cases gone k <;> rfl

/-- Rows vanish with their parents. -/
theorem Lacks.filter (h : t'.Lacks t gone) (hparents : parents'.Lacks parents goneParent)
    (hlinked : t.LinkedTo parents parent) :
    (t'.filter fun r => parents'.contains (parent r)).Lacks t fun k =>
      gone k || (t.find? k).any fun r => goneParent (parent r) := by
  intro k
  rw [find?_filter, h k]
  cases hgone : gone k with
  | true => simp [hgone]
  | false =>
    cases hrow : t.find? k with
    | none => simp
    | some r =>
      have hparent := hlinked r (mem_of_find? hrow)
      cases hg : goneParent (parent r) <;>
        simp [hgone, hrow, hg, Option.filter, hparents.contains, hparent]

end Table

namespace Tables

variable {t t' : Tables}

/-- The tables without what a deletion names and everything under it. -/
def without (t : Tables) (r : Removal) : Tables :=
  sweepOrphans { t with
    domains := (t.domains.eraseAll r.domains).1
    groups := (t.groups.eraseAll r.groups).1
    applications := (t.applications.eraseAll r.applications).1 }

namespace WellFormed

theorem lacks_groups (h : t.WellFormed) (r : Removal) :
    (t.without r).groups.Lacks t.groups (t.ledger.groupGone r) := by
  have hlacks := (Table.lacks_eraseAll r.groups).filter (Table.lacks_eraseAll r.domains) h.groups
  intro g
  refine (hlacks g).trans ?_
  rw [Ledger.groupGone, ledger_groups, Option.any_map]

theorem lacks_applications (h : t.WellFormed) (r : Removal) :
    (t.without r).applications.Lacks t.applications (t.ledger.applicationGone r) := by
  have hlacks :=
    (Table.lacks_eraseAll r.applications).filter (h.lacks_groups r) h.applications
  intro a
  refine (hlacks a).trans ?_
  rw [Ledger.applicationGone, ledger_applications, Option.any_map]

theorem lacks_tokens (h : t.WellFormed) (r : Removal) :
    (t.without r).tokens.Lacks t.tokens fun text =>
      (t.tokens.find? text).any fun k => t.ledger.applicationGone r k.appId :=
  Table.Lacks.refl.filter (h.lacks_applications r) h.tokens

theorem lacks_permissions (h : t.WellFormed) (r : Removal) :
    (t.without r).accessLists.Lacks t.accessLists fun key =>
      (t.accessLists.find? key).any fun a => t.ledger.applicationGone r a.appId :=
  Table.Lacks.refl.filter (h.lacks_applications r) h.permissions

theorem ledger_without (h : t.WellFormed) (r : Removal) :
    (t.without r).ledger = t.ledger.remove r := by
  refine Ledger.ext (funext fun d => ?_) (funext fun g => ?_) (funext fun a => ?_)
    (funext fun a => funext fun m => ?_) rfl rfl
  · exact (Table.lacks_eraseAll r.domains).map_find? _ d
  · exact (h.lacks_groups r).map_find? _ g
  · exact (h.lacks_applications r).map_find? _ a
  · refine ((h.lacks_permissions r).map_find? _ _).trans ?_
    -- a permission goes with the application that its key names
    cases hrow : t.accessLists.find? ⟨a, m⟩ with
    | none => simp [Ledger.remove, hrow]
    | some row =>
      have hkey := Table.key_of_find? hrow
      simp only [AccessList.key_eq, PermissionKey.mk.injEq] at hkey
      simp [Ledger.remove, hrow, hkey.1]

end WellFormed

theorem eq_without_deleteDomains {ids : List Int32} {n : Nat}
    (h : (deleteDomains ids).apply t = (.ok n, t')) : t' = t.without { domains := ids } := by
  rw [apply_deleteDomains] at h
  cases h
  rfl

theorem eq_without_deleteGroups {ids : List Int32} {n : Nat}
    (h : (deleteGroups ids).apply t = (.ok n, t')) : t' = t.without { groups := ids } := by
  rw [apply_deleteGroups] at h
  cases h
  rfl

theorem eq_without_deleteApplications {ids : List Int32} {n : Nat}
    (h : (deleteApplications ids).apply t = (.ok n, t')) :
    t' = t.without { applications := ids } := by
  rw [apply_deleteApplications] at h
  cases h
  rfl

end Tables
end AccessRegistry
