import AccessRegistry.Json.Decoder
import Mathlib.Data.List.Nodup

/-!
# AccessRegistry.Proofs.Members

Going through the members of an object.

* `checkAgainst_iff` — members pass when their names are readable, each field among them occurs at
  most once and fits, and the others pass a test.
* `checkMembers_eq`, `checkOwn_eq` — the two ways in which the members of a record are gone through.
-/

namespace AccessRegistry
namespace Json

theorem bind_eq_ok {α β : Type} {x : Except Problem α} {f : α → Except Problem β} {b : β} :
    (x >>= f) = .ok b ↔ ∃ a, x = .ok a ∧ f a = .ok b := by
  cases x with
  | error e => simp [bind, Except.bind]
  | ok a => simp [bind, Except.bind]

theorem mapError_eq_ok {α : Type} {x : Except Problem α} {f : Problem → Problem} {a : α} :
    x.mapError f = .ok a ↔ x = .ok a := by
  cases x <;> simp [Except.mapError]

theorem ite_throw_eq_ok {α : Type} {c : Prop} [Decidable c] {p : Problem} {a b : α} :
    (if c then pure a else throw p : Except Problem α) = .ok b ↔ c ∧ a = b := by
  by_cases h : c <;> simp [h, pure, Except.pure, throw, throwThe, MonadExceptOf.throw]

theorem isOk_iff {α : Type} {x : Except Problem α} : x.isOk = true ↔ ∃ a, x = .ok a := by
  cases x <;> simp [Except.isOk, Except.toBool]

theorem eq_ok_of_toOption {α : Type} {x : Except Problem α} {a : α} (h : x.toOption = some a) :
    x = .ok a := by
  cases x with
  | error e => cases h
  | ok b => cases h; rfl

/-! ## Members one by one -/

namespace FieldShape

/-- The names under which a field is known. -/
def names (f : FieldShape) : List String := f.name :: f.aliases

/-- Whether a member is the field. -/
def named (f : FieldShape) (m : Option String × Document) : Bool := m.1.any f.matches

theorem matches_iff {f : FieldShape} {key : String} : f.matches key = true ↔ key ∈ f.names := by
  simp [FieldShape.matches, names]

theorem named_some {f : FieldShape} {key : String} {d : Document} :
    f.named (some key, d) = f.matches key := rfl

/-- No name belongs to two fields. -/
def Distinct (fields : List FieldShape) : Prop := (fields.flatMap names).Nodup

instance (fields : List FieldShape) : Decidable (Distinct fields) :=
  inferInstanceAs (Decidable (fields.flatMap names).Nodup)

theorem Distinct.of_append {fields fields' : List FieldShape} (h : Distinct (fields ++ fields')) :
    Distinct fields ∧ Distinct fields' ∧
      ∀ f ∈ fields, ∀ g ∈ fields', ∀ key, f.matches key = true → g.matches key = false := by
  rw [Distinct, List.flatMap_append, List.nodup_append'] at h
  refine ⟨h.1, h.2.1, fun f hf g hg key hkey => ?_⟩
  by_contra hmatches
  have hmatches : g.matches key = true := by simpa using hmatches
  exact h.2.2 (List.mem_flatMap.2 ⟨f, hf, matches_iff.1 hkey⟩)
    (List.mem_flatMap.2 ⟨g, hg, matches_iff.1 hmatches⟩)

theorem Distinct.of_cons {f : FieldShape} {fields : List FieldShape} (h : Distinct (f :: fields)) :
    Distinct fields ∧ ∀ g ∈ fields, ∀ key, f.matches key = true → g.matches key = false := by
  obtain ⟨-, htail, hdisjoint⟩ := @Distinct.of_append [f] fields h
  exact ⟨htail, hdisjoint f (List.mem_singleton_self f)⟩

/-- A name belongs to one field at most. -/
theorem Distinct.eq {fields : List FieldShape} (h : Distinct fields) {f g : FieldShape}
    (hf : f ∈ fields) (hg : g ∈ fields) {key : String} (hkf : f.matches key = true)
    (hkg : g.matches key = true) : f = g := by
  induction fields with
  | nil => cases hf
  | cons x fields ih =>
    obtain ⟨htail, hdisjoint⟩ := h.of_cons
    rcases List.mem_cons.1 hf with rfl | hf'
    · rcases List.mem_cons.1 hg with rfl | hg'
      · rfl
      · simp [hdisjoint g hg' key hkf] at hkg
    · rcases List.mem_cons.1 hg with rfl | hg'
      · simp [hdisjoint f hf' key hkg] at hkf
      · exact ih htail hf' hg'

theorem of_find? {fields : List FieldShape} {f : FieldShape} {key : String}
    (h : fields.find? (·.matches key) = some f) : f ∈ fields ∧ f.matches key = true := by
  have hkey := List.find?_some h
  exact ⟨List.mem_of_find?_eq_some h, hkey⟩

theorem matches_name (f : FieldShape) : f.matches f.name = true := by simp [FieldShape.matches]

theorem Distinct.name_ne {fields : List FieldShape} (h : Distinct fields) {f g : FieldShape}
    (hf : f ∈ fields) (hg : g ∈ fields) (hne : f ≠ g) : f.name ≠ g.name := fun heq =>
  hne (h.eq hf hg (matches_name f) (heq ▸ matches_name g))

theorem Distinct.unnamed {fields : List FieldShape} (h : Distinct fields) {f g : FieldShape}
    (hf : f ∈ fields) (hg : g ∈ fields) (hne : f ≠ g) {key : String} {d : Document}
    (hkey : g.matches key = true) : f.named (some key, d) = false := by
  by_contra hnamed
  exact hne (h.eq hf hg (by simpa [named] using hnamed) hkey)

end FieldShape

namespace Record

open FieldShape (Distinct)

/-- The first member that is the field, or else the default. -/
theorem field_ofMembers {α : Type} (name : String) (decode : Decoder α) (default : Option α)
    (aliases : List String) (ms : Members) :
    (field name decode default aliases).ofMembers ms
      = match ms.find? (FieldShape.named ⟨name, aliases, fun d => (decode d).map fun _ => ()⟩) with
        | some (_, d) => decode d
        | none =>
          match default with
          | some a => .ok a
          | none => .error (unfit (.missingField name)) := rfl

/-- Goes through members in order: each known one occurs once and fits, all others pass a test. -/
def checkAgainst (other : Document → Bool) (fields : List FieldShape) :
    List String → Members → Except Problem Unit
  | _, [] => .ok ()
  | _, (none, _) :: _ => .error .malformed
  | seen, (some key, d) :: rest =>
    match fields.find? (·.matches key) with
    | some f =>
      if seen.contains f.name then .error (unfit (.duplicateField f.name))
      else do
        (f.check d).mapError (Problem.under (.key key))
        checkAgainst other fields (f.name :: seen) rest
    | none => if other d then checkAgainst other fields seen rest else .error .malformed

theorem checkMembers_eq (fields : List FieldShape) (seen : List String) (ms : Members) :
    checkMembers fields seen ms = checkAgainst Document.isWhole fields seen ms := by
  induction ms generalizing seen with
  | nil => rfl
  | cons m rest ih =>
    obtain ⟨_ | key, d⟩ := m
    · rfl
    · cases hfind : fields.find? (·.matches key) <;>
        simp only [checkMembers, checkAgainst, hfind, ih]

theorem checkOwn_eq (own : List FieldShape) (levels : Nat) (seen : List String) (ms : Members) :
    checkOwn own levels seen ms
      = checkAgainst (fun d => (d.value? levels).isSome) own seen ms := by
  induction ms generalizing seen with
  | nil => rfl
  | cons m rest ih =>
    obtain ⟨_ | key, d⟩ := m
    · rfl
    · cases hfind : own.find? (·.matches key) <;> simp only [checkOwn, checkAgainst, hfind, ih]

/-- A field occurs at most once, not at all if it was seen before, and fits. -/
structure Passes (seen : List String) (ms : Members) (f : FieldShape) : Prop where
  once : (ms.filter f.named).length ≤ 1
  unseen : f.name ∈ seen → ms.filter f.named = []
  fits : ∀ m ∈ ms.filter f.named, f.check m.2 = .ok ()

theorem passes_nil {seen : List String} {f : FieldShape} : Passes seen [] f :=
  ⟨by simp, by simp, by simp⟩

theorem passes_cons_other {seen : List String} {m : Option String × Document} {rest : Members}
    {f : FieldShape} (h : f.named m = false) : Passes seen (m :: rest) f ↔ Passes seen rest f := by
  have hfilter : (m :: rest).filter f.named = rest.filter f.named :=
    List.filter_cons_of_neg (by simp [h])
  constructor <;> rintro ⟨honce, hunseen, hfits⟩
  · rw [hfilter] at honce hunseen hfits
    exact ⟨honce, hunseen, hfits⟩
  · refine ⟨?_, ?_, ?_⟩ <;> rw [hfilter] <;> assumption

theorem passes_cons_self {seen : List String} {m : Option String × Document} {rest : Members}
    {f : FieldShape} (h : f.named m = true) :
    Passes seen (m :: rest) f ↔
      f.name ∉ seen ∧ f.check m.2 = .ok () ∧ Passes (f.name :: seen) rest f := by
  have hfilter : (m :: rest).filter f.named = m :: rest.filter f.named :=
    List.filter_cons_of_pos h
  constructor
  · rintro ⟨honce, hunseen, hfits⟩
    rw [hfilter] at honce hunseen hfits
    have hnil : rest.filter f.named = [] := by
      simpa using honce
    refine ⟨fun hseen => ?_, hfits m (List.mem_cons_self ..), ?_, fun _ => hnil, ?_⟩
    · exact absurd (hunseen hseen) (by simp)
    · simp [hnil]
    · simp [hnil]
  · rintro ⟨hseen, hcheck, -, hunseen, -⟩
    have hnil := hunseen (List.mem_cons_self ..)
    refine ⟨?_, fun hmem => absurd hmem hseen, ?_⟩ <;> rw [hfilter, hnil]
    · simp
    · simpa using hcheck

/-- What was seen of another field does not matter. -/
theorem passes_seen {seen : List String} {ms : Members} {f : FieldShape} {name : String}
    (h : f.name ≠ name) : Passes (name :: seen) ms f ↔ Passes seen ms f := by
  constructor <;> rintro ⟨honce, hunseen, hfits⟩
  · exact ⟨honce, fun hseen => hunseen (List.mem_cons_of_mem _ hseen), hfits⟩
  · refine ⟨honce, fun hseen => hunseen ?_, hfits⟩
    exact (List.mem_cons.1 hseen).resolve_left h

/-- Whether a member has a readable name and, unless it is a field, passes a test. -/
def Admitted (other : Document → Bool) (fields : List FieldShape) (m : Option String × Document) :
    Prop :=
  m.1.isSome = true ∧ ((∀ f ∈ fields, f.named m = false) → other m.2 = true)

/-- Members pass when each is admitted and each field occurs at most once and fits. -/
theorem checkAgainst_iff {other : Document → Bool} {fields : List FieldShape} (h : Distinct fields)
    (seen : List String) (ms : Members) :
    checkAgainst other fields seen ms = .ok () ↔
      (∀ m ∈ ms, Admitted other fields m) ∧ ∀ f ∈ fields, Passes seen ms f := by
  induction ms generalizing seen with
  | nil => simp [checkAgainst, passes_nil]
  | cons m rest ih =>
    obtain ⟨_ | key, d⟩ := m
    · simp [checkAgainst, Admitted]
    · cases hfind : fields.find? (·.matches key) with
      | none =>
        have hnone : ∀ f ∈ fields, f.named (some key, d) = false := fun f hf => by
          simpa [FieldShape.named] using List.find?_eq_none.1 hfind f hf
        have hpasses : (∀ f ∈ fields, Passes seen ((some key, d) :: rest) f)
            ↔ ∀ f ∈ fields, Passes seen rest f :=
          forall₂_congr fun f hf => passes_cons_other (hnone f hf)
        have hadmitted : Admitted other fields (some key, d) ↔ other d = true :=
          ⟨fun h => h.2 hnone, fun h => ⟨rfl, fun _ => h⟩⟩
        simp only [checkAgainst, hfind, List.forall_mem_cons, hpasses, hadmitted]
        cases hother : other d with
        | false => simp
        | true => simp [ih]
      | some f =>
        obtain ⟨hf, hkey⟩ := FieldShape.of_find? hfind
        have hnamed : f.named (some key, d) = true := hkey
        have hadmitted : Admitted other fields (some key, d) :=
          ⟨rfl, fun hnone => absurd (hnone f hf) (by simp [FieldShape.named, hkey])⟩
        -- the member is `f` and no other field, so it counts as seen for `f` alone
        have hpasses : (∀ g ∈ fields, Passes seen ((some key, d) :: rest) g) ↔
            f.name ∉ seen ∧ f.check d = .ok () ∧ ∀ g ∈ fields, Passes (f.name :: seen) rest g := by
          constructor
          · intro hall
            obtain ⟨hseen, hcheck, hrest⟩ := (passes_cons_self hnamed).1 (hall f hf)
            refine ⟨hseen, hcheck, fun g hg => ?_⟩
            by_cases hgf : g = f
            · rwa [hgf]
            · rw [passes_seen (h.name_ne hg hf hgf), ← passes_cons_other (h.unnamed hg hf hgf hkey)]
              exact hall g hg
          · rintro ⟨hseen, hcheck, hall⟩ g hg
            by_cases hgf : g = f
            · rw [hgf]
              exact (passes_cons_self hnamed).2 ⟨hseen, hcheck, hall f hf⟩
            · rw [passes_cons_other (h.unnamed hg hf hgf hkey), ← passes_seen (h.name_ne hg hf hgf)]
              exact hall g hg
        rw [List.forall_mem_cons, hpasses]
        simp only [checkAgainst, hfind]
        split
        · rename_i hseen
          simp at hseen
          simp [hseen]
        · rename_i hseen
          simp only [List.contains_iff_mem] at hseen
          simp only [bind_eq_ok, mapError_eq_ok, ih]
          exact ⟨fun ⟨_, hcheck, hall, hrest⟩ => ⟨⟨hadmitted, hall⟩, hseen, hcheck, hrest⟩,
            fun ⟨⟨_, hall⟩, _, hcheck, hrest⟩ => ⟨(), hcheck, hall, hrest⟩⟩

end Record

end Json
end AccessRegistry
