import Mathlib.Data.String.Basic
import AccessRegistry.Config.Load
import AccessRegistry.Proofs.Change
import AccessRegistry.Sql.Setup

/-!
# AccessRegistry.Proofs.SchemaName

The name of a schema becomes part of a statement. What is checked of a name before it is accepted is
that it matches `[A-Za-z_][A-Za-z0-9_]{0,62}`, neither more nor less (`isIdentifier_iff`). No double
quote is among these characters, so that the name is what stands between double quotes in the
statement, and nothing else does (`quotedNames_createSchema`).
-/

namespace AccessRegistry

/-! ## Identifiers -/

namespace Config

/-- What an identifier begins with. -/
def Leads (c : Char) : Prop := 'A' ≤ c ∧ c ≤ 'Z' ∨ 'a' ≤ c ∧ c ≤ 'z' ∨ c = '_'

/-- What an identifier goes on with. -/
def Follows (c : Char) : Prop := Leads c ∨ '0' ≤ c ∧ c ≤ '9'

/-- The names that match `[A-Za-z_][A-Za-z0-9_]{0,62}`. -/
def IsIdentifier (name : String) : Prop :=
  ∃ c rest, name.toList = c :: rest ∧ Leads c ∧ (∀ x ∈ rest, Follows x) ∧ rest.length ≤ 62

variable {c : Char} {cs : List Char} {name : String}

theorem isLetter_iff : isLetter c = true ↔ Leads c := by
  have halpha : c.isAlpha =
      (decide ('A' ≤ c ∧ c ≤ 'Z') || (decide ('a' ≤ c) && decide (c ≤ 'z'))) := rfl
  rw [isLetter, halpha]
  simp only [Bool.or_eq_true, Bool.and_eq_true, decide_eq_true_eq, beq_iff_eq, or_assoc]
  exact Iff.rfl

theorem isLetterOrDigit_iff : (isLetter c || c.isDigit) = true ↔ Follows c := by
  have hdigit : c.isDigit = (decide ('0' ≤ c) && decide (c ≤ '9')) := rfl
  rw [Bool.or_eq_true, isLetter_iff, hdigit, Bool.and_eq_true, decide_eq_true_eq,
    decide_eq_true_eq]
  exact Iff.rfl

theorem Follows.le_z (h : Follows c) : c ≤ 'z' := by
  rcases h with (⟨_, h⟩ | ⟨_, h⟩ | rfl) | ⟨_, h⟩
  · exact Char.le_trans h (by decide)
  · exact h
  · decide
  · exact Char.le_trans h (by decide)

theorem not_follows_quote : ¬ Follows '"' := by
  unfold Follows Leads
  decide

theorem Follows.utf8Size (h : Follows c) : c.utf8Size = 1 := by
  have hascii : c.val ≤ 127 := UInt32.le_trans h.le_z (by decide)
  exact if_pos hascii

/-- Such characters have one byte each. -/
theorem utf8Len_of_follows (h : ∀ x ∈ cs, Follows x) : String.utf8Len cs = cs.length := by
  induction cs with
  | nil => rfl
  | cons c cs ih =>
    obtain ⟨hc, hcs⟩ := List.forall_mem_cons.1 h
    rw [String.utf8Len, ih hcs, hc.utf8Size, List.length_cons]

theorem utf8ByteSize_eq (name : String) : name.utf8ByteSize = String.utf8Len name.toList := by
  rw [← String.utf8ByteSize_ofList, String.ofList_toList]

theorem isIdentifier_iff : isIdentifier name = true ↔ IsIdentifier name := by
  unfold isIdentifier IsIdentifier
  rw [utf8ByteSize_eq]
  cases name.toList with
  | nil => simp
  | cons c rest =>
    simp only [Bool.and_eq_true, decide_eq_true_eq, List.all_eq_true, isLetter_iff,
      isLetterOrDigit_iff]
    have hlength (hc : Leads c) (hrest : ∀ x ∈ rest, Follows x) :
        String.utf8Len (c :: rest) = rest.length + 1 :=
      utf8Len_of_follows (List.forall_mem_cons.2 ⟨.inl hc, hrest⟩)
    constructor
    · rintro ⟨⟨hc, hshort⟩, hrest⟩
      rw [hlength hc hrest] at hshort
      exact ⟨c, rest, rfl, hc, hrest, Nat.le_of_succ_le_succ hshort⟩
    · rintro ⟨c', rest', hname, hc, hrest, hshort⟩
      obtain ⟨rfl, rfl⟩ := List.cons.inj hname
      rw [hlength hc hrest]
      exact ⟨⟨hc, Nat.succ_le_succ hshort⟩, hrest⟩

theorem IsIdentifier.follows (h : IsIdentifier name) : ∀ x ∈ name.toList, Follows x := by
  obtain ⟨c, rest, hname, hc, hrest, _⟩ := h
  rw [hname]
  exact List.forall_mem_cons.2 ⟨.inl hc, hrest⟩

theorem IsIdentifier.utf8ByteSize_le (h : IsIdentifier name) : name.utf8ByteSize ≤ 63 := by
  rw [utf8ByteSize_eq, utf8Len_of_follows h.follows]
  obtain ⟨c, rest, hname, _, _, hshort⟩ := h
  rw [hname]
  exact Nat.succ_le_succ hshort

/-! ## Settings that are accepted -/

variable {s : Settings} {address : Address} {d : Database}

theorem isIdentifier_of_check (h : d.check = .ok ()) (hname : d.schema = some name) :
    IsIdentifier name := by
  rw [← isIdentifier_iff]
  by_contra hflawed
  have hflaw : d.schema.filter (fun s => !isIdentifier s) = some name := by
    rw [hname, Option.filter, if_pos (by simpa using hflawed)]
  rw [Database.check, hflaw] at h
  cases h

theorem database_of_check (h : s.check = .ok address) (hd : s.database = some d) :
    d.check = .ok () := by
  unfold Settings.check at h
  rw [hd] at h
  cases hcheck : d.check with
  | ok _ => rfl
  | error f =>
    simp only [hcheck] at h
    cases h

/-- Settings that are loaded have been checked last of all. -/
theorem check_of_load {args : List String} {place : Option String}
    {file : String → Except ReadError String} (h : load args place file = .ok (s, address)) :
    s.check = .ok address := by
  have hlast {s' : Settings} (h : (do
      let address ← s'.check.mapError LoadError.flawed
      pure (s', address) : Except LoadError _) = .ok (s, address)) : s.check = .ok address := by
    obtain ⟨address', hcheck, h⟩ := except_bind_ok h
    cases h
    cases hs : s.check with
    | ok _ => rw [hs] at hcheck; cases hcheck; rfl
    | error f => rw [hs] at hcheck; cases hcheck
  obtain ⟨a, _, h⟩ := except_bind_ok h
  dsimp only at h
  split at h
  · exact hlast h
  · cases h
  · obtain ⟨_, _, h⟩ := except_bind_ok h
    exact hlast h

theorem isIdentifier_of_load {args : List String} {place : Option String}
    {file : String → Except ReadError String} (h : load args place file = .ok (s, address))
    (hd : s.database = some d) (hname : d.schema = some name) : IsIdentifier name :=
  isIdentifier_of_check (database_of_check (check_of_load h) hd) hname

end Config

/-! ## The statement -/

namespace Sql

/-- A schema is created just if one is configured, and by its name. -/
theorem Stage.eq_createSchema {d : Config.Database} {s : Statement} (h : .schema s ∈ all d) :
    ∃ name, d.schema = some name ∧ s = createSchema name := by
  unfold all at h
  cases hschema : d.schema with
  | none => simp [hschema] at h
  | some name => exact ⟨name, rfl, by simpa [hschema] using h⟩

/-- The names that stand between double quotes in a text. Within a name two double quotes stand for
one; what was read of the present name so far is the first argument. -/
def quotedNames : Option (List Char) → List Char → List String
  | none, [] => []
  | none, '"' :: rest => quotedNames (some []) rest
  | none, _ :: rest => quotedNames none rest
  | some _, [] => []
  | some name, '"' :: '"' :: rest => quotedNames (some (name ++ ['"'])) rest
  | some name, '"' :: rest => .ofList name :: quotedNames none rest
  | some name, c :: rest => quotedNames (some (name ++ [c])) rest

theorem quotedNames_within {cs : List Char} (h : '"' ∉ cs) (read : List Char) :
    quotedNames (some read) (cs ++ ['"']) = [.ofList (read ++ cs)] := by
  induction cs generalizing read with
  | nil => simp [quotedNames]
  | cons c cs ih =>
    obtain ⟨hc, hcs⟩ := not_or.1 (mt List.mem_cons.2 h)
    rw [List.cons_append, quotedNames, ih hcs, List.append_assoc]
    · rfl
    · exact fun _ hquote _ => hc hquote.symm
    · exact fun hquote => hc hquote.symm

theorem quotedNames_between {cs : List Char} (h : '"' ∉ cs) (rest : List Char) :
    quotedNames none (cs ++ rest) = quotedNames none rest := by
  induction cs with
  | nil => rfl
  | cons c cs ih =>
    obtain ⟨hc, hcs⟩ := not_or.1 (mt List.mem_cons.2 h)
    rw [List.cons_append, quotedNames, ih hcs]
    exact fun hquote => hc hquote.symm

theorem quotedNames_createSchema {name : String} (h : '"' ∉ name.toList) :
    quotedNames none (Stage.createSchema name).text.toList = [name] := by
  have hopened : "CREATE SCHEMA IF NOT EXISTS \"".toList =
      "CREATE SCHEMA IF NOT EXISTS ".toList ++ ['"'] := by decide +kernel
  have hclosed : "\"".toList = ['"'] := by decide +kernel
  have happend (opened closed : String) : (opened ++ name ++ closed).toList =
      opened.toList ++ (name.toList ++ closed.toList) := by
    rw [String.toList_append, String.toList_append, List.append_assoc]
  have htext : (Stage.createSchema name).text.toList = _ := happend _ _
  rw [htext, hopened, hclosed, List.append_assoc, List.singleton_append,
    quotedNames_between (by decide +kernel), quotedNames, quotedNames_within h, List.nil_append,
    String.ofList_toList]

end Sql
end AccessRegistry
