import AccessRegistry.Proofs.Members
import AccessRegistry.Proofs.Spelling

/-!
# AccessRegistry.Proofs.FieldRules

What records are read from, as a rule for each field.

* `FieldRule` — a field as a text has to hold it.
* `Governs` — a record whose fields are as some rules say; it is put together like the record.
* `Governs.takes` — such a record is read from an object that meets the rules, or from an array of
  just its fields.
* `Governs.flattened_takes` — with a field beside it, it is read from an object that meets all the
  rules.
-/

namespace AccessRegistry
namespace Json

/-! ## Rules -/

/-- A field as a text has to hold it: its names, whether it has to be there, and what it may be. -/
structure FieldRule where
  names : List String
  required : Bool
  Fits : Tree → Prop

namespace FieldRule

def named (rule : FieldRule) (m : Option String × Tree) : Bool := m.1.any (rule.names.contains ·)

/-- The field is there at most once, if it is required exactly once, and it fits. -/
structure Met (rule : FieldRule) (ms : List (Option String × Tree)) : Prop where
  atMost : (ms.filter rule.named).length ≤ 1
  exactly : rule.required = true → (ms.filter rule.named).length = 1
  fits : ∀ m ∈ ms.filter rule.named, rule.Fits m.2

/-- The first member that is the field fits; there is one if the field is required. -/
def Found (rule : FieldRule) (ms : List (Option String × Tree)) : Prop :=
  match ms.find? rule.named with
  | some m => rule.Fits m.2
  | none => rule.required = false

/-- Elements for the fields in order. Those at the end may be missing if none is required. -/
def Leading : List FieldRule → List Tree → Prop
  | [], _ => True
  | rule :: rules, [] => rule.required = false ∧ Leading rules []
  | rule :: rules, t :: ts => rule.Fits t ∧ Leading rules ts

theorem leading_append {rules rules' : List FieldRule} {ts : List Tree} :
    Leading (rules ++ rules') ts ↔ Leading rules ts ∧ Leading rules' (ts.drop rules.length) := by
  induction rules generalizing ts with
  | nil => simp [Leading]
  | cons rule rules ih =>
    cases ts with
    | nil =>
      have h := @ih []
      simp only [List.drop_nil] at h
      simp [Leading, h, and_assoc]
    | cons t ts => simp [Leading, ih, and_assoc]

/-- Elements that lead and are no more than the fields are one for each, if the last one is
required. -/
theorem forall₂_iff_leading {rules : List FieldRule} {last : FieldRule} (h : last.required = true)
    {ts : List Tree} :
    List.Forall₂ Fits (rules ++ [last]) ts ↔
      Leading (rules ++ [last]) ts ∧ ts.drop (rules ++ [last]).length = [] := by
  induction rules generalizing ts with
  | nil =>
    match ts with
    | [] => simp [Leading, h]
    | [t] => simp [Leading]
    | t :: t' :: ts => simp [Leading]
  | cons rule rules ih =>
    cases ts with
    | nil =>
      have hrest := @ih []
      simp only [List.drop_nil, and_true] at hrest
      simp [Leading, ← hrest]
    | cons t ts => simp [Leading, ih, and_assoc]

end FieldRule

/-- An object with readable names that holds the fields, and maybe others. -/
inductive IsObject (rules : List FieldRule) : Tree → Prop where
  | mk {ms : List (Option String × Tree)} (hnames : ∀ m ∈ ms, m.1.isSome = true)
      (hfields : ∀ rule ∈ rules, rule.Met ms) : IsObject rules (.object ms)

inductive IsArray (rules : List FieldRule) : Tree → Prop where
  | mk {ts : List Tree} (h : List.Forall₂ FieldRule.Fits rules ts) : IsArray rules (.array ts)

/-- A decoder that takes certain values, of those that are not nested too deep. -/
def Takes {α : Type} (decode : Decoder α) (Fits : Tree → Prop) : Prop :=
  ∀ t : Tree, t.Shallow → ((∃ a, decode t.document = .ok a) ↔ Fits t)

/-- What a field asks of a text. -/
structure Asks (rule : FieldRule) (f : FieldShape) : Prop where
  names : f.names = rule.names
  check : ∀ t : Tree, t.Shallow → (f.check t.document = .ok () ↔ rule.Fits t)

/-- A record whose fields are as some rules say. -/
structure Governs {α : Type} (rules : List FieldRule) (r : Record α) : Prop where
  fields : List.Forall₂ Asks rules r.fields
  members : ∀ ms : List (Option String × Tree), (∀ m ∈ ms, m.2.Shallow) →
    ((∃ a, r.ofMembers (Tree.memberDocuments ms) = .ok a) ↔ ∀ rule ∈ rules, rule.Found ms)
  items : ∀ expected index (ts : List Tree), (∀ t ∈ ts, t.Shallow) →
    ((∃ a left, r.ofItems expected ⟨Tree.itemDocuments ts, true, index⟩ = .ok (a, left)) ↔
      FieldRule.Leading rules ts)
  left : ∀ {expected index ts a left},
    r.ofItems expected ⟨Tree.itemDocuments ts, true, index⟩ = .ok (a, left) →
      left.whole = true ∧ left.rest = Tree.itemDocuments (ts.drop rules.length)

namespace Governs

theorem nil {α : Type} (a : α) : Governs [] (Pure.pure a : Record α) where
  fields := .nil
  members ms _ := by simp [Pure.pure]
  items expected index ts _ := by simp [Pure.pure, FieldRule.Leading]
  left h := by
    obtain ⟨rfl, rfl⟩ := Prod.mk.inj (Except.ok.inj h)
    exact ⟨rfl, rfl⟩

theorem seq {α β : Type} {f : Record (α → β)} {x : Record α} {rules rules' : List FieldRule}
    (hf : Governs rules f) (hx : Governs rules' x) : Governs (rules ++ rules') (f <*> x) where
  fields := List.rel_append hf.fields hx.fields
  members ms hms := by
    rw [List.forall_mem_append, ← hf.members ms hms, ← hx.members ms hms]
    show (∃ b, (f.ofMembers _ >>= fun g => x.ofMembers _ >>= fun a => .ok (g a)) = .ok b) ↔ _
    simp only [bind_eq_ok]
    grind
  items expected index ts hts := by
    -- the second record reads on where the first one stopped
    have hdrop : ∀ t ∈ ts.drop rules.length, t.Shallow :=
      fun t ht => hts t (List.mem_of_mem_drop ht)
    rw [FieldRule.leading_append, ← hf.items expected index ts hts]
    show (∃ b left, (f.ofItems _ _ >>= fun p => x.ofItems _ p.2 >>= fun q => .ok (p.1 q.1, q.2))
      = .ok (b, left)) ↔ _
    simp only [bind_eq_ok]
    constructor
    · rintro ⟨b, left, ⟨g, rest⟩, hg, ⟨a, left'⟩, ha, -⟩
      obtain ⟨hwhole, hrest⟩ := hf.left hg
      obtain ⟨rest, whole, i⟩ := rest
      obtain rfl : whole = true := hwhole
      obtain rfl : rest = _ := hrest
      exact ⟨⟨g, _, hg⟩, (hx.items expected i _ hdrop).1 ⟨a, left', ha⟩⟩
    · rintro ⟨⟨g, rest, hg⟩, hleading⟩
      obtain ⟨hwhole, hrest⟩ := hf.left hg
      obtain ⟨rest, whole, i⟩ := rest
      obtain rfl : whole = true := hwhole
      obtain rfl : rest = _ := hrest
      obtain ⟨a, left, ha⟩ := (hx.items expected i _ hdrop).2 hleading
      exact ⟨g a, left, (g, _), hg, (a, left), ha, rfl⟩
  left h := by
    obtain ⟨⟨g, rest⟩, hg, h⟩ := bind_eq_ok.1 h
    obtain ⟨⟨a, left⟩, ha, h⟩ := bind_eq_ok.1 h
    obtain ⟨rfl, rfl⟩ := Prod.mk.inj (Except.ok.inj h)
    obtain ⟨hwhole, hrest⟩ := hf.left hg
    obtain ⟨rest, whole, i⟩ := rest
    obtain rfl : whole = true := hwhole
    obtain rfl : rest = _ := hrest
    rw [List.length_append, ← List.drop_drop]
    exact hx.left ha

theorem map {α β : Type} {x : Record α} {rules : List FieldRule} (hx : Governs rules x)
    (g : α → β) : Governs rules (g <$> x) := (nil g).seq hx

theorem field {α : Type} (name : String) {decode : Decoder α} (default : Option α)
    (aliases : List String) {Fits : Tree → Prop} (h : Takes decode Fits) :
    Governs [⟨name :: aliases, default.isNone, Fits⟩]
      (Record.field name decode default aliases) where
  fields := by
    refine .cons ⟨rfl, fun t ht => (?_ : _ ↔ Fits t)⟩ .nil
    rw [← h t ht]
    show (decode t.document).map (fun _ => ()) = .ok () ↔ _
    cases decode t.document <;> simp [Except.map]
  members ms hms := by
    let shape : FieldShape := ⟨name, aliases, fun d => (decode d).map fun _ => ()⟩
    let rule : FieldRule := ⟨name :: aliases, default.isNone, Fits⟩
    have hfind : (Tree.memberDocuments ms).find? shape.named
        = (ms.find? rule.named).map fun m => (m.1, m.2.document) := by
      rw [Tree.memberDocuments_eq, List.find?_map]
      refine congrArg _ (congrArg (ms.find? ·) (funext fun m => ?_))
      obtain ⟨_ | key, t⟩ := m
      · rfl
      · rw [Bool.eq_iff_iff]
        simp [FieldShape.named, FieldRule.named, FieldShape.matches, shape, rule]
    rw [Record.field_ofMembers, hfind, List.forall_mem_singleton]
    show _ ↔ rule.Found ms
    rw [FieldRule.Found]
    cases hm : ms.find? rule.named with
    | none => cases default <;> simp [rule]
    | some m => exact h m.2 (hms m (List.mem_of_find?_eq_some hm))
  items expected index ts hts := by
    cases ts with
    | nil => cases default <;> simp [Record.field, Tree.itemDocuments, FieldRule.Leading]
    | cons t ts =>
      have ht := h t (hts t (List.mem_cons_self ..))
      simp only [Record.field, Tree.itemDocuments, FieldRule.Leading, bind_eq_ok, mapError_eq_ok,
        and_true]
      rw [← ht]
      constructor
      · rintro ⟨_, _, a, ha, -⟩
        exact ⟨a, ha⟩
      · rintro ⟨a, ha⟩
        exact ⟨a, _, a, ha, rfl⟩
  left {expected index ts a left} h := by
    cases ts with
    | nil =>
      cases default with
      | none => cases h
      | some b =>
        obtain ⟨rfl, rfl⟩ := Prod.mk.inj (Except.ok.inj h)
        exact ⟨rfl, rfl⟩
    | cons t ts =>
      simp only [Record.field, Tree.itemDocuments, bind_eq_ok] at h
      obtain ⟨b, -, h⟩ := h
      obtain ⟨rfl, rfl⟩ := Prod.mk.inj (Except.ok.inj h)
      exact ⟨rfl, rfl⟩

theorem required {α : Type} (name : String) {decode : Decoder α} {Fits : Tree → Prop}
    (h : Takes decode Fits) : Governs [⟨[name], true, Fits⟩] (Record.required name decode) :=
  field name none [] h

theorem defaulting {α : Type} (name : String) {decode : Decoder α} (default : α)
    {Fits : Tree → Prop} (h : Takes decode Fits) :
    Governs [⟨[name], false, Fits⟩] (Record.defaulting name decode default) :=
  field name (some default) [] h

end Governs

/-! ## Objects and arrays -/

/-- A record as a text has to hold it. -/
def IsRecord (rules : List FieldRule) (t : Tree) : Prop := IsObject rules t ∨ IsArray rules t

/-- The rules name no field twice. -/
def DistinctNames (rules : List FieldRule) : Prop := (rules.flatMap FieldRule.names).Nodup

instance (rules : List FieldRule) : Decidable (DistinctNames rules) :=
  inferInstanceAs (Decidable (rules.flatMap FieldRule.names).Nodup)

mutual

/-- Nothing is missing from what a text spells. -/
theorem isWhole_document (t : Tree) : t.document.isWhole = true := by
  match t with
  | .null | .bool _ | .number _ | .string _ => rfl
  | .array items => exact areWhole_itemDocuments items
  | .object members => exact areWhole_memberDocuments members

theorem areWhole_itemDocuments (ts : List Tree) :
    Document.areWhole (Tree.itemDocuments ts) = true := by
  match ts with
  | [] => rfl
  | t :: rest =>
    rw [Tree.itemDocuments, Document.areWhole, isWhole_document t, areWhole_itemDocuments rest]
    rfl

theorem areWhole_memberDocuments (ms : List (Option String × Tree)) :
    Document.areWholeMembers (Tree.memberDocuments ms) = true := by
  match ms with
  | [] => rfl
  | (key, t) :: rest =>
    rw [Tree.memberDocuments, Document.areWholeMembers, isWhole_document t,
      areWhole_memberDocuments rest]
    rfl

end

theorem Asks.named {rule : FieldRule} {f : FieldShape} (h : Asks rule f)
    (m : Option String × Tree) : f.named (m.1, m.2.document) = rule.named m := by
  obtain ⟨_ | key, t⟩ := m
  · rfl
  · rw [Bool.eq_iff_iff, FieldShape.named_some, FieldShape.matches_iff, h.names]
    simp [FieldRule.named]

theorem Asks.filter {rule : FieldRule} {f : FieldShape} (h : Asks rule f)
    (ms : List (Option String × Tree)) :
    (Tree.memberDocuments ms).filter f.named
      = (ms.filter rule.named).map fun m => (m.1, m.2.document) := by
  rw [Tree.memberDocuments_eq, List.filter_map]
  exact congrArg _ (congrArg (ms.filter ·) (funext h.named))

/-- A field passes and is found if its rule is met, and only then. -/
theorem Asks.met_iff {rule : FieldRule} {f : FieldShape} (h : Asks rule f)
    {ms : List (Option String × Tree)} (hms : ∀ m ∈ ms, m.2.Shallow) :
    Record.Passes [] (Tree.memberDocuments ms) f ∧ rule.Found ms ↔ rule.Met ms := by
  have hfind : ms.find? rule.named = (ms.filter rule.named).head? := List.head?_filter.symm
  constructor
  · rintro ⟨⟨honce, -, hfits⟩, hfound⟩
    rw [h.filter] at honce hfits
    rw [List.length_map] at honce
    refine ⟨honce, fun hrequired => ?_, fun m hm => ?_⟩
    · rw [FieldRule.Found, hfind] at hfound
      cases hms : ms.filter rule.named with
      | nil => simp [hms, hrequired] at hfound
      | cons m rest =>
        rw [hms] at honce
        simp only [List.length_cons] at honce ⊢
        omega
    · exact (h.check m.2 (hms m (List.mem_of_mem_filter hm))).1 (hfits _ (List.mem_map_of_mem hm))
  · rintro ⟨honce, hexactly, hfits⟩
    refine ⟨⟨by rw [h.filter, List.length_map]; exact honce, by simp, ?_⟩, ?_⟩
    · rw [h.filter]
      intro m hm
      obtain ⟨m', hm', rfl⟩ := List.mem_map.1 hm
      exact (h.check m'.2 (hms m' (List.mem_of_mem_filter hm'))).2 (hfits m' hm')
    · rw [FieldRule.Found, hfind]
      cases hms : ms.filter rule.named with
      | nil =>
        rw [hms] at hexactly
        simpa using hexactly
      | cons m rest => exact hfits m (by rw [hms]; exact List.mem_cons_self ..)

theorem Asks.flatMap_names {rules : List FieldRule} {fields : List FieldShape}
    (h : List.Forall₂ Asks rules fields) :
    fields.flatMap FieldShape.names = rules.flatMap FieldRule.names := by
  induction h with
  | nil => rfl
  | cons h _ ih => rw [List.flatMap_cons, List.flatMap_cons, h.names, ih]

/-- What holds of a field by its rule holds of all fields by all rules. -/
theorem Asks.forall_iff {rules : List FieldRule} {fields : List FieldShape}
    (h : List.Forall₂ Asks rules fields) {P : FieldShape → Prop} {Q R : FieldRule → Prop}
    (hPQ : ∀ {rule f}, Asks rule f → (P f ∧ Q rule ↔ R rule)) :
    ((∀ f ∈ fields, P f) ∧ ∀ rule ∈ rules, Q rule) ↔ ∀ rule ∈ rules, R rule := by
  induction h with
  | nil => simp
  | cons h _ ih =>
    simp only [List.forall_mem_cons]
    rw [← hPQ h, ← ih]
    tauto

namespace Governs

variable {α : Type} {r : Record α} {rules : List FieldRule}

theorem distinct (h : Governs rules r) (hnames : DistinctNames rules) :
    FieldShape.Distinct r.fields := by
  rw [FieldShape.Distinct, Asks.flatMap_names h.fields]
  exact hnames

/-- A record is read from the members that its rules ask for, next to any others that are read as
well. -/
theorem members_iff (h : Governs rules r) (hnames : DistinctNames rules)
    {ms : List (Option String × Tree)} (hms : ∀ m ∈ ms, m.2.Shallow) :
    (∃ a, (do Record.checkMembers r.fields [] (Tree.memberDocuments ms)
              r.ofMembers (Tree.memberDocuments ms)) = .ok a) ↔ IsObject rules (.object ms) := by
  have hadmitted : (∀ m ∈ Tree.memberDocuments ms, Record.Admitted Document.isWhole r.fields m)
      ↔ ∀ m ∈ ms, m.1.isSome = true := by
    rw [Tree.memberDocuments_eq, List.forall_mem_map]
    exact forall₂_congr fun m _ => ⟨fun h => h.1, fun h => ⟨h, fun _ => isWhole_document m.2⟩⟩
  have hfields := Asks.forall_iff h.fields fun hasks => Asks.met_iff hasks hms
  have hcheck : Record.checkMembers r.fields [] (Tree.memberDocuments ms) = .ok () ↔
      (∀ m ∈ ms, m.1.isSome = true) ∧
        ∀ f ∈ r.fields, Record.Passes [] (Tree.memberDocuments ms) f := by
    rw [Record.checkMembers_eq, Record.checkAgainst_iff (h.distinct hnames), hadmitted]
  simp only [bind_eq_ok]
  constructor
  · rintro ⟨a, _, hpass, ha⟩
    obtain ⟨hkeys, hpasses⟩ := hcheck.1 hpass
    exact ⟨hkeys, hfields.1 ⟨hpasses, (h.members ms hms).1 ⟨a, ha⟩⟩⟩
  · rintro ⟨hkeys, hmet⟩
    obtain ⟨hpasses, hfound⟩ := hfields.2 hmet
    obtain ⟨a, ha⟩ := (h.members ms hms).2 hfound
    exact ⟨a, (), hcheck.2 ⟨hkeys, hpasses⟩, ha⟩

/-- A record is read from an object or an array, if its last field is required. -/
theorem takes (h : Governs rules r) (hnames : DistinctNames rules)
    (hlast : ∃ last ∈ rules.getLast?, last.required = true) (name : String) :
    Takes (r.decoder name) (IsRecord rules) := by
  obtain ⟨last, hlast, hrequired⟩ := hlast
  obtain ⟨init, rfl⟩ := List.getLast?_eq_some_iff.1 hlast
  intro t ht
  cases t with
  | null | bool | number | string =>
    refine iff_of_false ?_ ?_
    · rintro ⟨a, ⟨⟩⟩
    · rintro (h | h) <;> cases h
  | object ms =>
    have hrecord : IsRecord (init ++ [last]) (.object ms) ↔
        IsObject (init ++ [last]) (.object ms) :=
      or_iff_left (by rintro ⟨⟩)
    rw [hrecord, ← h.members_iff hnames ht.member]
    rfl
  | array ts =>
    have hrecord : IsRecord (init ++ [last]) (.array ts) ↔
        List.Forall₂ FieldRule.Fits (init ++ [last]) ts :=
      ⟨fun h => h.elim (fun h => nomatch h) fun | .mk h => h, fun h => .inr ⟨h⟩⟩
    rw [hrecord, FieldRule.forall₂_iff_leading hrequired,
      ← h.items (Record.arrayForm name r.fields.length) 0 ts ht.item]
    simp only [Tree.document, Record.decoder, bind_eq_ok]
    -- nothing is missing since the last field is required, so it remains that nothing is left over
    constructor
    · rintro ⟨a, ⟨b, left⟩, hread, ha⟩
      obtain ⟨hend, -⟩ := ite_throw_eq_ok.1 ha
      obtain ⟨-, hrest⟩ := h.left hread
      have hempty : left.rest = [] := by
        simp only [Bool.and_eq_true, List.isEmpty_iff] at hend
        exact hend.2
      rw [hempty, Tree.itemDocuments_eq] at hrest
      exact ⟨⟨b, left, hread⟩, List.map_eq_nil_iff.1 hrest.symm⟩
    · rintro ⟨⟨b, left, hread⟩, hdrop⟩
      obtain ⟨hwhole, hrest⟩ := h.left hread
      rw [hdrop] at hrest
      have hend : (left.whole && left.rest.isEmpty) = true := by
        simp [hwhole, hrest, Tree.itemDocuments]
      exact ⟨b, (b, left), hread, ite_throw_eq_ok.2 ⟨hend, rfl⟩⟩

end Governs

/-! ## Records within an object -/

/-- An object that holds the fields of a record beside one field more; all that is not that field
can be read as a value. -/
inductive IsFlattened (rules : List FieldRule) (own : FieldRule) : Tree → Prop where
  | mk {ms : List (Option String × Tree)} (h : IsObject (rules ++ [own]) (.object ms))
      (hreadable : ∀ m ∈ ms, own.named m = false → m.2.isReadable = true) :
      IsFlattened rules own (.object ms)

/-- The members that are not a field. -/
def FieldRule.others (own : FieldRule) (ms : List (Option String × Tree)) :
    List (Option String × Tree) :=
  ms.filter fun m => !own.named m

/-- Fields of other names are not affected. -/
theorem FieldRule.met_others {rule own : FieldRule} (h : List.Disjoint rule.names own.names)
    (ms : List (Option String × Tree)) : rule.Met (own.others ms) ↔ rule.Met ms := by
  have hfilter : (own.others ms).filter rule.named = ms.filter rule.named := by
    rw [FieldRule.others, List.filter_filter]
    refine List.filter_congr fun m _ => ?_
    cases hrule : rule.named m with
    | false => rfl
    | true =>
      obtain ⟨_ | key, t⟩ := m
      · cases hrule
      · have hkey : key ∈ rule.names := by simpa [FieldRule.named] using hrule
        simpa [FieldRule.named] using fun hown => h hkey hown
  constructor <;> rintro ⟨hmost, hexactly, hfits⟩
  · rw [hfilter] at hmost hexactly hfits
    exact ⟨hmost, hexactly, hfits⟩
  · refine ⟨?_, ?_, ?_⟩ <;> rw [hfilter] <;> assumption

/-- An object holds all the fields if it holds the one and the rest of it holds the others. -/
theorem isObject_append {rules : List FieldRule} {own : FieldRule}
    (hnames : DistinctNames (rules ++ [own])) (ms : List (Option String × Tree)) :
    IsObject (rules ++ [own]) (.object ms) ↔
      (∀ m ∈ ms, m.1.isSome = true) ∧ own.Met ms ∧ IsObject rules (.object (own.others ms)) := by
  have hdisjoint : ∀ rule ∈ rules, List.Disjoint rule.names own.names := by
    intro rule hrule key hkey hown
    rw [DistinctNames, List.flatMap_append, List.nodup_append'] at hnames
    exact hnames.2.2 (List.mem_flatMap.2 ⟨rule, hrule, hkey⟩) (by simpa using hown)
  constructor
  · rintro ⟨hkeys, hmet⟩
    rw [List.forall_mem_append] at hmet
    refine ⟨hkeys, hmet.2 own (List.mem_singleton_self _),
      fun m hm => hkeys m (List.mem_of_mem_filter hm), fun rule hrule => ?_⟩
    exact (FieldRule.met_others (hdisjoint rule hrule) ms).2 (hmet.1 rule hrule)
  · rintro ⟨hkeys, hown, ⟨-, hmet⟩⟩
    refine ⟨hkeys, List.forall_mem_append.2 ⟨fun rule hrule => ?_, by simpa using hown⟩⟩
    exact (FieldRule.met_others (hdisjoint rule hrule) ms).1 (hmet rule hrule)

namespace Governs

variable {α β γ : Type} {inner : Record α} {own : Record β} {rules : List FieldRule}
  {rule : FieldRule}

theorem exists_field (hown : Governs [rule] own) : ∃ f, Asks rule f ∧ own.fields = [f] := by
  cases h : own.fields with
  | nil => cases h ▸ hown.fields
  | cons f fields =>
    cases h ▸ hown.fields with
    | cons hasks hrest =>
      cases hrest
      exact ⟨f, hasks, rfl⟩

/-- What is not the one field is left to the record. -/
theorem others_eq (hown : Governs [rule] own) (ms : List (Option String × Tree)) :
    ((Tree.memberDocuments ms).filter fun m => m.1.all fun k => !own.fields.any (·.matches k))
      = Tree.memberDocuments (rule.others ms) := by
  obtain ⟨f, hasks, hfields⟩ := hown.exists_field
  rw [FieldRule.others, Tree.memberDocuments_eq, Tree.memberDocuments_eq, List.filter_map, hfields]
  refine congrArg _ (congrArg (ms.filter ·) (funext fun m => ?_))
  rw [← hasks.named]
  obtain ⟨_ | key, t⟩ := m
  · rfl
  · simp [FieldShape.named]

/-- The members pass, and the one field is read, if its rule is met and the others are readable. -/
theorem checkOwn_iff (hown : Governs [rule] own) (hnames : DistinctNames [rule]) {levels : Nat}
    {ms : List (Option String × Tree)} (hms : ∀ m ∈ ms, m.2.Shallow)
    (hlevels : ∀ m ∈ ms, (m.2.document.value? levels).isSome = m.2.isReadable) :
    (Record.checkOwn own.fields levels [] (Tree.memberDocuments ms) = .ok () ∧
        ∃ b, own.ofMembers (Tree.memberDocuments ms) = .ok b) ↔
      (∀ m ∈ ms, m.1.isSome = true ∧ (rule.named m = false → m.2.isReadable = true)) ∧
        rule.Met ms := by
  obtain ⟨f, hasks, hfields⟩ := hown.exists_field
  have hadmitted : (∀ m ∈ Tree.memberDocuments ms,
      Record.Admitted (fun d => (d.value? levels).isSome) own.fields m) ↔
        ∀ m ∈ ms, m.1.isSome = true ∧ (rule.named m = false → m.2.isReadable = true) := by
    rw [Tree.memberDocuments_eq, List.forall_mem_map]
    refine forall₂_congr fun m hm => ?_
    simp [Record.Admitted, hfields, hasks.named, hlevels m hm]
  rw [Record.checkOwn_eq, Record.checkAgainst_iff (hown.distinct hnames), hadmitted,
    hown.members ms hms, and_assoc, Asks.forall_iff hown.fields fun h => Asks.met_iff h hms,
    List.forall_mem_singleton]

/-- The reader of a record within an object takes the objects that hold all fields. -/
theorem flattened_takes (hinner : Governs rules inner) (hown : Governs [rule] own)
    (hnames : DistinctNames (rules ++ [rule])) (name : String) {depth : Nat} (hdepth : depth ≤ 27)
    (build : α → β → γ) :
    Takes (Record.flattened name depth inner own build) (IsFlattened rules rule) := by
  intro t ht
  cases t with
  | null | bool | number | string | array =>
    refine iff_of_false ?_ ?_
    · rintro ⟨a, ⟨⟩⟩
    · rintro ⟨⟩
  | object ms =>
    have hms := ht.member
    have hlevels : ∀ m ∈ ms, (m.2.document.value? (Document.maxLevels - depth)).isSome
        = m.2.isReadable := fun m hm => by
      have hshallow : m.2.depth ≤ 100 := hms m hm
      exact Tree.isSome_value? m.2 (by simp only [Document.maxLevels]; omega)
    have hothers : ∀ m ∈ rule.others ms, m.2.Shallow :=
      fun m hm => hms m (List.mem_of_mem_filter hm)
    have hnames' : DistinctNames rules ∧ DistinctNames [rule] := by
      rw [DistinctNames, List.flatMap_append, List.nodup_append'] at hnames
      exact ⟨hnames.1, hnames.2.1⟩
    have hown' := hown.checkOwn_iff hnames'.2 hms hlevels
    have hinner' := hinner.members_iff hnames'.1 hothers
    have hobject := isObject_append hnames ms
    show (∃ c, (do
      Record.checkOwn own.fields (Document.maxLevels - depth) [] (Tree.memberDocuments ms)
      let b ← own.ofMembers (Tree.memberDocuments ms)
      Record.checkMembers inner.fields [] ((Tree.memberDocuments ms).filter fun m =>
        m.1.all fun k => !own.fields.any (·.matches k))
      let a ← inner.ofMembers ((Tree.memberDocuments ms).filter fun m =>
        m.1.all fun k => !own.fields.any (·.matches k))
      return build a b) = .ok c) ↔ _
    rw [hown.others_eq]
    simp only [bind_eq_ok] at hinner' ⊢
    constructor
    · rintro ⟨c, _, hcheck, b, hb, _, hcheck', a, ha, -⟩
      obtain ⟨hmembers, hmet⟩ := hown'.1 ⟨hcheck, b, hb⟩
      refine ⟨hobject.2 ⟨fun m hm => (hmembers m hm).1, hmet, hinner'.1 ⟨a, (), hcheck', ha⟩⟩,
        fun m hm => (hmembers m hm).2⟩
    · rintro ⟨h, hreadable⟩
      obtain ⟨hkeys, hmet, hrest⟩ := hobject.1 h
      obtain ⟨hcheck, b, hb⟩ := hown'.2 ⟨fun m hm => ⟨hkeys m hm, hreadable m hm⟩, hmet⟩
      obtain ⟨a, _, hcheck', ha⟩ := hinner'.2 hrest
      exact ⟨build a b, (), hcheck, b, hb, (), hcheck', a, ha, rfl⟩

end Governs

end Json
end AccessRegistry
