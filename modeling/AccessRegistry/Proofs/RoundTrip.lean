import AccessRegistry.Proofs.InstantText
import AccessRegistry.Proofs.Members
import AccessRegistry.Proofs.Printing
import AccessRegistry.Proofs.RecordKind

/-!
# AccessRegistry.Proofs.RoundTrip

The text of a record gives the record back.

* `ReadsBack` — a value from which a decoder makes what the value was made from.
* `Record.Lists` — members that hold the fields of a record in order; it is put together like the
  record.
* `RecordKind.decode_encode` — a record is read from its own text, so writing what was read changes
  a text only once.
-/

namespace AccessRegistry
namespace Json

/-- The value can be printed, and the decoder makes `a` from it. -/
structure ReadsBack {α : Type} (decode : Decoder α) (v : Value) (a : α) : Prop where
  plain : v.isPlain = true
  read : decode v.document = .ok a

theorem ReadsBack.decode {α : Type} {decoder : Decoder α} {v : Value} {a : α}
    (h : ReadsBack decoder v a) : Json.decode decoder (Source.ofString v.text) = .ok a := by
  rw [Json.decode, Value.read_text v h.plain]
  simp only [h.read]
  rfl

/-! ## Plain values -/

theorem readsBack_int32 (n : Int32) : ReadsBack Decoder.int32 (.ofInt n.toInt) n := by
  have hlow := n.le_toInt
  have hhigh := n.toInt_lt
  constructor
  · simp [Value.ofInt, Value.isPlain, Number.isPlain]
    omega
  · have hbounds : -0x80000000 ≤ n.toInt ∧ n.toInt ≤ 0x7FFFFFFF := by omega
    simp only [Value.ofInt, Value.document, Decoder.int32, Decoder.integer, if_pos hbounds]
    simp [Except.map]

theorem readsBack_int64 (n : Int64) : ReadsBack Decoder.int64 (.ofInt n.toInt) n := by
  have hlow := n.le_toInt
  have hhigh := n.toInt_lt
  constructor
  · simp [Value.ofInt, Value.isPlain, Number.isPlain]
    omega
  · have hbounds : -0x8000000000000000 ≤ n.toInt ∧ n.toInt ≤ 0x7FFFFFFFFFFFFFFF := by omega
    simp only [Value.ofInt, Value.document, Decoder.int64, Decoder.integer, if_pos hbounds]
    simp [Except.map]

theorem readsBack_string (s : String) : ReadsBack Decoder.string (.string s) s := ⟨rfl, rfl⟩

theorem readsBack_bool (b : Bool) : ReadsBack Decoder.bool (.bool b) b := ⟨rfl, rfl⟩

theorem readsBack_instant {t : Instant} (h : t.InYears) : ReadsBack Instant.decoder t.toJson t := by
  refine ⟨rfl, ?_⟩
  simp only [Instant.toJson, Value.document, Instant.decoder, Instant.ofText?_text h]

theorem ofName_text (t : ApplicationType) : ApplicationType.ofName t.text = .ok t := by
  cases t <;> rfl

theorem readsBack_type (t : ApplicationType) : ReadsBack ApplicationType.decoder t.toJson t :=
  ⟨rfl, ofName_text t⟩

theorem readsBack_memberType (t : ApplicationType) :
    ReadsBack ApplicationType.memberDecoder t.toJson t :=
  ⟨rfl, ofName_text t⟩

theorem readsBack_list {α : Type} {decode : Decoder α} {toJson : α → Value} {as : List α}
    (h : ∀ a ∈ as, ReadsBack decode (toJson a) a) :
    ReadsBack (Decoder.list decode) (.array (as.map toJson)) as := by
  have hplain : Value.arePlain (as.map toJson) = true := by
    induction as with
    | nil => rfl
    | cons a as ih =>
      obtain ⟨ha, has⟩ := List.forall_mem_cons.1 h
      simp only [List.map_cons, Value.arePlain, ha.plain, ih has, Bool.and_self]
  have helements : ∀ i,
      Decoder.elements decode i (Value.itemDocuments (as.map toJson)) = .ok as := by
    clear hplain
    induction as with
    | nil => exact fun _ => rfl
    | cons a as ih =>
      obtain ⟨ha, has⟩ := List.forall_mem_cons.1 h
      intro i
      simp only [List.map_cons, Value.itemDocuments, Decoder.elements, bind_eq_ok, mapError_eq_ok]
      exact ⟨a, ha.read, as, ih has (i + 1), rfl⟩
  refine ⟨hplain, ?_⟩
  simp only [Value.document, Decoder.list, helements]
  rfl

/-! ## Records -/

namespace Value

theorem memberDocuments_eq (ms : List (String × Value)) :
    memberDocuments ms = ms.map fun m => (some m.1, m.2.document) := by
  induction ms with
  | nil => rfl
  | cons m rest ih => rw [memberDocuments, ih, List.map_cons]

theorem arePlainMembers_append {ms ms' : List (String × Value)} (h : arePlainMembers ms = true)
    (h' : arePlainMembers ms' = true) : arePlainMembers (ms ++ ms') = true := by
  induction ms with
  | nil => exact h'
  | cons m rest ih =>
    simp only [arePlainMembers, Bool.and_eq_true] at h
    simp only [List.cons_append, arePlainMembers, h.1, ih h.2, Bool.and_self]

def isScalar : Value → Bool
  | .array _ | .object _ => false
  | _ => true

theorem isSome_value? {v : Value} (h : v.isScalar = true) (levels : Nat) :
    (v.document.value? levels).isSome = true := by
  cases v with
  | array | object => cases h
  | _ => simp [document, Document.value?]

end Value

/-- A member that goes by the name of a field and fits it. -/
structure FieldShape.HeldBy (f : FieldShape) (m : String × Value) : Prop where
  name : m.1 = f.name
  check : f.check m.2.document = .ok ()

namespace Record

open FieldShape (Distinct)

def found (m : String × Value) : Option String × Document := (some m.1, m.2.document)

/-- The members are the fields of a record in order, and the record is `a`, whatever members lie
around them. -/
structure Lists {α : Type} (r : Record α) (ms : List (String × Value)) (a : α) : Prop where
  plain : Value.arePlainMembers ms = true
  fields : List.Forall₂ FieldShape.HeldBy r.fields ms
  read : ∀ all : Members, (∀ p ∈ r.fields.zip ms, all.find? p.1.named = some (found p.2)) →
    r.ofMembers all = .ok a

namespace Lists

theorem nil {α : Type} (a : α) : Lists (Pure.pure a) [] a := ⟨rfl, .nil, fun _ _ => rfl⟩

theorem seq {α β : Type} {f : Record (α → β)} {x : Record α} {ms ms' : List (String × Value)}
    {g : α → β} {a : α} (hf : Lists f ms g) (hx : Lists x ms' a) :
    Lists (f <*> x) (ms ++ ms') (g a) where
  plain := Value.arePlainMembers_append hf.plain hx.plain
  fields := List.rel_append hf.fields hx.fields
  read all hall := by
    have hzip : (f.fields ++ x.fields).zip (ms ++ ms') = f.fields.zip ms ++ x.fields.zip ms' :=
      List.zip_append hf.fields.length_eq
    have hall : ∀ p ∈ f.fields.zip ms ++ x.fields.zip ms', all.find? p.1.named = some (found p.2) :=
      fun p hp => hall p (hzip ▸ hp)
    obtain ⟨hleft, hright⟩ := List.forall_mem_append.1 hall
    show (f.ofMembers all >>= fun g => x.ofMembers all >>= fun a => .ok (g a)) = .ok (g a)
    rw [hf.read all hleft, hx.read all hright]
    rfl

theorem map {α β : Type} {x : Record α} {ms : List (String × Value)} {a : α} (hx : Lists x ms a)
    (g : α → β) : Lists (g <$> x) ms (g a) := (nil g).seq hx

theorem field {α : Type} (name : String) (default : Option α) (aliases : List String)
    {decode : Decoder α} {v : Value} {a : α} (h : ReadsBack decode v a) :
    Lists (Record.field name decode default aliases) [(name, v)] a where
  plain := by simp [Value.arePlainMembers, h.plain]
  fields := by
    refine .cons ⟨rfl, ?_⟩ .nil
    show (decode v.document).map (fun _ => ()) = .ok ()
    rw [h.read]
    rfl
  read all hall := by
    have hfind := hall _ (List.mem_singleton_self _)
    rw [Record.field_ofMembers, hfind]
    exact h.read

theorem required {α : Type} (name : String) {decode : Decoder α} {v : Value} {a : α}
    (h : ReadsBack decode v a) : Lists (Record.required name decode) [(name, v)] a :=
  field name none [] h

theorem defaulting {α : Type} (name : String) (default : α) {decode : Decoder α} {v : Value} {a : α}
    (h : ReadsBack decode v a) : Lists (Record.defaulting name decode default) [(name, v)] a :=
  field name (some default) [] h

/-! ### Reading the members -/

variable {α β γ : Type} {r : Record α} {own : Record β} {ms ms' : List (String × Value)} {a : α}
  {b : β}

theorem exists_member {fields : List FieldShape} (hms : List.Forall₂ FieldShape.HeldBy fields ms)
    {f : FieldShape} (hf : f ∈ fields) : ∃ m, (f, m) ∈ fields.zip ms ∧ f.HeldBy m := by
  rw [← List.map_fst_zip hms.length_eq.le] at hf
  obtain ⟨⟨f, m⟩, hp, rfl⟩ := List.mem_map.1 hf
  exact ⟨m, hp, (List.forall₂_iff_zip.1 hms).2 hp⟩

theorem exists_field {fields : List FieldShape} (hms : List.Forall₂ FieldShape.HeldBy fields ms)
    {m : String × Value} (hm : m ∈ ms) : ∃ f ∈ fields, f.matches m.1 = true := by
  rw [← List.map_snd_zip hms.length_eq.ge] at hm
  obtain ⟨⟨f, m⟩, hp, rfl⟩ := List.mem_map.1 hm
  have hname := ((List.forall₂_iff_zip.1 hms).2 hp).name
  exact ⟨f, (List.of_mem_zip hp).1, hname ▸ FieldShape.matches_name f⟩

/-- Each field is one of the members, and it is there once. -/
theorem filter_named {fields : List FieldShape} (h : Distinct fields)
    (hms : List.Forall₂ FieldShape.HeldBy fields ms) :
    ∀ p ∈ fields.zip ms, (ms.map found).filter p.1.named = [found p.2] := by
  induction hms with
  | nil => simp
  | @cons f m fields ms hm hms ih =>
    -- names are distinct: no later member is the first field, and no later field the first member
    obtain ⟨htail, hdisjoint⟩ := h.of_cons
    have hself : f.named (found m) = true := by
      rw [found, FieldShape.named_some, hm.name, FieldShape.matches_name]
    have hrest : (ms.map found).filter f.named = [] := by
      rw [List.filter_eq_nil_iff, List.forall_mem_map]
      intro m' hm' hnamed
      obtain ⟨g, hg, hmatches⟩ := exists_field hms hm'
      rw [hdisjoint g hg m'.1 hnamed] at hmatches
      cases hmatches
    rw [List.zip_cons_cons, List.forall_mem_cons, List.map_cons]
    refine ⟨by rw [List.filter_cons_of_pos hself, hrest], fun p hp => ?_⟩
    have hother : p.1.named (found m) = false := by
      rw [found, FieldShape.named_some, hm.name]
      exact hdisjoint p.1 (List.of_mem_zip hp).1 f.name (FieldShape.matches_name f)
    rw [List.filter_cons_of_neg (by simp [hother]), ih htail p hp]

/-- Members pass if the fields are among them once and all others pass a test. -/
theorem check {other : Document → Bool} {all : Members} (h : Lists r ms a)
    (hdistinct : Distinct r.fields)
    (hfilter : ∀ p ∈ r.fields.zip ms, all.filter p.1.named = [found p.2])
    (hother : ∀ m ∈ all, Admitted other r.fields m) :
    checkAgainst other r.fields [] all = .ok () := by
  rw [checkAgainst_iff hdistinct]
  refine ⟨hother, fun f hf => ?_⟩
  obtain ⟨m, hp, hheld⟩ := exists_member h.fields hf
  have hfilter : all.filter f.named = [found m] := hfilter _ hp
  refine ⟨?_, by simp, ?_⟩ <;> rw [hfilter]
  · simp
  · exact List.forall_mem_singleton.2 hheld.check

theorem read_of_filter {all : Members} (h : Lists r ms a)
    (hfilter : ∀ p ∈ r.fields.zip ms, all.filter p.1.named = [found p.2]) :
    r.ofMembers all = .ok a := by
  refine h.read all fun p hp => ?_
  rw [← List.head?_filter, hfilter p hp]
  rfl

/-- The members of the fields are admitted whatever the others have to be. -/
theorem admitted (h : Lists r ms a) (other : Document → Bool) :
    ∀ m ∈ ms.map found, Admitted other r.fields m := by
  rw [List.forall_mem_map]
  intro m hm
  obtain ⟨f, hf, hmatches⟩ := exists_field h.fields hm
  refine ⟨rfl, fun hnone => ?_⟩
  have hnamed : f.named (found m) = true := hmatches
  rw [hnone f hf] at hnamed
  cases hnamed

/-- The members by themselves are read as the record. -/
theorem read_self (h : Lists r ms a) (hdistinct : Distinct r.fields) :
    (do checkMembers r.fields [] (ms.map found)
        r.ofMembers (ms.map found)) = .ok a := by
  have hfilter := filter_named hdistinct h.fields
  rw [checkMembers_eq, h.check hdistinct hfilter (h.admitted _)]
  exact h.read_of_filter hfilter

theorem readsBack (h : Lists r ms a) (hdistinct : Distinct r.fields) (name : String) :
    ReadsBack (r.decoder name) (.object ms) a := by
  refine ⟨h.plain, ?_⟩
  rw [Value.document, Value.memberDocuments_eq]
  exact h.read_self hdistinct

/-- Members of other fields are left over when the own ones are taken out. -/
theorem filter_others (h : Lists r ms a) (hown : Lists own ms' b)
    (hdistinct : Distinct (r.fields ++ own.fields)) :
    ((ms ++ ms').map found).filter (fun m => m.1.all fun k => !own.fields.any (·.matches k))
      = ms.map found := by
  obtain ⟨-, -, hdisjoint⟩ := hdistinct.of_append
  have hkept : ∀ m ∈ ms.map found,
      (m.1.all fun k => !own.fields.any (·.matches k)) = true := by
    rw [List.forall_mem_map]
    intro m hm
    obtain ⟨f, hf, hmatches⟩ := exists_field h.fields hm
    have hnone : ∀ g ∈ own.fields, g.matches m.1 = false :=
      fun g hg => hdisjoint f hf g hg m.1 hmatches
    simpa [found] using hnone
  have htaken : ∀ m ∈ ms'.map found,
      ¬ (m.1.all fun k => !own.fields.any (·.matches k)) = true := by
    rw [List.forall_mem_map]
    intro m hm
    simpa [found] using exists_field hown.fields hm
  rw [List.map_append, List.filter_append, List.filter_eq_self.2 hkept,
    List.filter_eq_nil_iff.2 htaken, List.append_nil]

/-- The members of both records in one object are read as the two. -/
theorem flattened_readsBack (h : Lists r ms a) (hown : Lists own ms' b)
    (hdistinct : Distinct (r.fields ++ own.fields)) (name : String) {depth : Nat}
    (hscalar : (ms.all fun m => m.2.isScalar) = true) (build : α → β → γ) :
    ReadsBack (Record.flattened name depth r own build) (.object (ms ++ ms')) (build a b) := by
  obtain ⟨hinner, hdistinct', -⟩ := hdistinct.of_append
  have hfilter : ∀ p ∈ own.fields.zip ms',
      ((ms ++ ms').map found).filter p.1.named = [found p.2] := fun p hp => by
    refine filter_named hdistinct (List.rel_append h.fields hown.fields) p ?_
    rw [List.zip_append h.fields.length_eq]
    exact List.mem_append_right _ hp
  -- to the own fields the members of the record are others, which are read as values
  have hadmitted : ∀ m ∈ (ms ++ ms').map found,
      Admitted (fun d => (d.value? (Document.maxLevels - depth)).isSome) own.fields m := by
    rw [List.map_append, List.forall_mem_append]
    refine ⟨?_, hown.admitted _⟩
    rw [List.forall_mem_map]
    exact fun m hm => ⟨rfl, fun _ => Value.isSome_value? (List.all_eq_true.1 hscalar m hm) _⟩
  have hcheck := hown.check hdistinct' hfilter hadmitted
  rw [← checkOwn_eq] at hcheck
  refine ⟨Value.arePlainMembers_append h.plain hown.plain, ?_⟩
  rw [Value.document, Value.memberDocuments_eq]
  show (do
    checkOwn own.fields (Document.maxLevels - depth) [] ((ms ++ ms').map found)
    let b ← own.ofMembers ((ms ++ ms').map found)
    checkMembers r.fields [] (((ms ++ ms').map found).filter fun m =>
      m.1.all fun k => !own.fields.any (·.matches k))
    let a ← r.ofMembers (((ms ++ ms').map found).filter fun m =>
      m.1.all fun k => !own.fields.any (·.matches k))
    return build a b) = .ok (build a b)
  rw [filter_others h hown hdistinct, hcheck, hown.read_of_filter hfilter]
  have hread := h.read_self hinner
  simp only [bind_eq_ok] at hread ⊢
  obtain ⟨_, hpass, ha⟩ := hread
  exact ⟨(), trivial, b, rfl, (), hpass, a, ha, rfl⟩

end Lists

end Record

end Json

/-! ## Kinds of records -/

open Json (Decoder ReadsBack readsBack_int32 readsBack_int64 readsBack_string readsBack_bool
  readsBack_instant readsBack_type readsBack_memberType readsBack_list)
open Json.Record (Lists)
open Json.Record.Lists (field required defaulting)

theorem Domain.lists {d : Domain} (h : ∀ t ∈ d.times, t.InYears) : Lists record d.members d := by
  have hcreated := h d.createdAt (by simp [times])
  have hupdated := h d.updatedAt (by simp [times])
  have h := (required "id" (readsBack_int32 d.id)).map mk
    |>.seq (required "name" (readsBack_string d.name))
    |>.seq (defaulting "description" "" (readsBack_string d.description))
    |>.seq (required "systemId" (readsBack_int32 d.systemId))
    |>.seq (required "createdAt" (readsBack_instant hcreated))
    |>.seq (required "updatedAt" (readsBack_instant hupdated))
  exact h

theorem AppGroup.lists {g : AppGroup} (h : ∀ t ∈ g.times, t.InYears) :
    Lists record g.members g := by
  have hcreated := h g.createdAt (by simp [times])
  have hupdated := h g.updatedAt (by simp [times])
  have h := (required "id" (readsBack_int32 g.id)).map mk
    |>.seq (required "name" (readsBack_string g.name))
    |>.seq (defaulting "description" "" (readsBack_string g.description))
    |>.seq (required "domainId" (readsBack_int32 g.domainId))
    |>.seq (required "createdAt" (readsBack_instant hcreated))
    |>.seq (required "updatedAt" (readsBack_instant hupdated))
  exact h

theorem Application.lists {a : Application} (h : ∀ t ∈ a.times, t.InYears)
    {type : Decoder ApplicationType} (htype : ReadsBack type a.type.toJson a.type) :
    Lists (record type) a.members a := by
  have hcreated := h a.createdAt (by simp [times])
  have hupdated := h a.updatedAt (by simp [times])
  have h := (required "id" (readsBack_int32 a.id)).map mk
    |>.seq (required "name" (readsBack_string a.name))
    |>.seq (defaulting "description" "" (readsBack_string a.description))
    |>.seq (field "applicationGroupId" none ["serviceId"] (readsBack_int32 a.applicationGroupId))
    |>.seq (required "type" htype)
    |>.seq (required "createdAt" (readsBack_instant hcreated))
    |>.seq (required "updatedAt" (readsBack_instant hupdated))
  exact h

theorem Application.readsBack {a : Application} (h : ∀ t ∈ a.times, t.InYears) :
    ReadsBack decoder a.toJson a :=
  (lists h (readsBack_type a.type)).readsBack (by decide) "Application"

theorem Token.readsBack {t : Token} (h : t.createdAt.InYears) : ReadsBack decoder t.toJson t := by
  have hlists := (required "token" (readsBack_string t.token)).map mk
    |>.seq (required "appId" (readsBack_int32 t.appId))
    |>.seq (required "expireTime" (readsBack_int64 t.expireTime))
    |>.seq (required "createdAt" (readsBack_instant h))
  exact hlists.readsBack (by decide) "Token"

theorem AccessList.readsBack (a : AccessList) : ReadsBack decoder a.toJson a := by
  have hlists := (required "appId" (readsBack_int32 a.appId)).map mk
    |>.seq (required "method" (readsBack_string a.method))
    |>.seq (required "value" (readsBack_bool a.value))
  exact hlists.readsBack (by decide) "AccessList"

theorem AuthData.readsBack {d : AuthData} (h : d.createdAt.InYears) :
    ReadsBack decoder d.toJson d := by
  have hlists := (required "appId" (readsBack_int32 d.appId)).map mk
    |>.seq (required "appName" (readsBack_string d.appName))
    |>.seq (required "applicationGroupId" (readsBack_int32 d.applicationGroupId))
    |>.seq (required "domainId" (readsBack_int32 d.domainId))
    |>.seq (required "systemId" (readsBack_int32 d.systemId))
    |>.seq (required "expireTime" (readsBack_int64 d.expireTime))
    |>.seq (required "createdAt" (readsBack_instant h))
  exact hlists.readsBack (by decide) "AuthData"

theorem ApplicationWithTokens.readsBack {a : ApplicationWithTokens}
    (h : ∀ t ∈ a.times, t.InYears) : ReadsBack decoder a.toJson a := by
  obtain ⟨happ, htokens⟩ := List.forall_mem_append.1 h
  have htokens := readsBack_list fun t ht => Token.readsBack (htokens _ (List.mem_map_of_mem ht))
  exact (Application.lists happ (readsBack_memberType a.app.type)).flattened_readsBack
    (required "tokens" htokens) (by decide) "ApplicationWithTokens" rfl mk

theorem ServiceNode.readsBack {s : ServiceNode} (h : ∀ t ∈ s.times, t.InYears) :
    ReadsBack decoder s.toJson s := by
  obtain ⟨hgroup, happs⟩ := List.forall_mem_append.1 h
  have happs := readsBack_list fun a ha =>
    Application.readsBack fun t ht => happs t (List.mem_flatMap.2 ⟨a, ha, ht⟩)
  exact (AppGroup.lists hgroup).flattened_readsBack (required "apps" happs) (by decide)
    "ServiceNode" rfl mk

theorem DomainNode.readsBack {d : DomainNode} (h : ∀ t ∈ d.times, t.InYears) :
    ReadsBack decoder d.toJson d := by
  obtain ⟨hdomain, hservices⟩ := List.forall_mem_append.1 h
  have hservices := readsBack_list fun s hs =>
    ServiceNode.readsBack fun t ht => hservices t (List.mem_flatMap.2 ⟨s, hs, ht⟩)
  exact (Domain.lists hdomain).flattened_readsBack (required "services" hservices) (by decide)
    "DomainNode" rfl mk

namespace RecordKind

theorem readsBack (k : RecordKind) {v : k.Carrier} (h : ∀ t ∈ k.times v, t.InYears) :
    ReadsBack k.decoder (k.toJson v) v := by
  cases k with
  | domain => exact (Domain.lists h).readsBack (by decide) "Domain"
  | appGroup => exact (AppGroup.lists h).readsBack (by decide) "AppGroup"
  | application => exact Application.readsBack h
  | applicationType => exact readsBack_type v
  | token => exact Token.readsBack (h _ (List.mem_singleton_self _))
  | accessList => exact AccessList.readsBack v
  | authData => exact AuthData.readsBack (h _ (List.mem_singleton_self _))
  | applicationWithTokens => exact ApplicationWithTokens.readsBack h
  | serviceNode => exact ServiceNode.readsBack h
  | domainNode => exact DomainNode.readsBack h

/-- The text of the record that a text holds. -/
def rewrite (k : RecordKind) (s : String) : Except Json.Problem String := (k.decode s).map k.encode

/-- A record whose times are in the years 0 to 9999 is read from its own text, and a text of such a
record is rewritten to one that stays as it is. -/
theorem decode_encode (k : RecordKind) :
    (∀ v : k.Carrier, (∀ t ∈ k.times v, t.InYears) → k.decode (k.encode v) = .ok v) ∧
      ∀ s v, k.decode s = .ok v → (∀ t ∈ k.times v, t.InYears) →
        (k.rewrite s >>= k.rewrite) = k.rewrite s := by
  have hback : ∀ v : k.Carrier, (∀ t ∈ k.times v, t.InYears) → k.decode (k.encode v) = .ok v :=
    fun v h => (k.readsBack h).decode
  refine ⟨hback, fun s v hread htimes => ?_⟩
  have hrewrite : k.rewrite s = .ok (k.encode v) := by rw [rewrite, hread]; rfl
  rw [hrewrite]
  show k.rewrite (k.encode v) = _
  rw [rewrite, hback v htimes]
  rfl

/-- Texts that need escapes, numbers at their bounds, and times of every width. -/
def sampleNode : DomainNode :=
  let domain : Domain := ⟨-0x80000000, "\u0000\u001f\u007f\"\\/", "", 1, ⟨-62167219200, 0⟩,
    ⟨253402300799, 999999999⟩⟩
  let group : AppGroup := ⟨0x7FFFFFFF, "𝄞é\u0008\t", "\n", -1, ⟨0, 1000000⟩, ⟨-1, 1000⟩⟩
  let app : Application := ⟨0, "", "\u2028", 7, .mobile, ⟨951782400, 500⟩, ⟨1704164645, 20⟩⟩
  ⟨domain, [⟨group, [app, app]⟩, ⟨group, []⟩]⟩

def sampleToken : Token := ⟨"é", 1, -0x8000000000000000, ⟨1704161045, 100000000⟩⟩

/-- That token in another form than its own text. -/
def sampleTokenText : String :=
  "[\"\\u00e9\", 1, -9223372036854775808, \"2024-01-02t3:04:05.10+01:00\"]"

theorem decode_encode_sample :
    (∀ t ∈ domainNode.times sampleNode, t.InYears) ∧
      domainNode.decode (domainNode.encode sampleNode) = .ok sampleNode ∧
      token.decode sampleTokenText = .ok sampleToken ∧
      (∀ t ∈ token.times sampleToken, t.InYears) ∧
      (token.rewrite sampleTokenText >>= token.rewrite) = token.rewrite sampleTokenText := by
  have hnode : ∀ t ∈ domainNode.times sampleNode, t.InYears := by decide +kernel
  have htoken : ∀ t ∈ token.times sampleToken, t.InYears := by decide +kernel
  have hread : token.decode sampleTokenText = .ok sampleToken :=
    Json.eq_ok_of_toOption (by decide +kernel)
  exact ⟨hnode, (decode_encode domainNode).1 sampleNode hnode, hread, htoken,
    (decode_encode token).2 sampleTokenText sampleToken hread htoken⟩

end RecordKind

end AccessRegistry
