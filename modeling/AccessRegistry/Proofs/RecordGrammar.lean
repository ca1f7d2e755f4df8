import AccessRegistry.Proofs.FieldRules
import AccessRegistry.Proofs.Printing
import AccessRegistry.Proofs.RecordKind
import AccessRegistry.Proofs.Stamp

/-!
# AccessRegistry.Proofs.RecordGrammar

The texts that records are read from, for each kind of record.

* `IsInt`, `IsText`, `IsBool`, `IsTime`, `IsTypeName`, `IsListOf` — plain values.
* `RecordKind.Accepts` — the trees of each kind: the fields with their names and values.
* `RecordKind.accepted_iff` — a text is read as a record of a kind if its tree is one of these.
-/

namespace AccessRegistry

open Json (Tree Document Decoder Source Word Takes FieldRule Governs IsRecord IsFlattened
  DistinctNames)

namespace Json

/-! ## Plain values -/

/-- The integer that a sign and digits write. -/
def Number.Literal.signed (l : Number.Literal) : Int :=
  if l.negative then -(Number.ofDigits l.whole : Int) else Number.ofDigits l.whole

/-- An integer within bounds, without fraction and exponent. There is no `-0`. -/
inductive IsInt (low high : Int) : Tree → Prop where
  | mk {l : Number.Literal} (hfraction : l.fraction = none) (hexponent : l.exponent = none)
      (hzero : l.negative = true → Number.ofDigits l.whole ≠ 0) (hlow : low ≤ l.signed)
      (hhigh : l.signed ≤ high) : IsInt low high (.number l)

/-- A string whose surrogates are in pairs. -/
inductive IsText : Tree → Prop where
  | mk (s : String) : IsText (.string (some s))

inductive IsBool : Tree → Prop where
  | mk (b : Bool) : IsBool (.bool b)

/-- A string that is a date-time of the calendar. -/
inductive IsTime : Tree → Prop where
  | mk {s : String} {st : Instant.Stamp} (h : st.Written s.toList) (hdate : st.date.isValid = true)
      (hrange : st.instant.inRange = true) : IsTime (.string (some s))

inductive IsListOf (Fits : Tree → Prop) : Tree → Prop where
  | mk {ts : List Tree} (h : ∀ t ∈ ts, Fits t) : IsListOf Fits (.array ts)

theorem Number.Literal.value_eq_int {l : Number.Literal} {n : Int} :
    l.value = some (.int n) ↔
      l.fraction = none ∧ l.exponent = none ∧
        (l.negative = true → Number.ofDigits l.whole ≠ 0) ∧ l.signed = n ∧
        -0x8000000000000000 ≤ n ∧ n < 0x10000000000000000 := by
  obtain ⟨negative, whole, fraction, exponent⟩ := l
  have hfloat (x : Option Binary64) : x.map Number.float ≠ some (.int n) := by cases x <;> simp
  cases fraction with
  | some ds => simp [Literal.value, hfloat]
  | none =>
    cases exponent with
    | some e => simp [Literal.value, hfloat]
    | none =>
      have hsize : UInt64.size = 0x10000000000000000 := rfl
      cases negative with
      | true =>
        simp only [Literal.value, Literal.signed, if_true, true_and, forall_const]
        split
        · simp only [Option.some.injEq, Number.int.injEq]
          omega
        · simp only [hfloat, false_iff]
          omega
      | false =>
        simp only [Literal.value, Literal.signed, Bool.false_eq_true, if_false, true_and,
          false_implies]
        split
        · simp only [Option.some.injEq, Number.int.injEq]
          omega
        · simp only [hfloat, false_iff]
          omega

/-! ## Reading plain values -/

theorem takes_integer {low high : Int} {expected : String} (hlow : -0x8000000000000000 ≤ low)
    (hhigh : high < 0x10000000000000000) :
    Takes (Decoder.integer low high expected) (IsInt low high) := by
  intro t _
  constructor
  · rintro ⟨n, h⟩
    cases t with
    | number l =>
      cases hvalue : l.value with
      | none => simp [Tree.document, Decoder.integer, hvalue] at h
      | some m =>
        cases m with
        | float x => simp [Tree.document, Decoder.integer, hvalue] at h
        | int m =>
          simp only [Tree.document, Decoder.integer, hvalue] at h
          split at h
          · rename_i hbounds
            obtain ⟨hfraction, hexponent, hzero, hsigned, -, -⟩ :=
              Number.Literal.value_eq_int.1 hvalue
            exact .mk hfraction hexponent hzero (by omega) (by omega)
          · cases h
    | _ => cases h
  · rintro @⟨l, hfraction, hexponent, hzero, hle, hle'⟩
    have hvalue : l.value = some (.int l.signed) :=
      Number.Literal.value_eq_int.2 ⟨hfraction, hexponent, hzero, rfl, by omega, by omega⟩
    exact ⟨l.signed, by simp [Tree.document, Decoder.integer, hvalue, hle, hle']⟩

theorem Takes.map {α β : Type} {decode : Decoder α} {Fits : Tree → Prop} (h : Takes decode Fits)
    (f : α → β) : Takes (fun d => (decode d).map f) Fits := by
  intro t ht
  rw [← h t ht]
  show (∃ b, (decode t.document).map f = .ok b) ↔ _
  cases decode t.document <;> simp [Except.map]

theorem takes_int32 : Takes Decoder.int32 (IsInt (-0x80000000) 0x7FFFFFFF) :=
  (takes_integer (by omega) (by omega)).map _

theorem takes_int64 : Takes Decoder.int64 (IsInt (-0x8000000000000000) 0x7FFFFFFFFFFFFFFF) :=
  (takes_integer (by omega) (by omega)).map _

theorem takes_string : Takes Decoder.string IsText := by
  intro t _
  constructor
  · rintro ⟨s, h⟩
    cases t with
    | string s =>
      cases s with
      | none => cases h
      | some s => exact .mk s
    | _ => cases h
  · rintro ⟨s⟩
    exact ⟨s, rfl⟩

theorem takes_bool : Takes Decoder.bool IsBool := by
  intro t _
  constructor
  · rintro ⟨b, h⟩
    cases t with
    | bool b => exact .mk b
    | _ => cases h
  · rintro ⟨b⟩
    exact ⟨b, rfl⟩

theorem takes_time : Takes Instant.decoder IsTime := by
  intro t _
  constructor
  · rintro ⟨i, h⟩
    cases t with
    | string s =>
      cases s with
      | none => cases h
      | some s =>
        simp only [Tree.document, Instant.decoder] at h
        split at h
        · rename_i i' hread
          obtain ⟨st, hwritten, hdate, hrange, -⟩ := Instant.ofText?_eq_some_iff.1 hread
          exact .mk hwritten hdate hrange
        · cases h
    | _ => cases h
  · rintro @⟨s, st, hwritten, hdate, hrange⟩
    have hread := Instant.ofText?_of_written hwritten hdate hrange
    exact ⟨st.instant, by simp [Tree.document, Instant.decoder, hread]⟩

theorem takes_list {α : Type} {decode : Decoder α} {Fits : Tree → Prop} (h : Takes decode Fits) :
    Takes (Decoder.list decode) (IsListOf Fits) := by
  have helements : ∀ (i : Nat) (ts : List Tree), (∀ t ∈ ts, t.Shallow) →
      ((∃ vs, Decoder.elements decode i (Tree.itemDocuments ts) = .ok vs) ↔ ∀ t ∈ ts, Fits t) := by
    intro i ts hts
    induction ts generalizing i with
    | nil => simp [Tree.itemDocuments, Decoder.elements]
    | cons t ts ih =>
      obtain ⟨ht, hts⟩ := List.forall_mem_cons.1 hts
      rw [List.forall_mem_cons, ← h t ht, ← ih (i + 1) hts]
      simp only [Tree.itemDocuments, Decoder.elements, bind_eq_ok, mapError_eq_ok]
      exact ⟨fun ⟨_, v, hv, vs, hvs, _⟩ => ⟨⟨v, hv⟩, vs, hvs⟩,
        fun ⟨⟨v, hv⟩, vs, hvs⟩ => ⟨v :: vs, v, hv, vs, hvs, rfl⟩⟩
  intro t ht
  cases t with
  | array ts =>
    have hlist : IsListOf Fits (.array ts) ↔ ∀ t ∈ ts, Fits t := ⟨fun | .mk h => h, .mk⟩
    rw [hlist, ← helements 0 ts ht.item]
    simp only [Tree.document, Decoder.list, bind_eq_ok, if_true]
    exact ⟨fun ⟨_, vs, hvs, _⟩ => ⟨vs, hvs⟩, fun ⟨vs, hvs⟩ => ⟨vs, vs, hvs, rfl⟩⟩
  | _ =>
    refine iff_of_false ?_ (fun h => nomatch h)
    rintro ⟨_, ⟨⟩⟩

/-! ## Types of applications -/

def typeNames : List String := ["SYSTEM", "MOBILE"]

/-- The name of a type, by itself or as that of the only member of an object, which is `null`. -/
inductive IsTypeName : Tree → Prop where
  | name {s : String} (h : s ∈ typeNames) : IsTypeName (.string (some s))
  | member {s : String} (h : s ∈ typeNames) : IsTypeName (.object [(some s, .null)])

/-- The same within a larger object, where that member may also be an object with nothing in it. -/
inductive IsMemberTypeName : Tree → Prop where
  | plain {t : Tree} (h : IsTypeName t) : IsMemberTypeName t
  | empty {s : String} (h : s ∈ typeNames) : IsMemberTypeName (.object [(some s, .object [])])

theorem ofName_iff {s : String} : (∃ t, ApplicationType.ofName s = .ok t) ↔ s ∈ typeNames := by
  have hsystem : ApplicationType.system.text = "SYSTEM" := rfl
  have hmobile : ApplicationType.mobile.text = "MOBILE" := rfl
  simp only [ApplicationType.ofName, ApplicationType.all, typeNames, List.mem_cons,
    List.not_mem_nil, or_false, List.find?_cons, List.find?_nil, hsystem, hmobile]
  by_cases h : s = "SYSTEM"
  · simp [h]
  · by_cases h' : s = "MOBILE"
    · simp [h']
    · have hs : ("SYSTEM" == s) = false := by simpa using Ne.symm h
      have hm : ("MOBILE" == s) = false := by simpa using Ne.symm h'
      simp [h, h', hs, hm]

theorem takes_typeName : Takes ApplicationType.decoder IsTypeName := by
  intro t _
  match t with
  | .null | .bool _ | .number _ | .array _ | .string none | .object [] | .object ((none, _) :: _) =>
    refine iff_of_false ?_ (fun h => nomatch h)
    rintro ⟨_, ⟨⟩⟩
  | .string (some s) =>
    have hname : IsTypeName (.string (some s)) ↔ s ∈ typeNames := ⟨fun | .name h => h, .name⟩
    rw [hname, ← ofName_iff]
    rfl
  | .object ((some s, t) :: rest) =>
    constructor
    · rintro ⟨ty, h⟩
      obtain ⟨ty', hty, h⟩ := bind_eq_ok.1 h
      have hs := ofName_iff.1 ⟨ty', hty⟩
      cases t with
      | null =>
        cases rest with
        | nil => exact .member hs
        | cons m rest => cases h
      | _ => cases h
    · intro h
      cases h with
      | member h =>
        obtain ⟨ty, hty⟩ := ofName_iff.2 h
        exact ⟨ty, bind_eq_ok.2 ⟨ty, hty, rfl⟩⟩

theorem takes_memberTypeName : Takes ApplicationType.memberDecoder IsMemberTypeName := by
  intro t _
  match t with
  | .null | .bool _ | .number _ | .array _ | .string none | .object [] | .object ((none, _) :: _)
  | .object ((some _, _) :: _ :: _) =>
    refine iff_of_false ?_ (by rintro ⟨⟨⟩⟩)
    rintro ⟨_, ⟨⟩⟩
  | .string (some s) =>
    have hname : IsMemberTypeName (.string (some s)) ↔ s ∈ typeNames :=
      ⟨fun | .plain (.name h) => h, fun h => .plain (.name h)⟩
    rw [hname, ← ofName_iff]
    rfl
  | .object [(some s, t)] =>
    constructor
    · rintro ⟨ty, h⟩
      obtain ⟨ty', hty, h⟩ := bind_eq_ok.1 h
      have hs := ofName_iff.1 ⟨ty', hty⟩
      match t with
      | .null => exact .plain (.member hs)
      | .object [] => exact .empty hs
      | .bool _ | .number _ | .string _ | .array _ | .object (_ :: _) => cases h
    · intro h
      have hs : s ∈ typeNames := by
        cases h with
        | plain h =>
          cases h with
          | member h => exact h
        | empty h => exact h
      have ht : t = .null ∨ t = .object [] := by
        cases h with
        | plain h =>
          cases h with
          | member h => exact .inl rfl
        | empty h => exact .inr rfl
      obtain ⟨ty, hty⟩ := ofName_iff.2 hs
      rcases ht with rfl | rfl <;> exact ⟨ty, bind_eq_ok.2 ⟨ty, hty, rfl⟩⟩

/-! ## Records -/

def FieldRule.int32 (names : List String) : FieldRule :=
  ⟨names, true, IsInt (-0x80000000) 0x7FFFFFFF⟩

def FieldRule.int64 (name : String) : FieldRule :=
  ⟨[name], true, IsInt (-0x8000000000000000) 0x7FFFFFFFFFFFFFFF⟩

def FieldRule.text (name : String) : FieldRule := ⟨[name], true, IsText⟩

def FieldRule.time (name : String) : FieldRule := ⟨[name], true, IsTime⟩

/-- A description may be left out. -/
def FieldRule.description : FieldRule := ⟨["description"], false, IsText⟩

end Json

def Domain.rules : List FieldRule :=
  [.int32 ["id"], .text "name", .description, .int32 ["systemId"], .time "createdAt",
    .time "updatedAt"]

def AppGroup.rules : List FieldRule :=
  [.int32 ["id"], .text "name", .description, .int32 ["domainId"], .time "createdAt",
    .time "updatedAt"]

/-- The group of an application has two names. -/
def Application.rules (IsType : Tree → Prop) : List FieldRule :=
  [.int32 ["id"], .text "name", .description, .int32 ["applicationGroupId", "serviceId"],
    ⟨["type"], true, IsType⟩, .time "createdAt", .time "updatedAt"]

def Token.rules : List FieldRule :=
  [.text "token", .int32 ["appId"], .int64 "expireTime", .time "createdAt"]

def AccessList.rules : List FieldRule :=
  [.int32 ["appId"], .text "method", ⟨["value"], true, Json.IsBool⟩]

def AuthData.rules : List FieldRule :=
  [.int32 ["appId"], .text "appName", .int32 ["applicationGroupId"], .int32 ["domainId"],
    .int32 ["systemId"], .int64 "expireTime", .time "createdAt"]

def ApplicationWithTokens.ownRule : FieldRule :=
  ⟨["tokens"], true, Json.IsListOf (IsRecord Token.rules)⟩

def ServiceNode.ownRule : FieldRule :=
  ⟨["apps"], true, Json.IsListOf (IsRecord (Application.rules Json.IsTypeName))⟩

def DomainNode.ownRule : FieldRule :=
  ⟨["services"], true, Json.IsListOf (IsFlattened AppGroup.rules ServiceNode.ownRule)⟩

/-- The trees of the records of a kind. -/
def RecordKind.Accepts : RecordKind → Tree → Prop
  | domain => IsRecord Domain.rules
  | appGroup => IsRecord AppGroup.rules
  | application => IsRecord (Application.rules Json.IsTypeName)
  | applicationType => Json.IsTypeName
  | token => IsRecord Token.rules
  | accessList => IsRecord AccessList.rules
  | authData => IsRecord AuthData.rules
  | applicationWithTokens =>
    IsFlattened (Application.rules Json.IsMemberTypeName) ApplicationWithTokens.ownRule
  | serviceNode => IsFlattened AppGroup.rules ServiceNode.ownRule
  | domainNode => IsFlattened Domain.rules DomainNode.ownRule

namespace Json

open Governs (required defaulting field)

theorem governs_domain : Governs Domain.rules Domain.record := by
  have h := (required "id" takes_int32).map Domain.mk |>.seq (required "name" takes_string)
    |>.seq (defaulting "description" "" takes_string) |>.seq (required "systemId" takes_int32)
    |>.seq (required "createdAt" takes_time) |>.seq (required "updatedAt" takes_time)
  exact h

theorem governs_appGroup : Governs AppGroup.rules AppGroup.record := by
  have h := (required "id" takes_int32).map AppGroup.mk |>.seq (required "name" takes_string)
    |>.seq (defaulting "description" "" takes_string) |>.seq (required "domainId" takes_int32)
    |>.seq (required "createdAt" takes_time) |>.seq (required "updatedAt" takes_time)
  exact h

theorem governs_application {type : Decoder ApplicationType} {IsType : Tree → Prop}
    (htype : Takes type IsType) : Governs (Application.rules IsType) (Application.record type) := by
  have h := (required "id" takes_int32).map Application.mk |>.seq (required "name" takes_string)
    |>.seq (defaulting "description" "" takes_string)
    |>.seq (field "applicationGroupId" none ["serviceId"] takes_int32)
    |>.seq (required "type" htype) |>.seq (required "createdAt" takes_time)
    |>.seq (required "updatedAt" takes_time)
  exact h

theorem governs_token : Governs Token.rules Token.record := by
  have h := (required "token" takes_string).map AccessRegistry.Token.mk
    |>.seq (required "appId" takes_int32) |>.seq (required "expireTime" takes_int64)
    |>.seq (required "createdAt" takes_time)
  exact h

theorem governs_accessList : Governs AccessList.rules AccessList.record := by
  have h := (required "appId" takes_int32).map AccessList.mk |>.seq (required "method" takes_string)
    |>.seq (required "value" takes_bool)
  exact h

theorem governs_authData : Governs AuthData.rules AuthData.record := by
  have h := (required "appId" takes_int32).map AuthData.mk |>.seq (required "appName" takes_string)
    |>.seq (required "applicationGroupId" takes_int32) |>.seq (required "domainId" takes_int32)
    |>.seq (required "systemId" takes_int32) |>.seq (required "expireTime" takes_int64)
    |>.seq (required "createdAt" takes_time)
  exact h

theorem takes_application : Takes Application.decoder (IsRecord (Application.rules IsTypeName)) :=
  (governs_application takes_typeName).takes (by decide) ⟨_, rfl, rfl⟩ "Application"

theorem takes_token : Takes Token.decoder (IsRecord Token.rules) :=
  governs_token.takes (by decide) ⟨_, rfl, rfl⟩ "Token"

theorem takes_serviceNode :
    Takes ServiceNode.decoder (IsFlattened AppGroup.rules ServiceNode.ownRule) :=
  governs_appGroup.flattened_takes (required "apps" (takes_list takes_application)) (by decide)
    "ServiceNode" (by decide) ServiceNode.mk

end Json

/-- A record of a kind is read from the trees of that kind. -/
theorem RecordKind.takes (k : RecordKind) : Takes k.decoder k.Accepts := by
  cases k with
  | domain => exact Json.governs_domain.takes (by decide) ⟨_, rfl, rfl⟩ "Domain"
  | appGroup => exact Json.governs_appGroup.takes (by decide) ⟨_, rfl, rfl⟩ "AppGroup"
  | application => exact Json.takes_application
  | applicationType => exact Json.takes_typeName
  | token => exact Json.takes_token
  | accessList => exact Json.governs_accessList.takes (by decide) ⟨_, rfl, rfl⟩ "AccessList"
  | authData => exact Json.governs_authData.takes (by decide) ⟨_, rfl, rfl⟩ "AuthData"
  | applicationWithTokens =>
    exact (Json.governs_application Json.takes_memberTypeName).flattened_takes
      (Governs.required "tokens" (Json.takes_list Json.takes_token)) (by decide)
      "ApplicationWithTokens" (by decide) ApplicationWithTokens.mk
  | serviceNode => exact Json.takes_serviceNode
  | domainNode =>
    exact Json.governs_domain.flattened_takes
      (Governs.required "services" (Json.takes_list Json.takes_serviceNode)) (by decide)
      "DomainNode" (by decide) DomainNode.mk

/-! ## Texts -/

/-- A text is read as a record of a kind if its tree is one of that kind, and only then. -/
theorem RecordKind.accepted_iff (k : RecordKind) {t : Tree} {s : String} (h : t.Spelled s.toList)
    (hdepth : t.Shallow) : (k.decode s).isOk = true ↔ k.Accepts t := by
  have hread : Document.read (Source.ofString s) = (t.document, []) := h.read
  rw [← k.takes t hdepth, Json.isOk_iff]
  refine exists_congr fun v => ?_
  rw [decode, Json.decode, hread]
  simp only [Json.bind_eq_ok, Json.ite_throw_eq_ok]
  exact ⟨fun ⟨_, hv, _, heq⟩ => heq ▸ hv, fun hv => ⟨v, hv, rfl, rfl⟩⟩

/-- An entry of an access list, its fields in another order and an unknown member among them. -/
def AccessList.shuffledTree : Tree :=
  .object [(some "value", .bool true), (some "appId", .number ⟨true, [7], none, none⟩),
    (some "\u0007", .array []), (some "method", .string (some "m"))]

def AccessList.shuffledText : String :=
  "\x7b\"value\":true, \"appId\":-7,\"\\u0007\":[],\"method\":\"m\"\x7d"

theorem AccessList.shuffled_spelled : shuffledTree.Spelled shuffledText.toList := by
  have hnumber : Word.Written (.number ⟨true, [7], none, none⟩) ['-', '7'] :=
    .number (@Json.Number.Literal.Written.mk true [7] none none [] [] ⟨by simp, by simp⟩ (by simp)
      .absent .absent)
  have hend : Json.Blank [] := by simp [Json.Blank]
  have hblank : Json.Blank [' '] := by simp [Json.Blank, Json.Token.isBlank]
  have hvalue := Json.stringText_written "value"
  have happId := Json.stringText_written "appId"
  have hunknown := Json.stringText_written "\u0007"
  have hmethod := Json.stringText_written "method"
  have h := @Json.WordsWritten.word _ _ ['\x7b'] _ .beginObject <|
    .word hvalue <| .word .colon <| .word .boolTrue <| .word .comma <|
    .cons hblank happId <| .word .colon <| .word hnumber <| .word .comma <|
    .word hunknown <| .word .colon <| .word .beginArray <| .word .endArray <| .word .comma <|
    .word hmethod <| .word .colon <| .word (Json.stringText_written "m") <|
    .word .endObject <| .nil hend
  refine (congrArg (Json.WordsWritten (shuffledTree.words [])) ?_).mpr h
  decide +kernel

theorem RecordKind.accepted_shuffled :
    AccessList.shuffledTree.Spelled AccessList.shuffledText.toList ∧
      AccessList.shuffledTree.Shallow ∧
      (accessList.decode AccessList.shuffledText).isOk = true ∧
      accessList.Accepts AccessList.shuffledTree := by
  have hshallow : AccessList.shuffledTree.Shallow := by
    simp [AccessList.shuffledTree, Tree.Shallow, Tree.depth, Tree.membersDepth, Tree.itemsDepth]
  have haccepted : (accessList.decode AccessList.shuffledText).isOk = true := by decide +kernel
  exact ⟨AccessList.shuffled_spelled, hshallow, haccepted,
    (accepted_iff accessList AccessList.shuffled_spelled hshallow).1 haccepted⟩

/-- An application with no tokens, of a type and with a note that no field has. -/
def ApplicationWithTokens.textOf (type note : String) : String :=
  "\x7b\"id\":1,\"name\":\"n\",\"serviceId\":2,\"type\":" ++ type ++ ",\"note\":" ++ note ++
    ",\"createdAt\":\"2024-01-02T03:04:05Z\",\"updatedAt\":\"2024-01-02T03:04:05Z\"" ++
    ",\"tokens\":[]\x7d"

open ApplicationWithTokens (textOf) in
/-- With tokens a type may be given with an empty object and a note has to be text, without them it
is the other way round. A time needs no RFC 3339 form, but a name is text everywhere. -/
theorem RecordKind.flattened_differs :
    (applicationWithTokens.decode (textOf "\x7b\"SYSTEM\":\x7b\x7d\x7d" "null")).isOk = true ∧
      (application.decode (textOf "\x7b\"SYSTEM\":\x7b\x7d\x7d" "null")).isOk = false ∧
      (applicationWithTokens.decode (textOf "\"SYSTEM\"" "\"\\ud83d\"")).isOk = false ∧
      (application.decode (textOf "\"SYSTEM\"" "\"\\ud83d\"")).isOk = true ∧
      (token.decode "[\"t\",1,2,\"+2024-01-02 3:04:05 utc\"]").isOk = true ∧
      (accessList.decode "\x7b\"appId\":1,\"\\ud83d\":1,\"method\":\"m\",\"value\":true\x7d").isOk
        = false := by
  decide +kernel

end AccessRegistry
