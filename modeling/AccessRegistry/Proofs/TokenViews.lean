import AccessRegistry.Proofs.Authentication
import AccessRegistry.Proofs.Traffic
import AccessRegistry.Proofs.Tree

/-!
# AccessRegistry.Proofs.TokenViews

The ways to come across a token: it is presented, its application is asked for, the tokens of an
application are listed, and the tree shows the application. Each goes up from the token by other
calls and falls back differently where a row is missing. In well-formed tables none is, so that they
agree: a token that is stored is on one branch of the tree, to which all of them lead (`ShowsAt`),
and any other is unknown to all (`Hides`).
-/

namespace AccessRegistry

open AccessRegistry.Action World Tables

namespace World

variable {w : World} {text : String}

/-- What a rule answers in this world. -/
abbrev result {α : Type} (w : World) (r : Rule α) : Except Failure α := (outcome answer r w).1

theorem result_call_bind {γ α : Type} {c : Port γ} {f : Tables → Except Failure γ}
    (h : answerCall c = look f) (k : γ → Rule α) :
    w.result (call c >>= k) =
      match f w.tables with
      | .ok x => w.result (k x)
      | .error e => .error e := by
  have hrun : outcome answer (call c) w = (f w.tables, w) := by
    show (answerCall c).run w = _
    rw [h]
    rfl
  rw [result, outcome_bind, hrun]
  cases f w.tables <;> rfl

theorem result_getById (appId : Int32) :
    w.result (Applications.getById appId) =
      match w.tables.applications.find? appId with
      | some app => .ok ⟨app, w.tables.tokensWhere fun k => k.appId = app.id⟩
      | none => .error .applicationNotFound := by
  unfold Applications.getById
  rw [result_call_bind (f := (·.application appId)) rfl, application]
  cases w.tables.applications.find? appId <;> rfl

theorem result_getByToken (text : String) :
    w.result (Applications.getByToken text) =
      match w.tables.tokens.find? text with
      | some k => w.result (Applications.getById k.appId)
      | none => .error .tokenNotFound := by
  unfold Applications.getByToken
  rw [result_call_bind (f := (·.token text)) rfl, token]
  cases w.tables.tokens.find? text <;> rfl

theorem result_getByAppId (appId : Int32) :
    w.result (Credentials.getByAppId appId) =
      match w.tables.applications.find? appId with
      | some _ => .ok (w.tables.tokensWhere fun k => k.appId = appId)
      | none => .error .applicationNotFound := by
  unfold Credentials.getByAppId
  rw [result_call_bind (f := (·.application appId)) rfl, application]
  cases w.tables.applications.find? appId <;> rfl

/-- The token is among the tokens of the application. -/
def Lists (w : World) (appId : Int32) (text : String) : Prop :=
  ∃ tokens, w.result (Credentials.getByAppId appId) = .ok tokens ∧
    text ∈ tokens.map Token.token

/-- Only tokens of applications that are there are listed. -/
theorem lists_iff {appId : Int32} :
    w.Lists appId text ↔ w.tables.applications.contains appId ∧
      ∃ k, w.tables.tokens.find? text = some k ∧ k.appId = appId := by
  have hlisted : text ∈ (w.tables.tokensWhere fun k => k.appId = appId).map Token.token ↔
      ∃ k, w.tables.tokens.find? text = some k ∧ k.appId = appId := by
    simp only [List.mem_map, mem_tokensWhere, decide_eq_true_eq, Table.find?_eq_some_iff]
    exact exists_congr fun k => and_right_comm
  rw [← hlisted, Lists, result_getByAppId, Table.contains]
  cases w.tables.applications.find? appId <;> simp

/-- All ways to the token lead to the application at the end of this branch. -/
structure ShowsAt (w : World) (text : String) (b : Branch) : Prop where
  presented : ∃ decision, w.result (Credentials.authenticate text) = .ok decision ∧
    decision ≠ .tokenNotFound ∧ ∀ d, decision = .authenticated d →
      d.appId = b.app.id ∧ d.applicationGroupId = b.group.id ∧ d.domainId = b.domain.id
  byToken : ∃ tokens, w.result (Applications.getByToken text) = .ok ⟨b.app, tokens⟩ ∧
    text ∈ tokens.map Token.token
  listed : ∀ appId, w.Lists appId text ↔ appId = b.app.id
  inTree : ∃ tree, w.result (Applications.systemTree defaultSystemId) = .ok tree ∧
    (branches tree).filter (fun q => q.app.id = b.app.id) = [b]

/-- No way leads to the token. -/
structure Hides (w : World) (text : String) : Prop where
  presented : w.result (Credentials.authenticate text) = .ok .tokenNotFound
  byToken : w.result (Applications.getByToken text) = .error .tokenNotFound
  listed : ∀ appId, ¬ w.Lists appId text

theorem hides_of_not_stored (h : ¬ w.tables.tokens.contains text) : w.Hides text := by
  have hnone : w.tables.tokens.find? text = none := by
    rwa [Table.contains, Option.not_isSome_iff_eq_none] at h
  refine ⟨?_, ?_, fun appId hlists => ?_⟩
  · rw [result, Credentials.authenticate_outcome, authData?, hnone]
    rfl
  · rw [result_getByToken, hnone]
  · obtain ⟨_, k, hk, _⟩ := lists_iff.1 hlists
    rw [hnone] at hk
    cases hk

theorem showsAt_of_stored (hwf : w.tables.WellFormed) (h : w.tables.tokens.contains text) :
    ∃ b, w.ShowsAt text b := by
  obtain ⟨k, hk⟩ := Option.isSome_iff_exists.1 h
  obtain ⟨app, happ⟩ := Option.isSome_iff_exists.1 (hwf.tokens k (Table.mem_of_find? hk))
  have hid : app.id = k.appId := Table.key_of_find? happ
  obtain ⟨b, rfl, hbranch⟩ := hwf.shown_once (Table.mem_of_find? happ)
  -- the rows above the application are those that the tree puts it under
  have hb : b ∈ branches (w.tables.systemTree defaultSystemId) :=
    List.mem_of_mem_filter (hbranch ▸ List.mem_singleton_self b)
  obtain ⟨hdomain, ⟨hgroup, hgroupDomain⟩, _, happGroup⟩ := hwf.mem_branches.1 hb
  have hdata := authData?_of_find hk happ (Table.find?_eq_some_iff.2 ⟨hgroup, happGroup.symm⟩)
    (Table.find?_eq_some_iff.2 ⟨hdomain, hgroupDomain.symm⟩)
  have hlists (appId : Int32) : w.Lists appId text ↔ appId = b.app.id := by
    rw [lists_iff, hid]
    constructor
    · rintro ⟨_, k', hk', rfl⟩
      rw [hk] at hk'
      cases hk'
      rfl
    · rintro rfl
      exact ⟨hwf.tokens k (Table.mem_of_find? hk), k, hk, rfl⟩
  refine ⟨b, ⟨?_, ?_, hlists, ?_⟩⟩
  · rw [result, Credentials.authenticate_outcome, hdata]
    refine ⟨_, rfl, ?_⟩
    dsimp only
    split
    · exact ⟨nofun, nofun⟩
    · refine ⟨nofun, fun d hd => ?_⟩
      cases hd
      exact ⟨rfl, rfl, rfl⟩
  · obtain ⟨tokens, htokens, hmem⟩ := (hlists b.app.id).2 rfl
    refine ⟨tokens, ?_, hmem⟩
    rw [result_getByAppId, hid, happ] at htokens
    cases htokens
    rw [result_getByToken, hk]
    dsimp only
    rw [result_getById, happ]
    dsimp only
    rw [hid]
  · exact ⟨_, congrArg Prod.fst (Applications.systemTree_outcome w _), hbranch⟩

end World

/-- Whatever several clients have done, all ways to a token agree at any time: it is known when it
is presented, its application can be asked for, and it is listed, just when it is stored. Then it is
listed for one application, which is the one that is found by it, which the tree shows once, under
the group and the domain that the token authenticates for. -/
theorem token_views_agree {α : Type} (now : Instant) (mint : Nat → String)
    (clients : List (Program (Effect Port) α)) (turns : List Turn) (text : String)
    (later : Instant) :
    let w := { ((Traffic.start now mint clients).after turns).world with now := later }
    let stored := w.tables.tokens.contains text = true
    (∃ decision, w.result (Credentials.authenticate text) = .ok decision ∧
      (decision ≠ .tokenNotFound ↔ stored)) ∧
    ((∃ out, w.result (Applications.getByToken text) = .ok out) ↔ stored) ∧
    w.result (Applications.getByToken text) ≠ .error .applicationNotFound ∧
    ((∃ appId, w.Lists appId text) ↔ stored) ∧
    (stored → ∃ b, w.ShowsAt text b) := by
  intro w stored
  have hwf : w.tables.WellFormed := Traffic.start_wellFormed
  by_cases h : stored
  · obtain ⟨b, hb⟩ := showsAt_of_stored hwf h
    obtain ⟨decision, hdecision, hfound, _⟩ := hb.presented
    obtain ⟨tokens, hbyToken, _⟩ := hb.byToken
    refine ⟨⟨decision, hdecision, iff_of_true hfound h⟩, iff_of_true ⟨_, hbyToken⟩ h, ?_,
      iff_of_true ⟨b.app.id, (hb.listed _).2 rfl⟩ h, fun _ => ⟨b, hb⟩⟩
    rw [hbyToken]
    nofun
  · have hhides := hides_of_not_stored h
    refine ⟨⟨_, hhides.presented, iff_of_false (absurd rfl) h⟩, iff_of_false ?_ h, ?_,
      iff_of_false (fun ⟨appId, hlists⟩ => hhides.listed appId hlists) h, fun hs => absurd hs h⟩
    · rintro ⟨out, hout⟩
      rw [hhides.byToken] at hout
      cases hout
    · rw [hhides.byToken]
      nofun

end AccessRegistry
