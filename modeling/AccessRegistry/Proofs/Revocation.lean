import Mathlib.Data.Finset.Card
import AccessRegistry.Proofs.Authentication

/-!
# AccessRegistry.Proofs.Revocation

Tokens that are taken back. A listed text that occurs twice, that is no token, or that is the token
of another application must not count, though the rule filters the list by the tokens that it is
about to remove.

* `Tables.revoked`, `Tables.revokedCount` — what is left of the tables, and how many tokens went.
* `Credentials.revoke_outcome`            — the rule answers and does just that.

The count of two lists together follows from the sizes of the tables in between (`size_revoked`).
-/

namespace AccessRegistry

open AccessRegistry.Action World Tables

namespace Tables

variable {t : Tables} {appId : Int32} {texts more : List String}

/-- The tables without those of some tokens that belong to an application. -/
def revoked (t : Tables) (appId : Int32) (texts : List String) : Tables :=
  { t with tokens := t.tokens.filter fun k => !decide (k.appId = appId ∧ k.token ∈ texts) }

def revokedCount (t : Tables) (appId : Int32) (texts : List String) : Nat :=
  (t.tokens.select fun k => k.appId = appId ∧ k.token ∈ texts).length

/-- A text counts if there is a token with it that belongs to the application. -/
theorem mem_owned {k : Token} (hk : k ∈ t.tokens) :
    Keyed.key k ∈ t.owned appId texts ↔ k.appId = appId ∧ k.token ∈ texts := by
  rw [owned, List.mem_filter, Table.find?_of_mem hk, Option.any_some, decide_eq_true_eq]
  exact and_comm

theorem apply_deleteTokens_eq (t : Tables) (appId : Int32) (texts : List String) :
    (deleteTokens appId texts).apply t =
      (.ok (t.revokedCount appId texts), t.revoked appId texts) := by
  have hcount : t.tokens.select (fun k => Keyed.key k ∈ t.owned appId texts) =
      t.tokens.select fun k => k.appId = appId ∧ k.token ∈ texts :=
    List.filter_congr fun k hk => decide_eq_decide.2 (mem_owned hk)
  have hleft : t.tokens.filter (fun k => Keyed.key k ∉ t.owned appId texts) =
      (t.revoked appId texts).tokens := by
    refine Table.eq_of_mem_iff fun k => ?_
    rw [revoked, Table.mem_filter, Table.mem_filter, decide_eq_true_eq, Bool.not_eq_true',
      decide_eq_false_iff_not]
    exact and_congr_right fun hk => not_congr (mem_owned hk)
  rw [apply_deleteTokens, Table.eraseAll_eq, hcount, hleft]
  rfl

/-- What is counted is what is missing afterwards. -/
theorem size_revoked (t : Tables) (appId : Int32) (texts : List String) :
    (t.revoked appId texts).tokens.size + t.revokedCount appId texts = t.tokens.size := by
  have hsplit := t.tokens.rows.length_eq_length_filter_add
    fun k => decide (k.appId = appId ∧ k.token ∈ texts)
  simp only [revoked, revokedCount, Table.size, Table.filter, Table.select]
  omega

theorem revoked_revoked (t : Tables) (appId : Int32) (texts more : List String) :
    (t.revoked appId texts).revoked appId more = t.revoked appId (texts ++ more) := by
  have htokens : ((t.revoked appId texts).revoked appId more).tokens =
      (t.revoked appId (texts ++ more)).tokens := by
    refine Table.eq_of_mem_iff fun k => ?_
    simp only [revoked, Table.mem_filter, Bool.not_eq_true', decide_eq_false_iff_not,
      List.mem_append]
    tauto
  simp only [revoked] at htokens ⊢
  rw [htokens]

theorem revokedCount_append (t : Tables) (appId : Int32) (texts more : List String) :
    t.revokedCount appId (texts ++ more) =
      t.revokedCount appId texts + (t.revoked appId texts).revokedCount appId more := by
  have hboth := t.size_revoked appId (texts ++ more)
  have hfirst := t.size_revoked appId texts
  have hrest := (t.revoked appId texts).size_revoked appId more
  rw [revoked_revoked] at hrest
  omega

/-- A second revocation finds nothing. -/
theorem revoked_again (t : Tables) (appId : Int32) (texts : List String) :
    (t.revoked appId texts).revoked appId texts = t.revoked appId texts ∧
      (t.revoked appId texts).revokedCount appId texts = 0 := by
  have htwice : (t.revoked appId texts).revoked appId texts = t.revoked appId texts := by
    rw [revoked_revoked]
    simp only [revoked, List.mem_append, or_self]
  have hsize := (t.revoked appId texts).size_revoked appId texts
  rw [htwice] at hsize
  exact ⟨htwice, by omega⟩

theorem revokedCount_eq_card (t : Tables) (appId : Int32) (texts : List String) :
    t.revokedCount appId texts =
      {k ∈ t.tokens.rows.toFinset | k.appId = appId ∧ k.token ∈ texts}.card := by
  have hlisted : {k ∈ t.tokens.rows.toFinset | k.appId = appId ∧ k.token ∈ texts} =
      (t.tokens.select fun k => k.appId = appId ∧ k.token ∈ texts).toFinset := by
    ext k
    simp only [Table.select, Finset.mem_filter, List.mem_toFinset, List.mem_filter,
      decide_eq_true_eq]
  rw [hlisted]
  exact (List.toFinset_card_of_nodup (t.tokens.nodup_rows.filter _)).symm

/-! ### All tokens of an application -/

theorem mem_all {k : Token} (hk : k ∈ t.tokens) (howner : k.appId = appId) :
    k.token ∈ (t.tokensWhere fun k => k.appId = appId).map Token.token :=
  List.mem_map.2 ⟨k, mem_tokensWhere.2 ⟨hk, decide_eq_true howner⟩, rfl⟩

theorem mem_revoked_all {k : Token} :
    k ∈ (t.revoked appId ((t.tokensWhere fun k => k.appId = appId).map Token.token)).tokens ↔
      k ∈ t.tokens ∧ k.appId ≠ appId := by
  rw [revoked, Table.mem_filter, Bool.not_eq_true', decide_eq_false_iff_not]
  exact and_congr_right fun hk => not_congr (and_iff_left_of_imp (mem_all hk))

theorem revokedCount_all (t : Tables) (appId : Int32) :
    t.revokedCount appId ((t.tokensWhere fun k => k.appId = appId).map Token.token) =
      {k ∈ t.tokens.rows.toFinset | k.appId = appId}.card := by
  rw [revokedCount_eq_card]
  refine congrArg Finset.card (Finset.filter_congr fun k hk => ?_)
  exact and_iff_left_of_imp (mem_all (List.mem_toFinset.1 hk))

theorem tokensWhere_revoked_all (t : Tables) (appId : Int32) :
    (t.revoked appId ((t.tokensWhere fun k => k.appId = appId).map Token.token)).tokensWhere
      (fun k => k.appId = appId) = [] := by
  refine List.eq_nil_iff_forall_not_mem.2 fun k hk => ?_
  obtain ⟨hk, howner⟩ := mem_tokensWhere.1 hk
  exact (mem_revoked_all.1 hk).2 (of_decide_eq_true howner)

end Tables

namespace Credentials

variable {w : World} {appId : Int32}

theorem revoke_unknown (h : ¬ w.tables.applications.contains appId) (texts : List String) :
    outcome answer (revoke appId texts) w = (.error .applicationNotFound, w) := by
  have hmissing : w.tables.application appId = .error .applicationNotFound :=
    congrArg (found .applicationNotFound) (Option.not_isSome_iff_eq_none.1 h)
  unfold revoke
  rw [outcome_bind, outcome_look (f := (·.application appId)) rfl, hmissing]

theorem revoke_outcome {app : Application} (happ : w.tables.applications.find? appId = some app)
    (texts : List String) :
    let t := w.tables.revoked appId texts
    outcome answer (revoke appId texts) w =
      (.ok ⟨⟨app, t.tokensWhere fun k => k.appId = app.id⟩, w.tables.revokedCount appId texts⟩,
        { w with tables := t }) := by
  intro t
  have hfound : w.tables.application appId = .ok app :=
    congrArg (found .applicationNotFound) happ
  -- the application is still there when it is read for the answer
  have hend (n : Nat) : outcome answer
      (Applications.getById appId >>= fun app => pure (⟨app, n⟩ : RevokeOutcome))
      { w with tables := t } =
      (.ok ⟨⟨app, t.tokensWhere fun k => k.appId = app.id⟩, n⟩, { w with tables := t }) := by
    apply outcome_eq_of_ends
    rw [ends_bind, Applications.ends_getById]
    have happ : t.applications.find? appId = some app := happ
    dsimp only
    rw [happ]
    exact ⟨rfl, rfl⟩
  unfold revoke
  rw [outcome_look_bind (·.application appId) rfl hfound]
  by_cases hempty : texts.isEmpty
  · -- nothing is listed, and there is no transaction
    obtain rfl := List.isEmpty_iff.1 hempty
    have hnone : ((.ok 0 : Except Failure Nat), w.tables) =
        (.ok (w.tables.revokedCount appId []), t) :=
      apply_deleteTokens_eq w.tables appId []
    obtain ⟨hcount, ht⟩ := Prod.mk.inj hnone
    have hend := hend 0
    rw [← ht] at hend ⊢
    rw [← Except.ok.inj hcount]
    exact hend
  · have hrun : outcome answer (call (.transaction .tokenRevoke
        (.call (.deleteByAppIdAndTokens appId texts)))) w =
        ((deleteTokens appId texts).apply w.tables).map id fun tables => { w with tables } := rfl
    rw [if_neg hempty, outcome_bind]
    dsimp only
    rw [hrun, apply_deleteTokens_eq]
    exact hend _

theorem revokeByAppId_unknown (h : ¬ w.tables.applications.contains appId) :
    outcome answer (revokeByAppId appId) w = (.error .applicationNotFound, w) := by
  have hmissing : w.tables.application appId = .error .applicationNotFound :=
    congrArg (found .applicationNotFound) (Option.not_isSome_iff_eq_none.1 h)
  unfold revokeByAppId
  rw [outcome_bind, outcome_look (f := (·.application appId)) rfl, hmissing]

theorem revokeByAppId_eq_revoke {app : Application}
    (happ : w.tables.applications.find? appId = some app) :
    outcome answer (revokeByAppId appId) w =
      outcome answer
        (revoke appId ((w.tables.tokensWhere fun k => k.appId = appId).map Token.token)) w := by
  have hfound : w.tables.application appId = .ok app :=
    congrArg (found .applicationNotFound) happ
  unfold revokeByAppId
  rw [outcome_look_bind (·.application appId) rfl hfound,
    outcome_look_bind (fun t => .ok (t.tokensWhere fun k => k.appId = appId)) rfl rfl]

/-- Revoking tokens of an application takes away those that are listed and belong to it, and counts
each of them once; texts that are no tokens or tokens of others do not matter. What the application
still has is shown. Asked again, nothing happens, and asked for two lists one after the other, it is
as if both were one. It can lose all its tokens at once, too. If there is no such application, that
is the answer, and nothing happens. -/
theorem revokes_exactly (w : World) (appId : Int32) :
    (¬ w.tables.applications.contains appId →
      (∀ texts, outcome answer (revoke appId texts) w = (.error .applicationNotFound, w)) ∧
      outcome answer (revokeByAppId appId) w = (.error .applicationNotFound, w)) ∧
    ∀ app ∈ w.tables.applications, app.id = appId →
      (∀ texts, ∃ out w',
        outcome answer (revoke appId texts) w = (.ok out, w') ∧
        w' = { w with tables := { w.tables with tokens := w'.tables.tokens } } ∧
        (∀ k, k ∈ w'.tables.tokens ↔
          k ∈ w.tables.tokens ∧ ¬ (k.appId = appId ∧ k.token ∈ texts)) ∧
        out.deleted =
          {k ∈ w.tables.tokens.rows.toFinset | k.appId = appId ∧ k.token ∈ texts}.card ∧
        out.app.app = app ∧ out.app.tokens.Nodup ∧
        (∀ k, k ∈ out.app.tokens ↔ k ∈ w'.tables.tokens ∧ k.appId = appId) ∧
        outcome answer (revoke appId texts) w' = (.ok { out with deleted := 0 }, w') ∧
        ∀ more, ∃ rest w'',
          outcome answer (revoke appId more) w' = (.ok rest, w'') ∧
          outcome answer (revoke appId (texts ++ more)) w =
            (.ok { rest with deleted := out.deleted + rest.deleted }, w'')) ∧
      ∃ out w',
        outcome answer (revokeByAppId appId) w = (.ok out, w') ∧
        w' = { w with tables := { w.tables with tokens := w'.tables.tokens } } ∧
        (∀ k, k ∈ w'.tables.tokens ↔ k ∈ w.tables.tokens ∧ k.appId ≠ appId) ∧
        out.deleted = {k ∈ w.tables.tokens.rows.toFinset | k.appId = appId}.card ∧
        out.app = ⟨app, []⟩ := by
  refine ⟨fun hmissing => ⟨revoke_unknown hmissing, revokeByAppId_unknown hmissing⟩, ?_⟩
  rintro app happ rfl
  have happ : w.tables.applications.find? app.id = some app := Table.find?_of_mem happ
  constructor
  · intro texts
    refine ⟨_, _, revoke_outcome happ texts, rfl, fun k => ?_,
      w.tables.revokedCount_eq_card app.id texts, rfl, ?_, fun k => ?_, ?_, fun more => ?_⟩
    · rw [revoked, Table.mem_filter, Bool.not_eq_true', decide_eq_false_iff_not]
    · exact (List.mergeSort_perm _ _).nodup_iff.2 (Table.nodup_rows _ |>.filter _)
    · rw [mem_tokensWhere, decide_eq_true_eq]
    · obtain ⟨hsame, hnone⟩ := w.tables.revoked_again app.id texts
      have hagain := revoke_outcome
        (w := { w with tables := w.tables.revoked app.id texts }) happ texts
      dsimp only at hagain ⊢
      rw [hagain, hsame, hnone]
    · refine ⟨_, _, revoke_outcome
        (w := { w with tables := w.tables.revoked app.id texts }) happ more, ?_⟩
      rw [revoke_outcome happ, revokedCount_append, revoked_revoked]
  · refine ⟨_, _, (revokeByAppId_eq_revoke happ).trans (revoke_outcome happ _), rfl,
      fun k => mem_revoked_all, revokedCount_all _ _, ?_⟩
    dsimp only
    rw [tokensWhere_revoked_all]

/-- The administrator's token is counted once, and the answer shows that none is left. -/
theorem revokes_token_of_admin :
    let w := (fresh ⟨0, 0⟩ fun _ => "").after [⟨.provision "root", ⟨0, 0⟩⟩]
    outcome answer (revoke 9 ["root"]) w = (.error .applicationNotFound, w) ∧
      ∃ out w', outcome answer (revoke 1 ["root", "other", "root"]) w = (.ok out, w') ∧
        out.deleted = 1 ∧ out.app.tokens = [] := by
  intro w
  let admin : Application := ⟨1, "admin", "", 1, .system, ⟨0, 0⟩, ⟨0, 0⟩⟩
  have hmissing : ¬ w.tables.applications.contains 9 := by decide +kernel
  have hadmin : admin ∈ w.tables.applications.rows := by decide +kernel
  have htokens : w.tables.tokens.rows = [⟨"root", 1, neverExpires, ⟨0, 0⟩⟩] := by decide +kernel
  clear_value w
  obtain ⟨hunknown, _⟩ := revokes_exactly w 9
  obtain ⟨hrevoke, _⟩ := (revokes_exactly w 1).2 admin hadmin rfl
  obtain ⟨out, w', h, _, hleft, hcount, _, _, hshown, _⟩ := hrevoke ["root", "other", "root"]
  refine ⟨(hunknown hmissing).1 _, out, w', h, ?_, ?_⟩
  · rw [hcount, htokens]
    decide +kernel
  · refine List.eq_nil_iff_forall_not_mem.2 fun k hk => ?_
    obtain ⟨hk, howner⟩ := (hshown k).1 hk
    obtain ⟨hk, hnot⟩ := (hleft k).1 hk
    have hk : k ∈ w.tables.tokens.rows := hk
    rw [htokens, List.mem_singleton] at hk
    subst hk
    exact hnot ⟨rfl, List.mem_cons_self⟩

end Credentials

end AccessRegistry
