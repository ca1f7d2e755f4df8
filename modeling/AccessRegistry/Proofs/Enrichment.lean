import AccessRegistry.Proofs.Listing
import AccessRegistry.Proofs.ReadBack
import AccessRegistry.Proofs.Tree

/-!
# AccessRegistry.Proofs.Enrichment

Applications with their tokens, read one by one or many at once. One application is shown with the
tokens that are found under its id. Many are read with one question for all their tokens, which come
in one listing and are dealt out again; each application then has what it has alone, in the same
order (`reads_together`), because a part of a listing is a listing.
-/

namespace AccessRegistry

open AccessRegistry.Action World Tables

/-- Every application gets the tokens that name it, in their order. -/
theorem attachTokens_eq (apps : List Application) (tokens : List Token) :
    attachTokens apps tokens =
      apps.map fun app => ⟨app, tokens.filter fun k => k.appId = app.id⟩ := by
  unfold attachTokens
  simp only [Boxes.children_ofList]

/-- An application as it is shown. -/
def Tables.withTokens (t : Tables) (app : Application) : ApplicationWithTokens :=
  ⟨app, t.tokensWhere fun k => k.appId = app.id⟩

/-- The tokens of all applications, dealt out to each of them, are the tokens of each. -/
theorem Tables.attachTokens_tokensWhere (t : Tables) (apps : List Application) :
    attachTokens apps (t.tokensWhere fun k => (apps.map Application.id).contains k.appId) =
      apps.map t.withTokens := by
  rw [attachTokens_eq]
  refine List.map_congr_left fun app happ => ?_
  rw [filter_tokensWhere, withTokens]
  simp only [contains_and_eq happ]

namespace Applications

variable {w : World}

theorem enrichWithTokens_outcome (apps : List Application) :
    outcome answer (enrichWithTokens apps) w = (.ok (apps.map w.tables.withTokens), w) := by
  unfold enrichWithTokens
  cases apps with
  | nil => rfl
  | cons app apps =>
    rw [← attachTokens_tokensWhere]
    rfl

theorem getById_stored {app : Application} (h : app ∈ w.tables.applications) :
    outcome answer (getById app.id) w = (.ok (w.tables.withTokens app), w) := by
  have hshown : w.tables.Shows (w.tables.withTokens app) := ⟨Table.find?_of_mem h, rfl⟩
  exact getById_outcome hshown

/-- Which applications are read at once. -/
inductive Selection where
  | byIds (ids : List Int32)
  | ofGroup (groupId : Int32)
  | all

namespace Selection

def rule : Selection → Rule (List ApplicationWithTokens)
  | .byIds ids => getByIdList ids
  | .ofGroup groupId => getByServiceId groupId
  | .all => getAll

def includes : Selection → Application → Bool
  | .byIds ids, app => ids.contains app.id
  | .ofGroup groupId, app => app.applicationGroupId = groupId
  | .all, _ => true

theorem rule_outcome (s : Selection) : outcome answer s.rule w =
    (.ok ((w.tables.applicationsWhere s.includes).map w.tables.withTokens), w) := by
  have hread {c : Port (List Application)} (hc : answerCall c =
      look fun t => .ok (t.applicationsWhere s.includes)) :
      outcome answer (call c >>= enrichWithTokens) w =
        (.ok ((w.tables.applicationsWhere s.includes).map w.tables.withTokens), w) :=
    (outcome_look_bind _ hc rfl _).trans (enrichWithTokens_outcome _)
  cases s with
  | byIds ids =>
    cases ids with
    | nil =>
      -- nothing is asked for, and nothing would be found
      have hnone : w.tables.applicationsWhere (includes (.byIds [])) = [] :=
        newestFirst_select_nil _ _ Application.id
      rw [hnone]
      rfl
    | cons id ids => exact hread rfl
  | ofGroup groupId =>
    have hone : (fun app : Application => [groupId].contains app.applicationGroupId) =
        includes (.ofGroup groupId) := by
      funext app
      simp [includes]
    exact hread (by rw [← hone]; rfl)
  | all => exact hread rfl

end Selection

/-- Tokens are dealt out to applications as if each of them had been looked through alone. So each
application that is read together with others is read with the same tokens alone: all that it has,
newer ones first, those of one time by their texts. -/
theorem reads_together :
    (∀ (apps : List Application) (tokens : List Token),
      attachTokens apps tokens =
        apps.map fun app => ⟨app, tokens.filter fun k => k.appId = app.id⟩) ∧
    ∀ (w : World) (s : Selection), ∃ entries, outcome answer s.rule w = (.ok entries, w) ∧
      entries.map ApplicationWithTokens.app = w.tables.applicationsWhere s.includes ∧
      ∀ e ∈ entries, outcome answer (getById e.app.id) w = (.ok e, w) ∧
        (∀ k, k ∈ e.tokens ↔ k ∈ w.tables.tokens ∧ k.appId = e.app.id) ∧
        e.tokens.Pairwise Token.Precedes := by
  refine ⟨attachTokens_eq, fun w s => ⟨_, s.rule_outcome, ?_, fun e he => ?_⟩⟩
  · rw [List.map_map]
    exact List.map_id _
  · obtain ⟨app, happ, rfl⟩ := List.mem_map.1 he
    refine ⟨getById_stored (mem_newestFirst.1 happ).1, fun k => ?_, pairwise_tokensWhere _⟩
    rw [withTokens, mem_tokensWhere, decide_eq_true_eq]

/-- The administrator has two tokens of one time, which are told apart by their texts. -/
theorem reads_tokens_of_admin :
    let w := (fresh ⟨0, 0⟩ fun _ => "made").after
      [⟨.createToken 1 neverExpires, ⟨0, 0⟩⟩, ⟨.provision "root", ⟨0, 0⟩⟩]
    ∃ e, outcome answer (getByIdList [1]) w = (.ok [e], w) ∧
      outcome answer (getById e.app.id) w = (.ok e, w) ∧
      ⟨"made", 1, neverExpires, ⟨0, 0⟩⟩ ∈ e.tokens ∧
      ⟨"root", 1, neverExpires, ⟨0, 0⟩⟩ ∈ e.tokens ∧ e.tokens.Pairwise Token.Precedes := by
  intro w
  have hone : w.tables.applicationsWhere (Selection.byIds [1]).includes =
      [⟨1, "admin", "", 1, .system, ⟨0, 0⟩, ⟨0, 0⟩⟩] := by decide +kernel
  have hmade : ⟨"made", 1, neverExpires, ⟨0, 0⟩⟩ ∈ w.tables.tokens.rows := by decide +kernel
  have hroot : ⟨"root", 1, neverExpires, ⟨0, 0⟩⟩ ∈ w.tables.tokens.rows := by decide +kernel
  obtain ⟨entries, hread, happs, hentries⟩ := reads_together.2 w (.byIds [1])
  rw [hone] at happs
  obtain ⟨e, rfl, happ⟩ := List.map_eq_singleton_iff.1 happs
  obtain ⟨halone, hmem, hordered⟩ := hentries e (List.mem_singleton_self e)
  have hid : e.app.id = 1 := congrArg Application.id happ
  exact ⟨e, hread, halone, (hmem _).2 ⟨hmade, hid.symm⟩, (hmem _).2 ⟨hroot, hid.symm⟩, hordered⟩

end Applications

end AccessRegistry
