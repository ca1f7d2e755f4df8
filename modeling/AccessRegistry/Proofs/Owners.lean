import AccessRegistry.Proofs.Integrity
import AccessRegistry.Proofs.Outcome

/-!
# AccessRegistry.Proofs.Owners

Whose a token is, from one request to the next. No statement of a transaction changes a token:
where a use case stores tokens it removes none, and the other way round (`UseCase.Keeps`). One call
changes tokens, the one that moves an application to another id; apart from it a token may be
another application's than before only if it was not there before (`answerCall_owned`).
-/

namespace AccessRegistry

namespace Tables

variable {t t' t'' : Tables} {text : String} {appId : Int32}

/-- Every token was there before, or none with its text was. -/
def KeepsOwners (t t' : Tables) : Prop :=
  ∀ k ∈ t'.tokens, k ∈ t.tokens ∨ ¬ t.tokens.contains k.token

/-- A token with this text is this application's, if it is there. -/
def Owned (t : Tables) (text : String) (appId : Int32) : Prop :=
  ∀ k ∈ t.tokens, k.token = text → k.appId = appId

theorem KeepsOwners.of_eq (h : t'.tokens = t.tokens) : t.KeepsOwners t' :=
  fun _ hk => .inl (h ▸ hk)

theorem owned_of_mem {k : Token} (hk : k ∈ t.tokens) : t.Owned k.token k.appId := by
  intro k' hk' htext
  rw [Table.eq_of_key_eq hk' hk htext]

theorem KeepsOwners.owned (h : t.KeepsOwners t') (howned : t.Owned text appId) :
    t'.Owned text appId ∨
      ∃ k ∈ t'.tokens, k.token = text ∧ k.appId ≠ appId ∧ ¬ t.tokens.contains text := by
  by_cases howned' : t'.Owned text appId
  · exact .inl howned'
  · unfold Owned at howned'
    push Not at howned'
    obtain ⟨k, hk, rfl, hne⟩ := howned'
    refine .inr ⟨k, hk, rfl, hne, (h k hk).resolve_left fun hold => hne ?_⟩
    exact howned k hold rfl

/-! ## Statements -/

/-- Tokens go along with the application, those of others stay whose they are. -/
theorem updateApplication_owned {now : Instant} {oldId newId : Int32} {name description : String}
    {a : Application} (h : (updateApplication now oldId newId name description).apply t =
      (.ok a, t')) (hother : appId ≠ oldId) (howned : t.Owned text appId) :
    t'.Owned text appId := by
  obtain ⟨_, _, _, _, _, _, rfl⟩ := updateApplication_ok h
  dsimp only
  split
  · exact howned
  · intro k hk htext
    obtain ⟨k, hold, rfl⟩ := (Table.mem_map fun _ => by split <;> rfl).1 hk
    split at htext
    · rename_i hmoved
      exact absurd ((howned k hold htext).symm.trans hmoved) hother
    · rename_i hstays
      rw [if_neg hstays]
      exact howned k hold htext

end Tables

/-! ## Transactions -/

namespace UseCase

open Tables

/-- Whether transactions of the use case store tokens. -/
def storesTokens : UseCase → Bool
  | .tokenCreate | .baseline => true
  | _ => false

/-- Tokens are added at most, or removed at most. -/
def Keeps (u : UseCase) (t t' : Tables) : Prop :=
  if u.storesTokens then t.KeepsOwners t' ∧ ∀ k ∈ t.tokens, k ∈ t'.tokens
  else ∀ k ∈ t'.tokens, k ∈ t.tokens

namespace Keeps

variable {u : UseCase} {t t' t'' : Tables}

theorem of_eq (h : t'.tokens = t.tokens) : u.Keeps t t' := by
  unfold Keeps
  split
  · exact ⟨.of_eq h, fun k hk => h ▸ hk⟩
  · exact fun k hk => h ▸ hk

theorem refl (u : UseCase) (t : Tables) : u.Keeps t t := .of_eq rfl

theorem trans (h : u.Keeps t t') (h' : u.Keeps t' t'') : u.Keeps t t'' := by
  unfold Keeps at *
  split at h
  · rename_i hstores
    rw [if_pos hstores] at h' ⊢
    refine ⟨fun k hk => ?_, fun k hk => h'.2 k (h.2 k hk)⟩
    rcases h'.1 k hk with hk | hfresh
    · exact h.1 k hk
    · -- what is not there in the middle was not there before
      refine .inr fun hold => hfresh ?_
      obtain ⟨k', hk', htext⟩ := Table.contains_iff.1 hold
      exact Table.contains_iff.2 ⟨k', h.2 k' hk', htext⟩
  · rename_i hdrops
    rw [if_neg hdrops] at h' ⊢
    exact fun k hk => h k (h' k hk)

theorem owners (h : u.Keeps t t') : t.KeepsOwners t' := by
  unfold Keeps at h
  split at h
  · exact h.1
  · exact fun k hk => .inl (h k hk)

theorem saveToken (hu : u.storesTokens = true) (token : Token) :
    u.Keeps t ((Tables.saveToken token).apply t).2 := by
  unfold Keeps
  rw [if_pos hu]
  rcases hrun : (Tables.saveToken token).apply t with ⟨e | x, t'⟩
  · rw [saveToken_atomic token t t' e hrun]
    exact ⟨.of_eq rfl, fun _ hk => hk⟩
  · obtain ⟨hfresh, _, rfl⟩ := saveToken_ok hrun
    refine ⟨fun k hk => ?_, fun k hk => Table.mem_insert.2 (.inr ⟨hk, fun hkey => ?_⟩)⟩
    · rcases Table.mem_insert.1 hk with rfl | ⟨hk, _⟩
      · exact .inr hfresh
      · exact .inl hk
    · exact hfresh (Table.contains_iff.2 ⟨k, hk, hkey⟩)

theorem perform {γ : Type} (now : Instant) (c : Capability u γ) :
    u.Keeps t ((Tables.perform now c).apply t).2 := by
  cases c with
  | save token => exact .saveToken rfl token
  | saveToken token => exact .saveToken rfl token
  | deleteByIdList ids => exact fun k hk => (Table.mem_filter.1 hk).1
  | deleteByAppIdAndTokens appId texts => exact fun k hk => Table.mem_of_mem_eraseAll hk
  | upsert row => exact .of_eq (upsertAccessList_tokens row)
  | insertAll rows => exact .of_eq (insertAccessLists_tokens rows)
  | createDomain name description systemId =>
    exact .of_eq (createDomain_tokens now name description systemId)
  | createAppGroup name description domainId =>
    exact .of_eq (createGroup_tokens now name description domainId)
  | createApplication app => exact .of_eq (createApplication_tokens now app)
  | upsertAccessList row => exact .of_eq (upsertAccessList_tokens row)
  | getToken text =>
    simp only [Tables.perform, Change.apply_get_bind, Change.apply_liftExcept]
    exact .refl _ _
  | _ => exact .refl _ _

/-- What every statement keeps, the work of a transaction keeps. -/
theorem work {ρ : Type} (p : Program (Effect (Capability u)) ρ) (w : World) :
    u.Keeps w.tables ((p.run World.answerWork).run w).2.tables := by
  induction p generalizing w with
  | done a => exact .refl u _
  | ask e next ih =>
    have hstep : u.Keeps w.tables ((World.answerWork _ e).run w).2.tables := by
      cases e with
      | call c => exact .perform w.now c
      | now => exact .refl u _
      | mint => exact .refl u _
    exact hstep.trans (ih _ _)

end Keeps
end UseCase

/-! ## Calls -/

/-- The application that the call moves to another id. -/
def Port.movesFrom? {γ : Type} : Port γ → Option Int32
  | .updateApplicationId oldId newId _ _ => if newId = oldId then none else some oldId
  | _ => none

namespace World

open Tables

variable {w : World} {text : String} {appId : Int32}

theorem transaction_keepsOwners {u : UseCase} {γ : Type} (work : Work u γ) (w : World) :
    w.tables.KeepsOwners ((answerCall (.transaction u work)).run w).2.tables := by
  have htables : ((answerCall (.transaction u work)).run w).2.tables =
      if ((work.program.run answerWork).run w).1.toBool then
        ((work.program.run answerWork).run w).2.tables else w.tables := rfl
  rw [htables]
  split
  · exact (UseCase.Keeps.work work.program w).owners
  · exact .of_eq rfl

theorem answerCall_keepsOwners {γ : Type} {c : Port γ} (h : c.movesFrom? = none) (w : World) :
    w.tables.KeepsOwners ((answerCall c).run w).2.tables := by
  cases c with
  | transaction u work => exact transaction_keepsOwners work w
  | createDomain => exact .of_eq (createDomain_tokens ..)
  | updateDomain => exact .of_eq (updateDomain_tokens ..)
  | createGroup => exact .of_eq (createGroup_tokens ..)
  | updateGroup => exact .of_eq (updateGroup_tokens ..)
  | createApplication => exact .of_eq (createApplication_tokens ..)
  | updateApplication => exact .of_eq (renamed_tokens ..)
  | updateApplicationId oldId newId =>
    obtain rfl : newId = oldId := by
      by_contra hne
      rw [Port.movesFrom?, if_neg hne] at h
      cases h
    exact .of_eq (renamed_tokens ..)
  | deleteDomains | deleteGroups => exact fun k hk => .inl (Table.mem_filter.1 hk).1
  | _ => exact .of_eq rfl

/-- A token stays whose it is, unless the call moves the application, or the token was not there and
is stored for another one. -/
theorem answerCall_owned {γ : Type} (c : Port γ) (howned : w.tables.Owned text appId) :
    ((answerCall c).run w).2.tables.Owned text appId ∨
      (c.movesFrom? = some appId ∧ ∃ x, ((answerCall c).run w).1 = .ok x) ∨
      ∃ k ∈ ((answerCall c).run w).2.tables.tokens, k.token = text ∧ k.appId ≠ appId ∧
        ¬ w.tables.tokens.contains text := by
  cases hmoves : c.movesFrom? with
  | none => exact ((answerCall_keepsOwners hmoves w).owned howned).imp_right .inr
  | some id =>
    cases c with
    | updateApplicationId oldId newId name description =>
      obtain rfl : oldId = id := by
        rw [Port.movesFrom?] at hmoves
        split at hmoves
        · cases hmoves
        · exact Option.some.inj hmoves
      have hrun : (answerCall (.updateApplicationId oldId newId name description)).run w =
          (((updateApplication w.now oldId newId name description).apply w.tables).1,
            { w with tables := ((updateApplication w.now oldId newId name description).apply
              w.tables).2 }) := rfl
      rw [hrun]
      rcases happly : (updateApplication w.now oldId newId name description).apply w.tables with
        ⟨e | a, t'⟩
      · rw [updateApplication_atomic _ _ _ _ _ _ _ e happly]
        exact .inl howned
      · by_cases hid : appId = oldId
        · exact .inr (.inl ⟨congrArg some hid.symm, a, rfl⟩)
        · exact .inl (updateApplication_owned happly hid howned)
    | _ => cases hmoves

end World
end AccessRegistry
