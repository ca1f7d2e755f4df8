import AccessRegistry.Proofs.Acceptance
import AccessRegistry.Proofs.Authentication
import AccessRegistry.Proofs.Authorization

/-!
# AccessRegistry.Proofs.Relocation

An application that moves to another id takes its tokens and permissions along. Rows of the new id
would be overwritten or mixed up with them; that there are none follows from the references of the
tables.

* `relocate`           — what becomes of an id, and of the rows and answers that name it.
* `Tables.Movable`     — when a move is possible.
* `Tables.Relocated`   — all that a move does to the tables.
-/

namespace AccessRegistry

open AccessRegistry.Action World Tables

/-- Sends one id to another and leaves the rest. -/
def relocate (oldId newId id : Int32) : Int32 := if id = oldId then newId else id

def Token.relocate (oldId newId : Int32) (k : Token) : Token :=
  { k with appId := AccessRegistry.relocate oldId newId k.appId }

def AccessList.relocate (oldId newId : Int32) (l : AccessList) : AccessList :=
  { l with appId := AccessRegistry.relocate oldId newId l.appId }

def Application.relocate (now : Instant) (oldId newId : Int32) (name description : String)
    (a : Application) : Application :=
  if a.id = oldId then { a with id := newId, name, description, updatedAt := now } else a

/-- The identity of the application that moves gets its new id and name. -/
def AuthData.relocate (oldId newId : Int32) (name : String) (d : AuthData) : AuthData :=
  if d.appId = oldId then { d with appId := newId, appName := name } else d

def Decision.relocate (oldId newId : Int32) (name : String) : Decision → Decision
  | .authenticated d => .authenticated (d.relocate oldId newId name)
  | decision => decision

def Grant.relocate (oldId newId : Int32) (g : Grant) : Grant :=
  { g with owner := AccessRegistry.relocate oldId newId g.owner }

section Relocate

variable {oldId newId id : Int32}

/-- A move can be taken back, unless the new id was in use. -/
theorem relocate_relocate (h : newId = oldId ∨ id ≠ newId) :
    relocate newId oldId (relocate oldId newId id) = id := by
  unfold relocate
  grind

theorem Token.relocate_eq (oldId newId : Int32) (k : Token) :
    k.relocate oldId newId = if k.appId = oldId then { k with appId := newId } else k := by
  unfold Token.relocate AccessRegistry.relocate
  split <;> rfl

theorem AccessList.relocate_eq (oldId newId : Int32) (l : AccessList) :
    l.relocate oldId newId = if l.appId = oldId then { l with appId := newId } else l := by
  unfold AccessList.relocate AccessRegistry.relocate
  split <;> rfl

theorem Application.relocate_moved {now : Instant} {name description : String} {a : Application}
    (h : a.id = oldId) : a.relocate now oldId newId name description =
      { a with id := newId, name, description, updatedAt := now } := if_pos h

theorem Application.relocate_other {now : Instant} {name description : String} {a : Application}
    (h : a.id ≠ oldId) : a.relocate now oldId newId name description = a := if_neg h

theorem Token.relocate_relocate {k : Token} (h : newId = oldId ∨ k.appId ≠ newId) :
    (k.relocate oldId newId).relocate newId oldId = k :=
  congrArg (fun id => { k with appId := id }) (AccessRegistry.relocate_relocate h)

theorem AccessList.relocate_relocate {l : AccessList} (h : newId = oldId ∨ l.appId ≠ newId) :
    (l.relocate oldId newId).relocate newId oldId = l :=
  congrArg (fun id => { l with appId := id }) (AccessRegistry.relocate_relocate h)

theorem Grant.relocate_eq (oldId newId : Int32) (g : Grant) :
    g.relocate oldId newId = if g.owner = oldId then { g with owner := newId } else g := by
  unfold Grant.relocate AccessRegistry.relocate
  split <;> rfl

theorem Ledger.identity?_moveApplication (l : Ledger) {g : Grant} (name : String)
    (h : newId = oldId ∨ g.owner ≠ newId) :
    (l.moveApplication oldId newId name).identity? (g.relocate oldId newId) =
      (l.identity? g).map (AuthData.relocate oldId newId name) := by
  have hplace : (l.moveApplication oldId newId name).applications (g.relocate oldId newId).owner =
      (l.applications g.owner).map fun p => if g.owner = oldId then { p with name } else p := by
    rw [Grant.relocate_eq]
    by_cases howner : g.owner = oldId
    · subst howner
      simp [moveApplication]
    · have hnew : g.owner ≠ newId := h.elim (fun hsame => hsame ▸ howner) id
      simp [moveApplication, howner, hnew]
  unfold identity?
  rw [hplace, Grant.relocate_eq]
  cases l.applications g.owner with
  | none => rfl
  | some place =>
    have hgroup : (if g.owner = oldId then { place with name } else place).group = place.group := by
      split <;> rfl
    show (l.groups (if g.owner = oldId then { place with name } else place).group).bind _ =
      ((l.groups place.group).bind _).map _
    rw [hgroup]
    cases l.groups place.group with
    | none => rfl
    | some domain =>
      show (l.domains domain).bind _ = ((l.domains domain).bind _).map _
      cases l.domains domain with
      | none => rfl
      | some system =>
        refine congrArg some ?_
        by_cases howner : g.owner = oldId <;> simp [AuthData.relocate, howner]

end Relocate

namespace Tables

variable {t t' t'' : Tables} {now later : Instant} {oldId newId : Int32}
  {name name' description description' : String} {row row' : Application}

/-- The application is there, its new id is unused unless it keeps the old one, and no other
application of its group has the name. -/
def Movable (t : Tables) (oldId newId : Int32) (name : String) : Prop :=
  ∃ a ∈ t.applications, a.id = oldId ∧
    (newId = oldId ∨ ∀ b ∈ t.applications, b.id ≠ newId) ∧
    ∀ b ∈ t.applications, b.id ≠ oldId → b.applicationGroupId = a.applicationGroupId →
      b.name ≠ name

/-- What becomes of the tables: the rows of the application go along with it, and nothing else
changes. -/
structure Relocated (t t' : Tables) (now : Instant) (oldId newId : Int32)
    (name description : String) : Prop where
  tokens : t'.tokens.rows = t.tokens.rows.map (Token.relocate oldId newId)
  permissions :
    t'.accessLists.rows.Perm (t.accessLists.rows.map (AccessList.relocate oldId newId))
  /-- no two permissions get one key -/
  apart : ∀ l ∈ t.accessLists, ∀ m ∈ t.accessLists,
    (l.relocate oldId newId).key = (m.relocate oldId newId).key → l = m
  applications : t'.applications.rows.Perm
    (t.applications.rows.map (Application.relocate now oldId newId name description))
  groups : t'.groups = t.groups
  domains : t'.domains = t.domains
  nextGroupId : t'.nextGroupId = t.nextGroupId
  nextDomainId : t'.nextDomainId = t.nextDomainId

theorem updateApplication_succeeds_iff (now : Instant) (description : String) :
    (∃ row t', (updateApplication now oldId newId name description).apply t = (.ok row, t')) ↔
      t.Movable oldId newId name := by
  constructor
  · rintro ⟨row, t', h⟩
    obtain ⟨a, ha, hid, hunused, hfree, _, _⟩ := updateApplication_ok h
    refine ⟨a, ha, hid, ?_, fun b hb hne hgroup hname => hfree b hb hne hname hgroup⟩
    refine or_iff_not_imp_left.2 fun hne b hb heq => hunused hne ?_
    exact Table.contains_iff.2 ⟨b, hb, heq⟩
  · rintro ⟨a, ha, rfl, hunused, hfree⟩
    have hid : ¬ (newId ≠ a.id ∧ t.applications.contains newId) := by
      rintro ⟨hne, hused⟩
      obtain ⟨b, hb, heq⟩ := Table.contains_iff.1 hused
      exact (hunused.resolve_left hne) b hb heq
    have hname : ¬ t.applications.any fun b =>
        b.id ≠ a.id ∧ b.name = name ∧ b.applicationGroupId = a.applicationGroupId := by
      intro htaken
      obtain ⟨b, hb, htaken⟩ := Table.any_iff.1 htaken
      obtain ⟨hne, hname, hgroup⟩ := of_decide_eq_true htaken
      exact hfree b hb hne hgroup hname
    rw [apply_updateApplication, ← Application.key_eq, Table.find?_of_mem ha]
    exact ⟨_, _, (if_neg hid).trans (if_neg hname)⟩

section Move

variable (hwf : t.WellFormed)
  (h : (updateApplication now oldId newId name description).apply t = (.ok row, t'))

include h

theorem moved_row : row ∈ t'.applications ∧ row.id = newId := by
  obtain ⟨_, _, _, _, _, hrow, rfl⟩ := updateApplication_ok h
  refine ⟨?_, by rw [hrow]⟩
  dsimp only
  split <;> exact Table.mem_insert.2 (.inl rfl)

theorem moved_tokens : t'.tokens.rows = t.tokens.rows.map (Token.relocate oldId newId) := by
  obtain ⟨_, _, _, _, _, _, rfl⟩ := updateApplication_ok h
  rw [funext (Token.relocate_eq oldId newId)]
  dsimp only
  split
  · rename_i hsame
    refine ((List.map_congr_left fun k _ => ?_).trans (List.map_id _)).symm
    rw [hsame]
    exact ite_eq_right_iff.2 fun howner => by rw [← howner]
  · exact Table.rows_map fun k => by split <;> rfl

/-- Nothing refers to an id that no application has. -/
theorem unused_of_linkedTo {ρ κ : Type} [Keyed ρ κ] {u : Table ρ} {owner : ρ → Int32}
    (hlinked : u.LinkedTo t.applications owner) : newId = oldId ∨ ∀ r ∈ u, owner r ≠ newId := by
  obtain ⟨_, _, _, hunused, _⟩ := updateApplication_ok h
  refine or_iff_not_imp_left.2 fun hne r hr howner => ?_
  have hparent := hlinked r hr
  rw [howner] at hparent
  exact hunused hne hparent

include hwf

theorem permission_relocate_relocate :
    ∀ l ∈ t.accessLists, (l.relocate oldId newId).relocate newId oldId = l := by
  intro l hl
  exact AccessList.relocate_relocate
    ((unused_of_linkedTo h hwf.permissions).imp_right fun hnew => hnew l hl)

/-- What can be taken back has lost nothing: no two permissions get one key. -/
theorem moved_permissions_apart : ∀ l ∈ t.accessLists, ∀ m ∈ t.accessLists,
    (l.relocate oldId newId).key = (m.relocate oldId newId).key → l = m := by
  intro l hl m hm hkey
  obtain ⟨hid, hmethod⟩ := PermissionKey.mk.inj hkey
  have howner : l.appId = m.appId := calc
    l.appId = ((l.relocate oldId newId).relocate newId oldId).appId := by
      rw [permission_relocate_relocate hwf h l hl]
    _ = ((m.relocate oldId newId).relocate newId oldId).appId :=
      congrArg (AccessRegistry.relocate newId oldId) hid
    _ = m.appId := by rw [permission_relocate_relocate hwf h m hm]
  exact Table.eq_of_key_eq hl hm (congrArg₂ PermissionKey.mk howner hmethod)

theorem relocated_of_move : t.Relocated t' now oldId newId name description := by
  have hagrees := updateApplication_agrees hwf now oldId newId name description
  rw [h] at hagrees
  have hlists := congrArg Schema.Database.accessLists hagrees.2
  have happs := congrArg Schema.Database.applications hagrees.2
  obtain ⟨hgroups, hdomains, hnextGroup, hnextDomain⟩ : t'.groups = t.groups ∧
      t'.domains = t.domains ∧ t'.nextGroupId = t.nextGroupId ∧
      t'.nextDomainId = t.nextDomainId := by
    obtain ⟨_, _, _, _, _, _, rfl⟩ := updateApplication_ok h
    dsimp only
    split <;> exact ⟨rfl, rfl, rfl, rfl⟩
  refine ⟨moved_tokens h, ?_, moved_permissions_apart hwf h, Multiset.coe_eq_coe.1 happs, hgroups,
    hdomains, hnextGroup, hnextDomain⟩
  rw [funext (AccessList.relocate_eq oldId newId)]
  exact Multiset.coe_eq_coe.1 hlists

theorem wellFormed_of_move : t'.WellFormed := by
  have hedit := updateApplication_edit (t := t) now oldId newId name description
  rw [h] at hedit
  exact hedit.wellFormed hwf

/-! ## The way back -/

/-- Whatever name the application gets on the way back, its rows are what they were. -/
theorem tokens_back
    (h' : (updateApplication later newId oldId name' description').apply t' = (.ok row', t'')) :
    t''.tokens = t.tokens := by
  refine Table.ext ?_
  rw [moved_tokens h', moved_tokens h, List.map_map]
  refine (List.map_congr_left fun k hk => ?_).trans (List.map_id _)
  exact Token.relocate_relocate ((unused_of_linkedTo h hwf.tokens).imp_right fun hnew => hnew k hk)

theorem permissions_back
    (h' : (updateApplication later newId oldId name' description').apply t' = (.ok row', t'')) :
    t''.accessLists = t.accessLists := by
  have hrows : t''.accessLists.rows.Perm t.accessLists.rows := by
    refine (relocated_of_move (wellFormed_of_move hwf h) h').permissions.trans ?_
    refine ((relocated_of_move hwf h).permissions.map _).trans (.of_eq ?_)
    rw [List.map_map]
    exact (List.map_congr_left (permission_relocate_relocate hwf h)).trans (List.map_id _)
  exact Table.eq_of_mem_iff fun l => hrows.mem_iff

/-- The application can go back to its id and its name. -/
theorem movable_back {former : Application} (hformer : former ∈ t.applications)
    (hid : former.id = oldId) : t'.Movable newId oldId former.name := by
  have hmem (b : Application) : b ∈ t'.applications ↔
      ∃ a ∈ t.applications, a.relocate now oldId newId name description = b :=
    ((relocated_of_move hwf h).applications.mem_iff).trans List.mem_map
  refine ⟨_, (hmem _).2 ⟨former, hformer, rfl⟩, by rw [Application.relocate_moved hid],
    or_iff_not_imp_left.2 fun hne b hb => ?_, fun b hb hne hgroup hname => ?_⟩
  · obtain ⟨a, _, rfl⟩ := (hmem b).1 hb
    by_cases ha : a.id = oldId
    · rw [Application.relocate_moved ha]
      exact Ne.symm hne
    · rwa [Application.relocate_other ha]
  · obtain ⟨a, ha, rfl⟩ := (hmem b).1 hb
    have hstays : a.id ≠ oldId := fun heq => hne (by rw [Application.relocate_moved heq])
    rw [Application.relocate_other hstays] at hgroup hname
    rw [Application.relocate_moved hid] at hgroup
    have hsame : a = former :=
      hwf.applicationNames a ha former hformer (Prod.ext hname hgroup)
    exact hstays (hsame ▸ hid)

/-! ## What is asked of the tables -/

theorem moved_permissions (method : String) :
    t'.ledger.permissions newId method = t.ledger.permissions oldId method ∧
      (newId ≠ oldId → t'.ledger.permissions oldId method = none) := by
  rw [ledger_updateApplication hwf h]
  refine ⟨if_pos rfl, fun hne => ?_⟩
  exact (if_neg hne.symm).trans (if_pos rfl)

theorem moved_authData? (text : String) :
    t'.authData? text = (t.authData? text).map (AuthData.relocate oldId newId name) := by
  rw [authData?_eq, authData?_eq, grant?_updateApplication h, ledger_updateApplication hwf h]
  cases hgrant : t.grant? text with
  | none => rfl
  | some g =>
    obtain ⟨k, hk, rfl⟩ := Option.map_eq_some_iff.1 hgrant
    rw [Option.map_some, ← Grant.relocate_eq]
    refine t.ledger.identity?_moveApplication name ?_
    exact (unused_of_linkedTo h hwf.tokens).imp_right fun hnew => hnew k (Table.mem_of_find? hk)

end Move

end Tables

theorem Credentials.authenticate_relocated (w w' : World) (hnow : w'.now = w.now)
    {oldId newId : Int32} {name text : String}
    (h : w'.tables.authData? text =
      (w.tables.authData? text).map (AuthData.relocate oldId newId name)) :
    (outcome answer (Credentials.authenticate text) w').1 =
      (outcome answer (Credentials.authenticate text) w).1.map
        (Decision.relocate oldId newId name) := by
  rw [Credentials.authenticate_outcome, Credentials.authenticate_outcome, h, hnow]
  cases w.tables.authData? text with
  | none => rfl
  | some d =>
    -- a lifetime does not depend on whose it is
    have hlifetime : (d.relocate oldId newId name).isExpiredAt w.now = d.isExpiredAt w.now := by
      unfold AuthData.relocate
      split <;> rfl
    show Except.ok (if (d.relocate oldId newId name).isExpiredAt w.now then _ else _) = _
    rw [hlifetime]
    cases hover : d.isExpiredAt w.now <;> simp [hover, Except.map, Decision.relocate]

theorem World.outcome_updateApplicationId {w w' : World} {oldId newId : Int32}
    {name description : String} {row : Application} :
    outcome answer (call (.updateApplicationId oldId newId name description)) w = (.ok row, w') ↔
      (updateApplication w.now oldId newId name description).apply w.tables =
          (.ok row, w'.tables) ∧
        w' = { w with tables := w'.tables } := by
  have hrun : outcome answer (call (.updateApplicationId oldId newId name description)) w =
      ((updateApplication w.now oldId newId name description).apply w.tables).map id
        fun tables => { w with tables } := rfl
  rw [hrun]
  rcases (updateApplication w.now oldId newId name description).apply w.tables with ⟨result, t⟩
  constructor
  · intro h
    obtain ⟨hresult, rfl⟩ := Prod.mk.inj h
    exact ⟨Prod.ext hresult rfl, rfl⟩
  · rintro ⟨h, hw⟩
    obtain ⟨hresult, rfl⟩ := Prod.mk.inj h
    exact Prod.ext hresult hw.symm

/-- An application can move just when it is there, its new id is unused and its new name is free in
its group. It takes all its rows along, and no row is lost or changed otherwise. What it was allowed
it is allowed under the new id, and nothing under the old one; its tokens are accepted as before,
now with the new identity. It can move back, and then the tokens and permissions are what they
were. -/
theorem relocates_exactly (w : World) (hwf : w.tables.WellFormed) (oldId newId : Int32)
    (name description : String) :
    let move := call (.updateApplicationId oldId newId name description)
    ((∃ row w', outcome answer move w = (.ok row, w')) ↔ w.tables.Movable oldId newId name) ∧
    ∀ row w', outcome answer move w = (.ok row, w') →
      w' = { w with tables := w'.tables } ∧ row ∈ w'.tables.applications ∧ row.id = newId ∧
      w.tables.Relocated w'.tables w.now oldId newId name description ∧
      (∀ method,
        (outcome answer (Permissions.authorize newId method) w').1 =
          (outcome answer (Permissions.authorize oldId method) w).1 ∧
        (newId ≠ oldId →
          (outcome answer (Permissions.authorize oldId method) w').1 = .ok false)) ∧
      (∀ text later,
        (outcome answer (Credentials.authenticate text) { w' with now := later }).1 =
          (outcome answer (Credentials.authenticate text) { w with now := later }).1.map
            (Decision.relocate oldId newId name)) ∧
      ∀ later name' description',
        let back := outcome answer (call (.updateApplicationId newId oldId name' description'))
          { w' with now := later }
        (∀ former ∈ w.tables.applications, former.id = oldId → name' = former.name →
          ∃ row' w'', back = (.ok row', w'')) ∧
        ∀ row' w'', back = (.ok row', w'') →
          w''.tables.tokens = w.tables.tokens ∧ w''.tables.accessLists = w.tables.accessLists := by
  intro move
  refine ⟨?_, fun row w' hmove => ?_⟩
  · rw [← updateApplication_succeeds_iff w.now description]
    constructor
    · rintro ⟨row, w', h⟩
      exact ⟨row, w'.tables, (outcome_updateApplicationId.1 h).1⟩
    · rintro ⟨row, t, h⟩
      exact ⟨row, { w with tables := t }, outcome_updateApplicationId.2 ⟨h, rfl⟩⟩
  · obtain ⟨h, hw⟩ := outcome_updateApplicationId.1 hmove
    obtain ⟨hstored, hid⟩ := moved_row h
    refine ⟨hw, hstored, hid, relocated_of_move hwf h, fun method => ⟨?_, fun hne => ?_⟩,
      fun text later => ?_, fun later name' description' => ⟨?_, fun row' w'' hback => ?_⟩⟩
    · rw [Permissions.authorize_outcome, Permissions.authorize_outcome,
        (moved_permissions hwf h method).1]
    · rw [Permissions.authorize_outcome, (moved_permissions hwf h method).2 hne]
      rfl
    · exact Credentials.authenticate_relocated { w with now := later } { w' with now := later } rfl
        (moved_authData? hwf h text)
    · rintro former hformer hid rfl
      obtain ⟨row', t, hback⟩ := (updateApplication_succeeds_iff later description').2
        (movable_back hwf h hformer hid)
      exact ⟨row', { w' with now := later, tables := t },
        outcome_updateApplicationId.2 ⟨hback, rfl⟩⟩
    · have hback := (outcome_updateApplicationId.1 hback).1
      exact ⟨tokens_back hwf h hback, permissions_back hwf h hback⟩

/-- The administrator's application moves with its token and its permissions. -/
theorem relocates_admin :
    let w := (fresh ⟨0, 0⟩ fun _ => "").after [⟨.provision "root", ⟨0, 0⟩⟩]
    w.tables.WellFormed ∧ ∃ row w',
      outcome answer (call (.updateApplicationId 1 7 "moved" "")) w = (.ok row, w') ∧
      (outcome answer (Permissions.authorize 7 "admin/auth/login") w').1 = .ok true ∧
      (outcome answer (Permissions.authorize 1 "admin/auth/login") w').1 = .ok false := by
  intro w
  have hwf : w.tables.WellFormed := after_wellFormed ..
  let admin : Application := ⟨1, "admin", "", 1, .system, ⟨0, 0⟩, ⟨0, 0⟩⟩
  have honly : w.tables.applications.rows = [admin] := by decide +kernel
  have hallowed : (outcome answer (Permissions.authorize 1 "admin/auth/login") w).1 = .ok true := by
    decide +kernel
  clear_value w
  have hmem (a : Application) : a ∈ w.tables.applications ↔ a = admin := by
    rw [← List.mem_singleton, ← honly]
    rfl
  have hmovable : w.tables.Movable 1 7 "moved" := by
    refine ⟨admin, (hmem _).2 rfl, rfl, .inr fun b hb => ?_, fun b hb hne => ?_⟩
    · rw [(hmem b).1 hb]
      decide
    · exact absurd (congrArg Application.id ((hmem b).1 hb)) hne
  obtain ⟨hsucceeds, hmoves⟩ := relocates_exactly w hwf 1 7 "moved" ""
  obtain ⟨row, w', h⟩ := hsucceeds.2 hmovable
  obtain ⟨_, _, _, _, hauthorize, _⟩ := hmoves row w' h
  obtain ⟨hnew, hold⟩ := hauthorize "admin/auth/login"
  exact ⟨hwf, row, w', h, hnew.trans hallowed, hold (by decide)⟩

end AccessRegistry
