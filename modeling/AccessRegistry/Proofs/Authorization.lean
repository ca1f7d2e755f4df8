import AccessRegistry.Proofs.Agreement

/-!
# AccessRegistry.Proofs.Authorization

Asking for a permission at the end of a history gives what the last write of it said, and no if
there was none since the application came to its id.
-/

namespace AccessRegistry

open AccessRegistry.Action World

/-- The event created the application with this id. -/
def Event.Creates : Event → Int32 → Prop
  | ⟨.createApplication _, .ok out, _, _⟩, id => out.app.id = id
  | ⟨.writeApplication req, .ok out, _, _⟩, id => req.id = 0 ∧ out.app.id = id
  | _, _ => False

theorem Permissions.authorize_outcome (w : World) (appId : Int32) (method : String) :
    outcome answer (Permissions.authorize appId method) w =
      (.ok ((w.tables.ledger.permissions appId method).getD false), w) := by
  apply outcome_eq_of_ends
  unfold Permissions.authorize
  rw [ends_bind, ends_attempt, ends_look (f := fun t => t.accessList appId method) rfl,
    Tables.accessList, Tables.ledger_permissions]
  cases w.tables.accessLists.find? ⟨appId, method⟩ with
  | none => exact ⟨rfl, rfl⟩
  | some row => exact ⟨rfl, rfl⟩

/-- No permission waits for an application that is not there. -/
theorem Tables.permissions_createApplication {t t' : Tables} (hwf : t.WellFormed) {now : Instant}
    {app : NewApplication} {a : Application}
    (h : (createApplication now app).apply t = (.ok a, t')) (method : String) :
    t'.ledger.permissions a.id method = none := by
  obtain ⟨hunused, _, _, rfl, _⟩ := createApplication_ok h
  rw [ledger_createApplication h]
  show t.ledger.permissions app.id method = none
  rw [ledger_permissions, Option.map_eq_none_iff]
  cases hrow : t.accessLists.find? ⟨app.id, method⟩ with
  | none => rfl
  | some row =>
    have howner := hwf.permissions row (Table.mem_of_find? hrow)
    have hkey : row.appId = app.id := (PermissionKey.mk.inj (Table.key_of_find? hrow)).1
    rw [hkey] at howner
    exact absurd howner hunused

theorem World.permissions_of_creates {w : World} (hwf : w.tables.WellFormed) {o : Order}
    {id : Int32} (h : (w.event o).Creates id) (method : String) :
    (w.carryOut o).2.tables.ledger.permissions id method = none := by
  obtain ⟨op, time⟩ := o
  rcases w.event_cases ⟨op, time⟩ with ⟨f, hevent, _⟩ | ⟨x, hevent, hdone⟩
  · rw [hevent] at h
    cases op <;> exact False.elim h
  · rw [hevent] at h
    cases op with
    | createApplication req =>
      cases h
      exact Tables.permissions_createApplication hwf hdone method
    | writeApplication req =>
      obtain ⟨hid, rfl⟩ := h
      simp only [Operation.Done, if_pos hid] at hdone
      obtain ⟨_, hdone⟩ := hdone
      exact Tables.permissions_createApplication hwf hdone method
    | _ => exact False.elim h

/-- After any operations, asking for a permission gives what the history says, and no if it says
nothing. An application that is created starts without permissions, whoever had its id before. -/
theorem authorize_after (now : Instant) (mint : Nat → String) (orders : List Order) :
    let w := (fresh now mint).after orders
    let l := Ledger.ofHistory ((fresh now mint).history orders)
    (∀ appId method, (outcome answer (Permissions.authorize appId method) w).1 =
      .ok ((l.permissions appId method).getD false)) ∧
    ∀ (o : Order) (id : Int32), (w.event o).Creates id → ∀ method,
      (outcome answer (Permissions.authorize id method) (w.carryOut o).2).1 = .ok false := by
  intro w l
  refine ⟨fun appId method => ?_, fun o id hcreates method => ?_⟩
  · rw [Permissions.authorize_outcome, ledger_after]
  · have hnone := permissions_of_creates (after_wellFormed now mint orders) hcreates method
    rw [Permissions.authorize_outcome, hnone]
    rfl

-- A list with a method twice is refused as a whole, and whoever gets the id of the administrator
-- gets none of its permissions.
example :
    let w := (fresh ⟨0, 0⟩ fun _ => "").after [
      ⟨.createApplication ⟨1, "other", "", 1, .mobile⟩, ⟨3, 0⟩⟩,
      ⟨.updateApplication ⟨1, 7, "admin", ""⟩, ⟨2, 0⟩⟩,
      ⟨.setPermissions ⟨1, true, [⟨"a", true⟩, ⟨"a", true⟩]⟩, ⟨1, 0⟩⟩,
      ⟨.provision "root", ⟨0, 0⟩⟩]
    (outcome answer (Permissions.authorize 7 Provisioning.adminLoginMethod) w).1 = .ok true ∧
    (outcome answer (Permissions.authorize 1 Provisioning.adminLoginMethod) w).1 = .ok false := by
  decide +kernel

end AccessRegistry
