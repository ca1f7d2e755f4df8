import AccessRegistry.Proofs.Authentication

/-!
# AccessRegistry.Proofs.Lifecycle

What an operation that succeeds leaves alone, in all five tables. A row stays under its parent for
life, a rename touches the one row that it names, and what belongs to an application goes with it
when it moves or vanishes.

* `Table.Passes`        — how a table may change: which rows leave, what may become of the others,
  and which rows may come.
* `Operation.Lifecycle` — how an operation may change each of the tables.
* `rule_lifecycle`      — every operation that succeeds changes them so.
-/

namespace AccessRegistry

open AccessRegistry.Action World Tables

/-! ## Tables that change -/

namespace Table

variable {ρ κ : Type} [Keyed ρ κ] {t t' : Table ρ} {gone made : ρ → Prop}
  {becomes : ρ → ρ → Prop} {r s : ρ}

/-- Of the rows of a table those that are `gone` leave, every other one `becomes` a row of the next
table, and what is there besides was `made` under a key that was free. -/
structure Passes (t t' : Table ρ) (gone : ρ → Prop) (becomes : ρ → ρ → Prop)
    (made : ρ → Prop) : Prop where
  stays : ∀ r ∈ t, ¬ gone r → ∃ r' ∈ t', becomes r r'
  comes : ∀ r' ∈ t', (∃ r ∈ t, ¬ gone r ∧ becomes r r') ∨
    made r' ∧ ¬ t.contains (Keyed.key r')

namespace Passes

theorem refl (hgone : ∀ r ∈ t, ¬ gone r) (hsame : ∀ r ∈ t, becomes r r) :
    t.Passes t gone becomes made where
  stays r hr _ := ⟨r, hr, hsame r hr⟩
  comes r hr := .inl ⟨r, hr, hgone r hr, hsame r hr⟩

/-- A row is added under a key that was free. -/
theorem add (hgone : ∀ r ∈ t, ¬ gone r) (hsame : ∀ r ∈ t, becomes r r) (hmade : made s)
    (hfree : ¬ t.contains (Keyed.key s)) : t.Passes (t.insert s) gone becomes made where
  stays r hr _ := by
    refine ⟨r, mem_insert.2 (.inr ⟨hr, fun hkey => hfree ?_⟩), hsame r hr⟩
    rw [← hkey]
    exact contains_of_mem hr
  comes r hr := by
    rcases mem_insert.1 hr with rfl | ⟨hr, _⟩
    · exact .inr ⟨hmade, hfree⟩
    · exact .inl ⟨r, hr, hgone r hr, hsame r hr⟩

/-- The row `s` comes in the place of `r`. -/
theorem swap (hmem : ∀ x, x ∈ t' ↔ x = s ∨ x ∈ t ∧ Keyed.key x ≠ Keyed.key r) (hr : r ∈ t)
    (hgone : ∀ x ∈ t, ¬ gone x) (hsame : ∀ x ∈ t, Keyed.key x ≠ Keyed.key r → becomes x x)
    (hnew : becomes r s) : t.Passes t' gone becomes made where
  stays x hx _ := by
    by_cases hxr : Keyed.key x = Keyed.key r
    · obtain rfl := eq_of_key_eq hx hr hxr
      exact ⟨s, (hmem s).2 (.inl rfl), hnew⟩
    · exact ⟨x, (hmem x).2 (.inr ⟨hx, hxr⟩), hsame x hx hxr⟩
  comes x hx := by
    rcases (hmem x).1 hx with rfl | ⟨hx, hxr⟩
    · exact .inl ⟨r, hr, hgone r hr, hnew⟩
    · exact .inl ⟨x, hx, hgone x hx, hsame x hx hxr⟩

/-- A row is stored instead of one with its key. -/
theorem overwrite (hr : r ∈ t) (hkey : Keyed.key s = Keyed.key r) (hgone : ∀ x ∈ t, ¬ gone x)
    (hsame : ∀ x ∈ t, Keyed.key x ≠ Keyed.key r → becomes x x) (hnew : becomes r s) :
    t.Passes (t.insert s) gone becomes made := by
  refine swap (fun x => ?_) hr hgone hsame hnew
  rw [mem_insert, hkey]

/-- A row moves to a key that was free, if it is another one. -/
theorem move (hr : r ∈ t) (hfree : Keyed.key s ≠ Keyed.key r → ¬ t.contains (Keyed.key s))
    (hgone : ∀ x ∈ t, ¬ gone x) (hsame : ∀ x ∈ t, Keyed.key x ≠ Keyed.key r → becomes x x)
    (hnew : becomes r s) : t.Passes ((t.erase (Keyed.key r)).insert s) gone becomes made := by
  refine swap (fun x => ?_) hr hgone hsame hnew
  rw [mem_insert, mem_erase]
  refine or_congr_right ⟨And.left, fun ⟨hx, hxr⟩ => ⟨⟨hx, hxr⟩, fun hxs => ?_⟩⟩
  -- no other row has the key that the row moves to
  refine hfree (fun hsr => hxr (hxs.trans hsr)) ?_
  rw [← hxs]
  exact contains_of_mem hx

/-- Rows leave, and the others stay as they are. -/
theorem remove (hmem : ∀ r, r ∈ t' ↔ r ∈ t ∧ ¬ gone r) (hsame : ∀ r ∈ t, becomes r r) :
    t.Passes t' gone becomes made where
  stays r hr hgone := ⟨r, (hmem r).2 ⟨hr, hgone⟩, hsame r hr⟩
  comes r hr := by
    obtain ⟨hr, hgone⟩ := (hmem r).1 hr
    exact .inl ⟨r, hr, hgone, hsame r hr⟩

/-- Every row changes as `f` says. -/
theorem change {f : ρ → ρ} (hmem : ∀ r', r' ∈ t' ↔ ∃ r ∈ t, f r = r')
    (hgone : ∀ r ∈ t, ¬ gone r) (hf : ∀ r ∈ t, becomes r (f r)) :
    t.Passes t' gone becomes made where
  stays r hr _ := ⟨f r, (hmem _).2 ⟨r, hr, rfl⟩, hf r hr⟩
  comes r' hr' := by
    obtain ⟨r, hr, rfl⟩ := (hmem r').1 hr'
    exact .inl ⟨r, hr, hgone r hr, hf r hr⟩

end Passes

end Table

/-! ## What operations name -/

namespace Operation

variable {α : Type}

/-- The domain that an operation renames. -/
def renamedDomain? : Operation α → Option Int32
  | .writeDomain req => if req.id = 0 then none else some req.id
  | _ => none

/-- The group that an operation renames. -/
def renamedGroup? : Operation α → Option Int32
  | .updateGroup req => some req.id
  | .writeGroup req => if req.id = 0 then none else some req.id
  | _ => none

/-- The application that an operation renames. -/
def renamedApplication? : Operation α → Option Int32
  | .updateApplication req => some req.oldId
  | .writeApplication req => if req.id = 0 then none else some req.id
  | _ => none

/-- The id of an application after an operation. -/
def idAfter : Operation α → Int32 → Int32
  | .updateApplication req, id => if id = req.oldId then req.newId else id
  | _, id => id

/-- Whether an operation names a token to revoke it. -/
def Revokes : Operation α → Token → Prop
  | .revokeTokens appId texts, k => k.appId = appId ∧ k.token ∈ texts
  | .revokeAllTokens appId, k => k.appId = appId
  | _, _ => False

/-- Whether an operation names a permission to remove it. -/
def Withdraws : Operation α → AccessList → Prop
  | .setPermissions req, a =>
    a.appId = req.appId ∧ req.removeOld = true ∧ a.method ∉ req.methods.map MethodValue.method
  | .deletePermissions appId methods, a => a.appId = appId ∧ a.method ∈ methods
  | _, _ => False

/-- The domains that an operation may add. -/
def AddsDomain (now : Instant) : Operation α → Domain → Prop
  | .writeDomain req, d =>
    req.id = 0 ∧ d = ⟨d.id, req.name, req.description, req.systemId, now, now⟩
  | .provision _, d =>
    d = ⟨d.id, Provisioning.rootDomainName, "", defaultSystemId, now, now⟩
  | _, _ => False

/-- The groups that an operation may add. -/
def AddsGroup (now : Instant) : Operation α → AppGroup → Prop
  | .createGroup req, g =>
    g = ⟨g.id, req.name, req.description, req.domainId.getD defaultDomainId, now, now⟩
  | .writeGroup req, g =>
    req.id = 0 ∧ g = ⟨g.id, req.name, req.description, req.domainId.getD defaultDomainId, now, now⟩
  | .provision _, g => g = ⟨g.id, Provisioning.rootGroupName, "", g.domainId, now, now⟩
  | _, _ => False

/-- The applications that an operation may add. -/
def AddsApplication (now : Instant) : Operation α → Application → Prop
  | .createApplication req, a =>
    a = ⟨req.id, req.name, req.description, req.applicationGroupId, req.type, now, now⟩
  | .writeApplication req, a =>
    req.id = 0 ∧ a = ⟨a.id, req.name, req.description, req.applicationGroupId, req.type, now, now⟩
  | .provision _, a =>
    a = ⟨Provisioning.adminAppId, Provisioning.adminAppName, "", a.applicationGroupId, .system,
      now, now⟩
  | _, _ => False

/-- The tokens that an operation may add. -/
def AddsToken (now : Instant) : Operation α → Token → Prop
  | .createToken appId lifetime, k => k = ⟨k.token, appId, lifetime, now⟩
  | .provision token, k => k = ⟨token, Provisioning.adminAppId, neverExpires, now⟩
  | _, _ => False

/-- The permissions that an operation sets. -/
def Sets : Operation α → AccessList → Prop
  | .setPermission row, a => a = row
  | .setPermissions req, a => a ∈ req.rows
  | .provision _, a => a = ⟨Provisioning.adminAppId, Provisioning.adminLoginMethod, true⟩
  | _, _ => False

/-! ## What may become of rows -/

/-- A domain keeps its identity, and everything if it is not the one that is renamed. -/
structure KeepsDomain (op : Operation α) (d d' : Domain) : Prop where
  id : d'.id = d.id
  systemId : d'.systemId = d.systemId
  createdAt : d'.createdAt = d.createdAt
  unnamed : op.renamedDomain? ≠ some d.id → d' = d

/-- A group keeps its domain too. -/
structure KeepsGroup (op : Operation α) (g g' : AppGroup) : Prop where
  id : g'.id = g.id
  domainId : g'.domainId = g.domainId
  createdAt : g'.createdAt = g.createdAt
  unnamed : op.renamedGroup? ≠ some g.id → g' = g

/-- An application keeps its group and its type, and its id unless it is moved. -/
structure KeepsApplication (op : Operation α) (a a' : Application) : Prop where
  id : a'.id = op.idAfter a.id
  applicationGroupId : a'.applicationGroupId = a.applicationGroupId
  type : a'.type = a.type
  createdAt : a'.createdAt = a.createdAt
  unnamed : op.renamedApplication? ≠ some a.id → a' = a

/-- A token follows its application. -/
def KeepsToken (op : Operation α) (k k' : Token) : Prop :=
  k' = { k with appId := op.idAfter k.appId }

/-- A permission follows its application, and keeps its value unless it is set. -/
structure KeepsPermission (op : Operation α) (a a' : AccessList) : Prop where
  appId : a'.appId = op.idAfter a.appId
  method : a'.method = a.method
  value : a'.value = a.value ∨ op.Sets a'

/-- How an operation may change the tables. -/
structure Lifecycle (op : Operation α) (now : Instant) (t t' : Tables) : Prop where
  domains : t.domains.Passes t'.domains (fun d => d.id ∈ op.removal.domains) op.KeepsDomain
    (op.AddsDomain now)
  groups : t.groups.Passes t'.groups (fun g => t.ledger.groupGone op.removal g.id)
    op.KeepsGroup (op.AddsGroup now)
  applications : t.applications.Passes t'.applications
    (fun a => t.ledger.applicationGone op.removal a.id) op.KeepsApplication
    (op.AddsApplication now)
  tokens : t.tokens.Passes t'.tokens
    (fun k => t.ledger.applicationGone op.removal k.appId ∨ op.Revokes k) op.KeepsToken
    (op.AddsToken now)
  permissions : t.accessLists.Passes t'.accessLists
    (fun a => t.ledger.applicationGone op.removal a.appId ∨ op.Withdraws a) op.KeepsPermission
    op.Sets

/-! ## Operations that remove nothing -/

section

variable {op : Operation α} {now : Instant} {t t' : Tables}

theorem KeepsDomain.refl (d : Domain) : op.KeepsDomain d d := ⟨rfl, rfl, rfl, fun _ => rfl⟩

theorem KeepsGroup.refl (g : AppGroup) : op.KeepsGroup g g := ⟨rfl, rfl, rfl, fun _ => rfl⟩

theorem KeepsApplication.refl (hid : ∀ id, op.idAfter id = id) (a : Application) :
    op.KeepsApplication a a := ⟨(hid a.id).symm, rfl, rfl, rfl, fun _ => rfl⟩

theorem KeepsToken.refl (hid : ∀ id, op.idAfter id = id) (k : Token) : op.KeepsToken k k := by
  rw [KeepsToken, hid]

theorem KeepsPermission.refl (hid : ∀ id, op.idAfter id = id) (a : AccessList) :
    op.KeepsPermission a a := ⟨(hid a.appId).symm, rfl, .inl rfl⟩

theorem domain_stays (h : op.removal = {}) (d : Int32) : ¬ d ∈ op.removal.domains := by
  rw [h]
  exact List.not_mem_nil

theorem group_stays (h : op.removal = {}) (l : Ledger) (g : Int32) :
    ¬ l.groupGone op.removal g := by
  rw [h, Ledger.groupGone]
  cases l.groups g <;> simp

theorem application_stays (h : op.removal = {}) (l : Ledger) (a : Int32) :
    ¬ l.applicationGone op.removal a := by
  rw [h, Ledger.applicationGone_nothing]
  exact Bool.false_ne_true

/-- An operation that removes nothing and moves nothing. -/
structure Steady (op : Operation α) : Prop where
  removal : op.removal = {} := by rfl
  idAfter : ∀ id, op.idAfter id = id := by exact fun _ => rfl
  revokes : ∀ k, ¬ op.Revokes k := by exact fun _ h => h
  withdraws : ∀ a, ¬ op.Withdraws a := by exact fun _ h => h

theorem domains_same (h : op.removal = {}) : t.domains.Passes t.domains
    (fun d => d.id ∈ op.removal.domains) op.KeepsDomain (op.AddsDomain now) :=
  .refl (fun d _ => domain_stays h d.id) fun d _ => .refl d

theorem groups_same (h : op.removal = {}) : t.groups.Passes t.groups
    (fun g => t.ledger.groupGone op.removal g.id) op.KeepsGroup (op.AddsGroup now) :=
  .refl (fun g _ => group_stays h _ g.id) fun g _ => .refl g

theorem applications_same (h : op.removal = {}) (hid : ∀ id, op.idAfter id = id) :
    t.applications.Passes t.applications (fun a => t.ledger.applicationGone op.removal a.id)
      op.KeepsApplication (op.AddsApplication now) :=
  .refl (fun a _ => application_stays h _ a.id) fun a _ => .refl hid a

theorem token_stays (h : op.removal = {}) (hrevokes : ∀ k, ¬ op.Revokes k) (l : Ledger)
    (k : Token) : ¬ (l.applicationGone op.removal k.appId ∨ op.Revokes k) := by
  rintro (hgone | hgone)
  · exact application_stays h l _ hgone
  · exact hrevokes k hgone

theorem permission_stays (h : op.removal = {}) (hwithdraws : ∀ a, ¬ op.Withdraws a) (l : Ledger)
    (a : AccessList) : ¬ (l.applicationGone op.removal a.appId ∨ op.Withdraws a) := by
  rintro (hgone | hgone)
  · exact application_stays h l _ hgone
  · exact hwithdraws a hgone

theorem tokens_same (h : op.removal = {}) (hid : ∀ id, op.idAfter id = id)
    (hrevokes : ∀ k, ¬ op.Revokes k) : t.tokens.Passes t.tokens
      (fun k => t.ledger.applicationGone op.removal k.appId ∨ op.Revokes k) op.KeepsToken
      (op.AddsToken now) :=
  .refl (fun k _ => token_stays h hrevokes _ k) fun k _ => .refl hid k

theorem permissions_same (h : op.removal = {}) (hid : ∀ id, op.idAfter id = id)
    (hwithdraws : ∀ a, ¬ op.Withdraws a) : t.accessLists.Passes t.accessLists
      (fun a => t.ledger.applicationGone op.removal a.appId ∨ op.Withdraws a) op.KeepsPermission
      op.Sets :=
  .refl (fun a _ => permission_stays h hwithdraws _ a) fun a _ => .refl hid a

theorem Steady.lifecycle (h : op.Steady) : op.Lifecycle now t t where
  domains := domains_same h.removal
  groups := groups_same h.removal
  applications := applications_same h.removal h.idAfter
  tokens := tokens_same h.removal h.idAfter h.revokes
  permissions := permissions_same h.removal h.idAfter h.withdraws

theorem lifecycle_createDomain (hsteady : op.Steady) (hbelow : t.DomainsBelow)
    {name description : String} {systemId : Int32} {d : Domain}
    (hadds : ∀ id, op.AddsDomain now ⟨id, name, description, systemId, now, now⟩)
    (h : (Tables.createDomain now name description systemId).apply t = (.ok d, t')) :
    op.Lifecycle now t t' := by
  obtain ⟨_, _, rfl, rfl⟩ := createDomain_ok h
  have hstill : op.Lifecycle now t t := hsteady.lifecycle
  exact { hstill with
    domains := .add (fun d _ => domain_stays hsteady.removal d.id) (fun d _ => .refl d) (hadds _)
      hbelow.unused }

theorem lifecycle_updateDomain (hsteady : op.Steady) {id : Int32} {name description : String}
    {d : Domain} (hnamed : op.renamedDomain? = some id)
    (h : (Tables.updateDomain now id name description).apply t = (.ok d, t')) :
    op.Lifecycle now t t' := by
  obtain ⟨current, hcurrent, rfl, _, rfl, rfl⟩ := updateDomain_ok h
  have hstill : op.Lifecycle now t t := hsteady.lifecycle
  exact { hstill with
    domains := .overwrite hcurrent (by rfl) (fun d _ => domain_stays hsteady.removal d.id)
      (fun d _ _ => .refl d) ⟨rfl, rfl, rfl, fun hother => absurd hnamed hother⟩ }

theorem lifecycle_createGroup (hsteady : op.Steady) (hbelow : t.GroupsBelow)
    {name description : String} {domainId : Int32} {g : AppGroup}
    (hadds : ∀ id, op.AddsGroup now ⟨id, name, description, domainId, now, now⟩)
    (h : (Tables.createGroup now name description domainId).apply t = (.ok g, t')) :
    op.Lifecycle now t t' := by
  obtain ⟨_, _, rfl, rfl⟩ := createGroup_ok h
  have hstill : op.Lifecycle now t t := hsteady.lifecycle
  exact { hstill with
    groups := .add (fun g _ => group_stays hsteady.removal _ g.id) (fun g _ => .refl g) (hadds _)
      hbelow.unused }

theorem lifecycle_updateGroup (hsteady : op.Steady) {id : Int32} {name description : String}
    {g : AppGroup} (hnamed : op.renamedGroup? = some id)
    (h : (Tables.updateGroup now id name description).apply t = (.ok g, t')) :
    op.Lifecycle now t t' := by
  obtain ⟨current, hcurrent, rfl, _, rfl, rfl⟩ := updateGroup_ok h
  have hstill : op.Lifecycle now t t := hsteady.lifecycle
  exact { hstill with
    groups := .overwrite hcurrent (by rfl) (fun g _ => group_stays hsteady.removal _ g.id)
      (fun g _ _ => .refl g) ⟨rfl, rfl, rfl, fun hother => absurd hnamed hother⟩ }

theorem lifecycle_createApplication (hsteady : op.Steady) (app : NewApplication) {a : Application}
    (hadds : op.AddsApplication now
      ⟨app.id, app.name, app.description, app.applicationGroupId, app.type, now, now⟩)
    (h : (Tables.createApplication now app).apply t = (.ok a, t')) : op.Lifecycle now t t' := by
  obtain ⟨hfree, _, _, rfl, rfl⟩ := createApplication_ok h
  have hstill : op.Lifecycle now t t := hsteady.lifecycle
  exact { hstill with
    applications := .add (fun a _ => application_stays hsteady.removal _ a.id)
      (fun a _ => .refl hsteady.idAfter a) hadds hfree }

theorem lifecycle_saveToken (hsteady : op.Steady) {k : Token} (hadds : op.AddsToken now k)
    (h : (Tables.saveToken k).apply t = (.ok (), t')) : op.Lifecycle now t t' := by
  obtain ⟨hfree, _, rfl⟩ := saveToken_ok h
  have hstill : op.Lifecycle now t t := hsteady.lifecycle
  exact { hstill with
    tokens := .add (fun k _ => token_stays hsteady.removal hsteady.revokes _ k)
      (fun k _ => .refl hsteady.idAfter k) hadds hfree }

/-- An application is renamed, and moves with its tokens and permissions if it is to. -/
theorem lifecycle_updateApplication (hwf : t.WellFormed) (hremoval : op.removal = {})
    (hrevokes : ∀ k, ¬ op.Revokes k) (hwithdraws : ∀ a, ¬ op.Withdraws a)
    {oldId newId : Int32} {name description : String} {a : Application}
    (hnamed : op.renamedApplication? = some oldId)
    (hid : ∀ id, op.idAfter id = if id = oldId then newId else id)
    (h : (Tables.updateApplication now oldId newId name description).apply t = (.ok a, t')) :
    op.Lifecycle now t t' := by
  obtain ⟨current, hcurrent, rfl, hfree, _, rfl, rfl⟩ := updateApplication_ok h
  have happlications : t.applications.Passes
      ((t.applications.erase current.id).insert
        { current with id := newId, name, description, updatedAt := now })
      (fun a => t.ledger.applicationGone op.removal a.id) op.KeepsApplication
      (op.AddsApplication now) := by
    refine .move hcurrent hfree (fun a _ => application_stays hremoval _ a.id)
      (fun a _ hne => ⟨?_, rfl, rfl, rfl, fun _ => rfl⟩)
      ⟨?_, rfl, rfl, rfl, fun hother => absurd hnamed hother⟩
    · exact ((hid a.id).trans (if_neg hne)).symm
    · exact ((hid current.id).trans (if_pos rfl)).symm
  dsimp only
  split
  · rename_i hsame
    have hstill : ∀ id, op.idAfter id = id := fun id => by
      rw [hid, hsame]
      split
      · rename_i heq
        exact heq.symm
      · rfl
    exact
      { domains := domains_same hremoval
        groups := groups_same hremoval
        applications := happlications
        tokens := tokens_same hremoval hstill hrevokes
        permissions := permissions_same hremoval hstill hwithdraws }
  · rename_i hmoved
    refine
      { domains := domains_same hremoval
        groups := groups_same hremoval
        applications := happlications
        tokens := ?_
        permissions := ?_ }
    · refine .change (fun k' => Table.mem_map fun k => by split <;> rfl)
        (fun k _ => token_stays hremoval hrevokes _ k) fun k _ => ?_
      rw [KeepsToken, hid]
      split <;> rfl
    · -- no permission belongs to an id that no application has
      have hnew : ∀ b ∈ t.accessLists, b.appId ≠ newId := by
        rintro b hb rfl
        exact hfree hmoved (hwf.permissions b hb)
      refine .change (f := fun b => { b with appId := op.idAfter b.appId }) (fun b' => ?_)
        (fun b _ => permission_stays hremoval hwithdraws _ b) fun b _ => ⟨rfl, rfl, .inl rfl⟩
      refine (mem_moveChildren hnew b').trans ⟨?_, ?_⟩
      · rintro (⟨b, hb, hold, rfl⟩ | ⟨hb, hold⟩)
        · exact ⟨b, hb, by rw [hid, if_pos hold]⟩
        · exact ⟨b', hb, by rw [hid, if_neg hold]⟩
      · rintro ⟨b, hb, rfl⟩
        by_cases hold : b.appId = current.id
        · exact .inl ⟨b, hb, hold, by rw [hid, if_pos hold]⟩
        · rw [hid, if_neg hold]
          exact .inr ⟨hb, hold⟩

/-! ## Removing -/

/-- What is removed goes with everything under it, and nothing else changes. -/
theorem lifecycle_without (op : Operation α) (hwf : t.WellFormed) (hid : ∀ id, op.idAfter id = id)
    (hrevokes : ∀ k, ¬ op.Revokes k) (hwithdraws : ∀ a, ¬ op.Withdraws a) :
    op.Lifecycle now t (t.without op.removal) where
  domains := .remove (fun _ => Table.mem_eraseAll) fun d _ => .refl d
  groups := by
    refine .remove (fun g => ?_) fun g _ => .refl g
    rw [(hwf.lacks_groups op.removal).mem_iff, Bool.not_eq_true]
    rfl
  applications := by
    refine .remove (fun a => ?_) fun a _ => .refl hid a
    rw [(hwf.lacks_applications op.removal).mem_iff, Bool.not_eq_true]
    rfl
  tokens := by
    refine .remove (fun k => ?_) fun k _ => .refl hid k
    rw [(hwf.lacks_tokens op.removal).mem_iff]
    refine and_congr_right fun hk => ?_
    rw [Table.find?_of_mem hk, Option.any_some, or_iff_left (hrevokes k), Bool.not_eq_true]
  permissions := by
    refine .remove (fun a => ?_) fun a _ => .refl hid a
    rw [(hwf.lacks_permissions op.removal).mem_iff]
    refine and_congr_right fun ha => ?_
    rw [Table.find?_of_mem ha, Option.any_some, or_iff_left (hwithdraws a), Bool.not_eq_true]

theorem lifecycle_deleteTokens (hremoval : op.removal = {}) (hid : ∀ id, op.idAfter id = id)
    (hwithdraws : ∀ a, ¬ op.Withdraws a) {appId : Int32} {texts : List String} {n : Nat}
    (hrevokes : ∀ k ∈ t.tokens, op.Revokes k ↔ k.appId = appId ∧ k.token ∈ texts)
    (h : (deleteTokens appId texts).apply t = (.ok n, t')) : op.Lifecycle now t t' := by
  rw [apply_deleteTokens] at h
  cases h
  refine
    { domains := domains_same hremoval
      groups := groups_same hremoval
      applications := applications_same hremoval hid
      tokens := .remove (fun k => ?_) fun k _ => .refl hid k
      permissions := permissions_same hremoval hid hwithdraws }
  rw [Table.mem_eraseAll]
  refine and_congr_right fun hk => not_congr ?_
  rw [or_iff_right (application_stays hremoval _ _), hrevokes k hk, owned, List.mem_filter,
    Table.find?_of_mem hk, Option.any_some, decide_eq_true_eq]
  exact and_comm

/-! ## Permissions -/

theorem KeepsPermission.of_key (hid : ∀ id, op.idAfter id = id) {a a' : AccessList}
    (hkey : Keyed.key a' = Keyed.key a) (hvalue : a'.value = a.value ∨ op.Sets a') :
    op.KeepsPermission a a' := by
  obtain ⟨happ, hmethod⟩ := PermissionKey.mk.inj hkey
  exact ⟨by rw [hid, happ], hmethod, hvalue⟩

/-- Some permissions are removed, and `rows` are set. -/
theorem lifecycle_putPermissions (hremoval : op.removal = {}) (hid : ∀ id, op.idAfter id = id)
    (hrevokes : ∀ k, ¬ op.Revokes k) {left : Table AccessList} (rows : List AccessList)
    (hleft : ∀ a ∈ left, a ∈ t.accessLists ∧ ¬ op.Withdraws a)
    (hstays : ∀ a ∈ t.accessLists, ¬ op.Withdraws a →
      (∃ b ∈ rows, Keyed.key b = Keyed.key a) ∨ a ∈ left)
    (hrows : ∀ b ∈ rows, op.Sets b ∧ ∀ a, Keyed.key b = Keyed.key a → ¬ op.Withdraws a) :
    op.Lifecycle now t { t with accessLists := left.insertAll rows } where
  domains := domains_same hremoval
  groups := groups_same hremoval
  applications := applications_same hremoval hid
  tokens := tokens_same hremoval hid hrevokes
  permissions := by
    have hgone (a : AccessList) : ¬ op.Withdraws a →
        ¬ (t.ledger.applicationGone op.removal a.appId ∨ op.Withdraws a) := fun h =>
      (or_iff_right (application_stays hremoval _ _)).not.2 h
    constructor
    · intro a ha hgone
      have hkey : (left.insertAll rows).contains (Keyed.key a) := by
        refine Table.contains_insertAll ?_
        exact (hstays a ha fun h => hgone (.inr h)).imp_right Table.contains_of_mem
      obtain ⟨a', ha', hkey⟩ := Table.contains_iff.1 hkey
      refine ⟨a', ha', .of_key hid hkey ?_⟩
      rcases Table.mem_of_mem_insertAll ha' with hrow | hleft'
      · exact .inr (hrows a' hrow).1
      · rw [Table.eq_of_key_eq (hleft a' hleft').1 ha hkey]
        exact .inl rfl
    · intro a' ha'
      rcases Table.mem_of_mem_insertAll ha' with hrow | hleft'
      · obtain ⟨hsets, hnot⟩ := hrows a' hrow
        by_cases hused : t.accessLists.contains (Keyed.key a')
        · obtain ⟨a, ha, hkey⟩ := Table.contains_iff.1 hused
          exact .inl ⟨a, ha, hgone a (hnot a hkey.symm), .of_key hid hkey.symm (.inr hsets)⟩
        · exact .inr ⟨hsets, hused⟩
      · obtain ⟨ha, hnot⟩ := hleft a' hleft'
        exact .inl ⟨a', ha, hgone a' hnot, .refl hid a'⟩

/-! ## Setting up -/

theorem lifecycle_provision (hwf : t.WellFormed) (hdomains : t.DomainsBelow)
    (hgroups : t.GroupsBelow) {token : String} {o : BaselineOutcome}
    (h : (Tables.provision now token).apply t = (.ok o, t')) :
    (Operation.provision token).Lifecycle now t t' := by
  unfold Tables.provision at h
  obtain ⟨domain, t₁, hdomain, h⟩ := Change.apply_bind_ok.1 h
  obtain ⟨group, t₂, hgroup, h⟩ := Change.apply_bind_ok.1 h
  obtain ⟨app, t₃, happ, h⟩ := Change.apply_bind_ok.1 h
  obtain ⟨_, t₄, htoken, h⟩ := Change.apply_bind_ok.1 h
  obtain ⟨_, t₅, hpermission, h⟩ := Change.apply_bind_ok.1 h
  cases h
  obtain ⟨_, _, rfl, rfl⟩ := createDomain_ok hdomain
  obtain ⟨_, _, rfl, rfl⟩ := createGroup_ok hgroup
  obtain ⟨happfree, _, _, rfl, rfl⟩ := createApplication_ok happ
  obtain ⟨htokenfree, _, rfl⟩ := saveToken_ok htoken
  obtain ⟨_, rfl⟩ := upsertAccessList_ok hpermission
  -- no permission belongs to the application that was not there
  have hnone : ¬ t.accessLists.contains
      ⟨Provisioning.adminAppId, Provisioning.adminLoginMethod⟩ := by
    intro hused
    obtain ⟨a, ha, hkey⟩ := Table.contains_iff.1 hused
    refine happfree ?_
    rw [← (PermissionKey.mk.inj hkey).1]
    exact hwf.permissions a ha
  have hid : ∀ id, (Operation.provision token).idAfter id = id := fun _ => rfl
  exact
    { domains := .add (fun d _ => domain_stays rfl d.id) (fun d _ => .refl d) rfl hdomains.unused
      groups := .add (fun g _ => group_stays rfl _ g.id) (fun g _ => .refl g) rfl hgroups.unused
      applications := .add (fun a _ => application_stays rfl _ a.id) (fun a _ => .refl hid a) rfl
        happfree
      tokens := .add (fun k _ => token_stays rfl (fun _ => id) _ k) (fun k _ => .refl hid k) rfl
        htokenfree
      permissions := .add (fun a _ => permission_stays rfl (fun _ => id) _ a)
        (fun a _ => .refl hid a) rfl hnone }

/-! ## Operations -/

/-- The permissions that a list of methods leaves are those that it neither drops nor sets anew. -/
theorem mem_left {req : SetListRequest} {permissions : Table AccessList} {a : AccessList} :
    a ∈ req.left permissions ↔ a ∈ permissions ∧ ¬ (setPermissions req).Withdraws a ∧
      ¬ ∃ b ∈ req.rows, Keyed.key b = Keyed.key a := by
  have hdrop : (setPermissions req).Withdraws a ↔ a.appId = req.appId ∧ req.removeOld = true ∧
      a.method ∉ req.methods.map MethodValue.method := .rfl
  rw [SetListRequest.sets_iff, hdrop, SetListRequest.left]
  split
  · rename_i hold
    rw [Table.mem_filter, Table.mem_filter, hold]
    simp only [Bool.not_eq_true', decide_eq_false_iff_not, List.contains_iff_mem, true_and]
    tauto
  · rename_i hold
    rw [Table.mem_filter]
    simp only [Bool.not_eq_true', decide_eq_false_iff_not, List.contains_iff_mem]
    tauto

/-- An operation that succeeds changes only the rows that it names and what they own. -/
theorem lifecycle_done {op : Operation α} {x : α} {w w' : World} (hwf : w.tables.WellFormed)
    (hdomains : w.tables.DomainsBelow) (hgroups : w.tables.GroupsBelow) (h : op.Done w x w') :
    op.Lifecycle w.now w.tables w'.tables := by
  cases op with
  | writeDomain req =>
    simp only [Done] at h
    split at h
    · rename_i hid
      exact lifecycle_createDomain {} hdomains (fun _ => ⟨hid, rfl⟩) h
    · rename_i hid
      exact lifecycle_updateDomain {} (if_neg hid) h
  | deleteDomains ids =>
    rw [eq_without_deleteDomains h]
    exact lifecycle_without (.deleteDomains ids) hwf (fun _ => rfl) (fun _ => id) fun _ => id
  | createGroup req => exact lifecycle_createGroup {} hgroups (fun _ => rfl) h
  | updateGroup req => exact lifecycle_updateGroup {} rfl h
  | writeGroup req =>
    simp only [Done] at h
    split at h
    · rename_i hid
      exact lifecycle_createGroup {} hgroups (fun _ => ⟨hid, rfl⟩) h
    · rename_i hid
      exact lifecycle_updateGroup {} (if_neg hid) h
  | deleteGroups ids =>
    rw [eq_without_deleteGroups h]
    exact lifecycle_without (.deleteGroups ids) hwf (fun _ => rfl) (fun _ => id) fun _ => id
  | createApplication req => exact lifecycle_createApplication {} req rfl h
  | updateApplication req =>
    exact lifecycle_updateApplication hwf rfl (fun _ => id) (fun _ => id) rfl (fun _ => rfl) h
  | writeApplication req =>
    simp only [Done] at h
    split at h
    · rename_i hid
      obtain ⟨id, h⟩ := h
      exact lifecycle_createApplication {} { req with id } ⟨hid, rfl⟩ h
    · rename_i hid
      refine lifecycle_updateApplication hwf rfl (fun _ => id) (fun _ => id) (if_neg hid)
        (fun id => ?_) h
      show id = _
      split
      · assumption
      · rfl
  | deleteApplications ids =>
    rw [eq_without_deleteApplications h]
    exact lifecycle_without (.deleteApplications ids) hwf (fun _ => rfl) (fun _ => id) fun _ => id
  | createToken appId lifetime =>
    obtain ⟨_, _, _, h⟩ := h
    exact lifecycle_saveToken {} (by rfl) h
  | revokeTokens appId texts =>
    exact lifecycle_deleteTokens rfl (fun _ => rfl) (fun _ => id) (fun _ _ => .rfl) h
  | revokeAllTokens appId =>
    refine lifecycle_deleteTokens rfl (fun _ => rfl) (fun _ => id) (fun k hk => ?_) h
    refine ⟨fun howner => ⟨howner, ?_⟩, And.left⟩
    exact List.mem_map.2 ⟨k, mem_tokensWhere.2 ⟨hk, decide_eq_true howner⟩, rfl⟩
  | setPermission row =>
    obtain ⟨_, htables⟩ := upsertAccessList_ok h
    rw [htables]
    refine lifecycle_putPermissions rfl (fun _ => rfl) (fun _ => id) [row]
      (fun a ha => ⟨ha, id⟩) (fun a ha _ => .inr ha) fun b hb => ?_
    exact ⟨List.mem_singleton.1 hb, fun _ _ => id⟩
  | setPermissions req =>
    rw [show w'.tables = _ from h]
    refine lifecycle_putPermissions rfl (fun _ => rfl) (fun _ => id) _ (fun a ha => ?_)
      (fun a ha hnot => ?_) fun b hb => ⟨hb, fun a hkey hdrop => ?_⟩
    · obtain ⟨ha, hnot, _⟩ := mem_left.1 ha
      exact ⟨ha, hnot⟩
    · exact or_iff_not_imp_left.2 fun hlisted => mem_left.2 ⟨ha, hnot, hlisted⟩
    · -- what is set is listed, so it is not dropped
      obtain ⟨m, hm, rfl⟩ := List.mem_map.1 hb
      refine hdrop.2.2 ?_
      rw [← (PermissionKey.mk.inj hkey).2]
      exact List.mem_map.2 ⟨m, hm, rfl⟩
  | deletePermissions appId methods =>
    rw [show w'.tables = _ from (Prod.mk.inj h).2.symm]
    refine lifecycle_putPermissions rfl (fun _ => rfl) (fun _ => id) [] (fun a ha => ?_)
      (fun a ha hnot => .inr ?_) fun b hb => absurd hb List.not_mem_nil
    · obtain ⟨ha, hkept⟩ := Table.mem_filter.1 ha
      refine ⟨ha, fun hnamed => ?_⟩
      obtain ⟨happ, hmethod⟩ := hnamed
      simp [happ, hmethod] at hkept
    · refine Table.mem_filter.2 ⟨ha, ?_⟩
      rw [Bool.not_eq_true', decide_eq_false_iff_not, List.contains_iff_mem]
      exact hnot
  | provision token =>
    simp only [Done] at h
    split at h
    · exact lifecycle_provision hwf hdomains hgroups h
    · rw [h]
      exact Steady.lifecycle {}
  | _ =>
    rw [show w'.tables = _ from h]
    exact Steady.lifecycle {}

/-- A successful operation changes rows only where their life allows it, whatever else its request
says. -/
theorem rule_lifecycle (op : Operation α) {x : α} {w w' : World} (hwf : w.tables.WellFormed)
    (hdomains : w.tables.DomainsBelow) (hgroups : w.tables.GroupsBelow)
    (h : outcome answer op.rule w = (.ok x, w')) : op.Lifecycle w.now w.tables w'.tables := by
  have hdone := op.rule_writes w
  rw [Writes, Ends, h] at hdone
  exact lifecycle_done hwf hdomains hgroups hdone

/-- The administrator is renamed by a request that names another group and another type. -/
theorem lifecycle_of_misplaced_rename :
    let w := (fresh ⟨0, 0⟩ fun _ => "").after [⟨.provision "root", ⟨0, 0⟩⟩]
    let op := writeApplication ⟨1, "chief", "", 7, .mobile⟩
    w.tables.WellFormed ∧ w.tables.DomainsBelow ∧ w.tables.GroupsBelow ∧
      ∃ x w', outcome answer op.rule w = (.ok x, w') ∧ op.Lifecycle w.now w.tables w'.tables := by
  intro w op
  have hwf : w.tables.WellFormed := after_wellFormed _ _ _
  have hdomains : ∀ d ∈ w.tables.domains.rows, d.id < w.tables.nextDomainId := by decide +kernel
  have hgroups : ∀ g ∈ w.tables.groups.rows, g.id < w.tables.nextGroupId := by decide +kernel
  have hok : (outcome answer op.rule w).1.toBool = true := by decide +kernel
  cases h : outcome answer op.rule w with
  | mk r w' =>
    cases r with
    | error f =>
      rw [h] at hok
      cases hok
    | ok x =>
      exact ⟨hwf, hdomains, hgroups, x, w', rfl, rule_lifecycle op hwf hdomains hgroups h⟩

end

end Operation

end AccessRegistry
