import AccessRegistry.Proofs.Agreement

/-!
# AccessRegistry.Proofs.Authentication

Presenting a token at the end of a history. `Held` follows a token through the events: from the one
that issued it, past those that did not remove it, to its present owner. `held_iff` shows that the
tables hold just the tokens that are held, so that the answer can be read off the history.
-/

namespace AccessRegistry

open AccessRegistry.Action World

/-- What a token was issued for, and whom it belongs to. -/
structure Grant where
  owner : Int32
  lifetime : Int64
  since : Instant
deriving DecidableEq, Repr

def Token.grant (k : Token) : Grant := ⟨k.appId, k.expireTime, k.createdAt⟩

/-! ## The way of a token -/

namespace Event

/-- The event made and stored the token, by creating it or by setting up the registry. -/
def Issues : Event → String → Grant → Prop
  | ⟨.createToken appId lifetime, .ok _, now, some made⟩, text, g =>
    text = made ∧ g = ⟨appId, lifetime, now⟩
  | ⟨.provision token, .ok .provisioned, now, _⟩, text, g =>
    text = token ∧ g = ⟨Provisioning.adminAppId, neverExpires, now⟩
  | _, _, _ => False

/-- The event revoked the token, or deleted its owner, the owner's group or the group's domain; `l`
is the ledger before the event. -/
def Removes (l : Ledger) : Event → String → Grant → Prop
  | ⟨.revokeTokens appId texts, .ok _, _, _⟩, text, g => appId = g.owner ∧ text ∈ texts
  | ⟨.revokeAllTokens appId, .ok _, _, _⟩, _, g => appId = g.owner
  | ⟨op, .ok _, _, _⟩, _, g => l.applicationGone op.removal g.owner = true
  | _, _, _ => False

/-- The grant after the event: a token goes with its owner to another id. -/
def follow : Event → Grant → Grant
  | ⟨.updateApplication req, .ok _, _, _⟩, g =>
    if g.owner = req.oldId then { g with owner := req.newId } else g
  | _, g => g

end Event

/-- The token was issued, and nothing removed it since; the grant is the present one. -/
inductive Held (text : String) : List Event → Grant → Prop where
  | issued {e : Event} {earlier : List Event} {g : Grant} :
      e.Issues text g → Held text (e :: earlier) g
  | kept {e : Event} {earlier : List Event} {g : Grant} :
      Held text earlier g → ¬ e.Removes (Ledger.ofHistory earlier) text g →
      Held text (e :: earlier) (e.follow g)

theorem not_held_nil {text : String} {g : Grant} : ¬ Held text [] g := fun h => nomatch h

theorem held_cons {text : String} {e : Event} {earlier : List Event} {g : Grant} :
    Held text (e :: earlier) g ↔
      e.Issues text g ∨
        ∃ g₀, Held text earlier g₀ ∧ ¬ e.Removes (Ledger.ofHistory earlier) text g₀ ∧
          e.follow g₀ = g := by
  constructor
  · rintro (h | ⟨h, hkept⟩)
    · exact .inl h
    · exact .inr ⟨_, h, hkept, rfl⟩
  · rintro (h | ⟨g₀, h, hkept, rfl⟩)
    · exact .issued h
    · exact .kept h hkept

/-! ## Tokens in the tables -/

namespace Tables

variable {t t' : Tables} {text : String}

def grant? (t : Tables) (text : String) : Option Grant := (t.tokens.find? text).map Token.grant

theorem grant?_saveToken {token : Token} (h : (saveToken token).apply t = (.ok (), t')) :
    t.grant? token.token = none ∧ ∀ text,
      t'.grant? text = if text = token.token then some token.grant else t.grant? text := by
  obtain ⟨hfresh, _, rfl⟩ := saveToken_ok h
  refine ⟨?_, fun text => Table.map_find?_insert _ _ _⟩
  rw [Table.contains, Option.not_isSome_iff_eq_none] at hfresh
  rw [grant?, hfresh]
  rfl

theorem grant?_deleteTokens {appId : Int32} {texts : List String} {n : Nat}
    (h : (deleteTokens appId texts).apply t = (.ok n, t')) :
    t'.grant? text =
      (t.grant? text).filter fun g => !decide (appId = g.owner ∧ text ∈ texts) := by
  rw [apply_deleteTokens] at h
  cases h
  simp only [grant?, Table.find?_eraseAll, owned, List.mem_filter]
  cases hrow : t.tokens.find? text with
  | none => simp
  | some k =>
    by_cases htext : text ∈ texts
    · by_cases howner : k.appId = appId
      · simp [htext, howner, Token.grant, Option.filter]
      · simp [htext, howner, Ne.symm howner, Token.grant, Option.filter]
    · simp [htext, Option.filter]

theorem grant?_without (h : t.WellFormed) (r : Removal) :
    (t.without r).grant? text =
      (t.grant? text).filter fun g => !t.ledger.applicationGone r g.owner := by
  rw [grant?, (h.lacks_tokens r).map_find? Token.grant text, grant?]
  cases t.tokens.find? text with
  | none => rfl
  | some k =>
    cases hgone : t.ledger.applicationGone r k.appId <;> simp [hgone, Token.grant, Option.filter]

theorem mem_tokensWhere {p : Token → Bool} {k : Token} :
    k ∈ t.tokensWhere p ↔ k ∈ t.tokens ∧ p k = true := by
  rw [tokensWhere, List.mem_mergeSort, Table.select, List.mem_filter]
  rfl

/-- All tokens of an application are those that it owns. -/
theorem mem_tokens_of_grant? {appId : Int32} {g : Grant} (h : t.grant? text = some g)
    (howner : g.owner = appId) :
    text ∈ (t.tokensWhere fun k => k.appId = appId).map Token.token := by
  obtain ⟨k, hk, rfl⟩ := Option.map_eq_some_iff.1 h
  obtain ⟨hmem, rfl⟩ := Table.find?_eq_some_iff.1 hk
  refine List.mem_map.2 ⟨k, mem_tokensWhere.2 ⟨hmem, ?_⟩, rfl⟩
  exact decide_eq_true howner

theorem grant?_deleteAllTokens {appId : Int32} {n : Nat}
    (h : (deleteTokens appId ((t.tokensWhere fun k => k.appId = appId).map Token.token)).apply t =
      (.ok n, t')) :
    t'.grant? text = (t.grant? text).filter fun g => !decide (appId = g.owner) := by
  rw [grant?_deleteTokens h]
  cases hgrant : t.grant? text with
  | none => rfl
  | some g =>
    by_cases howner : appId = g.owner
    · have hlisted := mem_tokens_of_grant? hgrant howner.symm
      simp [Option.filter, howner, howner ▸ hlisted]
    · simp [Option.filter, howner]

theorem grant?_updateApplication {now : Instant} {oldId newId : Int32} {name description : String}
    {a : Application}
    (h : (updateApplication now oldId newId name description).apply t = (.ok a, t')) :
    t'.grant? text = (t.grant? text).map fun g =>
      if g.owner = oldId then { g with owner := newId } else g := by
  obtain ⟨_, _, _, _, _, _, rfl⟩ := updateApplication_ok h
  rw [grant?, grant?, Option.map_map]
  dsimp only
  split
  · rename_i hsame
    congr 1
    funext k
    by_cases hk : k.appId = oldId <;> simp [Token.grant, hk, hsame]
  · have hfind : ∀ f : Token → Token, (∀ k, Keyed.key (f k) = Keyed.key k) →
        (t.tokens.map f).find? text = (t.tokens.find? text).map f :=
      fun f hf => Table.find?_map hf
    rw [moveChildren]
    dsimp only
    rw [hfind _ fun k => by split <;> rfl, Option.map_map]
    congr 1
    funext k
    by_cases hk : k.appId = oldId <;> simp [Token.grant, hk]

theorem grant?_provision {now : Instant} {token : String} {o : BaselineOutcome}
    (h : (provision now token).apply t = (.ok o, t')) :
    t.grant? token = none ∧ ∀ text,
      t'.grant? text =
        if text = token then some ⟨Provisioning.adminAppId, neverExpires, now⟩
        else t.grant? text := by
  unfold provision at h
  obtain ⟨domain, t₁, hdomain, h⟩ := Change.apply_bind_ok.1 h
  obtain ⟨group, t₂, hgroup, h⟩ := Change.apply_bind_ok.1 h
  obtain ⟨app, t₃, happ, h⟩ := Change.apply_bind_ok.1 h
  obtain ⟨_, t₄, htoken, h⟩ := Change.apply_bind_ok.1 h
  obtain ⟨_, t₅, hpermission, h⟩ := Change.apply_bind_ok.1 h
  cases h
  -- only the fourth change is about tokens
  obtain ⟨hfresh, hgrant⟩ := grant?_saveToken htoken
  obtain ⟨_, _, rfl, rfl⟩ := createDomain_ok hdomain
  obtain ⟨_, _, rfl, rfl⟩ := createGroup_ok hgroup
  obtain ⟨_, _, _, rfl, rfl⟩ := createApplication_ok happ
  obtain ⟨_, rfl⟩ := upsertAccessList_ok hpermission
  exact ⟨hfresh, hgrant⟩

end Tables

namespace Operation

/-- The operations that may issue, remove or move tokens. -/
def aboutTokens {α : Type} : Operation α → Bool
  | .createToken .. | .revokeTokens .. | .revokeAllTokens .. | .provision .. => true
  | .updateApplication .. => true
  | .deleteDomains .. | .deleteGroups .. | .deleteApplications .. => true
  | _ => false

theorem Done.tokens_eq {α : Type} {op : Operation α} {x : α} {w w' : World}
    (h : op.Done w x w') (hop : op.aboutTokens = false) : w'.tables.tokens = w.tables.tokens := by
  cases op with
  | createToken | revokeTokens | revokeAllTokens | provision => cases hop
  | updateApplication | deleteDomains | deleteGroups | deleteApplications => cases hop
  | createApplication req => exact Tables.Change.tokens_of_ok h (Tables.createApplication_tokens ..)
  | writeApplication req =>
    simp only [Done] at h
    split at h
    · obtain ⟨_, h⟩ := h
      exact Tables.Change.tokens_of_ok h (Tables.createApplication_tokens ..)
    · exact Tables.Change.tokens_of_ok h (Tables.renamed_tokens ..)
  | createGroup req => exact Tables.Change.tokens_of_ok h (Tables.createGroup_tokens ..)
  | updateGroup req => exact Tables.Change.tokens_of_ok h (Tables.updateGroup_tokens ..)
  | writeGroup req =>
    simp only [Done] at h
    split at h
    · exact Tables.Change.tokens_of_ok h (Tables.createGroup_tokens ..)
    · exact Tables.Change.tokens_of_ok h (Tables.updateGroup_tokens ..)
  | writeDomain req =>
    simp only [Done] at h
    split at h
    · exact Tables.Change.tokens_of_ok h (Tables.createDomain_tokens ..)
    · exact Tables.Change.tokens_of_ok h (Tables.updateDomain_tokens ..)
  | setPermission row => exact Tables.Change.tokens_of_ok h (Tables.upsertAccessList_tokens ..)
  | setPermissions req =>
    rw [show w'.tables = _ from h]
  | deletePermissions appId methods => exact (congrArg (fun r => r.2.tokens) h).symm
  | _ => exact congrArg Tables.tokens h

end Operation

theorem Ledger.applicationGone_nothing (l : Ledger) (a : Int32) :
    l.applicationGone {} a = false := by
  have hnil : ([] : List Int32).contains = fun _ => false := rfl
  simp [Ledger.applicationGone, Ledger.groupGone, hnil]

namespace Event

/-- How a token has a grant after an event: the event issued it, or it was there and was not
removed. -/
def Leaves (e : Event) (l : Ledger) (text : String) (before : Option Grant) (g : Grant) : Prop :=
  e.Issues text g ∨ ∃ g₀, before = some g₀ ∧ ¬ e.Removes l text g₀ ∧ e.follow g₀ = g

variable {e : Event} {l : Ledger} {text : String} {before after : Option Grant} {g : Grant}

theorem leaves_idle (h : after = before) (hissues : ¬ e.Issues text g)
    (hremoves : ∀ g₀, ¬ e.Removes l text g₀) (hfollow : ∀ g₀, e.follow g₀ = g₀) :
    after = some g ↔ e.Leaves l text before g := by
  simp [Leaves, h, hissues, hremoves, hfollow]

theorem leaves_issued {made : String} {new : Grant}
    (h : after = if text = made then some new else before) (hfresh : text = made → before = none)
    (hissues : e.Issues text g ↔ text = made ∧ g = new)
    (hremoves : ∀ g₀, ¬ e.Removes l text g₀) (hfollow : ∀ g₀, e.follow g₀ = g₀) :
    after = some g ↔ e.Leaves l text before g := by
  unfold Leaves
  rw [h, hissues]
  by_cases htext : text = made
  · simp [htext, hfresh htext, eq_comm]
  · simp [htext, hremoves, hfollow]

theorem leaves_removed {gone : Grant → Bool} (h : after = before.filter fun g₀ => !gone g₀)
    (hissues : ¬ e.Issues text g) (hremoves : ∀ g₀, e.Removes l text g₀ ↔ gone g₀ = true)
    (hfollow : ∀ g₀, e.follow g₀ = g₀) : after = some g ↔ e.Leaves l text before g := by
  unfold Leaves
  rw [h, Option.filter_eq_some_iff]
  simp [hissues, hremoves, hfollow]

theorem leaves_moved (h : after = before.map e.follow) (hissues : ¬ e.Issues text g)
    (hremoves : ∀ g₀, ¬ e.Removes l text g₀) : after = some g ↔ e.Leaves l text before g := by
  simp [Leaves, h, hissues, hremoves]

end Event

namespace World

/-- The tokens after an event are the issued one and those that were there and not removed. -/
theorem grant?_event {w : World} (hwf : w.tables.WellFormed) (o : Order) (text : String)
    (g : Grant) :
    (w.carryOut o).2.tables.grant? text = some g ↔
      (w.event o).Leaves w.tables.ledger text (w.tables.grant? text) g := by
  obtain ⟨op, now⟩ := o
  have hsame (h : (w.carryOut ⟨op, now⟩).2.tables.tokens = w.tables.tokens) :
      (w.carryOut ⟨op, now⟩).2.tables.grant? text = w.tables.grant? text := by
    rw [Tables.grant?, h, Tables.grant?]
  have hnothing (g₀ : Grant) : ¬ w.tables.ledger.applicationGone {} g₀.owner = true := by
    simp [Ledger.applicationGone_nothing]
  rcases w.event_cases ⟨op, now⟩ with ⟨f, hevent, htables⟩ | ⟨x, hevent, hdone⟩
  · rw [hevent]
    refine Event.leaves_idle (hsame (congrArg Tables.tokens htables)) ?_ (fun g₀ => ?_) fun g₀ => ?_
    · cases op <;> exact id
    · cases op <;> exact id
    · cases op <;> rfl
  · rw [hevent]
    cases op with
    | createToken appId lifetime =>
      obtain ⟨n, hn, hminted, hsave⟩ := hdone
      have hmade : w.lastMade ⟨.createToken appId lifetime, now⟩ = some (w.mint n) := by
        rw [lastMade]
        dsimp only
        rw [hminted, if_pos (Nat.lt_succ_of_le hn), Nat.add_sub_cancel]
      obtain ⟨hfresh, hgrant⟩ := Tables.grant?_saveToken hsave
      rw [hmade]
      exact Event.leaves_issued (hgrant text) (fun htext => htext ▸ hfresh) Iff.rfl hnothing
        fun _ => rfl
    | provision token =>
      simp only [Operation.Done] at hdone
      split at hdone
      · rename_i hprovisioned
        subst hprovisioned
        obtain ⟨hfresh, hgrant⟩ := Tables.grant?_provision hdone
        exact Event.leaves_issued (hgrant text) (fun htext => htext ▸ hfresh) Iff.rfl hnothing
          fun _ => rfl
      · rename_i hskipped
        refine Event.leaves_idle (hsame (congrArg Tables.tokens hdone)) ?_ hnothing fun _ => rfl
        cases x with
        | provisioned => exact absurd rfl hskipped
        | _ => exact id
    | revokeTokens appId texts =>
      refine Event.leaves_removed (Tables.grant?_deleteTokens hdone) id (fun g₀ => ?_) fun _ => rfl
      show appId = g₀.owner ∧ text ∈ texts ↔ _
      rw [decide_eq_true_eq]
    | revokeAllTokens appId =>
      refine Event.leaves_removed (Tables.grant?_deleteAllTokens hdone) id (fun g₀ => ?_)
        fun _ => rfl
      show appId = g₀.owner ↔ _
      rw [decide_eq_true_eq]
    | deleteDomains ids =>
      rw [Tables.eq_without_deleteDomains hdone]
      exact Event.leaves_removed (Tables.grant?_without hwf _) id (fun _ => Iff.rfl) fun _ => rfl
    | deleteGroups ids =>
      rw [Tables.eq_without_deleteGroups hdone]
      exact Event.leaves_removed (Tables.grant?_without hwf _) id (fun _ => Iff.rfl) fun _ => rfl
    | deleteApplications ids =>
      rw [Tables.eq_without_deleteApplications hdone]
      exact Event.leaves_removed (Tables.grant?_without hwf _) id (fun _ => Iff.rfl) fun _ => rfl
    | updateApplication req =>
      exact Event.leaves_moved (Tables.grant?_updateApplication hdone) id hnothing
    | _ => exact Event.leaves_idle (hsame (hdone.tokens_eq rfl)) id hnothing fun _ => rfl

/-- The tokens in the tables are those that are held. -/
theorem held_iff (now : Instant) (mint : Nat → String) (orders : List Order) (text : String)
    (g : Grant) :
    Held text ((fresh now mint).history orders) g ↔
      ((fresh now mint).after orders).tables.grant? text = some g := by
  induction orders generalizing g with
  | nil => exact ⟨fun h => absurd h not_held_nil, fun h => nomatch h⟩
  | cons o earlier ih =>
    have hevent := grant?_event (after_wellFormed now mint earlier) o text g
    rw [ledger_after] at hevent
    refine held_cons.trans (Iff.trans ?_ hevent.symm)
    simp only [Event.Leaves, ih]

end World

/-! ## Identities -/

/-- The identity that a grant stands for: its owner as it is now, and where that belongs. -/
def Ledger.identity? (l : Ledger) (g : Grant) : Option AuthData := do
  let place ← l.applications g.owner
  let domain ← l.groups place.group
  let system ← l.domains domain
  return ⟨g.owner, place.name, place.group, domain, system, g.lifetime, g.since⟩

theorem Ledger.identity?_eq_some_iff {l : Ledger} {g : Grant} {d : AuthData} :
    l.identity? g = some d ↔
      ∃ place domain system, l.applications g.owner = some place ∧
        l.groups place.group = some domain ∧ l.domains domain = some system ∧
        (⟨g.owner, place.name, place.group, domain, system, g.lifetime, g.since⟩ : AuthData) =
          d := by
  simp [identity?, Option.bind_eq_some_iff]

namespace Tables

variable {t : Tables}

theorem authData?_eq (t : Tables) (text : String) :
    t.authData? text = (t.grant? text).bind t.ledger.identity? := by
  rw [authData?, grant?]
  cases htoken : t.tokens.find? text with
  | none => rfl
  | some k =>
    show (t.applications.find? k.appId).bind _ = (t.ledger.applications k.appId).bind _
    rw [ledger_applications]
    cases happ : t.applications.find? k.appId with
    | none => rfl
    | some app =>
      show (t.groups.find? app.applicationGroupId).bind _ =
        (t.ledger.groups app.applicationGroupId).bind _
      rw [ledger_groups]
      cases hgroup : t.groups.find? app.applicationGroupId with
      | none => rfl
      | some group =>
        show (t.domains.find? group.domainId).bind _ = (t.ledger.domains group.domainId).bind _
        rw [ledger_domains]
        cases hdomain : t.domains.find? group.domainId with
        | none => rfl
        | some domain =>
          have happId : app.id = k.appId := Table.key_of_find? happ
          have hgroupId : group.id = app.applicationGroupId := Table.key_of_find? hgroup
          have hdomainId : domain.id = group.domainId := Table.key_of_find? hdomain
          show some (AuthData.mk app.id app.name group.id domain.id domain.systemId _ _) = _
          rw [happId, hgroupId, hdomainId]
          rfl

/-- The identity that the rows from the token upwards make. -/
theorem authData?_of_find {text : String} {k : Token} {app : Application} {group : AppGroup}
    {domain : Domain} (hk : t.tokens.find? text = some k)
    (happ : t.applications.find? k.appId = some app)
    (hgroup : t.groups.find? app.applicationGroupId = some group)
    (hdomain : t.domains.find? group.domainId = some domain) :
    t.authData? text = some ⟨app.id, app.name, group.id, domain.id, domain.systemId, k.expireTime,
      k.createdAt⟩ := by
  simp only [authData?, hk, happ, hgroup, hdomain, Option.bind_eq_bind, Option.bind_some]
  rfl

/-- A token in the tables has an identity. -/
theorem WellFormed.identity?_of_grant? (h : t.WellFormed) {text : String} {g : Grant}
    (hgrant : t.grant? text = some g) : ∃ d, t.ledger.identity? g = some d := by
  obtain ⟨k, hk, rfl⟩ := Option.map_eq_some_iff.1 hgrant
  obtain ⟨app, happ⟩ := Option.isSome_iff_exists.1 (h.tokens k (Table.mem_of_find? hk))
  obtain ⟨group, hgroup⟩ :=
    Option.isSome_iff_exists.1 (h.applications app (Table.mem_of_find? happ))
  obtain ⟨domain, hdomain⟩ :=
    Option.isSome_iff_exists.1 (h.groups group (Table.mem_of_find? hgroup))
  apply Option.isSome_iff_exists.1
  simp only [Ledger.identity?, Token.grant, ledger_applications, ledger_groups, ledger_domains,
    happ, hgroup, hdomain, Option.map_some, Option.bind_eq_bind, Option.bind_some]
  rfl

end Tables

theorem Credentials.authenticate_outcome (w : World) (text : String) :
    outcome answer (Credentials.authenticate text) w =
      (.ok (match w.tables.authData? text with
        | none => .tokenNotFound
        | some d => if d.isExpiredAt w.now then .tokenExpired else .authenticated d), w) := by
  apply outcome_eq_of_ends
  unfold Credentials.authenticate
  rw [ends_bind, ends_attempt, ends_look (f := fun t => t.authData text) rfl, Tables.authData]
  cases w.tables.authData? text with
  | none => exact ⟨rfl, rfl⟩
  | some d => exact ⟨rfl, rfl⟩

/-- After any operations, presenting a token is answered by its history: it is accepted just when it
is held and its lifetime is not over, with the identity of its present owner; it is known to have
expired just when it is held and its lifetime is over; otherwise it is unknown. -/
theorem authenticate_after (now : Instant) (mint : Nat → String) (orders : List Order)
    (text : String) (later : Instant) :
    let w := (fresh now mint).after orders
    let events := (fresh now mint).history orders
    ∃ decision,
      (outcome answer (Credentials.authenticate text) { w with now := later }).1 = .ok decision ∧
      (∀ d, decision = .authenticated d ↔
        ∃ g, Held text events g ∧ lifetimeElapsed g.since g.lifetime later = false ∧
          (Ledger.ofHistory events).identity? g = some d) ∧
      (decision = .tokenExpired ↔
        ∃ g, Held text events g ∧ lifetimeElapsed g.since g.lifetime later = true) ∧
      (decision = .tokenNotFound ↔ ¬ ∃ g, Held text events g) := by
  intro w events
  have hwf : w.tables.WellFormed := after_wellFormed now mint orders
  have hheld (g : Grant) : Held text events g ↔ w.tables.grant? text = some g :=
    held_iff now mint orders text g
  have hledger : Ledger.ofHistory events = w.tables.ledger := (ledger_after now mint orders).symm
  rw [Credentials.authenticate_outcome, hledger]
  refine ⟨_, rfl, ?_⟩
  simp only [hheld, Tables.authData?_eq]
  cases hgrant : w.tables.grant? text with
  | none => simp
  | some g =>
    obtain ⟨d, hd⟩ := hwf.identity?_of_grant? hgrant
    have hlifetime : d.isExpiredAt later = lifetimeElapsed g.since g.lifetime later := by
      obtain ⟨place, domain, system, _, _, _, rfl⟩ := Ledger.identity?_eq_some_iff.1 hd
      rfl
    cases hover : lifetimeElapsed g.since g.lifetime later with
    | true => simp [hd, hlifetime, hover]
    | false => simp [hd, hlifetime, hover]

-- A token that lives for a second follows its owner to another id and another name.
example :
    let w := (fresh ⟨0, 0⟩ fun _ => "made").after [
      ⟨.updateApplication ⟨1, 7, "moved", ""⟩, ⟨2, 0⟩⟩,
      ⟨.createToken 1 1000, ⟨1, 0⟩⟩,
      ⟨.provision "root", ⟨0, 0⟩⟩]
    (outcome answer (Credentials.authenticate "made") { w with now := ⟨2, 0⟩ }).1 =
      .ok (.authenticated ⟨7, "moved", 1, 1, 1, 1000, ⟨1, 0⟩⟩) ∧
    (outcome answer (Credentials.authenticate "made") { w with now := ⟨3, 0⟩ }).1 =
      .ok .tokenExpired := by
  decide +kernel

end AccessRegistry
