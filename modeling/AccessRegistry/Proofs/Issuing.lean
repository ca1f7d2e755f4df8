import AccessRegistry.Proofs.Owners
import AccessRegistry.Proofs.Race
import AccessRegistry.Proofs.Session

/-!
# AccessRegistry.Proofs.Issuing

A request that issues a token stores it first and reads the application for its answer afterwards,
by the id it was asked for. Others may come in between, so that it fails although it has stored a
token. What is left of the token then (`failed_issue_leaves_nothing`): the application is gone, and
so is the token, unless the application has been moved to another id, which takes its tokens along
(`failed_issue_may_leave_token`), or its text has been stored anew for another application.

* `Issuing` — what a client is like that has not stored a token yet, `Answering` — one that has.
-/

namespace AccessRegistry

open AccessRegistry.Action World Tables

variable {ρ σ : Type}

def Http.Answer.IsOk (a : Http.Answer) : Prop := a.status = 200

/-! ## Programs -/

/-- The program leaves the tables alone. It ends well, or else where the application is missing. -/
def Answering (appId : Int32) (ok : ρ → Prop) : Program (Effect Port) ρ → Prop
  | .done a => ok a
  | .ask e next => ∀ w : World,
    ((World.answer _ e).run w).2.tables = w.tables ∧
      (Answering appId ok (next ((World.answer _ e).run w).1) ∨
        ¬ w.tables.applications.contains appId ∧
          ∃ a, next ((World.answer _ e).run w).1 = .done a)

/-- The program leaves the tables alone until it stores a token of the application, and shows the
application then. -/
def Issuing (appId : Int32) (ok : ρ → Prop) : Program (Effect Port) ρ → Prop
  | .done _ => True
  | .ask e next => ∀ w : World,
    ((World.answer _ e).run w).2.tables = w.tables ∧
        Issuing appId ok (next ((World.answer _ e).run w).1) ∨
      (∃ k : Token, k.appId = appId ∧
        (saveToken k).apply w.tables = (.ok (), ((World.answer _ e).run w).2.tables)) ∧
        Answering appId ok (next ((World.answer _ e).run w).1)

section Programs

variable {appId : Int32} {ok : ρ → Prop} {ok' : σ → Prop} {f : ρ → σ}
  {p : Program (Effect Port) ρ} {w : World}

theorem Answering.map (h : Answering appId ok p) (hok : ∀ a, ok a → ok' (f a)) :
    Answering appId ok' (p.bind fun a => .done (f a)) := by
  induction p with
  | done a => exact hok a h
  | ask e next ih =>
    refine fun w => ⟨(h w).1, (h w).2.imp (ih _) (And.imp_right ?_)⟩
    rintro ⟨a, ha⟩
    exact ⟨f a, congrArg (Program.bind · fun a => .done (f a)) ha⟩

theorem Issuing.map (h : Issuing appId ok p) (hok : ∀ a, ok a → ok' (f a)) :
    Issuing appId ok' (p.bind fun a => .done (f a)) := by
  induction p with
  | done a => trivial
  | ask e next ih =>
    exact fun w => (h w).imp (And.imp_right (ih _)) (And.imp_right fun hs => hs.map hok)

end Programs

/-! ## Issuing a token -/

section Rules

variable {appId : Int32}

theorem issuing_look_bind {γ α : Type} {ok : Except Failure α → Prop} {c : Port γ} {k : γ → Rule α}
    (hc : c.writes = false) (hk : ∀ x, Issuing appId ok (program (k x))) :
    Issuing appId ok (program (call c >>= k)) := by
  rw [program_call_bind]
  refine fun w => .inl ⟨congrArg World.tables (answerCall_look hc w), ?_⟩
  dsimp only
  split
  · exact hk _
  · trivial

theorem Applications.answering_getById (appId : Int32) :
    Answering appId (fun r => ∃ out, r = .ok out) (program (Applications.getById appId)) := by
  unfold Applications.getById
  rw [program_call_bind]
  refine fun w => ⟨rfl, ?_⟩
  have hrun : ((World.answer _ (.call (.applicationById appId))).run w).1 =
      w.tables.application appId := rfl
  rw [hrun, application, Table.contains]
  cases w.tables.applications.find? appId with
  | none => exact .inr ⟨by simp, _, rfl⟩
  | some app => exact .inl fun w => ⟨rfl, .inl ⟨_, rfl⟩⟩

/-- A transaction stores a token of the application, or nothing. -/
theorem issuing_save {ok : ρ → Prop} {token : Token} {next : Except Failure Unit → Program _ ρ}
    (howner : token.appId = appId) (hok : Answering appId ok (next (.ok ())))
    (herror : ∀ f, Issuing appId ok (next (.error f))) :
    Issuing appId ok
      (.ask (.call (.transaction .tokenCreate (call (.save token) : Work _ Unit))) next) := by
  intro w
  have hrun : (World.answer _ (.call (.transaction .tokenCreate (call (.save token))))).run w =
      (((saveToken token).apply w.tables).1, { w with
        tables := if ((saveToken token).apply w.tables).1.toBool then
          ((saveToken token).apply w.tables).2 else w.tables }) := rfl
  rw [hrun]
  cases hsave : (saveToken token).apply w.tables with
  | mk r tables =>
    cases r with
    | error f => exact .inl ⟨rfl, herror f⟩
    | ok u => exact .inr ⟨⟨token, howner, hsave⟩, hok⟩

namespace Credentials

variable {ok : Except Failure σ → Prop} {k : Unit → Rule σ}

/-- Up to the token that is stored, every attempt leaves the tables alone. -/
theorem issuing_issue (lifetime : Int64) (retries : Nat)
    (hok : Answering appId ok (program (k ()))) :
    Issuing appId ok (program (issue appId lifetime retries >>= k)) := by
  induction retries with
  | zero =>
    refine fun w => .inl ⟨rfl, fun w' => .inl ⟨rfl, ?_⟩⟩
    exact issuing_save rfl hok fun _ => trivial
  | succ retries ih =>
    refine fun w => .inl ⟨rfl, fun w' => .inl ⟨rfl, ?_⟩⟩
    refine issuing_save rfl hok fun f => ?_
    cases f with
    | tokenDuplicate => exact ih
    | _ => trivial

theorem issuing_create (appId : Int32) (lifetime : Int64) :
    Issuing appId (fun r => ∃ out, r = .ok out) (program (create appId lifetime)) := by
  unfold create
  split
  · trivial
  show Issuing _ _ (program (_ >>= _))
  refine issuing_look_bind rfl fun app => issuing_look_bind rfl fun group => ?_
  refine issuing_look_bind rfl fun _ => ?_
  exact issuing_issue lifetime _ (Applications.answering_getById appId)

end Credentials

end Rules

/-! ## Traffic -/

namespace Traffic

/-- What a client has been answered, if it is done. -/
def answer? (s : Traffic ρ) (i : Nat) : Option ρ :=
  s.clients[i]?.bind fun
    | .done a => some a
    | .ask _ _ => none

def Stores (s : Traffic ρ) (next : Turn) (k : Token) : Prop :=
  ¬ s.world.tables.tokens.contains k.token ∧ k ∈ (s.turn next).world.tables.tokens

/-- The turn moves the application to another id. -/
def Moves (s : Traffic ρ) (next : Turn) (appId : Int32) : Prop :=
  ∃ (j : Nat) (γ : Type) (c : Port γ) (k : Except Failure γ → Program (Effect Port) ρ) (x : γ),
    next = .client j ∧ s.clients[j]? = some (.ask (.call c) k) ∧ c.movesFrom? = some appId ∧
      ((World.answer _ (.call c)).run s.world).1 = .ok x

/-- Another client than the `i`-th moves the application, or stores the text for another one. -/
def Reassigns (i : Nat) (appId : Int32) (text : String) (s : Traffic ρ) (next : Turn) : Prop :=
  next.isOf i = false ∧
    (s.Moves next appId ∨ ∃ k, s.Stores next k ∧ k.token = text ∧ k.appId ≠ appId)

/-- One of the turns is like this in the state that it is taken in. -/
def Sometime (P : Traffic ρ → Turn → Prop) : Traffic ρ → List Turn → Prop
  | _, [] => False
  | s, next :: turns => P s next ∨ Sometime P (s.turn next) turns

/-- In the last of the turns the client is answered, and not with success. -/
def Fails (s : Traffic Http.Answer) (turns : List Turn) (i : Nat) : Prop :=
  ∃ earlier a, turns = earlier ++ [.client i] ∧ (s.after earlier).answer? i = none ∧
    (s.after turns).answer? i = some a ∧ ¬ a.IsOk

variable {s : Traffic ρ} {i : Nat} {appId : Int32} {text : String} {ok : ρ → Prop}
  {p : Program (Effect Port) ρ}

/-- What a client keeps in its own turns holds of it after any turns. -/
theorem client_after {P : Program (Effect Port) ρ → Prop}
    (hP : ∀ (w : World) p, P p → P (advance w p).1) (hp : s.clients[i]? = some p) (h : P p)
    (turns : List Turn) : ∃ q, (s.after turns).clients[i]? = some q ∧ P q := by
  induction turns generalizing s p with
  | nil => exact ⟨p, hp, h⟩
  | cons next turns ih =>
    cases hnext : next.isOf i with
    | false => exact ih ((clients_turn_other hnext).trans hp) h
    | true =>
      obtain rfl := Turn.isOf_iff.1 hnext
      exact ih (clients_turn_self hp) (hP s.world p h)

/-- The client has stored its token: it shows the application, or is done. -/
def HasStored (appId : Int32) (ok : ρ → Prop) (p : Program (Effect Port) ρ) : Prop :=
  Answering appId ok p ∨ ∃ a, p = .done a

theorem answering_advance (h : Answering appId ok p) (w : World) :
    (advance w p).2.tables = w.tables ∧
      (Answering appId ok (advance w p).1 ∨
        ¬ w.tables.applications.contains appId ∧ ∃ a, (advance w p).1 = .done a) := by
  cases p with
  | done a => exact ⟨rfl, .inl h⟩
  | ask e next => exact h w

theorem hasStored_advance (h : HasStored appId ok p) (w : World) :
    (advance w p).2.tables = w.tables ∧ HasStored appId ok (advance w p).1 := by
  rcases h with h | ⟨a, rfl⟩
  · exact (answering_advance h w).imp_right (Or.imp_right And.right)
  · exact ⟨rfl, .inr ⟨a, rfl⟩⟩

theorem issuing_advance (h : Issuing appId ok p) (w : World) :
    (advance w p).2.tables = w.tables ∧ Issuing appId ok (advance w p).1 ∨
      (∃ k : Token, k.appId = appId ∧
        (saveToken k).apply w.tables = (.ok (), (advance w p).2.tables)) ∧
        Answering appId ok (advance w p).1 := by
  cases p with
  | done a => exact .inl ⟨rfl, trivial⟩
  | ask e next => exact h w

def Issuer (appId : Int32) (ok : ρ → Prop) (p : Program (Effect Port) ρ) : Prop :=
  Issuing appId ok p ∨ HasStored appId ok p

theorem issuer_advance (h : Issuer appId ok p) (w : World) :
    Issuer appId ok (advance w p).1 := by
  rcases h with h | h
  · exact (issuing_advance h w).imp And.right fun hstored => .inl hstored.2
  · exact .inr (hasStored_advance h w).2

/-! ### The token, turn by turn -/

theorem stores_of_issuer (hp : s.clients[i]? = some p) (h : Issuer appId ok p) {k : Token}
    (hk : s.Stores (.client i) k) :
    k.appId = appId ∧ ∃ q, (s.turn (.client i)).clients[i]? = some q ∧ Answering appId ok q := by
  obtain ⟨hlt, _⟩ := List.getElem?_eq_some_iff.1 hp
  obtain ⟨hfresh, hmem⟩ := hk
  rw [turn_client hp] at hmem ⊢
  -- the tables change in this turn, as they do in no other one of the client
  have hchanged : (advance s.world p).2.tables ≠ s.world.tables := fun hsame =>
    hfresh (Table.contains_of_mem (hsame ▸ hmem))
  rcases h with h | h
  · rcases issuing_advance h s.world with ⟨hsame, _⟩ | ⟨⟨k', howner, hsave⟩, hanswering⟩
    · exact absurd hsame hchanged
    · obtain ⟨_, _, htables⟩ := saveToken_ok hsave
      rw [htables] at hmem
      refine ⟨?_, _, List.getElem?_set_self hlt, hanswering⟩
      rcases Table.mem_insert.1 hmem with rfl | ⟨hold, _⟩
      · exact howner
      · exact absurd (Table.contains_of_mem hold) hfresh
  · exact absurd (hasStored_advance h s.world).1 hchanged

theorem owned_turn (hp : s.clients[i]? = some p) (h : HasStored appId ok p)
    (howned : s.world.tables.Owned text appId) (next : Turn) :
    (s.turn next).world.tables.Owned text appId ∨ s.Reassigns i appId text next := by
  cases next with
  | clock now => exact .inl howned
  | client j =>
    cases hq : s.clients[j]? with
    | none =>
      rw [turn_absent hq]
      exact .inl howned
    | some q =>
      have hsame (htables : (advance s.world q).2.tables = s.world.tables) :
          (s.turn (.client j)).world.tables.Owned text appId := by
        rw [turn_client hq]
        exact htables ▸ howned
      by_cases hj : j = i
      · -- the client itself changes nothing any more
        subst hj
        rw [hp] at hq
        cases hq
        exact .inl (hsame (hasStored_advance h s.world).1)
      · have hother : (Turn.client j).isOf i = false := by simpa [Turn.isOf] using hj
        cases q with
        | done a => exact .inl (hsame rfl)
        | ask e next =>
          cases e with
          | now => exact .inl (hsame rfl)
          | mint => exact .inl (hsame rfl)
          | call c =>
            have hturn : (s.turn (.client j)).world = ((answerCall c).run s.world).2 := by
              rw [turn_client hq]
              rfl
            rcases answerCall_owned c howned with howned' | ⟨hmoves, x, hx⟩ | ⟨k, hk, hkey⟩
            · exact .inl (hturn ▸ howned')
            · exact .inr ⟨hother, .inl ⟨j, _, c, next, x, rfl, hq, hmoves, hx⟩⟩
            · obtain ⟨rfl, howner, hfresh⟩ := hkey
              exact .inr ⟨hother, .inr ⟨k, ⟨hfresh, hturn ▸ hk⟩, rfl, howner⟩⟩

theorem owned_after (hp : s.clients[i]? = some p) (h : HasStored appId ok p)
    (howned : s.world.tables.Owned text appId) (turns : List Turn) :
    (s.after turns).world.tables.Owned text appId ∨
      s.Sometime (Reassigns i appId text) turns := by
  induction turns generalizing s p with
  | nil => exact .inl howned
  | cons next turns ih =>
    rcases owned_turn hp h howned next with howned' | hreassigned
    · obtain ⟨q, hq, hhas⟩ := client_after (P := HasStored appId ok)
        (fun w _ h => (hasStored_advance h w).2) hp h [next]
      exact (ih (s := s.turn next) hq hhas howned').imp_right .inr
    · exact .inr (.inl hreassigned)

theorem answer?_eq_some {a : ρ} : s.answer? i = some a ↔ s.clients[i]? = some (.done a) := by
  unfold answer?
  cases s.clients[i]? with
  | none => simp
  | some p => cases p <;> simp

/-- Once a token is stored, a failure says that the application is missing. -/
theorem missing_of_fails {s : Traffic Http.Answer} {p : Program (Effect Port) Http.Answer}
    (hp : s.clients[i]? = some p) (h : Answering appId Http.Answer.IsOk p)
    {turns : List Turn} (hfails : s.Fails turns i) :
    ¬ (s.after turns).world.tables.applications.contains appId := by
  obtain ⟨earlier, a, rfl, hasked, hanswered, hbad⟩ := hfails
  obtain ⟨q, hq, hhas⟩ := client_after (P := HasStored appId Http.Answer.IsOk)
    (fun w _ h => (hasStored_advance h w).2) hp (.inl h) earlier
  obtain ⟨hlt, _⟩ := List.getElem?_eq_some_iff.1 hq
  have hturn : s.after (earlier ++ [.client i]) = ⟨(advance (s.after earlier).world q).2,
      (s.after earlier).clients.set i (advance (s.after earlier).world q).1⟩ := by
    rw [after_append]
    exact turn_client hq
  have hdone : (advance (s.after earlier).world q).1 = .done a := by
    rw [answer?_eq_some, hturn, List.getElem?_set_self hlt] at hanswered
    exact Option.some.inj hanswered
  rcases hhas with hanswering | ⟨b, rfl⟩
  · have hlast := answering_advance hanswering (s.after earlier).world
    obtain ⟨hsame, hanswering | ⟨hmissing, _⟩⟩ := hlast
    · rw [hdone] at hanswering
      exact absurd hanswering hbad
    · rw [hturn, hsame]
      exact hmissing
  · rw [answer?_eq_some.2 hq] at hasked
    cases hasked

/-- The failure comes after the turn that has stored a token. -/
theorem Fails.later {s : Traffic Http.Answer} {before mid : List Turn}
    {p : Program (Effect Port) Http.Answer} (hfails : s.Fails (before ++ .client i :: mid) i)
    (hp : (s.after (before ++ [.client i])).clients[i]? = some p)
    (h : Answering appId Http.Answer.IsOk p) :
    (s.after (before ++ [.client i])).Fails mid i := by
  obtain ⟨earlier, a, hturns, hasked, hanswered, hbad⟩ := hfails
  rcases List.eq_nil_or_concat mid with rfl | ⟨mid, last, rfl⟩
  · -- in that turn itself there is no answer yet
    rw [answer?_eq_some, hp] at hanswered
    cases hanswered
    exact absurd h hbad
  · have hsplit : (before ++ [.client i] ++ mid) ++ [last] = earlier ++ [.client i] := by
      rw [← hturns]
      simp
    obtain ⟨rfl, hlast⟩ := List.append_inj' hsplit rfl
    obtain rfl := List.singleton_inj.1 hlast
    rw [after_append] at hasked
    refine ⟨mid, a, List.concat_eq_append, hasked, ?_, hbad⟩
    rw [← hanswered, ← after_append]
    congr 2
    simp

/-! ### A token that is handed over -/

namespace Handover

/-- A request for a token of application 1. -/
def issue : Http.Request where
  method := "POST"
  target := "/system/token/create_token"
  contentType := some "application/json"
  body := Json.Source.ofString "\x7b\"appId\":1\x7d"

/-- A request that moves application 1 to id 2. -/
def move : Http.Request where
  method := "POST"
  target := "/system/application/update_application"
  contentType := some "application/json"
  body := Json.Source.ofString "\x7b\"oldId\":1,\"newId\":2,\"name\":\"admin\"\x7d"

/-- A registry as it is set up, and the two requests. The first one stores its token in its sixth
turn, and makes its answer after the turn of the other one. -/
def start : Traffic Http.Answer where
  world := (fresh ⟨0, 0⟩ fun _ => "made").session [.provision "root" ⟨0, 0⟩]
  clients := [Http.answer none issue, Http.answer none move]

def before : List Turn := List.replicate 5 (.client 0)

def rest : List Turn := [.client 1, .client 0]

def token : Token := ⟨"made", 1, neverExpires, ⟨0, 0⟩⟩

theorem wellFormed_start : start.world.tables.WellFormed :=
  session_wellFormed wellFormed_empty _

theorem asks : issue.AsksFor (.createToken 1 neverExpires) ApplicationWithTokens.toJson :=
  @Http.asksFor_of_readBody _ _ _ _ _ _ _ _ (fun a => .createToken a.1 a.2) _ (1, neverExpires)
    rfl rfl (by decide +kernel)

theorem stores : (start.after before).Stores (.client 0) token := by
  refine ⟨by decide +kernel, ?_⟩
  show token ∈ ((start.after before).turn (.client 0)).world.tables.tokens.rows
  decide +kernel

theorem fails : start.Fails (before ++ .client 0 :: rest) 0 := by
  have hstatus : ((start.after (before ++ .client 0 :: rest)).answer? 0).map
      Http.Answer.status = some 404 := by decide +kernel
  obtain ⟨a, ha, hstatus⟩ := Option.map_eq_some_iff.1 hstatus
  refine ⟨before ++ [.client 0, .client 1], a, rfl, ?_, ha, ?_⟩
  · rw [← Option.isNone_iff_eq_none]
    decide +kernel
  · rw [Http.Answer.IsOk, hstatus]
    decide

theorem remains :
    (start.after (before ++ .client 0 :: rest)).world.tables.tokens.contains token.token := by
  decide +kernel

end Handover

/-! ### What is left of a token -/

/-- A request that fails although it has stored a token: the application is missing when it is
answered, and so is the token, unless another client has taken it away. -/
theorem failed_issue_leaves_nothing {s : Traffic Http.Answer} (hwf : s.world.tables.WellFormed)
    {i : Nat} {r : Http.Request} {kept : Option Http.Metrics} {appId : Int32} {lifetime : Int64}
    {view : ApplicationWithTokens → Json.Value}
    (hasks : r.AsksFor (.createToken appId lifetime) view)
    (hclient : s.clients[i]? = some (Http.answer kept r)) {before mid : List Turn} {k : Token}
    (hstores : (s.after before).Stores (.client i) k)
    (hfails : s.Fails (before ++ .client i :: mid) i) :
    let t := (s.after (before ++ .client i :: mid)).world.tables
    ¬ t.applications.contains appId ∧
      (t.tokens.contains k.token →
        (s.after (before ++ [.client i])).Sometime (Reassigns i appId k.token) mid) := by
  intro t
  have hissuing : Issuing appId Http.Answer.IsOk (Http.answer kept r) := by
    rw [Http.answer_eq_bind hasks]
    refine (Credentials.issuing_create appId lifetime).map ?_
    rintro _ ⟨out, rfl⟩
    rfl
  obtain ⟨p, hp, hissuer⟩ := client_after (P := Issuer appId Http.Answer.IsOk)
    (fun w _ h => issuer_advance h w) hclient (.inl hissuing) before
  have hstored : s.after (before ++ [.client i]) = (s.after before).turn (.client i) :=
    after_append s before [.client i]
  have hfinal : s.after (before ++ .client i :: mid) =
      (s.after (before ++ [.client i])).after mid := by
    rw [← after_append, List.append_assoc]
    rfl
  obtain ⟨rfl, q, hq, hanswering⟩ := stores_of_issuer hp hissuer hstores
  rw [← hstored] at hq
  have hmissing : ¬ t.applications.contains k.appId := by
    have h := missing_of_fails hq hanswering (hfails.later hq hanswering)
    rwa [← hfinal] at h
  refine ⟨hmissing, fun hthere => ?_⟩
  have howned : (s.after (before ++ [.client i])).world.tables.Owned k.token k.appId :=
    owned_of_mem (hstored ▸ hstores.2)
  refine (owned_after hq (.inl hanswering) howned mid).resolve_left fun hleft => hmissing ?_
  -- the token would be left without its application
  have hwf' : t.WellFormed := keeps_wellFormed s hwf _
  obtain ⟨k', hk', htext⟩ := Table.contains_iff.1 hthere
  rw [← hleft k' (hfinal ▸ hk') htext]
  exact hwf'.tokens k' hk'

theorem token_handed_over :
    ¬ (Handover.start.after
        (Handover.before ++ .client 0 :: Handover.rest)).world.tables.applications.contains 1 ∧
      (Handover.start.after (Handover.before ++ [.client 0])).Sometime (Reassigns 0 1 "made")
        Handover.rest := by
  obtain ⟨hmissing, hreassigned⟩ := failed_issue_leaves_nothing Handover.wellFormed_start
    Handover.asks rfl Handover.stores Handover.fails
  exact ⟨hmissing, hreassigned Handover.remains⟩

/-- The application that the token has been issued for is moved before the answer is made: the
request fails, and its token stays. -/
theorem failed_issue_may_leave_token :
    ¬ ∀ (s : Traffic Http.Answer) (i : Nat) (r : Http.Request) (kept : Option Http.Metrics)
      (appId : Int32) (lifetime : Int64) (view : ApplicationWithTokens → Json.Value)
      (before mid : List Turn) (k : Token),
      s.world.tables.WellFormed →
      (∀ p ∈ s.clients, ∃ kept r rest, p = Http.answer kept r ∧ r.target = "/system/" ++ rest) →
      r.AsksFor (.createToken appId lifetime) view →
      s.clients[i]? = some (Http.answer kept r) →
      (s.after before).Stores (.client i) k →
      s.Fails (before ++ .client i :: mid) i →
      ¬ (s.after (before ++ .client i :: mid)).world.tables.tokens.contains k.token := by
  intro h
  refine h Handover.start 0 Handover.issue none 1 neverExpires ApplicationWithTokens.toJson
    Handover.before Handover.rest Handover.token Handover.wellFormed_start ?_ Handover.asks rfl
    Handover.stores Handover.fails Handover.remains
  refine List.forall_mem_cons.2 ⟨⟨none, _, "token/create_token", rfl, rfl⟩, ?_⟩
  exact List.forall_mem_singleton.2 ⟨none, _, "application/update_application", rfl, rfl⟩

end Traffic
end AccessRegistry
