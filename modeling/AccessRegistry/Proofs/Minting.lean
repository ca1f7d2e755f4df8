import AccessRegistry.Proofs.Authentication
import AccessRegistry.Proofs.Issuing

/-!
# AccessRegistry.Proofs.Minting

A request for a token, alone at the service: which of the texts that are made for it is stored, and
when it gives up. Time goes on while it is served, so every request of its rule comes at a time of
its own.

* `Timed`                 — a world in which requests come at given times.
* `Timed.tried`           — what attempts that fail leave behind: texts that were made, and no rows.
* `outcome_issue_stored`  — the first text that is not stored yet ends the loop.
* `outcome_issue_refused` — it gives up when all its texts are stored.
-/

namespace AccessRegistry

open AccessRegistry.Action World Tables

structure Timed where
  world : World
  times : Nat → Instant
  /-- how many requests have come -/
  asked : Nat

namespace Timed

def answer : (β : Type) → Effect Port β → StateM Timed β
  | β, e => do
    let s ← get
    let (b, w) := (World.answer β e).run { s.world with now := s.times s.asked }
    set { s with world := { w with now := s.world.now }, asked := s.asked + 1 }
    return b

variable (s : Timed) (appId : Int32) (lifetime : Int64)

def later (n : Nat) : Timed := { s with asked := s.asked + n }

/-- After some attempts that failed. An attempt makes a text, asks for the time, and tries to store
a token. -/
def tried (n : Nat) : Timed :=
  { s with world := { s.world with minted := s.world.minted + n }, asked := s.asked + 3 * n }

def stored (row : Token) : Timed :=
  { s with world := { s.world with
      tables := { s.world.tables with tokens := s.world.tables.tokens.insert row } } }

/-- The text that an attempt makes, counted from 0. -/
def text (k : Nat) : String := s.world.mint (s.world.minted + k)

/-- The token that an attempt tries to store. -/
def candidate (k : Nat) : Token :=
  ⟨s.text k, appId, lifetime, s.times (s.asked + 3 * k + 1)⟩

@[simp]
theorem candidate_token (k : Nat) : (s.candidate appId lifetime k).token = s.text k := rfl

@[simp]
theorem candidate_appId (k : Nat) : (s.candidate appId lifetime k).appId = appId := rfl

theorem tried_tried (m n : Nat) : (s.tried m).tried n = s.tried (m + n) := by
  simp only [tried, mk.injEq, World.mk.injEq, true_and]
  omega

theorem text_tried (m k : Nat) : (s.tried m).text k = s.text (m + k) := by
  simp only [text, tried]
  congr 1
  omega

theorem candidate_tried (m k : Nat) :
    (s.tried m).candidate appId lifetime k = s.candidate appId lifetime (m + k) := by
  have hasked : s.asked + 3 * m + 3 * k + 1 = s.asked + 3 * (m + k) + 1 := by omega
  simp only [candidate, text_tried]
  simp only [tried, hasked]

section Calls

variable {s} {γ β : Type} {c : Port γ}

theorem outcome_call (c : Port γ) :
    outcome answer (call c) s =
      let out := (answerCall c).run { s.world with now := s.times s.asked }
      (out.1, { s with world := { out.2 with now := s.world.now }, asked := s.asked + 1 }) := rfl

/-- A call that only looks, and finds something. -/
theorem outcome_look_bind (f : Tables → Except Failure γ) {x : γ} (h : answerCall c = look f)
    (hx : f s.world.tables = .ok x) (k : γ → Rule β) :
    outcome answer (call c >>= k) s = outcome answer (k x) (s.later 1) := by
  have hcall : outcome answer (call c) s = (f s.world.tables, s.later 1) := by
    rw [outcome_call, h]
    rfl
  rw [outcome_bind, hcall, hx]

/-- A call that only looks, and fails. -/
theorem outcome_missing_bind (f : Tables → Except Failure γ) {e : Failure}
    (h : answerCall c = look f) (he : f s.world.tables = .error e) (k : γ → Rule β) :
    outcome answer (call c >>= k) s = (.error e, s.later 1) := by
  have hcall : outcome answer (call c) s = (f s.world.tables, s.later 1) := by
    rw [outcome_call, h]
    rfl
  rw [outcome_bind, hcall, he]

end Calls

section Issuing

variable {s} {appId lifetime} {retries k : Nat}

/-- One attempt stores its token, unless the text is stored already. -/
theorem outcome_issueOnce (howner : s.world.tables.applications.contains appId) :
    outcome answer (Credentials.issueOnce appId lifetime) s =
      if s.world.tables.tokens.contains (s.text 0) then (.error .tokenDuplicate, s.tried 1)
      else (.ok (), (s.tried 1).stored (s.candidate appId lifetime 0)) := by
  have hrun : outcome answer (Credentials.issueOnce appId lifetime) s =
      let out := (saveToken (s.candidate appId lifetime 0)).apply s.world.tables
      (out.1, { s.tried 1 with world := { (s.tried 1).world with
        tables := if out.1.toBool then out.2 else s.world.tables } }) := rfl
  rw [hrun, apply_saveToken]
  simp only [candidate_token, candidate_appId, howner, Bool.not_true, Bool.false_eq_true, if_false]
  by_cases htaken : s.world.tables.tokens.contains (s.text 0)
  · rw [if_pos htaken, if_pos htaken]
    rfl
  · rw [if_neg htaken, if_neg htaken]
    rfl

/-- The first text that is not stored is stored. -/
theorem outcome_issue_stored (howner : s.world.tables.applications.contains appId)
    (hk : k ≤ retries) (hfree : ¬ s.world.tables.tokens.contains (s.text k))
    (htaken : ∀ j < k, s.world.tables.tokens.contains (s.text j)) :
    outcome answer (Credentials.issue appId lifetime retries) s =
      (.ok (), (s.tried (k + 1)).stored (s.candidate appId lifetime k)) := by
  induction retries generalizing s k with
  | zero =>
    obtain rfl : k = 0 := by omega
    exact (outcome_issueOnce howner).trans (if_neg hfree)
  | succ retries ih =>
    unfold Credentials.issue
    rw [outcome_bind, outcome_attempt, outcome_issueOnce howner]
    cases k with
    | zero =>
      rw [if_neg hfree]
      rfl
    | succ k =>
      have hfirst := htaken 0 (by omega)
      have hnext : (s.tried 1).text k = s.text (k + 1) := by rw [text_tried, Nat.add_comm]
      rw [if_pos hfirst]
      refine (ih (s := s.tried 1) (k := k) howner (by omega) ?_ ?_).trans ?_
      · rw [hnext]
        exact hfree
      · intro j hj
        rw [text_tried]
        exact htaken (1 + j) (by omega)
      · rw [tried_tried, candidate_tried]
        simp only [Nat.add_comm 1]

/-- If all texts are stored, nothing is. -/
theorem outcome_issue_refused (howner : s.world.tables.applications.contains appId)
    (htaken : ∀ j ≤ retries, s.world.tables.tokens.contains (s.text j)) :
    outcome answer (Credentials.issue appId lifetime retries) s =
      (.error .tokenDuplicate, s.tried (retries + 1)) := by
  have hfirst := htaken 0 (Nat.zero_le _)
  induction retries generalizing s with
  | zero => exact (outcome_issueOnce howner).trans (if_pos hfirst)
  | succ retries ih =>
    have hrest : ∀ j ≤ retries, s.world.tables.tokens.contains ((s.tried 1).text j) := by
      intro j hj
      rw [text_tried]
      exact htaken (1 + j) (by omega)
    unfold Credentials.issue
    rw [outcome_bind, outcome_attempt, outcome_issueOnce howner, if_pos hfirst]
    refine (ih (s := s.tried 1) howner hrest (hrest 0 (Nat.zero_le _))).trans ?_
    rw [tried_tried, Nat.add_comm 1]

end Issuing

section Rule

variable {s} {appId lifetime} {app : Application}

theorem outcome_getById (happ : s.world.tables.applications.find? appId = some app) :
    outcome answer (Applications.getById appId) s =
      (.ok ⟨app, s.world.tables.tokensWhere fun k => k.appId = app.id⟩, s.later 2) := by
  have hfound : s.world.tables.application appId = .ok app :=
    congrArg (found .applicationNotFound) happ
  unfold Applications.getById Applications.enrichOne
  rw [outcome_look_bind (·.application appId) rfl hfound,
    outcome_look_bind (fun t => .ok (t.tokensWhere fun k => k.appId = app.id)) rfl rfl]
  rfl

/-- Three calls find the application and what is above it, before the first text is made. -/
theorem outcome_create (hwf : s.world.tables.WellFormed) (hlife : ¬ lifetime < neverExpires)
    (happ : s.world.tables.applications.find? appId = some app) :
    outcome answer (Credentials.create appId lifetime) s =
      outcome answer
        (Credentials.issue appId lifetime 2 >>= fun _ => Applications.getById appId)
        (s.later 3) := by
  obtain ⟨group, hgroup⟩ :=
    Option.isSome_iff_exists.1 (hwf.applications app (Table.mem_of_find? happ))
  obtain ⟨domain, hdomain⟩ :=
    Option.isSome_iff_exists.1 (hwf.groups group (Table.mem_of_find? hgroup))
  unfold Credentials.create
  rw [if_neg hlife]
  dsimp only
  rw [outcome_look_bind (·.application appId) rfl (congrArg (found .applicationNotFound) happ),
    outcome_look_bind (s := s.later 1) (·.group app.applicationGroupId) rfl
      (congrArg (found .appGroupNotFound) hgroup),
    outcome_look_bind (s := (s.later 1).later 1) (·.domain group.domainId) rfl
      (congrArg (found .domainNotFound) hdomain)]
  rfl

end Rule

end Timed

namespace Credentials

/-- A request for a token, alone at the service. It stores the first of three texts that is not
stored yet, with the time that this attempt has asked for, and shows the application with it; if all
three are stored, it changes nothing and its client is told of an internal error only. No text is
made for a lifetime that is not allowed or an application that is not there. -/
theorem stores_first_unused (w : World) (hwf : w.tables.WellFormed) (times : Nat → Instant)
    (appId : Int32) (lifetime : Int64) :
    let s : Timed := ⟨w, times, 0⟩
    let text (k : Nat) := w.mint (w.minted + k)
    let out := outcome Timed.answer (create appId lifetime) s
    let answered (r : Http.Request) (kept : Option Http.Metrics) :=
      ((Http.answer kept r).run Timed.answer).run s
    (∀ (r : Http.Request) (kept : Option Http.Metrics) (view : ApplicationWithTokens → Json.Value),
      r.AsksFor (.createToken appId lifetime) view →
        answered r kept = (.ofResult (out.1.map view), out.2) ∧
          (answered r kept).1.Reports (out.1.map view)) ∧
    (lifetime < neverExpires → ∃ message, out = (.error (.invalidArgument message), s)) ∧
    (neverExpires ≤ lifetime → ¬ w.tables.applications.contains appId →
      out.1 = .error .applicationNotFound ∧ out.2.world = w) ∧
    ∀ app ∈ w.tables.applications, app.id = appId → neverExpires ≤ lifetime →
      (∀ k < 3, ¬ w.tables.tokens.contains (text k) →
        (∀ j < k, w.tables.tokens.contains (text j)) →
        ∃ shown tokens, out.1 = .ok ⟨app, shown⟩ ∧
          out.2.world =
            { w with minted := w.minted + (k + 1), tables := { w.tables with tokens } } ∧
          (∀ row, row ∈ tokens ↔
            row = ⟨text k, appId, lifetime, times (3 + 3 * k + 1)⟩ ∨ row ∈ w.tables.tokens) ∧
          shown.Nodup ∧ ∀ row, row ∈ shown ↔ row ∈ tokens ∧ row.appId = appId) ∧
      ((∀ k < 3, w.tables.tokens.contains (text k)) →
        out.1 = .error .tokenDuplicate ∧ out.2.world = { w with minted := w.minted + 3 } ∧
          ∀ (r : Http.Request) (kept : Option Http.Metrics)
            (view : ApplicationWithTokens → Json.Value),
            r.AsksFor (.createToken appId lifetime) view →
              (answered r kept).1.Refuses 500 "INTERNAL" "An internal error occurred"
                "INTERNAL") := by
  intro s text out answered
  have hanswered (r : Http.Request) (kept : Option Http.Metrics)
      (view : ApplicationWithTokens → Json.Value)
      (hasks : r.AsksFor (.createToken appId lifetime) view) :
      answered r kept = (.ofResult (out.1.map view), out.2) := by
    show ((Http.answer kept r).run Timed.answer).run s = _
    rw [Http.answer_eq_bind hasks, Program.run_bind]
    rfl
  refine ⟨fun r kept view hasks => ⟨hanswered r kept view hasks, ?_⟩, ?_, ?_, ?_⟩
  · rw [hanswered r kept view hasks]
    exact Http.Answer.reports_ofResult _
  · intro hlife
    have hcreate : create appId lifetime = throw (.invalidArgument
        ("expire time must be -1 or non-negative, got " ++ toString lifetime.toInt)) :=
      if_pos hlife
    exact ⟨_, congrArg (outcome Timed.answer · s) hcreate⟩
  · intro hlife hmissing
    have hnone : s.world.tables.application appId = .error .applicationNotFound :=
      congrArg (found .applicationNotFound) (Option.not_isSome_iff_eq_none.1 hmissing)
    have hout : out = (.error .applicationNotFound, s.later 1) := by
      show outcome Timed.answer (create appId lifetime) s = _
      unfold create
      rw [if_neg (Int64.not_lt.2 hlife)]
      dsimp only
      rw [Timed.outcome_missing_bind (·.application appId) rfl hnone]
    rw [hout]
    exact ⟨rfl, rfl⟩
  · rintro app happ rfl hlife
    have happ' : w.tables.applications.find? app.id = some app := Table.find?_of_mem happ
    have howner : w.tables.applications.contains app.id := Table.contains_of_mem happ
    have hcreate : out = _ := Timed.outcome_create (s := s) hwf (Int64.not_lt.2 hlife) happ'
    constructor
    · intro k hk hfree htaken
      let row : Token := ⟨text k, app.id, lifetime, times (3 + 3 * k + 1)⟩
      have hissue : outcome Timed.answer (issue app.id lifetime 2) (s.later 3) = _ :=
        Timed.outcome_issue_stored howner (Nat.le_of_lt_succ hk) hfree htaken
      rw [outcome_bind, hissue] at hcreate
      dsimp only at hcreate
      rw [Timed.outcome_getById happ'] at hcreate
      rw [hcreate]
      refine ⟨_, w.tables.tokens.insert row, rfl, rfl, fun r => Table.mem_insert_new hfree, ?_,
        fun r => ?_⟩
      · exact (List.mergeSort_perm _ _).nodup_iff.2 (Table.nodup_rows _ |>.filter _)
      · rw [mem_tokensWhere, decide_eq_true_eq]
        rfl
    · intro htaken
      have hissue : outcome Timed.answer (issue app.id lifetime 2) (s.later 3) = _ :=
        Timed.outcome_issue_refused howner fun j hj => htaken j (Nat.lt_succ_of_le hj)
      rw [outcome_bind, hissue] at hcreate
      have hfails : out.1 = .error .tokenDuplicate := by
        rw [hcreate]
      refine ⟨hfails, by rw [hcreate]; rfl, fun r kept view hasks => ?_⟩
      rw [hanswered r kept view hasks, hfails]
      exact Http.Answer.reports_ofFailure .tokenDuplicate

/-- The registry as it is set up with the token `root`, which is also the first text that is made
after that. -/
def afterRoot (second : String) : World :=
  (fresh ⟨0, 0⟩ fun n => if n = 0 then "root" else second).after [⟨.provision "root", ⟨0, 0⟩⟩]

/-- If the texts are `root` and `made`, the second one is stored, at the time at which the second
attempt has asked for it. If they are all `root`, a client that asks for a token is told of an
internal error, and nothing else. -/
theorem stores_second_text_or_none :
    let made := afterRoot "made"
    let root := afterRoot "root"
    let times (n : Nat) : Instant := ⟨n, 0⟩
    let out := outcome Timed.answer (create 1 neverExpires) ⟨made, times, 0⟩
    let told := ((Http.answer none Traffic.Handover.issue).run Timed.answer).run ⟨root, times, 0⟩
    (made.tables.WellFormed ∧ out.2.world.minted = 2 ∧
      ∃ app shown, out.1 = .ok ⟨app, shown⟩ ∧ ⟨"made", 1, neverExpires, ⟨7, 0⟩⟩ ∈ shown) ∧
    root.tables.WellFormed ∧
      told.1.Refuses 500 "INTERNAL" "An internal error occurred" "INTERNAL" := by
  intro made root times out told
  let admin : Application := ⟨1, "admin", "", 1, .system, ⟨0, 0⟩, ⟨0, 0⟩⟩
  have hmade : made.tables.WellFormed := after_wellFormed _ _ _
  have hroot : root.tables.WellFormed := after_wellFormed _ _ _
  have hadmin : admin ∈ made.tables.applications.rows := by decide +kernel
  have hadmin' : admin ∈ root.tables.applications.rows := by decide +kernel
  have hfirst : made.tables.tokens.contains (made.mint (made.minted + 0)) := by decide +kernel
  have hsecond : ¬ made.tables.tokens.contains (made.mint (made.minted + 1)) := by decide +kernel
  have hall : ∀ k < 3, root.tables.tokens.contains (root.mint (root.minted + k)) := by
    decide +kernel
  have htext : made.mint (made.minted + 1) = "made" := by decide +kernel
  have hminted : made.minted + (1 + 1) = 2 := by decide +kernel
  clear_value made root
  constructor
  · obtain ⟨_, _, _, hstores⟩ := stores_first_unused made hmade times 1 neverExpires
    obtain ⟨hfree, _⟩ := hstores admin hadmin rfl (by decide)
    obtain ⟨shown, tokens, hok, hworld, htokens, _, hshown⟩ := hfree 1 (by decide) hsecond
      fun j hj => by rwa [show j = 0 by omega]
    refine ⟨hmade, ?_, admin, shown, hok, (hshown _).2 ⟨(htokens _).2 (.inl ?_), rfl⟩⟩
    · rw [hworld]
      exact hminted
    · dsimp only
      rw [htext]
      rfl
  · obtain ⟨_, _, _, hstores⟩ := stores_first_unused root hroot times 1 neverExpires
    obtain ⟨_, htaken⟩ := hstores admin hadmin' rfl (by decide)
    exact ⟨hroot, (htaken hall).2.2 _ none _ Traffic.Handover.asks⟩

end Credentials

end AccessRegistry
