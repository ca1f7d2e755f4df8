import AccessRegistry.Proofs.Request
import AccessRegistry.Proofs.WritesOnce

/-!
# AccessRegistry.Proofs.Durability

At most one write of a request takes effect, whatever calls fail on the way. What is known of the
calls of an operation (`Operation.rule_once`) holds of the calls of a trial of the request that asks
for it, and the worlds that a trial leads through change with that one write only.
-/

namespace AccessRegistry

open AccessRegistry.Action World

theorem committed_eq_singleton {before after : List (Exchange Port)} {e : Exchange Port}
    (hbefore : Quiet before) (he : e.commits = true) (hafter : Quiet after) :
    committed (before ++ e :: after) = [e] := by
  have hrest : committed (e :: after) = e :: committed after := List.filter_cons_of_pos he
  rw [committed_append, hbefore.committed_eq, hrest, hafter.committed_eq, List.nil_append]

namespace Http

/-- What always holds of an operation, of its calls and its result, holds of the calls of a request
that asks for it, and its answer. -/
theorem serve_always {r : Request} {β : Type} {op : Operation β} {view : β → Json.Value}
    (h : r.AsksFor op view) (kept : Option Metrics)
    {P : List (Exchange Port) → Except Failure β → Prop} (hop : Always op.rule P) :
    (serve r kept).Always fun calls out => ∃ x : Except Failure β,
      P calls x ∧ out.1 = Answer.ofResult (x.map view) := by
  show Program.Always ((answer kept r).bind _) _
  rw [answer_of_asksFor h, Program.always_bind]
  show Program.Always ((program (view <$> op.rule)).bind _) _
  rw [Program.always_bind]
  refine (always_map view op.rule).2 (Always.mono hop fun calls x hcalls => ?_)
  refine ⟨x, ?_, rfl⟩
  simpa using hcalls

end Http

/-- The last call of a trial has looked for the result of a write that took effect, and failed. -/
def Trial.EndsUnseen {ρ α : Type} (trial : Trial ρ) (op : Operation α) : Prop :=
  ∃ (before after : List (Exchange Port)) (e : Exchange Port) (γ : Type) (d : Port γ)
    (f : Failure), trial.calls = before ++ e :: (after ++ [⟨d, .error f⟩]) ∧ e.commits = true ∧
      Quiet after ∧ op.Shows ⟨d, .error f⟩

/-- An operation that succeeds without a write has nothing to write. -/
theorem Operation.nothingToWrite {r : Http.Request} {β : Type} {op : Operation β}
    {view : β → Json.Value} (h : r.AsksFor op view) (kept : Option Http.Metrics)
    (outages : Outages) (w : World) (hwrites : op.reads = false) (hrests : op.MayRest)
    (hquiet : Quiet (World.trial outages (Http.serve r kept) w).calls)
    (hok : (World.trial outages (Http.serve r kept) w).result.1.status = 200) :
    op.NothingToWrite w.tables := by
  cases op with
  | revokeTokens appId tokens => exact hrests
  | deletePermissions appId methods => exact hrests
  | provision token => exact hrests
  | revokeAllTokens appId =>
    obtain ⟨x, hx, hresult⟩ := trial_of_always
      (Http.serve_always h kept (Credentials.revokeByAppId_quiet appId)) outages w
    rw [hresult, Http.Answer.status_ofResult] at hok
    cases x with
    | error f => exact nomatch hok
    | ok out =>
      obtain ⟨w', ⟨n, _, rfl⟩, hlook⟩ := (trial_course outages _ w).looked hquiet
        (hx out rfl hquiet)
      exact Except.ok.inj hlook
  | _ => exact absurd (hwrites.symm.trans hrests) Bool.false_ne_true

/-- What a trial of a request comes to that asks for an operation. -/
theorem Operation.trial_cases {r : Http.Request} {β : Type} {op : Operation β}
    {view : β → Json.Value} (h : r.AsksFor op view) (kept : Option Http.Metrics)
    (outages : Outages) (w : World) :
    let trial := World.trial outages (Http.serve r kept) w
    (Quiet trial.calls ∧
      (trial.result.1.status = 200 → op.reads = false → op.NothingToWrite w.tables)) ∨
    ∃ before e after, trial.calls = before ++ e :: after ∧ Quiet before ∧ e.commits = true ∧
      Quiet after ∧ op.Writes e ∧ (trial.result.1.status ≠ 200 → trial.EndsUnseen op) := by
  intro trial
  obtain ⟨x, hcalls, hresult⟩ := trial_of_always (Http.serve_always h kept op.rule_once) outages w
  have hok : trial.result.1.status = 200 ↔ ∃ v, x.map view = .ok v := by
    rw [hresult, Http.Answer.status_ofResult]
  generalize htrial : (World.trial outages (Http.serve r kept) w).calls = calls at hcalls
  cases hcalls with
  | failed hquiet => exact .inl ⟨hquiet, fun h200 => nomatch hok.1 h200⟩
  | rested hrests hquiet =>
    refine .inl ⟨hquiet, fun h200 hwrites => ?_⟩
    exact nothingToWrite h kept outages w hwrites hrests (htrial ▸ hquiet) h200
  | wrote hbefore he hwrite hafter =>
    exact .inr ⟨_, _, _, rfl, hbefore, he, hafter, hwrite, fun hne => absurd (hok.2 ⟨_, rfl⟩) hne⟩
  | @unseen _ _ _ _ d f hbefore he hwrite hafter hshows =>
    refine .inr ⟨_, _, _, rfl, hbefore, he, hafter.append ?_, hwrite, fun _ => ?_⟩
    · exact .cons (Exchange.commits_error d f) .nil
    · exact ⟨_, _, _, _, d, f, htrial, he, hafter, hshows⟩

/-- However the calls of a request fail: the tables are as before, or as one write has left them
that belongs to the operation the request asks for. Success means that it was made, unless there is
nothing to write. If the answer reports a failure nevertheless, the last call has failed, which
looked for the result of the write. -/
theorem one_durable_write (w : World) (outages : Outages) (kept : Option Http.Metrics)
    (r : Http.Request) :
    let trial := World.trial outages (Http.serve r kept) w
    (committed trial.calls = [] ∧ trial.world.tables = w.tables ∨
      ∃ e, committed trial.calls = [e] ∧ e.TurnedInto w trial.world.tables) ∧
    (committed trial.calls ≠ [] →
      ∃ (β : Type) (op : Operation β) (view : β → Json.Value), r.AsksFor op view) ∧
    ∀ {β : Type} {op : Operation β} {view : β → Json.Value}, r.AsksFor op view →
      (∀ e ∈ committed trial.calls, op.Writes e) ∧
      (trial.result.1.status = 200 → op.reads = false →
        committed trial.calls ≠ [] ∨ op.NothingToWrite w.tables) ∧
      (trial.result.1.status ≠ 200 → committed trial.calls ≠ [] → trial.EndsUnseen op) := by
  intro trial
  have hcourse : Course outages w trial.calls trial.world := trial_course outages _ w
  have hquiet (h : Quiet trial.calls) :
      committed trial.calls = [] ∧ trial.world.tables = w.tables :=
    ⟨h.committed_eq, (hcourse.untouched h).tables⟩
  -- a request that asks for no operation looks at most
  have hlook (h : (Http.answer kept r).Looks) : Quiet trial.calls := by
    refine trial_of_always (P := fun calls _ => Quiet calls) (Program.Looks.quiet ?_) outages w
    exact h.bind fun _ => trivial
  refine ⟨?_, fun hne => ?_, fun {β op view} h => ?_⟩
  · rcases Http.answer_cases kept r with ⟨β, op, view, h⟩ | h
    · rcases Operation.trial_cases h kept outages w with
        ⟨hcalls, _⟩ | ⟨before, e, after, hcalls, hbefore, he, hafter, _⟩
      · exact .inl (hquiet hcalls)
      · refine .inr ⟨e, ?_, (hcalls ▸ hcourse).turnedInto hbefore he hafter⟩
        rw [hcalls, committed_eq_singleton hbefore he hafter]
    · exact .inl (hquiet (hlook h))
  · rcases Http.answer_cases kept r with h | h
    · exact h
    · exact absurd (hlook h).committed_eq hne
  · rcases Operation.trial_cases h kept outages w with
      ⟨hcalls, hnothing⟩ | ⟨before, e, after, hcalls, hbefore, he, hafter, hwrite, hunseen⟩
    · rw [hcalls.committed_eq]
      refine ⟨List.forall_mem_nil _, fun hok hwrites => .inr (hnothing hok hwrites), ?_⟩
      exact fun _ hne => absurd rfl hne
    · have hone : committed trial.calls = [e] := by
        rw [hcalls, committed_eq_singleton hbefore he hafter]
      rw [hone]
      refine ⟨fun d hd => ?_, fun _ _ => .inl (List.cons_ne_nil e []), fun hne _ => hunseen hne⟩
      rw [List.mem_singleton.1 hd]
      exact hwrite

end AccessRegistry
