import AccessRegistry.Proofs.Gate

/-!
# AccessRegistry.Proofs.Serial

However the clients of the storage in memory take turns, it is as if the writes that took effect had
been made one after another, in the order in which the clients took the gate, and every answer is
the one that its call gets alone after some of them (`serializable`).

What carries this: only the client that holds the gate is at work, and its copy is what its requests
so far make of the shared tables, which nobody else changes meanwhile (`Stage.Follows`).
-/

namespace AccessRegistry
namespace Gate

/-! ## Calls alone -/

section Alone

variable {γ : Type} {c : Port γ} {m : Moment} {t : Tables}

theorem alone_transaction {u : UseCase} {α : Type} {work : Work u α} {moments : List Moment}
    {r : Except Failure α} {copy : Tables}
    (h : moments.foldl workStep (work.program, t) = (.done r, copy)) :
    alone (.transaction u work) moments t = some (r, if r.toBool then copy else t) := by
  simp only [alone, h]

/-- A statement by itself is answered by the world at once. -/
theorem begin_act (hc : ∀ u (work : Work u γ), c ≠ .transaction u work) :
    Stage.begin c m t = Stage.act c m t ∧
      alone c [m] t = some (((World.answerCall c).run (m.world t)).1,
        ((World.answerCall c).run (m.world t)).2.tables) := by
  cases c with
  | transaction u work => exact absurd rfl (hc u work)
  | _ => exact ⟨rfl, rfl⟩

theorem alone_look (h : c.writes = false) :
    alone c [m] t = some (((World.answerCall c).run (m.world t)).1, t) := by
  have hw := World.answerCall_look h (m.world t)
  have halone := (begin_act (c := c) (m := m) (t := t) (by rintro u work rfl; cases h)).2
  rw [halone, hw]
  rfl

/-- Some work that is over after its requests, at moments taken from a world. -/
theorem workStep_answerWork {u : UseCase} {ρ : Type} (p : Program (Effect (Capability u)) ρ)
    (w : World) : ∃ moments : List Moment, moments.foldl workStep (p, w.tables) =
      (.done ((p.run World.answerWork).run w).1, ((p.run World.answerWork).run w).2.tables) := by
  induction p generalizing w with
  | done r => exact ⟨[], rfl⟩
  | ask e next ih =>
    let m : Moment := ⟨w.now, w.mint w.minted⟩
    have hstep : workStep (.ask e next, w.tables) m =
        (next ((World.answerWork _ e).run w).1, ((World.answerWork _ e).run w).2.tables) := by
      cases e <;> rfl
    obtain ⟨moments, h⟩ := ih ((World.answerWork _ e).run w).1 ((World.answerWork _ e).run w).2
    refine ⟨m :: moments, ?_⟩
    rw [List.foldl_cons, hstep]
    exact h

/-- With the tables for itself and the clock standing still, a call is what the world answers. -/
theorem alone_answerCall (c : Port γ) (w : World) :
    ∃ moments, alone c moments w.tables =
      some (((World.answerCall c).run w).1, ((World.answerCall c).run w).2.tables) := by
  cases c with
  | transaction u work =>
    obtain ⟨moments, h⟩ := workStep_answerWork work.program w
    exact ⟨moments, alone_transaction h⟩
  | _ => exact ⟨[⟨w.now, w.mint w.minted⟩], rfl⟩

end Alone

/-! ## Steps of one client -/

namespace Stage

variable {γ : Type} {c : Port γ} {m : Moment} {t : Tables}

/-- A copy is what the requests so far have made of the shared tables. -/
def Follows : Stage c → Tables → Prop
  | @working _ _ work moments rest copy, t =>
    moments.foldl workStep (work.program, t) = (rest, copy)
  | _, _ => True

/-- What a step does, as far as it matters to others. -/
structure Sound (st : Stage c) (t : Tables) (move : Move c) : Prop where
  follows : move.stage.Follows move.tables
  /-- tables change with a write that takes effect, and with nothing else -/
  unchanged : move.commit = none → move.tables = t
  /-- such a write is the only one of its client, which holds the gate -/
  commit : ∀ moments, move.commit = some moments →
    st.holds ∧ st.answer? = none ∧ c.writes ∧
      ∃ x, move.stage.answer? = some (.ok x) ∧ alone c moments t = some (.ok x, move.tables)
  /-- an answer is the one that the call gets alone -/
  answer : ∀ r, move.stage.answer? = some r → st.answer? = some r ∨
    st.answer? = none ∧ ∃ moments, alone c moments t = some (r, move.tables) ∧
      (c.writes → r.toBool → move.commit = some moments)
  answered : ∀ r, st.answer? = some r → move.stage.answer? = some r
  holds : move.stage.holds → st.holds
  waits : move.stage.isWaiting → st.isWaiting

theorem sound_act (hc : ∀ u (work : Work u γ), c ≠ .transaction u work) :
    (entered : Stage c).Sound t (act c m t) := by
  have halone := (begin_act (m := m) (t := t) hc).2
  have hquiet := World.untouched_tryCall none c (m.world t)
  rw [World.tryCall] at hquiet
  cases hrun : (World.answerCall c).run (m.world t) with
  | mk r w =>
    have hact : act c m t =
        ⟨answered r, w.tables, if Exchange.commits ⟨c, r⟩ then some [m] else none⟩ := by
      simp only [act, hrun]
    rw [hrun] at halone hquiet
    rw [hact]
    refine ⟨trivial, fun h => ?_, fun moments h => ?_, fun r' h => .inr ?_, fun r h => ?_,
      fun _ => rfl, fun h => ?_⟩
    · exact (hquiet (by simpa using h)).tables
    · obtain ⟨hcommits, rfl⟩ : Exchange.commits ⟨c, r⟩ = true ∧ [m] = moments := by simpa using h
      obtain ⟨hwrites, hok⟩ := Bool.and_eq_true_iff.1 hcommits
      cases r with
      | error f => cases hok
      | ok x => exact ⟨rfl, rfl, hwrites, x, rfl, halone⟩
    · cases h
      refine ⟨rfl, [m], halone, fun hwrites hok => if_pos ?_⟩
      rw [Exchange.commits, hwrites, hok]
      rfl
    · cases h
    · cases h

theorem sound_begin (c : Port γ) : (entered : Stage c).Sound t (begin c m t) := by
  cases c with
  | transaction u work =>
    refine ⟨rfl, fun _ => rfl, fun moments h => ?_, fun r h => ?_, fun r h => ?_, fun _ => rfl,
      fun h => ?_⟩ <;> cases h
  | _ =>
    refine (begin_act ?_).1 ▸ sound_act ?_ <;> exact fun _ _ => nofun

theorem sound_next (st : Stage c) (h : st.Follows t) : st.Sound t (st.next m t) := by
  cases st with
  | waiting =>
    simp only [next]
    split
    · refine ⟨trivial, fun _ => rfl, fun moments h => ?_, fun r h => ?_, fun r h => ?_, id, id⟩
        <;> cases h
    · rename_i hlook
      refine ⟨trivial, fun _ => rfl, fun moments h => ?_, fun r h => .inr ?_, fun r h => ?_, ?_, ?_⟩
      · cases h
      · cases h
        exact ⟨rfl, [m], alone_look (by simpa using hlook), fun hwrites => absurd hwrites hlook⟩
      · cases h
      · exact nofun
      · exact fun _ => rfl
  | entered => exact sound_begin c
  | @working u α work moments rest copy =>
    have hfollows : moments.foldl workStep (work.program, t) = (rest, copy) := h
    cases rest with
    | ask e next =>
      refine ⟨?_, fun _ => rfl, fun moments h => ?_, fun r h => ?_, fun r h => ?_, fun _ => rfl,
        fun h => ?_⟩
      · show (moments ++ [m]).foldl workStep (work.program, t) = _
        rw [List.foldl_append, hfollows]
        rfl
      all_goals cases h
    | done r =>
      have halone := alone_transaction hfollows
      cases r with
      | ok a =>
        refine ⟨trivial, fun h => ?_, fun moments' h => ?_, fun r h => .inr ?_, fun r h => ?_,
          fun _ => rfl, fun h => ?_⟩
        · cases h
        · cases h
          exact ⟨rfl, rfl, rfl, a, rfl, halone⟩
        · cases h
          exact ⟨rfl, moments, halone, fun _ _ => rfl⟩
        · cases h
        · cases h
      | error f =>
        refine ⟨trivial, fun _ => rfl, fun moments' h => ?_, fun r h => .inr ?_, fun r h => ?_,
          fun _ => rfl, fun h => ?_⟩
        · cases h
        · cases h
          exact ⟨rfl, moments, halone, fun _ h => by cases h⟩
        · cases h
        · cases h
  | answered r =>
    exact ⟨trivial, fun _ => rfl, nofun, fun r h => .inl h, fun r h => h, nofun, nofun⟩
  | gone r =>
    exact ⟨trivial, fun _ => rfl, nofun, fun r h => .inl h, fun r h => h, id, id⟩

theorem follows_of_not_holds {st : Stage c} (h : ¬ st.holds) : st.Follows t := by
  cases st with
  | working => exact absurd rfl h
  | _ => trivial

theorem answer?_of_waiting {st : Stage c} (h : st.isWaiting) : st.answer? = none := by
  cases st with
  | waiting => rfl
  | _ => cases h

@[simp]
theorem answer?_drop (st : Stage c) : st.drop.answer? = st.answer? := by
  cases st <;> rfl

@[simp]
theorem holds_drop (st : Stage c) : st.drop.holds = false := by
  cases st <;> rfl

@[simp]
theorem isWaiting_drop (st : Stage c) : st.drop.isWaiting = false := by
  cases st <;> rfl

end Stage

/-! ## All clients -/

variable {clients : Nat → Client} {t₀ : Tables}

theorem replay_append (log more : List Entry) (t : Tables) :
    replay clients (log ++ more) t = (replay clients log t).bind (replay clients more) :=
  List.foldlM_append

/-- The answer is the one that the call gets alone after some of the writes. If it is a write that
took effect, it comes right after them. -/
def Served (clients : Nat → Client) (t₀ : Tables) (log : List Entry) (i : Nat)
    (r : Except Failure (clients i).γ) : Prop :=
  ∃ before later moments t t', log = before ++ later ∧ replay clients before t₀ = some t ∧
    alone (clients i).call moments t = some (r, t') ∧
    ((clients i).call.writes → r.toBool → later.head? = some ⟨i, moments⟩)

theorem Served.append {log : List Entry} {i : Nat} {r : Except Failure (clients i).γ}
    (h : Served clients t₀ log i r) (more : List Entry) :
    Served clients t₀ (log ++ more) i r := by
  obtain ⟨before, later, moments, t, t', rfl, hreplay, halone, hnext⟩ := h
  refine ⟨before, later ++ more, moments, t, t', List.append_assoc .., hreplay, halone,
    fun hwrites hok => ?_⟩
  rw [List.head?_append, hnext hwrites hok]
  rfl

namespace State

variable {s : State clients}

/-- The clients whose writes took effect, in order. -/
def writers (s : State clients) : List Nat := s.log.map Entry.client

/-- What holds at every moment of the tables, the gate and the answers. -/
structure Serial (t₀ : Tables) (s : State clients) : Prop where
  replayed : replay clients s.log t₀ = some s.tables
  holder : ∀ i, (s.stage i).holds ↔ s.holder = some i
  follows : ∀ i, (s.stage i).Follows s.tables
  served : ∀ i r, (s.stage i).answer? = some r → Served clients t₀ s.log i r
  writers : ∀ i, i ∈ s.writers →
    (clients i).call.writes ∧ ∃ x, (s.stage i).answer? = some (.ok x)

theorem serial_start (clients : Nat → Client) (t₀ : Tables) : (start clients t₀).Serial t₀ where
  replayed := rfl
  holder _ := ⟨nofun, nofun⟩
  follows _ := trivial
  served _ _ := nofun
  writers _ := nofun

/-- What holds of every stage after one of them has changed. -/
theorem forall_stage {P : (i : Nat) → Stage (clients i).call → Prop} {i : Nat}
    {st : Stage (clients i).call} (hi : P i st) (hothers : ∀ j, j ≠ i → P j (s.stage j)) (j : Nat) :
    P j (Function.update s.stage i st j) :=
  (Function.forall_update_iff s.stage P).2 ⟨hi, hothers⟩ j

theorem Serial.enter (h : s.Serial t₀) {i : Nat} (hfree : s.holder = none)
    (hwaits : (s.stage i).isWaiting) :
    Serial t₀ { s with
      holder := some i
      stage := Function.update s.stage i .entered
      entered := s.entered ++ [i] } where
  replayed := h.replayed
  holder := by
    refine forall_stage (P := fun j st => st.holds ↔ some i = some j) (by simp [Stage.holds]) ?_
    intro j hj
    have hother := h.holder j
    rw [hfree] at hother
    simpa [Ne.symm hj] using hother
  follows := forall_stage (P := fun _ st => st.Follows s.tables) trivial fun j _ => h.follows j
  served := forall_stage
    (P := fun j st => ∀ r, st.answer? = some r → Served clients t₀ s.log j r) nofun
    fun j _ => h.served j
  writers := by
    refine forall_stage (P := fun j st => j ∈ s.writers →
      (clients j).call.writes ∧ ∃ x, st.answer? = some (.ok x)) ?_ fun j _ => h.writers j
    intro hi
    obtain ⟨_, x, hx⟩ := h.writers i hi
    rw [Stage.answer?_of_waiting hwaits] at hx
    cases hx

theorem Serial.drop (h : s.Serial t₀) (i : Nat) :
    Serial t₀ { s with
      holder := if (s.stage i).holds then none else s.holder
      stage := Function.update s.stage i (s.stage i).drop } where
  replayed := h.replayed
  holder := by
    refine forall_stage
      (P := fun j st => st.holds ↔ (if (s.stage i).holds then none else s.holder) = some j) ?_ ?_
    · have hi := h.holder i
      split
      · simp
      · rename_i hholds
        simpa [hholds] using hi
    · intro j hj
      split
      · rename_i hholds
        rw [h.holder j, (h.holder i).1 hholds]
        simpa using Ne.symm hj
      · exact h.holder j
  follows := forall_stage (P := fun _ st => st.Follows s.tables)
    (Stage.follows_of_not_holds (by simp)) fun j _ => h.follows j
  served := by
    refine forall_stage (P := fun j st => ∀ r, st.answer? = some r → Served clients t₀ s.log j r)
      (fun r hr => h.served i r ?_) fun j _ => h.served j
    rwa [Stage.answer?_drop] at hr
  writers := by
    refine forall_stage (P := fun j st => j ∈ s.writers →
      (clients j).call.writes ∧ ∃ x, st.answer? = some (.ok x)) ?_ fun j _ => h.writers j
    rw [Stage.answer?_drop]
    exact h.writers i

theorem Serial.move (h : s.Serial t₀) {i : Nat} {move : Move (clients i).call}
    (hsound : (s.stage i).Sound s.tables move) :
    Serial t₀ { s with
      tables := move.tables
      holder := if (s.stage i).holds ∧ ¬ move.stage.holds then none else s.holder
      stage := Function.update s.stage i move.stage
      log := s.log ++ (move.commit.map (Entry.mk i)).toList } := by
  -- while this client holds the gate, no other one does
  have hothers : ∀ j, j ≠ i → (s.stage i).holds → ¬ (s.stage j).holds := by
    intro j hj hi hholds
    have heq := ((h.holder i).1 hi).symm.trans ((h.holder j).1 hholds)
    exact hj (Option.some.inj heq).symm
  refine ⟨?_, ?_, ?_, ?_, ?_⟩
  · rw [replay_append, h.replayed, Option.bind_some]
    cases hcommit : move.commit with
    | none => exact congrArg some (hsound.unchanged hcommit).symm
    | some moments =>
      obtain ⟨_, _, _, x, _, halone⟩ := hsound.commit moments hcommit
      simp [replay, halone]
  · refine forall_stage (P := fun j st => st.holds ↔
      (if (s.stage i).holds ∧ ¬ move.stage.holds then none else s.holder) = some j) ?_ ?_
    · have hi := h.holder i
      split
      · rename_i hleft
        simpa using hleft.2
      · rename_i hstays
        refine ⟨fun hmove => hi.1 (hsound.holds hmove), fun hholder => ?_⟩
        by_contra hleft
        exact hstays ⟨hi.2 hholder, hleft⟩
    · intro j hj
      split
      · rename_i hleft
        simpa using hothers j hj hleft.1
      · exact h.holder j
  · refine forall_stage (P := fun _ st => st.Follows move.tables) hsound.follows fun j hj => ?_
    cases hcommit : move.commit with
    | none =>
      rw [hsound.unchanged hcommit]
      exact h.follows j
    | some moments =>
      exact Stage.follows_of_not_holds (hothers j hj (hsound.commit moments hcommit).1)
  · refine forall_stage (P := fun j st => ∀ r, st.answer? = some r → Served clients t₀ _ j r)
      (fun r hr => ?_) fun j _ r hr => (h.served j r hr).append _
    rcases hsound.answer r hr with hbefore | ⟨_, moments, halone, hcommit⟩
    · exact (h.served i r hbefore).append _
    · refine ⟨s.log, _, moments, s.tables, move.tables, rfl, h.replayed, halone,
        fun hwrites hok => ?_⟩
      rw [hcommit hwrites hok]
      rfl
  · have hmem : ∀ j, j ∈ (s.log ++ (move.commit.map (Entry.mk i)).toList).map Entry.client →
        j ∈ s.writers ∨ j = i ∧ ∃ moments, move.commit = some moments := by
      intro j hj
      rw [List.map_append, List.mem_append] at hj
      refine hj.imp_right fun hj => ?_
      cases hcommit : move.commit <;> simp_all
    refine forall_stage (P := fun j st => j ∈ List.map Entry.client _ →
      (clients j).call.writes ∧ ∃ x, st.answer? = some (.ok x)) (fun hi => ?_) fun j hj hmemj => ?_
    · rcases hmem i hi with hi | ⟨_, moments, hcommit⟩
      · obtain ⟨hwrites, x, hx⟩ := h.writers i hi
        exact ⟨hwrites, x, hsound.answered _ hx⟩
      · obtain ⟨_, _, hwrites, x, hx, _⟩ := hsound.commit moments hcommit
        exact ⟨hwrites, x, hx⟩
    · rcases hmem j hmemj with hmemj | ⟨heq, _⟩
      · exact h.writers j hmemj
      · exact absurd heq hj

theorem Serial.next (h : s.Serial t₀) (e : Event) : (s.next e).Serial t₀ := by
  cases e with
  | enter i =>
    rw [State.next]
    split
    · rename_i hfree
      exact h.enter hfree.1 hfree.2.1
    · exact h
  | step i m => exact h.move (Stage.sound_next (s.stage i) (h.follows i))
  | drop i => exact h.drop i

/-- Who took the gate in which order, and who wrote in which order. -/
structure InOrder (s : State clients) : Prop where
  order : s.writers.Sublist s.entered
  once : s.entered.Nodup
  entered : ∀ i, i ∈ s.entered → ¬ (s.stage i).isWaiting
  /-- who holds the gate was the last to take it, and writes no earlier than it is answered -/
  last : ∀ i, s.holder = some i → ∃ before, s.entered = before ++ [i] ∧
    ((s.stage i).answer? = none → s.writers.Sublist before)

theorem inOrder_start (clients : Nat → Client) (t₀ : Tables) : (start clients t₀).InOrder :=
  ⟨.slnil, .nil, nofun, nofun⟩

theorem InOrder.enter (h : s.InOrder) {i : Nat} (hwaits : (s.stage i).isWaiting) :
    InOrder { s with
      holder := some i
      stage := Function.update s.stage i .entered
      entered := s.entered ++ [i] } where
  order := h.order.trans (List.sublist_append_left ..)
  once := by
    refine List.nodup_append.2 ⟨h.once, List.pairwise_singleton _ i, ?_⟩
    rintro j hj k hk rfl
    rw [List.mem_singleton.1 hk] at hj
    exact h.entered i hj hwaits
  entered := by
    refine forall_stage (P := fun j st => j ∈ s.entered ++ [i] → ¬ st.isWaiting) (fun _ => nofun) ?_
    intro j hj hmem
    exact h.entered j (by simpa [hj] using hmem)
  last j hj := by
    cases hj
    exact ⟨s.entered, rfl, fun _ => h.order⟩

theorem InOrder.drop (h : s.InOrder) (i : Nat) :
    InOrder { s with
      holder := if (s.stage i).holds then none else s.holder
      stage := Function.update s.stage i (s.stage i).drop } where
  order := h.order
  once := h.once
  entered := by
    refine forall_stage (P := fun j st => j ∈ s.entered → ¬ st.isWaiting) (by simp) ?_
    exact fun j _ => h.entered j
  last := by
    refine forall_stage (P := fun j st =>
      (if (s.stage i).holds then none else s.holder) = some j →
        ∃ before, s.entered = before ++ [j] ∧
          (st.answer? = none → s.writers.Sublist before)) ?_ ?_
    · rw [Stage.answer?_drop]
      split
      · exact nofun
      · exact h.last i
    · intro j _
      split
      · exact nofun
      · exact h.last j

theorem InOrder.move (h : s.InOrder) (hs : s.Serial t₀) {i : Nat} {move : Move (clients i).call}
    (hsound : (s.stage i).Sound s.tables move) :
    InOrder { s with
      tables := move.tables
      holder := if (s.stage i).holds ∧ ¬ move.stage.holds then none else s.holder
      stage := Function.update s.stage i move.stage
      log := s.log ++ (move.commit.map (Entry.mk i)).toList } where
  order := by
    cases hcommit : move.commit with
    | none => simpa [writers] using h.order
    | some moments =>
      obtain ⟨hholds, hanswer, _⟩ := hsound.commit moments hcommit
      obtain ⟨before, hentered, hbefore⟩ := h.last i ((hs.holder i).1 hholds)
      have hwriters := (hbefore hanswer).append (List.Sublist.refl [i])
      rw [← hentered] at hwriters
      simpa [writers] using hwriters
  once := h.once
  entered := by
    refine forall_stage (P := fun j st => j ∈ s.entered → ¬ st.isWaiting)
      (fun hi hwaits => h.entered i hi (hsound.waits hwaits)) ?_
    exact fun j _ => h.entered j
  last := by
    -- without a write nothing is new to the order
    have hquiet (hcommit : move.commit = none) :
        List.map Entry.client (s.log ++ (move.commit.map (Entry.mk i)).toList) = s.writers := by
      rw [hcommit, Option.map_none, Option.toList_none, List.append_nil]
      rfl
    refine forall_stage (P := fun j st =>
      (if (s.stage i).holds ∧ ¬ move.stage.holds then none else s.holder) = some j →
        ∃ before, s.entered = before ++ [j] ∧
          (st.answer? = none → (List.map Entry.client _).Sublist before)) ?_ ?_
    · split
      · exact nofun
      intro hholder
      obtain ⟨before, hentered, hbefore⟩ := h.last i hholder
      refine ⟨before, hentered, fun hnone => ?_⟩
      have hearlier : (s.stage i).answer? = none := by
        cases hr : (s.stage i).answer? with
        | none => rfl
        | some r =>
          rw [hsound.answered r hr] at hnone
          cases hnone
      have hcommit : move.commit = none := by
        cases hsome : move.commit with
        | none => rfl
        | some moments =>
          obtain ⟨_, _, _, x, hx, _⟩ := hsound.commit moments hsome
          rw [hx] at hnone
          cases hnone
      rw [hquiet hcommit]
      exact hbefore hearlier
    · intro j hj
      split
      · exact nofun
      intro hholder
      have hcommit : move.commit = none := by
        cases hsome : move.commit with
        | none => rfl
        | some moments =>
          have hi := (hs.holder i).1 (hsound.commit moments hsome).1
          exact absurd (Option.some.inj (hholder.symm.trans hi)) hj
      rw [hquiet hcommit]
      exact h.last j hholder

theorem InOrder.next (h : s.InOrder) (hs : s.Serial t₀) (e : Event) : (s.next e).InOrder := by
  cases e with
  | enter i =>
    rw [State.next]
    split
    · rename_i hfree
      exact h.enter hfree.2.1
    · exact h
  | step i m => exact h.move hs (Stage.sound_next (s.stage i) (hs.follows i))
  | drop i => exact h.drop i

theorem after_serial (h : s.Serial t₀) (ho : s.InOrder) (events : List Event) :
    (s.after events).Serial t₀ ∧ (s.after events).InOrder := by
  induction events generalizing s with
  | nil => exact ⟨h, ho⟩
  | cons e events ih => exact ih (h.next e) (ho.next h e)

end State

/-- However clients take turns, drop out or fail: the shared tables are what the writes that took
effect make of the first tables one after another; they took effect in the order in which their
clients took the gate, which each of them did once; they are the writes that were answered with
success, or would have been; and every answer is the one that the call gets alone after some of
them, right before its own write if it is one. -/
theorem serializable (clients : Nat → Client) (t₀ : Tables) (events : List Event) :
    let s := (State.start clients t₀).after events
    replay clients s.log t₀ = some s.tables ∧
      s.entered.Nodup ∧ s.writers.Sublist s.entered ∧
      (∀ i, i ∈ s.writers ↔
        (clients i).call.writes ∧ ∃ x, (s.stage i).answer? = some (.ok x)) ∧
      (∀ i r, (s.stage i).answer? = some r → Served clients t₀ s.log i r) := by
  intro s
  obtain ⟨hs, ho⟩ := State.after_serial (State.serial_start clients t₀)
    (State.inOrder_start clients t₀) events
  refine ⟨hs.replayed, ho.once, ho.order, fun i => ⟨hs.writers i, ?_⟩, hs.served⟩
  rintro ⟨hwrites, x, hx⟩
  obtain ⟨before, later, moments, t, t', hlog, _, _, hnext⟩ := hs.served i _ hx
  have hmem : ⟨i, moments⟩ ∈ later := List.mem_of_head? (hnext hwrites rfl)
  exact List.mem_map.2 ⟨_, hlog ▸ List.mem_append_right before hmem, rfl⟩

end Gate
end AccessRegistry
