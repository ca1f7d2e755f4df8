import AccessRegistry.Proofs.Traffic

/-!
# AccessRegistry.Proofs.Race

Clients that all want the same, of which one can have it. `Contends` says what such a client is like
in the tables of the start: its requests leave them alone, up to the one by which it wins. Whenever
another client has won, it comes to the same end whatever it has seen before, and writes nothing
more (`Settles`). Then one client wins in every interleaving, and all others lose (`race`).
-/

namespace AccessRegistry

variable {ρ σ : Type}

/-- The program ends with `a` after at most so many requests to these tables, which it leaves
alone. -/
def Settles (a : ρ) (t : Tables) : Nat → Program (Effect Port) ρ → Prop
  | _, .done b => b = a
  | 0, .ask _ _ => False
  | n + 1, .ask e next => ∀ w : World, w.tables = t →
    ((World.answer _ e).run w).2.tables = t ∧ Settles a t n (next ((World.answer _ e).run w).1)

/-- The program leaves these tables alone until it wins, which it does after at most so many
requests; `wins` are its ends, with the tables that they leave. In all tables of `lost` it ends with
`loss` instead. -/
def Contends (wins : ρ → Tables → Prop) (lost : Tables → Prop) (loss : ρ) (t : Tables) :
    Nat → Program (Effect Port) ρ → Prop
  | n + 1, .ask e next =>
    (∀ w : World, w.tables = t →
      ((World.answer _ e).run w).2.tables = t ∧
          Contends wins lost loss t n (next ((World.answer _ e).run w).1) ∨
        ∃ a, next ((World.answer _ e).run w).1 = .done a ∧
          wins a ((World.answer _ e).run w).2.tables) ∧
    ∀ t', lost t' → Settles loss t' (n + 1) (.ask e next)
  | _, _ => False

section Programs

variable {wins : ρ → Tables → Prop} {lost : Tables → Prop} {a loss : ρ} {t t' : Tables} {n : Nat}
  {p : Program (Effect Port) ρ} {w : World}

theorem settles_done {b : ρ} : Settles a t n (.done b) ↔ b = a := by
  cases n <;> rfl

theorem Settles.advance (h : Settles a t n p) (hw : w.tables = t) :
    (Traffic.advance w p).2.tables = t ∧ Settles a t (n - 1) (Traffic.advance w p).1 := by
  cases p with
  | done b => exact ⟨hw, settles_done.2 (settles_done.1 h)⟩
  | ask e next =>
    cases n with
    | zero => exact h.elim
    | succ n => exact h w hw

theorem Settles.done (h : Settles a t 0 p) : p = .done a := by
  cases p with
  | done b => exact congrArg _ h
  | ask e next => exact h.elim

theorem Contends.advance (h : Contends wins lost loss t n p) (hw : w.tables = t) :
    (Traffic.advance w p).2.tables = t ∧
        Contends wins lost loss t (n - 1) (Traffic.advance w p).1 ∨
      ∃ a, (Traffic.advance w p).1 = .done a ∧ wins a (Traffic.advance w p).2.tables := by
  cases n with
  | zero => exact h.elim
  | succ n =>
    cases p with
    | done b => exact h.elim
    | ask e next => exact h.1 w hw

theorem Contends.not_done (h : Contends wins lost loss t n (.done a)) : False := by
  cases n <;> exact h

theorem Contends.settles (h : Contends wins lost loss t n p) (ht : lost t') :
    Settles loss t' n p := by
  cases n with
  | zero => exact h.elim
  | succ n =>
    cases p with
    | done b => exact h.elim
    | ask e next => exact h.2 t' ht

theorem Contends.mono {wins' : ρ → Tables → Prop} (h : Contends wins lost loss t n p)
    (hwins : ∀ a t', wins a t' → wins' a t') : Contends wins' lost loss t n p := by
  induction n generalizing p with
  | zero => exact h.elim
  | succ n ih =>
    cases p with
    | done b => exact h.elim
    | ask e next =>
      refine ⟨fun w hw => ?_, h.2⟩
      exact (h.1 w hw).imp (And.imp_right ih)
        fun ⟨a, hdone, hwon⟩ => ⟨a, hdone, hwins _ _ hwon⟩

theorem Settles.map (h : Settles a t n p) (f : ρ → σ) :
    Settles (f a) t n (p.bind fun x => .done (f x)) := by
  induction n generalizing p with
  | zero =>
    rw [h.done]
    rfl
  | succ n ih =>
    cases p with
    | done b => exact congrArg f h
    | ask e next => exact fun w hw => ⟨(h w hw).1, ih (h w hw).2⟩

theorem Contends.map (h : Contends wins lost loss t n p) (f : ρ → σ) :
    Contends (fun b t' => ∃ a, b = f a ∧ wins a t') lost (f loss) t n
      (p.bind fun x => .done (f x)) := by
  induction n generalizing p with
  | zero => exact h.elim
  | succ n ih =>
    cases p with
    | done b => exact h.elim
    | ask e next =>
      refine ⟨fun w hw => ?_, fun t' ht => (h.settles ht).map f⟩
      rcases h.1 w hw with ⟨htables, hnext⟩ | ⟨a, hdone, hwins⟩
      · exact .inl ⟨htables, ih hnext⟩
      · refine .inr ⟨f a, ?_, a, rfl, hwins⟩
        show (next _).bind _ = _
        rw [hdone]
        rfl

end Programs

/-! ## All clients -/

/-- Whether a turn is one of this client. -/
def Turn.isOf (i : Nat) : Turn → Bool
  | .client j => j == i
  | .clock _ => false

theorem Turn.isOf_iff {i : Nat} {next : Turn} : next.isOf i = true ↔ next = .client i := by
  cases next with
  | clock now => simp [isOf]
  | client j => simp [isOf]

namespace Traffic

variable {wins : Nat → ρ → Tables → Prop} {loss : ρ} {t : Tables} {budget : Nat → Nat}
  {s : Traffic ρ}

/-- The tables that another client leaves when it wins. -/
def Lost (wins : Nat → ρ → Tables → Prop) (i : Nat) (t : Tables) : Prop :=
  ∃ j, j ≠ i ∧ ∃ a, wins j a t

/-- All clients contend in the first tables, or one of them has won and the others lose. The budget
is how many turns a client may still need. -/
def Racing (wins : Nat → ρ → Tables → Prop) (loss : ρ) (t : Tables) (budget : Nat → Nat)
    (s : Traffic ρ) : Prop :=
  (s.world.tables = t ∧ ∀ i p, s.clients[i]? = some p →
    Contends (wins i) (Lost wins i) loss t (budget i) p) ∨
  ∃ k a, s.clients[k]? = some (.done a) ∧ wins k a s.world.tables ∧
    ∀ i p, s.clients[i]? = some p → i ≠ k → Settles loss s.world.tables (budget i) p

/-- What is left of a budget after a turn. -/
def spend (budget : Nat → Nat) (next : Turn) (i : Nat) : Nat :=
  budget i - if next.isOf i then 1 else 0

theorem spend_self (i : Nat) : spend budget (.client i) i = budget i - 1 := by
  simp [spend, Turn.isOf]

theorem spend_other {i j : Nat} (h : j ≠ i) : spend budget (.client i) j = budget j := by
  simp [spend, Turn.isOf, Ne.symm h]

theorem turn_absent {i : Nat} (h : s.clients[i]? = none) : s.turn (.client i) = s := by
  simp only [turn, h]

theorem turn_client {i : Nat} {p : Program (Effect Port) ρ} (h : s.clients[i]? = some p) :
    s.turn (.client i) = ⟨(advance s.world p).2, s.clients.set i (advance s.world p).1⟩ := by
  simp only [turn, h]

theorem clients_turn_self {i : Nat} {p : Program (Effect Port) ρ} (h : s.clients[i]? = some p) :
    (s.turn (.client i)).clients[i]? = some (advance s.world p).1 := by
  obtain ⟨hlt, _⟩ := List.getElem?_eq_some_iff.1 h
  rw [turn_client h]
  exact List.getElem?_set_self hlt

/-- A turn that is not one of the client leaves it alone. -/
theorem clients_turn_other {i : Nat} {next : Turn} (h : next.isOf i = false) :
    (s.turn next).clients[i]? = s.clients[i]? := by
  cases next with
  | clock now => rfl
  | client j =>
    have hj : j ≠ i := by simpa [Turn.isOf] using h
    cases hq : s.clients[j]? with
    | none => rw [turn_absent hq]
    | some q =>
      rw [turn_client hq]
      exact List.getElem?_set_ne hj

/-- What holds of all clients and their budgets after a turn of one of them. -/
theorem forall_turn {P : Nat → Nat → Program (Effect Port) ρ → Prop} {i : Nat}
    {p q : Program (Effect Port) ρ} (hp : s.clients[i]? = some p) (hi : P i (budget i - 1) q)
    (hothers : ∀ j r, s.clients[j]? = some r → j ≠ i → P j (budget j) r) (j : Nat)
    (r : Program (Effect Port) ρ) (hr : (s.clients.set i q)[j]? = some r) :
    P j (spend budget (.client i) j) r := by
  obtain ⟨hlt, _⟩ := List.getElem?_eq_some_iff.1 hp
  by_cases hj : j = i
  · subst hj
    rw [List.getElem?_set_self hlt] at hr
    cases hr
    rw [spend_self]
    exact hi
  · rw [List.getElem?_set_ne (Ne.symm hj)] at hr
    rw [spend_other hj]
    exact hothers j r hr hj

theorem Racing.congr {other : Nat → Nat} (h : s.Racing wins loss t budget)
    (hsame : ∀ i p, s.clients[i]? = some p → other i = budget i) :
    s.Racing wins loss t other := by
  rcases h with ⟨htables, hall⟩ | ⟨k, a, hk, hwins, hothers⟩
  · refine .inl ⟨htables, fun i p hp => ?_⟩
    rw [hsame i p hp]
    exact hall i p hp
  · refine .inr ⟨k, a, hk, hwins, fun i p hp hik => ?_⟩
    rw [hsame i p hp]
    exact hothers i p hp hik

theorem Racing.turn (h : s.Racing wins loss t budget) (next : Turn) :
    (s.turn next).Racing wins loss t (spend budget next) := by
  cases next with
  | clock now => exact h
  | client i =>
    cases hp : s.clients[i]? with
    | none =>
      -- the turn of a client that is not there costs nobody a turn
      rw [turn_absent hp]
      refine h.congr fun j p hj => spend_other ?_
      rintro rfl
      rw [hp] at hj
      cases hj
    | some p =>
      obtain ⟨hlt, _⟩ := List.getElem?_eq_some_iff.1 hp
      rw [turn_client hp]
      rcases h with ⟨htables, hall⟩ | ⟨k, a, hk, hwins, hothers⟩
      · -- nobody has won yet, so this turn changes nothing or wins
        rcases (hall i p hp).advance htables with ⟨htables', hnext⟩ | ⟨a, hdone, hwins⟩
        · exact .inl ⟨htables', forall_turn hp hnext fun j q hj _ => hall j q hj⟩
        · have hwon : (s.clients.set i (advance s.world p).1)[i]? = some (.done a) := by
            rw [List.getElem?_set_self hlt, hdone]
          refine .inr ⟨i, a, hwon, hwins, ?_⟩
          refine forall_turn (P := fun j n r => j ≠ i → Settles loss _ n r) hp (absurd rfl) ?_
          exact fun j q hj hji _ => (hall j q hj).settles ⟨i, Ne.symm hji, a, hwins⟩
      · by_cases hik : i = k
        · -- the winner has nothing left to do
          subst hik
          rw [hp] at hk
          cases hk
          refine .inr ⟨i, a, List.getElem?_set_self hlt, hwins, ?_⟩
          refine forall_turn (P := fun j n r => j ≠ i → Settles loss _ n r) hp (absurd rfl) ?_
          exact fun j q hj _ hji => hothers j q hj hji
        · obtain ⟨htables, hnext⟩ := (hothers i p hp hik).advance rfl
          rw [← htables] at hwins hothers hnext
          have hwon : (s.clients.set i (advance s.world p).1)[k]? = some (.done a) := by
            rw [List.getElem?_set_ne hik, hk]
          refine .inr ⟨k, a, hwon, hwins, ?_⟩
          refine forall_turn (P := fun j n r => j ≠ k → Settles loss _ n r) hp (fun _ => hnext) ?_
          exact fun j q hj _ hjk => hothers j q hj hjk

theorem Racing.after (h : s.Racing wins loss t budget) (turns : List Turn) :
    (s.after turns).Racing wins loss t (turns.foldl spend budget) := by
  induction turns generalizing s budget with
  | nil => exact h
  | cons next turns ih => exact ih (h.turn next)

theorem foldl_spend (budget : Nat → Nat) (turns : List Turn) (i : Nat) :
    turns.foldl spend budget i = budget i - turns.countP (Turn.isOf i) := by
  induction turns generalizing budget with
  | nil => rfl
  | cons next turns ih =>
    rw [List.foldl_cons, ih, List.countP_cons, spend]
    omega

theorem length_after (s : Traffic ρ) (turns : List Turn) :
    (s.after turns).clients.length = s.clients.length := by
  induction turns generalizing s with
  | nil => rfl
  | cons next turns ih =>
    refine (ih (s.turn next)).trans ?_
    cases next with
    | clock now => rfl
    | client i =>
      simp only [turn]
      split
      · rfl
      · exact List.length_set

/-- Clients that contend, in any interleaving: who has had turns enough is done, and when all are
done, one has won and all others have lost. -/
theorem race {n : Nat} (hsome : s.clients ≠ [])
    (h : ∀ i p, s.clients[i]? = some p →
      Contends (wins i) (Lost wins i) loss s.world.tables n p) (turns : List Turn) :
    (∀ i p, (s.after turns).clients[i]? = some p → n ≤ turns.countP (Turn.isOf i) →
      ∃ a, p = .done a) ∧
    ((∀ p ∈ (s.after turns).clients, ∃ a, p = .done a) →
      ∃ k a, (s.after turns).clients[k]? = some (.done a) ∧ wins k a (s.after turns).world.tables ∧
        ∀ j, j ≠ k → j < s.clients.length → (s.after turns).clients[j]? = some (.done loss)) := by
  have hrace : s.Racing wins loss s.world.tables fun _ => n := .inl ⟨rfl, h⟩
  have hafter := hrace.after turns
  refine ⟨fun i p hp hn => ?_, fun hdone => ?_⟩
  · have hspent : turns.foldl spend (fun _ => n) i = 0 := by
      rw [foldl_spend]
      exact Nat.sub_eq_zero_of_le hn
    rcases hafter with ⟨_, hall⟩ | ⟨k, a, hk, _, hothers⟩
    · exact (hspent ▸ hall i p hp).elim
    · by_cases hik : i = k
      · subst hik
        exact ⟨a, Option.some.inj (hp.symm.trans hk)⟩
      · exact ⟨loss, (hspent ▸ hothers i p hp hik).done⟩
  · have hget (j : Nat) (hj : j < s.clients.length) :
        ∃ a, (s.after turns).clients[j]? = some (.done a) := by
      have hlt : j < (s.after turns).clients.length := by rwa [length_after]
      obtain ⟨a, ha⟩ := hdone _ (List.getElem_mem hlt)
      exact ⟨a, by rw [List.getElem?_eq_getElem hlt, ha]⟩
    rcases hafter with ⟨_, hall⟩ | ⟨k, a, hk, hwins, hothers⟩
    · obtain ⟨a, ha⟩ := hget 0 (List.length_pos_iff.2 hsome)
      exact (hall 0 _ ha).not_done.elim
    · refine ⟨k, a, hk, hwins, fun j hjk hj => ?_⟩
      obtain ⟨b, hb⟩ := hget j hj
      rw [hb, settles_done.1 (hothers j _ hb hjk)]

end Traffic
end AccessRegistry
