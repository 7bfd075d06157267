import Mathlib.Logic.Relation

/-!
# Loops that are left from inside

The body of a `do { … } while (1)` loop either asks for another pass or
leaves the loop.  `iterate` runs it with a bound on the number of passes;
`Ends` is the same evaluation without the bound.  A loop ends exactly when
some bound is enough, and then every larger bound gives the same state.

A loop whose passes decrease a measure ends.  If they do so except in states
from which no pass gets away, it ends exactly when it meets none of these.
-/

namespace Foundation

/-- The outcome of one pass through a loop body. -/
inductive Pass (State : Type u) where
  | again (state : State)
  | leave (state : State)
  deriving DecidableEq, Repr

/-- At most `fuel` passes; `none` when the loop has not been left by then. -/
def iterate (body : State → Pass State) : Nat → State → Option State
  | 0, _ => none
  | fuel + 1, state =>
      match body state with
      | .leave final => some final
      | .again next => iterate body fuel next

/-- The loop entered in the first state is left in the second one. -/
inductive Ends (body : State → Pass State) : State → State → Prop where
  | leave {state final : State} :
      body state = .leave final → Ends body state final
  | again {state next final : State} :
      body state = .again next → Ends body next final →
      Ends body state final

theorem iterate_of_ends
    {body : State → Pass State} {state final : State}
    (ends : Ends body state final) :
    ∃ enough, ∀ fuel, enough ≤ fuel →
      iterate body fuel state = some final := by
  induction ends with
  | leave left =>
      refine ⟨1, ?_⟩
      intro fuel bound
      obtain ⟨fuel, rfl⟩ := Nat.exists_eq_add_of_le' bound
      simp [iterate, left]
  | again continued _ induction =>
      obtain ⟨enough, result⟩ := induction
      refine ⟨enough + 1, ?_⟩
      intro fuel bound
      obtain ⟨fuel, rfl⟩ := Nat.exists_eq_add_of_le' bound
      simp only [iterate, continued]
      exact result (fuel + enough) (by omega)

theorem ends_of_iterate
    {body : State → Pass State} {fuel : Nat} {state final : State}
    (result : iterate body fuel state = some final) :
    Ends body state final := by
  induction fuel generalizing state with
  | zero => simp [iterate] at result
  | succ fuel induction =>
      rw [iterate] at result
      cases outcome : body state with
      | leave left =>
          rw [outcome] at result
          cases result
          exact .leave outcome
      | again next =>
          rw [outcome] at result
          exact .again outcome (induction result)

/-- A loop is left in one state at most. -/
theorem Ends.unique
    {body : State → Pass State} {state final other : State}
    (first : Ends body state final) (second : Ends body state other) :
    final = other := by
  obtain ⟨enough, result⟩ := iterate_of_ends first
  obtain ⟨more, otherResult⟩ := iterate_of_ends second
  have same := result (max enough more) (Nat.le_max_left _ _)
  rw [otherResult (max enough more) (Nat.le_max_right _ _)] at same
  exact (Option.some.inj same).symm

/-- Passes lead from the first state to the second one. -/
abbrev Passes (body : State → Pass State) : State → State → Prop :=
  Relation.ReflTransGen fun state next => body state = .again next

theorem Ends.not_trapped
    {body : State → Pass State} {Trap : State → Prop}
    (trapped : ∀ state, Trap state → ∃ next, body state = .again next ∧ Trap next)
    {state final stuck : State} (ends : Ends body state final)
    (passes : Passes body state stuck) : ¬ Trap stuck := by
  induction ends generalizing stuck with
  | leave left =>
      intro trap
      rcases passes.cases_head with rfl | ⟨next, continued, _⟩
      · obtain ⟨next, continued, _⟩ := trapped _ trap
        rw [left] at continued
        cases continued
      · rw [left] at continued
        cases continued
  | again passed _ induction =>
      intro trap
      rcases passes.cases_head with rfl | ⟨next, continued, rest⟩
      · obtain ⟨next, continued, trapNext⟩ := trapped _ trap
        rw [passed] at continued
        cases continued
        exact induction .refl trapNext
      · rw [passed] at continued
        cases continued
        exact induction rest trap

theorem ends_of_not_trapped
    {body : State → Pass State} {Trap : State → Prop} (measure : State → Nat)
    (progress : ∀ state next, body state = .again next →
      Trap state ∨ measure next < measure state)
    {state : State}
    (avoids : ∀ stuck, Passes body state stuck → ¬ Trap stuck) :
    ∃ final, Ends body state final := by
  induction bound : measure state using Nat.strongRecOn
    generalizing state with
  | ind size induction =>
      cases outcome : body state with
      | leave final => exact ⟨final, .leave outcome⟩
      | again next =>
          rcases progress state next outcome with trap | smaller
          · exact (avoids state .refl trap).elim
          · rw [bound] at smaller
            obtain ⟨final, ends⟩ :=
              @induction _ smaller next
                (fun stuck passes => avoids stuck (.head outcome passes)) rfl
            exact ⟨final, .again outcome ends⟩

/-- The loop ends exactly when it meets no trap. -/
theorem ends_iff_not_trapped
    {body : State → Pass State} {Trap : State → Prop} (measure : State → Nat)
    (trapped : ∀ state, Trap state → ∃ next, body state = .again next ∧ Trap next)
    (progress : ∀ state next, body state = .again next →
      Trap state ∨ measure next < measure state)
    (state : State) :
    (∃ final, Ends body state final) ↔
      ∀ stuck, Passes body state stuck → ¬ Trap stuck := by
  constructor
  · intro ends stuck passes
    obtain ⟨final, ends⟩ := ends
    exact ends.not_trapped trapped passes
  · exact ends_of_not_trapped measure progress

end Foundation
