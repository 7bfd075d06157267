import Mathlib.Data.List.Induction
import DBWrapper.Foundation.Runs

/-!
# Latches over histories

Some events set a latch and some reset it.  The latch is set at the end of a
history if a setting event occurs in it with no resetting event after it.  This
is the meaning of "the most recent of these events is a setting one".

A flag that the steps of a system set and reset is a latch over the steps of
every run.
-/

namespace Foundation

universe u v
variable {Event : Type u}

def Latched (sets resets : Event → Prop) (history : List Event) : Prop :=
  ∃ before event after, history = before ++ event :: after ∧ sets event ∧
    ∀ later ∈ after, ¬ resets later

theorem not_latched_nil (sets resets : Event → Prop) :
    ¬ Latched sets resets [] := by
  intro holds
  obtain ⟨before, event, after, whole, _⟩ := holds
  simp at whole

/-- Where an event of a longer history stands: at its end or before. -/
theorem append_singleton_eq_append_cons_iff
    {history before after : List Event} {last event : Event} :
    history ++ [last] = before ++ event :: after ↔
      history = before ∧ last = event ∧ after = [] ∨
        ∃ middle, after = middle ++ [last] ∧
          history = before ++ event :: middle := by
  constructor
  · intro whole
    rcases List.eq_nil_or_concat after with empty | ⟨middle, final, grown⟩
    · subst empty
      have fronts := List.append_inj_left' whole rfl
      have lasts := List.append_inj_right' whole rfl
      cases lasts
      exact .inl ⟨fronts, rfl, rfl⟩
    · rw [List.concat_eq_append] at grown
      subst grown
      rw [← List.cons_append, ← List.append_assoc] at whole
      have fronts := List.append_inj_left' whole rfl
      have lasts := List.append_inj_right' whole rfl
      cases lasts
      exact .inr ⟨middle, rfl, fronts⟩
  · intro position
    rcases position with ⟨fronts, lasts, empty⟩ | ⟨middle, grown, fronts⟩
    · rw [fronts, lasts, empty]
    · rw [grown, fronts, List.append_assoc, List.cons_append]

/-- A list is cut in one way only at the last occurrence of an event. -/
theorem append_cons_inj_of_last
    {older earlier between rest : List Event} {event : Event}
    (notBetween : event ∉ between) (notRest : event ∉ rest)
    (same : older ++ event :: between = earlier ++ event :: rest) :
    older = earlier ∧ between = rest := by
  have noMiddle : ∀ {middle left right : List Event}, event ∉ left →
      event :: left = middle ++ event :: right → middle = [] := by
    intro middle left right absent backs
    cases middle with
    | nil => rfl
    | cons first middle =>
        obtain ⟨_, backs⟩ := List.cons.inj backs
        exact (absent (by simp [backs])).elim
  rcases List.append_eq_append_iff.mp same with
    ⟨middle, fronts, backs⟩ | ⟨middle, fronts, backs⟩
  · have empty := noMiddle notBetween backs
    subst empty
    exact ⟨(fronts.trans (List.append_nil _)).symm, (List.cons.inj backs).2⟩
  · have empty := noMiddle notRest backs
    subst empty
    exact ⟨fronts.trans (List.append_nil _), (List.cons.inj backs).2.symm⟩

theorem latched_append_singleton
    {sets resets : Event → Prop} {history : List Event} {last : Event} :
    Latched sets resets (history ++ [last]) ↔
      sets last ∨ Latched sets resets history ∧ ¬ resets last := by
  constructor
  · intro latched
    obtain ⟨before, event, after, whole, setting, quiet⟩ := latched
    rcases append_singleton_eq_append_cons_iff.mp whole with
      ⟨fronts, lasts, empty⟩ | ⟨middle, grown, fronts⟩
    · subst lasts
      exact .inl setting
    · subst grown
      refine .inr ⟨⟨before, event, middle, fronts, setting, ?_⟩, ?_⟩
      · intro later listed
        exact quiet later (List.mem_append_left _ listed)
      · exact quiet last (List.mem_append_right _ (List.mem_singleton_self _))
  · intro lastOrEarlier
    rcases lastOrEarlier with setting | ⟨latched, quietLast⟩
    · exact ⟨history, last, [], rfl, setting, fun _ listed => by cases listed⟩
    · obtain ⟨before, event, after, whole, setting, quiet⟩ := latched
      refine ⟨before, event, after ++ [last], by simp [whole], setting, ?_⟩
      intro later listed
      rcases List.mem_append.mp listed with earlier | atEnd
      · exact quiet later earlier
      · rw [List.mem_singleton.mp atEnd]
        exact quietLast

theorem Latched.exists_sets
    {sets resets : Event → Prop} {history : List Event}
    (latched : Latched sets resets history) :
    ∃ event ∈ history, sets event := by
  obtain ⟨before, event, after, rfl, setting, _⟩ := latched
  exact ⟨event, by simp, setting⟩

/-- Events that do not set the latch can only reset it. -/
theorem latched_append_iff
    {sets resets : Event → Prop} {history more : List Event}
    (notSet : ∀ event ∈ more, ¬ sets event) :
    Latched sets resets (history ++ more) ↔
      Latched sets resets history ∧ ∀ event ∈ more, ¬ resets event := by
  induction more using List.reverseRecOn with
  | nil => simp
  | append_singleton more last induction =>
      have notSetLast := notSet last (by simp)
      have earlier := induction (by
        intro event listed
        exact notSet event (List.mem_append_left _ listed))
      rw [← List.append_assoc, latched_append_singleton,
        or_iff_right notSetLast, earlier, and_assoc, List.forall_mem_append]
      simp

/-- A flag that every step sets, resets or leaves alone tells whether the last
step that touched it has set it. -/
theorem flag_iff_latched
    {State : Type u} {Action : Type v}
    {step : State → Action → Option State} {Flag : State → Prop}
    {sets resets : State × Action → Prop}
    (exactly : ∀ state action next, step state action = some next →
      (Flag next ↔
        sets (state, action) ∨ Flag state ∧ ¬ resets (state, action)))
    {start final : State} (initial : ¬ Flag start) {actions : List Action}
    (ran : run step start actions = some final) :
    Flag final ↔ Latched sets resets (trace step start actions) := by
  induction actions using List.reverseRecOn generalizing final with
  | nil =>
      cases ran
      exact iff_of_false initial (not_latched_nil sets resets)
  | append_singleton actions action induction =>
      obtain ⟨state, reached, last⟩ := run_append_eq_some_iff.mp ran
      obtain ⟨next, stepped, rest⟩ := run_cons_eq_some_iff.mp last
      cases rest
      rw [trace_append_singleton action reached, latched_append_singleton,
        exactly state action final stepped, induction reached]

end Foundation
