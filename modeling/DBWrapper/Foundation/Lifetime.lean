import DBWrapper.Foundation.Latch

/-!
# Lifetimes of resources

A history says when resources are created, used and freed.  A resource is
live after a history in which it has been created and not been freed since.
A history is safe if every use in it finds its resource live.
-/

namespace Foundation

universe u v
variable {Event : Type u} {Resource : Type v}

/-- What an event means for a resource. -/
structure Lifetime (Event : Type u) (Resource : Type v) where
  creates : Event → Resource → Prop
  uses : Event → Resource → Prop
  frees : Event → Resource → Prop

namespace Lifetime

def Live (lifetime : Lifetime Event Resource) (history : List Event)
    (resource : Resource) : Prop :=
  Latched (lifetime.creates · resource) (lifetime.frees · resource) history

def Safe (lifetime : Lifetime Event Resource) (history : List Event) : Prop :=
  ∀ before event after resource, history = before ++ event :: after →
    lifetime.uses event resource → lifetime.Live before resource

variable {lifetime : Lifetime Event Resource} {history : List Event}

theorem not_live_nil (lifetime : Lifetime Event Resource)
    (resource : Resource) : ¬ lifetime.Live [] resource :=
  not_latched_nil _ _

theorem live_append_singleton {last : Event} {resource : Resource} :
    lifetime.Live (history ++ [last]) resource ↔
      lifetime.creates last resource ∨
        lifetime.Live history resource ∧ ¬ lifetime.frees last resource :=
  latched_append_singleton

theorem live_append_of_neutral
    {more : List Event} {resource : Resource}
    (notCreated : ∀ event ∈ more, ¬ lifetime.creates event resource)
    (notFreed : ∀ event ∈ more, ¬ lifetime.frees event resource) :
    lifetime.Live (history ++ more) resource ↔
      lifetime.Live history resource := by
  induction more generalizing history with
  | nil => rw [List.append_nil]
  | cons event more induction =>
      have later := @induction (history ++ [event])
        (fun event listed => notCreated event (List.mem_cons_of_mem _ listed))
        (fun event listed => notFreed event (List.mem_cons_of_mem _ listed))
      rw [List.append_cons, later, live_append_singleton]
      simp [notCreated event List.mem_cons_self,
        notFreed event List.mem_cons_self]

/-- Nothing revives a freed resource but its creation. -/
theorem not_live_of_freed
    {event : Event} {more : List Event} {resource : Resource}
    (freed : lifetime.frees event resource)
    (notThere : ¬ lifetime.creates event resource)
    (notCreated : ∀ later ∈ more, ¬ lifetime.creates later resource) :
    ¬ lifetime.Live (history ++ event :: more) resource := by
  intro live
  induction more using List.reverseRecOn with
  | nil =>
      rcases live_append_singleton.mp live with created | ⟨_, kept⟩
      · exact notThere created
      · exact kept freed
  | append_singleton more last induction =>
      rw [← List.cons_append, ← List.append_assoc] at live
      have lastNotCreated := notCreated last (by simp)
      rcases live_append_singleton.mp live with created | ⟨before, _⟩
      · exact lastNotCreated created
      · apply induction _ before
        intro later listed
        exact notCreated later (List.mem_append_left _ listed)

theorem safe_nil (lifetime : Lifetime Event Resource) : lifetime.Safe [] := by
  intro before event after resource whole
  simp at whole

/-- Only the last event has to be looked at when a history grows. -/
theorem safe_append_singleton {last : Event} :
    lifetime.Safe (history ++ [last]) ↔
      lifetime.Safe history ∧
        ∀ resource, lifetime.uses last resource →
          lifetime.Live history resource := by
  constructor
  · intro safe
    constructor
    · intro before event after resource whole used
      apply safe before event (after ++ [last]) resource _ used
      simp [whole]
    · intro resource used
      exact safe history last [] resource rfl used
  · intro both before event after resource whole used
    obtain ⟨safe, lastLive⟩ := both
    rcases append_singleton_eq_append_cons_iff.mp whole with
      ⟨fronts, lasts, empty⟩ | ⟨middle, grown, fronts⟩
    · subst lasts
      rw [← fronts]
      exact lastLive resource used
    · exact safe before event middle resource fronts used

theorem Safe.of_append
    {more : List Event} (safe : lifetime.Safe (history ++ more)) :
    lifetime.Safe history := by
  intro before event after resource whole used
  apply safe before event (after ++ more) resource _ used
  rw [whole, List.append_assoc, List.cons_append]

/-- Between the end of a resource and its next use it has been created
again. -/
theorem Safe.exists_creates_between
    (safe : lifetime.Safe history) {before between after : List Event}
    {ended used : Event} {resource : Resource}
    (whole : history = before ++ ended :: (between ++ used :: after))
    (frees : lifetime.frees ended resource)
    (notThere : ¬ lifetime.creates ended resource)
    (uses : lifetime.uses used resource) :
    ∃ event ∈ between, lifetime.creates event resource := by
  have live : lifetime.Live (before ++ ended :: between) resource := by
    apply safe _ used after resource _ uses
    rw [whole, List.append_assoc, List.cons_append]
  apply Classical.byContradiction
  intro nowhere
  apply not_live_of_freed frees notThere _ live
  intro later listed creates
  exact nowhere ⟨later, listed, creates⟩

theorem safe_append_of_unused
    {more : List Event}
    (unused : ∀ event ∈ more, ∀ resource, ¬ lifetime.uses event resource) :
    lifetime.Safe (history ++ more) ↔ lifetime.Safe history := by
  induction more generalizing history with
  | nil => rw [List.append_nil]
  | cons event more induction =>
      have here := unused event List.mem_cons_self
      have later : ∀ event ∈ more, ∀ resource,
          ¬ lifetime.uses event resource :=
        fun event listed => unused event (List.mem_cons_of_mem _ listed)
      rw [List.append_cons, induction later, safe_append_singleton]
      constructor
      · intro both
        exact both.1
      · intro safe
        exact ⟨safe, fun resource used => absurd used (here resource)⟩

end Lifetime

end Foundation
