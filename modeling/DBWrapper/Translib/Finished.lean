import DBWrapper.Translib.Killing

/-!
# Finished timers

`reset` marks a timer as finished by a round count beyond the one that was
asked for.  In 64 bits there is no such count beyond the largest one: a timer
that was started for `2 ^ 64 - 1` rounds starts again at zero when it is
disarmed, and no audit finds it finished.
-/

namespace DBWrapper

namespace Translib

open Foundation

namespace Timer

variable {Callback : Type}

/-- A timer that was started for `round` rounds and has been disarmed. -/
structure Spent (round : UInt64) (timer : Timer Callback) : Prop where
  event : timer.event = none
  asked : timer.round = round
  curRound : timer.curRound = round + 1

theorem le_add_one_iff (round : UInt64) :
    round ≤ round + 1 ↔ round ≠ 0xffffffffffffffff := by
  have bounded := round.toNat_lt
  rw [UInt64.le_iff_toNat_le, UInt64.toNat_add, UInt64.toNat_one, ne_eq,
    ← UInt64.toNat_inj]
  have largest : (0xffffffffffffffff : UInt64).toNat = 2 ^ 64 - 1 := rfl
  rw [largest]
  omega

/-- The mark of `reset` is missed by the largest count only. -/
theorem Spent.isFinished_iff
    {round : UInt64} {timer : Timer Callback} (spent : Spent round timer) :
    timer.isFinished = true ↔ round ≠ 0xffffffffffffffff := by
  simp only [isFinished, decide_eq_true_iff]
  rw [spent.asked, spent.curRound, le_add_one_iff]

section

variable {timer : Timer Callback} {interval : UInt32} {round : UInt64}
  {handler : TimerHandler Callback} {count : Nat}

theorem RunsRounds.spent_reset
    (runs : timer.RunsRounds interval round handler count) :
    Spent round timer.reset := by
  have resets : timer.reset =
      { timer with event := none, curRound := timer.round + 1 } := by
    simp only [reset, runs.event]
  rw [resets]
  refine ⟨rfl, runs.asked, ?_⟩
  rw [runs.asked]

theorem RunsRounds.steady
    (runs : timer.RunsRounds interval round handler count) :
    timer.Steady := by
  constructor
  · intro event found
    rw [runs.event] at found
    cases found
    rfl
  · intro event found
    rw [runs.event] at found
    cases found
    simp [Event.new, Event.add, runs.asked]
  · intro event _
    left
    rw [runs.asked, UInt64.lt_iff_toNat_lt, runs.toNat_curRound]
    exact runs.bound

end

/-- One expiration counts one round, and the last round spends the timer. -/
theorem RunsRounds.of_expire
    {timer next : Timer Callback} {interval : UInt32} {round : UInt64}
    {callback : Callback} {count : Nat} {called : Option Callback}
    (runs : timer.RunsRounds interval round (.call callback) count)
    (expired : timer.expire true true = some (next, called)) :
    next.RunsRounds interval round (.call callback) (count + 1) ∨
      Spent round next := by
  obtain ⟨_, handler, handles, outcome⟩ := runs.steady.expire_eq_some expired
  rw [runs.handler] at handles
  cases handles
  rcases outcome with ⟨_, result⟩ | ⟨remaining, result⟩
  · right
    cases result
    refine ⟨rfl, runs.asked, ?_⟩
    rw [runs.asked]
  · left
    cases result
    have counted := runs.toNat_curRound_add_one
    have bounded := round.toNat_lt
    have below := runs.bound
    rw [runs.asked, UInt64.lt_iff_toNat_lt, counted] at remaining
    refine ⟨runs.event, runs.asked, ?_, ?_, runs.handler⟩
    · apply UInt64.toNat.inj
      rw [counted, UInt64.toNat_ofNat']
    · omega

end Timer

/-- The action is an expiration of the timer. -/
def TimerAction.expires {Callback : Type} (ref : Nat) :
    TimerAction Callback → Bool
  | .expire other => other == ref
  | _ => false

namespace TimerManager

variable {Callback : Type}

/-- The timer says that it is finished, and an audit leaves no entry of
it. -/
structure Collectable (ref : Nat) (manager : TimerManager Callback) :
    Prop where
  finished : (manager.timers ref).isFinished = true
  collected : ∀ next, step manager .auditTimer = some next →
    ∀ entry ∈ next.tMap, entry.2 ≠ ref

theorem collectable_iff_isFinished
    (manager : TimerManager Callback) (ref : Nat) :
    manager.Collectable ref ↔ (manager.timers ref).isFinished = true := by
  constructor
  · intro collectable
    exact collectable.finished
  · intro finished
    refine ⟨finished, ?_⟩
    intro next audited entry listed same
    cases audited
    obtain ⟨_, unfinished⟩ := List.mem_filter.mp listed
    rw [same, finished] at unfinished
    cases unfinished

section

variable {manager next final : TimerManager Callback}
  {action : TimerAction Callback} {actions : List (TimerAction Callback)}
  {ref : Nat} {interval : UInt32} {round : UInt64} {callback : Callback}
  {count : Nat}

/-- The timer goes on counting its expirations unless the step disarms it. -/
theorem runsRounds_step
    (issued : ref < manager.issued.length)
    (runs : (manager.timers ref).RunsRounds interval round (.call callback)
      count)
    (stepped : step manager action = some next) :
    action ≠ .stop ref ∧
        (next.timers ref).RunsRounds interval round (.call callback)
          (count + if action.expires ref then 1 else 0) ∨
      Timer.Spent round (next.timers ref) := by
  by_cases expired : action = .expire ref
  · subst expired
    obtain ⟨timer, called, expires, rfl⟩ := of_expire stepped
    simp only [setTimer, Function.update_self]
    rcases runs.of_expire expires with goesOn | spent
    · left
      simpa [TimerAction.expires] using goesOn
    · exact .inr spent
  · by_cases stopped : action = .stop ref
    · subst stopped
      right
      obtain ⟨_, rfl⟩ := of_onTimer stepped
      simp only [setTimer, Function.update_self]
      exact runs.spent_reset
    · have notCounted : action.expires ref = false := by
        cases action with
        | expire other =>
            apply beq_eq_false_iff_ne.mpr
            intro same
            exact expired (congrArg TimerAction.expire same)
        | _ => rfl
      have notArmed : ¬ manager.Arms ref action := by
        intro arms
        have free := arms.2
        rw [runs.event] at free
        cases free
      rcases kept_or_reset_of_step issued notArmed expired stepped with
        kept | reset
      · left
        rw [kept, notCounted]
        exact ⟨stopped, runs⟩
      · right
        rw [reset]
        exact runs.spent_reset

/-- A disarmed timer stays as it is until it is started. -/
theorem spent_step
    (issued : ref < manager.issued.length)
    (spent : Timer.Spent round (manager.timers ref))
    (notArmed : ¬ manager.Arms ref action)
    (stepped : step manager action = some next) :
    Timer.Spent round (next.timers ref) := by
  have notExpired : action ≠ .expire ref := by
    intro expired
    subst expired
    simp [step, Timer.expire, spent.event] at stepped
  rcases kept_or_reset_of_step issued notArmed notExpired stepped with
    kept | reset
  · rw [kept]
    exact spent
  · rw [reset, Timer.reset_of_event_eq_none spent.event]
    exact spent

theorem spent_run
    (issued : ref < manager.issued.length)
    (spent : Timer.Spent round (manager.timers ref))
    (notArmed : AllSteps step (fun manager action => ¬ manager.Arms ref action)
      manager actions)
    (ran : run step manager actions = some final) :
    Timer.Spent round (final.timers ref) := by
  have kept : ∀ (current : TimerManager Callback) action next,
      ref < current.issued.length ∧ Timer.Spent round (current.timers ref) →
        ¬ current.Arms ref action → step current action = some next →
          ref < next.issued.length ∧
            Timer.Spent round (next.timers ref) := by
    intro current action next holds guarded stepped
    obtain ⟨inside, stillSpent⟩ := holds
    exact ⟨Nat.lt_of_lt_of_le inside (length_issued_step stepped),
      spent_step inside stillSpent guarded stepped⟩
  exact (run_invariant_of_allSteps kept ⟨issued, spent⟩ notArmed ran).2

/-- Until it is started again, the timer counts its expirations, or it has
been disarmed. -/
theorem runsRounds_or_spent_run
    (issued : ref < manager.issued.length)
    (runs : (manager.timers ref).RunsRounds interval round (.call callback)
      count)
    (notArmed : AllSteps step (fun manager action => ¬ manager.Arms ref action)
      manager actions)
    (ran : run step manager actions = some final) :
    .stop ref ∉ actions ∧
        (final.timers ref).RunsRounds interval round (.call callback)
          (count + actions.countP (TimerAction.expires ref)) ∨
      Timer.Spent round (final.timers ref) := by
  induction actions generalizing manager count with
  | nil =>
      cases ran
      exact .inl ⟨by simp, runs⟩
  | cons action actions induction =>
      obtain ⟨next, stepped, rest⟩ := run_cons_eq_some_iff.mp ran
      have inside := Nat.lt_of_lt_of_le issued (length_issued_step stepped)
      have later := notArmed.2 next stepped
      rcases runsRounds_step issued runs stepped with
        ⟨notStopped, goesOn⟩ | spent
      · rcases induction inside goesOn later rest with
          ⟨neverStopped, counts⟩ | spent
        · left
          rw [List.countP_cons, Nat.add_comm (actions.countP _),
            ← Nat.add_assoc]
          refine ⟨?_, counts⟩
          intro listed
          rcases List.mem_cons.mp listed with first | among
          · exact notStopped first.symm
          · exact neverStopped among
        · exact .inr spent
      · exact .inr (spent_run inside spent later rest)

end

theorem allSteps_notArms
    {manager : TimerManager Callback} {actions : List (TimerAction Callback)}
    {ref : Nat} (notStarted : ∀ action ∈ actions, ¬ action.Starts ref) :
    AllSteps step (fun manager action => ¬ manager.Arms ref action) manager
      actions := by
  apply allSteps_iff.mpr
  intro front action back state whole _ arms
  apply notStarted action _ arms.1
  rw [whole]
  exact List.mem_append_right _ List.mem_cons_self

/-- A start that returns true begins at no expiration. -/
theorem runsRounds_of_start
    {uniqueID : TimerId} {before started : TimerManager Callback}
    {front : List (TimerAction Callback)}
    (ran : run step (create uniqueID) front = some before)
    {ref : Nat} {interval : UInt32} {round : UInt64} {callback : Callback}
    (some_round : 0 < round)
    (begun : ((before.timers ref).startRounds true true interval round
      (.call callback)).1 = true)
    (starts : step before (.startRounds ref interval round callback) =
      some started) :
    ref < started.issued.length ∧
      (started.timers ref).RunsRounds interval round (.call callback) 0 := by
  have free : (before.timers ref).event = none := by
    cases found : (before.timers ref).event with
    | none => rfl
    | some event =>
        rw [Timer.startRounds_of_event_eq_some found] at begun
        cases begun
  have runs := Timer.runsRounds_startRounds free interval some_round
    (.call callback)
  simp only [step] at starts
  obtain ⟨alive, rfl⟩ := of_onTimer starts
  refine ⟨issued_of_alive (holdsIssued_run ran) (listsIssued_run ran) alive,
    ?_⟩
  simp only [setTimer, Function.update_self]
  exact runs

/-- A timer that was started for `round` rounds and has been disarmed, by a
stop or in its last round, is finished and collected exactly if `round` is not
the largest count. -/
theorem collectable_disarmed_iff
    {uniqueID : TimerId} {before started final : TimerManager Callback}
    {front actions : List (TimerAction Callback)}
    (ran : run step (create uniqueID) front = some before)
    {ref : Nat} {interval : UInt32} {round : UInt64} {callback : Callback}
    (some_round : 0 < round)
    (begun : ((before.timers ref).startRounds true true interval round
      (.call callback)).1 = true)
    (starts : step before (.startRounds ref interval round callback) =
      some started)
    (goesOn : run step started actions = some final)
    (notRestarted : AllSteps step
      (fun manager action => ¬ manager.Arms ref action) started actions)
    (disarmed : .stop ref ∈ actions ∨
      actions.countP (TimerAction.expires ref) = round.toNat) :
    final.Collectable ref ↔ round ≠ 0xffffffffffffffff := by
  obtain ⟨issued, runs⟩ := runsRounds_of_start ran some_round begun starts
  have spent : Timer.Spent round (final.timers ref) := by
    rcases runsRounds_or_spent_run issued runs notRestarted goesOn with
      ⟨notStopped, counts⟩ | spent
    · rcases disarmed with stopped | exhausted
      · exact (notStopped stopped).elim
      · have below := counts.bound
        omega
    · exact spent
  rw [collectable_iff_isFinished, spent.isFinished_iff]

theorem collectable_disarmed_iff_threeRounds :
    ∃ before started final : TimerManager Unit,
      run step (create 1) [.getTimer] = some before ∧
        step before (.startRounds 0 10 3 ()) = some started ∧
        run step started [.expire 0, .expire 0, .expire 0, .auditTimer] =
          some final ∧
        (final.Collectable 0 ↔ (3 : UInt64) ≠ 0xffffffffffffffff) := by
  obtain ⟨before, ran, started, begun, starts, final, goesOn⟩ :
      ∃ before : TimerManager Unit, run step (create 1) [.getTimer] =
          some before ∧
        ∃ started, ((before.timers 0).startRounds true true 10 3
            (.call ())).1 = true ∧
          step before (.startRounds 0 10 3 ()) = some started ∧
          ∃ final, run step started
            [.expire 0, .expire 0, .expire 0, .auditTimer] = some final :=
    ⟨_, rfl, _, rfl, rfl, _, rfl⟩
  refine ⟨before, started, final, ran, starts, goesOn, ?_⟩
  apply collectable_disarmed_iff ran (by decide) begun starts goesOn
  · apply allSteps_notArms
    simp [TimerAction.Starts]
  · exact .inr rfl

/-- A timer for the largest number of rounds is stopped, and the audit leaves
it in the map. -/
theorem collectable_disarmed_fails :
    ∃ before started stopped audited : TimerManager Unit,
      run step (create 1) [.getTimer] = some before ∧
        ((before.timers 0).startRounds true true 10 0xffffffffffffffff
          (.call ())).1 = true ∧
        step before (.startRounds 0 10 0xffffffffffffffff ()) =
          some started ∧
        run step started [.stop 0] = some stopped ∧
        step stopped .auditTimer = some audited ∧ (1, 0) ∈ audited.tMap ∧
        ¬ stopped.Collectable 0 := by
  obtain ⟨before, ran, begun, started, starts, stopped, stops, unfinished,
      listed⟩ :
      ∃ before : TimerManager Unit, run step (create 1) [.getTimer] =
          some before ∧
        ((before.timers 0).startRounds true true 10 0xffffffffffffffff
          (.call ())).1 = true ∧
        ∃ started, step before (.startRounds 0 10 0xffffffffffffffff ()) =
            some started ∧
          ∃ stopped, run step started [.stop 0] = some stopped ∧
            (stopped.timers 0).isFinished = false ∧ (1, 0) ∈ stopped.tMap :=
    ⟨_, rfl, rfl, _, rfl, _, rfl, rfl, List.mem_singleton_self _⟩
  refine ⟨before, started, stopped, stopped.auditTimer, ran, begun, starts,
    stops, rfl, ?_, ?_⟩
  · exact (auditTimer_of_unfinished listed unfinished).1
  · intro collectable
    have finished := collectable.finished
    rw [unfinished] at finished
    cases finished

end TimerManager

end Translib

end DBWrapper
