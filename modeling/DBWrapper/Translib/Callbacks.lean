import DBWrapper.Translib.Killing

/-!
# The callbacks of the timers

A timer gets its callback from the start that arms it, and keeps it until it
is started again.  Steps that do not mean a timer leave its callback and the
pointer to it alone.
-/

namespace DBWrapper

namespace Translib

open Foundation

section

variable {Callback : Type}

/-- The user's function that the handler calls in the end. -/
def TimerHandler.callback : TimerHandler Callback → Callback
  | .call callback => callback
  | .startRounds _ _ callback => callback

/-- The action passes the callback to a start function of the timer. -/
def TimerAction.Passes (ref : Nat) (callback : Callback) :
    TimerAction Callback → Prop
  | .startOnce other _ passed => other = ref ∧ passed = callback
  | .startRounds other _ _ passed => other = ref ∧ passed = callback
  | .startForever other _ passed => other = ref ∧ passed = callback
  | .startAfter other _ _ _ passed => other = ref ∧ passed = callback
  | _ => False

end

namespace Timer

variable {Callback : Type}

theorem handler_eventHandler (timer : Timer Callback) :
    timer.eventHandler.1.handler = timer.handler := by
  simp only [eventHandler]
  split
  · exact handler_reset _
  · rfl

/-- An expiration comes down to the call of the handler that the timer has. -/
theorem exists_handle_of_expire
    {timer next : Timer Callback} {called : Option Callback}
    (expired : timer.expire true true = some (next, called)) :
    ∃ handler, ∃ current : Timer Callback, timer.handler = some handler ∧
      current.handler = some handler ∧
        (next, called) = current.handle true true handler := by
  rw [expire_eq] at expired
  obtain ⟨event, _, rest⟩ := Option.bind_eq_some_iff.mp expired
  obtain ⟨handler, handles, result⟩ := Option.map_eq_some_iff.mp rest
  refine ⟨handler, _, handles, ?_, result.symm⟩
  exact (handler_eventHandler _).trans handles

/-- What a start leaves as the handler. -/
theorem handler_startRounds
    (timer : Timer Callback) (interval : UInt32) (round : UInt64)
    (handler : TimerHandler Callback) :
    (timer.startRounds true true interval round handler).2.handler =
        timer.handler ∨
      (timer.startRounds true true interval round handler).2.handler =
        some handler := by
  cases found : timer.event with
  | none =>
      rw [startRounds_of_event_eq_none found]
      exact .inr rfl
  | some event =>
      rw [startRounds_of_event_eq_some found]
      exact .inl rfl

/-- Every callback that the timer may call is among these. -/
def CallsOnly (Fine : Callback → Prop) (timer : Timer Callback) : Prop :=
  ∀ handler, timer.handler = some handler → Fine handler.callback

variable {Fine : Callback → Prop} {timer : Timer Callback}

theorem CallsOnly.reset (calls : timer.CallsOnly Fine) :
    timer.reset.CallsOnly Fine := by
  intro handler found
  rw [handler_reset] at found
  exact calls handler found

theorem CallsOnly.startRounds
    (calls : timer.CallsOnly Fine) (interval : UInt32) (round : UInt64)
    {handler : TimerHandler Callback} (fine : Fine handler.callback) :
    (timer.startRounds true true interval round handler).2.CallsOnly Fine := by
  intro other found
  rcases timer.handler_startRounds interval round handler with kept | taken
  · rw [kept] at found
    exact calls other found
  · rw [taken] at found
    cases found
    exact fine

theorem CallsOnly.expire
    {next : Timer Callback} {called : Option Callback}
    (calls : timer.CallsOnly Fine)
    (expired : timer.expire true true = some (next, called)) :
    next.CallsOnly Fine := by
  obtain ⟨handler, current, handles, same, result⟩ :=
    exists_handle_of_expire expired
  have fine := calls handler handles
  have callsNow : current.CallsOnly Fine := by
    intro other found
    rw [same] at found
    cases found
    exact fine
  cases handler with
  | call callback =>
      cases result
      exact callsNow
  | startRounds interval round callback =>
      cases result
      exact callsNow.startRounds interval round fine

end Timer

namespace TimerManager

variable {Callback : Type} {manager middle next : TimerManager Callback}
  {action : TimerAction Callback} {ref : Nat}

theorem callsOnly_setTimer
    {Fine : Nat → Callback → Prop} {target : Nat} {timer : Timer Callback}
    (calls : ∀ ref, (manager.timers ref).CallsOnly (Fine ref))
    (callsToo : timer.CallsOnly (Fine target)) (ref : Nat) :
    ((manager.setTimer target timer).timers ref).CallsOnly (Fine ref) := by
  by_cases same : ref = target
  · subst same
    simp only [setTimer, Function.update_self]
    exact callsToo
  · rw [timers_setTimer_of_ne manager same]
    exact calls ref

theorem callsOnly_start
    {Fine : Nat → Callback → Prop} {target : Nat} {interval : UInt32}
    {round : UInt64} {handler : TimerHandler Callback}
    (calls : ∀ ref, (manager.timers ref).CallsOnly (Fine ref))
    (called : manager.onTimer target (fun timer =>
      (timer.startRounds true true interval round handler).2) = some next)
    (fine : Fine target handler.callback) (ref : Nat) :
    (next.timers ref).CallsOnly (Fine ref) := by
  obtain ⟨_, rfl⟩ := of_onTimer called
  apply callsOnly_setTimer calls
  exact (calls target).startRounds interval round fine

/-- No timer gets another callback than those that the action passes to it. -/
theorem callsOnly_step
    {Fine : Nat → Callback → Prop}
    (calls : ∀ ref, (manager.timers ref).CallsOnly (Fine ref))
    (passes : ∀ ref callback, action.Passes ref callback → Fine ref callback)
    (stepped : step manager action = some next) (ref : Nat) :
    (next.timers ref).CallsOnly (Fine ref) := by
  have collected : ∀ current : TimerManager Callback,
      current.timers = manager.timers →
        (current.collect.timers ref).CallsOnly (Fine ref) := by
    intro current same
    rcases timers_collect current ref with kept | reset
    · rw [kept, same]
      exact calls ref
    · rw [reset, same]
      exact (calls ref).reset
  cases action with
  | getTimer =>
      cases stepped
      apply callsOnly_setTimer calls
      intro handler found
      cases found
  | startOnce target interval callback =>
      simp only [step] at stepped
      apply callsOnly_start calls stepped
      exact passes target callback ⟨rfl, rfl⟩
  | startRounds target interval round callback =>
      simp only [step] at stepped
      apply callsOnly_start calls stepped
      exact passes target callback ⟨rfl, rfl⟩
  | startForever target interval callback =>
      simp only [step] at stepped
      apply callsOnly_start calls stepped
      exact passes target callback ⟨rfl, rfl⟩
  | startAfter target after interval round callback =>
      simp only [step] at stepped
      apply callsOnly_start calls stepped
      exact passes target callback ⟨rfl, rfl⟩
  | expire target =>
      obtain ⟨timer, called, expires, rfl⟩ := of_expire stepped
      apply callsOnly_setTimer calls
      exact (calls target).expire expires
  | stop target =>
      obtain ⟨_, rfl⟩ := of_onTimer stepped
      apply callsOnly_setTimer calls
      exact (calls target).reset
  | release target =>
      obtain ⟨_, rfl⟩ := of_release stepped
      exact collected _ rfl
  | killTimer timerID =>
      cases stepped
      exact collected _ rfl
  | auditTimer =>
      cases stepped
      exact collected _ rfl

/-- A timer that calls its user's function goes on doing so until it is
started again. -/
theorem handler_step
    {callback : Callback} (issued : ref < manager.issued.length)
    (notStarted : ¬ action.Starts ref)
    (calls : (manager.timers ref).handler = some (.call callback))
    (stepped : step manager action = some next) :
    (next.timers ref).handler = some (.call callback) := by
  by_cases expired : action = .expire ref
  · subst expired
    obtain ⟨timer, called, expires, rfl⟩ := of_expire stepped
    obtain ⟨handler, current, handles, same, result⟩ :=
      Timer.exists_handle_of_expire expires
    rw [calls] at handles
    cases handles
    cases result
    simp only [setTimer, Function.update_self]
    exact same
  · rcases kept_or_reset_of_step issued (fun arms => notStarted arms.1)
      expired stepped with kept | reset
    · rw [kept]
      exact calls
    · rw [reset, Timer.handler_reset]
      exact calls

/-- A timer and the pointer to it behind steps that do not mean them. -/
structure Undisturbed (ref : Nat) (manager next : TimerManager Callback) :
    Prop where
  issued : ref < next.issued.length
  handler : ∀ callback, (manager.timers ref).handler = some (.call callback) →
    (next.timers ref).handler = some (.call callback)
  held : next.held ref = manager.held ref
  event : (manager.timers ref).event = none → (next.timers ref).event = none

theorem Undisturbed.trans
    (first : Undisturbed ref manager middle)
    (second : Undisturbed ref middle next) :
    Undisturbed ref manager next := by
  constructor
  · exact second.issued
  · intro callback calls
    exact second.handler callback (first.handler callback calls)
  · exact second.held.trans first.held
  · intro free
    exact second.event (first.event free)

theorem undisturbed_step
    (issued : ref < manager.issued.length) (notStarted : ¬ action.Starts ref)
    (notReleased : action ≠ .release ref)
    (stepped : step manager action = some next) :
    Undisturbed ref manager next := by
  constructor
  · exact Nat.lt_of_lt_of_le issued (length_issued_step stepped)
  · intro callback calls
    exact handler_step issued notStarted calls stepped
  · rcases held_step stepped ref with same | ⟨_, new⟩ | ⟨released, _⟩
    · exact same
    · omega
    · exact (notReleased released).elim
  · intro free
    exact event_eq_none_step free notStarted stepped

theorem held_release (released : step manager (.release ref) = some next) :
    next.held ref = false := by
  obtain ⟨_, rfl⟩ := of_release released
  exact Function.update_self _ _ _

/-- The last pointer takes the timer with it. -/
theorem timers_release (released : step manager (.release ref) = some next) :
    next.timers ref =
      if manager.tMap.any (fun entry => entry.2 == ref) then
        manager.timers ref
      else
        (manager.timers ref).reset := by
  obtain ⟨_, rfl⟩ := of_release released
  simp [release, collect, alive]

end TimerManager

end Translib

end DBWrapper
