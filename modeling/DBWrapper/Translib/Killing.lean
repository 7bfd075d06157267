import DBWrapper.Translib.TimerManager

/-!
# Killing a timer

`killTimer` erases the entry of `t_map` and leaves the rest to the destructor
of the timer, which runs only if no caller has kept the pointer that
`getTimer` returned.
-/

namespace DBWrapper

namespace Translib

open Foundation

namespace Timer

variable {Callback : Type}

/-- Only `startAfter` makes the timer start itself, and it asks for one
round. -/
def StartsOnce (round : UInt64) : TimerHandler Callback → Prop
  | .call _ => True
  | .startRounds _ _ _ => round = 1

/-- A timer with an event has a handler to call. -/
structure Ready (timer : Timer Callback) : Prop where
  steady : timer.Steady
  handled : ∀ event, timer.event = some event →
    ∃ handler, timer.handler = some handler ∧ StartsOnce timer.round handler

theorem Ready.of_event_eq_none
    {timer : Timer Callback} (free : timer.event = none) : timer.Ready := by
  refine ⟨.of_event_eq_none free, ?_⟩
  intro event found
  rw [free] at found
  cases found

theorem Ready.startRounds
    {timer : Timer Callback} (ready : timer.Ready) (interval : UInt32)
    {round : UInt64} {handler : TimerHandler Callback}
    (once : StartsOnce round handler) :
    (timer.startRounds true true interval round handler).2.Ready := by
  refine ⟨ready.steady.startRounds interval round handler, ?_⟩
  cases found : timer.event with
  | some event =>
      rw [startRounds_of_event_eq_some found]
      exact ready.handled
  | none =>
      rw [startRounds_of_event_eq_none found]
      intro event _
      exact ⟨handler, rfl, once⟩

theorem Ready.handle
    {timer : Timer Callback} (ready : timer.Ready)
    (handler : TimerHandler Callback) :
    (timer.handle true true handler).1.Ready := by
  cases handler with
  | call callback => exact ready
  | startRounds interval round callback =>
      exact ready.startRounds interval trivial

theorem Ready.expire
    {timer next : Timer Callback} {called : Option Callback}
    (ready : timer.Ready)
    (expired : timer.expire true true = some (next, called)) :
    next.Ready := by
  apply ready.steady.of_expire expired
  · exact .of_event_eq_none rfl
  · intro remaining
    exact ⟨{ ready.steady with counts := fun _ _ => .inl remaining },
      ready.handled⟩
  · intro handler current _ holds
    exact holds.handle handler

/-- An armed timer expires and comes to its handler. -/
theorem Ready.exists_expire
    {timer : Timer Callback} (ready : timer.Ready) {event : Event}
    (busy : timer.event = some event) :
    ∃ handler fired, timer.handler = some handler ∧
      StartsOnce timer.round handler ∧
        timer.expire true true =
          some ({ timer with event := some fired }.eventHandler.1.handle
            true true handler) := by
  obtain ⟨handler, handles, once⟩ := ready.handled event busy
  obtain ⟨timeout, isPending⟩ :=
    Option.isSome_iff_exists.mp (ready.steady.pending event busy)
  refine ⟨handler, if event.persist then event else event.del, handles, once,
    ?_⟩
  rw [expire_eq, busy, handles]
  simp [Event.fire, isPending]

/-- The expiration of a timer that `startAfter` has armed is a start. -/
theorem Ready.expire_startRounds
    {timer : Timer Callback} (ready : timer.Ready) {event : Event}
    (busy : timer.event = some event) {interval : UInt32} {round : UInt64}
    {callback : Callback}
    (delays : timer.handler = some (.startRounds interval round callback)) :
    ∃ next : Timer Callback, timer.expire true true = some (next, none) ∧
      next.event.isSome ∧ next.handler = some (.call callback) := by
  obtain ⟨handler, fired, handles, once, expired⟩ := ready.exists_expire busy
  rw [delays] at handles
  cases handles
  have unexpired : timer.curRound = 0 := by
    rcases ready.steady.counts event busy with left | zero
    · have single : timer.round = 1 := once
      rw [single, UInt64.lt_iff_toNat_lt] at left
      apply UInt64.toNat.inj
      simp only [UInt64.toNat_one, UInt64.toNat_zero] at left ⊢
      omega
    · exact zero
  have last : timer.round ≤ timer.curRound + 1 := by
    rw [unexpired, show timer.round = 1 from once]
    decide
  have freed := fst_eventHandler_of_last
    { timer with event := some fired } rfl last
  rw [freed] at expired
  refine ⟨_, expired, ?_, ?_⟩
  · rw [startRounds_of_event_eq_none rfl]
    rfl
  · rw [startRounds_of_event_eq_none rfl]

end Timer

namespace TimerManager

variable {Callback : Type}

/-- The next expiration of the timer invokes the handler of its user. -/
def Invokes (manager : TimerManager Callback) (ref : Nat) : Prop :=
  ∃ timer callback,
    (manager.timers ref).expire true true = some (timer, some callback)

/-- Whatever happens, the handler of the timer is not invoked unless the timer
is started. -/
def Silenced (manager : TimerManager Callback) (ref : Nat) : Prop :=
  ∀ actions later, run step manager actions = some later →
    (∀ action ∈ actions, ¬ action.Starts ref) → ¬ later.Invokes ref

/-- The caller of `getTimer` has kept its pointer, and the timer is armed. -/
def StillArmed (manager : TimerManager Callback) (ref : Nat) : Prop :=
  (manager.timers ref).Armed ∧ manager.held ref = true

/-! ### Every timer is ready -/

theorem ready_setTimer
    {manager : TimerManager Callback}
    (ready : ∀ ref, (manager.timers ref).Ready) {target : Nat}
    {timer : Timer Callback} (changed : timer.Ready) (ref : Nat) :
    ((manager.setTimer target timer).timers ref).Ready := by
  simp only [setTimer]
  by_cases same : ref = target
  · subst same
    rw [Function.update_self]
    exact changed
  · rw [Function.update_of_ne same]
    exact ready ref

theorem ready_collect
    {manager : TimerManager Callback}
    (ready : ∀ ref, (manager.timers ref).Ready) (ref : Nat) :
    (manager.collect.timers ref).Ready := by
  simp only [collect]
  split
  · exact ready ref
  · exact .of_event_eq_none (Timer.event_reset _)

theorem ready_onTimer
    {manager next : TimerManager Callback}
    (ready : ∀ ref, (manager.timers ref).Ready) {target : Nat}
    {change : Timer Callback → Timer Callback}
    (keeps : ∀ timer : Timer Callback, timer.Ready → (change timer).Ready)
    (called : manager.onTimer target change = some next) (ref : Nat) :
    (next.timers ref).Ready := by
  obtain ⟨_, rfl⟩ := of_onTimer called
  exact ready_setTimer ready (keeps _ (ready target)) ref

theorem ready_step
    {manager next : TimerManager Callback} {action : TimerAction Callback}
    (ready : ∀ ref, (manager.timers ref).Ready)
    (stepped : step manager action = some next) :
    ∀ ref, (next.timers ref).Ready := by
  cases action with
  | getTimer =>
      cases stepped
      exact ready_setTimer ready (.of_event_eq_none rfl)
  | startOnce target interval callback =>
      simp only [step] at stepped
      apply ready_onTimer ready _ stepped
      intro timer holds
      exact holds.startRounds interval trivial
  | startRounds target interval round callback =>
      simp only [step] at stepped
      apply ready_onTimer ready _ stepped
      intro timer holds
      exact holds.startRounds interval trivial
  | startForever target interval callback =>
      simp only [step] at stepped
      apply ready_onTimer ready _ stepped
      intro timer holds
      exact holds.startRounds interval trivial
  | startAfter target after interval round callback =>
      simp only [step] at stepped
      apply ready_onTimer ready _ stepped
      intro timer holds
      exact holds.startRounds after rfl
  | expire target =>
      obtain ⟨timer, called, expires, rfl⟩ := of_expire stepped
      exact ready_setTimer ready ((ready target).expire expires)
  | stop target =>
      apply ready_onTimer ready _ stepped
      intro timer _
      exact .of_event_eq_none timer.event_reset
  | release target =>
      obtain ⟨_, rfl⟩ := of_release stepped
      exact ready_collect ready
  | killTimer timerID =>
      cases stepped
      exact ready_collect ready
  | auditTimer =>
      cases stepped
      exact ready_collect ready

theorem ready_run
    {uniqueID : TimerId} {state : TimerManager Callback}
    {actions : List (TimerAction Callback)}
    (ran : run step (create uniqueID) actions = some state) :
    ∀ ref, (state.timers ref).Ready := by
  apply run_invariant (fun _ _ _ ready stepped => ready_step ready stepped) _
    ran
  intro ref
  exact .of_event_eq_none rfl

/-! ### A timer without event is silent -/

theorem event_eq_none_step
    {manager next : TimerManager Callback} {action : TimerAction Callback}
    {ref : Nat} (free : (manager.timers ref).event = none)
    (notStarted : ¬ action.Starts ref)
    (stepped : step manager action = some next) :
    (next.timers ref).event = none := by
  have touched := touched_step stepped ref
  generalize next.timers ref = after at touched ⊢
  cases touched with
  | kept => exact free
  | reset => exact Timer.event_reset _
  | created => rfl
  | started starts => exact (notStarted starts).elim
  | expired called _ expires => simp [Timer.expire, free] at expires

theorem silenced_of_event_eq_none
    {manager : TimerManager Callback} {ref : Nat}
    (free : (manager.timers ref).event = none) : manager.Silenced ref := by
  intro actions later ran notStarted invokes
  have kept : ∀ (current : TimerManager Callback) action next,
      (current.timers ref).event = none → action ∈ actions →
        step current action = some next →
          (next.timers ref).event = none := by
    intro current action next holds listed stepped
    exact event_eq_none_step holds (notStarted action listed) stepped
  have stillFree : (later.timers ref).event = none :=
    run_invariant_of_mem kept free ran
  obtain ⟨timer, callback, expired⟩ := invokes
  simp [Timer.expire, stillFree] at expired

/-! ### An armed timer is not -/

theorem not_silenced_of_event_eq_some
    {manager : TimerManager Callback} {ref : Nat} {event : Event}
    (ready : (manager.timers ref).Ready)
    (busy : (manager.timers ref).event = some event) :
    ¬ manager.Silenced ref := by
  intro silenced
  obtain ⟨handler, fired, handles, _, expired⟩ := ready.exists_expire busy
  cases handler with
  | call callback =>
      exact silenced [] manager rfl (by simp) ⟨_, callback, expired⟩
  | startRounds interval round callback =>
      obtain ⟨next, started, armed, calls⟩ :=
        ready.expire_startRounds busy handles
      obtain ⟨later, stillBusy⟩ := Option.isSome_iff_exists.mp armed
      obtain ⟨other, _, handlesNext, _, expiredNext⟩ :=
        (ready.expire started).exists_expire stillBusy
      rw [calls] at handlesNext
      cases handlesNext
      have stepped : run step manager [.expire ref] =
          some (manager.setTimer ref next) := by
        simp only [run, step, started]
      apply silenced _ _ stepped
      · intro action listed
        cases List.mem_singleton.mp listed
        exact id
      · simp only [Invokes, setTimer, Function.update_self]
        exact ⟨_, callback, expiredNext⟩

/-! ### The entry and the pointers -/

/-- With its entry gone, only the callers can keep a timer alive. -/
theorem alive_of_killed
    {manager : TimerManager Callback} (lists : manager.ListsIssued)
    {id : TimerId} {ref : Nat} (gave : manager.issued[ref]? = some id) :
    ({ manager with
        tMap := manager.tMap.filter fun entry => entry.1 != id } :
      TimerManager Callback).alive ref = manager.held ref := by
  have unlisted : (manager.tMap.filter fun entry => entry.1 != id).any
      (fun entry => entry.2 == ref) = false := by
    rw [List.any_eq_false]
    intro entry listed same
    obtain ⟨inMap, other⟩ := List.mem_filter.mp listed
    have issued := lists entry inMap
    rw [eq_of_beq same, gave] at issued
    cases issued
    simp at other
  simp only [alive, unlisted, Bool.or_false]

theorem timers_killTimer
    {manager : TimerManager Callback} (lists : manager.ListsIssued)
    {id : TimerId} {ref : Nat} (gave : manager.issued[ref]? = some id) :
    (manager.killTimer id).timers ref =
      if manager.held ref then manager.timers ref
      else (manager.timers ref).reset := by
  simp only [killTimer, collect, alive_of_killed lists gave]

/-- `killTimer` ends a timer exactly if the timer is not armed, or if no
caller has kept the pointer to it. -/
theorem killTimer_silences_iff
    {uniqueID : TimerId} {state next : TimerManager Callback}
    {actions : List (TimerAction Callback)}
    (ran : run step (create uniqueID) actions = some state)
    {id : TimerId} {ref : Nat} (gave : state.issued[ref]? = some id)
    (killed : step state (.killTimer id) = some next) :
    next.Silenced ref ↔ ¬ state.StillArmed ref := by
  cases killed
  have ready := ready_run ran ref
  have after := timers_killTimer (listsIssued_run ran) gave
  constructor
  · intro silenced stillArmed
    obtain ⟨⟨event, busy, _⟩, held⟩ := stillArmed
    rw [if_pos held] at after
    rw [← after] at ready busy
    exact not_silenced_of_event_eq_some ready busy silenced
  · intro notArmed
    apply silenced_of_event_eq_none
    rw [after]
    split
    · rename_i held
      apply ready.steady.event_eq_none_of_not_armed
      intro armed
      exact notArmed ⟨armed, held⟩
    · exact Timer.event_reset _

theorem killTimer_silences_iff_dropped :
    ∃ state next : TimerManager Unit,
      run step (create 1) [.getTimer, .startForever 0 10 (), .release 0] =
          some state ∧
        state.issued[0]? = some 1 ∧
        step state (.killTimer 1) = some next ∧
        (next.Silenced 0 ↔ ¬ state.StillArmed 0) := by
  have ran : run step (create 1)
      [.getTimer, .startForever 0 10 (), .release 0] =
        some (_ : TimerManager Unit) := rfl
  exact ⟨_, _, ran, rfl, rfl, killTimer_silences_iff ran rfl rfl⟩

/-- A timer whose pointer its owner has kept goes on behind `killTimer`. -/
theorem killTimer_notSilenced :
    ∃ state next : TimerManager Unit,
      run step (create 1) [.getTimer, .startForever 0 10 ()] = some state ∧
        state.issued[0]? = some 1 ∧
        step state (.killTimer 1) = some next ∧ next.Invokes 0 ∧
        ¬ next.Silenced 0 := by
  have killed : ∃ state next : TimerManager Unit,
      run step (create 1) [.getTimer, .startForever 0 10 ()] = some state ∧
        state.issued[0]? = some 1 ∧
        step state (.killTimer 1) = some next ∧ next.Invokes 0 :=
    ⟨_, _, rfl, rfl, rfl, _, (), rfl⟩
  obtain ⟨state, next, ran, gave, killed, invokes⟩ := killed
  refine ⟨state, next, ran, gave, killed, invokes, ?_⟩
  intro silenced
  exact silenced [] next rfl (by simp) invokes

end TimerManager

end Translib

end DBWrapper
