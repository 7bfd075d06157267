import DBWrapper.Foundation.Runs
import DBWrapper.Translib.Timer

/-!
# The calls of a timer's handler

A timer records here what it invokes, and whether it is armed at that moment.
What a handler does to its own timer is not part of the invocation: its calls
of `stop()` and of the start functions are the actions behind the expiration
that has called it, and so is the `stop()` behind a callback that returns -1.

`startCB` keeps its callback and what it passes to it in members of the timer.
It writes them before it tries to start, the other start functions write
nothing unless they succeed.
-/

namespace DBWrapper

namespace Translib

open Foundation

/-- The timeout for which the event of the timer is pending. -/
def Timer.timeout {Callback : Type} (timer : Timer Callback) :
    Option Timeval :=
  timer.event.bind Event.pending

/-- The function that a start function passes to `startRounds`: the user's
handler, or the closure that `startCB` makes. -/
inductive TimerFunction (Handler : Type) where
  | handler (handler : Handler)
  | cbClosure
  deriving DecidableEq, Repr

/-- A call of the user's own code. -/
inductive TimerCall (Handler CBHandler : Type) where
  | handler (handler : Handler)
  | cbHandler (handler : CBHandler) (userData : UInt64) (tid : BitVec 32)
  deriving DecidableEq, Repr

/-- `armed` is whether the timer is armed when the call begins. -/
structure Invocation (Handler CBHandler : Type) where
  call : TimerCall Handler CBHandler
  armed : Bool
  deriving DecidableEq, Repr

/-- `Timer` with the members of `startCB`. -/
structure CBTimer (Handler CBHandler : Type) where
  timer : Timer (TimerFunction Handler)
  userData : UInt64
  cbHandler : Option CBHandler
  tid : BitVec 32
  invocations : List (Invocation Handler CBHandler)
  deriving DecidableEq, Repr

/-- The start functions. -/
inductive StartCall (Handler CBHandler : Type) where
  | startRounds (interval : UInt32) (round : UInt64) (handler : Handler)
  | startOnce (interval : UInt32) (handler : Handler)
  | startForever (interval : UInt32) (handler : Handler)
  | startAfter (after interval : UInt32) (round : UInt64) (handler : Handler)
  | startCB (interval : UInt32) (handler : CBHandler) (userData : UInt64)
      (tid : BitVec 32)
  deriving DecidableEq, Repr

inductive CBTimerAction (Handler CBHandler : Type) where
  | start (call : StartCall Handler CBHandler)
  | stop
  | expire
  deriving DecidableEq, Repr

namespace CBTimerAction

variable {Handler CBHandler : Type}

def isExpire : CBTimerAction Handler CBHandler → Bool
  | .expire => true
  | _ => false

def expirations (actions : List (CBTimerAction Handler CBHandler)) : Nat :=
  actions.countP isExpire

theorem expirations_cons_start
    (call : StartCall Handler CBHandler)
    (actions : List (CBTimerAction Handler CBHandler)) :
    expirations (.start call :: actions) = expirations actions := rfl

theorem expirations_cons_expire
    (actions : List (CBTimerAction Handler CBHandler)) :
    expirations (.expire :: actions) = expirations actions + 1 :=
  List.countP_cons_of_pos rfl

theorem expirations_append
    (front back : List (CBTimerAction Handler CBHandler)) :
    expirations (front ++ back) = expirations front + expirations back :=
  List.countP_append

@[simp] theorem expirations_replicate (count : Nat) :
    expirations (List.replicate count
      (.expire : CBTimerAction Handler CBHandler)) = count := by
  induction count with
  | zero => rfl
  | succ count induction =>
      rw [List.replicate_succ, expirations_cons_expire, induction]

end CBTimerAction

namespace CBTimer

variable {Handler CBHandler : Type}

/-- The constructor. -/
def create : CBTimer Handler CBHandler :=
  { timer := Timer.create, userData := 0, cbHandler := none, tid := 0,
    invocations := [] }

def started (state : CBTimer Handler CBHandler)
    (result : Bool × Timer (TimerFunction Handler)) :
    Bool × CBTimer Handler CBHandler :=
  (result.1, { state with timer := result.2 })

/-- `event_new` and `event_add` succeed. -/
def start (state : CBTimer Handler CBHandler) :
    StartCall Handler CBHandler → Bool × CBTimer Handler CBHandler
  | .startRounds interval round handler =>
      state.started
        (state.timer.startRounds true true interval round
          (.call (.handler handler)))
  | .startOnce interval handler =>
      state.started
        (state.timer.startOnce true true interval (.call (.handler handler)))
  | .startForever interval handler =>
      state.started
        (state.timer.startForever true true interval
          (.call (.handler handler)))
  | .startAfter after interval round handler =>
      state.started
        (state.timer.startAfter true true after interval round
          (.handler handler))
  | .startCB interval handler userData tid =>
      let state := { state with tid, userData, cbHandler := some handler }
      state.started
        (state.timer.startForever true true interval (.call .cbClosure))

def invoke (state : CBTimer Handler CBHandler)
    (call : TimerCall Handler CBHandler) : CBTimer Handler CBHandler :=
  { state with
    invocations :=
      state.invocations ++ [{ call, armed := state.timer.timeout.isSome }] }

/-- The closure throws while `_CBHandler` is empty. -/
def callFunction (state : CBTimer Handler CBHandler) :
    TimerFunction Handler → Option (CBTimer Handler CBHandler)
  | .handler handler => some (state.invoke (.handler handler))
  | .cbClosure =>
      state.cbHandler.map fun handler =>
        state.invoke (.cbHandler handler state.userData state.tid)

def expire (state : CBTimer Handler CBHandler) :
    Option (CBTimer Handler CBHandler) :=
  match state.timer.expire true true with
  | none => none
  | some (timer, none) => some { state with timer }
  | some (timer, some called) => { state with timer }.callFunction called

def step (state : CBTimer Handler CBHandler) :
    CBTimerAction Handler CBHandler → Option (CBTimer Handler CBHandler)
  | .start call => some (state.start call).2
  | .stop => some { state with timer := state.timer.stop }
  | .expire => state.expire

/-- As long as nobody stops it, the timer goes on until it has expired `round`
times.  Each expiration invokes the handler once; at the last one the timer is
disarmed before. -/
def FiresRounds (state : CBTimer Handler CBHandler) (interval : UInt32)
    (round : UInt64) (handler : Handler) : Prop :=
  ∀ actions final, run step state actions = some final →
    .stop ∉ actions → CBTimerAction.expirations actions < round.toNat →
      final.timer.timeout = some (Timer.timevalOf interval) ∧
        final.invocations = state.invocations ++
          List.replicate (CBTimerAction.expirations actions)
            { call := .handler handler, armed := true } ∧
        ∃ next, step final .expire = some next ∧
          (CBTimerAction.expirations actions + 1 = round.toNat →
            next.timer.timeout = none ∧
              next.invocations = final.invocations ++
                [{ call := .handler handler, armed := false }])

/-- What the start functions and `stop()` promise of the invocations that
follow. -/
structure FiresAsAsked (state : CBTimer Handler CBHandler) : Prop where
  starts : state.timer.timeout = none → ∀ call, (state.start call).1 = true
  rounds : ∀ interval round handler (next : CBTimer Handler CBHandler),
    0 < round →
      state.start (.startRounds interval round handler) = (true, next) →
        next.invocations = state.invocations ∧
          next.FiresRounds interval round handler
  stops : ∀ next, step state .stop = some next →
    next.timer.timeout = none ∧ next.invocations = state.invocations
  /-- A timer that is not armed needs a start to invoke anything. -/
  silent : state.timer.timeout = none →
    ∀ actions final, run step state actions = some final →
      (∀ call, .start call ∉ actions) →
        final.invocations = state.invocations ∧ step final .expire = none
  delays : ∀ after interval round handler (next : CBTimer Handler CBHandler),
    0 < round →
      state.start (.startAfter after interval round handler) = (true, next) →
        ∀ actions final, run step next actions = some final →
          .stop ∉ actions → .expire ∉ actions →
            final.timer.timeout = some (Timer.timevalOf after) ∧
              ∃ waited fired : CBTimer Handler CBHandler,
                step final .expire = some fired ∧
                  waited.timer.timeout = none ∧
                  waited.invocations = state.invocations ∧
                  waited.start (.startRounds interval round handler) =
                    (true, fired) ∧
                  fired.FiresRounds interval round handler

/-- A start of an armed timer fails and changes nothing. -/
def RefusesStart (state : CBTimer Handler CBHandler)
    (action : CBTimerAction Handler CBHandler) : Prop :=
  ∀ call, action = .start call → state.timer.timeout.isSome →
    state.start call = (false, state)

/-- No `startCB` of an armed timer comes with another callback, or with other
arguments for it, than the timer has already. -/
def KeepsCallback (state : CBTimer Handler CBHandler) :
    CBTimerAction Handler CBHandler → Prop
  | .start (.startCB _ handler userData tid) =>
      state.timer.timeout.isSome →
        state.cbHandler = some handler ∧ state.userData = userData ∧
          state.tid = tid
  | _ => True

/-! ### Starting -/

/-- Every start function comes down to one `startRounds` of the timer. -/
theorem start_eq (state : CBTimer Handler CBHandler)
    (call : StartCall Handler CBHandler) :
    ∃ interval round handler,
      (state.start call).1 =
          (state.timer.startRounds true true interval round handler).1 ∧
        (state.start call).2.timer =
          (state.timer.startRounds true true interval round handler).2 ∧
        (state.start call).2.invocations = state.invocations := by
  cases call with
  | startRounds interval round handler => exact ⟨_, _, _, rfl, rfl, rfl⟩
  | startOnce interval handler => exact ⟨_, _, _, rfl, rfl, rfl⟩
  | startForever interval handler => exact ⟨_, _, _, rfl, rfl, rfl⟩
  | startAfter after interval round handler => exact ⟨_, _, _, rfl, rfl, rfl⟩
  | startCB interval handler userData tid => exact ⟨_, _, _, rfl, rfl, rfl⟩

/-- Whatever start function is called on an armed timer, the timer proper and
the invocations stay. -/
theorem start_of_event_eq_some
    {state : CBTimer Handler CBHandler} {event : Event}
    (busy : state.timer.event = some event)
    (call : StartCall Handler CBHandler) :
    (state.start call).2.timer = state.timer ∧
      (state.start call).2.invocations = state.invocations := by
  obtain ⟨interval, round, handler, _, timer, invocations⟩ :=
    state.start_eq call
  rw [Timer.startRounds_of_event_eq_some busy] at timer
  exact ⟨timer, invocations⟩

theorem start_of_event_eq_none
    {state : CBTimer Handler CBHandler} (free : state.timer.event = none)
    (call : StartCall Handler CBHandler) : (state.start call).1 = true := by
  obtain ⟨interval, round, handler, result, _, _⟩ := state.start_eq call
  rw [Timer.startRounds_of_event_eq_none free] at result
  exact result

theorem event_of_timeout
    {timer : Timer (TimerFunction Handler)}
    (armed : timer.timeout.isSome = true) :
    ∃ event, timer.event = some event := by
  cases found : timer.event with
  | none => simp [Timer.timeout, found] at armed
  | some event => exact ⟨event, rfl⟩

/-- `startCB` is the only start function that writes before it fails. -/
theorem refusesStart_iff (state : CBTimer Handler CBHandler)
    (action : CBTimerAction Handler CBHandler) :
    state.RefusesStart action ↔ state.KeepsCallback action := by
  cases action with
  | stop => simp [RefusesStart, KeepsCallback]
  | expire => simp [RefusesStart, KeepsCallback]
  | start call =>
      simp only [RefusesStart, CBTimerAction.start.injEq, forall_eq']
      cases call with
      | startCB interval handler userData tid =>
          apply imp_congr_right
          intro armed
          obtain ⟨event, busy⟩ := event_of_timeout armed
          have refused : state.start (.startCB interval handler userData tid) =
              (false,
                { state with tid, userData, cbHandler := some handler }) := by
            simp [start, started, Timer.startForever,
              Timer.startRounds_of_event_eq_some busy]
          rw [refused]
          obtain ⟨timer, ownData, ownHandler, ownTid, invocations⟩ := state
          simp only [Prod.mk.injEq, true_and, CBTimer.mk.injEq, and_true]
          constructor
          · intro same
            exact ⟨same.2.1.symm, same.1.symm, same.2.2.symm⟩
          · intro same
            exact ⟨same.2.1.symm, same.1.symm, same.2.2.symm⟩
      | _ =>
          simp only [KeepsCallback, iff_true]
          intro armed
          obtain ⟨event, busy⟩ := event_of_timeout armed
          simp [start, started, Timer.startOnce, Timer.startForever,
            Timer.startAfter, Timer.startRounds_of_event_eq_some busy]

/-! ### The rounds -/

section

variable {state final : CBTimer Handler CBHandler}
  {actions : List (CBTimerAction Handler CBHandler)} {interval : UInt32}
  {round : UInt64} {handler : TimerHandler (TimerFunction Handler)}
  {count : Nat}

theorem timeout_of_runsRounds
    {timer : Timer (TimerFunction Handler)}
    (runs : timer.RunsRounds interval round handler count) :
    timer.timeout = some (Timer.timevalOf interval) := by
  rw [Timer.timeout, runs.event]
  rfl

theorem timeout_of_event_eq_none
    {timer : Timer (TimerFunction Handler)} (free : timer.event = none) :
    timer.timeout = none := by
  rw [Timer.timeout, free]
  rfl

theorem runsRounds_start
    (runs : state.timer.RunsRounds interval round handler count)
    (call : StartCall Handler CBHandler) :
    (state.start call).2.timer.RunsRounds interval round handler count ∧
      (state.start call).2.invocations = state.invocations := by
  obtain ⟨sameTimer, sameInvocations⟩ :=
    start_of_event_eq_some runs.event call
  rw [sameTimer]
  exact ⟨runs, sameInvocations⟩

/-- One expiration of a timer that invokes a user's handler. -/
theorem runsRounds_expire {handler : Handler}
    (runs : state.timer.RunsRounds interval round (.call (.handler handler))
      count) :
    ∃ next, step state .expire = some next ∧
      (count + 1 < round.toNat →
        next.timer.RunsRounds interval round (.call (.handler handler))
            (count + 1) ∧
          next.invocations = state.invocations ++
            [{ call := .handler handler, armed := true }]) ∧
      (count + 1 = round.toNat →
        next.timer.event = none ∧
          next.invocations = state.invocations ++
            [{ call := .handler handler, armed := false }]) := by
  obtain ⟨after, expired, goesOn, ends⟩ := runs.expire
  have fired : step state .expire =
      some ({ state with timer := after }.invoke (.handler handler)) := by
    simp only [step, expire, expired]
    rfl
  refine ⟨_, fired, ?_, ?_⟩
  · intro more
    have armed := timeout_of_runsRounds (goesOn more)
    refine ⟨goesOn more, ?_⟩
    simp only [invoke, armed, Option.isSome_some]
  · intro last
    have disarmed := timeout_of_event_eq_none (ends last)
    refine ⟨ends last, ?_⟩
    simp only [invoke, disarmed, Option.isSome_none]

/-- A run without a stop, up to the last round: every expiration is one
invocation, and no start gets through. -/
theorem runsRounds_run {handler : Handler}
    (runs : state.timer.RunsRounds interval round (.call (.handler handler))
      count)
    (ran : run step state actions = some final)
    (notStopped : .stop ∉ actions)
    (few : count + CBTimerAction.expirations actions < round.toNat) :
    final.timer.RunsRounds interval round (.call (.handler handler))
        (count + CBTimerAction.expirations actions) ∧
      final.invocations = state.invocations ++
        List.replicate (CBTimerAction.expirations actions)
          { call := .handler handler, armed := true } := by
  induction actions generalizing state count with
  | nil =>
      cases ran
      exact ⟨runs, (List.append_nil _).symm⟩
  | cons action actions induction =>
      obtain ⟨next, stepped, rest⟩ := run_cons_eq_some_iff.mp ran
      have goesOn := fun stop => notStopped (List.mem_cons_of_mem action stop)
      cases action with
      | stop => exact (notStopped List.mem_cons_self).elim
      | start call =>
          cases stepped
          obtain ⟨still, same⟩ := runsRounds_start runs call
          rw [CBTimerAction.expirations_cons_start] at few ⊢
          rw [← same]
          exact induction still rest goesOn few
      | expire =>
          rw [CBTimerAction.expirations_cons_expire, ← Nat.add_assoc,
            Nat.add_right_comm] at few ⊢
          obtain ⟨fired, expired, more, _⟩ := runsRounds_expire runs
          rw [stepped] at expired
          cases expired
          obtain ⟨still, invoked⟩ := more (by omega)
          obtain ⟨later, invocations⟩ := induction still rest goesOn few
          refine ⟨later, ?_⟩
          rw [invocations, invoked, List.append_assoc]
          rfl

/-- Before the first expiration a timer only waits. -/
theorem waits_run
    (runs : state.timer.RunsRounds interval round handler count)
    (ran : run step state actions = some final)
    (notStopped : .stop ∉ actions) (notExpired : .expire ∉ actions) :
    final.timer.RunsRounds interval round handler count ∧
      final.invocations = state.invocations := by
  have kept : ∀ (current : CBTimer Handler CBHandler) action next,
      current.timer.RunsRounds interval round handler count ∧
          current.invocations = state.invocations →
        action ∈ actions → step current action = some next →
          next.timer.RunsRounds interval round handler count ∧
            next.invocations = state.invocations := by
    intro current action next holds listed stepped
    cases action with
    | stop => exact (notStopped listed).elim
    | expire => exact (notExpired listed).elim
    | start call =>
        cases stepped
        obtain ⟨still, same⟩ := runsRounds_start holds.1 call
        exact ⟨still, same.trans holds.2⟩
  exact run_invariant_of_mem kept ⟨runs, rfl⟩ ran

theorem firesRounds_of_runsRounds {handler : Handler}
    (runs : state.timer.RunsRounds interval round (.call (.handler handler))
      0) :
    state.FiresRounds interval round handler := by
  intro actions final ran notStopped few
  rw [← Nat.zero_add (CBTimerAction.expirations actions)] at few
  obtain ⟨still, invocations⟩ := runsRounds_run runs ran notStopped few
  rw [Nat.zero_add] at still
  obtain ⟨next, expired, _, last⟩ := runsRounds_expire still
  refine ⟨timeout_of_runsRounds still, invocations, next, expired, ?_⟩
  intro isLast
  obtain ⟨free, invoked⟩ := last isLast
  exact ⟨timeout_of_event_eq_none free, invoked⟩

end

theorem start_startRounds
    {state : CBTimer Handler CBHandler} (free : state.timer.event = none)
    (interval : UInt32) {round : UInt64} (some_round : 0 < round)
    (handler : Handler) :
    ∃ next : CBTimer Handler CBHandler,
      state.start (.startRounds interval round handler) = (true, next) ∧
        next.invocations = state.invocations ∧
          next.timer.RunsRounds interval round (.call (.handler handler))
            0 := by
  have runs := Timer.runsRounds_startRounds free interval some_round
    (.call (.handler handler))
  have begins := start_of_event_eq_none free
    (.startRounds interval round handler)
  exact ⟨_, Prod.ext begins rfl, rfl, runs⟩

theorem event_of_start
    {state next : CBTimer Handler CBHandler}
    {call : StartCall Handler CBHandler}
    (begun : state.start call = (true, next)) : state.timer.event = none := by
  obtain ⟨interval, round, handler, result, _, _⟩ := state.start_eq call
  rw [begun] at result
  cases found : state.timer.event with
  | none => rfl
  | some event =>
      rw [Timer.startRounds_of_event_eq_some found] at result
      cases result

theorem firesRounds_startRounds
    {state next : CBTimer Handler CBHandler} {interval : UInt32}
    {round : UInt64} (some_round : 0 < round) {handler : Handler}
    (begun : state.start (.startRounds interval round handler) =
      (true, next)) :
    next.invocations = state.invocations ∧
      next.FiresRounds interval round handler := by
  have free := event_of_start begun
  obtain ⟨other, starts, same, runs⟩ :=
    start_startRounds free interval some_round handler
  rw [begun] at starts
  cases starts
  exact ⟨same, firesRounds_of_runsRounds runs⟩

theorem start_startAfter
    {state next : CBTimer Handler CBHandler} {after interval : UInt32}
    {round : UInt64} {handler : Handler}
    (begun : state.start (.startAfter after interval round handler) =
      (true, next)) :
    next.invocations = state.invocations ∧
      next.timer.RunsRounds after 1
        (.startRounds interval round (.handler handler)) 0 := by
  have free := event_of_start begun
  have runs := Timer.runsRounds_startRounds free after
    (show (0 : UInt64) < 1 by decide)
    (.startRounds interval round (.handler handler))
  have same : (state.start (.startAfter after interval round handler)).2 =
      next := congrArg Prod.snd begun
  rw [← same]
  exact ⟨rfl, runs⟩

/-- The expiration of a `startAfter` is a start of the timer that it has just
disarmed. -/
theorem expire_startAfter
    {state : CBTimer Handler CBHandler} {after interval : UInt32}
    {round : UInt64} (some_round : 0 < round) {handler : Handler}
    (runs : state.timer.RunsRounds after 1
      (.startRounds interval round (.handler handler)) 0) :
    ∃ waited fired : CBTimer Handler CBHandler,
      step state .expire = some fired ∧
        waited.timer.timeout = none ∧
        waited.invocations = state.invocations ∧
        waited.start (.startRounds interval round handler) = (true, fired) ∧
        fired.FiresRounds interval round handler := by
  obtain ⟨released, expired, _, ends⟩ := runs.expire
  have free := ends rfl
  have waited : ({ state with timer := released } :
      CBTimer Handler CBHandler).timer.event = none := free
  obtain ⟨fired, begun, _, started⟩ :=
    start_startRounds waited interval some_round handler
  refine ⟨_, fired, ?_, timeout_of_event_eq_none waited, rfl, begun,
    firesRounds_of_runsRounds started⟩
  have same : _ = fired := congrArg Prod.snd begun
  simp only [step, expire, expired]
  rw [← same]
  rfl

/-! ### Without a start -/

theorem expire_of_event_eq_none
    {state : CBTimer Handler CBHandler} (free : state.timer.event = none) :
    step state .expire = none := by
  simp [step, expire, Timer.expire, free]

theorem silent_run
    {state final : CBTimer Handler CBHandler}
    {actions : List (CBTimerAction Handler CBHandler)}
    (free : state.timer.event = none)
    (ran : run step state actions = some final)
    (notStarted : ∀ call, .start call ∉ actions) :
    final.timer.event = none ∧ final.invocations = state.invocations := by
  have kept : ∀ (current : CBTimer Handler CBHandler) action next,
      current.timer.event = none ∧
          current.invocations = state.invocations →
        action ∈ actions → step current action = some next →
          next.timer.event = none ∧
            next.invocations = state.invocations := by
    intro current action next holds listed stepped
    cases action with
    | start call => exact (notStarted call listed).elim
    | stop =>
        cases stepped
        exact ⟨Timer.event_reset current.timer, holds.2⟩
    | expire =>
        rw [expire_of_event_eq_none holds.1] at stepped
        cases stepped
  exact run_invariant_of_mem kept ⟨free, rfl⟩ ran

/-! ### Runs -/

theorem steady_step
    {state next : CBTimer Handler CBHandler}
    {action : CBTimerAction Handler CBHandler}
    (steady : state.timer.Steady) (stepped : step state action = some next) :
    next.timer.Steady := by
  cases action with
  | start call =>
      cases stepped
      obtain ⟨interval, round, handler, _, timer, _⟩ := state.start_eq call
      rw [timer]
      exact steady.startRounds interval round handler
  | stop =>
      cases stepped
      exact Timer.steady_reset state.timer
  | expire =>
      simp only [step, expire] at stepped
      split at stepped
      · cases stepped
      · rename_i timer expired
        cases stepped
        exact steady.expire expired
      · rename_i timer called expired
        have after := steady.expire expired
        cases called with
        | handler handler =>
            cases stepped
            exact after
        | cbClosure =>
            obtain ⟨handler, _, same⟩ := Option.map_eq_some_iff.mp stepped
            rw [← same]
            exact after

theorem event_eq_none_of_timeout
    {timer : Timer (TimerFunction Handler)} (steady : timer.Steady)
    (disarmed : timer.timeout = none) : timer.event = none := by
  cases found : timer.event with
  | none => rfl
  | some event =>
      have isPending := steady.pending event found
      simp only [Timer.timeout, found, Option.bind_some] at disarmed
      rw [disarmed] at isPending
      cases isPending

theorem firesAsAsked_of_steady
    {state : CBTimer Handler CBHandler} (steady : state.timer.Steady) :
    state.FiresAsAsked := by
  constructor
  · intro disarmed call
    exact start_of_event_eq_none (event_eq_none_of_timeout steady disarmed)
      call
  · intro interval round handler next some_round begun
    exact firesRounds_startRounds some_round begun
  · intro next stopped
    cases stopped
    exact ⟨timeout_of_event_eq_none (Timer.event_reset state.timer), rfl⟩
  · intro disarmed actions final ran notStarted
    have free := event_eq_none_of_timeout steady disarmed
    obtain ⟨stillFree, same⟩ := silent_run free ran notStarted
    exact ⟨same, expire_of_event_eq_none stillFree⟩
  · intro after interval round handler next some_round begun actions final
      ran notStopped notExpired
    obtain ⟨same, waits⟩ := start_startAfter begun
    obtain ⟨still, quiet⟩ := waits_run waits ran notStopped notExpired
    obtain ⟨waited, fired, expired, disarmed, invocations, rest⟩ :=
      expire_startAfter some_round still
    refine ⟨timeout_of_runsRounds still, waited, fired, expired, disarmed, ?_,
      rest⟩
    rw [invocations, quiet, same]

/-- A timer fires as often as it was asked to in every run, and a start of an
armed timer changes nothing exactly in the runs where no `startCB` of an armed
timer comes with another callback. -/
theorem cbTimer_firesAsAsked_iff
    {actions : List (CBTimerAction Handler CBHandler)}
    {final : CBTimer Handler CBHandler}
    (ran : run step create actions = some final) :
    ((∀ state, Visits step create actions state → state.FiresAsAsked) ∧
        AllSteps step RefusesStart create actions) ↔
      AllSteps step KeepsCallback create actions := by
  have steady : ∀ state, Visits step (create : CBTimer Handler CBHandler)
      actions state → state.FiresAsAsked := by
    intro state visits
    obtain ⟨before, after, _, reached⟩ := visits
    apply firesAsAsked_of_steady
    exact run_invariant (fun _ _ _ holds stepped => steady_step holds stepped)
      Timer.steady_create reached
  have agree : AllSteps step RefusesStart create actions ↔
      AllSteps step KeepsCallback create actions :=
    allSteps_congr (fun _ _ _ _ _ => trivial)
      (fun state action _ _ _ => state.refusesStart_iff action) trivial ran
  rw [agree, and_iff_right steady]

theorem cbTimer_firesAsAsked_iff_sameCallback :
    ∃ final : CBTimer Unit Bool,
      run step create [.start (.startCB 100 true 7 1), .expire,
          .start (.startCB 200 true 7 1), .stop,
          .start (.startAfter 10 50 2 ()), .expire, .expire, .expire] =
        some final ∧
      (((∀ state, Visits step create [.start (.startCB 100 true 7 1), .expire,
              .start (.startCB 200 true 7 1), .stop,
              .start (.startAfter 10 50 2 ()), .expire, .expire, .expire]
            state → state.FiresAsAsked) ∧
          AllSteps step RefusesStart create
            [.start (.startCB 100 true 7 1), .expire,
              .start (.startCB 200 true 7 1), .stop,
              .start (.startAfter 10 50 2 ()), .expire, .expire, .expire]) ↔
        AllSteps step KeepsCallback create
          [.start (.startCB 100 true 7 1), .expire,
            .start (.startCB 200 true 7 1), .stop,
            .start (.startAfter 10 50 2 ()), .expire, .expire, .expire]) := by
  have ran : run step (create : CBTimer Unit Bool)
      [.start (.startCB 100 true 7 1), .expire,
        .start (.startCB 200 true 7 1), .stop,
        .start (.startAfter 10 50 2 ()), .expire, .expire, .expire] =
      some _ := rfl
  exact ⟨_, ran, cbTimer_firesAsAsked_iff ran⟩

/-- The second `startCB` returns false, and yet the timer that the first one
has armed calls the second callback. -/
theorem startCB_overwritesArmed :
    ∃ armed refused fired : CBTimer Unit Bool,
      run step create [.start (.startCB 100 false 7 1)] = some armed ∧
        armed.timer.timeout = some (Timer.timevalOf 100) ∧
        armed.start (.startCB 200 true 8 2) = (false, refused) ∧
        refused ≠ armed ∧
        step refused .expire = some fired ∧
        fired.invocations =
          [{ call := .cbHandler true 8 2, armed := true }] := by
  refine ⟨_, _, _, rfl, rfl, rfl, ?_, rfl, rfl⟩
  intro same
  exact absurd (congrArg CBTimer.tid same) (by decide)

end CBTimer

end Translib

end DBWrapper
