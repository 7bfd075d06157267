import DBWrapper.Translib.Serving
import DBWrapper.Translib.TimerCalls
import DBWrapper.TaskBase.Interval

/-!
# How long forever is

`startForever` asks for `uint32_t(-1)` rounds, while the rounds are counted in
64 bits.  So the timer is disarmed by the expiration with that number, and
with it the frame timer, the audit timers and the heartbeat timer, which
nobody starts again.
-/

namespace DBWrapper

open Foundation

namespace Translib

namespace Timer

variable {Callback : Type}

def StillRuns (timer : Timer Callback) : Prop :=
  timer.Armed ∧ timer.isFinished = false

theorem stillRuns_iff
    {timer : Timer Callback} {interval : UInt32} {callback : Callback}
    {count : Nat}
    (running : count < 2 ^ 32 - 1 → timer.RunsForever interval callback count)
    (usedUp : 2 ^ 32 - 1 ≤ count → timer.event = none) :
    timer.StillRuns ↔ count < 2 ^ 32 - 1 := by
  constructor
  · intro stillRuns
    by_contra many
    have free := usedUp (Nat.not_lt.mp many)
    exact not_armed_of_event_eq_none free stillRuns.1
  · intro few
    exact ⟨(running few).armed, (running few).not_isFinished⟩

end Timer

namespace CBTimer

variable {Handler CBHandler : Type}

/-- What `startForever` promises of a state that is reached after `count`
expirations. -/
structure RunsOn (begun state : CBTimer Handler CBHandler) (interval : UInt32)
    (handler : Handler) (count : Nat) : Prop where
  timeout : state.timer.timeout = some (Timer.timevalOf interval)
  unfinished : state.timer.isFinished = false
  invoked : state.invocations = begun.invocations ++
    List.replicate count { call := .handler handler, armed := true }

theorem runsRounds_startForever
    {state begun : CBTimer Handler CBHandler} {interval : UInt32}
    {handler : Handler}
    (begins : state.start (.startForever interval handler) = (true, begun)) :
    begun.timer.RunsRounds interval 0xffffffff (.call (.handler handler))
      0 := by
  have free := event_of_start begins
  have same : (state.start (.startForever interval handler)).2 = begun :=
    congrArg Prod.snd begins
  rw [← same]
  exact Timer.runsRounds_startRounds free interval (by decide) _

/-- A list of actions reaches every number of expirations below its own. -/
theorem exists_expiration
    {actions : List (CBTimerAction Handler CBHandler)} {count : Nat}
    (more : count < CBTimerAction.expirations actions) :
    ∃ before after, actions = before ++ .expire :: after ∧
      CBTimerAction.expirations before = count := by
  induction actions generalizing count with
  | nil => exact (Nat.not_lt_zero count more).elim
  | cons action actions induction =>
      cases action with
      | expire =>
          cases count with
          | zero => exact ⟨[], actions, rfl, rfl⟩
          | succ count =>
              rw [CBTimerAction.expirations_cons_expire] at more
              obtain ⟨before, after, rfl, counted⟩ :=
                induction (Nat.lt_of_succ_lt_succ more)
              refine ⟨.expire :: before, after, rfl, ?_⟩
              rw [CBTimerAction.expirations_cons_expire, counted]
      | start call =>
          obtain ⟨before, after, rfl, counted⟩ := induction more
          exact ⟨.start call :: before, after, rfl, counted⟩
      | stop =>
          obtain ⟨before, after, rfl, counted⟩ := induction more
          exact ⟨.stop :: before, after, rfl, counted⟩

section

variable {begun final : CBTimer Handler CBHandler} {interval : UInt32}
  {handler : Handler} {actions : List (CBTimerAction Handler CBHandler)}

theorem runsOn_of_run
    (runs : begun.timer.RunsRounds interval 0xffffffff
      (.call (.handler handler)) 0)
    (ran : run step begun actions = some final) (notStopped : .stop ∉ actions)
    (few : CBTimerAction.expirations actions < 2 ^ 32 - 1) :
    RunsOn begun final interval handler
      (CBTimerAction.expirations actions) := by
  obtain ⟨still, invoked⟩ :=
    runsRounds_run runs ran notStopped (by rw [Nat.zero_add]; exact few)
  rw [Nat.zero_add] at still
  exact ⟨timeout_of_runsRounds still, still.not_isFinished, invoked⟩

/-- The expiration in which the rounds are used up. -/
theorem disarmed_of_many
    (runs : begun.timer.RunsRounds interval 0xffffffff
      (.call (.handler handler)) 0)
    (ran : run step begun actions = some final) (notStopped : .stop ∉ actions)
    (many : 2 ^ 32 - 1 ≤ CBTimerAction.expirations actions) :
    ∃ before after, ∃ disarmed : CBTimer Handler CBHandler,
      actions = before ++ after ∧ run step begun before = some disarmed ∧
        run step disarmed after = some final ∧
          disarmed.timer.event = none := by
  have reached : 2 ^ 32 - 2 < CBTimerAction.expirations actions := by omega
  obtain ⟨before, after, rfl, counted⟩ := exists_expiration reached
  obtain ⟨last, ranBefore, rest⟩ := run_append_eq_some_iff.mp ran
  obtain ⟨disarmed, expired, ranAfter⟩ := run_cons_eq_some_iff.mp rest
  have goesOn := fun stop => notStopped (List.mem_append_left _ stop)
  obtain ⟨still, _⟩ := runsRounds_run runs ranBefore goesOn
    (by rw [counted]; decide)
  rw [Nat.zero_add, counted] at still
  obtain ⟨next, ends, _, released⟩ := runsRounds_expire still
  rw [expired] at ends
  cases ends
  refine ⟨before ++ [.expire], after, disarmed, ?_, ?_, ranAfter, ?_⟩
  · rw [List.append_assoc]
    rfl
  · exact run_append_singleton ranBefore expired
  · exact (released rfl).1

/-- One more expiration behind a run of them. -/
theorem run_replicate_succ
    {last next : CBTimer Handler CBHandler} {count : Nat}
    (ran : run step begun (List.replicate count .expire) = some last)
    (expired : step last .expire = some next) :
    run step begun (List.replicate (count + 1) .expire) = some next := by
  rw [List.replicate_succ']
  exact run_append_singleton ran expired

theorem runsRounds_replicate
    (runs : begun.timer.RunsRounds interval 0xffffffff
      (.call (.handler handler)) 0)
    {last : CBTimer Handler CBHandler} {count : Nat}
    (ran : run step begun (List.replicate count .expire) = some last)
    (few : count < 2 ^ 32 - 1) :
    last.timer.RunsRounds interval 0xffffffff (.call (.handler handler))
      count := by
  have counted : CBTimerAction.expirations
      (List.replicate count (.expire : CBTimerAction Handler CBHandler)) =
        count := CBTimerAction.expirations_replicate count
  obtain ⟨still, _⟩ := runsRounds_run runs ran (by simp)
    (by rw [counted, Nat.zero_add]; exact few)
  rw [counted, Nat.zero_add] at still
  exact still

/-- Every number of rounds below the last one comes about. -/
theorem exists_run_replicate
    (runs : begun.timer.RunsRounds interval 0xffffffff
      (.call (.handler handler)) 0)
    {count : Nat} (few : count < 2 ^ 32 - 1) :
    ∃ last, run step begun (List.replicate count .expire) = some last := by
  induction count with
  | zero => exact ⟨begun, rfl⟩
  | succ count induction =>
      have fewer := Nat.lt_of_succ_lt few
      obtain ⟨last, ran⟩ := induction fewer
      obtain ⟨next, expired, _⟩ :=
        runsRounds_expire (runsRounds_replicate runs ran fewer)
      exact ⟨next, run_replicate_succ ran expired⟩

/-- So does the last one, and it disarms the timer. -/
theorem exists_run_disarmed
    (runs : begun.timer.RunsRounds interval 0xffffffff
      (.call (.handler handler)) 0)
    {count : Nat} (last_round : count + 1 = 2 ^ 32 - 1) :
    ∃ last, run step begun (List.replicate (count + 1) .expire) =
        some last ∧ last.timer.event = none := by
  have few : count < 2 ^ 32 - 1 := by omega
  obtain ⟨last, ran⟩ := exists_run_replicate runs few
  obtain ⟨next, expired, _, ends⟩ :=
    runsRounds_expire (runsRounds_replicate runs ran few)
  exact ⟨next, run_replicate_succ ran expired, (ends last_round).1⟩

/-- In a run of nothing but expirations the timer runs on to its last
round. -/
theorem exists_runsOn_iff
    (runs : begun.timer.RunsRounds interval 0xffffffff
      (.call (.handler handler)) 0) (count : Nat) :
    (∃ last, run step begun (List.replicate count .expire) = some last ∧
        RunsOn begun last interval handler count) ↔
      count < 2 ^ 32 - 1 := by
  have counted : CBTimerAction.expirations
      (List.replicate count (.expire : CBTimerAction Handler CBHandler)) =
        count := CBTimerAction.expirations_replicate count
  constructor
  · intro holds
    obtain ⟨last, ran, runsOn⟩ := holds
    by_contra many
    obtain ⟨before, after, disarmed, whole, _, rest, free⟩ :=
      disarmed_of_many runs ran (by simp) (by rw [counted]; omega)
    have notStarted : ∀ call, .start call ∉ after := by
      intro call listed
      have member := List.mem_append_right before listed
      rw [← whole] at member
      cases List.eq_of_mem_replicate member
    obtain ⟨stillFree, _⟩ := silent_run free rest notStarted
    have timeout := runsOn.timeout
    rw [timeout_of_event_eq_none stillFree] at timeout
    cases timeout
  · intro few
    obtain ⟨last, ran⟩ := exists_run_replicate runs few
    have runsOn := runsOn_of_run runs ran (by simp) (by rw [counted]; exact few)
    rw [counted] at runsOn
    exact ⟨last, ran, runsOn⟩

/-- In a run in which the handler may try to start its timer again, it runs on
everywhere as long as the run does not reach the last round. -/
theorem all_runsOn_iff
    (runs : begun.timer.RunsRounds interval 0xffffffff
      (.call (.handler handler)) 0)
    (ran : run step begun actions = some final)
    (notStopped : .stop ∉ actions) :
    (∀ before after visited, actions = before ++ after →
        run step begun before = some visited →
          RunsOn begun visited interval handler
            (CBTimerAction.expirations before)) ↔
      CBTimerAction.expirations actions < 2 ^ 32 - 1 := by
  constructor
  · intro always
    by_contra many
    obtain ⟨before, after, disarmed, whole, reached, _, free⟩ :=
      disarmed_of_many runs ran notStopped (Nat.not_lt.mp many)
    have timeout := (always before after disarmed whole reached).timeout
    rw [timeout_of_event_eq_none free] at timeout
    cases timeout
  · intro few before after visited whole reached
    subst whole
    have goesOn := fun stop => notStopped (List.mem_append_left after stop)
    apply runsOn_of_run runs reached goesOn
    apply Nat.lt_of_le_of_lt _ few
    rw [CBTimerAction.expirations_append]
    exact Nat.le_add_right _ _

end

end CBTimer

namespace Service

/-- The thread has been in `event_base_loop`. -/
def Entered (loop : Loop) : Prop :=
  ∃ phase, loop.runs = [phase] ∧ phase ≠ .created ∧ phase ≠ .entering

/-- The audit timer or the frame timer has been started. -/
def TimerStarted (service : Service) : Prop :=
  match service.kind with
  | .frameLoop _ _ => Entered service.loop
  | _ => .startAuditTimer ∉ service.todo

def timerInterval (service : Service) : UInt32 :=
  match service.kind with
  | .frameLoop frameInterval _ => frameInterval
  | _ => auditTimerInterval

/-- The timer of a service, before it is started and as long as it has rounds
left, and then. -/
structure Counted (service : Service) : Prop where
  fresh : ¬ service.TimerStarted →
    service.timer.event = none ∧ service.expirations = 0
  ticking : service.TimerStarted →
    Ticking service.timer service.timerInterval service.expirations
  usedUp : service.TimerStarted → 2 ^ 32 - 1 ≤ service.expirations →
    service.timer.event = none

theorem counted_create (kind : ServiceKind) : (create kind).Counted := by
  have notStarted : ¬ (create kind).TimerStarted := by
    cases kind <;>
      simp [TimerStarted, Entered, create, Loop.create, ServiceKind.program]
  refine ⟨fun _ => ⟨rfl, rfl⟩, ?_, ?_⟩
  · intro started
    exact (notStarted started).elim
  · intro started
    exact (notStarted started).elim

/-- The steps that have nothing to do with the timer. -/
theorem Counted.of_same
    {service next : Service} (counted : service.Counted)
    (kind : next.kind = service.kind)
    (timer : next.timer = service.timer)
    (expirations : next.expirations = service.expirations)
    (started : next.TimerStarted ↔ service.TimerStarted) : next.Counted := by
  have interval : next.timerInterval = service.timerInterval := by
    simp only [timerInterval, kind]
  constructor
  · intro notStarted
    rw [timer, expirations]
    exact counted.fresh (mt started.mpr notStarted)
  · intro isStarted
    rw [timer, expirations, interval]
    exact counted.ticking (started.mp isStarted)
  · intro isStarted
    rw [timer, expirations]
    exact counted.usedUp (started.mp isStarted)

/-- A timer that has not been started is started. -/
theorem Counted.startForever
    {service next : Service} (counted : service.Counted)
    (notStarted : ¬ service.TimerStarted) (started : next.TimerStarted)
    (timer : next.timer =
      (service.timer.startForever true true next.timerInterval
        (.call ())).2)
    (expirations : next.expirations = service.expirations) :
    next.Counted := by
  obtain ⟨free, unexpired⟩ := counted.fresh notStarted
  refine ⟨fun fresh => (fresh started).elim, ?_, ?_⟩
  · intro _
    rw [timer, expirations, unexpired]
    exact ticking_startForever free next.timerInterval
  · intro _ many
    rw [expirations, unexpired] at many
    exact absurd many (by decide)

theorem Counted.onLoop
    {service : Service} (counted : service.Counted) (shape : service.Shape)
    {action : LoopAction} {before after : RunPhase}
    (kind : ThreadStep action before after) {loop : Loop}
    (stepped : Loop.step service.loop action = some loop)
    (same : ∀ frameInterval newThread,
      service.kind = .frameLoop frameInterval newThread →
        (after ≠ .created ∧ after ≠ .entering ↔
          before ≠ .created ∧ before ≠ .entering)) :
    Counted { service with loop } := by
  obtain ⟨single, moved⟩ := shape.threadStep kind stepped
  refine counted.of_same rfl rfl rfl ?_
  simp only [TimerStarted]
  split
  · rename_i frameInterval newThread isFrame
    simp [Entered, single, moved, same _ _ isFrame]
  · exact Iff.rfl

theorem Counted.expire
    {service next : Service} (counted : service.Counted)
    (stepped : step service .expire = some next) : next.Counted := by
  simp only [step] at stepped
  split at stepped
  · split at stepped
    · cases stepped
    · rename_i timer called expires
      cases stepped
      have started : service.TimerStarted := by
        by_contra notStarted
        have free := (counted.fresh notStarted).1
        simp [Timer.expire, free] at expires
      refine ⟨fun fresh => (fresh started).elim, ?_, ?_⟩
      · intro _
        exact (counted.ticking started).expire expires
      · intro _ many
        by_cases few : service.expirations < 2 ^ 32 - 1
        · obtain ⟨after, expired, _, ends⟩ :=
            (counted.ticking started few).expire
          rw [expires] at expired
          cases expired
          simp only at many
          exact ends (by omega)
        · have free := counted.usedUp started (Nat.not_lt.mp few)
          simp [Timer.expire, free] at expires
  · cases stepped

theorem Counted.owner
    {service next : Service} (shape : service.Shape)
    (counted : service.Counted)
    (stepped : step service .owner = some next) : next.Counted := by
  simp only [step] at stepped
  split at stepped
  · cases stepped
  · rename_i newThread todo here
    obtain ⟨loop, started, rfl⟩ := onLoop_eq_some stepped
    refine counted.of_same rfl rfl rfl ?_
    simp only [TimerStarted]
    split
    · rcases shape.runs with ⟨_, none, initial⟩ | ⟨absent, _⟩
      · obtain ⟨single, _⟩ := start_eq_some initial none started
        simp [Entered, none, single]
      · exact (absent newThread (by simp [here])).elim
    · simp [here]
  · rename_i todo here
    cases stepped
    have suffix := shape.suffix
    rw [here] at suffix
    have notFrame : ∀ frameInterval newThread,
        service.kind ≠ .frameLoop frameInterval newThread := by
      intro frameInterval newThread isFrame
      have listed := suffix.subset List.mem_cons_self
      simp [isFrame, ServiceKind.program] at listed
    apply counted.startForever
    · simp only [TimerStarted, here]
      exact not_not_intro List.mem_cons_self
    · simp only [TimerStarted, startAuditTimer]
      exact ServiceKind.notMem_of_suffix suffix
    · simp only [startAuditTimer, timerInterval]
    · rfl
  · rename_i todo here
    cases stepped
    refine counted.of_same rfl rfl rfl ?_
    simp [TimerStarted, here]

theorem Counted.enter
    {service next : Service} (shape : service.Shape)
    (counted : service.Counted)
    (stepped : step service .enter = some next) : next.Counted := by
  obtain ⟨loop, moved, rfl⟩ := onLoop_eq_some stepped
  rcases service.onBeforeLoop_cases with
    ⟨notFrame, same⟩ | ⟨frameInterval, newThread, isFrame, frame⟩
  · rw [same] at moved ⊢
    apply counted.onLoop shape .enter moved
    intro frameInterval newThread isFrame
    exact (notFrame frameInterval newThread isFrame).elim
  · have shape' := shape.onBeforeLoop
    rw [frame] at moved shape' ⊢
    obtain ⟨before, after⟩ := shape'.threadStep .enter moved
    simp only at before
    apply counted.startForever
    · simp [TimerStarted, isFrame, Entered, before]
    · simp [TimerStarted, isFrame, Entered, after]
    · simp [timerInterval, isFrame]
    · rfl

theorem Counted.step
    {service next : Service} {action : ServiceAction} (shape : service.Shape)
    (counted : service.Counted)
    (stepped : Service.step service action = some next) : next.Counted := by
  cases action with
  | owner => exact counted.owner shape stepped
  | beginRun =>
      obtain ⟨loop, moved, rfl⟩ := onLoop_eq_some stepped
      exact counted.onLoop shape .beginRun moved (by simp)
  | enter => exact counted.enter shape stepped
  | look =>
      simp only [Service.step] at stepped
      split at stepped
      · split at stepped
        · obtain ⟨loop, moved, rfl⟩ := onLoop_eq_some stepped
          exact counted.onLoop shape (.leave _) moved (by simp)
        · cases stepped
          exact counted
      · cases stepped
  | finish =>
      obtain ⟨loop, moved, rfl⟩ := onLoop_eq_some stepped
      exact counted.onLoop shape .finish moved (by simp)
  | expire => exact counted.expire stepped
  | addOther =>
      simp only [Service.step] at stepped
      split at stepped
      · cases stepped
      · cases stepped
        exact counted.of_same rfl rfl rfl Iff.rfl
  | removeOther =>
      simp only [Service.step] at stepped
      split at stepped
      · cases stepped
      · cases stepped
        exact counted.of_same rfl rfl rfl Iff.rfl
  | stop =>
      simp only [Service.step] at stepped
      split at stepped
      · obtain ⟨loop, stops, rfl⟩ := onLoop_eq_some stepped
        rw [stop_eq_some stops]
        refine counted.of_same rfl rfl rfl ?_
        simp only [TimerStarted, Entered, Loop.runs_stop]
      · cases stepped

/-- The audit timer and the frame timer run until their rounds are used up,
whatever else happens to the loop. -/
theorem timer_stillRuns_iff
    {kind : ServiceKind} {actions : List ServiceAction} {service : Service}
    (ran : run step (create kind) actions = some service)
    (started : service.TimerStarted) :
    service.timer.StillRuns ↔ service.expirations < 2 ^ 32 - 1 := by
  have both : service.Shape ∧ service.Counted := by
    apply run_invariant _ ⟨shape_create kind, counted_create kind⟩ ran
    intro current action next holds stepped
    exact ⟨holds.1.step stepped, holds.2.step holds.1 stepped⟩
  exact Timer.stillRuns_iff (both.2.ticking started) (both.2.usedUp started)

end Service

end Translib

namespace HbTimers

theorem heartbeat_stillRuns_iff
    {actions : List IntervalAction} {system : HbTimers}
    (ran : run step init actions = some system) :
    (system.task0.timerMgr.timers 0).StillRuns ↔
      IntervalAction.ticks actions < 2 ^ 32 - 1 := by
  have ticked := ticked_run ticked_init ran
  rw [Nat.zero_add] at ticked
  exact Translib.Timer.stillRuns_iff (fun few => (ticked.running few).2)
    ticked.usedUp

end HbTimers

namespace Translib

open CBTimer

/-- The exact length of forever: for a timer that nobody stops, and for the
frame timer, the audit timers and the heartbeat timer in every run of their
owners. -/
theorem startForever_stillRuns_iff {Handler CBHandler : Type}
    {state begun final : CBTimer Handler CBHandler} {interval : UInt32}
    {handler : Handler}
    (begins : state.start (.startForever interval handler) = (true, begun))
    {actions : List (CBTimerAction Handler CBHandler)}
    (ran : run CBTimer.step begun actions = some final)
    (notStopped : .stop ∉ actions)
    {kind : ServiceKind} {serviceActions : List ServiceAction}
    {service : Service}
    (served : run Service.step (Service.create kind) serviceActions =
      some service)
    (started : service.TimerStarted)
    {intervalActions : List IntervalAction} {timers : HbTimers}
    (beaten : run HbTimers.step HbTimers.init intervalActions = some timers) :
    (∀ count,
        (∃ last, run CBTimer.step begun (List.replicate count .expire) =
            some last ∧ RunsOn begun last interval handler count) ↔
          count < 2 ^ 32 - 1) ∧
      ((∀ before after visited, actions = before ++ after →
          run CBTimer.step begun before = some visited →
            RunsOn begun visited interval handler
              (CBTimerAction.expirations before)) ↔
        CBTimerAction.expirations actions < 2 ^ 32 - 1) ∧
      (service.timer.StillRuns ↔ service.expirations < 2 ^ 32 - 1) ∧
      ((timers.task0.timerMgr.timers 0).StillRuns ↔
        IntervalAction.ticks intervalActions < 2 ^ 32 - 1) := by
  have runs := runsRounds_startForever begins
  exact ⟨exists_runsOn_iff runs, all_runsOn_iff runs ran notStopped,
    Service.timer_stillRuns_iff served started,
    HbTimers.heartbeat_stillRuns_iff beaten⟩

theorem startForever_stillRuns_iff_threeTimers :
    ∃ (begun final : CBTimer Unit Unit) (service : Service)
        (timers : HbTimers),
      create.start (.startForever 100 ()) = (true, begun) ∧
      run CBTimer.step begun [.expire, .start (.startOnce 5 ()), .expire] =
        some final ∧
      run Service.step (Service.create (.frameLoop 40 false))
        [.owner, .beginRun, .enter, .expire] = some service ∧
      run HbTimers.step HbTimers.init [.tick 0, .audit] = some timers ∧
      (∀ count,
          (∃ last, run CBTimer.step begun (List.replicate count .expire) =
              some last ∧ RunsOn begun last 100 () count) ↔
            count < 2 ^ 32 - 1) ∧
        ((∀ before after visited,
            [.expire, .start (.startOnce 5 ()), .expire] = before ++ after →
              run CBTimer.step begun before = some visited →
                RunsOn begun visited 100 ()
                  (CBTimerAction.expirations before)) ↔
          CBTimerAction.expirations
              ([.expire, .start (.startOnce 5 ()), .expire] :
                List (CBTimerAction Unit Unit)) < 2 ^ 32 - 1) ∧
        (service.timer.StillRuns ↔ service.expirations < 2 ^ 32 - 1) ∧
        ((timers.task0.timerMgr.timers 0).StillRuns ↔
          IntervalAction.ticks [.tick 0, .audit] < 2 ^ 32 - 1) := by
  have begins : (create : CBTimer Unit Unit).start (.startForever 100 ()) =
      (true, _) := rfl
  have served : ∃ service : Service,
      run Service.step (Service.create (.frameLoop 40 false))
          [.owner, .beginRun, .enter, .expire] = some service ∧
        service.TimerStarted := ⟨_, rfl, .looping, rfl, by simp, by simp⟩
  obtain ⟨service, served, started⟩ := served
  exact ⟨_, _, service, _, begins, rfl, served, rfl,
    startForever_stillRuns_iff begins rfl (by simp) served started rfl⟩

/-- The constant behind `startForever` is a number like any other: the
expiration with that number disarms the timer. -/
theorem startForever_ends :
    ∃ begun last : CBTimer Unit Unit,
      create.start (.startForever 40 ()) = (true, begun) ∧
        run CBTimer.step begun (List.replicate (4294967294 + 1) .expire) =
          some last ∧
        last.timer.event = none ∧
        ¬ RunsOn begun last 40 () 4294967295 := by
  have begins : (create : CBTimer Unit Unit).start (.startForever 40 ()) =
      (true, _) := rfl
  obtain ⟨last, ran, free⟩ :=
    exists_run_disarmed (runsRounds_startForever begins)
      (show 4294967294 + 1 = 2 ^ 32 - 1 by decide)
  refine ⟨_, last, begins, ran, free, ?_⟩
  intro runsOn
  have timeout := runsOn.timeout
  rw [timeout_of_event_eq_none free] at timeout
  cases timeout

end Translib

end DBWrapper
