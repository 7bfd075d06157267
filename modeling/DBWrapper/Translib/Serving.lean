import DBWrapper.Translib.Loop
import DBWrapper.Translib.Timer

/-!
# Service loops

Three owners start a loop that is meant to run for as long as the process
does.  The constructor `TimerManager()` starts the loop thread before it
registers the audit timer, `task_base` registers its audit timer and its
eventfd before `init` starts the loop, and a `FrameLoop` registers its timer in
the loop thread, before `event_base_loop`.  `event_base_loop` returns as soon
as it looks for work when no event is registered.
-/

namespace DBWrapper

namespace Translib

open Foundation

inductive ServiceKind where
  | timerManager
  | task (newThread : Bool)
  | frameLoop (frameInterval : UInt32) (newThread : Bool)
  deriving DecidableEq, Repr

/-- A step of the owner that matters to the loop. -/
inductive OwnerStep where
  | start (newThread : Bool)
  /-- `audit_timer->startForever`. -/
  | startAuditTimer
  /-- The constructor of the `EventFdServer`. -/
  | startEventFdServer
  deriving DecidableEq, Repr

/-- `AUDIT_TIMER`. -/
def auditTimerInterval : UInt32 := 5000

/-- What the owner does, in the order of the source: the constructor
`TimerManager()`; the constructor of `task_base` and its `init`; and
`FrameLoop::start`. -/
def ServiceKind.program : ServiceKind → List OwnerStep
  | .timerManager => [.start true, .startAuditTimer]
  | .task newThread => [.startAuditTimer, .startEventFdServer, .start newThread]
  | .frameLoop _ newThread => [.start newThread]

/-- `timer` is the audit timer or the frame timer, `expirations` counts its
expirations, `todo` is the rest of the owner's program, and `others` is the
number of other events that are registered in the loop's base. -/
structure Service where
  kind : ServiceKind
  loop : Loop
  timer : Timer Unit
  eventFdServer : Bool
  others : Nat
  expirations : Nat
  todo : List OwnerStep
  deriving DecidableEq, Repr

inductive ServiceAction where
  | owner
  | beginRun
  | enter
  /-- `event_base_loop` looks whether there is anything to wait for. -/
  | look
  | finish
  /-- The audit timer or the frame timer expires. -/
  | expire
  | addOther
  | removeOther
  | stop
  deriving DecidableEq, Repr

namespace Service

def create (kind : ServiceKind) : Service :=
  { kind, loop := Loop.create, timer := Timer.create, eventFdServer := false,
    others := 0, expirations := 0, todo := kind.program }

/-- Whether any event is registered in the event base. -/
def registered (service : Service) : Bool :=
  (service.timer.event.any fun event => event.pending.isSome) ||
    service.eventFdServer || 0 < service.others

def startAuditTimer (service : Service) : Service :=
  { service with
    timer :=
      (service.timer.startForever true true auditTimerInterval
        (.call ())).2 }

/-- `Loop::onBeforeLoop` does nothing; `FrameLoop` overrides it. -/
def onBeforeLoop (service : Service) : Service :=
  match service.kind with
  | .frameLoop frameInterval _ =>
      { service with
        timer :=
          (service.timer.startForever true true frameInterval (.call ())).2 }
  | _ => service

/-- A step of the loop or of the thread in `_run`. -/
def onLoop (service : Service) (action : LoopAction) : Option Service :=
  (Loop.step service.loop action).map fun loop => { service with loop }

/-- Nobody else knows the loop of a `TimerManager` before its constructor has
returned. -/
def step (service : Service) : ServiceAction → Option Service
  | .owner =>
      match service.todo with
      | [] => none
      | .start newThread :: todo =>
          { service with todo }.onLoop (.start newThread)
      | .startAuditTimer :: todo => some { service with todo }.startAuditTimer
      | .startEventFdServer :: todo =>
          some { service with eventFdServer := true, todo }
  | .beginRun => service.onLoop (.beginRun 0)
  | .enter => service.onBeforeLoop.onLoop (.enter 0)
  | .look =>
      if service.loop.runs[0]? = some .looping then
        if service.loop.stopped || !service.registered then
          service.onLoop (.leave 0 (!service.registered))
        else
          some service
      else
        none
  | .finish => service.onLoop (.finish 0)
  | .expire =>
      if service.loop.runs[0]? = some .looping then
        match service.timer.expire true true with
        | none => none
        | some (timer, _) =>
            some
              { service with timer, expirations := service.expirations + 1 }
      else
        none
  | .addOther =>
      if service.kind = .timerManager ∧ service.todo ≠ [] then none
      else some { service with others := service.others + 1 }
  | .removeOther =>
      if service.others = 0 then none
      else some { service with others := service.others - 1 }
  | .stop => if service.todo = [] then service.onLoop .stop else none

/-- The thread of a `TimerManager` does not look for work before the audit
timer is registered. -/
def InOrder (service : Service) (action : ServiceAction) : Prop :=
  service.kind = .timerManager → action = .look →
    .startAuditTimer ∉ service.todo

end Service

namespace ServiceKind

/-! ### The programs -/

theorem nodup_program (kind : ServiceKind) : kind.program.Nodup := by
  cases kind <;> simp [program]

theorem start_unique
    {kind : ServiceKind} {left right : Bool}
    (first : .start left ∈ kind.program)
    (second : .start right ∈ kind.program) : left = right := by
  cases kind <;> simp_all [program]

/-- A step that the owner has taken does not come again. -/
theorem notMem_of_suffix
    {kind : ServiceKind} {ownerStep : OwnerStep} {todo : List OwnerStep}
    (suffix : ownerStep :: todo <:+ kind.program) : ownerStep ∉ todo := by
  have distinct := kind.nodup_program.sublist suffix.sublist
  exact (List.nodup_cons.mp distinct).1

theorem start_notMem_of_suffix
    {kind : ServiceKind} {newThread : Bool} {todo : List OwnerStep}
    (suffix : .start newThread :: todo <:+ kind.program) (other : Bool) :
    .start other ∉ todo := by
  intro again
  have first : .start newThread ∈ kind.program :=
    suffix.subset List.mem_cons_self
  have second : .start other ∈ kind.program :=
    suffix.subset (List.mem_cons_of_mem _ again)
  have same := start_unique first second
  subst same
  exact notMem_of_suffix suffix again

/-- The start is the last thing that `init` does. -/
theorem todo_eq_nil_of_task
    {newThread : Bool} {todo : List OwnerStep}
    (suffix : todo <:+ (task newThread).program)
    (started : ∀ other, .start other ∉ todo) : todo = [] := by
  obtain ⟨taken, whole⟩ := suffix
  rcases List.eq_nil_or_concat todo with empty | ⟨front, last, grown⟩
  · exact empty
  · rw [List.concat_eq_append] at grown
    subst grown
    have ends := congrArg List.getLast? whole
    simp [program] at ends
    subst ends
    exact (started newThread (by simp)).elim

end ServiceKind

namespace Service

/-! ### The shape of every run -/

/-- What every run keeps: the owner starts the loop once and nothing of the
`TimerManager` is registered before its audit timer. -/
structure Shape (service : Service) : Prop where
  suffix : service.todo <:+ service.kind.program
  runs : (∃ newThread, .start newThread ∈ service.todo) ∧
      service.loop.runs = [] ∧ service.loop.status = .init ∨
    (∀ newThread, .start newThread ∉ service.todo) ∧
      ∃ phase, service.loop.runs = [phase]
  unregistered : service.kind = .timerManager →
    .startAuditTimer ∈ service.todo →
      service.timer.event = none ∧ service.eventFdServer = false ∧
        service.others = 0 ∧ service.expirations = 0

theorem shape_create (kind : ServiceKind) : (create kind).Shape := by
  constructor
  · exact List.suffix_rfl
  · left
    refine ⟨?_, rfl, rfl⟩
    cases kind with
    | timerManager => exact ⟨true, List.mem_cons_self⟩
    | task newThread => exact ⟨newThread, by simp [create, ServiceKind.program]⟩
    | frameLoop _ newThread => exact ⟨newThread, List.mem_cons_self⟩
  · intro _ _
    exact ⟨rfl, rfl, rfl, rfl⟩

/-- A step of the thread moves its one execution and leaves the rest of the
service alone. -/
theorem onLoop_eq_some
    {service next : Service} {action : LoopAction}
    (moved : service.onLoop action = some next) :
    ∃ loop, Loop.step service.loop action = some loop ∧
      next = { service with loop } := by
  obtain ⟨loop, stepped, same⟩ := Option.map_eq_some_iff.mp moved
  exact ⟨loop, stepped, same.symm⟩

/-- The steps of the execution in `_run`, as far as the service looks at
them. -/
inductive ThreadStep : LoopAction → RunPhase → RunPhase → Prop where
  | beginRun : ThreadStep (.beginRun 0) .created .entering
  | enter : ThreadStep (.enter 0) .entering .looping
  | leave (noEvent : Bool) : ThreadStep (.leave 0 noEvent) .looping .left
  | finish : ThreadStep (.finish 0) .left .ended

theorem threadStep_eq_some
    {loop next : Loop} {action : LoopAction} {before after phase : RunPhase}
    (kind : ThreadStep action before after) (single : loop.runs = [phase])
    (stepped : Loop.step loop action = some next) :
    phase = before ∧ next.runs = [after] ∧ next.stopped = loop.stopped ∧
      (after = .ended → next.status = .finished) ∧
      (next.status = .finished → loop.status = .finished ∨ after = .ended) := by
  have moves : ∀ {number moved}, loop.advance 0 before number = some moved →
      phase = before ∧
        moved = { loop with runs := [number] } := by
    intro number moved advanced
    obtain ⟨here, rfl⟩ := Loop.advance_eq_some advanced
    rw [single] at here ⊢
    exact ⟨Option.some.inj here, rfl⟩
  cases kind with
  | beginRun =>
      obtain ⟨moved, advanced, rfl⟩ := Option.map_eq_some_iff.mp stepped
      obtain ⟨here, rfl⟩ := moves advanced
      exact ⟨here, rfl, rfl, by simp, by simp⟩
  | enter =>
      obtain ⟨here, rfl⟩ := moves stepped
      exact ⟨here, rfl, rfl, by simp, .inl⟩
  | leave noEvent =>
      simp only [Loop.step] at stepped
      split at stepped
      · obtain ⟨here, rfl⟩ := moves stepped
        exact ⟨here, rfl, rfl, by simp, .inl⟩
      · cases stepped
  | finish =>
      obtain ⟨moved, advanced, rfl⟩ := Option.map_eq_some_iff.mp stepped
      obtain ⟨here, rfl⟩ := moves advanced
      exact ⟨here, rfl, rfl, by simp, by simp⟩

/-- A step of the thread needs an execution to move. -/
theorem threadStep_needs_run
    {loop next : Loop} {action : LoopAction} {before after : RunPhase}
    (kind : ThreadStep action before after)
    (stepped : Loop.step loop action = some next) : loop.runs ≠ [] := by
  have needs : ∀ {before after moved},
      loop.advance 0 before after = some moved → loop.runs ≠ [] := by
    intro before after moved advanced none
    obtain ⟨here, _⟩ := Loop.advance_eq_some advanced
    rw [none] at here
    cases here
  cases kind with
  | beginRun =>
      obtain ⟨moved, advanced, _⟩ := Option.map_eq_some_iff.mp stepped
      exact needs advanced
  | enter => exact needs stepped
  | leave noEvent =>
      simp only [Loop.step] at stepped
      split at stepped
      · exact needs stepped
      · cases stepped
  | finish =>
      obtain ⟨moved, advanced, _⟩ := Option.map_eq_some_iff.mp stepped
      exact needs advanced

theorem Shape.onLoop
    {service : Service} (shape : service.Shape) {action : LoopAction}
    {before after : RunPhase} (kind : ThreadStep action before after)
    {loop : Loop} (stepped : Loop.step service.loop action = some loop) :
    Shape { service with loop } := by
  refine ⟨shape.suffix, ?_, shape.unregistered⟩
  rcases shape.runs with ⟨_, none, _⟩ | ⟨started, phase, single⟩
  · exact (threadStep_needs_run kind stepped none).elim
  · obtain ⟨_, moved, _⟩ := threadStep_eq_some kind single stepped
    exact .inr ⟨started, after, moved⟩

theorem start_eq_some
    {loop next : Loop} {newThread : Bool} (initial : loop.status = .init)
    (none : loop.runs = [])
    (stepped : Loop.step loop (.start newThread) = some next) :
    next.runs = [.created] ∧ next.status = .init ∧
      next.stopped = loop.stopped := by
  simp only [Loop.step] at stepped
  split at stepped
  · cases stepped
    simp only [Loop.start, initial]
    cases newThread <;> simp [none]
  · cases stepped

theorem stop_eq_some
    {loop next : Loop} (stepped : Loop.step loop .stop = some next) :
    next = loop.stop := by
  simp only [Loop.step] at stepped
  split at stepped
  · exact (Option.some.inj stepped).symm
  · exact (Option.some.inj stepped).symm
  · cases stepped

/-- Only a `FrameLoop` does anything before its loop. -/
theorem onBeforeLoop_cases (service : Service) :
    (∀ frameInterval newThread,
        service.kind ≠ .frameLoop frameInterval newThread) ∧
      service.onBeforeLoop = service ∨
      ∃ frameInterval newThread,
        service.kind = .frameLoop frameInterval newThread ∧
          service.onBeforeLoop =
            { service with
              timer :=
                (service.timer.startForever true true frameInterval
                  (.call ())).2 } := by
  simp only [onBeforeLoop]
  split
  · rename_i frameInterval newThread isFrame
    exact .inr ⟨frameInterval, newThread, isFrame, rfl⟩
  · rename_i notFrame
    exact .inl ⟨notFrame, rfl⟩

theorem Shape.onBeforeLoop {service : Service} (shape : service.Shape) :
    service.onBeforeLoop.Shape := by
  rcases service.onBeforeLoop_cases with
    ⟨_, same⟩ | ⟨_, _, isFrame, frame⟩
  · rw [same]
    exact shape
  · rw [frame]
    refine ⟨shape.suffix, shape.runs, ?_⟩
    intro isManager
    simp [isFrame] at isManager

/-- The owner has taken a step other than the start. -/
theorem Shape.takeStep
    {service : Service} (shape : service.Shape) {ownerStep : OwnerStep}
    {todo : List OwnerStep} (here : service.todo = ownerStep :: todo)
    (notStart : ∀ newThread, ownerStep ≠ .start newThread)
    {timer : Timer Unit} {eventFdServer : Bool}
    (registers : service.kind = .timerManager →
      ownerStep = .startAuditTimer) :
    Shape { service with todo, timer, eventFdServer } := by
  have suffix := shape.suffix
  rw [here] at suffix
  refine ⟨(List.suffix_cons ownerStep todo).trans suffix, ?_, ?_⟩
  · have same : ∀ newThread, .start newThread ∈ service.todo ↔
        .start newThread ∈ todo := by
      intro newThread
      simp [here, (notStart newThread).symm]
    simp only [← same]
    exact shape.runs
  · intro isManager listed
    rw [registers isManager] at suffix
    exact (ServiceKind.notMem_of_suffix suffix listed).elim

theorem Shape.owner
    {service next : Service} (shape : service.Shape)
    (stepped : step service .owner = some next) : next.Shape := by
  simp only [step] at stepped
  split at stepped
  · cases stepped
  · rename_i newThread todo here
    obtain ⟨loop, started, rfl⟩ := onLoop_eq_some stepped
    have suffix := shape.suffix
    rw [here] at suffix
    rcases shape.runs with ⟨_, none, initial⟩ | ⟨absent, _⟩
    · obtain ⟨single, _, _⟩ := start_eq_some initial none started
      refine ⟨(List.suffix_cons _ todo).trans suffix, ?_, ?_⟩
      · exact .inr ⟨ServiceKind.start_notMem_of_suffix suffix, .created, single⟩
      · intro isManager listed
        apply shape.unregistered isManager
        rw [here]
        exact List.mem_cons_of_mem _ listed
    · exact (absent newThread (by simp [here])).elim
  · rename_i todo here
    cases stepped
    exact shape.takeStep here (by simp) (fun _ => rfl)
  · rename_i todo here
    cases stepped
    apply shape.takeStep here (by simp)
    intro isManager
    have listed := shape.suffix.subset (by rw [here]; exact List.mem_cons_self)
    simp [isManager, ServiceKind.program] at listed

theorem Shape.step
    {service next : Service} {action : ServiceAction} (shape : service.Shape)
    (stepped : Service.step service action = some next) : next.Shape := by
  cases action with
  | owner => exact shape.owner stepped
  | beginRun =>
      obtain ⟨loop, moved, rfl⟩ := onLoop_eq_some stepped
      exact shape.onLoop .beginRun moved
  | enter =>
      obtain ⟨loop, moved, rfl⟩ := onLoop_eq_some stepped
      exact shape.onBeforeLoop.onLoop .enter moved
  | look =>
      simp only [Service.step] at stepped
      split at stepped
      · split at stepped
        · obtain ⟨loop, moved, rfl⟩ := onLoop_eq_some stepped
          exact shape.onLoop (.leave _) moved
        · cases stepped
          exact shape
      · cases stepped
  | finish =>
      obtain ⟨loop, moved, rfl⟩ := onLoop_eq_some stepped
      exact shape.onLoop .finish moved
  | expire =>
      simp only [Service.step] at stepped
      split at stepped
      · split at stepped
        · cases stepped
        · rename_i timer called expires
          cases stepped
          refine ⟨shape.suffix, shape.runs, ?_⟩
          intro isManager listed
          have free := (shape.unregistered isManager listed).1
          simp [Timer.expire, free] at expires
      · cases stepped
  | addOther =>
      simp only [Service.step] at stepped
      split at stepped
      · cases stepped
      · rename_i known
        cases stepped
        refine ⟨shape.suffix, shape.runs, ?_⟩
        intro isManager listed
        apply (known ⟨isManager, ?_⟩).elim
        intro done
        simp [done] at listed
  | removeOther =>
      simp only [Service.step] at stepped
      split at stepped
      · cases stepped
      · cases stepped
        refine ⟨shape.suffix, shape.runs, ?_⟩
        intro isManager listed
        obtain ⟨free, noServer, none, unexpired⟩ :=
          shape.unregistered isManager listed
        exact ⟨free, noServer, by simp [none], unexpired⟩
  | stop =>
      simp only [Service.step] at stepped
      split at stepped
      · obtain ⟨loop, stops, rfl⟩ := onLoop_eq_some stepped
        rw [stop_eq_some stops]
        refine ⟨shape.suffix, ?_, shape.unregistered⟩
        simp only [Loop.runs_stop, Loop.status_stop]
        exact shape.runs
      · cases stepped

/-! ### Runs that keep serving -/

/-- The timer has expired that many times since it was started; it is still
armed unless its rounds are used up. -/
def Ticking (timer : Timer Unit) (interval : UInt32) (expirations : Nat) :
    Prop :=
  expirations < 2 ^ 32 - 1 → timer.RunsForever interval () expirations

/-- What keeps `event_base_loop` from returning: the audit timer, the server of
the eventfd, or the frame timer. -/
def Anchored (service : Service) : Prop :=
  match service.kind with
  | .timerManager => .startAuditTimer ∉ service.todo →
      Ticking service.timer auditTimerInterval service.expirations
  | .task _ => .startEventFdServer ∉ service.todo →
      service.eventFdServer = true
  | .frameLoop frameInterval _ =>
      service.loop.runs = [.looping] ∧
          Ticking service.timer frameInterval service.expirations ∨
        service.loop.runs ≠ [.looping] ∧ service.timer.event = none ∧
          service.expirations = 0

/-- The loop thread has not left `event_base_loop`. -/
structure Serves (service : Service) : Prop where
  inLoop : ∀ phase ∈ service.loop.runs, phase ≠ .left ∧ phase ≠ .ended
  notFinished : service.loop.status ≠ .finished
  notStopped : service.loop.stopped = false
  anchored : service.Anchored

theorem serves_create (kind : ServiceKind) : (create kind).Serves := by
  refine ⟨by simp [create, Loop.create], by simp [create, Loop.create], rfl, ?_⟩
  cases kind with
  | timerManager =>
      intro absent
      simp [create, ServiceKind.program] at absent
  | task newThread =>
      intro absent
      simp [create, ServiceKind.program] at absent
  | frameLoop frameInterval newThread =>
      right
      exact ⟨by simp [create, Loop.create], rfl, rfl⟩

/-- A loop that is anchored has something to wait for. -/
theorem Serves.registered
    {service : Service} (shape : service.Shape) (serves : service.Serves)
    (few : service.expirations < 2 ^ 32 - 1)
    (looping : service.loop.runs = [.looping])
    (inOrder : service.InOrder .look) : service.registered = true := by
  have anchored := serves.anchored
  have ticks : ∀ {interval},
      Ticking service.timer interval service.expirations →
        service.registered = true := by
    intro interval ticking
    have event := (ticking few).event
    simp [Service.registered, event, Timer.foreverEvent]
  simp only [Anchored] at anchored
  split at anchored
  · rename_i isManager
    exact ticks (anchored (inOrder isManager rfl))
  · rename_i newThread isTask
    have suffix := shape.suffix
    rw [isTask] at suffix
    have started : ∀ other, .start other ∉ service.todo := by
      rcases shape.runs with ⟨_, none, _⟩ | ⟨started, _⟩
      · simp [none] at looping
      · exact started
    have done := ServiceKind.todo_eq_nil_of_task suffix started
    simp [Service.registered, anchored (by simp [done])]
  · rcases anchored with ⟨_, ticking⟩ | ⟨notLooping, _⟩
    · exact ticks ticking
    · exact (notLooping looping).elim

theorem Ticking.expire
    {timer next : Timer Unit} {interval : UInt32} {expirations : Nat}
    {called : Option Unit} (ticking : Ticking timer interval expirations)
    (expires : timer.expire true true = some (next, called)) :
    Ticking next interval (expirations + 1) := by
  intro few
  obtain ⟨after, expired, goesOn, _⟩ := (ticking (by omega)).expire
  rw [expires] at expired
  cases expired
  exact goesOn few

theorem ticking_startForever
    {timer : Timer Unit} (free : timer.event = none) (interval : UInt32) :
    Ticking (timer.startForever true true interval (.call ())).2 interval 0 :=
  fun _ => Timer.runsForever_startForever free interval ()

/-- Only the frame timer depends on where the thread is. -/
theorem Anchored.setLoop
    {service : Service} (anchored : service.Anchored) {loop : Loop}
    (same : ∀ frameInterval newThread,
      service.kind = .frameLoop frameInterval newThread →
        (loop.runs = [.looping] ↔ service.loop.runs = [.looping])) :
    Anchored { service with loop } := by
  simp only [Anchored] at anchored ⊢
  split
  · rename_i isManager
    simpa only [isManager] using anchored
  · rename_i isTask
    simpa only [isTask] using anchored
  · rename_i isFrame
    simp only [ne_eq, same _ _ isFrame]
    simpa only [isFrame] using anchored

theorem Anchored.startAuditTimer
    {service : Service} (anchored : service.Anchored) (shape : service.Shape)
    {todo : List OwnerStep} (here : service.todo = .startAuditTimer :: todo) :
    Anchored { service with todo }.startAuditTimer := by
  have listed : .startAuditTimer ∈ service.todo := by simp [here]
  simp only [Anchored, Service.startAuditTimer] at anchored ⊢
  split
  · rename_i isManager
    obtain ⟨free, _, _, unexpired⟩ := shape.unregistered isManager listed
    intro _
    rw [unexpired]
    exact ticking_startForever free auditTimerInterval
  · rename_i isTask
    simpa [isTask, here] using anchored
  · rename_i isFrame
    have program := shape.suffix.subset listed
    simp [isFrame, ServiceKind.program] at program

theorem Anchored.startEventFdServer
    {service : Service} (shape : service.Shape)
    (listed : .startEventFdServer ∈ service.todo) (todo : List OwnerStep) :
    Anchored { service with eventFdServer := true, todo } := by
  have program := shape.suffix.subset listed
  simp only [Anchored]
  split
  · rename_i isManager
    simp [isManager, ServiceKind.program] at program
  · simp
  · rename_i isFrame
    simp [isFrame, ServiceKind.program] at program

/-- The start is no step that anchors the loop. -/
theorem Anchored.start
    {service : Service} (anchored : service.Anchored) {newThread : Bool}
    {todo : List OwnerStep} (here : service.todo = .start newThread :: todo) :
    Anchored { service with todo } := by
  simp only [Anchored] at anchored ⊢
  split
  · rename_i isManager
    simpa [isManager, here] using anchored
  · rename_i isTask
    simpa [isTask, here] using anchored
  · rename_i isFrame
    simpa [isFrame] using anchored

theorem Serves.owner
    {service next : Service} (shape : service.Shape) (serves : service.Serves)
    (stepped : step service .owner = some next) : next.Serves := by
  simp only [step] at stepped
  split at stepped
  · cases stepped
  · rename_i newThread todo here
    obtain ⟨loop, started, rfl⟩ := onLoop_eq_some stepped
    rcases shape.runs with ⟨_, none, initial⟩ | ⟨absent, _⟩
    · obtain ⟨single, status, stopped⟩ := start_eq_some initial none started
      refine ⟨by simp [single], by simp [status], ?_, ?_⟩
      · rw [stopped]
        exact serves.notStopped
      · apply (serves.anchored.start here).setLoop
        simp [single, none]
    · exact (absent newThread (by simp [here])).elim
  · rename_i todo here
    cases stepped
    exact ⟨serves.inLoop, serves.notFinished, serves.notStopped,
      serves.anchored.startAuditTimer shape here⟩
  · rename_i todo here
    cases stepped
    exact ⟨serves.inLoop, serves.notFinished, serves.notStopped,
      .startEventFdServer shape (by simp [here]) todo⟩

/-- Where the thread is before and after one of its steps. -/
theorem Shape.threadStep
    {service : Service} (shape : service.Shape) {action : LoopAction}
    {before after : RunPhase} (kind : ThreadStep action before after)
    {loop : Loop} (stepped : Loop.step service.loop action = some loop) :
    service.loop.runs = [before] ∧ loop.runs = [after] := by
  rcases shape.runs with ⟨_, none, _⟩ | ⟨_, phase, single⟩
  · exact (threadStep_needs_run kind stepped none).elim
  · obtain ⟨here, moved, _⟩ := threadStep_eq_some kind single stepped
    rw [← here]
    exact ⟨single, moved⟩

/-- The steps of the thread that stay in `event_base_loop` or lead there. -/
theorem serves_onLoop
    {service : Service} (shape : service.Shape)
    (notFinished : service.loop.status ≠ .finished)
    (notStopped : service.loop.stopped = false)
    {action : LoopAction} {before after : RunPhase}
    (kind : ThreadStep action before after)
    (stays : after ≠ .left ∧ after ≠ .ended) {loop : Loop}
    (stepped : Loop.step service.loop action = some loop)
    (anchored : Anchored { service with loop }) :
    Serves { service with loop } := by
  obtain ⟨single, moved⟩ := shape.threadStep kind stepped
  obtain ⟨_, _, stopped, _, finished⟩ :=
    threadStep_eq_some kind single stepped
  refine ⟨?_, ?_, ?_, anchored⟩
  · intro other listed
    rw [moved, List.mem_singleton] at listed
    rw [listed]
    exact stays
  · intro isFinished
    rcases finished isFinished with already | ended
    · exact notFinished already
    · exact stays.2 ended
  · rw [stopped]
    exact notStopped

theorem Serves.beginRun
    {service next : Service} (shape : service.Shape) (serves : service.Serves)
    (stepped : step service .beginRun = some next) : next.Serves := by
  obtain ⟨loop, moved, rfl⟩ := onLoop_eq_some stepped
  apply serves_onLoop shape serves.notFinished serves.notStopped .beginRun
    (by simp) moved
  obtain ⟨before, after⟩ := shape.threadStep .beginRun moved
  apply serves.anchored.setLoop
  simp [before, after]

theorem Serves.enter
    {service next : Service} (shape : service.Shape) (serves : service.Serves)
    (stepped : step service .enter = some next) : next.Serves := by
  obtain ⟨loop, moved, rfl⟩ := onLoop_eq_some stepped
  rcases service.onBeforeLoop_cases with
    ⟨notFrame, same⟩ | ⟨frameInterval, newThread, isFrame, frame⟩
  · rw [same] at moved ⊢
    apply serves_onLoop shape serves.notFinished serves.notStopped .enter
      (by simp) moved
    apply serves.anchored.setLoop
    intro frameInterval newThread isFrame
    exact (notFrame frameInterval newThread isFrame).elim
  · have shape' := shape.onBeforeLoop
    rw [frame] at moved shape' ⊢
    obtain ⟨before, after⟩ := shape'.threadStep .enter moved
    have anchored := serves.anchored
    simp only [Anchored, isFrame] at anchored
    rcases anchored with ⟨looping, _⟩ | ⟨_, free, unexpired⟩
    · rw [looping] at before
      cases before
    · apply serves_onLoop shape' serves.notFinished serves.notStopped .enter
        (by simp) moved
      simp only [Anchored, isFrame]
      left
      refine ⟨after, ?_⟩
      rw [unexpired]
      exact ticking_startForever free frameInterval

theorem Serves.expire
    {service next : Service} (serves : service.Serves)
    (stepped : step service .expire = some next) : next.Serves := by
  have anchored := serves.anchored
  simp only [step] at stepped
  split at stepped
  · rename_i looping
    split at stepped
    · cases stepped
    · rename_i timer called expires
      cases stepped
      refine ⟨serves.inLoop, serves.notFinished, serves.notStopped, ?_⟩
      simp only [Anchored] at anchored ⊢
      split
      · rename_i isManager
        simp only [isManager] at anchored
        intro absent
        exact (anchored absent).expire expires
      · rename_i isTask
        simpa only [isTask] using anchored
      · rename_i isFrame
        simp only [isFrame] at anchored
        rcases anchored with ⟨inLoop, ticking⟩ | ⟨_, free, _⟩
        · exact .inl ⟨inLoop, ticking.expire expires⟩
        · simp [Timer.expire, free] at expires
  · cases stepped

theorem Serves.look
    {service next : Service} (shape : service.Shape) (serves : service.Serves)
    (few : service.expirations < 2 ^ 32 - 1) (inOrder : service.InOrder .look)
    (stepped : step service .look = some next) : next.Serves := by
  simp only [step] at stepped
  split at stepped
  · rename_i looping
    have single : service.loop.runs = [.looping] := by
      rcases shape.runs with ⟨_, none, _⟩ | ⟨_, phase, single⟩
      · rw [none] at looping
        cases looping
      · rw [single] at looping ⊢
        cases looping
        rfl
    have busy := serves.registered shape few single inOrder
    rw [serves.notStopped, busy] at stepped
    cases stepped
    exact serves
  · cases stepped

/-- The steps before `stop` keep the loop serving, unless its thread looks for
work too early. -/
theorem Serves.step
    {service next : Service} {action : ServiceAction} (shape : service.Shape)
    (serves : service.Serves) (few : service.expirations < 2 ^ 32 - 1)
    (notStop : action ≠ .stop) (inOrder : service.InOrder action)
    (stepped : Service.step service action = some next) : next.Serves := by
  cases action with
  | owner => exact serves.owner shape stepped
  | beginRun => exact serves.beginRun shape stepped
  | enter => exact serves.enter shape stepped
  | look => exact serves.look shape few inOrder stepped
  | finish =>
      obtain ⟨loop, moved, rfl⟩ := onLoop_eq_some stepped
      obtain ⟨before, _⟩ := shape.threadStep .finish moved
      exact ((serves.inLoop .left (by simp [before])).1 rfl).elim
  | expire => exact serves.expire stepped
  | addOther =>
      simp only [Service.step] at stepped
      split at stepped
      · cases stepped
      · cases stepped
        exact ⟨serves.inLoop, serves.notFinished, serves.notStopped,
          serves.anchored⟩
  | removeOther =>
      simp only [Service.step] at stepped
      split at stepped
      · cases stepped
      · cases stepped
        exact ⟨serves.inLoop, serves.notFinished, serves.notStopped,
          serves.anchored⟩
  | stop => exact (notStop rfl).elim

/-! ### Runs whose thread looks too early -/

/-- The thread has left `event_base_loop` for good. -/
def Gone (service : Service) : Prop :=
  service.loop.runs = [.left] ∨
    service.loop.runs = [.ended] ∧ service.loop.status = .finished

theorem Gone.step
    {service next : Service} {action : ServiceAction} (shape : service.Shape)
    (gone : service.Gone)
    (stepped : Service.step service action = some next) : next.Gone := by
  have elsewhere : ∀ {phase}, phase ≠ .left → phase ≠ .ended →
      service.loop.runs ≠ [phase] := by
    intro phase notLeft notEnded single
    rcases gone with left | ⟨ended, _⟩
    · rw [left] at single
      exact notLeft (List.cons.inj single).1.symm
    · rw [ended] at single
      exact notEnded (List.cons.inj single).1.symm
  have notLooping : service.loop.runs[0]? ≠ some .looping := by
    rcases gone with left | ⟨ended, _⟩
    · simp [left]
    · simp [ended]
  cases action with
  | owner =>
      simp only [Service.step] at stepped
      split at stepped
      · cases stepped
      · rename_i newThread todo here
        rcases shape.runs with ⟨_, none, _⟩ | ⟨absent, _⟩
        · rcases gone with left | ⟨ended, _⟩
          · simp [none] at left
          · simp [none] at ended
        · exact (absent newThread (by simp [here])).elim
      · cases stepped
        exact gone
      · cases stepped
        exact gone
  | beginRun =>
      obtain ⟨loop, moved, rfl⟩ := onLoop_eq_some stepped
      have single := (shape.threadStep .beginRun moved).1
      exact (elsewhere (by simp) (by simp) single).elim
  | enter =>
      obtain ⟨loop, moved, rfl⟩ := onLoop_eq_some stepped
      have single := (shape.onBeforeLoop.threadStep .enter moved).1
      rcases service.onBeforeLoop_cases with ⟨_, same⟩ | ⟨_, _, _, frame⟩
      · rw [same] at single
        exact (elsewhere (by simp) (by simp) single).elim
      · rw [frame] at single
        exact (elsewhere (by simp) (by simp) single).elim
  | look =>
      simp only [Service.step, notLooping, if_false] at stepped
      cases stepped
  | finish =>
      obtain ⟨loop, moved, rfl⟩ := onLoop_eq_some stepped
      obtain ⟨before, after⟩ := shape.threadStep .finish moved
      obtain ⟨_, _, _, finished, _⟩ := threadStep_eq_some .finish before moved
      exact .inr ⟨after, finished rfl⟩
  | expire =>
      simp only [Service.step, notLooping, if_false] at stepped
      cases stepped
  | addOther =>
      simp only [Service.step] at stepped
      split at stepped
      · cases stepped
      · cases stepped
        exact gone
  | removeOther =>
      simp only [Service.step] at stepped
      split at stepped
      · cases stepped
      · cases stepped
        exact gone
  | stop =>
      simp only [Service.step] at stepped
      split at stepped
      · obtain ⟨loop, stops, rfl⟩ := onLoop_eq_some stepped
        rw [stop_eq_some stops]
        simp only [Gone, Loop.runs_stop, Loop.status_stop]
        exact gone
      · cases stepped

/-- The thread leaves the loop when it looks for work before the audit timer
of the `TimerManager` is registered. -/
theorem gone_of_look
    {service next : Service} (shape : service.Shape)
    (early : ¬ service.InOrder .look)
    (stepped : step service .look = some next) : next.Gone := by
  have isManager : service.kind = .timerManager := by
    by_contra other
    exact early fun isManager => (other isManager).elim
  have listed : .startAuditTimer ∈ service.todo := by
    by_contra absent
    exact early fun _ _ => absent
  obtain ⟨free, noServer, none, _⟩ := shape.unregistered isManager listed
  have idle : service.registered = false := by
    simp [registered, free, noServer, none]
  simp only [step, idle, Bool.not_false, Bool.or_true, if_true] at stepped
  split at stepped
  · obtain ⟨loop, moved, rfl⟩ := onLoop_eq_some stepped
    exact .inl (shape.threadStep (.leave true) moved).2
  · cases stepped

/-- The next step of a thread that has left the loop sets `StatusFinished`. -/
theorem Gone.finishes
    {service : Service} (gone : service.Gone) :
    service.loop.status = .finished ∨
      ∃ final, Service.step service .finish = some final ∧
        final.loop.status = .finished := by
  rcases gone with left | ⟨_, finished⟩
  · right
    simp [Service.step, Service.onLoop, Loop.step, Loop.advance, left]
  · exact .inl finished

/-! ### Runs -/

theorem shape_run
    {kind : ServiceKind} {actions : List ServiceAction} {service : Service}
    (ran : run step (create kind) actions = some service) : service.Shape :=
  run_invariant (fun _ _ _ shape stepped => Shape.step shape stepped)
    (shape_create kind) ran

theorem expirations_step
    {service next : Service} {action : ServiceAction}
    (stepped : step service action = some next) :
    service.expirations ≤ next.expirations := by
  cases action with
  | owner =>
      simp only [step] at stepped
      split at stepped
      · cases stepped
      · obtain ⟨loop, _, rfl⟩ := onLoop_eq_some stepped
        exact Nat.le_refl _
      · cases stepped
        exact Nat.le_refl _
      · cases stepped
        exact Nat.le_refl _
  | beginRun =>
      obtain ⟨loop, _, rfl⟩ := onLoop_eq_some stepped
      exact Nat.le_refl _
  | enter =>
      obtain ⟨loop, _, rfl⟩ := onLoop_eq_some stepped
      rcases service.onBeforeLoop_cases with ⟨_, same⟩ | ⟨_, _, _, frame⟩
      · exact Nat.le_of_eq (congrArg Service.expirations same).symm
      · exact Nat.le_of_eq (congrArg Service.expirations frame).symm
  | look =>
      simp only [step] at stepped
      split at stepped
      · split at stepped
        · obtain ⟨loop, _, rfl⟩ := onLoop_eq_some stepped
          exact Nat.le_refl _
        · cases stepped
          exact Nat.le_refl _
      · cases stepped
  | finish =>
      obtain ⟨loop, _, rfl⟩ := onLoop_eq_some stepped
      exact Nat.le_refl _
  | expire =>
      simp only [step] at stepped
      split at stepped
      · split at stepped
        · cases stepped
        · cases stepped
          exact Nat.le_succ _
      · cases stepped
  | addOther =>
      simp only [step] at stepped
      split at stepped
      · cases stepped
      · cases stepped
        exact Nat.le_refl _
  | removeOther =>
      simp only [step] at stepped
      split at stepped
      · cases stepped
      · cases stepped
        exact Nat.le_refl _
  | stop =>
      simp only [step] at stepped
      split at stepped
      · obtain ⟨loop, _, rfl⟩ := onLoop_eq_some stepped
        exact Nat.le_refl _
      · cases stepped

theorem serves_run
    {kind : ServiceKind} {actions : List ServiceAction} {service : Service}
    (ran : run step (create kind) actions = some service)
    (notStopped : .stop ∉ actions)
    (inOrder : AllSteps step InOrder (create kind) actions)
    (few : service.expirations < 2 ^ 32 - 1) : service.Serves := by
  have kept : ∀ (state : Service) action next,
      (state.Shape ∧ (state.expirations < 2 ^ 32 - 1 → state.Serves)) →
        (state.InOrder action ∧ action ∈ actions) →
          step state action = some next →
            next.Shape ∧ (next.expirations < 2 ^ 32 - 1 → next.Serves) := by
    intro state action next holds guards stepped
    obtain ⟨shape, serving⟩ := holds
    refine ⟨shape.step stepped, ?_⟩
    intro fewAfter
    have fewBefore : state.expirations < 2 ^ 32 - 1 :=
      Nat.lt_of_le_of_lt (expirations_step stepped) fewAfter
    have notStop : action ≠ .stop := by
      intro isStop
      subst isStop
      exact notStopped guards.2
    exact (serving fewBefore).step shape fewBefore notStop guards.1 stepped
  have holds := run_invariant_of_allSteps kept
    ⟨shape_create kind, fun _ => serves_create kind⟩
    (inOrder.and (allSteps_mem step _ actions)) ran
  exact holds.2 few

theorem gone_run
    {kind : ServiceKind} {actions : List ServiceAction} {service : Service}
    (ran : run step (create kind) actions = some service)
    (early : ¬ AllSteps step InOrder (create kind) actions) :
    service.Gone := by
  by_contra serving
  apply early
  rw [allSteps_iff]
  intro front action back state whole reached
  by_contra here
  apply serving
  have isLook : action = .look := by
    by_contra other
    exact here fun _ same => (other same).elim
  subst isLook
  rw [whole] at ran
  obtain ⟨middle, before, rest⟩ := run_append_eq_some_iff.mp ran
  rw [reached] at before
  cases before
  obtain ⟨next, looked, later⟩ := run_cons_eq_some_iff.mp rest
  have shape := shape_run reached
  have kept : ∀ (state : Service) action next,
      (state.Shape ∧ state.Gone) → step state action = some next →
        next.Shape ∧ next.Gone := by
    intro state action next holds stepped
    exact ⟨holds.1.step stepped, holds.2.step holds.1 stepped⟩
  exact (run_invariant kept
    ⟨shape.step looked, gone_of_look shape here looked⟩ later).2

/-- Before `stop`, a loop that is started for good reaches `StatusFinished`
only if its thread looks for work before the `TimerManager` has registered its
audit timer; then it does so with its next step at the latest. -/
theorem service_finishes_iff
    {kind : ServiceKind} {actions : List ServiceAction} {service : Service}
    (ran : run step (create kind) actions = some service)
    (notStopped : .stop ∉ actions)
    (few : service.expirations < 2 ^ 32 - 1) :
    (AllSteps step InOrder (create kind) actions →
        service.loop.status ≠ .finished) ∧
      (¬ AllSteps step InOrder (create kind) actions →
        service.loop.status = .finished ∨
          ∃ final, step service .finish = some final ∧
            final.loop.status = .finished) := by
  constructor
  · intro inOrder
    exact (serves_run ran notStopped inOrder few).notFinished
  · intro early
    exact (gone_run ran early).finishes

theorem service_finishes_iff_registered :
    ∃ service, run step (create .timerManager)
        [.owner, .beginRun, .owner, .enter, .look, .expire] = some service ∧
      (AllSteps step InOrder (create .timerManager)
          [.owner, .beginRun, .owner, .enter, .look, .expire] →
        service.loop.status ≠ .finished) ∧
      (¬ AllSteps step InOrder (create .timerManager)
          [.owner, .beginRun, .owner, .enter, .look, .expire] →
        service.loop.status = .finished ∨
          ∃ final, step service .finish = some final ∧
            final.loop.status = .finished) := by
  have ran : run step (create .timerManager)
      [.owner, .beginRun, .owner, .enter, .look, .expire] = some _ := rfl
  exact ⟨_, ran, service_finishes_iff ran (by decide) (by decide)⟩

/-- The thread of a `TimerManager` looks for work before the audit timer is
registered. -/
theorem service_finishes_early :
    ∃ service, run step (create .timerManager)
        [.owner, .beginRun, .enter, .look, .finish, .owner] = some service ∧
      service.todo = [] ∧ service.timer.Armed ∧
        service.loop.status = .finished :=
  ⟨_, rfl, rfl, ⟨_, rfl, rfl⟩, rfl⟩

end Service

end Translib

end DBWrapper
