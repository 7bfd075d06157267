import DBWrapper.Foundation.Lifetime
import DBWrapper.Redis.Worker

/-!
# Lifetimes of the redis contexts

What a step of the worker does to contexts is one of a few things, whatever
it does to queues and tasks.  `Lives` keeps only what matters for that, and
`LifeStep` lists them; every step of the system is such a step.
-/

namespace DBWrapper

open Foundation

/-- Creation, use and end of a context, as its history tells them.  The
uninitialised pointer is never created. -/
def contextLifetime : Lifetime ContextEvent (Option Pointer) where
  creates
    | .created context _, resource => resource = some context
    | _, _ => False
  uses
    | .used context _, resource => resource = context
    | _, _ => False
  frees
    | .freed context, resource => resource = some context
    | _, _ => False

/-- The notifications after which hiredis frees the context. -/
def ContextEvent.Closes (context : Pointer) : ContextEvent → Prop
  | .connectNotified other .err => other = context
  | .disconnectNotified other _ => other = context
  | _ => False

/-- How a step may use a context pointer. -/
inductive Access where
  | nothing | command | timer
  deriving DecidableEq, Repr

/-- `freed` has one entry for each context that has been created. -/
structure Lives where
  freed : List Bool
  current : Option Pointer
  timers : List Pointer
  crashed : Bool
  history : List ContextEvent

namespace Lives

def log (lives : Lives) (events : List ContextEvent) : Lives :=
  { lives with history := lives.history ++ events }

/-- A new context, after some other events. -/
def create (lives : Lives) (events : List ContextEvent) (creator : Creator) :
    Lives :=
  { lives.log (events ++ [.created lives.freed.length creator]) with
    freed := lives.freed ++ [false] }

/-- Events after which a context is created. -/
theorem create_log
    (lives : Lives) (events more : List ContextEvent) (creator : Creator) :
    (lives.log events).create more creator =
      lives.create (events ++ more) creator := by
  simp [create, log]

@[simp] theorem timers_create
    (lives : Lives) (events : List ContextEvent) (creator : Creator) :
    (lives.create events creator).timers = lives.timers := rfl

@[simp] theorem current_create
    (lives : Lives) (events : List ContextEvent) (creator : Creator) :
    (lives.create events creator).current = lives.current := rfl

end Lives

/-- What a step may do to the contexts, and how it uses one doing so. -/
inductive LifeStep (lives : Lives) : Access → Lives → Prop where
  | silent : LifeStep lives .nothing lives
  | crash : LifeStep lives .nothing { lives with crashed := true }
  | addConn :
      LifeStep lives .nothing
        { lives.create [] .processAddConn with
          current := some lives.freed.length }
  | command (use : ContextUse) (issued : use ≠ .readHostPort) :
      LifeStep lives .command (lives.log [.used lives.current use])
  /-- A notification whose callback returns to a living context, or not at
  all. -/
  | notified (event : ContextEvent) (context : Pointer)
      (live : lives.freed[context]? = some false) (crashed : Bool)
      (harmless : event = .connectNotified context .ok ∨
        event = .disconnectNotified context .ok ∧ crashed = true) :
      LifeStep lives .nothing { lives.log [event] with crashed }
  | closed (event : ContextEvent) (context : Pointer)
      (live : lives.freed[context]? = some false)
      (closes : event.Closes context) (timers : List Pointer)
      (captured : timers ⊆ lives.timers ++ [context]) :
      LifeStep lives .nothing
        { lives.log [event, .freed context] with
          freed := lives.freed.set context true, timers }
  /-- The reconnect out of the disconnect callback, which finds no worker. -/
  | reconnectAtOnce (context : Pointer)
      (live : lives.freed[context]? = some false) :
      LifeStep lives .nothing
        { lives.create
            [.disconnectNotified context .ok,
              .used (some context) .readHostPort] .redisAsyncReconnect with
          crashed := true }
  | reconnect (context : Pointer) (armed : context ∈ lives.timers)
      (crashed : Bool) :
      LifeStep lives .timer
        { lives.create [.used (some context) .readHostPort]
            .redisAsyncReconnect with
          timers := lives.timers.erase context, crashed }

namespace RedisSystem

def lives (system : RedisSystem) : Lives :=
  { freed := system.contexts.map RedisAsyncContext.freed
    current := system.worker.context
    timers := system.reconnectTimers
    crashed := system.crashed
    history := system.history }

/-- A message whose handling issues a command. -/
def issuesCommand (msg : TaskMsg) : Bool :=
  match msg.type, msg.body with
  | .taskRedisFormatRaw, .formatRaw _ => true
  | .taskRedisRaw, .raw _ => true
  | _, _ => false

/-- The message that the next turn of `process_msg` handles. -/
def nextMsg (system : RedisSystem) : Option TaskMsg :=
  system.task.bind (fun task => task.tmpTaskQueue.head?)

def access (system : RedisSystem) : RedisAction → Access
  | .next _ => if system.nextMsg.any issuesCommand then .command else .nothing
  | .reconnectTimer _ _ => .timer
  | _ => .nothing

/-! ### The operations, as lifetimes see them -/

theorem map_freed_modify
    (contexts : List RedisAsyncContext) (context : Pointer)
    {change : RedisAsyncContext → RedisAsyncContext}
    (kept : ∀ before, (change before).freed = before.freed) :
    (contexts.modify context change).map RedisAsyncContext.freed =
      contexts.map RedisAsyncContext.freed := by
  induction contexts generalizing context with
  | nil => simp
  | cons head contexts induction =>
      cases context with
      | zero => simp [kept]
      | succ context => simp [induction]

theorem map_freed_modify_freed
    (contexts : List RedisAsyncContext) (context : Pointer) :
    (contexts.modify context ({ · with freed := true })).map
        RedisAsyncContext.freed =
      (contexts.map RedisAsyncContext.freed).set context true := by
  induction contexts generalizing context with
  | nil => simp
  | cons head contexts induction =>
      cases context with
      | zero => simp
      | succ context => simp [induction]

@[simp] theorem lives_log (system : RedisSystem) (event : ContextEvent) :
    (system.log event).lives = system.lives.log [event] := rfl

@[simp] theorem lives_crash (system : RedisSystem) :
    system.crash.lives = { system.lives with crashed := true } := rfl

@[simp] theorem lives_setConnStat (system : RedisSystem) (stat : ConnStatus) :
    (system.setConnStat stat).lives = system.lives := rfl

@[simp] theorem lives_startOnce (system : RedisSystem) (context : Pointer) :
    (system.startOnce context).lives =
      { system.lives with timers := system.lives.timers ++ [context] } := rfl

@[simp] theorem lives_setTaskDetailInfo
    (system : RedisSystem) (name : String) (info : Pointer) :
    (system.setTaskDetailInfo name info).lives = system.lives := rfl

@[simp] theorem lives_setContext
    (system : RedisSystem) (context : Pointer) :
    (system.setContext context).lives =
      { system.lives with current := some context } := rfl

@[simp] theorem lives_popTmpTaskQueue (system : RedisSystem) :
    system.popTmpTaskQueue.lives = system.lives := rfl

@[simp] theorem lives_attach (system : RedisSystem) (context : Pointer) :
    (system.attach context).lives = system.lives := by
  simp [lives, attach, map_freed_modify]

@[simp] theorem lives_setConnected
    (system : RedisSystem) (context : Pointer) :
    (system.setConnected context).lives = system.lives := by
  simp [lives, setConnected, map_freed_modify]

@[simp] theorem lives_redisFree (system : RedisSystem) (context : Pointer) :
    (system.redisFree context).lives =
      { system.lives.log [.freed context] with
        freed := system.lives.freed.set context true } := by
  simp [lives, redisFree, log, Lives.log, map_freed_modify_freed]

@[simp] theorem lives_redisAsyncConnect
    (system : RedisSystem) (host : String) (port : Int) (err : Bool)
    (creator : Creator) :
    (system.redisAsyncConnect host port err creator).1.lives =
      system.lives.create [] creator := by
  simp [redisAsyncConnect, lives, log, Lives.create, Lives.log]

/-- The new context comes after all the others. -/
@[simp] theorem address_redisAsyncConnect
    (system : RedisSystem) (host : String) (port : Int) (err : Bool)
    (creator : Creator) :
    (system.redisAsyncConnect host port err creator).2 =
      system.lives.freed.length := by
  simp [redisAsyncConnect, lives]

theorem lives_processAddConn
    (system : RedisSystem) (payload : AddConnPayload) (refused : Bool) :
    (system.processAddConn payload refused).2.lives =
      { system.lives.create [] .processAddConn with
        current := some system.lives.freed.length } := by
  cases refused <;> simp [processAddConn]

/-- Handling a message issues a command exactly if its kind says so. -/
theorem onMessage_lifeStep
    (system : RedisSystem) (msg : TaskMsg) (refused : Bool) :
    LifeStep system.lives
      (if issuesCommand msg then .command else .nothing)
      (system.onMessage msg refused).lives := by
  obtain ⟨type, seqId, body⟩ := msg
  cases type with
  | taskRedisFormatRaw =>
      cases body with
      | formatRaw raw => exact .command (.formattedCommand raw) (by simp)
      | _ => exact .crash
  | taskRedisRaw =>
      cases body with
      | raw raw => exact .command (.command raw) (by simp)
      | _ => exact .crash
  | taskRedisAddConn =>
      cases body with
      | addConn payload =>
          simp only [onMessage, lives_processAddConn]
          exact .addConn
      | _ => exact .crash
  | _ => exact .silent

@[simp] theorem manager_log (system : RedisSystem) (event : ContextEvent) :
    (system.log event).manager = system.manager := rfl

theorem crashed_eq_lives (system : RedisSystem) :
    system.crashed = system.lives.crashed := rfl

/-- Host and port are read, a context is created, and only then the missing
worker is noticed. -/
theorem lives_redisAsyncReconnect
    {system : RedisSystem} {context : Pointer}
    (created : context < system.lives.freed.length) (refused : Bool) :
    (system.redisAsyncReconnect context refused).lives =
      { system.lives.create [.used (some context) .readHostPort]
          .redisAsyncReconnect with
        crashed :=
          (system.manager.getTaskPtrPWithDetailInfo context).isNone ||
            system.crashed } := by
  rw [lives, List.length_map] at created
  have found : system.contexts[context]? = some system.contexts[context] :=
    List.getElem?_eq_getElem created
  simp only [redisAsyncReconnect]
  rw [found]
  cases system.manager.getTaskPtrPWithDetailInfo context with
  | none => simp [Lives.create_log]
  | some name =>
      simp only [lives_attach, lives_setTaskDetailInfo,
        lives_redisAsyncConnect, lives_log, Lives.create_log]
      rfl

theorem lives_connectCallback
    (system : RedisSystem) (context : Pointer) (status : RedisStatus) :
    ∃ crashed,
      (system.connectCallback context status).lives =
        { system.lives with crashed } := by
  simp only [connectCallback]
  split
  · exact ⟨system.crashed, rfl⟩
  · split
    · exact ⟨system.crashed, rfl⟩
    · split
      · exact ⟨system.crashed, rfl⟩
      · exact ⟨true, rfl⟩

theorem handleConnect_lifeStep
    {system : RedisSystem} {context : Pointer} (status : RedisStatus)
    (live : system.lives.freed[context]? = some false) :
    LifeStep system.lives .nothing
      (system.handleConnect context status).lives := by
  cases status with
  | ok =>
      obtain ⟨crashed, same⟩ := lives_connectCallback
        ((system.log (.connectNotified context .ok)).setConnected context)
        context .ok
      simp only [handleConnect, same, lives_setConnected, lives_log]
      exact .notified _ context live crashed (.inl rfl)
  | err =>
      have closed := @LifeStep.closed system.lives
        (.connectNotified context .err) context live rfl system.lives.timers
        (by simp)
      simpa [handleConnect, connectCallback, Lives.log] using closed

/-- The four ways through the disconnect callback. -/
theorem handleDisconnect_lifeStep
    {system : RedisSystem} {context : Pointer} (status : RedisStatus)
    (refused : Bool) (running : system.crashed = false)
    (live : system.lives.freed[context]? = some false) :
    LifeStep system.lives .nothing
      (system.handleDisconnect context status refused).lives := by
  cases status with
  | err =>
      have closed := @LifeStep.closed system.lives
        (.disconnectNotified context .err) context live rfl
        system.lives.timers (by simp)
      rw [crashed_eq_lives] at running
      simpa [handleDisconnect, disconnectCallback, crashed_eq_lives, running,
        Lives.log] using closed
  | ok =>
      cases lookup : system.manager.getTaskPtrPWithDetailInfo context with
      | none =>
          let logged := system.log (.disconnectNotified context .ok)
          have created : context < logged.lives.freed.length :=
            (List.getElem?_eq_some_iff.mp live).1
          have same := lives_redisAsyncReconnect created refused
          have atOnce := LifeStep.reconnectAtOnce context live
          simpa [handleDisconnect, disconnectCallback, lookup, logged, same,
            crashed_eq_lives, Lives.create, Lives.log] using atOnce
      | some name =>
          by_cases own : name = worker001
          · have closed := @LifeStep.closed system.lives
              (.disconnectNotified context .ok) context live rfl
              (system.lives.timers ++ [context]) (List.Subset.refl _)
            rw [crashed_eq_lives] at running
            simpa [handleDisconnect, disconnectCallback, lookup, own,
              crashed_eq_lives, running, Lives.log] using closed
          · have stuck := @LifeStep.notified system.lives
              (.disconnectNotified context .ok) context live true
              (.inr ⟨rfl, rfl⟩)
            simpa [handleDisconnect, disconnectCallback, lookup, own,
              crashed_eq_lives, Lives.log] using stuck

/-! ### A step of the system -/

theorem processMsg_lifeStep
    (system : RedisSystem) (tmp : TaskMsg) (refused : Bool) :
    LifeStep system.lives (if issuesCommand tmp then .command else .nothing)
      (system.processMsg tmp refused).lives := by
  by_cases heartbeat : tmp.type = .taskHbReq
  · have noCommand : issuesCommand tmp = false := by
      simp [issuesCommand, heartbeat]
    simp only [processMsg, heartbeat, noCommand, if_true]
    exact .silent
  · simp only [processMsg, heartbeat, if_false, lives_popTmpTaskQueue]
    exact system.onMessage_lifeStep tmp refused

theorem reconnectTimer_lifeStep
    {system : RedisSystem} {context : Pointer} (refused : Bool)
    (armed : context ∈ system.lives.timers)
    (created : context < system.lives.freed.length) :
    LifeStep system.lives .timer
      ((system.fire context).redisAsyncReconnect context refused).lives := by
  have same :=
    @lives_redisAsyncReconnect (system.fire context) context created refused
  rw [same]
  exact .reconnect context armed _

/-- Every step of the system is a step of its contexts' lives, provided that
the running timers have captured contexts that exist. -/
theorem step_lifeStep
    {system next : RedisSystem} {action : RedisAction}
    (captured : ∀ context ∈ system.lives.timers,
      context < system.lives.freed.length)
    (stepped : system.step action = some next) :
    system.lives.crashed = false ∧
      LifeStep system.lives (system.access action) next.lives := by
  simp only [step] at stepped
  split at stepped
  · cases stepped
  rename_i notCrashed
  have running : system.crashed = false := by simpa using notCrashed
  refine ⟨running, ?_⟩
  cases action with
  | addConn ip port =>
      cases stepped
      exact .silent
  | put key value usrData fn =>
      cases stepped
      exact .silent
  | sendRawCommand command usrData fn =>
      cases stepped
      exact .silent
  | sendFormatRawCommand command usrData fn =>
      cases stepped
      exact .silent
  | sendHbAll =>
      cases stepped
      exact .silent
  | evfdCallback =>
      simp only at stepped
      split at stepped
      · cases stepped
      · split at stepped
        · cases stepped
        · cases stepped
          exact .silent
  | next refused =>
      simp only at stepped
      split at stepped
      · cases queued : system.task.map TaskBase.tmpTaskQueue with
        | none =>
            rw [queued] at stepped
            cases stepped
        | some queue =>
            obtain ⟨task, found, isQueue⟩ := Option.map_eq_some_iff.mp queued
            have nextMsg : system.nextMsg = queue.head? := by
              simp [RedisSystem.nextMsg, found, isQueue]
            rw [queued] at stepped
            cases queue with
            | nil =>
                cases stepped
                simp only [access, nextMsg, List.head?_nil, Option.any_none]
                exact .silent
            | cons tmp queue =>
                cases stepped
                simp only [access, nextMsg, List.head?_cons, Option.any_some]
                exact system.processMsg_lifeStep tmp refused
      · cases stepped
  | connectNotification context status =>
      simp only at stepped
      split at stepped
      · rename_i found
        cases stepped
        apply handleConnect_lifeStep
        simp [lives, found]
      · cases stepped
  | disconnectNotification context status refused =>
      simp only at stepped
      split at stepped
      · rename_i found
        cases stepped
        apply handleDisconnect_lifeStep status refused running
        simp [lives, found]
      · cases stepped
  | reconnectTimer context refused =>
      simp only at stepped
      split at stepped
      · rename_i both
        cases stepped
        exact reconnectTimer_lifeStep refused both.2
          (captured context both.2)
      · cases stepped

end RedisSystem

end DBWrapper
