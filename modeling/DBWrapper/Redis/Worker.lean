import DBWrapper.Redis.Client

/-!
# The worker task and its connections

The worker remembers its connection twice: `_context` is the context that
commands are issued on, and `_detail_info` the one by which the callbacks of
hiredis find the worker.  A reconnect timer keeps a third copy.

Of hiredis the model has what the worker relies on.  `redisAsyncConnect`
returns a context at a new address: one that has been freed does not give its
address to a later one.  The connect callback is run once, the
disconnect callback once after a successful connect.  A context is freed
when its disconnect callback has returned, or its connect callback if the
connect has failed.

All of this runs in the loop of the worker, one callback after the other,
while the calls of the client come from other threads.
-/

namespace DBWrapper

open Foundation

inductive ConnStatus where
  | connected | connecting | disconnected
  deriving DecidableEq, Repr

/-- `REDIS_OK` or `REDIS_ERR`. -/
inductive RedisStatus where
  | ok | err
  deriving DecidableEq, Repr

/-- `redisAsyncContext`.  `attached` tells whether it has been attached to a
loop and given its callbacks, `connected` is the flag `REDIS_CONNECTED`. -/
structure RedisAsyncContext where
  host : String
  port : Int
  err : Bool
  attached : Bool
  connected : Bool
  freed : Bool
  deriving DecidableEq, Repr

/-- Who has called `redisAsyncConnect`. -/
inductive Creator where
  | processAddConn | redisAsyncReconnect
  deriving DecidableEq, Repr

/-- What a context pointer has been passed on for. -/
inductive ContextUse where
  | formattedCommand (msg : TaskRedisRawMsg)
  | command (msg : TaskRedisRawMsg)
  | readHostPort
  deriving DecidableEq, Repr

inductive ContextEvent where
  | created (context : Pointer) (creator : Creator)
  | connectNotified (context : Pointer) (status : RedisStatus)
  | disconnectNotified (context : Pointer) (status : RedisStatus)
  | freed (context : Pointer)
  | used (context : Option Pointer) (use : ContextUse)
  deriving DecidableEq, Repr

/-- What `worker_task` adds to `task_base`.  `context` is `none` while the
member is uninitialised. -/
structure WorkerTask where
  connStat : ConnStatus
  context : Option Pointer
  deriving DecidableEq, Repr

/-- The worker with its surroundings.  The address of a context is its
position in `contexts`.  `draining` tells whether the loop is inside
`process_msg`, `reconnectTimers` are the contexts that the running timers have
captured, and `history` records what has happened to the contexts.  Nothing
happens any more when `crashed` is set. -/
structure RedisSystem where
  manager : TaskManager
  worker : WorkerTask
  draining : Bool
  contexts : List RedisAsyncContext
  reconnectTimers : List Pointer
  crashed : Bool
  history : List ContextEvent

/-- The calls of the client, the heartbeat of task0, and the callbacks of the
loop.  `refused` is the error that a `redisAsyncConnect` in the step returns
in its context. -/
inductive RedisAction where
  | addConn (ip : String) (port : Int)
  | put (key value : ByteString) (usrData fn : Pointer)
  | sendRawCommand (command : ByteString) (usrData fn : Pointer)
  | sendFormatRawCommand (command : ByteString) (usrData fn : Pointer)
  | sendHbAll
  | evfdCallback
  | next (refused : Bool)
  | connectNotification (context : Pointer) (status : RedisStatus)
  | disconnectNotification (context : Pointer) (status : RedisStatus)
      (refused : Bool)
  | reconnectTimer (context : Pointer) (refused : Bool)
  deriving DecidableEq, Repr

namespace RedisSystem

/-- After `redis_async_client::init`.  The other tasks are arbitrary. -/
def start (manager : TaskManager) : RedisSystem :=
  { manager := RedisAsyncClient.init manager
    worker := { connStat := .disconnected, context := none }
    draining := false
    contexts := []
    reconnectTimers := []
    crashed := false
    history := [] }

def log (system : RedisSystem) (event : ContextEvent) : RedisSystem :=
  { system with history := system.history ++ [event] }

/-- A null pointer has been dereferenced, or an exception not been caught. -/
def crash (system : RedisSystem) : RedisSystem :=
  { system with crashed := true }

def setConnStat (system : RedisSystem) (stat : ConnStatus) : RedisSystem :=
  { system with worker := { system.worker with connStat := stat } }

def setContext (system : RedisSystem) (context : Pointer) : RedisSystem :=
  { system with worker := { system.worker with context := some context } }

def setTaskDetailInfo (system : RedisSystem) (name : String)
    (info : Pointer) : RedisSystem :=
  { system with manager := system.manager.setTaskDetailInfo name info }

/-- `redisAsyncConnect`, with the address of the context that it returns.  The
address counts the contexts that have been made; those of freed contexts are not
given out again. -/
def redisAsyncConnect (system : RedisSystem) (host : String) (port : Int)
    (err : Bool) (creator : Creator) : RedisSystem × Pointer :=
  let context : RedisAsyncContext :=
    { host, port, err, attached := false, connected := false, freed := false }
  let address := system.contexts.length
  ({ system.log (.created address creator) with
      contexts := system.contexts ++ [context] }, address)

/-- `redisLibeventAttach`, and the registration of both callbacks. -/
def attach (system : RedisSystem) (context : Pointer) : RedisSystem :=
  { system with
    contexts := system.contexts.modify context ({ · with attached := true }) }

def setConnected (system : RedisSystem) (context : Pointer) : RedisSystem :=
  { system with
    contexts := system.contexts.modify context ({ · with connected := true }) }

/-- What hiredis does when the last callback of a context has returned. -/
def redisFree (system : RedisSystem) (context : Pointer) : RedisSystem :=
  { system.log (.freed context) with
    contexts := system.contexts.modify context ({ · with freed := true }) }

/-- The call may return `REDIS_ERR`, which the worker ignores. -/
def redisAsyncFormattedCommand (system : RedisSystem)
    (context : Option Pointer) (msg : TaskRedisRawMsg) : RedisSystem :=
  system.log (.used context (.formattedCommand msg))

/-- The body of the message is the format string. -/
def redisAsyncCommand (system : RedisSystem) (context : Option Pointer)
    (msg : TaskRedisRawMsg) : RedisSystem :=
  system.log (.used context (.command msg))

/-- A timer that will reconnect, with a copy of the pointer. -/
def startOnce (system : RedisSystem) (context : Pointer) : RedisSystem :=
  { system with reconnectTimers := system.reconnectTimers ++ [context] }

/-- The timer is gone when its closure runs. -/
def fire (system : RedisSystem) (context : Pointer) : RedisSystem :=
  { system with reconnectTimers := system.reconnectTimers.erase context }

/-! ### `worker_task` -/

/-- `_context` is assigned before the error is looked at. -/
def processAddConn (system : RedisSystem) (payload : AddConnPayload)
    (refused : Bool) : Bool × RedisSystem :=
  let system := system.setConnStat .connecting
  let (system, context) :=
    system.redisAsyncConnect payload.ip payload.port refused .processAddConn
  let system := system.setContext context
  if refused then
    (false, system)
  else
    (true, (system.setTaskDetailInfo worker001 context).attach context)

/-- `on_message`.  A body of another type than the one of the message is an
exception out of the cast. -/
def onMessage (system : RedisSystem) (msg : TaskMsg) (refused : Bool) :
    RedisSystem :=
  match msg.type with
  | .taskRedisFormatRaw =>
      match msg.body with
      | .formatRaw raw =>
          system.redisAsyncFormattedCommand system.worker.context raw
      | _ => system.crash
  | .taskRedisRaw =>
      match msg.body with
      | .raw raw => system.redisAsyncCommand system.worker.context raw
      | _ => system.crash
  | .taskRedisAddConn =>
      match msg.body with
      | .addConn payload => (system.processAddConn payload refused).2
      | _ => system.crash
  | _ => system

/-! ### The callbacks -/

/-- The task is looked up by the old context, before host and port are read
from it.  What a read of freed memory yields is not determined; here it is
what has been there last. -/
def redisAsyncReconnect (system : RedisSystem) (context : Pointer)
    (refused : Bool) : RedisSystem :=
  let worker := system.manager.getTaskPtrPWithDetailInfo context
  match system.contexts[context]? with
  | none => system
  | some old =>
      let system := system.log (.used (some context) .readHostPort)
      let (system, new) :=
        system.redisAsyncConnect old.host old.port refused .redisAsyncReconnect
      match worker with
      | none => system.crash
      | some name => (system.setTaskDetailInfo name new).attach new

/-- The cast to `worker_task` is a null pointer for any other task. -/
def connectCallback (system : RedisSystem) (context : Pointer)
    (status : RedisStatus) : RedisSystem :=
  match status with
  | .err => system
  | .ok =>
      match system.manager.getTaskPtrPWithDetailInfo context with
      | none => system
      | some name =>
          if name = worker001 then
            system.setConnStat .connected
          else
            system.crash

def disconnectCallback (system : RedisSystem) (context : Pointer)
    (status : RedisStatus) (refused : Bool) : RedisSystem :=
  match status with
  | .err => system
  | .ok =>
      match system.manager.getTaskPtrPWithDetailInfo context with
      | none => system.redisAsyncReconnect context refused
      | some name =>
          if name = worker001 then
            -- the timer fires after five seconds, after the free
            (system.setConnStat .disconnected).startOnce context
          else
            system.crash

/-- `__redisAsyncHandleConnect`. -/
def handleConnect (system : RedisSystem) (context : Pointer)
    (status : RedisStatus) : RedisSystem :=
  let system := system.log (.connectNotified context status)
  match status with
  | .ok => (system.setConnected context).connectCallback context .ok
  | .err => (system.connectCallback context .err).redisFree context

/-- The end of `__redisAsyncFree`, for a context that has been connected. -/
def handleDisconnect (system : RedisSystem) (context : Pointer)
    (status : RedisStatus) (refused : Bool) : RedisSystem :=
  let system := system.log (.disconnectNotified context status)
  let system := system.disconnectCallback context status refused
  if system.crashed then system else system.redisFree context

/-! ### The loop -/

/-- The worker as the task manager knows it. -/
def task (system : RedisSystem) : Option TaskBase :=
  system.manager.taskMap[worker001]?

def setTask (system : RedisSystem) (task : TaskBase) : RedisSystem :=
  { system with
    manager :=
      { system.manager with
        taskMap := system.manager.taskMap.insert worker001 task } }

def popTmpTaskQueue (system : RedisSystem) : RedisSystem :=
  { system with
    manager :=
      { system.manager with
        taskMap :=
          system.manager.taskMap.modify worker001 TaskBase.popTmpTaskQueue } }

/-- One turn of the loop in `process_msg`.  The worker is not task0, so it
answers a heartbeat request itself. -/
def processMsg (system : RedisSystem) (tmp : TaskMsg) (refused : Bool) :
    RedisSystem :=
  if tmp.type = .taskHbReq then
    let system := system.popTmpTaskQueue
    { system with
      manager := (system.manager.send2task task0 (hbRsp worker001 tmp)).2 }
  else
    (system.onMessage tmp refused).popTmpTaskQueue

def step (system : RedisSystem) (action : RedisAction) : Option RedisSystem :=
  if system.crashed then
    none
  else
    match action with
    | .addConn ip port =>
        some
          { system with
            manager := (RedisAsyncClient.addConn system.manager ip port).2 }
    | .put key value usrData fn =>
        some
          { system with
            manager :=
              (RedisAsyncClient.put system.manager key value usrData fn).2 }
    | .sendRawCommand command usrData fn =>
        some
          { system with
            manager :=
              (RedisAsyncClient.sendRawCommand system.manager command usrData
                fn).2 }
    | .sendFormatRawCommand command usrData fn =>
        some
          { system with
            manager :=
              (RedisAsyncClient.sendFormatRawCommand system.manager command
                usrData fn).2 }
    | .sendHbAll => some { system with manager := system.manager.sendHbAll }
    | .evfdCallback =>
        if system.draining then
          none
        else
          match system.task.bind TaskBase.readEvfd with
          | none => none
          | some (_, task) =>
              some { system.setTask task.swapQueues with draining := true }
    | .next refused =>
        if system.draining then
          match system.task.map TaskBase.tmpTaskQueue with
          | none => none
          | some [] => some { system with draining := false }
          | some (tmp :: _) => some (system.processMsg tmp refused)
        else
          none
    | .connectNotification context status =>
        match system.draining, system.contexts[context]? with
        | false, some { attached := true, connected := false, freed := false, .. } =>
            some (system.handleConnect context status)
        | _, _ => none
    | .disconnectNotification context status refused =>
        match system.draining, system.contexts[context]? with
        | false, some { attached := true, connected := true, freed := false, .. } =>
            some (system.handleDisconnect context status refused)
        | _, _ => none
    | .reconnectTimer context refused =>
        if system.draining = false ∧ context ∈ system.reconnectTimers then
          some ((system.fire context).redisAsyncReconnect context refused)
        else
          none

end RedisSystem

end DBWrapper
