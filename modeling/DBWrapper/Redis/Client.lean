import DBWrapper.Redis.Command

/-!
# The redis client

The calls of `redis_async_client` do not touch a connection.  Each of them
puts one message on the queue of the worker task and reports success, whether
or not there is such a task.
-/

namespace DBWrapper

open Foundation

def worker001 : String := "WORKER001"

namespace RedisAsyncClient

/-- The worker task is added before the task manager starts. -/
def init (manager : TaskManager) : TaskManager :=
  (manager.addTasks (TaskBase.create worker001)).init

def sendFormatRawCommand (manager : TaskManager) (command : ByteString)
    (usrData fn : Pointer) : Bool × TaskManager :=
  let msg : TaskRedisRawMsg := { usrData, cb := fn, body := command }
  (true,
    (manager.send2taskWith worker001 .taskRedisFormatRaw (.formatRaw msg) 0).2)

def sendRawCommand (manager : TaskManager) (command : ByteString)
    (usrData fn : Pointer) : Bool × TaskManager :=
  let msg : TaskRedisRawMsg := { usrData, cb := fn, body := command }
  (true, (manager.send2taskWith worker001 .taskRedisRaw (.raw msg) 0).2)

def put (manager : TaskManager) (key value : ByteString)
    (usrData fn : Pointer) : Bool × TaskManager :=
  let command2send :=
    RedisCommand.getFormatCommand .taskRedisPut (.string key) (.string value)
  sendFormatRawCommand manager command2send usrData fn

def addConn (manager : TaskManager) (ip : String) (port : Int) :
    Bool × TaskManager :=
  let payload : AddConnPayload := { ip, port }
  (true,
    (manager.send2taskWith worker001 .taskRedisAddConn (.addConn payload) 0).2)

/-- The message that a `send_format_raw_command` puts on the queue. -/
def formatRawMsg (command : ByteString) (usrData fn : Pointer) : TaskMsg :=
  { type := .taskRedisFormatRaw, seqId := 0,
    body := .formatRaw { usrData, cb := fn, body := command } }

theorem mem_init (manager : TaskManager) :
    worker001 ∈ (init manager).taskMap := by
  simp [init, TaskManager.init, TaskManager.addTasks, TaskBase.create]

theorem getElem?_put
    (manager : TaskManager) (key value : ByteString) (usrData fn : Pointer)
    (name : String) :
    (put manager key value usrData fn).2.taskMap[name]? =
      if name = worker001 then
        manager.taskMap[name]?.map
          (TaskManager.received ·
            (formatRawMsg
              (RedisCommand.redisFormatCommand [ascii "SET", key, value])
              usrData fn))
      else
        manager.taskMap[name]? :=
  TaskManager.getElem?_send2task manager worker001 _ name

/-- The grammar undoes `redis_formatCommand`, so no argument can be mistaken
for protocol text; and `put` hands exactly its own command to the worker. -/
theorem redisFormatCommand_selfDelimiting :
    (∀ argv rest,
      Resp.parse (RedisCommand.redisFormatCommand argv ++ rest) =
        some (argv, rest)) ∧
    Function.Injective RedisCommand.redisFormatCommand ∧
    (∀ commands,
      Resp.parsePipeline
          (commands.flatMap RedisCommand.redisFormatCommand) =
        some commands) ∧
    (∀ manager, worker001 ∈ (init manager).taskMap) ∧
    ∀ (manager : TaskManager) (task : TaskBase) (key value : ByteString)
      (usrData fn : Pointer),
      manager.taskMap[worker001]? = some task →
        (put manager key value usrData fn).1 = true ∧
        ∃ body after,
          (put manager key value usrData fn).2.taskMap[worker001]? =
            some after ∧
          after.taskQueue =
            task.taskQueue ++ [formatRawMsg body usrData fn] ∧
          Resp.parse body = some ([ascii "SET", key, value], []) := by
  refine ⟨Resp.parse_undoes, Resp.parse_undoes.injective,
    Resp.parsePipeline_flatMap, mem_init, ?_⟩
  intro manager task key value usrData fn registered
  let body := RedisCommand.redisFormatCommand [ascii "SET", key, value]
  refine ⟨rfl, body,
    TaskManager.received task (formatRawMsg body usrData fn), ?_, ?_, ?_⟩
  · rw [getElem?_put, if_pos rfl, registered]
    rfl
  · simp [TaskManager.received]
  · have parsed := Resp.parse_undoes [ascii "SET", key, value] []
    rw [List.append_nil] at parsed
    exact parsed

/-- A value that looks like the end of its own command and the start of
another one, put by a client that has just been initialised. -/
theorem redisFormatCommand_selfDelimiting_injection :
    ∃ body task,
      (put (init TaskManager.empty) (ascii "key")
          (ascii "v\r\n*1\r\n$8\r\nFLUSHALL\r\n") 0 0).2.taskMap[worker001]? =
        some task ∧
      task.taskQueue = [formatRawMsg body 0 0] ∧
      Resp.parse body =
        some ([ascii "SET", ascii "key",
          ascii "v\r\n*1\r\n$8\r\nFLUSHALL\r\n"], []) := by
  obtain ⟨_, body, task, found, queued, parsed⟩ :=
    redisFormatCommand_selfDelimiting.2.2.2.2 (init TaskManager.empty)
      (TaskBase.create worker001).init (ascii "key")
      (ascii "v\r\n*1\r\n$8\r\nFLUSHALL\r\n") 0 0 rfl
  exact ⟨body, task, found, queued, parsed⟩

end RedisAsyncClient

end DBWrapper
