import Mathlib.Algebra.Group.Nat.Defs
import Mathlib.Data.List.Rotate

/-!
# Tasks and the task manager

A task owns a message queue that other threads fill, a second queue that its
own loop drains, and an eventfd that wakes the loop.  The task manager keeps
the tasks in a `std::map` under their names; sending to a task is an enqueue
followed by a write to its eventfd.
-/

namespace DBWrapper

def task0 : String := "task0"

inductive MsgType where
  | taskHb | taskRestart | taskPut | taskGet | taskDel | taskPing
  | taskRedisAddConn | taskRedisDelConn | taskRedisRaw | taskRedisFormatRaw
  | taskRedisPut | taskRedisGet | taskRedisDel | taskRedisPing
  | taskHbRsp | taskRedisRestart | taskHbReq | taskMax
  deriving DecidableEq, Repr

/-- The address of user data or of a callback; the tasks only pass it on. -/
abbrev Pointer := Nat

structure AddConnPayload where
  ip : String
  port : Int
  deriving DecidableEq, Repr

/-- The payload of `TASK_REDIS_FORMAT_RAW` and of `TASK_REDIS_RAW`. -/
structure TaskRedisRawMsg where
  usrData : Pointer
  cb : Pointer
  body : List UInt8
  deriving DecidableEq, Repr

/-- `TASK_ANY`, with the types that some handler casts it to. -/
inductive TaskAny where
  | string (value : String)
  | addConn (payload : AddConnPayload)
  | formatRaw (msg : TaskRedisRawMsg)
  | raw (msg : TaskRedisRawMsg)
  | other
  deriving DecidableEq, Repr

/-- `TASK_ANY_CAST<std::string>`; `none` is the exception `bad_any_cast`. -/
def TaskAny.castString : TaskAny → Option String
  | .string value => some value
  | _ => none

structure TaskMsg where
  type : MsgType
  seqId : UInt32
  body : TaskAny
  deriving DecidableEq, Repr

/-- The heartbeat response that `process_msg` makes out of the request. -/
def hbRsp (name : String) (tmp : TaskMsg) : TaskMsg :=
  { tmp with body := .string name, type := .taskHbRsp }

/-- `task_base`.  `evfd` is the counter of the eventfd, `none` before `init`
has created it; `detailInfo` is `none` while the member is uninitialised. -/
structure TaskBase where
  name : String
  taskQueue : List TaskMsg
  tmpTaskQueue : List TaskMsg
  evfd : Option Nat
  detailInfo : Option Pointer
  deriving DecidableEq, Repr

/-- The largest value of an eventfd counter. -/
def eventfdMax : Nat := 2 ^ 64 - 2

namespace TaskBase

/-- The constructor `task_base(name)`. -/
def create (name : String) : TaskBase :=
  { name, taskQueue := [], tmpTaskQueue := [], evfd := none,
    detailInfo := none }

/-- The part of `init` that creates the eventfd. -/
def init (task : TaskBase) : TaskBase :=
  { task with evfd := some 0 }

def inQueue (task : TaskBase) (msg : TaskMsg) : TaskBase :=
  { task with taskQueue := task.taskQueue ++ [msg] }

/-- `write(get_id(), &one, sizeof(one))`.  It fails on the descriptor `-1`
and when the non-blocking counter is full. -/
def writeEvfd (task : TaskBase) : Bool × TaskBase :=
  match task.evfd with
  | none => (false, task)
  | some count =>
      if count < eventfdMax then
        (true, { task with evfd := some (count + 1) })
      else
        (false, task)

/-- `read(fd, &one, sizeof one)`: the counter is returned and reset; a read
of a zero counter fails. -/
def readEvfd (task : TaskBase) : Option (Nat × TaskBase) :=
  match task.evfd with
  | none => none
  | some 0 => none
  | some (count + 1) => some (count + 1, { task with evfd := some 0 })

def swapQueues (task : TaskBase) : TaskBase :=
  { task with
    taskQueue := task.tmpTaskQueue, tmpTaskQueue := task.taskQueue }

def popTmpTaskQueue (task : TaskBase) : TaskBase :=
  { task with tmpTaskQueue := task.tmpTaskQueue.tail }

@[simp] theorem taskQueue_inQueue (task : TaskBase) (msg : TaskMsg) :
    (task.inQueue msg).taskQueue = task.taskQueue ++ [msg] := rfl

@[simp] theorem tmpTaskQueue_inQueue (task : TaskBase) (msg : TaskMsg) :
    (task.inQueue msg).tmpTaskQueue = task.tmpTaskQueue := rfl

/-- A write touches nothing but the counter. -/
theorem writeEvfd_eq (task : TaskBase) :
    task.writeEvfd.2 = { task with evfd := task.writeEvfd.2.evfd } := by
  simp only [writeEvfd]
  split
  · rfl
  · split <;> rfl

@[simp] theorem taskQueue_writeEvfd (task : TaskBase) :
    task.writeEvfd.2.taskQueue = task.taskQueue := by
  rw [writeEvfd_eq]

@[simp] theorem tmpTaskQueue_writeEvfd (task : TaskBase) :
    task.writeEvfd.2.tmpTaskQueue = task.tmpTaskQueue := by
  rw [writeEvfd_eq]

/-- After a write to a valid eventfd the counter is positive, even when the
counter was full and the write failed. -/
theorem evfd_writeEvfd_pos {task : TaskBase} {count : Nat}
    (valid : task.evfd = some count) :
    ∃ after, task.writeEvfd.2.evfd = some after ∧ 0 < after := by
  simp only [writeEvfd]
  rw [valid]
  by_cases room : count < eventfdMax
  · exact ⟨count + 1, by simp [room], Nat.succ_pos count⟩
  · refine ⟨count, by simp [room, valid], ?_⟩
    have full : 0 < eventfdMax := by decide
    omega

theorem readEvfd_eq_some {task after : TaskBase} {num : Nat}
    (read : task.readEvfd = some (num, after)) :
    after = { task with evfd := some 0 } := by
  simp only [readEvfd] at read
  split at read
  · cases read
  · cases read
  · cases read
    rfl

end TaskBase

/-- `std::map<std::string, task_ptr_t>`. -/
abbrev TaskMap := Std.TreeMap String TaskBase compare

theorem TaskMap.mem_iff {taskMap : TaskMap} {name : String} :
    name ∈ taskMap ↔ ∃ task, taskMap[name]? = some task := by
  rw [Std.TreeMap.mem_iff_isSome_getElem?, Option.isSome_iff_exists]

structure TaskManager where
  taskMap : TaskMap
  seqId : UInt32

namespace TaskManager

def empty : TaskManager :=
  { taskMap := ∅, seqId := 0 }

def addTasks (manager : TaskManager) (task : TaskBase) : TaskManager :=
  { manager with taskMap := manager.taskMap.insert task.name task }

def delTasks (manager : TaskManager) (name : String) : TaskManager :=
  { manager with taskMap := manager.taskMap.erase name }

/-- `set_task_detail_info` on the task of that name. -/
def setTaskDetailInfo (manager : TaskManager) (name : String)
    (info : Pointer) : TaskManager :=
  { manager with
    taskMap :=
      manager.taskMap.modify name
        (fun task => { task with detailInfo := some info }) }

/-- The name stands for the task that is returned.  Both branches of the loop
return, so it never gets past the first task of the map.  An uninitialised
detail info is taken to differ from every address. -/
def getTaskPtrPWithDetailInfo (manager : TaskManager) (info : Pointer) :
    Option String :=
  match manager.taskMap.toList with
  | [] => none
  | (name, task) :: _ =>
      if task.detailInfo = some info then some name else none

/-- `init` up to the start of the loops: task0 is added, and every task gets
its eventfd. -/
def init (manager : TaskManager) : TaskManager :=
  let manager := manager.addTasks (TaskBase.create task0)
  { manager with taskMap := manager.taskMap.map (fun _ task => task.init) }

/-- The second overload of `send2task`. -/
def send2task (manager : TaskManager) (name : String) (msg : TaskMsg) :
    Bool × TaskManager :=
  match manager.taskMap[name]? with
  | none => (false, manager)
  | some task =>
      let (written, task) := (task.inQueue msg).writeEvfd
      (written, { manager with taskMap := manager.taskMap.insert name task })

/-- The first overload of `send2task`, which builds the message itself. -/
def send2taskWith (manager : TaskManager) (name : String) (type : MsgType)
    (body : TaskAny) (seqId : UInt32) : Bool × TaskManager :=
  manager.send2task name { type, body, seqId }

/-- One turn of the loop in `send_hb_all`. -/
def sendHb (manager : TaskManager) (name : String) : TaskManager :=
  if name ≠ task0 then
    let manager :=
      (manager.send2taskWith name .taskHbReq (.string name) manager.seqId).2
    { manager with seqId := manager.seqId + 1 }
  else
    manager

/-- The loop runs over the names in the map, in their order. -/
def sendHbAll (manager : TaskManager) : TaskManager :=
  manager.taskMap.keys.foldl sendHb manager

/-- What a task looks like after a `send2task`. -/
def received (task : TaskBase) (msg : TaskMsg) : TaskBase :=
  (task.inQueue msg).writeEvfd.2

theorem getElem?_send2task
    (manager : TaskManager) (target : String) (msg : TaskMsg) (name : String) :
    (manager.send2task target msg).2.taskMap[name]? =
      if name = target then
        manager.taskMap[name]?.map (received · msg)
      else
        manager.taskMap[name]? := by
  simp only [send2task]
  by_cases same : name = target
  · subst same
    cases found : manager.taskMap[name]? with
    | none => simp [found]
    | some task => simp [received]
  · cases found : manager.taskMap[target]? <;>
      simp [same, Ne.symm same, Std.TreeMap.getElem?_insert]

end TaskManager

end DBWrapper
