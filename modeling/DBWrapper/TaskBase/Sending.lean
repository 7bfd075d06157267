import DBWrapper.TaskBase.Task

/-!
# Sends that fail

`send2task` has two exits that return false.  The first one, for an unknown
name, comes before the message is queued; the second one, for a write to the
eventfd that fails, comes behind it and leaves the message in the queue.
-/

namespace DBWrapper

/-- `sizeof(one)`. -/
def sizeofOne : Int := 8

namespace TaskBase

/-- Whether a write to the eventfd succeeds: `init` has created it and its
counter is not full. -/
def writable (task : TaskBase) : Bool :=
  task.evfd.any fun count => count < eventfdMax

def queues (task : TaskBase) : List TaskMsg × List TaskMsg :=
  (task.taskQueue, task.tmpTaskQueue)

/-- A write that returns `ret`; only a whole write reaches the counter. -/
def writeEvfdRet (task : TaskBase) (ret : Int) : Bool × TaskBase :=
  if ret ≠ sizeofOne then
    (false, task)
  else
    (true, { task with evfd := task.evfd.map (· + 1) })

theorem queues_writeEvfdRet (task : TaskBase) (ret : Int) :
    (task.writeEvfdRet ret).2.queues = task.queues := by
  simp only [writeEvfdRet]
  split <;> rfl

theorem fst_writeEvfdRet (task : TaskBase) (ret : Int) :
    (task.writeEvfdRet ret).1 = false ↔ ret ≠ sizeofOne := by
  simp only [writeEvfdRet]
  split <;> simp_all

/-- What the eventfd makes of a write. -/
theorem writeEvfd_eq_ret (task : TaskBase) :
    task.writeEvfd =
      task.writeEvfdRet (if task.writable then sizeofOne else -1) := by
  obtain ⟨name, taskQueue, tmpTaskQueue, evfd, detailInfo⟩ := task
  simp only [writeEvfd, writable, writeEvfdRet]
  cases evfd with
  | none => simp [sizeofOne]
  | some count =>
      by_cases room : count < eventfdMax
      · simp [room]
      · simp [room, sizeofOne]

end TaskBase

namespace TaskManager

/-- The second overload of `send2task`, whatever `write` returns. -/
def send2taskRet (manager : TaskManager) (ret : Int) (name : String)
    (msg : TaskMsg) : Bool × TaskManager :=
  match manager.taskMap[name]? with
  | none => (false, manager)
  | some task =>
      let (written, task) := (task.inQueue msg).writeEvfdRet ret
      (written, { manager with taskMap := manager.taskMap.insert name task })

/-- The first overload. -/
def send2taskWithRet (manager : TaskManager) (ret : Int) (name : String)
    (type : MsgType) (body : TaskAny) (seqId : UInt32) : Bool × TaskManager :=
  manager.send2taskRet ret name { type, body, seqId }

/-- What `write` returns for the task of that name. -/
def writeRet (manager : TaskManager) (name : String) : Int :=
  if manager.taskMap[name]?.any TaskBase.writable then sizeofOne else -1

theorem send2task_eq_ret
    (manager : TaskManager) (name : String) (msg : TaskMsg) :
    manager.send2task name msg =
      manager.send2taskRet (manager.writeRet name) name msg := by
  simp only [send2task, send2taskRet, writeRet]
  cases manager.taskMap[name]? with
  | none => rfl
  | some task =>
      have same : (task.inQueue msg).writable = task.writable := rfl
      simp only [TaskBase.writeEvfd_eq_ret, same, Option.any_some]

/-- A send that returns false leaves the queues of every task as they were. -/
def NoEffectOnFailure (manager : TaskManager) (sent : Bool × TaskManager) :
    Prop :=
  sent.1 = false → ∀ name : String,
    sent.2.taskMap[name]?.map TaskBase.queues =
      manager.taskMap[name]?.map TaskBase.queues

theorem send2taskRet_noEffect_iff
    (manager : TaskManager) (ret : Int) (name : String) (msg : TaskMsg) :
    manager.NoEffectOnFailure (manager.send2taskRet ret name msg) ↔
      (name ∈ manager.taskMap → ret = sizeofOne) := by
  simp only [NoEffectOnFailure, send2taskRet, TaskMap.mem_iff]
  cases found : manager.taskMap[name]? with
  | none => simp
  | some task =>
      have failed := (task.inQueue msg).fst_writeEvfdRet ret
      have queues := (task.inQueue msg).queues_writeEvfdRet ret
      simp only [failed, Option.some.injEq, exists_eq', forall_const]
      constructor
      · intro unchanged
        by_contra wrong
        have here := unchanged wrong name
        rw [found, Std.TreeMap.getElem?_insert_self] at here
        have grown := Option.some.inj here
        rw [queues] at grown
        have longer := congrArg (fun both => both.1.length) grown
        simp [TaskBase.queues] at longer
      · intro whole notWhole
        exact (notWhole whole).elim

theorem writeRet_eq_iff
    {manager : TaskManager} {name : String} {task : TaskBase}
    (found : manager.taskMap[name]? = some task) :
    manager.writeRet name = sizeofOne ↔ task.writable = true := by
  simp only [writeRet, found, Option.any_some]
  cases task.writable <;> simp [sizeofOne]

/-- A failed send has no effect exactly if it cannot fail behind the queue:
the name is unknown, or the write succeeds.  With the eventfd as it is, the
write succeeds if the target has been initialised and its counter has room. -/
theorem failedSend_noEffect_iff
    (manager : TaskManager) (name : String) (msg : TaskMsg) (type : MsgType)
    (body : TaskAny) (seqId : UInt32) (ret : Int) :
    (manager.NoEffectOnFailure (manager.send2taskRet ret name msg) ↔
        (name ∈ manager.taskMap → ret = sizeofOne)) ∧
      (manager.NoEffectOnFailure
          (manager.send2taskWithRet ret name type body seqId) ↔
        (name ∈ manager.taskMap → ret = sizeofOne)) ∧
      (manager.NoEffectOnFailure (manager.send2task name msg) ↔
        ∀ task, manager.taskMap[name]? = some task →
          task.writable = true) ∧
      (manager.NoEffectOnFailure
          (manager.send2taskWith name type body seqId) ↔
        ∀ task, manager.taskMap[name]? = some task →
          task.writable = true) := by
  have byState : ∀ msg,
      manager.NoEffectOnFailure (manager.send2task name msg) ↔
        ∀ task, manager.taskMap[name]? = some task →
          task.writable = true := by
    intro msg
    rw [send2task_eq_ret, send2taskRet_noEffect_iff, TaskMap.mem_iff]
    constructor
    · intro whole task found
      exact (writeRet_eq_iff found).mp (whole ⟨task, found⟩)
    · intro room listed
      obtain ⟨task, found⟩ := listed
      exact (writeRet_eq_iff found).mpr (room task found)
  exact ⟨manager.send2taskRet_noEffect_iff ret name msg,
    manager.send2taskRet_noEffect_iff ret name _, byState msg, byState _⟩

/-- A send to a task before `init` returns false and is queued; sent again once
the task runs, the message is queued twice. -/
theorem failedSend_queued :
    ∃ (manager : TaskManager) (msg : TaskMsg),
      (manager.send2task "worker" msg).1 = false ∧
        ¬ manager.NoEffectOnFailure (manager.send2task "worker" msg) ∧
          (((manager.send2task "worker" msg).2.init.send2task
              "worker" msg).2.taskMap["worker"]?.map TaskBase.taskQueue) =
            some [msg, msg] := by
  refine ⟨empty.addTasks (TaskBase.create "worker"),
    { type := .taskRedisPut, seqId := 0, body := .other }, by decide, ?_,
    by decide⟩
  intro unchanged
  exact absurd (unchanged (by decide) "worker") (by decide)

end TaskManager

end DBWrapper
