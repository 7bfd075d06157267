import Mathlib.Data.List.Rotate
import DBWrapper.Foundation.DoubleBuffer
import DBWrapper.Foundation.Runs
import DBWrapper.TaskBase.Task

/-!
# Interleavings of senders and task loops

Sending is two steps of the sending thread: `in_queue`, atomic under the
mutex of the target, and the write to the eventfd of the target.  The loop of
a task runs `evfdCallback`: it reads the counter, swaps the two queues, and
drains one message at a time; while a handler runs it may send messages
itself, to any task.  Any number of other threads send at any time.
-/

namespace DBWrapper

open Foundation

/-- Who executes a step: the loop thread of a task, or some other thread. -/
inductive Thread where
  | loop (name : String)
  | sender (id : Nat)
  deriving DecidableEq, Repr

/-- Where the loop thread of a task is. -/
inductive LoopPhase where
  /-- `init` has not completed. -/
  | notStarted
  /-- Waiting in the event loop. -/
  | idle
  /-- `evfdCallback` has read the counter; `process_msg(num)` is next. -/
  | counted (num : Nat)
  /-- At the condition of the loop in `process_msg`. -/
  | draining
  /-- Inside `on_message(tmp)`; `popped` tells whether `pop` came first. -/
  | handling (tmp : TaskMsg) (popped : Bool)
  /-- A popped heartbeat request, before `send2task(TASK0, tmp)`. -/
  | replying (tmp : TaskMsg)
  /-- Inside that `send2task`, after its `in_queue`. -/
  | replied (tmp : TaskMsg)
  deriving DecidableEq, Repr

/-- The tasks and the threads.  `pending` is the task whose eventfd a thread
has still to write after its `in_queue`.  `enqueued` and `handled` record, for
each task, the messages ever enqueued and those whose handling is over. -/
structure TaskSystem where
  taskMap : TaskMap
  phase : String → LoopPhase
  pending : Thread → Option String
  enqueued : String → List TaskMsg
  handled : String → List TaskMsg

inductive TaskAction where
  | init (name : String)
  | inQueue (thread : Thread) (target : String) (msg : TaskMsg)
  | write (thread : Thread)
  | evfdCallback (name : String)
  | swap (name : String)
  | next (name : String)
  | reply (name : String)
  | finish (name : String)
  deriving DecidableEq, Repr

namespace TaskSystem

/-- `send2task` up to its write: nothing happens when the name is unknown. -/
def inQueue (system : TaskSystem) (thread : Thread) (target : String)
    (msg : TaskMsg) : TaskSystem :=
  match system.taskMap[target]? with
  | none => system
  | some task =>
      { system with
        taskMap := system.taskMap.insert target (task.inQueue msg)
        pending := Function.update system.pending thread (some target)
        enqueued :=
          Function.update system.enqueued target
            (system.enqueued target ++ [msg]) }

@[simp] theorem phase_inQueue (system : TaskSystem) (thread : Thread)
    (target : String) (msg : TaskMsg) :
    (system.inQueue thread target msg).phase = system.phase := by
  simp only [inQueue]
  split <;> rfl

def setPhase (system : TaskSystem) (name : String) (phase : LoopPhase) :
    TaskSystem :=
  { system with phase := Function.update system.phase name phase }

def setTask (system : TaskSystem) (name : String) (task : TaskBase) :
    TaskSystem :=
  { system with taskMap := system.taskMap.insert name task }

/-- The handling of `tmp` is over, and `task` is what it leaves behind. -/
def finishMsg (system : TaskSystem) (name : String) (task : TaskBase)
    (tmp : TaskMsg) : TaskSystem :=
  { system.setTask name task with
    handled :=
      Function.update system.handled name (system.handled name ++ [tmp])
    phase := Function.update system.phase name .draining }

/-- A loop thread sends from inside a handler only, other threads always. -/
def maySend (system : TaskSystem) : Thread → Bool
  | .sender _ => true
  | .loop name =>
      match system.phase name with
      | .handling _ _ => true
      | _ => false

def step (system : TaskSystem) : TaskAction → Option TaskSystem
  | .init name =>
      match system.taskMap[name]?, system.phase name with
      | some task, .notStarted =>
          some ((system.setTask name task.init).setPhase name .idle)
      | _, _ => none
  | .inQueue thread target msg =>
      if system.pending thread = none ∧ system.maySend thread then
        some (system.inQueue thread target msg)
      else
        none
  | .write thread =>
      match system.pending thread with
      | none => none
      | some target =>
          match system.taskMap[target]? with
          | none => none
          | some task =>
              some
                { system.setTask target task.writeEvfd.2 with
                  pending := Function.update system.pending thread none }
  | .evfdCallback name =>
      match system.taskMap[name]?, system.phase name with
      | some task, .idle =>
          match task.readEvfd with
          | none => some system
          | some (num, task) =>
              some ((system.setTask name task).setPhase name (.counted num))
      | _, _ => none
  | .swap name =>
      match system.taskMap[name]?, system.phase name with
      | some task, .counted _ =>
          some ((system.setTask name task.swapQueues).setPhase name .draining)
      | _, _ => none
  | .next name =>
      match system.taskMap[name]?, system.phase name with
      | some task, .draining =>
          match task.tmpTaskQueue with
          | [] => some (system.setPhase name .idle)
          | tmp :: _ =>
              if tmp.type = .taskHbReq then
                -- a heartbeat request is popped before it is handled
                let system := system.setTask name task.popTmpTaskQueue
                if task.name = task0 then
                  some (system.setPhase name (.handling tmp true))
                else
                  some (system.setPhase name (.replying tmp))
              else
                some (system.setPhase name (.handling tmp false))
      | _, _ => none
  | .reply name =>
      match system.taskMap[name]?, system.phase name with
      | some task, .replying tmp =>
          if system.pending (.loop name) = none then
            some ((system.inQueue (.loop name) task0 (hbRsp task.name tmp)).setPhase
              name (.replied tmp))
          else
            none
      | _, _ => none
  | .finish name =>
      if system.pending (.loop name) = none then
        match system.taskMap[name]?, system.phase name with
        | some task, .handling tmp popped =>
            if popped then
              some (system.finishMsg name task tmp)
            else
              some (system.finishMsg name task.popTmpTaskQueue tmp)
        | some task, .replied tmp => some (system.finishMsg name task tmp)
        | _, _ => none
      else
        none

/-- Tasks are constructed and added under their names; none is initialised
and nothing has been sent. -/
def start (names : List String) : TaskSystem :=
  { taskMap :=
      (names.foldl
        (fun manager name => manager.addTasks (TaskBase.create name))
        TaskManager.empty).taskMap
    phase := fun _ => .notStarted
    pending := fun _ => none
    enqueued := fun _ => []
    handled := fun _ => [] }

end TaskSystem

/-- The message being handled, if there is one. -/
def LoopPhase.current : LoopPhase → List TaskMsg
  | .handling tmp _ | .replying tmp | .replied tmp => [tmp]
  | _ => []

/-- What `_tmp_task_queue` holds besides the message being handled, which is
popped only afterwards when it is not a heartbeat request. -/
def LoopPhase.rest (tmpTaskQueue : List TaskMsg) : LoopPhase → List TaskMsg
  | .handling _ false => tmpTaskQueue.tail
  | _ => tmpTaskQueue

/-- What the loop does, as far as its two queues are concerned. -/
def LoopPhase.consumer : LoopPhase → Consumer TaskMsg
  | .notStarted | .idle | .counted _ => .waiting
  | .draining => .draining
  | .handling tmp popped => .holding tmp popped
  | .replying tmp | .replied tmp => .holding tmp true

/-- The queues of one task, seen as a double buffer. -/
def TaskSystem.buffer (system : TaskSystem) (name : String)
    (task : TaskBase) : DoubleBuffer TaskMsg :=
  { incoming := task.taskQueue
    working := task.tmpTaskQueue
    consumer := (system.phase name).consumer
    posted := system.enqueued name
    handled := system.handled name }

theorem TaskMap.getElem?_insert (taskMap : TaskMap) (name other : String)
    (task : TaskBase) :
    (taskMap.insert name task)[other]? =
      if name = other then some task else taskMap[other]? := by
  simp [Std.TreeMap.getElem?_insert]

/-- Every task of the second system is a task of the first one, and its
queues have made zero or more steps of a double buffer. -/
def TaskSystem.Tracks (system next : TaskSystem) : Prop :=
  ∀ (name : String) (after : TaskBase), next.taskMap[name]? = some after →
    ∃ before, system.taskMap[name]? = some before ∧
      Relation.ReflTransGen DoubleBuffer.Step
        (system.buffer name before) (next.buffer name after)

namespace TaskSystem

theorem Tracks.refl (system : TaskSystem) : Tracks system system := by
  intro name task found
  exact ⟨task, found, .refl⟩

theorem Tracks.trans {first second third : TaskSystem}
    (left : Tracks first second) (right : Tracks second third) :
    Tracks first third := by
  intro name after found
  obtain ⟨middle, middleFound, later⟩ := right name after found
  obtain ⟨before, beforeFound, earlier⟩ := left name middle middleFound
  exact ⟨before, beforeFound, earlier.trans later⟩

/-- It is enough to look at the one task that the step is about. -/
theorem Tracks.of_own {system next : TaskSystem} (acting : String)
    (others : ∀ name : String, name ≠ acting →
      next.taskMap[name]? = system.taskMap[name]? ∧
        ∀ task, next.buffer name task = system.buffer name task)
    (own : ∀ after, next.taskMap[acting]? = some after →
      ∃ before, system.taskMap[acting]? = some before ∧
        Relation.ReflTransGen DoubleBuffer.Step
          (system.buffer acting before) (next.buffer acting after)) :
    Tracks system next := by
  intro name after found
  by_cases same : name = acting
  · subst same
    exact own after found
  · obtain ⟨sameMap, sameBuffer⟩ := others name same
    rw [sameMap] at found
    rw [sameBuffer]
    exact ⟨after, found, .refl⟩

theorem tracks_inQueue (system : TaskSystem) (thread : Thread)
    (target : String) (msg : TaskMsg) :
    Tracks system (system.inQueue thread target msg) := by
  simp only [inQueue]
  split
  · exact .refl system
  · rename_i task found
    apply Tracks.of_own target
    · intro name different
      simp [TaskMap.getElem?_insert, different, different.symm, buffer]
    · intro after afterFound
      refine ⟨task, found, ?_⟩
      simp only [TaskMap.getElem?_insert, if_true, Option.some.injEq]
        at afterFound
      subst afterFound
      have posted :=
        @DoubleBuffer.Step.post _ (system.buffer target task) msg
      simpa [buffer] using Relation.ReflTransGen.single posted

/-- A step of the loop of one task that replaces its queues and its phase. -/
theorem tracks_setTask_setPhase
    {system : TaskSystem} {name : String} {before after : TaskBase}
    {phase : LoopPhase}
    (found : system.taskMap[name]? = some before)
    (own : Relation.ReflTransGen DoubleBuffer.Step (system.buffer name before)
      { system.buffer name after with consumer := phase.consumer }) :
    Tracks system ((system.setTask name after).setPhase name phase) := by
  apply Tracks.of_own name
  · intro other different
    simp [setTask, setPhase, TaskMap.getElem?_insert, different,
      different.symm, buffer]
  · intro task taskFound
    refine ⟨before, found, ?_⟩
    simp only [setTask, setPhase, TaskMap.getElem?_insert, if_true,
      Option.some.injEq] at taskFound
    subst taskFound
    simpa [buffer, setTask, setPhase] using own

/-- A step of the loop of one task that only moves on in the code. -/
theorem tracks_setPhase
    {system : TaskSystem} {name : String} {phase : LoopPhase}
    (own : ∀ task, system.taskMap[name]? = some task →
      Relation.ReflTransGen DoubleBuffer.Step (system.buffer name task)
        { system.buffer name task with consumer := phase.consumer }) :
    Tracks system (system.setPhase name phase) := by
  apply Tracks.of_own name
  · intro other different
    simp [setPhase, different, buffer]
  · intro task found
    refine ⟨task, found, ?_⟩
    simpa [buffer, setPhase] using own task found

theorem tracks_finishMsg
    {system : TaskSystem} {name : String} {before after : TaskBase}
    {tmp : TaskMsg} {removed : Bool}
    (found : system.taskMap[name]? = some before)
    (holding : (system.phase name).consumer = .holding tmp removed)
    (queue : after.taskQueue = before.taskQueue)
    (tmpQueue : after.tmpTaskQueue =
      if removed then before.tmpTaskQueue else before.tmpTaskQueue.tail) :
    Tracks system (system.finishMsg name after tmp) := by
  apply Tracks.of_own name
  · intro other different
    simp [setTask, finishMsg, TaskMap.getElem?_insert, different,
      different.symm, buffer]
  · intro task taskFound
    refine ⟨before, found, ?_⟩
    simp only [setTask, finishMsg, TaskMap.getElem?_insert, if_true,
      Option.some.injEq] at taskFound
    subst taskFound
    have released :=
      @DoubleBuffer.Step.release _ (system.buffer name before) tmp removed
        holding
    simpa [buffer, setTask, finishMsg, queue, tmpQueue, LoopPhase.consumer]
      using Relation.ReflTransGen.single released

theorem tracks_write
    {system : TaskSystem} {thread : Thread} {target : String}
    {task : TaskBase} (found : system.taskMap[target]? = some task) :
    Tracks system
      { system.setTask target task.writeEvfd.2 with
        pending := Function.update system.pending thread none } := by
  apply Tracks.of_own target
  · intro other different
    simp [setTask, TaskMap.getElem?_insert, different.symm, buffer]
  · intro after afterFound
    refine ⟨task, found, ?_⟩
    simp only [setTask, TaskMap.getElem?_insert, if_true,
      Option.some.injEq] at afterFound
    subst afterFound
    simpa [buffer, setTask] using
      (Relation.ReflTransGen.refl : Relation.ReflTransGen DoubleBuffer.Step
        (system.buffer target task) (system.buffer target task))

/-- What each action does, with all that is known when it is performed. -/
inductive Moves (system : TaskSystem) : TaskAction → TaskSystem → Prop where
  | init {name : String} {task : TaskBase}
      (found : system.taskMap[name]? = some task)
      (notStarted : system.phase name = .notStarted) :
      Moves system (.init name)
        ((system.setTask name task.init).setPhase name .idle)
  | inQueue {thread : Thread} (target : String) (msg : TaskMsg)
      (free : system.pending thread = none) :
      Moves system (.inQueue thread target msg)
        (system.inQueue thread target msg)
  | write {thread : Thread} {target : String} {task : TaskBase}
      (writing : system.pending thread = some target)
      (found : system.taskMap[target]? = some task) :
      Moves system (.write thread)
        { system.setTask target task.writeEvfd.2 with
          pending := Function.update system.pending thread none }
  | spurious (name : String) : Moves system (.evfdCallback name) system
  | evfdCallback {name : String} {task after : TaskBase} {num : Nat}
      (found : system.taskMap[name]? = some task)
      (idle : system.phase name = .idle)
      (read : task.readEvfd = some (num, after)) :
      Moves system (.evfdCallback name)
        ((system.setTask name after).setPhase name (.counted num))
  | swap {name : String} {task : TaskBase} {num : Nat}
      (found : system.taskMap[name]? = some task)
      (counted : system.phase name = .counted num) :
      Moves system (.swap name)
        ((system.setTask name task.swapQueues).setPhase name .draining)
  | rest {name : String} {task : TaskBase}
      (found : system.taskMap[name]? = some task)
      (draining : system.phase name = .draining)
      (empty : task.tmpTaskQueue = []) :
      Moves system (.next name) (system.setPhase name .idle)
  | peek {name : String} {task : TaskBase} {tmp : TaskMsg}
      {others : List TaskMsg} (found : system.taskMap[name]? = some task)
      (draining : system.phase name = .draining)
      (front : task.tmpTaskQueue = tmp :: others) :
      Moves system (.next name) (system.setPhase name (.handling tmp false))
  | take {name : String} {task : TaskBase} {tmp : TaskMsg}
      {others : List TaskMsg} {phase : LoopPhase}
      (found : system.taskMap[name]? = some task)
      (draining : system.phase name = .draining)
      (front : task.tmpTaskQueue = tmp :: others)
      (branch : phase = .handling tmp true ∨ phase = .replying tmp) :
      Moves system (.next name)
        ((system.setTask name task.popTmpTaskQueue).setPhase name phase)
  | reply {name : String} {task : TaskBase} {tmp : TaskMsg}
      (free : system.pending (.loop name) = none)
      (replying : system.phase name = .replying tmp) :
      Moves system (.reply name)
        ((system.inQueue (.loop name) task0
          (hbRsp task.name tmp)).setPhase name (.replied tmp))
  | finish {name : String} {task : TaskBase} {tmp : TaskMsg} {popped : Bool}
      (found : system.taskMap[name]? = some task)
      (holding : (system.phase name).consumer = .holding tmp popped) :
      Moves system (.finish name)
        (system.finishMsg name
          (if popped then task else task.popTmpTaskQueue) tmp)

theorem moves_of_step {system next : TaskSystem} {action : TaskAction}
    (stepped : system.step action = some next) :
    Moves system action next := by
  cases action with
  | init name =>
      simp only [step] at stepped
      split at stepped
      · rename_i task found notStarted
        cases stepped
        exact .init found notStarted
      · cases stepped
  | inQueue thread target msg =>
      simp only [step] at stepped
      split at stepped
      · rename_i may
        cases stepped
        exact .inQueue target msg may.1
      · cases stepped
  | write thread =>
      simp only [step] at stepped
      split at stepped
      · cases stepped
      · rename_i target writing
        split at stepped
        · cases stepped
        · rename_i task found
          cases stepped
          exact .write writing found
  | evfdCallback name =>
      simp only [step] at stepped
      split at stepped
      · rename_i task found idle
        split at stepped
        · cases stepped
          exact .spurious name
        · rename_i num after read
          cases stepped
          exact .evfdCallback found idle read
      · cases stepped
  | swap name =>
      simp only [step] at stepped
      split at stepped
      · rename_i task num found counted
        cases stepped
        exact .swap found counted
      · cases stepped
  | next name =>
      simp only [step] at stepped
      split at stepped
      · rename_i task found draining
        split at stepped
        · rename_i empty
          cases stepped
          exact .rest found draining empty
        · rename_i tmp others front
          split at stepped
          · split at stepped
            · cases stepped
              exact .take found draining front (.inl rfl)
            · cases stepped
              exact .take found draining front (.inr rfl)
          · cases stepped
            exact .peek found draining front
      · cases stepped
  | reply name =>
      simp only [step] at stepped
      split at stepped
      · rename_i task tmp found replying
        split at stepped
        · rename_i free
          cases stepped
          exact .reply free replying
        · cases stepped
      · cases stepped
  | finish name =>
      simp only [step] at stepped
      split at stepped
      · split at stepped
        · rename_i task tmp popped found handling
          have holding : (system.phase name).consumer =
              .holding tmp popped := by
            rw [handling, LoopPhase.consumer]
          have finished := Moves.finish found holding
          cases popped with
          | true =>
              cases stepped
              exact finished
          | false =>
              cases stepped
              exact finished
        · rename_i task tmp found replied
          cases stepped
          have holding : (system.phase name).consumer = .holding tmp true := by
            rw [replied, LoopPhase.consumer]
          exact Moves.finish found holding
        · cases stepped
      · cases stepped

/-- Every step of the system moves the queues of every task as a double
buffer moves. -/
theorem tracks_step {system next : TaskSystem} {action : TaskAction}
    (stepped : system.step action = some next) : Tracks system next := by
  cases moves_of_step stepped with
  | @init name task found notStarted =>
      apply tracks_setTask_setPhase found
      have unchanged :
          { system.buffer name task.init with
            consumer := LoopPhase.idle.consumer } =
            system.buffer name task := by
        simp [buffer, TaskBase.init, notStarted, LoopPhase.consumer]
      rw [unchanged]
  | @inQueue thread target msg free =>
      exact tracks_inQueue system thread target msg
  | write writing found => exact tracks_write found
  | spurious name => exact .refl system
  | @evfdCallback name task after num found idle read =>
      apply tracks_setTask_setPhase found
      have unchanged :
          { system.buffer name after with
            consumer := (LoopPhase.counted num).consumer } =
            system.buffer name task := by
        simp [buffer, TaskBase.readEvfd_eq_some read, idle,
          LoopPhase.consumer]
      rw [unchanged]
  | @swap name task num found counted =>
      apply tracks_setTask_setPhase found
      have waiting : (system.buffer name task).consumer = .waiting := by
        simp [buffer, counted, LoopPhase.consumer]
      exact .single (.swap waiting)
  | @rest name task found draining empty =>
      have consumer : (system.buffer name task).consumer = .draining := by
        simp [buffer, draining, LoopPhase.consumer]
      apply tracks_setPhase
      intro other otherFound
      cases found.symm.trans otherFound
      exact .single (.rest consumer empty)
  | @peek name task tmp others found draining front =>
      have consumer : (system.buffer name task).consumer = .draining := by
        simp [buffer, draining, LoopPhase.consumer]
      apply tracks_setPhase
      intro other otherFound
      cases found.symm.trans otherFound
      exact .single (.peek consumer front)
  | @take name task tmp others phase found draining front branch =>
      have consumer : (system.buffer name task).consumer = .draining := by
        simp [buffer, draining, LoopPhase.consumer]
      have taken := DoubleBuffer.Step.take consumer front
      apply tracks_setTask_setPhase found
      have holding : phase.consumer = .holding tmp true := by
        rcases branch with handling | replying
        · rw [handling, LoopPhase.consumer]
        · rw [replying, LoopPhase.consumer]
      simpa [buffer, TaskBase.popTmpTaskQueue, front, holding]
        using Relation.ReflTransGen.single taken
  | @reply name task tmp free replying =>
      apply (tracks_inQueue system (.loop name) task0
        (hbRsp task.name tmp)).trans
      apply tracks_setPhase
      intro other _
      have unchanged :
          { (system.inQueue (.loop name) task0
              (hbRsp task.name tmp)).buffer name other with
            consumer := (LoopPhase.replied tmp).consumer } =
            (system.inQueue (.loop name) task0
              (hbRsp task.name tmp)).buffer name other := by
        simp [buffer, replying, LoopPhase.consumer]
      rw [unchanged]
  | @finish name task tmp popped found holding =>
      apply tracks_finishMsg found holding
      · cases popped <;> rfl
      · cases popped <;> rfl

theorem start_task
    {names : List String} {name : String} {task : TaskBase}
    (found : (start names).taskMap[name]? = some task) :
    task = TaskBase.create name := by
  have added : ∀ (manager : TaskManager),
      (∀ other task, manager.taskMap[other]? = some task →
        task = TaskBase.create other) →
      ∀ other task,
        (names.foldl
          (fun manager name => manager.addTasks (TaskBase.create name))
          manager).taskMap[other]? = some task →
        task = TaskBase.create other := by
    clear found
    induction names with
    | nil =>
        intro manager all
        exact all
    | cons first names induction =>
        intro manager all
        apply induction
        intro other task found
        change (manager.taskMap.insert first
          (TaskBase.create first))[other]? = some task at found
        rw [TaskMap.getElem?_insert] at found
        split at found
        · rename_i same
          cases found
          exact congrArg TaskBase.create same
        · exact all other task found
  apply added TaskManager.empty _ name task found
  intro other task found
  simp [TaskManager.empty] at found

/-- The queues of every task hold its messages in order. -/
def QueuesInOrder (system : TaskSystem) : Prop :=
  ∀ (name : String) (task : TaskBase), system.taskMap[name]? = some task →
    (system.buffer name task).InOrder

theorem queuesInOrder_start (names : List String) :
    QueuesInOrder (start names) := by
  intro name task found
  rw [start_task found]
  constructor
  · rfl
  · intro _
    rfl
  · intro message holding
    cases holding

theorem QueuesInOrder.tracks
    {system next : TaskSystem} (inOrder : QueuesInOrder system)
    (tracks : Tracks system next) : QueuesInOrder next := by
  intro name after found
  obtain ⟨before, beforeFound, steps⟩ := tracks name after found
  exact (inOrder name before beforeFound).steps steps

theorem QueuesInOrder.step
    {system next : TaskSystem} {action : TaskAction}
    (inOrder : QueuesInOrder system)
    (stepped : system.step action = some next) :
    QueuesInOrder next :=
  inOrder.tracks (tracks_step stepped)

theorem queuesInOrder_run
    {names : List String} {actions : List TaskAction} {system : TaskSystem}
    (ran : run step (start names) actions = some system) :
    QueuesInOrder system :=
  run_invariant (fun _ _ _ inOrder stepped => inOrder.step stepped)
    (queuesInOrder_start names) ran

theorem held_buffer
    (system : TaskSystem) (name : String) (task : TaskBase) :
    (system.buffer name task).held = (system.phase name).current := by
  simp only [DoubleBuffer.held, buffer]
  cases system.phase name <;> rfl

private theorem remaining_buffer
    (system : TaskSystem) (name : String) (task : TaskBase) :
    (system.buffer name task).remaining =
      (system.phase name).rest task.tmpTaskQueue := by
  simp only [DoubleBuffer.remaining, buffer]
  cases system.phase name with
  | handling tmp popped => cases popped <;> rfl
  | _ => rfl

/-- Delivery is exactly once and first in first out, whatever the
interleaving of the senders, the handlers and the loops. -/
theorem processMsg_fifo
    {names : List String} {actions : List TaskAction} {system : TaskSystem}
    (ran : run step (start names) actions = some system)
    {name : String} {task : TaskBase}
    (found : system.taskMap[name]? = some task) :
    system.handled name ++ (system.phase name).current ++
          (system.phase name).rest task.tmpTaskQueue ++ task.taskQueue =
        system.enqueued name ∧
      ∀ num, system.phase name = .counted num → task.tmpTaskQueue = [] := by
  have inOrder := queuesInOrder_run ran name task found
  constructor
  · have account := inOrder.account
    rw [held_buffer, remaining_buffer] at account
    exact account
  · intro num counted
    apply inOrder.emptyWhileWaiting
    simp [buffer, counted, LoopPhase.consumer]

/-- A second message arrives while the first one is being handled. -/
theorem processMsg_fifo_duringHandling :
    ∃ system task,
      run step (start ["w"])
          [.init "w", .inQueue (.sender 0) "w" ⟨.taskPing, 0, .other⟩,
            .write (.sender 0), .evfdCallback "w", .swap "w", .next "w",
            .inQueue (.loop "w") "w" ⟨.taskHb, 1, .other⟩] =
        some system ∧
      system.taskMap["w"]? = some task ∧
      system.handled "w" ++ (system.phase "w").current ++
            (system.phase "w").rest task.tmpTaskQueue ++ task.taskQueue =
          system.enqueued "w" ∧
        ∀ num, system.phase "w" = .counted num → task.tmpTaskQueue = [] :=
  ⟨_, _, rfl, rfl,
    @processMsg_fifo ["w"]
      [.init "w", .inQueue (.sender 0) "w" ⟨.taskPing, 0, .other⟩,
        .write (.sender 0), .evfdCallback "w", .swap "w", .next "w",
        .inQueue (.loop "w") "w" ⟨.taskHb, 1, .other⟩]
      _ rfl "w" _ rfl⟩

end TaskSystem

end DBWrapper
