import DBWrapper.TaskBase.Scheduling

/-!
# No lost wakeup

A sender enqueues first and writes the eventfd afterwards; the loop reads the
counter first and swaps the queues afterwards.  So a message in `_task_queue`
is always announced: by a positive counter, by a sender that has still to
write, or by a loop that has read the counter and is about to swap.
-/

namespace DBWrapper

open Foundation

namespace TaskSystem

/-- Something will make the loop of the task look at its queue. -/
def Announced (system : TaskSystem) (name : String) (task : TaskBase) :
    Prop :=
  (∃ count, task.evfd = some count ∧ 0 < count) ∨
    (∃ thread, system.pending thread = some name) ∨
    ∃ num, system.phase name = .counted num

structure Signalled (system : TaskSystem) (name : String) : Prop where
  announced : ∀ task, system.taskMap[name]? = some task →
    task.taskQueue ≠ [] → system.Announced name task
  noEvfd : ∀ task, system.taskMap[name]? = some task →
    system.phase name = .notStarted → task.evfd = none

/-- A write to the eventfd of the task finds it created: `init` has got that
far. -/
def WritesValidEvfd (name : String) (system : TaskSystem)
    (action : TaskAction) : Prop :=
  ∀ thread, action = .write thread → system.pending thread = some name →
    ∀ task, system.taskMap[name]? = some task → ∃ count, task.evfd = some count

theorem signalled_start (names : List String) (name : String) :
    Signalled (start names) name := by
  constructor
  · intro task found queued
    rw [start_task found] at queued
    exact (queued rfl).elim
  · intro task found _
    rw [start_task found]
    rfl

/-- Steps that leave the queue, the counter and the pending writes alone. -/
theorem Signalled.of_quiet
    {system next : TaskSystem} {name : String}
    (signalled : Signalled system name)
    (tasks : ∀ after, next.taskMap[name]? = some after →
      ∃ before, system.taskMap[name]? = some before ∧
        after.taskQueue = before.taskQueue ∧ after.evfd = before.evfd)
    (pending : ∀ thread, system.pending thread = some name →
      next.pending thread = some name)
    (counted : ∀ num, system.phase name = .counted num →
      next.phase name = .counted num)
    (started : next.phase name = .notStarted →
      system.phase name = .notStarted) :
    Signalled next name := by
  constructor
  · intro after found queued
    obtain ⟨before, beforeFound, sameQueue, sameEvfd⟩ := tasks after found
    rw [sameQueue] at queued
    rcases signalled.announced before beforeFound queued with
      ⟨count, evfd, positive⟩ | ⟨thread, writing⟩ | ⟨num, reading⟩
    · exact .inl ⟨count, sameEvfd.trans evfd, positive⟩
    · exact .inr (.inl ⟨thread, pending thread writing⟩)
    · exact .inr (.inr ⟨num, counted num reading⟩)
  · intro after found notStarted
    obtain ⟨before, beforeFound, _, sameEvfd⟩ := tasks after found
    rw [sameEvfd]
    exact signalled.noEvfd before beforeFound (started notStarted)

/-- A step of the loop of some task; only a step of the task itself that
touches its queue or its counter needs an argument of its own. -/
theorem Signalled.setTask_setPhase
    {system : TaskSystem} {name acting : String} {after : TaskBase}
    {phase : LoopPhase}
    (signalled : Signalled system name)
    (own : acting = name →
      (after.taskQueue ≠ [] →
        ((system.setTask acting after).setPhase acting phase).Announced
          acting after) ∧
        phase ≠ .notStarted) :
    Signalled ((system.setTask acting after).setPhase acting phase) name := by
  by_cases same : acting = name
  · subst same
    obtain ⟨announced, started⟩ := own rfl
    constructor
    · intro task taskFound queued
      simp only [setTask, setPhase, TaskMap.getElem?_insert, if_true,
        Option.some.injEq] at taskFound
      subst taskFound
      exact announced queued
    · intro task _ notStarted
      simp only [setPhase, Function.update_self] at notStarted
      exact (started notStarted).elim
  · apply signalled.of_quiet
    · intro task taskFound
      simp only [setTask, setPhase, TaskMap.getElem?_insert, if_neg same]
        at taskFound
      exact ⟨task, taskFound, rfl, rfl⟩
    · intro thread writing
      exact writing
    · intro num counted
      simpa [setPhase, setTask, Ne.symm same] using counted
    · intro notStarted
      simpa [setPhase, setTask, Ne.symm same] using notStarted

theorem Signalled.inQueue
    {system : TaskSystem} {name : String}
    (signalled : Signalled system name) {thread : Thread}
    (free : system.pending thread = none) (target : String) (msg : TaskMsg) :
    Signalled (system.inQueue thread target msg) name := by
  have kept : ∀ other, system.pending other = some name →
      Function.update system.pending thread (some target) other =
        some name := by
    intro other writing
    have different : other ≠ thread := by
      intro equal
      subst equal
      simp [free] at writing
    simpa [different] using writing
  simp only [TaskSystem.inQueue]
  split
  · exact signalled
  · rename_i task found
    by_cases same : target = name
    · subst same
      constructor
      · intro after _ _
        exact .inr (.inl ⟨thread, by simp⟩)
      · intro after afterFound notStarted
        simp only [TaskMap.getElem?_insert, if_true, Option.some.injEq]
          at afterFound
        subst afterFound
        exact signalled.noEvfd task found notStarted
    · apply signalled.of_quiet
      · intro after afterFound
        simp only [TaskMap.getElem?_insert, if_neg same] at afterFound
        exact ⟨after, afterFound, rfl, rfl⟩
      · exact kept
      · intro num counted
        exact counted
      · intro notStarted
        exact notStarted

theorem Signalled.write
    {system : TaskSystem} {name target : String} {thread : Thread}
    {task : TaskBase} (signalled : Signalled system name)
    (writing : system.pending thread = some target)
    (found : system.taskMap[target]? = some task)
    (valid : target = name → ∃ count, task.evfd = some count) :
    Signalled
      { system.setTask target task.writeEvfd.2 with
        pending := Function.update system.pending thread none } name := by
  by_cases same : target = name
  · subst same
    obtain ⟨count, evfd⟩ := valid rfl
    obtain ⟨after, afterEvfd, positive⟩ := TaskBase.evfd_writeEvfd_pos evfd
    constructor
    · intro other otherFound _
      simp only [setTask, TaskMap.getElem?_insert, if_true,
        Option.some.injEq] at otherFound
      subst otherFound
      exact .inl ⟨after, afterEvfd, positive⟩
    · intro other _ notStarted
      have none := signalled.noEvfd task found notStarted
      simp [none] at evfd
  · apply signalled.of_quiet
    · intro after afterFound
      simp only [setTask, TaskMap.getElem?_insert, if_neg same] at afterFound
      exact ⟨after, afterFound, rfl, rfl⟩
    · intro other otherWriting
      have different : other ≠ thread := by
        intro equal
        subst equal
        rw [writing, Option.some.injEq] at otherWriting
        exact same otherWriting
      simpa [different] using otherWriting
    · intro num counted
      exact counted
    · intro notStarted
      exact notStarted

/-- Outside `counted` the reason for the announcement is not the phase. -/
theorem Announced.setTask_setPhase
    {system : TaskSystem} {name : String} {before after : TaskBase}
    {phase : LoopPhase}
    (announced : system.Announced name before)
    (sameEvfd : after.evfd = before.evfd)
    (notCounted : ∀ num, system.phase name ≠ .counted num) :
    ((system.setTask name after).setPhase name phase).Announced name after := by
  rcases announced with ⟨count, evfd, positive⟩ | writing | ⟨num, counted⟩
  · exact .inl ⟨count, sameEvfd.trans evfd, positive⟩
  · exact .inr (.inl writing)
  · exact (notCounted num counted).elim

theorem Signalled.setPhase
    {system : TaskSystem} {name acting : String} {phase : LoopPhase}
    (signalled : Signalled system name)
    (notCounted : ∀ num, system.phase acting ≠ .counted num)
    (started : phase ≠ .notStarted) :
    Signalled (system.setPhase acting phase) name := by
  apply signalled.of_quiet
  · intro task found
    exact ⟨task, found, rfl, rfl⟩
  · intro thread writing
    exact writing
  · intro num counted
    by_cases same : acting = name
    · subst same
      exact (notCounted num counted).elim
    · simpa [TaskSystem.setPhase, Ne.symm same] using counted
  · intro notStarted
    by_cases same : acting = name
    · subst same
      simp only [TaskSystem.setPhase, Function.update_self] at notStarted
      exact (started notStarted).elim
    · simpa [TaskSystem.setPhase, Ne.symm same] using notStarted

theorem Signalled.finishMsg
    {system : TaskSystem} {name acting : String} {before after : TaskBase}
    {tmp : TaskMsg}
    (signalled : Signalled system name)
    (found : system.taskMap[acting]? = some before)
    (sameQueue : after.taskQueue = before.taskQueue)
    (sameEvfd : after.evfd = before.evfd)
    (notCounted : ∀ num, system.phase acting ≠ .counted num) :
    Signalled (system.finishMsg acting after tmp) name := by
  have moved :
      Signalled ((system.setTask acting after).setPhase acting .draining)
        name := by
    apply signalled.setTask_setPhase
    intro equal
    subst equal
    refine ⟨?_, by simp⟩
    intro queued
    rw [sameQueue] at queued
    exact (signalled.announced before found queued).setTask_setPhase sameEvfd
      notCounted
  apply moved.of_quiet
  · intro task taskFound
    exact ⟨task, taskFound, rfl, rfl⟩
  · intro thread writing
    exact writing
  · intro num counted
    exact counted
  · intro notStarted
    exact notStarted

/-- A step keeps the queue announced, provided that a write to the task finds
its eventfd. -/
theorem Signalled.step
    {system next : TaskSystem} {name : String} {action : TaskAction}
    (inOrder : QueuesInOrder system) (signalled : Signalled system name)
    (valid : WritesValidEvfd name system action)
    (stepped : system.step action = some next) : Signalled next name := by
  cases moves_of_step stepped with
  | @init acting task found notStarted =>
      apply signalled.setTask_setPhase
      intro equal
      subst equal
      refine ⟨?_, by simp⟩
      intro queued
      have noEvfd := signalled.noEvfd task found notStarted
      rcases signalled.announced task found queued with
        ⟨count, evfd, _⟩ | writing | ⟨num, counted⟩
      · simp [noEvfd] at evfd
      · exact .inr (.inl writing)
      · simp [notStarted] at counted
  | inQueue target msg free => exact signalled.inQueue free target msg
  | @write thread target task writing found =>
      apply signalled.write writing found
      intro equal
      subst equal
      exact valid thread rfl writing task found
  | spurious acting => exact signalled
  | @evfdCallback acting task after num found idle read =>
      apply signalled.setTask_setPhase
      intro equal
      subst equal
      refine ⟨?_, by simp⟩
      intro _
      exact .inr (.inr ⟨num, by simp [TaskSystem.setPhase]⟩)
  | @swap acting task num found counted =>
      apply signalled.setTask_setPhase
      intro equal
      subst equal
      refine ⟨?_, by simp⟩
      -- the queue that becomes `_task_queue` is empty at the swap
      intro queued
      have empty : task.tmpTaskQueue = [] := by
        apply (inOrder acting task found).emptyWhileWaiting
        simp [buffer, counted, LoopPhase.consumer]
      exact (queued empty).elim
  | rest found draining empty =>
      apply signalled.setPhase
      · simp [draining]
      · simp
  | peek found draining front =>
      apply signalled.setPhase
      · simp [draining]
      · simp
  | @take acting task tmp others phase found draining front branch =>
      have notCounted : ∀ num, system.phase acting ≠ .counted num := by
        simp [draining]
      have started : phase ≠ .notStarted := by
        rcases branch with handling | replying
        · simp [handling]
        · simp [replying]
      apply signalled.setTask_setPhase
      intro equal
      subst equal
      refine ⟨?_, started⟩
      intro queued
      exact (signalled.announced task found queued).setTask_setPhase rfl
        notCounted
  | @reply acting task tmp free replying =>
      apply (signalled.inQueue free task0 (hbRsp task.name tmp)).setPhase
      · simp [replying]
      · simp
  | @finish acting task tmp popped found holding =>
      apply signalled.finishMsg found
      · cases popped <;> rfl
      · cases popped <;> rfl
      · intro num counted
        rw [counted, LoopPhase.consumer] at holding
        cases holding

/-- While the loop is idle, a queued message is announced by a positive
counter or by a sender between its `in_queue` and its write. -/
theorem processMsg_noLostWakeup
    {names : List String} {actions : List TaskAction} {system : TaskSystem}
    {name : String}
    (valid : AllSteps step (WritesValidEvfd name) (start names) actions)
    (ran : run step (start names) actions = some system)
    (idle : system.phase name = .idle)
    {task : TaskBase} (found : system.taskMap[name]? = some task)
    (queued : task.taskQueue ≠ []) :
    (∃ count, task.evfd = some count ∧ 0 < count) ∨
      ∃ thread, system.pending thread = some name := by
  have invariant : QueuesInOrder system ∧ Signalled system name := by
    apply run_invariant_of_allSteps _
      ⟨queuesInOrder_start names, signalled_start names name⟩ valid ran
    intro before action after holds writesValid stepped
    exact ⟨holds.1.step stepped,
      holds.2.step holds.1 writesValid stepped⟩
  rcases invariant.2.announced task found queued with
    positive | writing | ⟨num, counted⟩
  · exact .inl positive
  · exact .inr writing
  · rw [idle] at counted
    cases counted

theorem processMsg_noLostWakeup_written :
    ∃ system task,
      run step (start ["w"])
          [.init "w", .inQueue (.sender 0) "w" ⟨.taskPing, 0, .other⟩,
            .write (.sender 0)] =
        some system ∧
      system.taskMap["w"]? = some task ∧
      ((∃ count, task.evfd = some count ∧ 0 < count) ∨
        ∃ thread, system.pending thread = some "w") :=
  ⟨_, _, rfl, rfl,
    @processMsg_noLostWakeup ["w"]
      [.init "w", .inQueue (.sender 0) "w" ⟨.taskPing, 0, .other⟩,
        .write (.sender 0)] _ "w"
      (by
        refine ⟨fun _ writes => ?_, fun _ initialised => ?_⟩
        · cases writes
        cases initialised
        refine ⟨fun _ writes => ?_, fun _ enqueued => ?_⟩
        · cases writes
        cases enqueued
        refine ⟨fun _ _ _ task found => ?_, fun _ _ => trivial⟩
        cases found
        exact ⟨0, rfl⟩)
      rfl rfl _ rfl (by simp)⟩

end TaskSystem

end DBWrapper
