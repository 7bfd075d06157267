import DBWrapper.TaskBase.Heartbeat

/-!
# Heartbeats when tasks are deleted

A tick leaves its callback at the first entry of `hb_map` that is false and
names no task any more.  It then sends no request and does not rebuild
`hb_map`, so the next tick meets the same entry again.  A tick does its work
exactly if every entry that is still false names a task of the task map.
-/

namespace DBWrapper

open Foundation

/-- The steps of the heartbeat, and `del_tasks`. -/
inductive HbEvent where
  | act (action : HbAction)
  | delTasks (name : String)
  deriving DecidableEq, Repr

namespace HbSystem

def delTasks (system : HbSystem) (name : String) : HbSystem :=
  { system with manager := system.manager.delTasks name }

def stepEvent (system : HbSystem) : HbEvent → Option HbSystem
  | .act action => step system action
  | .delTasks name => some (system.delTasks name)

/-- The tick sends one request to every task but task0, and afterwards
`hb_map` has the names of the tasks, all false. -/
structure AsksAll (system : HbSystem) : Prop where
  sends : ∀ (name : String) task, system.manager.taskMap[name]? = some task →
    ∃ after, system.startHb.1.manager.taskMap[name]? = some after ∧
      (name = task0 → after.taskQueue = task.taskQueue) ∧
      (name ≠ task0 → ∃ seqId, after.taskQueue =
        task.taskQueue ++ [TaskManager.hbReq name seqId])
  rebuilds : ∀ name : String, system.startHb.1.hbMap[name]? =
    if name ∈ system.manager.taskMap then some false else none

/-- A tick that meets a stale entry changes nothing. -/
theorem startHb_of_stale
    {system : HbSystem} (stale : ¬ NoneStale system)
    (notFirst : system.firstLoop = false) : system.startHb.1 = system := by
  have abandoned :
      (checkResponses system.manager.taskMap system.hbMap.toList).2 ≠ true := by
    rw [ne_eq, checkResponses_completes_iff]
    intro registered
    apply stale
    intro name different entry
    exact registered name different (mem_toList_hbMap.mpr entry)
  simp only [startHb]
  rw [notFirst]
  simp only [Bool.false_eq_true, if_false]
  split
  · rfl
  · rename_i finished
    rw [finished] at abandoned
    exact (abandoned rfl).elim

theorem asksAll_iff
    {system : HbSystem} (notFirst : system.firstLoop = false) :
    AsksAll system ↔ NoneStale system := by
  constructor
  · intro asks
    by_contra stale
    have unchanged := startHb_of_stale stale notFirst
    apply stale
    intro name _ entry
    have rebuilt := asks.rebuilds name
    rw [unchanged, entry] at rebuilt
    by_contra absent
    rw [if_neg absent] at rebuilt
    cases rebuilt
  · intro noneStale
    have completed := noneStale.startHb_eq notFirst
    constructor
    · intro name task found
      rw [completed]
      exact TaskManager.taskQueue_sendHbAll found
    · intro name
      rw [completed]
      exact getElem?_clearHbMap _ name

/-! ### Runs -/

theorem firstLoop_stepEvent
    {system next : HbSystem} {event : HbEvent}
    (stepped : stepEvent system event = some next) :
    next.firstLoop = true ↔
      system.firstLoop = true ∧ event ≠ .act .tick := by
  cases event with
  | act action =>
      have single := @firstLoop_run system next [action]
        (run_cons_eq_some_iff.mpr ⟨next, stepped, rfl⟩)
      rw [single, List.mem_singleton, ne_eq, HbEvent.act.injEq,
        @eq_comm _ HbAction.tick]
  | delTasks name =>
      cases stepped
      simp [delTasks]

theorem firstLoop_runEvent
    {system now : HbSystem} {events : List HbEvent}
    (ran : run stepEvent system events = some now) :
    now.firstLoop = true ↔ system.firstLoop = true ∧ .act .tick ∉ events := by
  induction events generalizing system with
  | nil =>
      cases ran
      simp
  | cons event events induction =>
      obtain ⟨next, stepped, rest⟩ := run_cons_eq_some_iff.mp ran
      rw [induction rest, firstLoop_stepEvent stepped, and_assoc,
        List.mem_cons, not_or, ne_comm]

theorem notFirst_of_tick
    {manager : TaskManager} {front : List HbEvent} {now : HbSystem}
    (ran : run stepEvent (start manager) front = some now)
    (ticked : .act .tick ∈ front) : now.firstLoop = false := by
  rw [Bool.eq_false_iff]
  intro stillFirst
  exact ((firstLoop_runEvent ran).mp stillFirst).2 ticked

/-- A task with no answer yet is not deleted. -/
def DeletesAnswered (system : HbSystem) (event : HbEvent) : Prop :=
  ∀ name : String, event = .delTasks name → system.hbMap[name]? ≠ some false

theorem NoneStale.stepEvent
    {system next : HbSystem} {event : HbEvent} (noneStale : NoneStale system)
    (answered : DeletesAnswered system event)
    (stepped : HbSystem.stepEvent system event = some next) :
    NoneStale next := by
  cases event with
  | delTasks name =>
      cases stepped
      intro other different entry
      have listed := noneStale other different entry
      have notDeleted : name ≠ other := by
        intro equal
        subst equal
        exact answered name rfl entry
      simpa [delTasks, TaskManager.delTasks, notDeleted] using listed
  | act action =>
      cases action with
      | addTasks task =>
          cases stepped
          intro other different entry
          exact TaskManager.mem_addTasks (noneStale other different entry) task
      | onMessage msg =>
          rcases onMessage_eq_some stepped with ⟨sender, _, _, rfl⟩ | ⟨_, rfl⟩
          · intro other different entry
            exact noneStale other different (eq_false_of_insert_true entry)
          · exact noneStale
      | tick =>
          cases stepped
          cases first : system.firstLoop with
          | true =>
              intro other different entry
              simp only [startHb, first, if_true] at entry ⊢
              exact noneStale other different entry
          | false =>
              rw [noneStale.startHb_eq first]
              intro other different entry
              exact mem_of_clearHbMap entry

/-- If only tasks that have answered are deleted, no tick ever stalls. -/
theorem noneStale_run
    {manager : TaskManager} {events : List HbEvent} {system : HbSystem}
    (answered :
      AllSteps stepEvent DeletesAnswered (start manager) events)
    (ran : run stepEvent (start manager) events = some system) :
    NoneStale system := by
  apply run_invariant_of_allSteps _ _ answered ran
  · intro before event next noneStale here stepped
    exact noneStale.stepEvent here stepped
  · intro name _ entry
    simp [start] at entry

/-- The name is false in `hb_map`, and no task has it. -/
structure StalledBy (system : HbSystem) (name : String) : Prop where
  different : name ≠ task0
  entry : system.hbMap[name]? = some false
  absent : name ∉ system.manager.taskMap
  notFirst : system.firstLoop = false

/-- The event brings the task back, or processes an answer of it. -/
def Revives (name : String) (event : HbEvent) : Prop :=
  (∃ task, event = .act (.addTasks task) ∧ task.name = name) ∨
    ∃ seqId, event = .act (.onMessage ⟨.taskHbRsp, seqId, .string name⟩)

theorem StalledBy.startHb
    {system : HbSystem} {name : String} (stalled : StalledBy system name) :
    system.startHb.1 = system := by
  apply startHb_of_stale _ stalled.notFirst
  intro noneStale
  exact stalled.absent (noneStale name stalled.different stalled.entry)

theorem StalledBy.stepEvent
    {system next : HbSystem} {name : String} {event : HbEvent}
    (stalled : StalledBy system name) (quiet : ¬ Revives name event)
    (stepped : HbSystem.stepEvent system event = some next) :
    StalledBy next name := by
  cases event with
  | delTasks other =>
      cases stepped
      refine ⟨stalled.different, stalled.entry, ?_, stalled.notFirst⟩
      intro listed
      simp only [delTasks, TaskManager.delTasks, Std.TreeMap.mem_erase]
        at listed
      exact stalled.absent listed.2
  | act action =>
      cases action with
      | tick =>
          cases stepped
          rw [stalled.startHb]
          exact stalled
      | addTasks task =>
          cases stepped
          refine ⟨stalled.different, stalled.entry, ?_, stalled.notFirst⟩
          intro listed
          simp only [TaskManager.addTasks, Std.TreeMap.mem_insert] at listed
          rcases listed with same | earlier
          · exact quiet (.inl ⟨task, rfl, Std.LawfulEqCmp.eq_of_compare same⟩)
          · exact stalled.absent earlier
      | onMessage msg =>
          rcases onMessage_eq_some stepped with
            ⟨sender, response, body, rfl⟩ | ⟨_, rfl⟩
          · refine ⟨stalled.different, ?_, stalled.absent, stalled.notFirst⟩
            have other : sender ≠ name := by
              intro equal
              subst equal
              apply quiet
              exact .inr ⟨msg.seqId, by rw [← response, ← body]⟩
            simp [Std.TreeMap.getElem?_insert, other, stalled.entry]
          · exact stalled

/-- Once a tick has met such a name, no later tick does anything until the
task is back or has answered. -/
theorem stalled_run
    {system now : HbSystem} {name : String} {events : List HbEvent}
    (stalled : StalledBy system name)
    (quiet : ∀ event ∈ events, ¬ Revives name event)
    (ran : run stepEvent system events = some now) :
    now.startHb.1 = now := by
  have still : StalledBy now name := by
    apply @run_invariant_of_mem _ _ HbSystem.stepEvent
      (fun state => StalledBy state name) events _ _ _ stalled ran
    intro before event next holds listed stepped
    exact holds.stepEvent (quiet event listed) stepped
  exact still.startHb

/-- At a tick after the first one, every entry that is still false, that of
task0 apart, names a task. -/
def TicksFindTasks (system : HbSystem) (event : HbEvent) : Prop :=
  event = .act .tick → system.firstLoop = false → NoneStale system

/-- Every tick of a run but the first one asks all tasks and rebuilds
`hb_map`, exactly if each of them finds the tasks that have not answered. -/
theorem startHb_neverStalls_iff
    {manager : TaskManager} {events : List HbEvent} :
    (∀ front back now, events = front ++ .act .tick :: back →
      run stepEvent (start manager) front = some now → .act .tick ∈ front →
        AsksAll now) ↔
      AllSteps stepEvent TicksFindTasks (start manager) events := by
  rw [allSteps_iff]
  constructor
  · intro asks front event back now whole reached isTick notFirst
    subst isTick
    have ticked : .act .tick ∈ front := by
      by_contra never
      have isFirst := (firstLoop_runEvent reached).mpr ⟨rfl, never⟩
      rw [notFirst] at isFirst
      cases isFirst
    exact (asksAll_iff notFirst).mp (asks front back now whole reached ticked)
  · intro finds front back now whole reached ticked
    have notFirst := notFirst_of_tick reached ticked
    exact (asksAll_iff notFirst).mpr
      (finds front (.act .tick) back now whole reached rfl notFirst)

/-- The task is deleted before it has answered, and the next tick does not
ask the other one. -/
theorem startHb_stalls :
    ∃ now,
      run stepEvent (start .empty)
          [.act (.addTasks (.create "v")), .act (.addTasks (.create "w")),
            .act .tick, .act .tick, .delTasks "v"] = some now ∧
        ¬ AsksAll now ∧
        ∀ events later, (∀ event ∈ events, ¬ Revives "v" event) →
          run stepEvent now events = some later → later.startHb.1 = later := by
  refine ⟨_, rfl, ?_, ?_⟩
  · rw [asksAll_iff rfl]
    intro noneStale
    have listed := noneStale "v" (by decide) (by decide)
    revert listed
    decide
  · intro events later quiet ran
    apply stalled_run _ quiet ran
    exact ⟨by decide, by decide, by decide, rfl⟩

end HbSystem

end DBWrapper
