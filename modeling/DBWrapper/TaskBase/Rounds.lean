import DBWrapper.Foundation.Latch
import DBWrapper.TaskBase.Stalling

/-!
# Which request an answer belongs to

Every heartbeat request has a sequence number, and the worker copies it into
its response.  The handler of task0 does not look at it: `hb_map` records that
some response has come since it was last cleared.  A late response to an
earlier request therefore hides that the latest one has not been answered.
-/

namespace DBWrapper

open Foundation

namespace HbSystem

/-! ### What `hb_map` records -/

/-- Task0 processes a response in the name of the task. -/
def Responds (name : String) (event : HbEvent) : Prop :=
  ∃ seqId, event = .act (.onMessage ⟨.taskHbRsp, seqId, .string name⟩)

/-- A tick that gets past its check, and so clears `hb_map`. -/
structure Clears (system : HbSystem) (event : HbEvent) : Prop where
  isTick : event = .act .tick
  notFirst : system.firstLoop = false
  noneStale : NoneStale system

/-- Task0 has processed a response of the task, and no tick since then has
cleared `hb_map`. -/
def Heard (manager : TaskManager) (front : List HbEvent)
    (name : String) : Prop :=
  Latched (fun taken => Responds name taken.2)
    (fun taken => Clears taken.1 taken.2)
    (trace stepEvent (start manager) front)

theorem hbMap_stepEvent
    {system next : HbSystem} {event : HbEvent} (noTick : event ≠ .act .tick)
    (stepped : stepEvent system event = some next) (name : String) :
    (Responds name event → next.hbMap[name]? = some true) ∧
      (¬ Responds name event →
        next.hbMap[name]? = system.hbMap[name]?) := by
  cases event with
  | delTasks other =>
      cases stepped
      constructor
      · intro responds
        obtain ⟨seqId, isResponse⟩ := responds
        cases isResponse
      · intro _
        rfl
  | act action =>
      have single : Responded [action] name ↔ Responds name (.act action) := by
        simp only [Responded, Responds, List.mem_singleton, HbEvent.act.injEq,
          @eq_comm _ action]
      have isNoTick : action ≠ .tick := by
        intro isTick
        subst isTick
        exact noTick rfl
      have between := between_step isNoTick stepped
      rw [← single]
      exact ⟨between.responded name, between.silent name⟩

theorem startHb_of_not_clears
    {system : HbSystem} (keeps : ¬ Clears system (.act .tick)) :
    system.startHb.1 = { system with firstLoop := false } := by
  cases first : system.firstLoop with
  | true => simp [startHb, first]
  | false =>
      have stale : ¬ NoneStale system := by
        intro noneStale
        exact keeps ⟨rfl, first, noneStale⟩
      rw [startHb_of_stale stale first, ← first]

theorem hbMap_eq_true_stepEvent
    {system next : HbSystem} {event : HbEvent}
    (stepped : stepEvent system event = some next) (name : String) :
    next.hbMap[name]? = some true ↔
      Responds name event ∨
        system.hbMap[name]? = some true ∧ ¬ Clears system event := by
  by_cases isTick : event = .act .tick
  · subst isTick
    cases stepped
    have silent : ¬ Responds name (.act .tick) := by
      intro responds
      obtain ⟨seqId, isResponse⟩ := responds
      cases isResponse
    by_cases clears : Clears system (.act .tick)
    · rw [clears.noneStale.startHb_eq clears.notFirst]
      simp [getElem?_clearHbMap, silent, clears]
    · rw [startHb_of_not_clears clears]
      simp [silent, clears]
  · have keeps : ¬ Clears system event := fun clears => isTick clears.isTick
    obtain ⟨set, left⟩ := hbMap_stepEvent isTick stepped name
    by_cases responds : Responds name event
    · simp [set responds, responds]
    · simp [left responds, responds, keeps]

/-- An entry of `hb_map` is true if any response has come since the map was
last cleared, whatever request it answers. -/
theorem hbMap_eq_true_iff_heard
    {manager : TaskManager} {front : List HbEvent} {now : HbSystem}
    (ran : run stepEvent (start manager) front = some now) (name : String) :
    now.hbMap[name]? = some true ↔ Heard manager front name := by
  apply @flag_iff_latched _ _ _ (fun system => system.hbMap[name]? = some true)
    _ _ _ _ _ _ _ ran
  · intro system event next stepped
    exact hbMap_eq_true_stepEvent stepped name
  · simp [start]

/-! ### The request of the previous tick -/

/-- The tick sends this request to the task. -/
def Asks (system : HbSystem) (name : String) (seqId : UInt32) : Prop :=
  ∃ task after, system.manager.taskMap[name]? = some task ∧
    system.startHb.1.manager.taskMap[name]? = some after ∧
    after.taskQueue = task.taskQueue ++ [TaskManager.hbReq name seqId]

/-- The latest tick took place in `previous`, and was followed by `between`. -/
structure SinceTick (manager : TaskManager) (front : List HbEvent)
    (previous : HbSystem) (between : List HbEvent) : Prop where
  noTick : .act .tick ∉ between
  cut : ∃ older, front = older ++ .act .tick :: between ∧
    run stepEvent (start manager) older = some previous

/-- Since the latest tick, task0 has processed the response that the worker
makes out of the request that this tick sent to it. -/
def AnswersLatest (manager : TaskManager) (front : List HbEvent)
    (name : String) : Prop :=
  ∃ previous between seqId, SinceTick manager front previous between ∧
    Asks previous name seqId ∧
    .act (.onMessage (hbRsp name (TaskManager.hbReq name seqId))) ∈ between

/-- The latest tick has sent a request to the task, and task0 has not
processed a response to it. -/
def Unanswered (manager : TaskManager) (front : List HbEvent)
    (name : String) : Prop :=
  ∃ previous between seqId, SinceTick manager front previous between ∧
    Asks previous name seqId ∧
    .act (.onMessage (hbRsp name (TaskManager.hbReq name seqId))) ∉ between

theorem Asks.clears
    {system : HbSystem} {name : String} {seqId : UInt32}
    (asks : Asks system name seqId) : Clears system (.act .tick) := by
  by_contra keeps
  obtain ⟨task, after, found, sent, queue⟩ := asks
  rw [startHb_of_not_clears keeps] at sent
  rw [found] at sent
  cases sent
  simp at queue

theorem Asks.other
    {system : HbSystem} {name : String} {seqId : UInt32}
    (asks : Asks system name seqId) : name ≠ task0 := by
  intro manages
  have clears := asks.clears
  obtain ⟨task, after, found, sent, queue⟩ := asks
  rw [clears.noneStale.startHb_eq clears.notFirst] at sent
  rw [(TaskManager.getElem?_sendHbAll found).1 manages] at sent
  cases sent
  simp at queue

theorem Asks.unique
    {system : HbSystem} {name : String} {first second : UInt32}
    (left : Asks system name first) (right : Asks system name second) :
    first = second := by
  obtain ⟨task, after, found, sent, queue⟩ := left
  obtain ⟨again, later, foundAgain, sentAgain, queueAgain⟩ := right
  rw [found] at foundAgain
  cases foundAgain
  rw [sent] at sentAgain
  cases sentAgain
  rw [queue] at queueAgain
  simpa [TaskManager.hbReq] using queueAgain

theorem SinceTick.unique
    {manager : TaskManager} {front : List HbEvent}
    {previous other : HbSystem} {between rest : List HbEvent}
    (left : SinceTick manager front previous between)
    (right : SinceTick manager front other rest) :
    previous = other ∧ between = rest := by
  obtain ⟨older, leftCut, reached⟩ := left.cut
  obtain ⟨earlier, rightCut, otherReached⟩ := right.cut
  rw [leftCut] at rightCut
  obtain ⟨rfl, rfl⟩ :=
    append_cons_inj_of_last left.noTick right.noTick rightCut
  rw [reached] at otherReached
  cases otherReached
  exact ⟨rfl, rfl⟩

theorem Unanswered.not_answersLatest
    {manager : TaskManager} {front : List HbEvent} {name : String}
    (unanswered : Unanswered manager front name) :
    ¬ AnswersLatest manager front name := by
  intro answers
  obtain ⟨previous, between, seqId, since, asks, absent⟩ := unanswered
  obtain ⟨_, _, _, sinceAgain, asksAgain, listed⟩ := answers
  obtain ⟨rfl, rfl⟩ := since.unique sinceAgain
  cases asks.unique asksAgain
  exact absent listed

/-! ### Ticks -/

theorem hbMap_listed_run
    {system now : HbSystem} {events : List HbEvent} {name : String}
    (noTick : .act .tick ∉ events)
    (ran : run stepEvent system events = some now)
    (listed : system.hbMap[name]? ≠ none) : now.hbMap[name]? ≠ none := by
  apply @run_invariant_of_mem _ _ stepEvent
    (fun state => state.hbMap[name]? ≠ none) events _ _ _ listed ran
  intro before event next present member stepped
  have isNoTick : event ≠ .act .tick := by
    intro isTick
    subst isTick
    exact noTick member
  obtain ⟨set, left⟩ := hbMap_stepEvent isNoTick stepped name
  by_cases responds : Responds name event
  · simp [set responds]
  · rw [left responds]
    exact present

/-- A task that was asked at the latest tick has an entry in `hb_map`. -/
theorem Unanswered.listed
    {manager : TaskManager} {front : List HbEvent} {name : String}
    {now : HbSystem} (unanswered : Unanswered manager front name)
    (ran : run stepEvent (start manager) front = some now) :
    now.hbMap[name]? ≠ none := by
  obtain ⟨previous, between, seqId, since, asks, _⟩ := unanswered
  obtain ⟨older, whole, reached⟩ := since.cut
  rw [whole] at ran
  obtain ⟨middle, toMiddle, rest⟩ := run_append_eq_some_iff.mp ran
  rw [reached] at toMiddle
  cases toMiddle
  obtain ⟨next, ticked, betweenRan⟩ := run_cons_eq_some_iff.mp rest
  cases ticked
  apply hbMap_listed_run since.noTick betweenRan
  have clears := asks.clears
  obtain ⟨task, _, found, _⟩ := asks
  have registered : name ∈ previous.manager.taskMap :=
    TaskMap.mem_iff.mpr ⟨task, found⟩
  rw [clears.noneStale.startHb_eq clears.notFirst]
  simp [getElem?_clearHbMap, registered]

/-- At this tick the entry of the task is true only if the task has answered
the request of the previous tick, and if it has not, it is restarted. -/
structure CountsLatest (manager : TaskManager) (front : List HbEvent)
    (now : HbSystem) (name : String) : Prop where
  marked : now.hbMap[name]? = some true → AnswersLatest manager front name
  reported : Unanswered manager front name →
    ∀ task, now.manager.taskMap[name]? = some task →
      (name, task) ∈ now.startHb.2

/-- A response of the task is processed only if the one to the latest request
is, too; and if that one is missing, the check gets as far as the task. -/
structure OnTime (manager : TaskManager) (front : List HbEvent)
    (now : HbSystem) (name : String) : Prop where
  fresh : Heard manager front name → AnswersLatest manager front name
  reached : Unanswered manager front name →
    name ∈ now.manager.taskMap → Reaches now name

theorem countsLatest_iff
    {manager : TaskManager} {front : List HbEvent} {now : HbSystem}
    (ran : run stepEvent (start manager) front = some now) (name : String) :
    CountsLatest manager front now name ↔
      OnTime manager front now name := by
  have marked := hbMap_eq_true_iff_heard ran name
  have notFirst : Unanswered manager front name → now.firstLoop = false := by
    intro unanswered
    obtain ⟨_, _, _, since, _⟩ := unanswered
    obtain ⟨older, whole, _⟩ := since.cut
    exact notFirst_of_tick ran (by simp [whole])
  constructor
  · intro counts
    constructor
    · intro heard
      exact counts.marked (marked.mpr heard)
    · intro unanswered registered
      obtain ⟨task, found⟩ := TaskMap.mem_iff.mp registered
      have restarted := counts.reported unanswered task found
      rw [mem_startHb_iff (notFirst unanswered)] at restarted
      exact restarted.2.2.2
  · intro onTime
    constructor
    · intro isTrue
      exact onTime.fresh (marked.mp isTrue)
    · intro unanswered task found
      have registered : name ∈ now.manager.taskMap :=
        TaskMap.mem_iff.mpr ⟨task, found⟩
      have stillFalse : now.hbMap[name]? = some false := by
        have listed := unanswered.listed ran
        cases entry : now.hbMap[name]? with
        | none => exact (listed entry).elim
        | some responded =>
            cases responded with
            | false => rfl
            | true =>
                have answers := onTime.fresh (marked.mp entry)
                exact (unanswered.not_answersLatest answers).elim
      have other : name ≠ task0 := by
        obtain ⟨_, _, _, _, asks, _⟩ := unanswered
        exact asks.other
      rw [mem_startHb_iff (notFirst unanswered)]
      exact ⟨other, found, stillFalse, onTime.reached unanswered registered⟩

/-- Heartbeats count for the requests they answer at every tick of a run,
exactly if no late response is processed without the latest one, and the
check gets as far as every task that has not answered. -/
theorem startHb_countsLatest_iff
    {manager : TaskManager} {events : List HbEvent} {name : String} :
    (∀ front back now, events = front ++ .act .tick :: back →
      run stepEvent (start manager) front = some now →
        CountsLatest manager front now name) ↔
      ∀ front back now, events = front ++ .act .tick :: back →
        run stepEvent (start manager) front = some now →
          OnTime manager front now name := by
  constructor
  · intro counts front back now whole reached
    exact (countsLatest_iff reached name).mp
      (counts front back now whole reached)
  · intro onTime front back now whole reached
    exact (countsLatest_iff reached name).mpr
      (onTime front back now whole reached)

/-- The response to the first request arrives after the second one was sent:
the task is not restarted, although it has not answered. -/
theorem startHb_countsLate :
    ∃ now,
      run stepEvent (start .empty)
          [.act (.addTasks (.create "w")), .act .tick, .act .tick, .act .tick,
            .act (.onMessage (hbRsp "w" (TaskManager.hbReq "w" 0)))] =
        some now ∧
      now.hbMap["w"]? = some true ∧ now.startHb.2 = [] ∧
      "w" ∈ now.manager.taskMap ∧
      Unanswered .empty
        [.act (.addTasks (.create "w")), .act .tick, .act .tick, .act .tick,
          .act (.onMessage (hbRsp "w" (TaskManager.hbReq "w" 0)))] "w" ∧
      ¬ AnswersLatest .empty
        [.act (.addTasks (.create "w")), .act .tick, .act .tick, .act .tick,
          .act (.onMessage (hbRsp "w" (TaskManager.hbReq "w" 0)))] "w" := by
  have unanswered : Unanswered .empty
      [.act (.addTasks (.create "w")), .act .tick, .act .tick, .act .tick,
        .act (.onMessage (hbRsp "w" (TaskManager.hbReq "w" 0)))] "w" := by
    refine ⟨_, [.act (.onMessage (hbRsp "w" (TaskManager.hbReq "w" 0)))], 1,
      ⟨by decide, [.act (.addTasks (.create "w")), .act .tick, .act .tick],
        rfl, rfl⟩, ⟨_, _, rfl, rfl, rfl⟩, by decide⟩
  exact ⟨_, rfl, by decide, by decide, by decide, unanswered,
    unanswered.not_answersLatest⟩

end HbSystem

end DBWrapper
