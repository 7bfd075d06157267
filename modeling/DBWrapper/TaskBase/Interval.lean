import DBWrapper.Translib.TimerManager

/-!
# The heartbeat interval

`task_manager::set_hb_interval` hands the interval on to task0, which stores it
and starts its heartbeat timer anew, unless the id of the timer is 0, the value
that stands for "no timer yet".  The timers of a task come from a
`TimerManager` on the loop of the task, and the ids of such a manager begin
with 0.
-/

namespace DBWrapper

open Foundation
open Translib

/-- `TASK_HB_INTERVAL`. -/
def taskHbInterval : UInt32 := 5000

/-- The part of `manager_task` that has to do with its timers; the callback of
`start_hb` is the only one. -/
structure ManagerTask where
  hbItval : UInt32
  hbTid : TimerId
  timerMgr : TimerManager Unit

namespace ManagerTask

/-- The constructor; `_timer_mgr` is on the loop of the task. -/
def create : ManagerTask :=
  { hbItval := taskHbInterval, hbTid := 0, timerMgr := TimerManager.create 0 }

/-- The pointer that `getTimer` returns lives up to the end of the statement. -/
def startHb (task : ManagerTask) : ManagerTask :=
  let ((tid, ref), timerMgr) := task.timerMgr.getTimer
  let timer :=
    ((timerMgr.timers ref).startForever true true task.hbItval (.call ())).2
  { task with
    hbTid := tid, timerMgr := (timerMgr.setTimer ref timer).release ref }

def setHbInterval (task : ManagerTask) (interval : UInt32) : ManagerTask :=
  let task := { task with hbItval := interval }
  if task.hbTid ≠ 0 then
    { task with timerMgr := task.timerMgr.killTimer task.hbTid }.startHb
  else
    task

/-- `on_before_loop`, which `init` calls before it starts the loop. -/
def onBeforeLoop (task : ManagerTask) : ManagerTask :=
  task.startHb

end ManagerTask

/-- The `task_manager` with its own interval, and its task0. -/
structure HbTimers where
  hbItval : UInt32
  task0 : ManagerTask

inductive IntervalAction where
  | setHbInterval (interval : UInt32)
  /-- The timer of that number expires. -/
  | tick (ref : Nat)
  /-- The audit timer of task0's timer manager expires. -/
  | audit
  deriving DecidableEq, Repr

namespace HbTimers

/-- The constructor and `init`. -/
def init : HbTimers :=
  let hbItval := 5000
  { hbItval, task0 := (ManagerTask.create.setHbInterval hbItval).onBeforeLoop }

/-- The parameter hides the member of the same name, so the assignment in the
source is to the parameter itself. -/
def setHbInterval (system : HbTimers) (hbItval : UInt32) : HbTimers :=
  { system with task0 := system.task0.setHbInterval hbItval }

def onTimers (system : HbTimers) (action : TimerAction Unit) :
    Option HbTimers :=
  (TimerManager.step system.task0.timerMgr action).map fun timerMgr =>
    { system with task0 := { system.task0 with timerMgr } }

def step (system : HbTimers) : IntervalAction → Option HbTimers
  | .setHbInterval interval => some (system.setHbInterval interval)
  | .tick ref => system.onTimers (.expire ref)
  | .audit => system.onTimers .auditTimer

/-- Exactly one timer of task0 is armed, and its period is the interval. -/
def InForce (system : HbTimers) (interval : UInt32) : Prop :=
  ∃ ref, (system.task0.timerMgr.timers ref).event =
      some (Timer.foreverEvent interval) ∧
    ∀ other, (system.task0.timerMgr.timers other).Armed → other = ref

end HbTimers

namespace IntervalAction

def interval? : IntervalAction → Option UInt32
  | .setHbInterval interval => some interval
  | _ => none

def isTick : IntervalAction → Bool
  | .tick _ => true
  | _ => false

/-- The argument of the last `set_hb_interval`, or the initial interval. -/
def lastSet (actions : List IntervalAction) : UInt32 :=
  (actions.filterMap interval?).getLast?.getD 5000

def ticks (actions : List IntervalAction) : Nat :=
  actions.countP isTick

end IntervalAction

namespace HbTimers

/-! ### The one timer -/

/-- After any number of ticks task0 has the timer 0 and no other; its interval
is the initial one, and it runs until its rounds are used up. -/
structure Ticked (system : HbTimers) (count : Nat) : Prop where
  tid : system.task0.hbTid = 0
  others : ∀ ref, ref ≠ 0 → (system.task0.timerMgr.timers ref).event = none
  running : count < 2 ^ 32 - 1 →
    (0, 0) ∈ system.task0.timerMgr.tMap ∧
      (system.task0.timerMgr.timers 0).RunsForever 5000 () count
  usedUp : 2 ^ 32 - 1 ≤ count →
    (system.task0.timerMgr.timers 0).event = none

theorem ticked_init : init.Ticked 0 := by
  constructor
  · rfl
  · intro ref other
    simp [init, ManagerTask.create, ManagerTask.setHbInterval,
      ManagerTask.onBeforeLoop, ManagerTask.startHb, TimerManager.getTimer,
      TimerManager.create, TimerManager.release, TimerManager.setTimer,
      TimerManager.collect, TimerManager.alive, TimerManager.emplace,
      Timer.create, other, other.symm, Timer.reset]
  · intro _
    refine ⟨List.mem_singleton_self _, ?_⟩
    exact Timer.runsForever_startForever rfl 5000 ()
  · intro many
    exact absurd many (by decide)

/-- The sentinel: task0 takes the id 0 of its timer for "no timer yet". -/
theorem Ticked.setHbInterval
    {system : HbTimers} {count : Nat} (ticked : system.Ticked count)
    (interval : UInt32) : (system.setHbInterval interval).Ticked count := by
  have unchanged : system.task0.setHbInterval interval =
      { system.task0 with hbItval := interval } := by
    simp [ManagerTask.setHbInterval, ticked.tid]
  simp only [HbTimers.setHbInterval, unchanged]
  exact ⟨ticked.tid, ticked.others, ticked.running, ticked.usedUp⟩

theorem onTimers_eq_some
    {system next : HbTimers} {action : TimerAction Unit}
    (stepped : system.onTimers action = some next) :
    ∃ timerMgr, TimerManager.step system.task0.timerMgr action =
        some timerMgr ∧
      next = { system with task0 := { system.task0 with timerMgr } } := by
  obtain ⟨timerMgr, moved, same⟩ := Option.map_eq_some_iff.mp stepped
  exact ⟨timerMgr, moved, same.symm⟩

theorem Ticked.tick
    {system next : HbTimers} {count ref : Nat} (ticked : system.Ticked count)
    (stepped : step system (.tick ref) = some next) :
    next.Ticked (count + 1) := by
  obtain ⟨timerMgr, moved, rfl⟩ := onTimers_eq_some stepped
  simp only [TimerManager.step] at moved
  split at moved
  · cases moved
  · rename_i timer called expires
    cases moved
    have isHeartbeat : ref = 0 := by
      by_contra other
      simp [Timer.expire, ticked.others ref other] at expires
    subst isHeartbeat
    by_cases few : count < 2 ^ 32 - 1
    · obtain ⟨listed, runs⟩ := ticked.running few
      obtain ⟨after, expired, goesOn, ends⟩ := runs.expire
      rw [expires] at expired
      cases expired
      constructor
      · exact ticked.tid
      · intro other different
        simp only [TimerManager.setTimer, Function.update_of_ne different]
        exact ticked.others other different
      · intro more
        simp only [TimerManager.setTimer, Function.update_self]
        exact ⟨listed, goesOn more⟩
      · intro last
        simp only [TimerManager.setTimer, Function.update_self]
        exact ends (by omega)
    · have free := ticked.usedUp (by omega)
      simp [Timer.expire, free] at expires

theorem Ticked.audit
    {system next : HbTimers} {count : Nat} (ticked : system.Ticked count)
    (stepped : step system .audit = some next) : next.Ticked count := by
  obtain ⟨timerMgr, moved, rfl⟩ := onTimers_eq_some stepped
  cases moved
  constructor
  · exact ticked.tid
  · intro ref other
    have free := ticked.others ref other
    rw [TimerManager.auditTimer_of_event_eq_none free]
    exact free
  · intro few
    obtain ⟨listed, runs⟩ := ticked.running few
    obtain ⟨stays, same⟩ := TimerManager.auditTimer_of_unfinished listed
      runs.not_isFinished
    rw [same]
    exact ⟨stays, runs⟩
  · intro many
    have free := ticked.usedUp many
    rw [TimerManager.auditTimer_of_event_eq_none free]
    exact free

theorem ticked_run
    {actions : List IntervalAction} {system final : HbTimers} {count : Nat}
    (ticked : system.Ticked count)
    (ran : run step system actions = some final) :
    final.Ticked (count + IntervalAction.ticks actions) := by
  induction actions generalizing system count with
  | nil =>
      cases ran
      exact ticked
  | cons action actions induction =>
      obtain ⟨next, stepped, rest⟩ := run_cons_eq_some_iff.mp ran
      simp only [IntervalAction.ticks, List.countP_cons] at induction ⊢
      cases action with
      | setHbInterval interval =>
          cases stepped
          exact induction (ticked.setHbInterval interval) rest
      | tick ref =>
          have later := induction (ticked.tick stepped) rest
          simp only [IntervalAction.isTick, if_true]
          rw [Nat.add_comm _ 1, ← Nat.add_assoc]
          exact later
      | audit => exact induction (ticked.audit stepped) rest

/-- The interval in force is the initial one until the rounds of its timer are
used up; then no timer is armed any more. -/
theorem Ticked.inForce_iff
    {system : HbTimers} {count : Nat} (ticked : system.Ticked count)
    (interval : UInt32) :
    system.InForce interval ↔ interval = 5000 ∧ count < 2 ^ 32 - 1 := by
  constructor
  · intro inForce
    obtain ⟨ref, event, _⟩ := inForce
    have isHeartbeat : ref = 0 := by
      by_contra other
      rw [ticked.others ref other] at event
      cases event
    subst isHeartbeat
    have few : count < 2 ^ 32 - 1 := by
      by_contra many
      rw [ticked.usedUp (by omega)] at event
      cases event
    have same := (ticked.running few).2.event
    rw [event] at same
    have timeouts := congrArg Event.pending (Option.some.inj same)
    exact ⟨Timer.timevalOf_injective (Option.some.inj timeouts), few⟩
  · intro both
    obtain ⟨initial, few⟩ := both
    subst initial
    refine ⟨0, (ticked.running few).2.event, ?_⟩
    intro other armed
    by_contra different
    exact Timer.not_armed_of_event_eq_none (ticked.others other different)
      armed

/-- The interval that was set last is in force exactly if it is the initial
one, as long as the heartbeat timer has rounds left. -/
theorem lastSet_inForce_iff
    {actions : List IntervalAction} {system : HbTimers}
    (ran : run step init actions = some system) :
    system.InForce (IntervalAction.lastSet actions) ↔
      IntervalAction.lastSet actions = 5000 ∧
        IntervalAction.ticks actions < 2 ^ 32 - 1 := by
  have ticked := ticked_run ticked_init ran
  rw [Nat.zero_add] at ticked
  exact ticked.inForce_iff _

theorem lastSet_inForce_iff_unchanged :
    ∃ system, run step init [.setHbInterval 200, .tick 0, .audit,
        .setHbInterval 5000] = some system ∧
      (system.InForce (IntervalAction.lastSet
          [.setHbInterval 200, .tick 0, .audit, .setHbInterval 5000]) ↔
        IntervalAction.lastSet
            [.setHbInterval 200, .tick 0, .audit, .setHbInterval 5000] = 5000 ∧
          IntervalAction.ticks
            [.setHbInterval 200, .tick 0, .audit, .setHbInterval 5000] <
              2 ^ 32 - 1) :=
  ⟨_, rfl, lastSet_inForce_iff rfl⟩

/-- The new interval has no effect. -/
theorem lastSet_notInForce :
    ∃ system, run step init [.setHbInterval 200] = some system ∧
      system.task0.hbItval = 200 ∧
        (system.task0.timerMgr.timers 0).event =
            some (Timer.foreverEvent 5000) ∧
          ¬ system.InForce 200 := by
  refine ⟨_, rfl, rfl, rfl, ?_⟩
  intro inForce
  have unchanged := ticked_init.setHbInterval 200
  exact absurd ((unchanged.inForce_iff 200).mp inForce).1 (by decide)

end HbTimers

end DBWrapper
