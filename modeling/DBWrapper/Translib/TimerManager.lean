import Mathlib.Logic.Function.Basic
import DBWrapper.Foundation.Runs
import DBWrapper.Translib.Timer

/-!
# The timer manager

`getTimer` creates a timer, lists it in `t_map` under a fresh id and hands out
a second pointer to it.  A timer is destroyed, and its event freed with it,
when neither `t_map` nor a caller has a pointer to it any more.  Everything
runs on the loop thread of the manager, so a user's handler contributes
further steps behind the expiration that called it.
-/

namespace DBWrapper

namespace Translib

open Foundation

/-- A key of `t_map`, an `int`. -/
abbrev TimerId := BitVec 32

/-- The timers are numbered in the order of their creation: `timers` has the
objects, `held` tells whether a caller keeps the pointer that `getTimer` has
returned, and `issued` has the ids that it has given out. -/
structure TimerManager (Callback : Type) where
  uniqueIDAtomic : TimerId
  tMap : List (TimerId × Nat)
  timers : Nat → Timer Callback
  held : Nat → Bool
  issued : List TimerId

inductive TimerAction (Callback : Type) where
  | getTimer
  | startOnce (ref : Nat) (interval : UInt32) (callback : Callback)
  | startRounds (ref : Nat) (interval : UInt32) (round : UInt64)
      (callback : Callback)
  | startForever (ref : Nat) (interval : UInt32) (callback : Callback)
  | startAfter (ref : Nat) (after interval : UInt32) (round : UInt64)
      (callback : Callback)
  | expire (ref : Nat)
  | stop (ref : Nat)
  /-- The caller gives its pointer up. -/
  | release (ref : Nat)
  | killTimer (timerID : TimerId)
  | auditTimer
  deriving DecidableEq, Repr

namespace TimerManager

variable {Callback : Type}

/-- Both constructors; they differ in the first id, which is 1 for the manager
with a loop of its own and 0 for a manager on the loop of somebody else. -/
def create (uniqueID : TimerId) : TimerManager Callback :=
  { uniqueIDAtomic := uniqueID, tMap := [], timers := fun _ => Timer.create,
    held := fun _ => false, issued := [] }

def alive (manager : TimerManager Callback) (ref : Nat) : Bool :=
  manager.held ref || manager.tMap.any (fun entry => entry.2 == ref)

/-- The destructor of the timers that nobody points to any more. -/
def collect (manager : TimerManager Callback) : TimerManager Callback :=
  { manager with
    timers := fun ref =>
      if manager.alive ref then manager.timers ref
      else (manager.timers ref).reset }

/-- `unordered_map::emplace` leaves an entry with the same key alone. -/
def emplace (tMap : List (TimerId × Nat)) (tid : TimerId) (ref : Nat) :
    List (TimerId × Nat) :=
  if tMap.any (fun entry => entry.1 == tid) then tMap
  else tMap ++ [(tid, ref)]

/-- The id and the number of the new timer. -/
def getTimer (manager : TimerManager Callback) :
    (TimerId × Nat) × TimerManager Callback :=
  let tid := manager.uniqueIDAtomic
  let ref := manager.issued.length
  ((tid, ref),
    { uniqueIDAtomic := manager.uniqueIDAtomic + 1
      tMap := emplace manager.tMap tid ref
      timers := Function.update manager.timers ref Timer.create
      held := Function.update manager.held ref true
      issued := manager.issued ++ [tid] })

def release (manager : TimerManager Callback) (ref : Nat) :
    TimerManager Callback :=
  { manager with held := Function.update manager.held ref false }.collect

def killTimer (manager : TimerManager Callback) (timerID : TimerId) :
    TimerManager Callback :=
  { manager with
    tMap := manager.tMap.filter fun entry => entry.1 != timerID }.collect

/-- The loop erases the entries of the finished timers. -/
def auditTimer (manager : TimerManager Callback) : TimerManager Callback :=
  { manager with
    tMap := manager.tMap.filter fun entry =>
      !(manager.timers entry.2).isFinished }.collect

def setTimer (manager : TimerManager Callback) (ref : Nat)
    (timer : Timer Callback) : TimerManager Callback :=
  { manager with timers := Function.update manager.timers ref timer }

/-- A call of a member function of a timer, through a pointer to it. -/
def onTimer (manager : TimerManager Callback) (ref : Nat)
    (change : Timer Callback → Timer Callback) :
    Option (TimerManager Callback) :=
  if manager.alive ref then
    some (manager.setTimer ref (change (manager.timers ref)))
  else
    none

/-- `event_new` and `event_add` succeed. -/
def step (manager : TimerManager Callback) :
    TimerAction Callback → Option (TimerManager Callback)
  | .getTimer => some manager.getTimer.2
  | .startOnce ref interval callback =>
      manager.onTimer ref fun timer =>
        (timer.startOnce true true interval (.call callback)).2
  | .startRounds ref interval round callback =>
      manager.onTimer ref fun timer =>
        (timer.startRounds true true interval round (.call callback)).2
  | .startForever ref interval callback =>
      manager.onTimer ref fun timer =>
        (timer.startForever true true interval (.call callback)).2
  | .startAfter ref after interval round callback =>
      manager.onTimer ref fun timer =>
        (timer.startAfter true true after interval round callback).2
  | .expire ref =>
      match (manager.timers ref).expire true true with
      | none => none
      | some (timer, _) => some (manager.setTimer ref timer)
  | .stop ref => manager.onTimer ref Timer.stop
  | .release ref => if manager.held ref then some (manager.release ref) else none
  | .killTimer timerID => some (manager.killTimer timerID)
  | .auditTimer => some manager.auditTimer

end TimerManager

namespace TimerAction

variable {Callback : Type}

/-- The action calls a start function of the timer. -/
def Starts (ref : Nat) : TimerAction Callback → Prop
  | .startOnce other _ _ => other = ref
  | .startRounds other _ _ _ => other = ref
  | .startForever other _ _ => other = ref
  | .startAfter other _ _ _ _ => other = ref
  | _ => False

/-- The rounds that the action asks for are at least one. -/
def Positive : TimerAction Callback → Prop
  | .startRounds _ _ round _ => 0 < round
  | .startAfter _ _ _ round _ => 0 < round
  | _ => True

end TimerAction

namespace TimerManager

variable {Callback : Type}

/-! ### What one step does -/

theorem of_onTimer
    {manager next : TimerManager Callback} {ref : Nat}
    {change : Timer Callback → Timer Callback}
    (called : manager.onTimer ref change = some next) :
    manager.alive ref = true ∧
      next = manager.setTimer ref (change (manager.timers ref)) := by
  simp only [onTimer] at called
  split at called
  · rename_i alive
    exact ⟨alive, (Option.some.inj called).symm⟩
  · cases called

theorem of_expire
    {manager next : TimerManager Callback} {ref : Nat}
    (stepped : step manager (.expire ref) = some next) :
    ∃ timer called,
      (manager.timers ref).expire true true = some (timer, called) ∧
        next = manager.setTimer ref timer := by
  simp only [step] at stepped
  split at stepped
  · cases stepped
  · rename_i timer called expires
    exact ⟨timer, called, expires, (Option.some.inj stepped).symm⟩

theorem of_release
    {manager next : TimerManager Callback} {ref : Nat}
    (stepped : step manager (.release ref) = some next) :
    manager.held ref = true ∧ next = manager.release ref := by
  simp only [step] at stepped
  split at stepped
  · rename_i held
    exact ⟨held, (Option.some.inj stepped).symm⟩
  · cases stepped

/-- All that an action may do to the timer `ref`. -/
inductive Touched (action : TimerAction Callback) (ref : Nat)
    (before : Timer Callback) : Timer Callback → Prop where
  | kept : Touched action ref before before
  | reset : Touched action ref before before.reset
  | created (gets : action = .getTimer) :
      Touched action ref before Timer.create
  | started (starts : action.Starts ref) (interval : UInt32) (round : UInt64)
      (handler : TimerHandler Callback)
      (positive : action.Positive → 0 < round ∧ handler.Positive) :
      Touched action ref before
        (before.startRounds true true interval round handler).2
  | expired (called : Option Callback) (after : Timer Callback)
      (expires : before.expire true true = some (after, called)) :
      Touched action ref before after

/-- All that an action may do to the manager. -/
inductive Effect (action : TimerAction Callback)
    (manager : TimerManager Callback) : TimerManager Callback → Prop where
  | created (gets : action = .getTimer) :
      Effect action manager manager.getTimer.2
  | changed (ref : Nat) (timer : Timer Callback)
      (touched : Touched action ref (manager.timers ref) timer) :
      Effect action manager (manager.setTimer ref timer)
  | dropped (tMap : List (TimerId × Nat)) (held : Nat → Bool)
      (subset : tMap ⊆ manager.tMap)
      (stays : ∀ entry ∈ manager.tMap, entry ∈ tMap ∨
        action = .killTimer entry.1 ∨
        action = .auditTimer ∧ (manager.timers entry.2).isFinished = true) :
      Effect action manager { manager with tMap, held }.collect

theorem effect_onTimer
    {manager next : TimerManager Callback} {action : TimerAction Callback}
    {ref : Nat} {change : Timer Callback → Timer Callback}
    (touched : Touched action ref (manager.timers ref)
      (change (manager.timers ref)))
    (called : manager.onTimer ref change = some next) :
    Effect action manager next := by
  obtain ⟨_, rfl⟩ := of_onTimer called
  exact .changed ref _ touched

theorem effect_killTimer
    (manager : TimerManager Callback) (timerID : TimerId) :
    Effect (.killTimer timerID) manager (manager.killTimer timerID) := by
  apply Effect.dropped _ manager.held List.filter_sublist.subset
  intro entry listed
  by_cases same : entry.1 = timerID
  · subst same
    exact .inr (.inl rfl)
  · left
    apply List.mem_filter.mpr
    exact ⟨listed, bne_iff_ne.mpr same⟩

theorem effect_auditTimer (manager : TimerManager Callback) :
    Effect .auditTimer manager manager.auditTimer := by
  apply Effect.dropped _ manager.held List.filter_sublist.subset
  intro entry listed
  cases finished : (manager.timers entry.2).isFinished with
  | true => exact .inr (.inr ⟨rfl, rfl⟩)
  | false =>
      left
      apply List.mem_filter.mpr
      exact ⟨listed, by simp [finished]⟩

theorem effect_step
    {manager next : TimerManager Callback} {action : TimerAction Callback}
    (stepped : step manager action = some next) :
    Effect action manager next := by
  cases action with
  | getTimer =>
      cases stepped
      exact .created rfl
  | startOnce ref interval callback =>
      have starts : TimerAction.Starts ref
          (.startOnce ref interval callback) := rfl
      simp only [step] at stepped
      apply effect_onTimer _ stepped
      exact .started starts interval 1 (.call callback)
        (fun _ => ⟨by decide, trivial⟩)
  | startRounds ref interval round callback =>
      have starts : TimerAction.Starts ref
          (.startRounds ref interval round callback) := rfl
      simp only [step] at stepped
      apply effect_onTimer _ stepped
      exact .started starts interval round (.call callback)
        (fun positive => ⟨positive, trivial⟩)
  | startForever ref interval callback =>
      have starts : TimerAction.Starts ref
          (.startForever ref interval callback) := rfl
      simp only [step] at stepped
      apply effect_onTimer _ stepped
      exact .started starts interval 0xffffffff (.call callback)
        (fun _ => ⟨by decide, trivial⟩)
  | startAfter ref after interval round callback =>
      have starts : TimerAction.Starts ref
          (.startAfter ref after interval round callback) := rfl
      simp only [step] at stepped
      apply effect_onTimer _ stepped
      exact .started starts after 1 (.startRounds interval round callback)
        (fun positive => ⟨by decide, positive⟩)
  | expire ref =>
      obtain ⟨timer, called, expires, rfl⟩ := of_expire stepped
      exact .changed ref timer (.expired called timer expires)
  | stop ref =>
      simp only [step] at stepped
      apply effect_onTimer _ stepped
      exact .reset
  | release ref =>
      obtain ⟨_, rfl⟩ := of_release stepped
      exact .dropped manager.tMap _ (List.Subset.refl _)
        (fun _ listed => .inl listed)
  | killTimer timerID =>
      cases stepped
      exact effect_killTimer manager timerID
  | auditTimer =>
      cases stepped
      exact effect_auditTimer manager

/-- What every step does to every timer. -/
theorem touched_step
    {manager next : TimerManager Callback} {action : TimerAction Callback}
    (stepped : step manager action = some next) (ref : Nat) :
    Touched action ref (manager.timers ref) (next.timers ref) := by
  cases effect_step stepped with
  | created gets =>
      simp only [getTimer]
      by_cases same : ref = manager.issued.length
      · subst same
        rw [Function.update_self]
        exact .created gets
      · rw [Function.update_of_ne same]
        exact .kept
  | changed target timer touched =>
      simp only [setTimer]
      by_cases same : ref = target
      · subst same
        rw [Function.update_self]
        exact touched
      · rw [Function.update_of_ne same]
        exact .kept
  | dropped tMap held _ _ =>
      simp only [collect]
      split
      · exact .kept
      · exact .reset

theorem mem_emplace
    {tMap : List (TimerId × Nat)} {entry : TimerId × Nat}
    (listed : entry ∈ tMap) (tid : TimerId) (ref : Nat) :
    entry ∈ emplace tMap tid ref := by
  simp only [emplace]
  split
  · exact listed
  · exact List.mem_append_left _ listed

theorem of_mem_emplace
    {tMap : List (TimerId × Nat)} {entry : TimerId × Nat} {tid : TimerId}
    {ref : Nat} (listed : entry ∈ emplace tMap tid ref) :
    entry ∈ tMap ∨ entry = (tid, ref) := by
  simp only [emplace] at listed
  split at listed
  · exact .inl listed
  · rcases List.mem_append.mp listed with old | new
    · exact .inl old
    · exact .inr (List.mem_singleton.mp new)

/-- An entry leaves the map only when its id is killed, or in an audit that
finds its timer finished. -/
theorem mem_tMap_step
    {manager next : TimerManager Callback} {action : TimerAction Callback}
    (stepped : step manager action = some next) {entry : TimerId × Nat}
    (listed : entry ∈ manager.tMap) :
    entry ∈ next.tMap ∨ action = .killTimer entry.1 ∨
      action = .auditTimer ∧
        (manager.timers entry.2).isFinished = true := by
  cases effect_step stepped with
  | created _ => exact .inl (mem_emplace listed _ _)
  | changed _ _ _ => exact .inl listed
  | dropped _ _ _ stays => exact stays entry listed

/-- An audit leaves a listed timer that is not finished as it is. -/
theorem auditTimer_of_unfinished
    {manager : TimerManager Callback} {id : TimerId} {ref : Nat}
    (listed : (id, ref) ∈ manager.tMap)
    (unfinished : (manager.timers ref).isFinished = false) :
    (id, ref) ∈ manager.auditTimer.tMap ∧
      manager.auditTimer.timers ref = manager.timers ref := by
  have stays : (id, ref) ∈ manager.auditTimer.tMap := by
    apply List.mem_filter.mpr
    exact ⟨listed, by simp [unfinished]⟩
  refine ⟨stays, ?_⟩
  apply if_pos
  simp only [alive, Bool.or_eq_true]
  right
  rw [List.any_eq_true]
  exact ⟨(id, ref), stays, beq_self_eq_true ref⟩

/-- An audit never touches a timer without event. -/
theorem auditTimer_of_event_eq_none
    {manager : TimerManager Callback} {ref : Nat}
    (free : (manager.timers ref).event = none) :
    manager.auditTimer.timers ref = manager.timers ref := by
  simp only [auditTimer, collect]
  split
  · rfl
  · exact Timer.reset_of_event_eq_none free

/-! ### Timers and pointers that a step leaves alone -/

theorem timers_setTimer_of_ne
    (manager : TimerManager Callback) {target ref : Nat}
    (different : ref ≠ target) (timer : Timer Callback) :
    (manager.setTimer target timer).timers ref = manager.timers ref :=
  Function.update_of_ne different _ _

theorem timers_collect
    (manager : TimerManager Callback) (ref : Nat) :
    manager.collect.timers ref = manager.timers ref ∨
      manager.collect.timers ref = (manager.timers ref).reset := by
  simp only [collect]
  split
  · exact .inl rfl
  · exact .inr rfl

/-- The action starts the timer while it has no event. -/
def Arms (ref : Nat) (manager : TimerManager Callback)
    (action : TimerAction Callback) : Prop :=
  action.Starts ref ∧ (manager.timers ref).event = none

theorem kept_of_onTimer
    {manager next : TimerManager Callback} {target ref : Nat}
    {change : Timer Callback → Timer Callback}
    (refused : target = ref → change (manager.timers ref) = manager.timers ref)
    (called : manager.onTimer target change = some next) :
    next.timers ref = manager.timers ref := by
  obtain ⟨_, rfl⟩ := of_onTimer called
  by_cases same : target = ref
  · subst same
    rw [refused rfl]
    exact Function.update_self _ _ _
  · exact timers_setTimer_of_ne manager (Ne.symm same) _

theorem kept_of_start
    {manager next : TimerManager Callback} {target ref : Nat}
    (notArmed : target = ref → (manager.timers ref).event ≠ none)
    {interval : UInt32} {round : UInt64} {handler : TimerHandler Callback}
    (called : manager.onTimer target (fun timer =>
      (timer.startRounds true true interval round handler).2) = some next) :
    next.timers ref = manager.timers ref := by
  apply kept_of_onTimer _ called
  intro same
  obtain ⟨event, busy⟩ := Option.ne_none_iff_exists'.mp (notArmed same)
  rw [Timer.startRounds_of_event_eq_some busy]

/-- Unless it is created, armed or expires, a timer is left alone or reset. -/
theorem kept_or_reset_of_step
    {manager next : TimerManager Callback} {action : TimerAction Callback}
    {ref : Nat} (issued : ref < manager.issued.length)
    (notArmed : ¬ manager.Arms ref action) (notExpired : action ≠ .expire ref)
    (stepped : step manager action = some next) :
    next.timers ref = manager.timers ref ∨
      next.timers ref = (manager.timers ref).reset := by
  cases action with
  | getTimer =>
      cases stepped
      exact .inl (timers_setTimer_of_ne manager (Nat.ne_of_lt issued) _)
  | startOnce target interval callback =>
      exact .inl (kept_of_start (fun same free => notArmed ⟨same, free⟩)
        stepped)
  | startRounds target interval round callback =>
      exact .inl (kept_of_start (fun same free => notArmed ⟨same, free⟩)
        stepped)
  | startForever target interval callback =>
      exact .inl (kept_of_start (fun same free => notArmed ⟨same, free⟩)
        stepped)
  | startAfter target after interval round callback =>
      exact .inl (kept_of_start (fun same free => notArmed ⟨same, free⟩)
        stepped)
  | expire target =>
      obtain ⟨timer, _, _, rfl⟩ := of_expire stepped
      left
      apply timers_setTimer_of_ne
      intro same
      exact notExpired (congrArg TimerAction.expire same.symm)
  | stop target =>
      obtain ⟨_, rfl⟩ := of_onTimer stepped
      by_cases same : ref = target
      · subst same
        exact .inr (Function.update_self _ _ _)
      · exact .inl (timers_setTimer_of_ne manager same _)
  | release target =>
      obtain ⟨_, rfl⟩ := of_release stepped
      exact timers_collect _ ref
  | killTimer timerID =>
      cases stepped
      exact timers_collect _ ref
  | auditTimer =>
      cases stepped
      exact timers_collect _ ref

theorem length_issued_step
    {manager next : TimerManager Callback} {action : TimerAction Callback}
    (stepped : step manager action = some next) :
    manager.issued.length ≤ next.issued.length := by
  cases effect_step stepped with
  | created _ => simp [getTimer]
  | changed _ _ _ => exact Nat.le_refl _
  | dropped _ _ _ _ => exact Nat.le_refl _

theorem held_onTimer
    {manager next : TimerManager Callback} {target : Nat}
    {change : Timer Callback → Timer Callback}
    (called : manager.onTimer target change = some next) :
    next.held = manager.held := by
  obtain ⟨_, rfl⟩ := of_onTimer called
  rfl

/-- `getTimer` hands out a pointer to the new timer, and `release` gives one
up. -/
theorem held_step
    {manager next : TimerManager Callback} {action : TimerAction Callback}
    (stepped : step manager action = some next) (ref : Nat) :
    next.held ref = manager.held ref ∨
      action = .getTimer ∧ ref = manager.issued.length ∨
        action = .release ref ∧ next.held ref = false := by
  cases action with
  | getTimer =>
      cases stepped
      by_cases same : ref = manager.issued.length
      · exact .inr (.inl ⟨rfl, same⟩)
      · exact .inl (Function.update_of_ne same _ _)
  | expire target =>
      obtain ⟨_, _, _, rfl⟩ := of_expire stepped
      exact .inl rfl
  | release target =>
      obtain ⟨_, rfl⟩ := of_release stepped
      by_cases same : ref = target
      · subst same
        exact .inr (.inr ⟨rfl, Function.update_self _ _ _⟩)
      · exact .inl (Function.update_of_ne same _ _)
  | killTimer timerID =>
      cases stepped
      exact .inl rfl
  | auditTimer =>
      cases stepped
      exact .inl rfl
  | _ =>
      simp only [step] at stepped
      exact .inl (congrFun (held_onTimer stepped) ref)

/-! ### Invariants of the runs -/

theorem Touched.sound
    {action : TimerAction Callback} {ref : Nat}
    {before after : Timer Callback}
    (touched : Touched action ref before after)
    (positive : action.Positive) (sound : before.Sound) : after.Sound := by
  cases touched with
  | kept => exact sound
  | reset => exact sound.reset
  | created => exact Timer.sound_create
  | started _ interval round handler asked =>
      exact sound.startRounds interval (asked positive).1 (asked positive).2
  | expired called _ expires => exact sound.expire expires

/-- Only a start takes a timer out of the state in which it was created. -/
theorem Touched.unstarted
    {action : TimerAction Callback} {ref : Nat} {after : Timer Callback}
    (touched : Touched action ref Timer.create after)
    (notStarted : ¬ action.Starts ref) : after = Timer.create := by
  cases touched with
  | kept => rfl
  | reset => rfl
  | created => rfl
  | started starts => exact (notStarted starts).elim
  | expired _ _ expires => cases expires

theorem sound_run
    {uniqueID : TimerId} {state : TimerManager Callback}
    {actions : List (TimerAction Callback)}
    (positive : ∀ action ∈ actions, action.Positive)
    (ran : run step (create uniqueID) actions = some state) (ref : Nat) :
    (state.timers ref).Sound := by
  have kept : ∀ (manager : TimerManager Callback) action next,
      (∀ ref, (manager.timers ref).Sound) → action ∈ actions →
        step manager action = some next → ∀ ref, (next.timers ref).Sound := by
    intro manager action next sound listed stepped ref
    exact (touched_step stepped ref).sound (positive action listed) (sound ref)
  have initial : ∀ ref,
      ((create uniqueID : TimerManager Callback).timers ref).Sound :=
    fun _ => Timer.sound_create
  exact run_invariant_of_mem kept initial ran ref

theorem unstarted_run
    {uniqueID : TimerId} {state : TimerManager Callback}
    {actions : List (TimerAction Callback)} {ref : Nat}
    (notStarted : ∀ action ∈ actions, ¬ action.Starts ref)
    (ran : run step (create uniqueID) actions = some state) :
    state.timers ref = Timer.create := by
  have kept : ∀ (manager : TimerManager Callback) action next,
      manager.timers ref = Timer.create → action ∈ actions →
        step manager action = some next →
          next.timers ref = Timer.create := by
    intro manager action next unstarted listed stepped
    have touched := touched_step stepped ref
    rw [unstarted] at touched
    exact touched.unstarted (notStarted action listed)
  exact run_invariant_of_mem kept rfl ran

/-- Every entry is listed under the id that `getTimer` gave out for it. -/
def ListsIssued (manager : TimerManager Callback) : Prop :=
  ∀ entry ∈ manager.tMap, manager.issued[entry.2]? = some entry.1

theorem ListsIssued.step
    {manager next : TimerManager Callback} {action : TimerAction Callback}
    (lists : manager.ListsIssued)
    (stepped : TimerManager.step manager action = some next) :
    next.ListsIssued := by
  intro entry listed
  cases effect_step stepped with
  | created _ =>
      rcases of_mem_emplace listed with old | new
      · have inside := lists entry old
        rw [← inside]
        apply List.getElem?_append_left
        exact (List.getElem?_eq_some_iff.mp inside).1
      · subst new
        exact List.getElem?_concat_length
  | changed _ _ _ => exact lists entry listed
  | dropped _ _ subset _ => exact lists entry (subset listed)

/-- The ids are consecutive, up to the wrap of the counter. -/
structure Consecutive (first : TimerId) (manager : TimerManager Callback) :
    Prop where
  next : manager.uniqueIDAtomic = first + BitVec.ofNat 32 manager.issued.length
  issued : ∀ ref id, manager.issued[ref]? = some id →
    id = first + BitVec.ofNat 32 ref

theorem Consecutive.step
    {first : TimerId} {manager next : TimerManager Callback}
    {action : TimerAction Callback} (consecutive : manager.Consecutive first)
    (stepped : TimerManager.step manager action = some next) :
    next.Consecutive first := by
  cases effect_step stepped with
  | created _ =>
      constructor
      · simp only [getTimer, List.length_append, List.length_singleton]
        rw [consecutive.next, BitVec.ofNat_add, ← BitVec.add_assoc]
        rfl
      · intro ref id found
        simp only [getTimer, List.getElem?_append] at found
        split at found
        · exact consecutive.issued ref id found
        · rename_i atEnd
          rw [List.getElem?_singleton] at found
          split at found
          · cases found
            have last : ref = manager.issued.length := by omega
            rw [last, consecutive.next]
          · cases found
  | changed _ _ _ => exact ⟨consecutive.next, consecutive.issued⟩
  | dropped _ _ _ _ => exact ⟨consecutive.next, consecutive.issued⟩

theorem listsIssued_run
    {uniqueID : TimerId} {state : TimerManager Callback}
    {actions : List (TimerAction Callback)}
    (ran : run step (create uniqueID) actions = some state) :
    state.ListsIssued := by
  apply run_invariant (fun _ _ _ lists stepped => lists.step stepped) _ ran
  intro entry listed
  cases listed

/-- Only timers that `getTimer` has created have pointers to them. -/
def HoldsIssued (manager : TimerManager Callback) : Prop :=
  ∀ ref, manager.held ref = true → ref < manager.issued.length

theorem HoldsIssued.step
    {manager next : TimerManager Callback} {action : TimerAction Callback}
    (holds : manager.HoldsIssued)
    (stepped : TimerManager.step manager action = some next) :
    next.HoldsIssued := by
  intro ref held
  rcases held_step stepped ref with same | ⟨gets, new⟩ | ⟨_, given⟩
  · rw [same] at held
    exact Nat.lt_of_lt_of_le (holds ref held) (length_issued_step stepped)
  · subst gets
    cases stepped
    rw [new]
    simp [getTimer]
  · rw [given] at held
    cases held

theorem holdsIssued_run
    {uniqueID : TimerId} {state : TimerManager Callback}
    {actions : List (TimerAction Callback)}
    (ran : run step (create uniqueID) actions = some state) :
    state.HoldsIssued := by
  apply run_invariant (fun _ _ _ holds stepped => holds.step stepped) _ ran
  intro ref held
  cases held

/-- A timer that somebody points to has been created. -/
theorem issued_of_alive
    {manager : TimerManager Callback} (holds : manager.HoldsIssued)
    (lists : manager.ListsIssued) {ref : Nat}
    (alive : manager.alive ref = true) : ref < manager.issued.length := by
  simp only [TimerManager.alive, Bool.or_eq_true, List.any_eq_true] at alive
  rcases alive with held | ⟨entry, listed, same⟩
  · exact holds ref held
  · have issued := lists entry listed
    rw [eq_of_beq same] at issued
    exact (List.getElem?_eq_some_iff.mp issued).1

/-- As long as the ids do not wrap, every new timer is listed under its id. -/
theorem mem_tMap_getTimer
    {uniqueID : TimerId} {state : TimerManager Callback}
    {actions : List (TimerAction Callback)}
    (ran : run step (create uniqueID) actions = some state)
    (few : state.issued.length < 2 ^ 31) :
    state.getTimer.1 ∈ state.getTimer.2.tMap := by
  have lists := listsIssued_run ran
  have consecutive : state.Consecutive uniqueID := by
    apply run_invariant (fun _ _ _ holds stepped => holds.step stepped) _ ran
    constructor
    · simp [create]
    · intro ref id found
      cases found
  have unlisted : state.tMap.any
      (fun entry => entry.1 == state.uniqueIDAtomic) = false := by
    rw [List.any_eq_false]
    intro entry listed same
    have issued := lists entry listed
    have inside := (List.getElem?_eq_some_iff.mp issued).1
    have numbers := consecutive.issued entry.2 entry.1 issued
    rw [eq_of_beq same, consecutive.next] at numbers
    have values := congrArg BitVec.toNat numbers
    simp only [BitVec.toNat_add, BitVec.toNat_ofNat] at values
    omega
  simp only [getTimer, emplace, unlisted]
  exact List.mem_append_right _ (List.mem_singleton_self _)

/-- A timer that is armed, or that has never been started, leaves `t_map` only
when it is killed under its own id; `auditTimer` never removes it. -/
theorem auditTimer_sparesWorking
    {uniqueID : TimerId} {state next : TimerManager Callback}
    {actions : List (TimerAction Callback)} {action : TimerAction Callback}
    (positive : ∀ action ∈ actions, action.Positive)
    (ran : run step (create uniqueID) actions = some state)
    (stepped : step state action = some next) {id : TimerId} {ref : Nat}
    (listed : (id, ref) ∈ state.tMap)
    (working : (state.timers ref).Armed ∨
      ∀ action ∈ actions, ¬ action.Starts ref) :
    state.issued[ref]? = some id ∧
      ((id, ref) ∈ next.tMap ∨ action = .killTimer id) := by
  refine ⟨listsIssued_run ran (id, ref) listed, ?_⟩
  have unfinished : (state.timers ref).isFinished = false := by
    rcases working with armed | notStarted
    · exact (sound_run positive ran ref).not_isFinished_of_armed armed
    · rw [unstarted_run notStarted ran]
      rfl
  rcases mem_tMap_step stepped listed with stays | killed | ⟨_, finished⟩
  · exact .inl stays
  · exact .inr killed
  · rw [unfinished] at finished
    cases finished

theorem auditTimer_sparesWorking_armed :
    ∃ state next : TimerManager Unit,
      run step (create 1) [.getTimer, .startRounds 0 10 3 (), .expire 0] =
          some state ∧
        step state .auditTimer = some next ∧
          state.issued[0]? = some 1 ∧
            ((1, 0) ∈ next.tMap ∨
              (.auditTimer : TimerAction Unit) = .killTimer 1) := by
  have ran : run step (create 1)
      [.getTimer, .startRounds 0 10 3 (), .expire 0] = some _ := rfl
  refine ⟨_, _, ran, rfl, ?_⟩
  apply auditTimer_sparesWorking _ ran rfl
  · exact List.mem_singleton_self _
  · left
    exact ⟨_, rfl, rfl⟩
  · simp [TimerAction.Positive]

end TimerManager

end Translib

end DBWrapper
