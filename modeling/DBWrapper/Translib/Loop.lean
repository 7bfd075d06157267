import Mathlib.Data.List.Basic
import DBWrapper.Foundation.Runs

/-!
# The life of an event loop

The owner of a `Loop` starts it, waits for it, stops it and destroys it; the
thread that `start` creates runs `_run` in between, and it is this thread that
writes the status by which `start` and `wait` decide.  An execution of `_run`
by the owner itself, as `start(false)` does it, keeps the owner busy until it
ends.
-/

namespace DBWrapper

namespace Translib

open Foundation

inductive LoopStatus where
  | init
  | running
  | finished
  deriving DecidableEq, Repr

/-- Where an execution of `_run` is. -/
inductive RunPhase where
  | created
  /-- `StatusRunning` is set. -/
  | entering
  /-- In `event_base_loop`. -/
  | looping
  | left
  /-- `StatusFinished` is set, and the function has returned. -/
  | ended
  deriving DecidableEq, Repr

/-- What the owner is doing. -/
inductive OwnerPhase where
  | idle
  | inRun (number : Nat)
  /-- In the `join` of `wait`. -/
  | joining
  /-- In the destructor, behind its `stop`. -/
  | destroying
  /-- In the `join` of the destructor's `wait`. -/
  | destroyJoining
  | destroyed
  /-- `std::terminate` has been called out of the destructor. -/
  | terminated
  deriving DecidableEq, Repr

/-- `runs` are the executions of `_run`, one for each `start` that returns
true; `thread` is the execution that belongs to `_thread`, and `joined` has the
executions whose thread has been joined. -/
structure Loop where
  status : LoopStatus
  runs : List RunPhase
  thread : Option Nat
  joined : List Nat
  stopped : Bool
  owner : OwnerPhase
  deriving DecidableEq, Repr

inductive LoopAction where
  | start (newThread : Bool)
  | wait
  | stop
  | destroy
  /-- The `join` that the owner is in returns or throws. -/
  | join
  /-- The destructor's `wait` reads the status. -/
  | destroyWait
  | beginRun (number : Nat)
  | enter (number : Nat)
  /-- `noEvent` is whether no event is left in the event base. -/
  | leave (number : Nat) (noEvent : Bool)
  | finish (number : Nat)
  deriving DecidableEq, Repr

namespace Loop

/-- The constructor. -/
def create : Loop :=
  { status := .init, runs := [], thread := none, joined := [],
    stopped := false, owner := .idle }

def start (loop : Loop) (newThread : Bool) : Loop :=
  if loop.status ≠ .init then
    loop
  else if newThread then
    { loop with
      runs := loop.runs ++ [.created], thread := some loop.runs.length }
  else
    { loop with
      runs := loop.runs ++ [.created], owner := .inRun loop.runs.length }

/-- The first half of `wait`: whether it goes on to the `join`. -/
def waits (loop : Loop) : Bool :=
  loop.thread.isSome && loop.status != .finished

def stop (loop : Loop) : Loop :=
  if loop.status = .finished then loop else { loop with stopped := true }

/-- `delete _thread`, which terminates the process when the thread is still
joinable. -/
def deleteThread (loop : Loop) (number : Nat) : Loop :=
  if number ∈ loop.joined then { loop with owner := .destroyed }
  else { loop with owner := .terminated }

/-- Joining a thread that has been joined before throws; the destructor turns
the exception into `std::terminate`. -/
def join (loop : Loop) : Option Loop :=
  match loop.thread with
  | none => none
  | some number =>
      if number ∈ loop.joined then
        match loop.owner with
        | .joining => some { loop with owner := .idle }
        | .destroyJoining => some { loop with owner := .terminated }
        | _ => none
      else if loop.runs[number]? = some .ended then
        let loop' := { loop with joined := number :: loop.joined }
        match loop.owner with
        | .joining => some { loop' with owner := .idle }
        | .destroyJoining => some (loop'.deleteThread number)
        | _ => none
      else
        none

/-- The execution goes from one phase to another. -/
def advance (loop : Loop) (number : Nat) (before after : RunPhase) :
    Option Loop :=
  if loop.runs[number]? = some before then
    some { loop with runs := loop.runs.set number after }
  else
    none

def step (loop : Loop) : LoopAction → Option Loop
  | .start newThread =>
      if loop.owner = .idle then some (loop.start newThread) else none
  | .wait =>
      if loop.owner = .idle then
        some (if loop.waits then { loop with owner := .joining } else loop)
      else
        none
  | .stop =>
      match loop.owner with
      | .idle | .inRun _ => some loop.stop
      | _ => none
  | .destroy =>
      if loop.owner = .idle then
        match loop.thread with
        | none => some { loop with owner := .destroyed }
        | some _ => some { loop.stop with owner := .destroying }
      else
        none
  | .join => loop.join
  | .destroyWait =>
      match loop.owner, loop.thread with
      | .destroying, some number =>
          some (if loop.waits then { loop with owner := .destroyJoining }
            else loop.deleteThread number)
      | _, _ => none
  | .beginRun number =>
      (loop.advance number .created .entering).map fun loop =>
        { loop with status := .running }
  | .enter number => loop.advance number .entering .looping
  | .leave number noEvent =>
      if loop.stopped || noEvent then loop.advance number .looping .left
      else none
  | .finish number =>
      (loop.advance number .left .ended).map fun loop =>
        { loop with
          status := .finished
          owner := if loop.owner = .inRun number then .idle else loop.owner }

/-- `_run` has been executed at most once, and the destructor deletes no thread
that has not been joined. -/
structure Safe (loop : Loop) : Prop where
  once : loop.runs.length ≤ 1
  notTerminated : loop.owner ≠ .terminated
  joinedBefore : loop.owner = .destroyed →
    ∀ number, loop.thread = some number → number ∈ loop.joined

/-- No `start` finds `StatusInit` when an earlier one has already created a
thread, and the `wait` of the destructor does not find `StatusFinished` unless
an earlier `wait` has joined the thread. -/
def InTime (loop : Loop) : LoopAction → Prop
  | .start _ => loop.status = .init → loop.runs = []
  | .destroyWait => loop.status = .finished →
      ∀ number, loop.thread = some number → number ∈ loop.joined
  | _ => True

/-! ### Invariants of the runs -/

/-- What holds in every state: a joined thread has ended, and while there is
only one execution, the status tells its end and nobody joins its thread a
second time. -/
structure Consistent (loop : Loop) : Prop where
  joinedEnded : ∀ number ∈ loop.joined,
    loop.runs[number]? = some RunPhase.ended
  endedFinished : loop.runs.length ≤ 1 → ∀ number : Nat,
    loop.runs[number]? = some RunPhase.ended → loop.status = .finished
  joinsOnce : loop.runs.length ≤ 1 →
    loop.owner = .joining ∨ loop.owner = .destroyJoining →
      ∀ number, loop.thread = some number → number ∉ loop.joined

theorem advance_eq_some
    {loop next : Loop} {number : Nat} {before after : RunPhase}
    (advanced : loop.advance number before after = some next) :
    loop.runs[number]? = some before ∧
      next = { loop with runs := loop.runs.set number after } := by
  simp only [advance] at advanced
  split at advanced
  · rename_i here
    exact ⟨here, (Option.some.inj advanced).symm⟩
  · cases advanced

/-- The steps of `_run` keep the invariant: the execution that moves has not
ended before, and when it ends the status says so. -/
theorem Consistent.advance
    {loop : Loop} (consistent : loop.Consistent) {number : Nat}
    {before after : RunPhase} {status : LoopStatus} {owner : OwnerPhase}
    (here : loop.runs[number]? = some before) (moving : before ≠ .ended)
    (ends : after = .ended → status = .finished)
    (joining : owner = .joining ∨ owner = .destroyJoining →
      owner = loop.owner) :
    Consistent
      { loop with runs := loop.runs.set number after, status, owner } := by
  have inside := (List.getElem?_eq_some_iff.mp here).1
  constructor
  · intro other isJoined
    have ended := consistent.joinedEnded other isJoined
    have different : number ≠ other := by
      intro same
      subst same
      rw [here] at ended
      exact moving (Option.some.inj ended)
    rw [List.getElem?_set_ne different]
    exact ended
  · intro single other ended
    simp only [List.length_set] at single
    have bound := (List.getElem?_eq_some_iff.mp ended).1
    simp only [List.length_set] at bound
    have same : other = number := by omega
    subst same
    rw [List.getElem?_set_self inside] at ended
    exact ends (Option.some.inj ended)
  · intro single waiting other isThread
    simp only [List.length_set] at single
    have unchanged := joining waiting
    rw [unchanged] at waiting
    exact consistent.joinsOnce single waiting other isThread

/-- The owner moves and the executions stay where they are. -/
theorem Consistent.setOwner
    {loop : Loop} (consistent : loop.Consistent) (owner : OwnerPhase)
    (joining : owner = .joining ∨ owner = .destroyJoining →
      loop.status ≠ .finished) : Consistent { loop with owner } := by
  refine ⟨consistent.joinedEnded, consistent.endedFinished, ?_⟩
  intro single waiting number _ isJoined
  have ended := consistent.joinedEnded number isJoined
  exact joining waiting (consistent.endedFinished single number ended)

theorem Consistent.deleteThread
    {loop : Loop} (consistent : loop.Consistent) (number : Nat) :
    (loop.deleteThread number).Consistent := by
  simp only [Loop.deleteThread]
  split
  · exact consistent.setOwner .destroyed (by simp)
  · exact consistent.setOwner .terminated (by simp)

theorem Consistent.start
    {loop : Loop} (consistent : loop.Consistent) (idle : loop.owner = .idle)
    (newThread : Bool) : (loop.start newThread).Consistent := by
  have grown : ∀ (thread : Option Nat) (owner : OwnerPhase),
      ¬ (owner = .joining ∨ owner = .destroyJoining) →
        Consistent
          { loop with runs := loop.runs ++ [.created], thread, owner } := by
    intro thread owner notJoining
    constructor
    · intro number isJoined
      have ended := consistent.joinedEnded number isJoined
      rw [List.getElem?_append_left (List.getElem?_eq_some_iff.mp ended).1]
      exact ended
    · intro single number ended
      simp only [List.length_append, List.length_singleton] at single
      have none := List.length_eq_zero_iff.mp (by omega : loop.runs.length = 0)
      rw [none, List.nil_append, List.getElem?_singleton] at ended
      split at ended
      · cases ended
      · cases ended
    · intro _ waiting
      exact (notJoining waiting).elim
  simp only [Loop.start]
  split
  · exact consistent
  · split
    · exact grown _ _ (by simp [idle])
    · exact grown _ _ (by simp)

theorem waits_iff (loop : Loop) :
    loop.waits = true ↔ loop.thread.isSome ∧ loop.status ≠ .finished := by
  simp [waits]

/-- The thread has ended and is joined; the owner goes on. -/
theorem Consistent.setJoined
    {loop : Loop} (consistent : loop.Consistent) {number : Nat}
    (ended : loop.runs[number]? = some .ended) {owner : OwnerPhase}
    (notJoining : ¬ (owner = .joining ∨ owner = .destroyJoining)) :
    Consistent { loop with joined := number :: loop.joined, owner } := by
  refine ⟨?_, consistent.endedFinished, ?_⟩
  · intro other isJoined
    rcases List.mem_cons.mp isJoined with same | older
    · rw [same]
      exact ended
    · exact consistent.joinedEnded other older
  · intro _ waiting
    exact (notJoining waiting).elim

theorem deleteThread_of_mem
    {loop : Loop} {number : Nat} (isJoined : number ∈ loop.joined) :
    loop.deleteThread number = { loop with owner := .destroyed } := by
  simp [deleteThread, isJoined]

/-- The ways in which the `join` of the owner can end. -/
theorem join_eq_some
    {loop next : Loop} (joined : loop.join = some next) :
    ∃ number, loop.thread = some number ∧
      (number ∈ loop.joined ∧
          (loop.owner = .joining ∧ next = { loop with owner := .idle } ∨
            loop.owner = .destroyJoining ∧
              next = { loop with owner := .terminated }) ∨
        loop.runs[number]? = some .ended ∧
          (loop.owner = .joining ∧
              next = { loop with
                joined := number :: loop.joined, owner := .idle } ∨
            loop.owner = .destroyJoining ∧
              next = { loop with
                joined := number :: loop.joined, owner := .destroyed })) := by
  simp only [join] at joined
  split at joined
  · cases joined
  · rename_i number isThread
    refine ⟨number, isThread, ?_⟩
    split at joined
    · rename_i isJoined
      left
      refine ⟨isJoined, ?_⟩
      split at joined
      · rename_i joining
        exact .inl ⟨joining, (Option.some.inj joined).symm⟩
      · rename_i joining
        exact .inr ⟨joining, (Option.some.inj joined).symm⟩
      · cases joined
    · split at joined
      · rename_i ended
        right
        refine ⟨ended, ?_⟩
        split at joined
        · rename_i joining
          exact .inl ⟨joining, (Option.some.inj joined).symm⟩
        · rename_i joining
          rw [deleteThread_of_mem List.mem_cons_self] at joined
          exact .inr ⟨joining, (Option.some.inj joined).symm⟩
        · cases joined
      · cases joined

theorem Consistent.join
    {loop next : Loop} (consistent : loop.Consistent)
    (joined : loop.join = some next) : next.Consistent := by
  obtain ⟨number, _, ends⟩ := join_eq_some joined
  rcases ends with ⟨_, throws⟩ | ⟨ended, returns⟩
  · rcases throws with ⟨_, rfl⟩ | ⟨_, rfl⟩
    · exact consistent.setOwner .idle (by simp)
    · exact consistent.setOwner .terminated (by simp)
  · rcases returns with ⟨_, rfl⟩ | ⟨_, rfl⟩
    · exact consistent.setJoined ended (by simp)
    · exact consistent.setJoined ended (by simp)

theorem Consistent.stop {loop : Loop} (consistent : loop.Consistent) :
    loop.stop.Consistent := by
  simp only [Loop.stop]
  split
  · exact consistent
  · exact ⟨consistent.joinedEnded, consistent.endedFinished,
      consistent.joinsOnce⟩

theorem Consistent.step
    {loop next : Loop} {action : LoopAction} (consistent : loop.Consistent)
    (stepped : Loop.step loop action = some next) : next.Consistent := by
  cases action with
  | start newThread =>
      simp only [Loop.step] at stepped
      split at stepped
      · rename_i idle
        cases stepped
        exact consistent.start idle newThread
      · cases stepped
  | wait =>
      simp only [Loop.step] at stepped
      split at stepped
      · cases stepped
        split
        · rename_i waits
          exact consistent.setOwner .joining
            (fun _ => (loop.waits_iff.mp waits).2)
        · exact consistent
      · cases stepped
  | stop =>
      simp only [Loop.step] at stepped
      split at stepped
      · cases stepped
        exact consistent.stop
      · cases stepped
        exact consistent.stop
      · cases stepped
  | destroy =>
      simp only [Loop.step] at stepped
      split at stepped
      · split at stepped
        · cases stepped
          exact consistent.setOwner .destroyed (by simp)
        · cases stepped
          exact consistent.stop.setOwner .destroying (by simp)
      · cases stepped
  | join => exact consistent.join stepped
  | destroyWait =>
      simp only [Loop.step] at stepped
      split at stepped
      · cases stepped
        split
        · rename_i waits
          exact consistent.setOwner .destroyJoining
            (fun _ => (loop.waits_iff.mp waits).2)
        · exact consistent.deleteThread _
      · cases stepped
  | beginRun number =>
      obtain ⟨moved, advanced, rfl⟩ := Option.map_eq_some_iff.mp stepped
      obtain ⟨here, rfl⟩ := advance_eq_some advanced
      exact consistent.advance here (by simp) (by simp) (fun _ => rfl)
  | enter number =>
      obtain ⟨here, rfl⟩ := advance_eq_some stepped
      exact consistent.advance here (by simp) (by simp) (fun _ => rfl)
  | leave number noEvent =>
      simp only [Loop.step] at stepped
      split at stepped
      · obtain ⟨here, rfl⟩ := advance_eq_some stepped
        exact consistent.advance here (by simp) (by simp) (fun _ => rfl)
      · cases stepped
  | finish number =>
      obtain ⟨moved, advanced, rfl⟩ := Option.map_eq_some_iff.mp stepped
      obtain ⟨here, rfl⟩ := advance_eq_some advanced
      apply consistent.advance here (by simp) (fun _ => rfl)
      intro waiting
      by_cases inRun : loop.owner = .inRun number
      · simp [inRun] at waiting
      · simp [inRun]

/-! ### Exactly which steps are safe -/

/-- Outside the end of the destructor only the number of executions counts. -/
theorem safe_iff_of_owner
    (loop : Loop) (notDestroyed : loop.owner ≠ .destroyed)
    (notTerminated : loop.owner ≠ .terminated) :
    loop.Safe ↔ loop.runs.length ≤ 1 := by
  constructor
  · intro safe
    exact safe.once
  · intro once
    exact ⟨once, notTerminated, fun destroyed => (notDestroyed destroyed).elim⟩

theorem owner_stop (loop : Loop) : loop.stop.owner = loop.owner := by
  simp only [stop]
  split <;> rfl

theorem runs_stop (loop : Loop) : loop.stop.runs = loop.runs := by
  simp only [stop]
  split <;> rfl

theorem status_stop (loop : Loop) : loop.stop.status = loop.status := by
  simp only [stop]
  split <;> rfl

theorem safe_start_iff
    {loop : Loop} (idle : loop.owner = .idle) (newThread : Bool) :
    (loop.start newThread).Safe ↔
      loop.Safe ∧ (loop.status = .init → loop.runs = []) := by
  by_cases initial : loop.status = .init
  · have grown : (loop.start newThread).Safe ↔ loop.runs = [] := by
      rw [safe_iff_of_owner (loop.start newThread)]
      · cases newThread <;> simp [start, initial]
      · cases newThread <;> simp [start, initial, idle]
      · cases newThread <;> simp [start, initial, idle]
    rw [grown, safe_iff_of_owner loop (by simp [idle]) (by simp [idle])]
    constructor
    · intro none
      exact ⟨by simp [none], fun _ => none⟩
    · intro both
      exact both.2 initial
  · have refused : loop.start newThread = loop := by
      simp [start, initial]
    simp [refused, initial]

/-- Deleting the thread is safe exactly if it has been joined. -/
theorem safe_deleteThread_iff
    {loop : Loop} {number : Nat} (isThread : loop.thread = some number)
    (destroying : loop.owner = .destroying) :
    (loop.deleteThread number).Safe ↔
      loop.Safe ∧ number ∈ loop.joined := by
  rw [safe_iff_of_owner loop (by simp [destroying]) (by simp [destroying])]
  by_cases isJoined : number ∈ loop.joined
  · rw [deleteThread_of_mem isJoined]
    constructor
    · intro safe
      exact ⟨safe.once, isJoined⟩
    · intro both
      refine ⟨both.1, by simp, ?_⟩
      intro _ other found
      rw [isThread] at found
      cases found
      exact isJoined
  · constructor
    · intro safe
      exact (safe.notTerminated (by simp [deleteThread, isJoined])).elim
    · intro both
      exact (isJoined both.2).elim

/-- Throwing out of a `join` in the destructor needs a second execution. -/
theorem safe_join_iff
    {loop next : Loop} (consistent : loop.Consistent)
    (joined : loop.join = some next) : next.Safe ↔ loop.Safe := by
  obtain ⟨number, isThread, ends⟩ := join_eq_some joined
  rcases ends with ⟨isJoined, throws⟩ | ⟨ended, returns⟩
  · rcases throws with ⟨joining, rfl⟩ | ⟨joining, rfl⟩
    · rw [safe_iff_of_owner _ (by simp) (by simp),
        safe_iff_of_owner loop (by simp [joining]) (by simp [joining])]
    · apply iff_of_false
      · intro safe
        exact safe.notTerminated rfl
      · intro safe
        exact consistent.joinsOnce safe.once (.inr joining) number isThread
          isJoined
  · rcases returns with ⟨joining, rfl⟩ | ⟨joining, rfl⟩
    · rw [safe_iff_of_owner _ (by simp) (by simp),
        safe_iff_of_owner loop (by simp [joining]) (by simp [joining])]
    · rw [safe_iff_of_owner loop (by simp [joining]) (by simp [joining])]
      constructor
      · intro safe
        exact safe.once
      · intro once
        refine ⟨once, by simp, ?_⟩
        intro _ other found
        rw [isThread] at found
        cases found
        exact List.mem_cons_self

theorem safe_destroyWait_iff
    {loop next : Loop}
    (stepped : Loop.step loop .destroyWait = some next) :
    next.Safe ↔ loop.Safe ∧ loop.InTime .destroyWait := by
  simp only [Loop.step] at stepped
  split at stepped
  · rename_i number destroying isThread
    cases stepped
    simp only [InTime, isThread, Option.some.injEq, forall_eq']
    split
    · rename_i waits
      have notFinished := (loop.waits_iff.mp waits).2
      rw [safe_iff_of_owner _ (by simp) (by simp),
        safe_iff_of_owner loop (by simp [destroying]) (by simp [destroying])]
      simp [notFinished]
    · rename_i notWaiting
      have finished : loop.status = .finished := by
        by_contra notFinished
        exact notWaiting (loop.waits_iff.mpr ⟨by simp [isThread], notFinished⟩)
      rw [safe_deleteThread_iff isThread destroying]
      simp [finished]
  · cases stepped

/-- An execution of `_run` moves on; the owner returns to its calls at most. -/
theorem safe_advance_iff
    {loop : Loop} {number : Nat} {after : RunPhase} {status : LoopStatus}
    {owner : OwnerPhase}
    (same : owner = loop.owner ∨
      loop.owner = .inRun number ∧ owner = .idle) :
    Safe { loop with runs := loop.runs.set number after, status, owner } ↔
      loop.Safe := by
  rcases same with same | ⟨inRun, returned⟩
  · subst same
    constructor
    · intro safe
      have once := safe.once
      simp only [List.length_set] at once
      exact ⟨once, safe.notTerminated, safe.joinedBefore⟩
    · intro safe
      exact ⟨by simp [safe.once], safe.notTerminated, safe.joinedBefore⟩
  · subst returned
    rw [safe_iff_of_owner _ (by simp) (by simp),
      safe_iff_of_owner loop (by simp [inRun]) (by simp [inRun])]
    simp

/-- The owner moves between its calls; nothing else changes. -/
theorem safe_setOwner_iff
    {loop : Loop} (idle : loop.owner = .idle) {owner : OwnerPhase}
    (notDestroyed : owner ≠ .destroyed) (notTerminated : owner ≠ .terminated) :
    Safe { loop with owner } ↔ loop.Safe := by
  rw [safe_iff_of_owner _ notDestroyed notTerminated,
    safe_iff_of_owner loop (by simp [idle]) (by simp [idle])]

theorem safe_stop_iff
    {loop : Loop} {owner : OwnerPhase} (notDestroyed : owner ≠ .destroyed)
    (notTerminated : owner ≠ .terminated)
    (before : loop.owner ≠ .destroyed ∧ loop.owner ≠ .terminated) :
    Safe { loop.stop with owner } ↔ loop.Safe := by
  rw [safe_iff_of_owner _ notDestroyed notTerminated,
    safe_iff_of_owner loop before.1 before.2, runs_stop]

theorem safe_step_iff
    {loop next : Loop} {action : LoopAction} (consistent : loop.Consistent)
    (stepped : Loop.step loop action = some next) :
    next.Safe ↔ loop.Safe ∧ loop.InTime action := by
  cases action with
  | start newThread =>
      simp only [Loop.step] at stepped
      split at stepped
      · rename_i idle
        cases stepped
        exact safe_start_iff idle newThread
      · cases stepped
  | wait =>
      simp only [Loop.step] at stepped
      simp only [InTime, and_true]
      split at stepped
      · rename_i idle
        cases stepped
        split
        · exact safe_setOwner_iff idle (by simp) (by simp)
        · exact Iff.rfl
      · cases stepped
  | stop =>
      simp only [Loop.step] at stepped
      simp only [InTime, and_true]
      split at stepped
      · rename_i idle
        cases stepped
        rw [safe_iff_of_owner _ (by simp [owner_stop, idle])
          (by simp [owner_stop, idle]),
          safe_iff_of_owner loop (by simp [idle]) (by simp [idle]), runs_stop]
      · rename_i inRun
        cases stepped
        rw [safe_iff_of_owner _ (by simp [owner_stop, inRun])
          (by simp [owner_stop, inRun]),
          safe_iff_of_owner loop (by simp [inRun]) (by simp [inRun]),
          runs_stop]
      · cases stepped
  | destroy =>
      simp only [Loop.step] at stepped
      simp only [InTime, and_true]
      split at stepped
      · rename_i idle
        split at stepped
        · rename_i none
          cases stepped
          rw [safe_iff_of_owner loop (by simp [idle]) (by simp [idle])]
          constructor
          · intro safe
            exact safe.once
          · intro once
            exact ⟨once, by simp, by simp [none]⟩
        · cases stepped
          exact safe_stop_iff (by simp) (by simp) (by simp [idle])
      · cases stepped
  | join =>
      simp only [InTime, and_true]
      exact safe_join_iff consistent stepped
  | destroyWait => exact safe_destroyWait_iff stepped
  | beginRun number =>
      obtain ⟨moved, advanced, rfl⟩ := Option.map_eq_some_iff.mp stepped
      obtain ⟨_, rfl⟩ := advance_eq_some advanced
      simp only [InTime, and_true]
      exact safe_advance_iff (.inl rfl)
  | enter number =>
      obtain ⟨_, rfl⟩ := advance_eq_some stepped
      simp only [InTime, and_true]
      exact safe_advance_iff (.inl rfl)
  | leave number noEvent =>
      simp only [Loop.step] at stepped
      simp only [InTime, and_true]
      split at stepped
      · obtain ⟨_, rfl⟩ := advance_eq_some stepped
        exact safe_advance_iff (.inl rfl)
      · cases stepped
  | finish number =>
      obtain ⟨moved, advanced, rfl⟩ := Option.map_eq_some_iff.mp stepped
      obtain ⟨_, rfl⟩ := advance_eq_some advanced
      simp only [InTime, and_true]
      apply safe_advance_iff
      by_cases inRun : loop.owner = .inRun number
      · exact .inr ⟨inRun, by simp [inRun]⟩
      · exact .inl (by simp [inRun])

theorem consistent_create : create.Consistent := by
  constructor
  · intro number isJoined
    cases isJoined
  · intro _ number ended
    cases ended
  · intro _ waiting
    simp [create] at waiting

theorem safe_create : create.Safe :=
  ⟨by simp [create], by simp [create], by simp [create]⟩

/-- A run of a loop's owner and its threads is safe exactly if every `start`
and the destructor's `wait` come in time. -/
theorem lifecycle_safe_iff
    {loop : Loop} {actions : List LoopAction}
    (ran : run step create actions = some loop) :
    loop.Safe ↔ AllSteps step InTime create actions := by
  have exactly := run_iff_allSteps
    (fun _ _ _ consistent stepped => Consistent.step consistent stepped)
    (fun _ _ _ consistent stepped => safe_step_iff consistent stepped)
    consistent_create ran
  rw [exactly]
  exact and_iff_right safe_create

theorem lifecycle_safe_iff_joined :
    ∃ loop, run step create
        [.start true, .beginRun 0, .wait, .enter 0, .leave 0 true, .finish 0,
          .join, .destroy] = some loop ∧
      (loop.Safe ↔ AllSteps step InTime create
        [.start true, .beginRun 0, .wait, .enter 0, .leave 0 true, .finish 0,
          .join, .destroy]) :=
  ⟨_, rfl, lifecycle_safe_iff rfl⟩

/-- Two starts before the first thread runs execute `_run` twice; and a thread
that ends between the `stop` and the `wait` of the destructor is deleted while
it is joinable. -/
theorem lifecycle_unsafe :
    (∃ loop, run step create [.start true, .start true] = some loop ∧
        loop.runs.length = 2 ∧ ¬ loop.Safe) ∧
      ∃ loop, run step create
          [.start true, .beginRun 0, .enter 0, .destroy, .leave 0 false,
            .finish 0, .destroyWait] = some loop ∧
        loop.owner = .terminated ∧ ¬ loop.Safe := by
  constructor
  · refine ⟨_, rfl, rfl, ?_⟩
    intro safe
    exact (by decide : ¬ 2 ≤ 1) safe.once
  · refine ⟨_, rfl, rfl, ?_⟩
    intro safe
    exact safe.notTerminated rfl

end Loop

end Translib

end DBWrapper
