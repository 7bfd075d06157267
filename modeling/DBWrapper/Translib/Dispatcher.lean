import Mathlib.Data.List.Basic
import DBWrapper.Foundation.Latch

/-!
# The session table of the TCP dispatcher

`addSession` and `removeSession` only queue an action; `onFrame`, which runs in
the loop thread of the dispatcher, carries the actions out.  While it attaches
a session it calls the server's `onNewSession`, which may queue further
actions: the mutex is recursive, so the thread that holds it is not blocked,
and everybody else is.  The action that is being carried out stays at the front
of the queue until it is done.
-/

namespace DBWrapper

namespace Translib

open Foundation

abbrev SessionId := UInt64

abbrev SocketFd := Int

def socketFdInvalid : SocketFd := -1

structure SessionAction where
  id : SessionId
  sock : SocketFd
  deriving DecidableEq, Repr

/-- `bev` is the descriptor of the buffer event. -/
structure TcpSession where
  id : SessionId
  bev : Option SocketFd
  deriving DecidableEq, Repr

namespace TcpSession

/-- `attach` up to the call of `onNewSession`; `opened` and `enabled` are
whether `bufferevent_socket_new` and `bufferevent_enable` succeed. -/
def attach (opened enabled : Bool) (id : SessionId) (sock : SocketFd) :
    Bool × TcpSession :=
  if sock = socketFdInvalid then
    (false, { id, bev := none })
  else if !opened then
    (false, { id, bev := none })
  else if !enabled then
    (false, { id, bev := none })
  else
    (true, { id, bev := some sock })

end TcpSession

/-- Where the loop thread is in `onFrame`. -/
inductive FramePhase where
  | outside
  | inLoop
  /-- In `onNewSession`, which `attach` has called. -/
  | attaching (session : TcpSession)
  deriving DecidableEq, Repr

/-- `handled` records the actions that have been carried out, each with the
result of `attach`. -/
structure Dispatcher where
  sessions : Std.TreeMap SessionId TcpSession compare
  actions : List SessionAction
  phase : FramePhase
  handled : List (SessionAction × Bool)

inductive DispatcherStep where
  | addSession (id : SessionId) (sock : SocketFd)
  | removeSession (id : SessionId)
  /-- `onFrame` up to its loop. -/
  | onFrame
  /-- One turn of the loop, up to `onNewSession` if a session is attached. -/
  | turn (opened enabled : Bool)
  /-- `onNewSession` returns, and the turn ends. -/
  | attached
  deriving DecidableEq, Repr

namespace Dispatcher

def create : Dispatcher :=
  { sessions := ∅, actions := [], phase := .outside, handled := [] }

/-- Nobody gets the mutex while the loop thread holds it, except for the calls
out of `onNewSession`. -/
def push (dispatcher : Dispatcher) (action : SessionAction) :
    Option Dispatcher :=
  match dispatcher.phase with
  | .inLoop => none
  | _ => some { dispatcher with actions := dispatcher.actions ++ [action] }

/-- `_actions.pop()` at the end of a turn. -/
def pop (dispatcher : Dispatcher) (result : Bool) : Dispatcher :=
  match dispatcher.actions with
  | [] => dispatcher
  | action :: actions =>
      { dispatcher with
        actions, phase := .inLoop
        handled := dispatcher.handled ++ [(action, result)] }

def turn (dispatcher : Dispatcher) (opened enabled : Bool) : Dispatcher :=
  match dispatcher.actions with
  | [] => { dispatcher with phase := .outside }
  | action :: _ =>
      if action.sock ≠ socketFdInvalid then
        match TcpSession.attach opened enabled action.id action.sock with
        | (true, session) => { dispatcher with phase := .attaching session }
        | (false, _) => dispatcher.pop false
      else
        { dispatcher with
          sessions := dispatcher.sessions.erase action.id }.pop false

def step (dispatcher : Dispatcher) : DispatcherStep → Option Dispatcher
  | .addSession id sock => dispatcher.push { id, sock }
  | .removeSession id => dispatcher.push { id, sock := socketFdInvalid }
  | .onFrame =>
      match dispatcher.phase with
      | .outside =>
          some (if dispatcher.actions.isEmpty then dispatcher
            else { dispatcher with phase := .inLoop })
      | _ => none
  | .turn opened enabled =>
      match dispatcher.phase with
      | .inLoop => some (dispatcher.turn opened enabled)
      | _ => none
  | .attached =>
      match dispatcher.phase with
      | .attaching session =>
          some ({ dispatcher with
            sessions := dispatcher.sessions.insert session.id session }.pop
              true)
      | _ => none

/-- What carrying an action out does to the session table. -/
def takeEffect (sessions : Std.TreeMap SessionId TcpSession compare)
    (entry : SessionAction × Bool) :
    Std.TreeMap SessionId TcpSession compare :=
  if entry.1.sock ≠ socketFdInvalid then
    if entry.2 then
      sessions.insert entry.1.id { id := entry.1.id, bev := some entry.1.sock }
    else
      sessions
  else
    sessions.erase entry.1.id

/-- The action has added the session: it was attached. -/
def Adds (id : SessionId) (entry : SessionAction × Bool) : Prop :=
  entry.1.id = id ∧ entry.1.sock ≠ socketFdInvalid ∧ entry.2 = true

def Removes (id : SessionId) (entry : SessionAction × Bool) : Prop :=
  entry.1.id = id ∧ entry.1.sock = socketFdInvalid

end Dispatcher

/-- The action that a call queues. -/
def DispatcherStep.queued? : DispatcherStep → Option SessionAction
  | .addSession id sock => some { id, sock }
  | .removeSession id => some { id, sock := socketFdInvalid }
  | _ => none

namespace Dispatcher

/-! ### The table as a fold -/

theorem mem_takeEffect
    (sessions : Std.TreeMap SessionId TcpSession compare)
    (entry : SessionAction × Bool) (id : SessionId) :
    id ∈ takeEffect sessions entry ↔
      Adds id entry ∨ id ∈ sessions ∧ ¬ Removes id entry := by
  obtain ⟨action, result⟩ := entry
  simp only [takeEffect, Adds, Removes]
  by_cases removal : action.sock = socketFdInvalid
  · simp only [removal, ne_eq, not_true_eq_false, if_false,
      Std.TreeMap.mem_erase, Std.compare_eq_iff_eq, false_and, and_false, and_true,
      false_or]
    exact and_comm
  · cases result with
    | true => simp [removal, Std.TreeMap.mem_insert]
    | false => simp [removal]

theorem mem_foldl_takeEffect
    (handled : List (SessionAction × Bool)) (id : SessionId) :
    id ∈ handled.foldl takeEffect ∅ ↔
      Latched (Adds id) (Removes id) handled := by
  induction handled using List.reverseRecOn with
  | nil => simp [not_latched_nil]
  | append_singleton handled entry induction =>
      rw [List.foldl_append, List.foldl_cons, List.foldl_nil, mem_takeEffect,
        latched_append_singleton, induction]

/-! ### Invariants of the runs -/

theorem attach_eq_true
    {opened enabled : Bool} {id : SessionId} {sock : SocketFd}
    {session : TcpSession}
    (attached : TcpSession.attach opened enabled id sock = (true, session)) :
    session = { id, bev := some sock } := by
  simp only [TcpSession.attach] at attached
  split at attached
  · cases attached
  · split at attached
    · cases attached
    · split at attached
      · cases attached
      · cases attached
        rfl

/-- `queued` are the actions that have been queued so far. -/
structure Ordered (queued : List SessionAction) (dispatcher : Dispatcher) :
    Prop where
  order : queued = dispatcher.handled.map Prod.fst ++ dispatcher.actions
  table : dispatcher.sessions = dispatcher.handled.foldl takeEffect ∅
  front : ∀ session, dispatcher.phase = .attaching session →
    ∃ action actions, dispatcher.actions = action :: actions ∧
      action.sock ≠ socketFdInvalid ∧
        session = { id := action.id, bev := some action.sock }

theorem ordered_create : create.Ordered [] := by
  refine ⟨rfl, rfl, ?_⟩
  intro session attaching
  cases attaching

/-- The front is not touched by an action that is queued behind it. -/
theorem Ordered.push
    {queued : List SessionAction} {dispatcher next : Dispatcher}
    {action : SessionAction} (ordered : dispatcher.Ordered queued)
    (pushed : dispatcher.push action = some next) :
    next.Ordered (queued ++ [action]) := by
  simp only [Dispatcher.push] at pushed
  split at pushed
  · cases pushed
  · cases pushed
    refine ⟨?_, ordered.table, ?_⟩
    · rw [ordered.order, List.append_assoc]
    · intro session attaching
      obtain ⟨front, actions, here, valid, same⟩ :=
        ordered.front session attaching
      exact ⟨front, actions ++ [action], by simp [here], valid, same⟩

/-- At the end of a turn the table is what the action makes of it. -/
theorem Ordered.pop
    {queued : List SessionAction} {dispatcher : Dispatcher}
    {action : SessionAction} {actions : List SessionAction}
    (ordered : dispatcher.Ordered queued)
    (here : dispatcher.actions = action :: actions) (result : Bool) :
    Ordered queued
      ({ dispatcher with
        sessions := takeEffect dispatcher.sessions (action, result) }.pop
          result) := by
  simp only [Dispatcher.pop, here]
  refine ⟨?_, ?_, ?_⟩
  · rw [ordered.order, here]
    simp
  · simp only [List.foldl_append, List.foldl_cons, List.foldl_nil]
    rw [← ordered.table]
  · intro session attaching
    cases attaching

theorem Ordered.turn
    {queued : List SessionAction} {dispatcher : Dispatcher}
    (ordered : dispatcher.Ordered queued) (opened enabled : Bool) :
    (dispatcher.turn opened enabled).Ordered queued := by
  simp only [Dispatcher.turn]
  split
  · refine ⟨ordered.order, ordered.table, ?_⟩
    intro session attaching
    cases attaching
  · rename_i action actions here
    split
    · rename_i addition
      split
      · rename_i session attached
        refine ⟨ordered.order, ordered.table, ?_⟩
        intro other attaching
        cases attaching
        exact ⟨action, actions, here, addition, attach_eq_true attached⟩
      · have popped := ordered.pop here false
        simp only [takeEffect, addition, ne_eq, not_false_eq_true, if_true,
          Bool.false_eq_true, if_false] at popped
        exact popped
    · rename_i removal
      have popped := ordered.pop here false
      simp only [takeEffect, removal, if_false] at popped
      exact popped

theorem Ordered.step
    {queued : List SessionAction} {dispatcher next : Dispatcher}
    {action : DispatcherStep} (ordered : dispatcher.Ordered queued)
    (stepped : Dispatcher.step dispatcher action = some next) :
    next.Ordered (queued ++ action.queued?.toList) := by
  cases action with
  | addSession id sock => exact ordered.push stepped
  | removeSession id => exact ordered.push stepped
  | onFrame =>
      simp only [DispatcherStep.queued?, Option.toList_none, List.append_nil]
      simp only [Dispatcher.step] at stepped
      split at stepped
      · cases stepped
        split
        · exact ordered
        · refine ⟨ordered.order, ordered.table, ?_⟩
          intro session attaching
          cases attaching
      · cases stepped
  | turn opened enabled =>
      simp only [DispatcherStep.queued?, Option.toList_none, List.append_nil]
      simp only [Dispatcher.step] at stepped
      split at stepped
      · cases stepped
        exact ordered.turn opened enabled
      · cases stepped
  | attached =>
      simp only [DispatcherStep.queued?, Option.toList_none, List.append_nil]
      simp only [Dispatcher.step] at stepped
      split at stepped
      · rename_i session attaching
        cases stepped
        obtain ⟨action, actions, here, valid, same⟩ :=
          ordered.front session attaching
        have popped := ordered.pop here true
        simp only [takeEffect, valid, ne_eq, not_false_eq_true,
          if_true] at popped
        rw [same]
        exact popped
      · cases stepped

theorem ordered_run
    {actions : List DispatcherStep} {dispatcher final : Dispatcher}
    {queued : List SessionAction} (ordered : dispatcher.Ordered queued)
    (ran : run step dispatcher actions = some final) :
    final.Ordered (queued ++ actions.filterMap DispatcherStep.queued?) := by
  induction actions generalizing dispatcher queued with
  | nil =>
      cases ran
      simpa using ordered
  | cons action actions induction =>
      obtain ⟨next, stepped, rest⟩ := run_cons_eq_some_iff.mp ran
      have later := induction (ordered.step stepped) rest
      rw [List.append_assoc] at later
      cases queues : action.queued? with
      | none => simpa [List.filterMap_cons, queues] using later
      | some one => simpa [List.filterMap_cons, queues] using later

/-! ### The session table -/

/-- A step of the loop thread with which a run of `onFrame` returns. -/
def ReturnsFrom (action : DispatcherStep) (next : Dispatcher) : Prop :=
  (action = .onFrame ∨ ∃ opened enabled, action = .turn opened enabled) ∧
    next.phase = .outside

theorem phase_pop
    {dispatcher : Dispatcher} {action : SessionAction}
    {actions : List SessionAction} (here : dispatcher.actions = action :: actions)
    (result : Bool) : (dispatcher.pop result).phase = .inLoop := by
  simp [pop, here]

/-- The loop ends only when the queue is empty. -/
theorem actions_eq_nil_of_returns
    {dispatcher next : Dispatcher} {action : DispatcherStep}
    (stepped : step dispatcher action = some next)
    (returns : next.ReturnsFrom action) : next.actions = [] := by
  obtain ⟨which, outside⟩ := returns
  rcases which with isFrame | ⟨opened, enabled, isTurn⟩
  · subst isFrame
    simp only [step] at stepped
    split at stepped
    · cases stepped
      split at outside
      · rename_i empty
        rw [if_pos empty]
        exact List.isEmpty_iff.mp empty
      · cases outside
    · cases stepped
  · subst isTurn
    simp only [step] at stepped
    split at stepped
    · cases stepped
      cases here : dispatcher.actions with
      | nil => simp [turn, here]
      | cons action actions =>
          exfalso
          simp only [turn, here] at outside
          split at outside
          · split at outside
            · cases outside
            · rw [phase_pop here] at outside
              cases outside
          · cases outside
    · cases stepped

/-- Outside of `onFrame` actions are queued and nothing else. -/
theorem sessions_of_outside
    {dispatcher next : Dispatcher} {action : DispatcherStep}
    (stepped : step dispatcher action = some next)
    (outside : dispatcher.phase = .outside) :
    next.sessions = dispatcher.sessions := by
  cases action with
  | addSession id sock =>
      simp only [step, push, outside] at stepped
      cases stepped
      rfl
  | removeSession id =>
      simp only [step, push, outside] at stepped
      cases stepped
      rfl
  | onFrame =>
      simp only [step, outside] at stepped
      cases stepped
      split <;> rfl
  | turn opened enabled =>
      simp only [step, outside] at stepped
      cases stepped
  | attached =>
      simp only [step, outside] at stepped
      cases stepped

/-- The actions are carried out in the order in which they were queued, each
once; when `onFrame` returns all of them have been, and the table has the
sessions that were attached and for which no removal was queued later; and the
table changes in `onFrame` only. -/
theorem sessions_outcome
    {actions : List DispatcherStep} {dispatcher : Dispatcher}
    (ran : run step create actions = some dispatcher) :
    actions.filterMap DispatcherStep.queued? =
        dispatcher.handled.map Prod.fst ++ dispatcher.actions ∧
      dispatcher.sessions = dispatcher.handled.foldl takeEffect ∅ ∧
      ∀ action next, step dispatcher action = some next →
        (dispatcher.phase = .outside →
          next.sessions = dispatcher.sessions) ∧
        (next.ReturnsFrom action →
          next.actions = [] ∧
            next.handled.map Prod.fst =
              actions.filterMap DispatcherStep.queued? ∧
            ∀ id, id ∈ next.sessions ↔
              Latched (Adds id) (Removes id) next.handled) := by
  have ordered := ordered_run ordered_create ran
  rw [List.nil_append] at ordered
  refine ⟨ordered.order, ordered.table, ?_⟩
  intro action next stepped
  refine ⟨sessions_of_outside stepped, ?_⟩
  intro returns
  have empty := actions_eq_nil_of_returns stepped returns
  have after := ordered.step stepped
  have nothing : action.queued?.toList = [] := by
    rcases returns.1 with isFrame | ⟨opened, enabled, isTurn⟩
    · rw [isFrame]
      rfl
    · rw [isTurn]
      rfl
  rw [nothing, List.append_nil] at after
  refine ⟨empty, ?_, ?_⟩
  · rw [after.order, empty, List.append_nil]
  · intro id
    rw [after.table, mem_foldl_takeEffect]

/-- The handler of `onNewSession` removes its own session; the other session
cannot be attached. -/
theorem sessions_outcome_reentrant :
    ∃ dispatcher next, run step create
        [.addSession 1 5, .addSession 2 6, .onFrame, .turn true true,
          .removeSession 1, .attached, .turn true false,
          .turn true true] = some dispatcher ∧
      step dispatcher (.turn true true) = some next ∧
        next.actions = [] ∧
          next.handled.map Prod.fst =
            [{ id := 1, sock := 5 }, { id := 2, sock := 6 },
              { id := 1, sock := socketFdInvalid }] ∧
          ∀ id, id ∈ next.sessions ↔
            Latched (Adds id) (Removes id) next.handled := by
  have ran : run step create
      [.addSession 1 5, .addSession 2 6, .onFrame, .turn true true,
        .removeSession 1, .attached, .turn true false,
        .turn true true] = some _ := rfl
  have later := (sessions_outcome ran).2.2 (.turn true true) _ rfl
  exact ⟨_, _, ran, rfl, later.2 ⟨.inr ⟨true, true, rfl⟩, rfl⟩⟩

end Dispatcher

end Translib

end DBWrapper
