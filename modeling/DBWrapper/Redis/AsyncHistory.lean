import DBWrapper.Redis.Async

/-!
# What a step adds to the history of a context

The history of a context says which commands it has accepted, which bytes it has
written and read, and which callbacks it has called.  Nothing is taken back, and
most steps add calls only: commands are accepted by `redisAsyncCommand`, bytes
are read and written when the socket is ready.
-/

namespace DBWrapper

open Foundation

namespace Hiredis

open Arguments

/-! ### Histories -/

def AsyncEvent.acceptedCallback : AsyncEvent → Option RedisCallback
  | .accepted cb _ => some cb
  | _ => none

def AsyncEvent.command : AsyncEvent → ByteString
  | .accepted _ cmd => cmd
  | _ => []

def AsyncEvent.call : AsyncEvent → Option (RedisCallback × Option Reply)
  | .called cb reply => some (cb, reply)
  | _ => none

def AsyncEvent.written : AsyncEvent → ByteString
  | .wrote bytes => bytes
  | _ => []

def AsyncEvent.received : AsyncEvent → ByteString
  | .read bytes => bytes
  | _ => []

namespace AsyncContext

/-- The callbacks of the commands that have been accepted. -/
def acceptedCallbacks (context : AsyncContext) : List RedisCallback :=
  context.history.filterMap AsyncEvent.acceptedCallback

/-- The bytes of these commands. -/
def commands (context : AsyncContext) : ByteString :=
  context.history.flatMap AsyncEvent.command

/-- The callbacks that have been called, and what with. -/
def calls (context : AsyncContext) :
    List (RedisCallback × Option Reply) :=
  context.history.filterMap AsyncEvent.call

def written (context : AsyncContext) : ByteString :=
  context.history.flatMap AsyncEvent.written

def received (context : AsyncContext) : ByteString :=
  context.history.flatMap AsyncEvent.received

/-- One event more. -/
structure Logs (before after : AsyncContext) (event : AsyncEvent) : Prop
    where
  accepted : after.acceptedCallbacks =
    before.acceptedCallbacks ++ event.acceptedCallback.toList
  commands : after.commands = before.commands ++ event.command
  calls : after.calls = before.calls ++ event.call.toList
  written : after.written = before.written ++ event.written
  received : after.received = before.received ++ event.received

theorem logs_of_history
    {before after : AsyncContext} {event : AsyncEvent}
    (history : after.history = before.history ++ [event]) :
    Logs before after event where
  accepted := by
    rw [acceptedCallbacks, history, List.filterMap_append, acceptedCallbacks]
    cases event <;> rfl
  commands := by
    rw [AsyncContext.commands, history, List.flatMap_append,
      List.flatMap_singleton, AsyncContext.commands]
  calls := by
    rw [AsyncContext.calls, history, List.filterMap_append,
      AsyncContext.calls]
    cases event <;> rfl
  written := by
    rw [AsyncContext.written, history, List.flatMap_append,
      List.flatMap_singleton, AsyncContext.written]
  received := by
    rw [AsyncContext.received, history, List.flatMap_append,
      List.flatMap_singleton, AsyncContext.received]

/-! ### Steps that only call -/

/-- Nothing has been accepted, written or read. -/
structure Quiet (before after : AsyncContext) : Prop where
  accepted : after.acceptedCallbacks = before.acceptedCallbacks
  commands : after.commands = before.commands
  written : after.written = before.written
  received : after.received = before.received

theorem Quiet.of_history
    {before after : AsyncContext} (history : after.history = before.history) :
    Quiet before after where
  accepted := by rw [acceptedCallbacks, history, acceptedCallbacks]
  commands := by rw [AsyncContext.commands, history, AsyncContext.commands]
  written := by rw [AsyncContext.written, history, AsyncContext.written]
  received := by rw [AsyncContext.received, history, AsyncContext.received]

theorem Quiet.trans
    {before middle after : AsyncContext} (first : Quiet before middle)
    (second : Quiet middle after) : Quiet before after where
  accepted := second.accepted.trans first.accepted
  commands := second.commands.trans first.commands
  written := second.written.trans first.written
  received := second.received.trans first.received

/-- A call, or the end or the beginning of the connection. -/
def Silent (event : AsyncEvent) : Prop :=
  event.acceptedCallback = none ∧ event.command = [] ∧ event.written = [] ∧
    event.received = []

theorem silent_called (cb : RedisCallback) (reply : Option Reply) :
    Silent (.called cb reply) := ⟨rfl, rfl, rfl, rfl⟩

theorem silent_connected (ok : Bool) : Silent (.connected ok) :=
  ⟨rfl, rfl, rfl, rfl⟩

theorem silent_disconnected (ok : Bool) : Silent (.disconnected ok) :=
  ⟨rfl, rfl, rfl, rfl⟩

theorem Quiet.log
    {before context : AsyncContext} (quiet : Quiet before context)
    {event : AsyncEvent} (silent : Silent event) :
    Quiet before (context.log event) := by
  have logs : Logs context (context.log event) event := logs_of_history rfl
  obtain ⟨accepted, command, written, received⟩ := silent
  apply quiet.trans
  exact
    { accepted := by
        rw [logs.accepted, accepted, Option.toList_none, List.append_nil]
      commands := by rw [logs.commands, command, List.append_nil]
      written := by rw [logs.written, written, List.append_nil]
      received := by rw [logs.received, received, List.append_nil] }

theorem history_asyncDisconnect (context : AsyncContext) :
    context.asyncDisconnect.history = context.history := by
  rw [asyncDisconnect]
  split
  · split <;> rfl
  · rfl

theorem history_redisAsyncDisconnect (context : AsyncContext) :
    context.redisAsyncDisconnect.history = context.history := by
  simp only [redisAsyncDisconnect]
  split
  · exact history_asyncDisconnect _
  · rfl

theorem history_redisAsyncFree (context : AsyncContext) :
    context.redisAsyncFree.history = context.history := by
  simp only [redisAsyncFree]
  split <;> rfl

theorem quiet_runNull (context : AsyncContext) (cb : RedisCallback) :
    Quiet context (context.runNull cb) := by
  rw [runNull]
  split
  · refine .log ?_ (silent_called cb none)
    exact .of_history rfl
  · exact .of_history rfl

theorem quiet_asyncFree (context : AsyncContext) (choice : Nat) :
    Quiet context (context.asyncFree choice) := by
  unfold asyncFree
  split
  · refine .trans ?_ (quiet_runNull _ _)
    exact .of_history rfl
  · refine .trans ?_ (quiet_runNull _ _)
    exact .of_history rfl
  · split
    · refine .trans ?_ (quiet_runNull _ _)
      exact .of_history rfl
    · split
      · refine .trans ?_ (quiet_runNull _ _)
        exact .of_history rfl
      · exact .of_history rfl
    · split
      · simp only
        split
        · refine .log ?_ (silent_disconnected _)
          exact .of_history rfl
        · exact .of_history rfl
      · exact .of_history rfl

theorem history_freeObject
    {context next : AsyncContext} {reply : Pointer}
    (freed : context.freeObject reply = some next) :
    next.history = context.history := by
  obtain ⟨heap, _, rfl⟩ := Option.map_eq_some_iff.mp freed
  rfl

theorem quiet_runCallback
    (context : AsyncContext) (cb : RedisCallback) (reply : Pointer)
    (value : Reply) : Quiet context (context.runCallback cb reply value) := by
  rw [runCallback]
  split
  · refine .log ?_ (silent_called cb _)
    exact .of_history rfl
  · split
    · exact .of_history rfl
    · rename_i next freed
      have same := history_freeObject freed
      exact .of_history same

theorem history_getSubscribeCallback
    {context next : AsyncContext} {cb found : RedisCallback} {reply : Reply}
    (result : context.getSubscribeCallback cb reply = some (found, next)) :
    next.history = context.history := by
  unfold getSubscribeCallback at result
  split at result
  · simp only at result
    split at result
    · cases result
      rfl
    · split at result <;> split at result
      · split at result <;> cases result
        rfl
      · cases result
        rfl
      · split at result <;> cases result
        rfl
      · cases result
        rfl
  · cases result
  · split at result <;> cases result <;> rfl

theorem quiet_takeReply
    (context : AsyncContext) (cb : RedisCallback) (reply : Pointer)
    (value : Reply) : Quiet context (context.takeReply cb reply value) := by
  unfold takeReply
  split
  · refine .trans ?_ (quiet_runCallback _ _ _ _)
    exact .of_history rfl
  · split
    · split
      · exact .of_history rfl
      · rename_i freed
        apply Quiet.of_history
        rw [history_asyncDisconnect, history_freeObject freed]
    · split
      · split
        · exact .of_history rfl
        · rename_i found
          exact (Quiet.of_history (history_getSubscribeCallback found)).trans
            (quiet_runCallback _ _ _ _)
      · split
        · exact quiet_runCallback _ _ _ _
        · exact .of_history rfl

theorem quiet_processCallbacks (context : AsyncContext) (cb : RedisCallback) :
    Quiet context (context.processCallbacks cb) := by
  unfold processCallbacks
  split
  · exact .of_history rfl
  · exact .of_history (history_asyncDisconnect _)
  · simp only
    split
    · exact .of_history (history_asyncDisconnect _)
    · exact .of_history rfl
  · split
    · exact .of_history rfl
    · refine .trans ?_ (quiet_takeReply _ _ _ _)
      exact .of_history rfl

theorem quiet_returnsFrom
    (context : AsyncContext) (cb : RedisCallback) (reply : Pointer) :
    Quiet context (context.returnsFrom cb reply) := by
  unfold returnsFrom
  split
  · exact .of_history rfl
  · rename_i freed
    have same := history_freeObject freed
    split <;> exact .of_history same

theorem quiet_handleConnect
    (context : AsyncContext) (connect : ConnectResult) :
    Quiet context (context.handleConnect connect).2 := by
  unfold handleConnect
  split
  · exact .of_history rfl
  · split
    · refine .log ?_ (silent_connected true)
      exact .of_history rfl
    · exact .of_history rfl
    · refine .trans ?_ (.of_history (history_asyncDisconnect _))
      refine .log ?_ (silent_connected false)
      exact .of_history rfl

/-! ### Steps that read or write -/

/-- What has been read goes to the reader, also when the reader is not in a
state to take it. -/
theorem quiet_bufferRead (context : AsyncContext) (result : ReadResult) :
    Quiet context (context.bufferRead result) ∨
      ∃ chunk, result = .bytes chunk ∧
        Logs context (context.bufferRead result) (.read chunk) := by
  unfold bufferRead
  split
  · exact Or.inl (.of_history (history_asyncDisconnect _))
  · cases result with
    | again => exact Or.inl (.of_history rfl)
    | failed err => exact Or.inl (.of_history (history_asyncDisconnect _))
    | eof => exact Or.inl (.of_history (history_asyncDisconnect _))
    | bytes chunk =>
        refine Or.inr ⟨chunk, rfl, ?_⟩
        simp only
        split
        · exact logs_of_history rfl
        · exact logs_of_history (history_asyncDisconnect _)

theorem quiet_bufferWrite (context : AsyncContext) (result : WriteResult) :
    Quiet context (context.bufferWrite result) ∨
      ∃ bytes, Logs context (context.bufferWrite result) (.wrote bytes) := by
  unfold bufferWrite
  split
  · exact Or.inl (.of_history (history_asyncDisconnect _))
  · split
    · exact Or.inl (.of_history rfl)
    · cases result with
      | again => exact Or.inl (.of_history rfl)
      | failed err => exact Or.inl (.of_history (history_asyncDisconnect _))
      | wrote count =>
          simp only
          split
          · exact Or.inl (.of_history rfl)
          · cases unwritten context.obuf count with
            | none => exact Or.inl (.of_history rfl)
            | some obuf => exact Or.inr ⟨_, logs_of_history rfl⟩

/-- A step that is no command. -/
structure Carries (before after : AsyncContext) (label : AsyncLabel) : Prop where
  accepted : after.acceptedCallbacks = before.acceptedCallbacks
  commands : after.commands = before.commands
  written : before.written <+: after.written
  received : after.received = before.received ∨
    ∃ connect chunk, label = .readable connect (.bytes chunk) ∧
      after.received = before.received ++ chunk

theorem Quiet.carries
    {before after : AsyncContext} (quiet : Quiet before after)
    (label : AsyncLabel) : Carries before after label where
  accepted := quiet.accepted
  commands := quiet.commands
  written := by rw [quiet.written]
  received := Or.inl quiet.received

theorem carries_step
    {before after : AsyncContext} {label : AsyncLabel}
    (stepped : before.step label = some after)
    (noCommand : ∀ cb cmd, label ≠ .command cb cmd) :
    Carries before after label := by
  cases label with
  | command cb cmd => exact (noCommand cb cmd rfl).elim
  | disconnect =>
      simp only [step] at stepped
      split at stepped
      · cases stepped
        exact (Quiet.of_history (history_redisAsyncDisconnect _)).carries _
      · cases stepped
  | free =>
      simp only [step] at stepped
      split at stepped
      · cases stepped
        exact (Quiet.of_history (history_redisAsyncFree _)).carries _
      · cases stepped
  | readable connect result =>
      simp only [step] at stepped
      split at stepped
      · have handled := quiet_handleConnect before connect
        generalize before.handleConnect connect = next at stepped handled
        obtain ⟨goesOn, context⟩ := next
        cases goesOn with
        | false =>
            cases stepped
            exact handled.carries _
        | true =>
            cases stepped
            rcases quiet_bufferRead context result with
              quiet | ⟨chunk, rfl, logs⟩
            · exact (handled.trans quiet).carries _
            · exact
                { accepted := by
                    rw [logs.accepted, handled.accepted]
                    exact List.append_nil _
                  commands := by
                    rw [logs.commands, handled.commands]
                    exact List.append_nil _
                  written := by
                    rw [logs.written, handled.written]
                    exact List.prefix_append _ _
                  received := by
                    refine Or.inr ⟨connect, chunk, rfl, ?_⟩
                    rw [logs.received, handled.received]
                    rfl }
      · cases stepped
  | writable connect result =>
      simp only [step] at stepped
      split at stepped
      · have handled := quiet_handleConnect before connect
        generalize before.handleConnect connect = next at stepped handled
        obtain ⟨goesOn, context⟩ := next
        cases goesOn with
        | false =>
            cases stepped
            exact handled.carries _
        | true =>
            cases stepped
            rcases quiet_bufferWrite context result with
              quiet | ⟨bytes, logs⟩
            · exact (handled.trans quiet).carries _
            · exact
                { accepted := by
                    rw [logs.accepted, handled.accepted]
                    exact List.append_nil _
                  commands := by
                    rw [logs.commands, handled.commands]
                    exact List.append_nil _
                  written := by
                    rw [logs.written, handled.written]
                    exact List.prefix_append _ _
                  received := by
                    rw [logs.received, handled.received]
                    exact Or.inl (List.append_nil _) }
      · cases stepped
  | next choice =>
      simp only [step] at stepped
      split at stepped
      · cases stepped
        exact (quiet_processCallbacks _ _).carries _
      · cases stepped
        exact (quiet_asyncFree _ _).carries _
      · cases stepped
  | returns =>
      simp only [step] at stepped
      split at stepped
      · cases stepped
        exact (quiet_returnsFrom _ _ _).carries _
      · cases stepped
        apply Quiet.carries
        exact .of_history rfl
      · cases stepped

end AsyncContext

end Hiredis

end DBWrapper
