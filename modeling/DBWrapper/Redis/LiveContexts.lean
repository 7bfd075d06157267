import DBWrapper.Foundation.Runs
import DBWrapper.Redis.Lifetimes

/-!
# Which runs use live contexts only

A command is issued on the context of the last `add_conn`, whatever has
happened to that context since, and a reconnect timer reads a context that
hiredis has freed after the callback which started the timer.  So the worker
keeps to live contexts as long as no such timer fires and no command is
handled after the end of its connection, and not a step longer.
-/

namespace DBWrapper

open Foundation

/-- `last`, or what the event puts in its place. -/
def noteAddConn (last : Option Pointer) : ContextEvent → Option Pointer
  | .created context .processAddConn => some context
  | _ => last

/-- The context that the last `process_add_conn` has created. -/
def lastAddConn (history : List ContextEvent) : Option Pointer :=
  history.foldl noteAddConn none

/-- The connection of a context is over, as far as hiredis has told. -/
def Closed (history : List ContextEvent) (context : Pointer) : Prop :=
  ∃ event ∈ history, event.Closes context

/-- There has been an `add_conn`, and the connection of the last one is not
over. -/
def KeepsConnection (history : List ContextEvent) : Prop :=
  ∃ context, lastAddConn history = some context ∧ ¬ Closed history context

/-- The accesses that find a living context, by what has happened so far. -/
def Access.Allowed (history : List ContextEvent) : Access → Prop
  | .nothing => True
  | .command => KeepsConnection history
  | .timer => False

/-- After a reconnect, commands go to the context it has created, until
another one is created. -/
def CommandsFollowReconnect (history : List ContextEvent) : Prop :=
  ∀ before context middle used use after,
    history =
      before ++ .created context .redisAsyncReconnect :: middle ++
        .used used use :: after →
    (∀ event ∈ middle, ∀ other creator, event ≠ .created other creator) →
    use ≠ .readHostPort →
    used = some context

theorem lastAddConn_append (history more : List ContextEvent) :
    lastAddConn (history ++ more) =
      more.foldl noteAddConn (lastAddConn history) :=
  List.foldl_append

theorem closed_append
    (history more : List ContextEvent) (context : Pointer) :
    Closed (history ++ more) context ↔
      Closed history context ∨ Closed more context := by
  simp [Closed, or_and_right, exists_or]

theorem closes_iff {event : ContextEvent} {context : Pointer} :
    event.Closes context ↔
      event = .connectNotified context .err ∨
        ∃ status, event = .disconnectNotified context status := by
  cases event with
  | connectNotified other status =>
      cases status <;> simp [ContextEvent.Closes]
  | disconnectNotified other status => simp [ContextEvent.Closes]
  | created other creator => simp [ContextEvent.Closes]
  | freed other => simp [ContextEvent.Closes]
  | used other use => simp [ContextEvent.Closes]

/-- A notification that closes a context does nothing else. -/
theorem closes_only
    {event : ContextEvent} {context : Pointer}
    (closes : event.Closes context) :
    (∀ resource, ¬ contextLifetime.creates event resource) ∧
      (∀ resource, ¬ contextLifetime.frees event resource) ∧
      (∀ last, noteAddConn last event = last) ∧
      ∀ other, event.Closes other ↔ other = context := by
  rcases closes_iff.mp closes with refused | ⟨status, lost⟩
  · subst refused
    simp [contextLifetime, noteAddConn, ContextEvent.Closes, eq_comm]
  · subst lost
    simp [contextLifetime, noteAddConn, ContextEvent.Closes, eq_comm]

/-- Of a running system, what its state knows of its history. -/
structure Tracked (lives : Lives) : Prop where
  live : ∀ context,
    contextLifetime.Live lives.history (some context) ↔
      lives.freed[context]? = some false
  uninitialised : ¬ contextLifetime.Live lives.history none
  current : lives.current = lastAddConn lives.history
  known : ∀ context, lives.current = some context →
    context < lives.freed.length
  closed : lives.crashed = false → ∀ context,
    lives.freed[context]? = some true ↔ Closed lives.history context
  timers : ∀ context ∈ lives.timers, lives.freed[context]? = some true

theorem getElem?_append_singleton_eq_some_iff
    {α : Type} {values : List α} {last value : α} {position : Nat} :
    (values ++ [last])[position]? = some value ↔
      values[position]? = some value ∨
        position = values.length ∧ last = value := by
  rcases Nat.lt_trichotomy position values.length with
    before | atEnd | behind
  · simp [List.getElem?_append_left before, Nat.ne_of_lt before]
  · subst atEnd
    simp
  · rw [List.getElem?_eq_none (by simp; omega),
      List.getElem?_eq_none (by omega)]
    simp
    omega

namespace Tracked

variable {lives : Lives}

/-- A new context after events that create, free and close nothing. -/
theorem create
    (tracked : Tracked lives) (running : lives.crashed = false)
    {events : List ContextEvent} {creator : Creator}
    {current : Option Pointer} {timers : List Pointer} {crashed : Bool}
    (notCreated : ∀ event ∈ events, ∀ resource,
      ¬ contextLifetime.creates event resource)
    (notFreed : ∀ event ∈ events, ∀ resource,
      ¬ contextLifetime.frees event resource)
    (notClosed : crashed = false → ∀ context, ¬ Closed events context)
    (noted : current =
      (events ++ [ContextEvent.created lives.freed.length creator]).foldl
        noteAddConn lives.current)
    (known : ∀ context, current = some context →
      context < lives.freed.length + 1)
    (subset : timers ⊆ lives.timers) :
    Tracked
      { lives.create events creator with current, timers, crashed } where
  live := by
    intro context
    simp only [Lives.create, Lives.log]
    rw [← List.append_assoc, Lifetime.live_append_singleton,
      Lifetime.live_append_of_neutral
        (fun event listed => notCreated event listed _)
        (fun event listed => notFreed event listed _),
      tracked.live, getElem?_append_singleton_eq_some_iff]
    simp [contextLifetime]
    tauto
  uninitialised := by
    intro live
    simp only [Lives.create, Lives.log] at live
    rw [← List.append_assoc, Lifetime.live_append_singleton,
      Lifetime.live_append_of_neutral
        (fun event listed => notCreated event listed _)
        (fun event listed => notFreed event listed _)] at live
    rcases live with created | ⟨live, _⟩
    · cases created
    · exact tracked.uninitialised live
  current := by
    simp only [Lives.create, Lives.log]
    rw [noted, lastAddConn_append, tracked.current]
  known := by
    intro context isCurrent
    simpa [Lives.create] using known context isCurrent
  closed := by
    intro notCrashed context
    have quiet := notClosed notCrashed context
    have created : ¬ Closed [.created lives.freed.length creator] context := by
      simp [Closed, ContextEvent.Closes]
    simp only [Lives.create, Lives.log]
    rw [getElem?_append_singleton_eq_some_iff, tracked.closed running,
      closed_append, closed_append]
    simp [quiet, created]
  timers := by
    intro context armed
    simp only [Lives.create]
    rw [getElem?_append_singleton_eq_some_iff]
    exact .inl (tracked.timers context (subset armed))

/-- An event that creates, frees and closes nothing. -/
theorem note
    (tracked : Tracked lives) (running : lives.crashed = false)
    {event : ContextEvent} {crashed : Bool}
    (notCreated : ∀ resource, ¬ contextLifetime.creates event resource)
    (notFreed : ∀ resource, ¬ contextLifetime.frees event resource)
    (notNoted : ∀ last, noteAddConn last event = last)
    (notClosed : crashed = false → ∀ context, ¬ event.Closes context) :
    Tracked { lives.log [event] with crashed } where
  live := by
    intro context
    simp only [Lives.log]
    rw [Lifetime.live_append_singleton, tracked.live]
    simp [notCreated, notFreed]
  uninitialised := by
    intro live
    simp only [Lives.log] at live
    rcases Lifetime.live_append_singleton.mp live with created | ⟨live, _⟩
    · exact notCreated none created
    · exact tracked.uninitialised live
  current := by
    simp only [Lives.log]
    rw [lastAddConn_append, tracked.current]
    exact (notNoted _).symm
  known := tracked.known
  closed := by
    intro notCrashed context
    have quiet := notClosed notCrashed context
    simp only [Lives.log]
    rw [tracked.closed running, closed_append]
    simp [Closed, quiet]
  timers := tracked.timers

/-- A context is freed after the notification that closes it. -/
theorem close
    (tracked : Tracked lives) (running : lives.crashed = false)
    {event : ContextEvent} {context : Pointer} {timers : List Pointer}
    (live : lives.freed[context]? = some false)
    (closes : event.Closes context)
    (captured : timers ⊆ lives.timers ++ [context]) :
    Tracked
      { lives.log [event, .freed context] with
        freed := lives.freed.set context true, timers } := by
  obtain ⟨notCreated, notFreed, notNoted, onlyCloses⟩ := closes_only closes
  have created : context < lives.freed.length :=
    (List.getElem?_eq_some_iff.mp live).1
  have flags : ∀ other, (lives.freed.set context true)[other]? =
      if context = other then some true else lives.freed[other]? := by
    intro other
    simp [List.getElem?_set, created]
  have liveAfter : ∀ resource,
      contextLifetime.Live
          (lives.history ++ [event, .freed context]) resource ↔
        contextLifetime.Live lives.history resource ∧
          resource ≠ some context := by
    intro resource
    rw [List.append_cons, Lifetime.live_append_singleton,
      Lifetime.live_append_singleton]
    simp only [notCreated, notFreed, false_or, not_false_iff, and_true]
    exact Iff.rfl.trans (by simp [contextLifetime])
  have closedNow : ∀ other,
      Closed [event, .freed context] other ↔ other = context := by
    intro other
    have freeing : ¬ (ContextEvent.freed context).Closes other := id
    simp only [Closed, List.mem_cons, List.not_mem_nil, or_false,
      exists_eq_or_imp, exists_eq_left, freeing]
    exact onlyCloses other
  constructor
  · intro other
    simp only [Lives.log]
    rw [liveAfter, tracked.live, flags]
    by_cases same : context = other
    · simp [same]
    · simp [same, Ne.symm same]
  · intro uninitialised
    exact tracked.uninitialised ((liveAfter none).mp uninitialised).1
  · simp only [Lives.log]
    rw [lastAddConn_append, tracked.current, List.foldl_cons, notNoted]
    rfl
  · intro other isCurrent
    simpa using tracked.known other isCurrent
  · intro _ other
    simp only [Lives.log]
    rw [flags, closed_append]
    rw [closedNow, ← tracked.closed running]
    by_cases same : context = other
    · simp [same]
    · simp [same, Ne.symm same]
  · intro other armed
    simp only
    rw [flags]
    by_cases same : context = other
    · simp [same]
    · have earlier : other ∈ lives.timers := by
        simpa [Ne.symm same] using captured armed
      simp [same, tracked.timers other earlier]

/-- What a step preserves. -/
theorem lifeStep
    {next : Lives} {access : Access} (tracked : Tracked lives)
    (running : lives.crashed = false) (step : LifeStep lives access next) :
    Tracked next := by
  cases step with
  | silent => exact tracked
  | crash =>
      exact { tracked with closed := fun notCrashed => by cases notCrashed }
  | addConn =>
      apply tracked.create running <;> simp [noteAddConn, Closed]
  | command use issued =>
      apply tracked.note running <;>
        simp [contextLifetime, noteAddConn, ContextEvent.Closes]
  | notified event context live crashed harmless =>
      rcases harmless with connected | ⟨disconnected, stuck⟩
      · subst connected
        apply tracked.note running <;>
          simp [contextLifetime, noteAddConn, ContextEvent.Closes]
      · subst disconnected
        apply tracked.note running <;>
          simp [contextLifetime, noteAddConn, stuck]
  | closed event context live closes timers captured =>
      exact tracked.close running live closes captured
  | reconnectAtOnce context live =>
      apply tracked.create running
      case known =>
        intro current isCurrent
        exact Nat.lt_succ_of_lt (tracked.known current isCurrent)
      all_goals simp [contextLifetime, noteAddConn]
  | reconnect context armed crashed =>
      apply tracked.create running
      case known =>
        intro current isCurrent
        exact Nat.lt_succ_of_lt (tracked.known current isCurrent)
      case subset => exact List.erase_subset
      all_goals
        simp [contextLifetime, noteAddConn, Closed, ContextEvent.Closes]

/-- The context in use is alive as long as its connection is not over. -/
theorem live_current_iff
    (tracked : Tracked lives) (running : lives.crashed = false) :
    contextLifetime.Live lives.history lives.current ↔
      KeepsConnection lives.history := by
  rw [KeepsConnection, ← tracked.current]
  cases isCurrent : lives.current with
  | none => simp [tracked.uninitialised]
  | some context =>
      have created := tracked.known context isCurrent
      have flag : lives.freed[context]? = some lives.freed[context] :=
        List.getElem?_eq_getElem created
      have closed := tracked.closed running context
      rw [tracked.live]
      simp only [Option.some.injEq, exists_eq_left', ← closed, flag,
        Bool.not_eq_true]

theorem safe_read_create
    (history : List ContextEvent) (context new : Pointer)
    (creator : Creator) :
    contextLifetime.Safe
        (history ++
          [.used (some context) .readHostPort, .created new creator]) ↔
      contextLifetime.Safe history ∧
        contextLifetime.Live history (some context) := by
  rw [List.append_cons, Lifetime.safe_append_singleton,
    Lifetime.safe_append_singleton]
  simp [contextLifetime]

/-- One step uses living contexts only, exactly if its access is allowed. -/
theorem safe_lifeStep
    {next : Lives} {access : Access} (tracked : Tracked lives)
    (running : lives.crashed = false) (step : LifeStep lives access next) :
    contextLifetime.Safe next.history ↔
      contextLifetime.Safe lives.history ∧
        access.Allowed lives.history := by
  cases step with
  | silent => simp [Access.Allowed]
  | crash => simp [Access.Allowed]
  | addConn =>
      simp only [Lives.create, Lives.log]
      rw [Lifetime.safe_append_of_unused] <;>
        simp [contextLifetime, Access.Allowed]
  | command use issued =>
      simp only [Lives.log, Lifetime.safe_append_singleton, Access.Allowed,
        ← tracked.live_current_iff running]
      simp [contextLifetime]
  | notified event context live crashed harmless =>
      simp only [Lives.log]
      rw [Lifetime.safe_append_of_unused]
      · simp [Access.Allowed]
      · rcases harmless with connected | ⟨disconnected, _⟩
        · simp [contextLifetime, connected]
        · simp [contextLifetime, disconnected]
  | closed event context live closes timers captured =>
      simp only [Lives.log]
      rw [Lifetime.safe_append_of_unused]
      · simp [Access.Allowed]
      · rcases closes_iff.mp closes with refused | ⟨status, lost⟩
        · simp [contextLifetime, refused]
        · simp [contextLifetime, lost]
  | reconnectAtOnce context live =>
      -- hiredis frees the context only after the callback
      have readLive : contextLifetime.Live
          (lives.history ++ [.disconnectNotified context .ok])
          (some context) := by
        rw [Lifetime.live_append_singleton, tracked.live]
        exact .inr ⟨live, id⟩
      simp only [Lives.create, Lives.log, List.cons_append, List.nil_append]
      rw [List.append_cons, safe_read_create, Lifetime.safe_append_of_unused]
      · simp [readLive, Access.Allowed]
      · simp [contextLifetime]
  | reconnect context armed crashed =>
      have dead : ¬ contextLifetime.Live lives.history (some context) := by
        rw [tracked.live, tracked.timers context armed]
        simp
      simp only [Lives.create, Lives.log, List.cons_append, List.nil_append]
      rw [safe_read_create]
      simp [dead, Access.Allowed]

end Tracked

/-! ### Commands after a reconnect -/

theorem commandsFollow_append_created
    {history : List ContextEvent}
    (none : ∀ context, .created context .redisAsyncReconnect ∉ history)
    (new : Pointer) (creator : Creator) :
    CommandsFollowReconnect (history ++ [.created new creator]) := by
  intro before context middle used use after whole _ command
  rcases append_singleton_eq_append_cons_iff.mp whole with
    ⟨_, lasts, _⟩ | ⟨earlier, _, fronts⟩
  · cases lasts
  · exfalso
    apply none context
    simp [fronts]

theorem commandsFollow_of_none
    {history : List ContextEvent}
    (none : ∀ context, .created context .redisAsyncReconnect ∉ history) :
    CommandsFollowReconnect history := by
  intro before context middle used use after whole
  exfalso
  apply none context
  simp [whole]

/-- As long as every access is allowed, a reconnect ends the run: the only
one is that out of the disconnect callback, which dereferences null. -/
structure NoReconnect (lives : Lives) : Prop where
  running : lives.crashed = false → ∀ context,
    .created context .redisAsyncReconnect ∉ lives.history
  commands : CommandsFollowReconnect lives.history

namespace NoReconnect

variable {lives : Lives}

theorem of_none
    (none : ∀ context,
      .created context .redisAsyncReconnect ∉ lives.history) :
    NoReconnect lives where
  running := fun _ => none
  commands := commandsFollow_of_none none

theorem lifeStep
    {next : Lives} {access : Access} (noReconnect : NoReconnect lives)
    (running : lives.crashed = false)
    (allowed : access.Allowed lives.history)
    (step : LifeStep lives access next) :
    NoReconnect next := by
  have none := noReconnect.running running
  cases step with
  | silent => exact noReconnect
  | crash => exact of_none none
  | addConn =>
      apply of_none
      simp [Lives.create, Lives.log, none]
  | command use issued =>
      apply of_none
      simp [Lives.log, none]
  | notified event context live crashed harmless =>
      apply of_none
      rcases harmless with connected | ⟨disconnected, _⟩
      · simp [Lives.log, none, connected]
      · simp [Lives.log, none, disconnected]
  | closed event context live closes timers captured =>
      apply of_none
      rcases closes_iff.mp closes with refused | ⟨status, lost⟩
      · simp [Lives.log, none, refused]
      · simp [Lives.log, none, lost]
  | reconnectAtOnce context live =>
      constructor
      · intro stillRunning
        cases stillRunning
      · simp only [Lives.create, Lives.log]
        rw [← List.append_assoc]
        apply commandsFollow_append_created
        simp [none]
  | reconnect context armed crashed => cases allowed

end NoReconnect

namespace RedisSystem

/-- The condition on a step: no reconnect timer fires, and a command is
handled only while the connection of the last `add_conn` is not over. -/
def UsesAllowed (system : RedisSystem) (action : RedisAction) : Prop :=
  (system.access action).Allowed system.history

theorem tracked_start (manager : TaskManager) :
    Tracked (start manager).lives where
  live := by
    intro context
    simp [start, lives, Lifetime.not_live_nil]
  uninitialised := Lifetime.not_live_nil _ _
  current := rfl
  known := by
    intro context isCurrent
    cases isCurrent
  closed := by
    intro _ context
    simp [start, lives, Closed]
  timers := by
    intro context armed
    cases armed

/-- What is known after a step of the system. -/
theorem tracked_step
    {system next : RedisSystem} {action : RedisAction}
    (tracked : Tracked system.lives)
    (stepped : system.step action = some next) :
    system.lives.crashed = false ∧
      LifeStep system.lives (system.access action) next.lives ∧
      Tracked next.lives := by
  have captured : ∀ context ∈ system.lives.timers,
      context < system.lives.freed.length := by
    intro context armed
    exact (List.getElem?_eq_some_iff.mp (tracked.timers context armed)).1
  obtain ⟨running, step⟩ := step_lifeStep captured stepped
  exact ⟨running, step, tracked.lifeStep running step⟩

theorem safe_run_iff
    {manager : TaskManager} {actions : List RedisAction}
    {final : RedisSystem}
    (ran : run step (start manager) actions = some final) :
    contextLifetime.Safe final.history ↔
      AllSteps step UsesAllowed (start manager) actions := by
  have whole := @run_iff_allSteps _ _ step UsesAllowed
    (fun system => Tracked system.lives)
    (fun system => contextLifetime.Safe system.history)
    (fun _ _ _ tracked stepped => (tracked_step tracked stepped).2.2)
    (fun _ _ _ tracked stepped =>
      have facts := tracked_step tracked stepped
      tracked.safe_lifeStep facts.1 facts.2.1)
    _ _ _ (tracked_start manager) ran
  rw [whole]
  exact and_iff_right (Lifetime.safe_nil _)

theorem noReconnect_run
    {manager : TaskManager} {actions : List RedisAction}
    {final : RedisSystem}
    (allowed : AllSteps step UsesAllowed (start manager) actions)
    (ran : run step (start manager) actions = some final) :
    NoReconnect final.lives := by
  have both := @run_invariant_of_allSteps _ _ step UsesAllowed
    (fun system => Tracked system.lives ∧ NoReconnect system.lives)
    (fun _ _ _ holds here stepped =>
      have facts := tracked_step holds.1 stepped
      ⟨facts.2.2, holds.2.lifeStep facts.1 here facts.2.1⟩)
    _ _ _ ⟨tracked_start manager, .of_none (by simp [start, lives])⟩
    allowed ran
  exact both.2

/-- A run keeps to living contexts, and sends its commands to the context of
the last reconnect, exactly if each of its steps meets `UsesAllowed`. -/
theorem onMessage_usesLiveContext
    (manager : TaskManager) (actions : List RedisAction)
    (final : RedisSystem)
    (ran : run step (start manager) actions = some final) :
    contextLifetime.Safe final.history ∧
        CommandsFollowReconnect final.history ↔
      AllSteps step UsesAllowed (start manager) actions := by
  rw [safe_run_iff ran]
  constructor
  · intro both
    exact both.1
  · intro allowed
    exact ⟨allowed, (noReconnect_run allowed ran).commands⟩

/-- A connection is made, and a command issued on it. -/
def connectedTrace : List RedisAction :=
  [.addConn "127.0.0.1" 6379, .evfdCallback, .next false, .next false,
    .connectNotification 0 .ok, .put (ascii "key") (ascii "value") 0 0,
    .evfdCallback, .next false]

theorem onMessage_usesLiveContext_connected :
    ∃ final,
      run step (start TaskManager.empty) connectedTrace = some final ∧
        contextLifetime.Safe final.history ∧
        CommandsFollowReconnect final.history := by
  obtain ⟨final, ran⟩ : ∃ final,
      run step (start TaskManager.empty) connectedTrace = some final :=
    ⟨_, rfl⟩
  have connected : KeepsConnection
      [.created 0 .processAddConn, .connectNotified 0 .ok] :=
    ⟨0, rfl, by simp [Closed, ContextEvent.Closes]⟩
  have allowed :
      AllSteps step UsesAllowed (start TaskManager.empty) connectedTrace := by
    iterate 7 apply allSteps_cons trivial rfl
    exact allSteps_cons connected rfl trivial
  exact ⟨final, ran, (onMessage_usesLiveContext _ _ _ ran).mpr allowed⟩

/-- A connection is lost in good order, and made again by the timer. -/
def reconnectTrace : List RedisAction :=
  [.addConn "127.0.0.1" 6379, .evfdCallback, .next false, .next false,
    .connectNotification 0 .ok, .disconnectNotification 0 .ok false,
    .reconnectTimer 0 false, .connectNotification 1 .ok,
    .put (ascii "key") (ascii "value") 0 0, .evfdCallback, .next false]

/-- The timer reads the context that has been freed, and the command goes to
that context and not to the new one. -/
theorem onMessage_usesFreedContext :
    ∃ final,
      run step (start TaskManager.empty) reconnectTrace = some final ∧
        ¬ contextLifetime.Safe final.history ∧
        ¬ CommandsFollowReconnect final.history := by
  let opened : List ContextEvent :=
    [.created 0 .processAddConn, .connectNotified 0 .ok,
      .disconnectNotified 0 .ok]
  let reconnected : List ContextEvent :=
    [.created 1 .redisAsyncReconnect, .connectNotified 1 .ok]
  let command : ContextUse :=
    .formattedCommand
      { usrData := 0, cb := 0,
        body := RedisCommand.redisFormatCommand
          [ascii "SET", ascii "key", ascii "value"] }
  have recorded : (run step (start TaskManager.empty) reconnectTrace).map
        RedisSystem.history =
      some
        (opened ++ .freed 0 :: .used (some 0) .readHostPort :: reconnected ++
          [.used (some 0) command]) := rfl
  obtain ⟨final, ran, history⟩ := Option.map_eq_some_iff.mp recorded
  refine ⟨final, ran, ?_, ?_⟩
  · intro safe
    have readLive := safe (opened ++ [.freed 0])
      (.used (some 0) .readHostPort) (reconnected ++ [.used (some 0) command])
      (some 0) history rfl
    exact Lifetime.not_live_of_freed rfl id (by simp) readLive
  · intro follows
    have same := follows (opened ++ [.freed 0, .used (some 0) .readHostPort])
      1 [.connectNotified 1 .ok] (some 0) command [] history (by simp)
      (by simp [command])
    cases same

end RedisSystem

end DBWrapper
