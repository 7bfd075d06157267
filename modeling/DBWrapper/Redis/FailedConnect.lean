import DBWrapper.Redis.MissingWorker

/-!
# A connect that is refused at once

`process_add_conn` sets the status and `_context` before it looks at the error
of the new context, and its error exit puts nothing back.  So the worker goes
on with the context that was refused, whatever it had before.  Only
`_detail_info` is written after the test.
-/

namespace DBWrapper

open Foundation

namespace RedisSystem

/-- The worker has what it had before: the status, the context that commands
are issued on, and the one by which the callbacks find it. -/
structure Restored (system next : RedisSystem) : Prop where
  connStat : next.worker.connStat = system.worker.connStat
  context : next.worker.context = system.worker.context
  detailInfo : next.current = system.current

/-- The next turn of `process_msg` comes to an `add_conn`. -/
def HandlesAddConn (system : RedisSystem) : RedisAction → Prop
  | .next _ => ∃ msg, system.nextMsg = some msg ∧ msg.type = .taskRedisAddConn
  | _ => False

/-- Commands go on to the same context, whatever contexts have been added. -/
structure KeepsContext (lives next : Lives) : Prop where
  same : next.current = lives.current
  grown : lives.freed.length ≤ next.freed.length

namespace KeepsContext

theorem of_eq {lives next : Lives} (same : next = lives) :
    KeepsContext lives next := by
  subst same
  exact ⟨rfl, Nat.le_refl _⟩

theorem trans {lives middle next : Lives}
    (first : KeepsContext lives middle) (second : KeepsContext middle next) :
    KeepsContext lives next :=
  ⟨second.same.trans first.same, Nat.le_trans first.grown second.grown⟩

end KeepsContext

theorem keepsContext_redisAsyncReconnect
    (system : RedisSystem) (context : Pointer) (refused : Bool) :
    KeepsContext system.lives
      (system.redisAsyncReconnect context refused).lives := by
  simp only [redisAsyncReconnect]
  cases system.contexts[context]? with
  | none => exact .of_eq rfl
  | some old =>
      cases system.manager.getTaskPtrPWithDetailInfo context with
      | none => constructor <;> simp [Lives.log, Lives.create]
      | some name => constructor <;> simp [Lives.log, Lives.create]

theorem keepsContext_connectCallback
    (system : RedisSystem) (context : Pointer) (status : RedisStatus) :
    KeepsContext system.lives
      (system.connectCallback context status).lives := by
  cases status with
  | err => exact .of_eq rfl
  | ok =>
      simp only [connectCallback]
      split
      · exact .of_eq rfl
      · split
        · exact .of_eq rfl
        · exact ⟨rfl, Nat.le_refl _⟩

theorem keepsContext_disconnectCallback
    (system : RedisSystem) (context : Pointer) (status : RedisStatus)
    (refused : Bool) :
    KeepsContext system.lives
      (system.disconnectCallback context status refused).lives := by
  cases status with
  | err => exact .of_eq rfl
  | ok =>
      simp only [disconnectCallback]
      split
      · exact keepsContext_redisAsyncReconnect system context refused
      · split
        · exact ⟨rfl, Nat.le_refl _⟩
        · exact ⟨rfl, Nat.le_refl _⟩

theorem keepsContext_redisFree (system : RedisSystem) (context : Pointer) :
    KeepsContext system.lives (system.redisFree context).lives := by
  rw [lives_redisFree]
  exact ⟨rfl, by simp⟩

theorem keepsContext_log (system : RedisSystem) (event : ContextEvent) :
    KeepsContext system.lives (system.log event).lives :=
  ⟨rfl, Nat.le_refl _⟩

theorem keepsContext_handleConnect
    (system : RedisSystem) (context : Pointer) (status : RedisStatus) :
    KeepsContext system.lives
      (system.handleConnect context status).lives := by
  apply (keepsContext_log system (.connectNotified context status)).trans
  cases status with
  | ok =>
      apply KeepsContext.trans (.of_eq (lives_setConnected _ context))
      exact keepsContext_connectCallback _ context .ok
  | err =>
      apply (keepsContext_connectCallback _ context .err).trans
      exact keepsContext_redisFree _ context

theorem keepsContext_handleDisconnect
    (system : RedisSystem) (context : Pointer) (status : RedisStatus)
    (refused : Bool) :
    KeepsContext system.lives
      (system.handleDisconnect context status refused).lives := by
  apply (keepsContext_log system (.disconnectNotified context status)).trans
  apply (keepsContext_disconnectCallback _ context status refused).trans
  simp only [handleDisconnect]
  split
  · exact .of_eq rfl
  · exact keepsContext_redisFree _ context

/-- Only an `add_conn` takes another context, and that is a new one. -/
theorem onMessage_context
    (system : RedisSystem) (msg : TaskMsg) (refused : Bool) :
    KeepsContext system.lives (system.onMessage msg refused).lives ∨
      msg.type = .taskRedisAddConn ∧
        (system.onMessage msg refused).lives =
          { system.lives.create [] .processAddConn with
            current := some system.lives.freed.length } := by
  obtain ⟨type, seqId, body⟩ := msg
  cases type with
  | taskRedisFormatRaw =>
      apply Or.inl
      cases body with
      | formatRaw raw => exact keepsContext_log system _
      | _ => exact ⟨rfl, Nat.le_refl _⟩
  | taskRedisRaw =>
      apply Or.inl
      cases body with
      | raw raw => exact keepsContext_log system _
      | _ => exact ⟨rfl, Nat.le_refl _⟩
  | taskRedisAddConn =>
      cases body with
      | addConn payload =>
          exact .inr ⟨rfl, lives_processAddConn system payload refused⟩
      | _ => exact .inl ⟨rfl, Nat.le_refl _⟩
  | _ => exact .inl (.of_eq rfl)

theorem processMsg_context
    (system : RedisSystem) (msg : TaskMsg) (refused : Bool) :
    KeepsContext system.lives (system.processMsg msg refused).lives ∨
      msg.type = .taskRedisAddConn ∧
        (system.processMsg msg refused).lives =
          { system.lives.create [] .processAddConn with
            current := some system.lives.freed.length } := by
  simp only [processMsg]
  split
  · exact .inl (.of_eq rfl)
  · rw [lives_popTmpTaskQueue]
    exact onMessage_context system msg refused

/-- Everything but the notifications. -/
theorem step_context
    {system next : RedisSystem} {action : RedisAction}
    (noNotification : action.notification = none)
    (stepped : system.step action = some next) :
    KeepsContext system.lives next.lives ∨
      HandlesAddConn system action ∧
        next.lives =
          { system.lives.create [] .processAddConn with
            current := some system.lives.freed.length } := by
  simp only [step] at stepped
  split at stepped
  · cases stepped
  cases action with
  | next refused =>
      simp only at stepped
      split at stepped
      · cases queued : system.task.map TaskBase.tmpTaskQueue with
        | none =>
            rw [queued] at stepped
            cases stepped
        | some queue =>
            rw [queued] at stepped
            cases queue with
            | nil =>
                cases stepped
                exact .inl (.of_eq rfl)
            | cons tmp queue =>
                cases stepped
                obtain ⟨task, found, isQueue⟩ :=
                  Option.map_eq_some_iff.mp queued
                have isNext : system.nextMsg = some tmp := by
                  simp [nextMsg, found, isQueue]
                rcases processMsg_context system tmp refused with
                  keeps | ⟨isAddConn, created⟩
                · exact .inl keeps
                · exact .inr ⟨⟨tmp, isNext, isAddConn⟩, created⟩
      · cases stepped
  | evfdCallback =>
      simp only at stepped
      split at stepped
      · cases stepped
      · split at stepped
        · cases stepped
        · cases stepped
          exact .inl (.of_eq rfl)
  | reconnectTimer context refused =>
      simp only at stepped
      split at stepped
      · cases stepped
        have fired : KeepsContext system.lives (system.fire context).lives :=
          ⟨rfl, Nat.le_refl _⟩
        apply Or.inl
        exact fired.trans (keepsContext_redisAsyncReconnect _ context refused)
      · cases stepped
  | connectNotification context status => cases noNotification
  | disconnectNotification context status refused => cases noNotification
  | _ =>
      cases stepped
      exact .inl (.of_eq rfl)

theorem stepAny_context
    {system next : RedisSystem} {action : RedisAction}
    (stepped : system.stepAny action = some next) :
    KeepsContext system.lives next.lives ∨
      HandlesAddConn system action ∧
        next.lives =
          { system.lives.create [] .processAddConn with
            current := some system.lives.freed.length } := by
  cases action with
  | connectNotification context status =>
      simp only [stepAny] at stepped
      split at stepped
      · cases stepped
        exact .inl (keepsContext_handleConnect system context status)
      · cases stepped
  | disconnectNotification context status refused =>
      simp only [stepAny] at stepped
      split at stepped
      · cases stepped
        exact .inl (keepsContext_handleDisconnect system context status refused)
      · cases stepped
  | _ => exact step_context rfl stepped

/-! ### Runs -/

/-- The context that commands are issued on has been created. -/
def ContextCreated (lives : Lives) : Prop :=
  ∀ context, lives.current = some context → context < lives.freed.length

theorem contextCreated_stepAny
    {system next : RedisSystem} {action : RedisAction}
    (created : ContextCreated system.lives)
    (stepped : system.stepAny action = some next) :
    ContextCreated next.lives := by
  intro context isCurrent
  rcases stepAny_context stepped with keeps | ⟨_, addConn⟩
  · rw [keeps.same] at isCurrent
    exact Nat.lt_of_lt_of_le (created context isCurrent) keeps.grown
  · rw [addConn] at isCurrent ⊢
    cases isCurrent
    simp [Lives.create]

/-- Commands stay with a context until the next `add_conn`. -/
theorem context_run
    {system final : RedisSystem} {actions : List RedisAction}
    (noAddConn : AllSteps stepAny (fun state action =>
      ¬ HandlesAddConn state action) system actions)
    (ran : run stepAny system actions = some final) :
    final.worker.context = system.worker.context := by
  apply @run_invariant_of_allSteps _ _ stepAny
    (fun state action => ¬ HandlesAddConn state action)
    (fun state => state.worker.context = system.worker.context) _ _ _ _ rfl
    noAddConn ran
  intro state action next same notHandled stepped
  rcases stepAny_context stepped with keeps | ⟨handled, _⟩
  · exact keeps.same.trans same
  · exact (notHandled handled).elim

theorem contextCreated_run
    {manager : TaskManager} {actions : List RedisAction}
    {system : RedisSystem}
    (ran : run stepAny (start manager) actions = some system) :
    ContextCreated system.lives := by
  apply @run_invariant _ _ stepAny (fun state => ContextCreated state.lives)
    _ _ _ _ _ ran
  · intro state action next created stepped
    exact contextCreated_stepAny created stepped
  · intro context isCurrent
    cases isCurrent

theorem onMessage_of_issuesCommand
    {msg : TaskMsg} (issues : issuesCommand msg = true)
    (system : RedisSystem) (refused : Bool) :
    ∃ use, system.onMessage msg refused =
      system.log (.used system.worker.context use) := by
  obtain ⟨type, seqId, body⟩ := msg
  cases type with
  | taskRedisFormatRaw =>
      cases body with
      | formatRaw raw => exact ⟨.formattedCommand raw, rfl⟩
      | _ => cases issues
  | taskRedisRaw =>
      cases body with
      | raw raw => exact ⟨.command raw, rfl⟩
      | _ => cases issues
  | _ => cases issues

/-- From here on the worker issues its commands on the context, until it
handles another `add_conn`. -/
def StaysWith (system : RedisSystem) (context : Pointer) : Prop :=
  ∀ actions later, run stepAny system actions = some later →
    AllSteps stepAny (fun state action => ¬ HandlesAddConn state action)
      system actions →
    ∀ msg refused, issuesCommand msg = true →
      ∃ use, later.onMessage msg refused =
        later.log (.used (some context) use)

theorem staysWith_of_context
    {system : RedisSystem} {context : Pointer}
    (isContext : system.worker.context = some context) :
    system.StaysWith context := by
  intro actions later ran noAddConn msg refused issues
  obtain ⟨use, handled⟩ := onMessage_of_issuesCommand issues later refused
  rw [context_run noAddConn ran, isContext] at handled
  exact ⟨use, handled⟩

/-- A connect that is refused at once never leaves the worker as it was: the
status says connecting, and all commands go to the refused context, which has
no callbacks and is not attached to the loop.  Only the detail info is kept. -/
theorem failedAddConn_neverRestores
    {manager : TaskManager} {actions : List RedisAction}
    {system : RedisSystem}
    (ran : run stepAny (start manager) actions = some system)
    (payload : AddConnPayload) :
    (system.processAddConn payload true).1 = false ∧
      ¬ Restored system (system.processAddConn payload true).2 ∧
      (system.processAddConn payload true).2.worker.connStat = .connecting ∧
      (system.processAddConn payload true).2.current = system.current ∧
      ∃ context,
        system.contexts[context]? = none ∧
        (system.processAddConn payload true).2.contexts[context]? =
          some
            { host := payload.ip, port := payload.port, err := true,
              attached := false, connected := false, freed := false } ∧
        (system.processAddConn payload true).2.StaysWith context := by
  have created := contextCreated_run ran
  have isContext : (system.processAddConn payload true).2.worker.context =
      some system.contexts.length := rfl
  refine ⟨rfl, ?_, rfl, rfl, system.contexts.length, by simp, ?_,
    staysWith_of_context isContext⟩
  · intro restored
    have same := isContext.symm.trans restored.context
    have bound := created _ same.symm
    simp [lives] at bound
  · have added : (system.processAddConn payload true).2.contexts =
        system.contexts ++
          [{ host := payload.ip, port := payload.port, err := true,
             attached := false, connected := false, freed := false }] := rfl
    simp [added]

/-- Connected, and a second connect is refused. -/
theorem failedAddConn_neverRestores_connected :
    ∃ system,
      run stepAny (start TaskManager.empty) connectedTrace = some system ∧
        ¬ Restored system
          (system.processAddConn { ip := "127.0.0.1", port := 6380 }
            true).2 := by
  obtain ⟨system, ran⟩ : ∃ system,
      run step (start TaskManager.empty) connectedTrace = some system :=
    ⟨_, rfl⟩
  have ranAny := run_stepAny ran
  exact ⟨system, ranAny, (failedAddConn_neverRestores ranAny _).2.1⟩

/-- The connection 0 is alive, a connect to another port is refused, and the
next command goes to the context 1. -/
theorem failedAddConn_losesConnection :
    ∃ system failed final,
      run step (start TaskManager.empty) connectedTrace = some system ∧
        system.worker = { connStat := .connected, context := some 0 } ∧
        (system.processAddConn { ip := "127.0.0.1", port := 6380 }
          true).1 = false ∧
        ¬ Restored system
          (system.processAddConn { ip := "127.0.0.1", port := 6380 }
            true).2 ∧
        run step system
            [.addConn "127.0.0.1" 6380, .next false, .evfdCallback,
              .next true] = some failed ∧
        failed.worker = { connStat := .connecting, context := some 1 } ∧
        run step failed
            [.put (ascii "key") (ascii "value") 0 0, .next true,
              .evfdCallback, .next true] = some final ∧
        ∃ use, final.history.getLast? = some (.used (some 1) use) := by
  refine ⟨_, _, _, rfl, rfl, rfl, ?_, rfl, rfl, rfl, _, rfl⟩
  intro restored
  cases restored.connStat

end RedisSystem

end DBWrapper
