import DBWrapper.Redis.Reconnecting

/-!
# Reconnects that find no worker

`redisAsyncReconnect` looks for the worker by the old context and uses the
pointer that it gets without a test.  The lookup finds the worker only as the
first task of the map, and only by the context that it has remembered last.
So a reconnect for any older context is the use of a null pointer, and the
reconnect out of the disconnect callback always is.

Notifications come here in any order and for any context that has been
created.  Those that hiredis delivers are among them.
-/

namespace DBWrapper

open Foundation

namespace TaskManager

/-- The worker is there, and no other task has a detail info. -/
structure OnlyWorkerSet (manager : TaskManager) : Prop where
  present : (manager.details worker001).isSome
  others : ∀ name info, name ≠ worker001 →
    manager.details name = some info → info = none

/-- The lookup looks at the first task of the map and at no other. -/
theorem lookup_of_onlyWorkerSet
    {manager : TaskManager} (only : OnlyWorkerSet manager) (info : Pointer) :
    manager.getTaskPtrPWithDetailInfo info =
      if manager.taskMap.keys.head? = some worker001 ∧
          manager.details worker001 = some (some info) then
        some worker001
      else none := by
  rw [← Std.TreeMap.map_fst_toList_eq_keys]
  simp only [getTaskPtrPWithDetailInfo]
  cases listed : manager.taskMap.toList with
  | nil => simp
  | cons entry entries =>
      obtain ⟨name, task⟩ := entry
      have found : manager.taskMap[name]? = some task := by
        rw [← Std.TreeMap.mem_toList_iff_getElem?_eq_some, listed]
        exact List.mem_cons_self
      by_cases own : name = worker001
      · subst own
        simp [details, found]
      · have unset : task.detailInfo = none := by
          apply only.others name _ own
          simp [details, found]
        simp [own, unset]

end TaskManager

/-- What decides whether a reconnect finds the worker: for each context
whether `redisAsyncConnect` returned it with an error, which contexts a
reconnect has made, the one that the worker remembers, the running timers, and
the contexts that `redisAsyncReconnect` has been called with. -/
structure Recall where
  errs : List Bool
  reconnected : List Pointer
  current : Option Pointer
  timers : List Pointer
  calls : List Pointer
  crashed : Bool

namespace Recall

/-- The context is one to remember: `process_add_conn` got it without an
error, or a reconnect has made it. -/
def Remembered (memory : Recall) (context : Pointer) : Prop :=
  memory.errs[context]? = some false ∨ context ∈ memory.reconnected

/-- No newer context is one to remember. -/
def Newest (memory : Recall) (context : Pointer) : Prop :=
  memory.Remembered context ∧
    ∀ newer, memory.Remembered newer → newer ≤ context

/-- What is known of a running system. -/
structure Good (memory : Recall) : Prop where
  timers : ∀ context ∈ memory.timers, context < memory.errs.length
  reconnected : ∀ context ∈ memory.reconnected, context < memory.errs.length
  current : memory.crashed = false →
    ∀ context, memory.current = some context ↔ memory.Newest context

theorem Good.remembered_lt
    {memory : Recall} (good : memory.Good) {context : Pointer}
    (remembered : memory.Remembered context) :
    context < memory.errs.length := by
  rcases remembered with accepted | made
  · exact (List.getElem?_eq_some_iff.mp accepted).1
  · exact good.reconnected context made

end Recall

/-- What a step may do, and the context with which it has called
`redisAsyncReconnect`. -/
inductive RecallStep (memory : Recall) : Option Pointer → Recall → Prop where
  | quiet (crashed : Bool) : RecallStep memory none { memory with crashed }
  | arm (context : Pointer) (known : context < memory.errs.length) :
      RecallStep memory none
        { memory with timers := memory.timers ++ [context] }
  | addConn (refused : Bool) :
      RecallStep memory none
        { memory with
          errs := memory.errs ++ [refused]
          current := if refused then memory.current
            else some memory.errs.length }
  | reconnect (context : Pointer) (refused : Bool) (timers : List Pointer)
      (kept : timers ⊆ memory.timers) :
      RecallStep memory (some context)
        { memory with
          errs := memory.errs ++ [refused]
          reconnected := memory.reconnected ++ [memory.errs.length]
          current := some memory.errs.length
          timers
          calls := memory.calls ++ [context] }
  /-- The new context is made, but there is nobody to remember it. -/
  | missing (context : Pointer) (refused : Bool) (timers : List Pointer)
      (kept : timers ⊆ memory.timers) :
      RecallStep memory (some context)
        { memory with
          errs := memory.errs ++ [refused]
          reconnected := memory.reconnected ++ [memory.errs.length]
          timers
          calls := memory.calls ++ [context]
          crashed := true }

theorem RecallStep.calls
    {memory next : Recall} {called : Option Pointer}
    (step : RecallStep memory called next) :
    next.calls = memory.calls ++ called.toList := by
  cases step with
  | quiet _ => simp
  | arm _ _ => simp
  | addConn _ => simp
  | reconnect _ _ _ _ => rfl
  | missing _ _ _ _ => rfl

namespace Recall

/-- One more context to remember is the newest one. -/
theorem newest_iff_of_fresh
    {memory next : Recall} (good : memory.Good)
    (fresh : ∀ context, next.Remembered context ↔
      memory.Remembered context ∨ context = memory.errs.length)
    (context : Pointer) :
    some memory.errs.length = some context ↔ next.Newest context := by
  constructor
  · intro isFresh
    cases isFresh
    refine ⟨(fresh _).mpr (.inr rfl), ?_⟩
    intro newer remembered
    rcases (fresh newer).mp remembered with earlier | rfl
    · exact Nat.le_of_lt (good.remembered_lt earlier)
    · exact Nat.le_refl _
  · intro newest
    have bound := newest.2 memory.errs.length ((fresh _).mpr (.inr rfl))
    rcases (fresh context).mp newest.1 with earlier | isFresh
    · exact (Nat.not_le_of_lt (good.remembered_lt earlier) bound).elim
    · rw [isFresh]

theorem Good.step
    {memory next : Recall} {called : Option Pointer} (good : memory.Good)
    (running : memory.crashed = false)
    (step : RecallStep memory called next) : next.Good := by
  have longer : ∀ {bound : Nat}, bound < memory.errs.length →
      ∀ refused, bound < (memory.errs ++ [refused]).length := by
    intro bound known refused
    rw [List.length_append]
    exact Nat.lt_add_right _ known
  have made : ∀ refused, ∀ context ∈
      memory.reconnected ++ [memory.errs.length],
        context < (memory.errs ++ [refused]).length := by
    intro refused context listed
    rcases List.mem_append.mp listed with earlier | isFresh
    · exact longer (good.reconnected context earlier) refused
    · rw [List.mem_singleton.mp isFresh]
      simp
  cases step with
  | quiet crashed =>
      exact ⟨good.timers, good.reconnected, fun _ => good.current running⟩
  | arm context known =>
      refine ⟨?_, good.reconnected, good.current⟩
      intro other armed
      rcases List.mem_append.mp armed with earlier | isNew
      · exact good.timers other earlier
      · rw [List.mem_singleton.mp isNew]
        exact known
  | addConn refused =>
      refine ⟨?_, ?_, ?_⟩
      · intro context armed
        exact longer (good.timers context armed) refused
      · intro context listed
        exact longer (good.reconnected context listed) refused
      · intro _ context
        cases refused with
        | true =>
            have same : ∀ {other}, Remembered
                { memory with errs := memory.errs ++ [true] } other ↔
                  memory.Remembered other := by
              intro other
              simp [Remembered, getElem?_append_singleton_eq_some_iff]
            simp only [Newest, if_true]
            rw [good.current running]
            simp only [Newest, same]
        | false =>
            apply newest_iff_of_fresh good
            intro other
            simp only [Remembered, getElem?_append_singleton_eq_some_iff,
              and_true]
            tauto
  | reconnect context refused timers kept =>
      refine ⟨?_, made refused, ?_⟩
      · intro other armed
        exact longer (good.timers other (kept armed)) refused
      · intro _ other
        apply newest_iff_of_fresh good
        intro another
        simp only [Remembered, getElem?_append_singleton_eq_some_iff,
          List.mem_append, List.mem_singleton]
        tauto
  | missing context refused timers kept =>
      refine ⟨?_, made refused, ?_⟩
      · intro other armed
        exact longer (good.timers other (kept armed)) refused
      · intro stillRunning
        cases stillRunning

end Recall

/-- A context that `redisAsyncReconnect` has made. -/
def ContextEvent.reconnected : ContextEvent → Option Pointer
  | .created context .redisAsyncReconnect => some context
  | _ => none

/-- A context that `redisAsyncReconnect` has been called with: it reads host
and port from it. -/
def ContextEvent.called : ContextEvent → Option Pointer
  | .used (some context) .readHostPort => some context
  | _ => none

namespace RedisSystem

/-- A step of the system in which any notification of any context that has
been created may come. -/
def stepAny (system : RedisSystem) (action : RedisAction) :
    Option RedisSystem :=
  match action with
  | .connectNotification context status =>
      if system.crashed = false ∧ system.draining = false ∧
          context < system.contexts.length then
        some (system.handleConnect context status)
      else
        none
  | .disconnectNotification context status refused =>
      if system.crashed = false ∧ system.draining = false ∧
          context < system.contexts.length then
        some (system.handleDisconnect context status refused)
      else
        none
  | action => system.step action

theorem stepAny_of_step
    {system next : RedisSystem} {action : RedisAction}
    (stepped : system.step action = some next) :
    system.stepAny action = some next := by
  cases action with
  | connectNotification context status =>
      simp only [step] at stepped
      split at stepped
      · cases stepped
      · rename_i running
        split at stepped
        · rename_i idle known
          cases stepped
          have bound := (List.getElem?_eq_some_iff.mp known).1
          exact if_pos ⟨by simpa using running, idle, bound⟩
        · cases stepped
  | disconnectNotification context status refused =>
      simp only [step] at stepped
      split at stepped
      · cases stepped
      · rename_i running
        split at stepped
        · rename_i idle known
          cases stepped
          have bound := (List.getElem?_eq_some_iff.mp known).1
          exact if_pos ⟨by simpa using running, idle, bound⟩
        · cases stepped
  | _ => exact stepped

/-- What hiredis delivers is among it. -/
theorem run_stepAny
    {system final : RedisSystem} {actions : List RedisAction}
    (ran : run step system actions = some final) :
    run stepAny system actions = some final :=
  run_mono (fun _ _ _ stepped => stepAny_of_step stepped) ran

def memory (system : RedisSystem) : Recall :=
  { errs := system.contexts.map RedisAsyncContext.err
    reconnected := system.history.filterMap ContextEvent.reconnected
    current := system.current
    timers := system.reconnectTimers
    calls := system.history.filterMap ContextEvent.called
    crashed := system.crashed }

/-- The step calls `redisAsyncReconnect` with the context. -/
def Reconnects (system next : RedisSystem) (context : Pointer) : Prop :=
  ∃ calls, next.memory.calls = system.memory.calls ++ calls ∧ context ∈ calls

/-- Wherever the step calls `redisAsyncReconnect`, the lookup in it returns a
task. -/
def FindsWorker (system : RedisSystem) (action : RedisAction) : Prop :=
  ∀ next context, system.stepAny action = some next →
    Reconnects system next context →
      system.manager.getTaskPtrPWithDetailInfo context ≠ none

/-- The worker is the first task of the map, and a reconnect timer, or a
disconnect in good order, is one of the newest context to remember. -/
def ReconnectsNewest (system : RedisSystem) : RedisAction → Prop
  | .disconnectNotification context .ok _ | .reconnectTimer context _ =>
      system.manager.taskMap.keys.head? = some worker001 ∧
        system.memory.Newest context
  | _ => True

/-- The context with which an action calls `redisAsyncReconnect`. -/
def called (system : RedisSystem) : RedisAction → Option Pointer
  | .disconnectNotification context .ok _ =>
      if system.manager.getTaskPtrPWithDetailInfo context = none then
        some context
      else none
  | .reconnectTimer context _ => some context
  | _ => none

/-! ### The operations -/

theorem map_err_modify
    (contexts : List RedisAsyncContext) (context : Pointer)
    {change : RedisAsyncContext → RedisAsyncContext}
    (kept : ∀ before, (change before).err = before.err) :
    (contexts.modify context change).map RedisAsyncContext.err =
      contexts.map RedisAsyncContext.err := by
  induction contexts generalizing context with
  | nil => simp
  | cons head contexts induction =>
      cases context with
      | zero => simp [kept]
      | succ context => simp [induction]

@[simp] theorem memory_log (system : RedisSystem) (event : ContextEvent) :
    (system.log event).memory =
      { system.memory with
        reconnected := system.memory.reconnected ++ event.reconnected.toList
        calls := system.memory.calls ++ event.called.toList } := by
  have last : ∀ {note : ContextEvent → Option Pointer},
      [event].filterMap note = (note event).toList := by
    intro note
    rw [List.filterMap_cons]
    cases note event <;> rfl
  simp only [memory, log, List.filterMap_append, last]
  rfl

@[simp] theorem memory_attach (system : RedisSystem) (context : Pointer) :
    (system.attach context).memory = system.memory := by
  simp [memory, attach, map_err_modify, current, task]

@[simp] theorem memory_setConnected
    (system : RedisSystem) (context : Pointer) :
    (system.setConnected context).memory = system.memory := by
  simp [memory, setConnected, map_err_modify, current, task]

@[simp] theorem memory_redisFree (system : RedisSystem) (context : Pointer) :
    (system.redisFree context).memory = system.memory := by
  simp [memory, redisFree, log, map_err_modify, ContextEvent.reconnected,
    ContextEvent.called, current, task]

theorem memory_setManager
    {system : RedisSystem} {manager : TaskManager}
    (same : manager.details = system.manager.details) :
    { system with manager }.memory = system.memory := by
  simp only [memory, current_eq, same]

theorem current_setTaskDetailInfo
    {system : RedisSystem} (only : system.manager.OnlyWorkerSet)
    (info : Pointer) :
    (system.setTaskDetailInfo worker001 info).current = some info := by
  obtain ⟨before, found⟩ := Option.isSome_iff_exists.mp only.present
  rw [current_eq, setTaskDetailInfo, details_setTaskDetailInfo, if_pos rfl,
    found]
  rfl

theorem memory_setTaskDetailInfo
    {system : RedisSystem} (only : system.manager.OnlyWorkerSet)
    (info : Pointer) :
    (system.setTaskDetailInfo worker001 info).memory =
      { system.memory with current := some info } := by
  simp only [memory, current_setTaskDetailInfo only info]
  rfl

theorem onlyWorkerSet_setTaskDetailInfo
    {manager : TaskManager} (only : manager.OnlyWorkerSet) (info : Pointer) :
    (manager.setTaskDetailInfo worker001 info).OnlyWorkerSet := by
  constructor
  · rw [details_setTaskDetailInfo, if_pos rfl, Option.isSome_map]
    exact only.present
  · intro name other different found
    rw [details_setTaskDetailInfo, if_neg different] at found
    exact only.others name other different found

/-- The lookup of `redisAsyncReconnect` and of the callbacks. -/
theorem lookup_eq_some_iff
    {system : RedisSystem} (only : system.manager.OnlyWorkerSet)
    (context : Pointer) (name : String) :
    system.manager.getTaskPtrPWithDetailInfo context = some name ↔
      name = worker001 ∧ system.manager.taskMap.keys.head? = some worker001 ∧
        system.current = some context := by
  have isCurrent : system.manager.details worker001 = some (some context) ↔
      system.current = some context := by
    rw [current_eq]
    cases system.manager.details worker001 <;> simp
  rw [TaskManager.lookup_of_onlyWorkerSet only, ← isCurrent]
  split
  · rename_i both
    rw [and_iff_left both, Option.some.injEq, eq_comm]
  · rename_i fails
    simp [fails]

/-- The tasks stay what they are, and what decides about reconnects makes a
step. -/
def Recalls (system : RedisSystem) (called : Option Pointer)
    (next : RedisSystem) : Prop :=
  next.manager.OnlyWorkerSet ∧ RecallStep system.memory called next.memory

theorem recalls_of_memory_eq
    {system next : RedisSystem} (only : system.manager.OnlyWorkerSet)
    (manager : next.manager = system.manager)
    (same : next.memory = system.memory) : Recalls system none next := by
  refine ⟨by rwa [manager], ?_⟩
  rw [same]
  exact .quiet system.memory.crashed

/-- Queues and heartbeats do not matter. -/
theorem Recalls.setManager
    {system middle : RedisSystem} {called : Option Pointer}
    {manager : TaskManager} (recalls : Recalls system called middle)
    (details : manager.details = middle.manager.details) :
    Recalls system called { middle with manager } := by
  obtain ⟨only, step⟩ := recalls
  constructor
  · constructor
    · rw [details]
      exact only.present
    · rw [details]
      exact only.others
  · rw [memory_setManager details]
    exact step

@[simp] theorem memory_redisAsyncConnect
    (system : RedisSystem) (host : String) (port : Int) (err : Bool)
    (creator : Creator) :
    (system.redisAsyncConnect host port err creator).1.memory =
      { system.memory with
        errs := system.memory.errs ++ [err]
        reconnected := system.memory.reconnected ++
          (ContextEvent.created system.contexts.length
            creator).reconnected.toList } := by
  have logged := system.memory_log (.created system.contexts.length creator)
  simp only [redisAsyncConnect]
  simp only [memory, Recall.mk.injEq] at logged ⊢
  refine ⟨by simp, logged.2.1, logged.2.2.1, rfl, ?_, rfl⟩
  rw [logged.2.2.2.2.1]
  simp [ContextEvent.called]

theorem length_errs (system : RedisSystem) :
    system.memory.errs.length = system.contexts.length := by
  simp [memory]

theorem recalls_processAddConn
    {system : RedisSystem} (only : system.manager.OnlyWorkerSet)
    (payload : AddConnPayload) (refused : Bool) :
    Recalls system none (system.processAddConn payload refused).2 := by
  let connected := (((system.setConnStat .connecting).redisAsyncConnect
    payload.ip payload.port refused .processAddConn).1).setContext
      system.contexts.length
  have recalled : connected.memory =
      { system.memory with errs := system.memory.errs ++ [refused] } := by
    have same : connected.memory =
        ((system.setConnStat .connecting).redisAsyncConnect payload.ip
          payload.port refused .processAddConn).1.memory := rfl
    rw [same, memory_redisAsyncConnect]
    simp only [ContextEvent.reconnected, Option.toList_none, List.append_nil]
    rfl
  have step := @RecallStep.addConn system.memory refused
  cases refused with
  | true =>
      refine ⟨only, ?_⟩
      rw [if_pos rfl, ← recalled] at step
      exact step
  | false =>
      constructor
      · exact onlyWorkerSet_setTaskDetailInfo only _
      · have same : (system.processAddConn payload false).2.memory =
            ((connected.setTaskDetailInfo worker001
              system.contexts.length).attach system.contexts.length).memory :=
          rfl
        rw [same, memory_attach, @memory_setTaskDetailInfo connected only,
          recalled, ← length_errs]
        exact step

theorem recalls_onMessage
    {system : RedisSystem} (only : system.manager.OnlyWorkerSet)
    (msg : TaskMsg) (refused : Bool) :
    Recalls system none (system.onMessage msg refused) := by
  have command : ∀ use, use ≠ .readHostPort →
      Recalls system none (system.log (.used system.worker.context use)) := by
    intro use issued
    have noCall : (ContextEvent.used system.worker.context use).called =
        none := by
      cases system.worker.context with
      | none => rfl
      | some context =>
          cases use with
          | readHostPort => exact (issued rfl).elim
          | _ => rfl
    apply recalls_of_memory_eq only
    · rfl
    · rw [memory_log, noCall]
      simp [ContextEvent.reconnected]
  have crash : Recalls system none system.crash := ⟨only, .quiet true⟩
  have same : Recalls system none system := recalls_of_memory_eq only rfl rfl
  obtain ⟨type, seqId, body⟩ := msg
  cases type with
  | taskRedisFormatRaw =>
      cases body with
      | formatRaw raw => exact command (.formattedCommand raw) (by simp)
      | _ => exact crash
  | taskRedisRaw =>
      cases body with
      | raw raw => exact command (.command raw) (by simp)
      | _ => exact crash
  | taskRedisAddConn =>
      cases body with
      | addConn payload => exact recalls_processAddConn only payload refused
      | _ => exact crash
  | _ => exact same

theorem recalls_processMsg
    {system : RedisSystem} (only : system.manager.OnlyWorkerSet)
    (tmp : TaskMsg) (refused : Bool) :
    Recalls system none (system.processMsg tmp refused) := by
  simp only [processMsg]
  split
  · apply (recalls_of_memory_eq only rfl rfl).setManager
    rw [TaskManager.details_send2task, details_popTmpTaskQueue]
  · exact (recalls_onMessage only tmp refused).setManager
      (details_popTmpTaskQueue _)

/-- Whoever the lookup finds remembers the new context. -/
theorem recalls_redisAsyncReconnect
    {system : RedisSystem} {context : Pointer}
    (only : system.manager.OnlyWorkerSet)
    (created : context < system.contexts.length) (refused : Bool) :
    Recalls system (some context)
      (system.redisAsyncReconnect context refused) := by
  have found : system.contexts[context]? = some system.contexts[context] :=
    List.getElem?_eq_getElem created
  let connected :=
    ((system.log (.used (some context) .readHostPort)).redisAsyncConnect
      system.contexts[context].host system.contexts[context].port refused
      .redisAsyncReconnect).1
  have recalled : connected.memory =
      { system.memory with
        errs := system.memory.errs ++ [refused]
        reconnected := system.memory.reconnected ++
          [system.memory.errs.length]
        calls := system.memory.calls ++ [context] } := by
    rw [memory_redisAsyncConnect, memory_log, length_errs]
    simp [ContextEvent.reconnected, ContextEvent.called, log]
  simp only [redisAsyncReconnect]
  rw [found]
  cases lookup : system.manager.getTaskPtrPWithDetailInfo context with
  | none =>
      refine ⟨only, ?_⟩
      change RecallStep system.memory (some context)
        { connected.memory with crashed := true }
      rw [recalled]
      exact .missing context refused system.memory.timers
        (List.Subset.refl _)
  | some name =>
      obtain ⟨rfl, _, _⟩ := (lookup_eq_some_iff only context name).mp lookup
      constructor
      · exact onlyWorkerSet_setTaskDetailInfo only _
      · change RecallStep system.memory (some context)
          ((connected.setTaskDetailInfo worker001
            system.contexts.length).attach system.contexts.length).memory
        rw [memory_attach, @memory_setTaskDetailInfo connected only, recalled,
          ← length_errs]
        exact .reconnect context refused system.memory.timers
          (List.Subset.refl _)

theorem recalls_reconnectTimer
    {system : RedisSystem} {context : Pointer}
    (only : system.manager.OnlyWorkerSet)
    (created : context < system.contexts.length) (refused : Bool) :
    Recalls system (some context)
      ((system.fire context).redisAsyncReconnect context refused) := by
  obtain ⟨onlyAfter, step⟩ :=
    @recalls_redisAsyncReconnect (system.fire context) context only created
      refused
  refine ⟨onlyAfter, ?_⟩
  have fired : (system.fire context).memory =
      { system.memory with timers := system.memory.timers.erase context } :=
    rfl
  rw [fired] at step
  generalize ((system.fire context).redisAsyncReconnect context
    refused).memory = next at step ⊢
  cases step with
  | reconnect _ _ timers kept =>
      exact .reconnect context _ timers
        (List.Subset.trans kept List.erase_subset)
  | missing _ _ timers kept =>
      exact .missing context _ timers
        (List.Subset.trans kept List.erase_subset)

theorem recalls_handleConnect
    {system : RedisSystem} (only : system.manager.OnlyWorkerSet)
    (context : Pointer) (status : RedisStatus) :
    Recalls system none (system.handleConnect context status) := by
  have logged : (system.log (.connectNotified context status)).memory =
      system.memory := by
    simp [ContextEvent.reconnected, ContextEvent.called]
  cases status with
  | err =>
      apply recalls_of_memory_eq only
      · rfl
      · simp only [handleConnect, connectCallback]
        rw [memory_redisFree, logged]
  | ok =>
      have notified : ((system.log (.connectNotified context
          .ok)).setConnected context).memory = system.memory := by
        rw [memory_setConnected, logged]
      simp only [handleConnect, connectCallback]
      split
      · exact recalls_of_memory_eq only rfl notified
      · split
        · exact recalls_of_memory_eq only rfl notified
        · refine ⟨only, ?_⟩
          have crashed : ((system.log (.connectNotified context
              .ok)).setConnected context).crash.memory =
                { system.memory with crashed := true } := by
            rw [← notified]
            rfl
          rw [crashed]
          exact .quiet true

theorem recalls_handleDisconnect
    {system : RedisSystem} {context : Pointer}
    (only : system.manager.OnlyWorkerSet)
    (running : system.crashed = false)
    (created : context < system.contexts.length) (status : RedisStatus)
    (refused : Bool) :
    Recalls system
      (system.called (.disconnectNotification context status refused))
      (system.handleDisconnect context status refused) := by
  have logged : (system.log (.disconnectNotified context status)).memory =
      system.memory := by
    simp [ContextEvent.reconnected, ContextEvent.called]
  cases status with
  | err =>
      rw [@handleDisconnect_of_running system _ context .err refused rfl
        running]
      change Recalls system none _
      apply recalls_of_memory_eq only
      · rfl
      · rw [memory_redisFree]
        exact logged
  | ok =>
      let notified := system.log (.disconnectNotified context .ok)
      cases lookup : system.manager.getTaskPtrPWithDetailInfo context with
      | none =>
          have callback : notified.disconnectCallback context .ok refused =
              notified.redisAsyncReconnect context refused := by
            simp only [disconnectCallback, notified, manager_log, lookup]
          have crashed :
              (notified.redisAsyncReconnect context refused).crashed = true := by
            have present : system.contexts[context]? =
                some system.contexts[context] :=
              List.getElem?_eq_getElem created
            have same : notified.contexts[context]? =
                system.contexts[context]? := rfl
            simp only [redisAsyncReconnect, same, present]
            simp only [notified, manager_log, lookup]
            rfl
          have step := @recalls_redisAsyncReconnect notified context only
            created refused
          rw [handleDisconnect_of_crashed callback crashed]
          simp only [called, lookup, if_true]
          simp only [Recalls, notified, logged] at step
          exact step
      | some name =>
          obtain ⟨rfl, _, _⟩ := (lookup_eq_some_iff only context name).mp lookup
          have callback : notified.disconnectCallback context .ok refused =
              (notified.setConnStat .disconnected).startOnce context := by
            simp only [disconnectCallback, notified, manager_log, lookup,
              if_true]
          rw [handleDisconnect_of_running callback running]
          simp only [called, lookup, reduceCtorEq, if_false]
          refine ⟨only, ?_⟩
          rw [memory_redisFree]
          have armed : ((notified.setConnStat .disconnected).startOnce
              context).memory =
                { notified.memory with
                  timers := notified.memory.timers ++ [context] } := rfl
          rw [armed, logged]
          exact .arm context (by rw [length_errs]; exact created)

/-! ### Runs -/

theorem running_of_stepAny
    {system next : RedisSystem} {action : RedisAction}
    (stepped : system.stepAny action = some next) :
    system.crashed = false := by
  have running : system.step action = some next → system.crashed = false := by
    intro enabled
    simp only [step] at enabled
    split at enabled
    · cases enabled
    · rename_i notCrashed
      simpa using notCrashed
  cases action with
  | connectNotification context status =>
      simp only [stepAny] at stepped
      split at stepped
      · rename_i enabled
        exact enabled.1
      · cases stepped
  | disconnectNotification context status refused =>
      simp only [stepAny] at stepped
      split at stepped
      · rename_i enabled
        exact enabled.1
      · cases stepped
  | _ => exact running stepped

/-- Everything but the notifications. -/
theorem recalls_of_step
    {system next : RedisSystem} {action : RedisAction}
    (only : system.manager.OnlyWorkerSet) (good : system.memory.Good)
    (noNotification : action.notification = none)
    (stepped : system.step action = some next) :
    Recalls system (system.called action) next := by
  have same : Recalls system none system := recalls_of_memory_eq only rfl rfl
  simp only [step] at stepped
  split at stepped
  · cases stepped
  cases action with
  | addConn ip port =>
      cases stepped
      exact same.setManager (TaskManager.details_send2task _ _ _)
  | put key value usrData fn =>
      cases stepped
      exact same.setManager (TaskManager.details_send2task _ _ _)
  | sendRawCommand command usrData fn =>
      cases stepped
      exact same.setManager (TaskManager.details_send2task _ _ _)
  | sendFormatRawCommand command usrData fn =>
      cases stepped
      exact same.setManager (TaskManager.details_send2task _ _ _)
  | sendHbAll =>
      cases stepped
      exact same.setManager (TaskManager.details_sendHbAll _)
  | evfdCallback =>
      simp only at stepped
      split at stepped
      · cases stepped
      · split at stepped
        · cases stepped
        · rename_i num task found
          obtain ⟨before, isTask, read⟩ := Option.bind_eq_some_iff.mp found
          cases stepped
          have kept : task.swapQueues.detailInfo = before.detailInfo := by
            rw [TaskBase.readEvfd_eq_some read]
            rfl
          exact same.setManager (details_setTask isTask kept)
  | next refused =>
      simp only at stepped
      split at stepped
      · split at stepped
        · cases stepped
        · cases stepped
          exact recalls_of_memory_eq only rfl rfl
        · cases stepped
          exact recalls_processMsg only _ refused
      · cases stepped
  | reconnectTimer context refused =>
      simp only at stepped
      split at stepped
      · rename_i both
        cases stepped
        have created := good.timers context both.2
        rw [length_errs] at created
        exact recalls_reconnectTimer only created refused
      · cases stepped
  | connectNotification context status => cases noNotification
  | disconnectNotification context status refused => cases noNotification

theorem recalls_step
    {system next : RedisSystem} {action : RedisAction}
    (only : system.manager.OnlyWorkerSet) (good : system.memory.Good)
    (stepped : system.stepAny action = some next) :
    Recalls system (system.called action) next := by
  cases action with
  | connectNotification context status =>
      simp only [stepAny] at stepped
      split at stepped
      · cases stepped
        exact recalls_handleConnect only context status
      · cases stepped
  | disconnectNotification context status refused =>
      simp only [stepAny] at stepped
      split at stepped
      · rename_i enabled
        cases stepped
        exact recalls_handleDisconnect only enabled.1 enabled.2.2 status
          refused
      · cases stepped
  | _ => exact recalls_of_step only good rfl stepped

/-- The lookup finds the worker by the newest context to remember. -/
theorem lookup_ne_none_iff
    {system : RedisSystem} (only : system.manager.OnlyWorkerSet)
    (good : system.memory.Good) (running : system.crashed = false)
    (context : Pointer) :
    system.manager.getTaskPtrPWithDetailInfo context ≠ none ↔
      system.manager.taskMap.keys.head? = some worker001 ∧
        system.memory.Newest context := by
  rw [Option.ne_none_iff_exists', ← good.current running context]
  constructor
  · intro finds
    obtain ⟨name, found⟩ := finds
    exact ((lookup_eq_some_iff only context name).mp found).2
  · intro both
    exact ⟨worker001,
      (lookup_eq_some_iff only context worker001).mpr ⟨rfl, both⟩⟩

theorem findsWorker_iff
    {system next : RedisSystem} {action : RedisAction}
    (only : system.manager.OnlyWorkerSet) (good : system.memory.Good)
    (stepped : system.stepAny action = some next) :
    FindsWorker system action ↔ ReconnectsNewest system action := by
  have running := running_of_stepAny stepped
  obtain ⟨_, step⟩ := recalls_step only good stepped
  have reconnects : ∀ context,
      Reconnects system next context ↔ system.called action = some context := by
    intro context
    rw [← Option.mem_toList, Reconnects, step.calls]
    simp
  have finds : FindsWorker system action ↔ ∀ context,
      system.called action = some context →
        system.manager.getTaskPtrPWithDetailInfo context ≠ none := by
    constructor
    · intro finds context calls
      exact finds next context stepped ((reconnects context).mpr calls)
    · intro finds other context otherStepped calls
      rw [stepped] at otherStepped
      cases otherStepped
      exact finds context ((reconnects context).mp calls)
  rw [finds]
  cases action with
  | disconnectNotification context status refused =>
      cases status with
      | err => simp [called, ReconnectsNewest]
      | ok =>
          rw [ReconnectsNewest, ← lookup_ne_none_iff only good running]
          simp only [called]
          constructor
          · intro found missing
            exact found context (if_pos missing) missing
          · intro found other calls
            rw [if_neg found] at calls
            cases calls
  | reconnectTimer context refused =>
      rw [ReconnectsNewest, ← lookup_ne_none_iff only good running]
      simp [called]
  | _ => simp [called, ReconnectsNewest]

theorem onlyWorkerSet_start
    {manager : TaskManager}
    (unset : ∀ (name : String) (task : TaskBase),
      manager.taskMap[name]? = some task → task.detailInfo = none) :
    (start manager).manager.OnlyWorkerSet ∧
      (start manager).current = none := by
  have details : ∀ name info, (start manager).manager.details name =
      some info → info = none := by
    intro name info found
    simp only [start, RedisAsyncClient.init, TaskManager.init,
      TaskManager.addTasks, TaskManager.details, Std.TreeMap.getElem?_map,
      Std.TreeMap.getElem?_insert, Option.map_map] at found
    split at found
    · cases found
      rfl
    · split at found
      · cases found
        rfl
      · obtain ⟨task, known, rfl⟩ := Option.map_eq_some_iff.mp found
        exact unset name task known
  have present : ((start manager).manager.details worker001).isSome := by
    rw [TaskManager.details, Option.isSome_map,
      ← Std.TreeMap.mem_iff_isSome_getElem?]
    exact RedisAsyncClient.mem_init manager
  refine ⟨⟨present, fun name info _ => details name info⟩, ?_⟩
  obtain ⟨info, found⟩ := Option.isSome_iff_exists.mp present
  rw [current_eq, found, details worker001 info found]
  rfl

theorem good_start
    {manager : TaskManager} (unset : (start manager).current = none) :
    (start manager).memory.Good := by
  constructor
  · intro context armed
    cases armed
  · intro context listed
    cases listed
  · intro _ context
    have nothing : ¬ (start manager).memory.Newest context := by
      intro newest
      rcases newest.1 with accepted | made
      · cases accepted
      · cases made
    exact iff_of_false (by simp [memory, unset]) nothing

/-- Whatever the task map is that `redis_async_client::init` starts from,
every reconnect finds the worker exactly if the worker is the first task and
only the newest context to remember is disconnected in good order or
reconnected by a timer. -/
theorem reconnect_findsWorker_iff
    {manager : TaskManager} {actions : List RedisAction}
    {final : RedisSystem}
    (unset : ∀ (name : String) (task : TaskBase),
      manager.taskMap[name]? = some task → task.detailInfo = none)
    (ran : run stepAny (start manager) actions = some final) :
    AllSteps stepAny FindsWorker (start manager) actions ↔
      AllSteps stepAny ReconnectsNewest (start manager) actions := by
  obtain ⟨only, noCurrent⟩ := onlyWorkerSet_start unset
  apply @allSteps_congr _ _ stepAny FindsWorker ReconnectsNewest
    (fun system => system.manager.OnlyWorkerSet ∧ system.memory.Good) _ _ _ _ _
    _ ran
  · intro system action next known stepped
    obtain ⟨onlyNext, step⟩ := recalls_step known.1 known.2 stepped
    exact ⟨onlyNext, known.2.step (running_of_stepAny stepped) step⟩
  · intro system action next known stepped
    exact findsWorker_iff known.1 known.2 stepped
  · exact ⟨only, good_start noCurrent⟩

/-- A connection is lost in good order and made again by the timer. -/
theorem reconnect_findsWorker_iff_clean :
    ∃ final,
      run stepAny (start TaskManager.empty)
          [.addConn "127.0.0.1" 6379, .evfdCallback, .next false, .next false,
            .connectNotification 0 .ok, .disconnectNotification 0 .ok false,
            .reconnectTimer 0 false] =
        some final ∧
      final.crashed = false ∧
      AllSteps stepAny FindsWorker (start TaskManager.empty)
        [.addConn "127.0.0.1" 6379, .evfdCallback, .next false, .next false,
          .connectNotification 0 .ok, .disconnectNotification 0 .ok false,
          .reconnectTimer 0 false] := by
  refine ⟨_, run_stepAny rfl, rfl, ?_⟩
  have only : ∀ newer,
      [false][newer]? = some false ∨ newer ∈ ([] : List Pointer) →
        newer ≤ 0 := by
    intro newer remembered
    rcases remembered with accepted | made
    · exact Nat.le_of_lt_succ (List.getElem?_eq_some_iff.mp accepted).1
    · cases made
  apply (reconnect_findsWorker_iff (by
    intro name task found
    cases found) rfl).mpr
  iterate 5 apply allSteps_cons trivial rfl
  apply allSteps_cons _ rfl
  · refine ⟨?_, fun _ _ => trivial⟩
    exact ⟨rfl, .inl rfl, only⟩
  · exact ⟨rfl, .inl rfl, only⟩

/-- A second connection is asked for, and the first one is closed in good
order; or that is asked for before the timer for the first one fires, whose
context has been freed and has another address; or there is a task whose name
comes before the worker's.  hiredis delivers all of this. -/
theorem reconnect_findsNoWorker :
    (∃ system next,
      run step (start TaskManager.empty)
          [.addConn "127.0.0.1" 6379, .evfdCallback, .next false, .next false,
            .connectNotification 0 .ok, .addConn "127.0.0.1" 6380,
            .evfdCallback, .next false, .next false] = some system ∧
        step system (.disconnectNotification 0 .ok false) = some next ∧
        next.crashed = true ∧
        ¬ FindsWorker system (.disconnectNotification 0 .ok false)) ∧
    (∃ system next,
      run step (start TaskManager.empty)
          [.addConn "127.0.0.1" 6379, .evfdCallback, .next false, .next false,
            .connectNotification 0 .ok, .disconnectNotification 0 .ok false,
            .addConn "127.0.0.1" 6380, .evfdCallback, .next false,
            .next false] = some system ∧
        step system (.reconnectTimer 0 false) = some next ∧
        next.crashed = true ∧
        ¬ FindsWorker system (.reconnectTimer 0 false)) ∧
    ∃ system next,
      run step (start (TaskManager.empty.addTasks (TaskBase.create "A")))
          [.addConn "127.0.0.1" 6379, .evfdCallback, .next false, .next false,
            .connectNotification 0 .ok] = some system ∧
        step system (.disconnectNotification 0 .ok false) = some next ∧
        next.crashed = true ∧
        ¬ FindsWorker system (.disconnectNotification 0 .ok false) := by
  refine ⟨⟨_, _, rfl, rfl, rfl, ?_⟩, ⟨_, _, rfl, rfl, rfl, ?_⟩,
    ⟨_, _, rfl, rfl, rfl, ?_⟩⟩
  · intro finds
    exact finds _ 0 (stepAny_of_step rfl) ⟨[0], rfl, by simp⟩ rfl
  · intro finds
    exact finds _ 0 (stepAny_of_step rfl) ⟨[0], rfl, by simp⟩ rfl
  · intro finds
    exact finds _ 0 (stepAny_of_step rfl) ⟨[0], rfl, by simp⟩ rfl

end RedisSystem

end DBWrapper
