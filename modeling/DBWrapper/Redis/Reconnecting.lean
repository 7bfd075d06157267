import DBWrapper.Redis.LiveContexts
import DBWrapper.TaskBase.Heartbeat

/-!
# Which losses of a connection the worker notices

Both callbacks return at once when the status is an error, so a connect that
has failed and a connection that was lost by an error leave the status as it
is and start no timer.  A clean disconnect of the current context is noticed
and retried.  As long as there are no others, the status says connected only
after a successful connect of the current context.
-/

namespace DBWrapper

open Foundation

namespace TaskManager

/-- What each task of the map has for a detail info. -/
def details (manager : TaskManager) (name : String) :
    Option (Option Pointer) :=
  manager.taskMap[name]?.map TaskBase.detailInfo

theorem detailInfo_received (task : TaskBase) (msg : TaskMsg) :
    (received task msg).detailInfo = task.detailInfo := by
  simp only [received]
  rw [TaskBase.writeEvfd_eq]
  rfl

theorem details_send2task
    (manager : TaskManager) (target : String) (msg : TaskMsg) :
    (manager.send2task target msg).2.details = manager.details := by
  funext name
  simp only [details, getElem?_send2task]
  split
  · rw [Option.map_map]
    apply congrArg (Option.map · _)
    funext task
    exact detailInfo_received task msg
  · rfl

theorem details_sendHb (manager : TaskManager) (name : String) :
    (manager.sendHb name).details = manager.details := by
  simp only [sendHb]
  split
  · exact details_send2task manager name _
  · rfl

theorem details_foldl_sendHb (manager : TaskManager) (names : List String) :
    (names.foldl sendHb manager).details = manager.details := by
  induction names generalizing manager with
  | nil => rfl
  | cons name names induction =>
      rw [List.foldl_cons, induction, details_sendHb]

theorem details_sendHbAll (manager : TaskManager) :
    manager.sendHbAll.details = manager.details :=
  details_foldl_sendHb manager _

/-- The worker is in the map, in front of all the others. -/
def WorkerFirst (manager : TaskManager) : Prop :=
  (manager.details worker001).isSome ∧
    ∀ name, (manager.details name).isSome → (compare worker001 name).isLE

theorem minKey?_of_workerFirst
    {manager : TaskManager} (first : WorkerFirst manager) :
    manager.taskMap.minKey? = some worker001 := by
  simp only [WorkerFirst, details, Option.isSome_map,
    ← Std.TreeMap.mem_iff_isSome_getElem?] at first
  exact Std.TreeMap.minKey?_eq_some_iff_mem_and_forall.mpr first

/-- The lookup by a context finds the worker or nothing. -/
theorem getTaskPtrPWithDetailInfo_eq
    {manager : TaskManager} (first : WorkerFirst manager) (info : Pointer) :
    manager.getTaskPtrPWithDetailInfo info =
      if manager.details worker001 = some (some info) then some worker001
      else none := by
  have smallest := minKey?_of_workerFirst first
  rw [Std.TreeMap.minKey?_eq_head?_keys, ← Std.TreeMap.map_fst_toList_eq_keys]
    at smallest
  simp only [getTaskPtrPWithDetailInfo]
  cases listed : manager.taskMap.toList with
  | nil =>
      rw [listed] at smallest
      cases smallest
  | cons entry entries =>
      obtain ⟨name, task⟩ := entry
      rw [listed] at smallest
      obtain rfl : name = worker001 := Option.some.inj smallest
      have found : manager.taskMap[worker001]? = some task := by
        rw [← Std.TreeMap.mem_toList_iff_getElem?_eq_some, listed]
        exact List.mem_cons_self
      simp [details, found]

end TaskManager

/-- The context that an event notifies the worker about. -/
def ContextEvent.notified : ContextEvent → Option Pointer
  | .connectNotified context _ => some context
  | .disconnectNotified context _ => some context
  | _ => none

/-- The notification that hiredis delivers in an action. -/
def RedisAction.notification : RedisAction → Option ContextEvent
  | .connectNotification context status => some (.connectNotified context status)
  | .disconnectNotification context status _ =>
      some (.disconnectNotified context status)
  | _ => none

def lastNotification (history : List ContextEvent) (context : Pointer) :
    Option ContextEvent :=
  (history.filter (fun event => event.notified = some context)).getLast?

theorem lastNotification_append_of_other
    (history : List ContextEvent) {events : List ContextEvent}
    {context : Pointer}
    (others : ∀ event ∈ events, event.notified ≠ some context) :
    lastNotification (history ++ events) context =
      lastNotification history context := by
  have none_ : events.filter (fun event => event.notified = some context) =
      [] := by
    simpa using others
  simp [lastNotification, List.filter_append, none_]

theorem lastNotification_append_singleton
    (history : List ContextEvent) {event : ContextEvent} {context : Pointer}
    (notified : event.notified = some context) :
    lastNotification (history ++ [event]) context = some event := by
  simp [lastNotification, List.filter_append, notified]

/-- What the worker knows of its connection. -/
structure Watch where
  connStat : ConnStatus
  current : Option Pointer
  timers : List Pointer
  history : List ContextEvent

namespace Watch

/-- The worker has noticed the loss of the context: a timer is running that
will find the worker, or a reconnect has put a new context in its place. -/
def Retries (watch : Watch) (context : Pointer) : Prop :=
  watch.connStat ≠ .connected ∧ watch.connStat ≠ .connecting ∧
    (context ∈ watch.timers ∨
      ∃ new, new ≠ context ∧ watch.current = some new ∧
        .created new .redisAsyncReconnect ∈ watch.history)

/-- The status says connected only after a successful connect. -/
def ConnectedRightly (watch : Watch) : Prop :=
  watch.connStat = .connected →
    ∃ context, watch.current = some context ∧
      lastNotification watch.history context =
        some (.connectNotified context .ok)

end Watch

/-- What a step may do to the knowledge of the worker, by the notification
that hiredis delivers in it. -/
inductive WatchStep (fresh : Pointer) (watch : Watch) :
    Option ContextEvent → Watch → Prop where
  | other (events : List ContextEvent) (timers : List Pointer)
      (quiet : ∀ event ∈ events, event.notified = none)
      (kept : timers ⊆ watch.timers) :
      WatchStep fresh watch none
        { watch with timers, history := watch.history ++ events }
  | addConn (refused : Bool) :
      WatchStep fresh watch none
        { watch with
          connStat := .connecting
          current := if refused then watch.current else some fresh
          history := watch.history ++ [.created fresh .processAddConn] }
  | connected (context : Pointer) (live : context ∉ watch.timers)
      (isCurrent : watch.current = some context) :
      WatchStep fresh watch (some (.connectNotified context .ok))
        { watch with
          connStat := .connected
          history := watch.history ++ [.connectNotified context .ok] }
  | ignored (event : ContextEvent) (context : Pointer)
      (events : List ContextEvent) (live : context ∉ watch.timers)
      (notifies : event.notified = some context)
      (quiet : ∀ event ∈ events, event.notified = none)
      (ignores : event = .connectNotified context .err ∨
        event = .disconnectNotified context .err ∨
        watch.current ≠ some context) :
      WatchStep fresh watch (some event)
        { watch with history := watch.history ++ [event] ++ events }
  | lost (context : Pointer) (isCurrent : watch.current = some context) :
      WatchStep fresh watch (some (.disconnectNotified context .ok))
        { watch with
          connStat := .disconnected
          timers := watch.timers ++ [context]
          history := watch.history ++ [.disconnectNotified context .ok] ++
            [.freed context] }
  | reconnect (context : Pointer) (armed : context ∈ watch.timers)
      (isCurrent : watch.current = some context) :
      WatchStep fresh watch none
        { watch with
          current := some fresh
          timers := watch.timers.erase context
          history := watch.history ++
            [.used (some context) .readHostPort,
              .created fresh .redisAsyncReconnect] }

/-- The loss of the current context is noticed exactly if it is a clean
disconnect. -/
theorem WatchStep.retries_iff
    {fresh context : Pointer} {watch next : Watch} {event : ContextEvent}
    (step : WatchStep fresh watch (some event) next)
    (isCurrent : watch.current = some context)
    (closes : event.Closes context) :
    next.Retries context ↔ event = .disconnectNotified context .ok := by
  cases step with
  | connected other live otherCurrent => cases closes
  | ignored event other events live notifies quiet ignores =>
      constructor
      · intro retries
        exfalso
        have same : other = context := by
          rcases closes_iff.mp closes with refused | ⟨status, lost⟩
          · subst refused
            cases notifies
            rfl
          · subst lost
            cases notifies
            rfl
        subst same
        rcases retries.2.2 with armed | ⟨new, different, replaced, _⟩
        · exact live armed
        · rw [isCurrent] at replaced
          cases replaced
          exact different rfl
      · intro clean
        subst clean
        cases notifies
        simp [isCurrent] at ignores
  | lost other otherCurrent =>
      rw [isCurrent] at otherCurrent
      cases otherCurrent
      simp [Watch.Retries]

/-- What the watch keeps as long as no notification of the current context
reports an error. -/
structure Watch.Faithful (watch : Watch) : Prop where
  connected : watch.ConnectedRightly
  timers : watch.connStat = .connected →
    ∀ context ∈ watch.timers, watch.current ≠ some context

theorem Watch.Faithful.step
    {fresh : Pointer} {watch next : Watch} {event : Option ContextEvent}
    (faithful : watch.Faithful)
    (step : WatchStep fresh watch event next)
    (ok : ∀ context, watch.current = some context →
      event ≠ some (.connectNotified context .err) ∧
        event ≠ some (.disconnectNotified context .err)) :
    next.Faithful := by
  cases step with
  | other events timers quiet kept =>
      constructor
      · intro connected
        obtain ⟨context, isCurrent, last⟩ := faithful.connected connected
        refine ⟨context, isCurrent, ?_⟩
        simp only
        rw [lastNotification_append_of_other _ _, last]
        intro event isIn
        simp [quiet event isIn]
      · intro connected context armed
        exact faithful.timers connected context (kept armed)
  | addConn refused => constructor <;> intro connected <;> cases connected
  | connected context live isCurrent =>
      constructor
      · intro _
        exact ⟨context, isCurrent, lastNotification_append_singleton _ rfl⟩
      · intro _ other armed otherCurrent
        rw [isCurrent] at otherCurrent
        cases otherCurrent
        exact live armed
  | ignored event context events live notifies quiet ignores =>
      have different : watch.current ≠ some context := by
        intro isCurrent
        obtain ⟨notRefused, notLost⟩ := ok context isCurrent
        rcases ignores with refused | lost | different
        · exact notRefused (congrArg some refused)
        · exact notLost (congrArg some lost)
        · exact different isCurrent
      constructor
      · intro connected
        obtain ⟨other, isCurrent, last⟩ := faithful.connected connected
        refine ⟨other, isCurrent, ?_⟩
        simp only
        rw [lastNotification_append_of_other _ (fun event isIn => by
            simp [quiet event isIn]),
          lastNotification_append_of_other _ _, last]
        intro only isIn notified
        obtain rfl := List.mem_singleton.mp isIn
        rw [notifies] at notified
        cases notified
        exact different isCurrent
      · exact faithful.timers
  | lost context isCurrent =>
      constructor <;> intro connected <;> cases connected
  | reconnect context armed isCurrent =>
      -- a timer of the current context runs only when it is not connected
      have notConnected : watch.connStat ≠ .connected :=
        fun connected => faithful.timers connected context armed isCurrent
      constructor
      · intro connected
        exact (notConnected connected).elim
      · intro connected
        exact (notConnected connected).elim

namespace RedisSystem

/-- The context by which the callbacks find the worker. -/
def current (system : RedisSystem) : Option Pointer :=
  system.task.bind TaskBase.detailInfo

def watch (system : RedisSystem) : Watch :=
  { connStat := system.worker.connStat
    current := system.current
    timers := system.reconnectTimers
    history := system.history }

theorem current_eq (system : RedisSystem) :
    system.current = (system.manager.details worker001).join := by
  simp only [current, task, TaskManager.details]
  cases system.manager.taskMap[worker001]? <;> rfl

/-- A change of the tasks that leaves their detail infos alone. -/
theorem watch_setManager
    {system : RedisSystem} {manager : TaskManager}
    (same : manager.details = system.manager.details) :
    { system with manager }.watch = system.watch := by
  simp only [watch, current_eq, same]

/-- The detail info of the worker is set, the others are kept. -/
theorem details_setTaskDetailInfo
    (manager : TaskManager) (info : Pointer) (name : String) :
    (manager.setTaskDetailInfo worker001 info).details name =
      if name = worker001 then
        (manager.details worker001).map (fun _ => some info)
      else
        manager.details name := by
  simp only [TaskManager.details, TaskManager.setTaskDetailInfo]
  rw [Std.TreeMap.getElem?_modify]
  by_cases own : name = worker001
  · subst own
    simp only [Std.ReflCmp.compare_self, if_true, Option.map_map]
    rfl
  · have different : compare worker001 name ≠ .eq := by
      intro equal
      exact own (Std.LawfulEqCmp.eq_of_compare equal).symm
    rw [if_neg different, if_neg own]

theorem workerFirst_setTaskDetailInfo
    {manager : TaskManager} (first : manager.WorkerFirst) (info : Pointer) :
    (manager.setTaskDetailInfo worker001 info).WorkerFirst := by
  obtain ⟨present, smallest⟩ := first
  constructor
  · rw [details_setTaskDetailInfo, if_pos rfl]
    simpa using present
  · intro name listed
    rw [details_setTaskDetailInfo] at listed
    split at listed
    · rename_i own
      subst own
      exact smallest _ present
    · exact smallest name listed

theorem watch_setTaskDetailInfo
    {system : RedisSystem} (first : system.manager.WorkerFirst)
    (info : Pointer) :
    (system.setTaskDetailInfo worker001 info).watch =
      { system.watch with current := some info } := by
  obtain ⟨before, found⟩ := Option.isSome_iff_exists.mp first.1
  simp only [watch, current_eq, setTaskDetailInfo]
  rw [details_setTaskDetailInfo, if_pos rfl, found]
  rfl

theorem details_popTmpTaskQueue (system : RedisSystem) :
    system.popTmpTaskQueue.manager.details = system.manager.details := by
  funext name
  simp only [TaskManager.details, popTmpTaskQueue]
  rw [Std.TreeMap.getElem?_modify]
  split
  · rename_i own
    rw [← Std.LawfulEqCmp.eq_of_compare own, Option.map_map]
    rfl
  · rfl

theorem details_setTask
    {system : RedisSystem} {before task : TaskBase}
    (found : system.task = some before)
    (same : task.detailInfo = before.detailInfo) :
    (system.setTask task).manager.details = system.manager.details := by
  funext name
  simp only [TaskManager.details, setTask]
  rw [Std.TreeMap.getElem?_insert]
  split
  · rename_i own
    rw [RedisSystem.task] at found
    rw [← Std.LawfulEqCmp.eq_of_compare own, found]
    simp [same]
  · rfl

/-- The lookup of the callbacks. -/
theorem lookup_eq
    {system : RedisSystem} (first : system.manager.WorkerFirst)
    (context : Pointer) :
    system.manager.getTaskPtrPWithDetailInfo context =
      if system.current = some context then some worker001 else none := by
  rw [TaskManager.getTaskPtrPWithDetailInfo_eq first, current_eq]
  cases system.manager.details worker001 with
  | none => rfl
  | some info => simp

/-! ### The operations, as the watch sees them -/

/-- The tasks stay what they are, and the watch makes a step. -/
def Watches (system : RedisSystem) (event : Option ContextEvent)
    (next : RedisSystem) : Prop :=
  next.manager.WorkerFirst ∧
    WatchStep system.contexts.length system.watch event next.watch

theorem watches_refl
    {system : RedisSystem} (first : system.manager.WorkerFirst) :
    Watches system none system := by
  refine ⟨first, ?_⟩
  have silent := @WatchStep.other system.contexts.length system.watch []
    system.reconnectTimers (by simp) (List.Subset.refl _)
  simpa [watch] using silent

/-- Queues and heartbeats do not matter. -/
theorem Watches.setManager
    {system middle : RedisSystem} {event : Option ContextEvent}
    {manager : TaskManager} (watches : Watches system event middle)
    (details : manager.details = middle.manager.details) :
    Watches system event { middle with manager } := by
  obtain ⟨first, step⟩ := watches
  constructor
  · simp only [TaskManager.WorkerFirst, details]
    exact first
  · rw [watch_setManager details]
    exact step

theorem watches_processAddConn
    {system : RedisSystem} (first : system.manager.WorkerFirst)
    (payload : AddConnPayload) (refused : Bool) :
    Watches system none (system.processAddConn payload refused).2 := by
  cases refused with
  | true => exact ⟨first, .addConn true⟩
  | false =>
      constructor
      · exact workerFirst_setTaskDetailInfo first _
      · have step := @WatchStep.addConn system.contexts.length system.watch
          false
        let connected := (((system.setConnStat .connecting).redisAsyncConnect
          payload.ip payload.port false .processAddConn).1).setContext
            system.contexts.length
        have watched := @watch_setTaskDetailInfo connected first
          system.contexts.length
        have same : (system.processAddConn payload false).2.watch =
            (connected.setTaskDetailInfo worker001
              system.contexts.length).watch := rfl
        rw [same, watched]
        exact step

theorem watches_onMessage
    {system : RedisSystem} (first : system.manager.WorkerFirst)
    (msg : TaskMsg) (refused : Bool) :
    Watches system none (system.onMessage msg refused) := by
  have command : ∀ use,
      Watches system none (system.log (.used system.worker.context use)) :=
    fun use => ⟨first, .other [_] _ (by simp [ContextEvent.notified])
      (List.Subset.refl _)⟩
  have same := watches_refl first
  obtain ⟨type, seqId, body⟩ := msg
  cases type with
  | taskRedisFormatRaw =>
      cases body with
      | formatRaw raw => exact command (.formattedCommand raw)
      | _ => exact same
  | taskRedisRaw =>
      cases body with
      | raw raw => exact command (.command raw)
      | _ => exact same
  | taskRedisAddConn =>
      cases body with
      | addConn payload => exact watches_processAddConn first payload refused
      | _ => exact same
  | _ => exact same

theorem watches_processMsg
    {system : RedisSystem} (first : system.manager.WorkerFirst)
    (tmp : TaskMsg) (refused : Bool) :
    Watches system none (system.processMsg tmp refused) := by
  simp only [processMsg]
  split
  · apply (watches_refl first).setManager
    rw [TaskManager.details_send2task, details_popTmpTaskQueue]
  · exact (watches_onMessage first tmp refused).setManager
      (details_popTmpTaskQueue _)

/-- A reconnect puts a new context in the place of the old one, if that is
still the current one. -/
theorem watch_redisAsyncReconnect
    {system : RedisSystem} {context : Pointer}
    (first : system.manager.WorkerFirst)
    (created : context < system.contexts.length) (refused : Bool) :
    (system.redisAsyncReconnect context refused).manager.WorkerFirst ∧
      (system.redisAsyncReconnect context refused).watch =
        { system.watch with
          current :=
            if system.current = some context then some system.contexts.length
            else system.current
          history := system.history ++
            [.used (some context) .readHostPort,
              .created system.contexts.length .redisAsyncReconnect] } := by
  have found : system.contexts[context]? = some system.contexts[context] :=
    List.getElem?_eq_getElem created
  let connected :=
    ((system.log (.used (some context) .readHostPort)).redisAsyncConnect
      system.contexts[context].host system.contexts[context].port refused
      .redisAsyncReconnect).1
  have history : connected.history = system.history ++
      [.used (some context) .readHostPort,
        .created system.contexts.length .redisAsyncReconnect] := by
    simp [connected, redisAsyncConnect, log]
  simp only [redisAsyncReconnect]
  rw [found, lookup_eq first]
  by_cases isCurrent : system.current = some context
  · have watched := @watch_setTaskDetailInfo connected first
      system.contexts.length
    rw [if_pos isCurrent, if_pos isCurrent, ← history]
    exact ⟨workerFirst_setTaskDetailInfo first _, watched⟩
  · rw [if_neg isCurrent, if_neg isCurrent, ← history]
    exact ⟨first, rfl⟩

theorem watches_reconnectTimer
    {system : RedisSystem} {context : Pointer}
    (first : system.manager.WorkerFirst)
    (armed : context ∈ system.reconnectTimers)
    (created : context < system.contexts.length) (refused : Bool) :
    Watches system none
      ((system.fire context).redisAsyncReconnect context refused) := by
  obtain ⟨firstAfter, watched⟩ :=
    @watch_redisAsyncReconnect (system.fire context) context first created
      refused
  refine ⟨firstAfter, ?_⟩
  rw [watched]
  have same : (system.fire context).current = system.current := rfl
  rw [same]
  by_cases isCurrent : system.current = some context
  · rw [if_pos isCurrent]
    exact .reconnect context armed isCurrent
  · rw [if_neg isCurrent]
    exact .other _ (system.reconnectTimers.erase context)
      (by simp [ContextEvent.notified]) List.erase_subset

theorem watches_handleConnect
    {system : RedisSystem} {context : Pointer}
    (first : system.manager.WorkerFirst)
    (live : context ∉ system.reconnectTimers) (status : RedisStatus) :
    Watches system (some (.connectNotified context status))
      (system.handleConnect context status) := by
  cases status with
  | err =>
      exact ⟨first, .ignored _ context [.freed context] live rfl
        (by simp [ContextEvent.notified]) (.inl rfl)⟩
  | ok =>
      let logged := (system.log (.connectNotified context .ok)).setConnected
        context
      have lookup := @lookup_eq logged first context
      simp only [handleConnect, connectCallback]
      rw [lookup]
      by_cases isCurrent : system.current = some context
      · have loggedCurrent : logged.current = some context := isCurrent
        rw [if_pos loggedCurrent]
        exact ⟨first, .connected context live isCurrent⟩
      · have loggedCurrent : ¬ logged.current = some context := isCurrent
        rw [if_neg loggedCurrent]
        refine ⟨first, ?_⟩
        have ignored := @WatchStep.ignored system.contexts.length system.watch
          (.connectNotified context .ok) context [] live rfl (by simp)
          (.inr (.inr isCurrent))
        rw [List.append_nil] at ignored
        exact ignored

/-- The context is freed when its callback has returned. -/
theorem handleDisconnect_of_running
    {system next : RedisSystem} {context : Pointer} {status : RedisStatus}
    {refused : Bool}
    (callback : (system.log (.disconnectNotified context status)).disconnectCallback
      context status refused = next)
    (running : next.crashed = false) :
    system.handleDisconnect context status refused =
      next.redisFree context := by
  subst callback
  exact if_neg (by simp [running])

theorem handleDisconnect_of_crashed
    {system next : RedisSystem} {context : Pointer} {status : RedisStatus}
    {refused : Bool}
    (callback : (system.log (.disconnectNotified context status)).disconnectCallback
      context status refused = next)
    (crashed : next.crashed = true) :
    system.handleDisconnect context status refused = next := by
  subst callback
  exact if_pos crashed

theorem watches_handleDisconnect
    {system : RedisSystem} {context : Pointer}
    (first : system.manager.WorkerFirst)
    (running : system.crashed = false)
    (created : context < system.contexts.length)
    (live : context ∉ system.reconnectTimers) (status : RedisStatus)
    (refused : Bool) :
    Watches system (some (.disconnectNotified context status))
      (system.handleDisconnect context status refused) := by
  cases status with
  | err =>
      have handled := @handleDisconnect_of_running system _ context .err
        refused rfl running
      rw [handled]
      exact ⟨first, .ignored _ context [.freed context] live rfl
        (by simp [ContextEvent.notified]) (.inr (.inl rfl))⟩
  | ok =>
      let logged := system.log (.disconnectNotified context .ok)
      have lookup := @lookup_eq logged first context
      by_cases isCurrent : system.current = some context
      · have found : logged.manager.getTaskPtrPWithDetailInfo context =
            some worker001 := by
          rw [lookup]
          exact if_pos isCurrent
        have callback : logged.disconnectCallback context .ok refused =
            (logged.setConnStat .disconnected).startOnce context := by
          simp only [disconnectCallback]
          rw [found]
          rfl
        have handled := handleDisconnect_of_running callback running
        rw [handled]
        exact ⟨first, .lost context isCurrent⟩
      · have absent : logged.manager.getTaskPtrPWithDetailInfo context =
            none := by
          rw [lookup]
          exact if_neg isCurrent
        have present : logged.contexts[context]? =
            some system.contexts[context] := List.getElem?_eq_getElem created
        obtain ⟨firstAfter, watched⟩ :=
          @watch_redisAsyncReconnect logged context first created refused
        -- without a worker the reconnect crashes
        have crashed :
            (logged.redisAsyncReconnect context refused).crashed = true := by
          simp only [redisAsyncReconnect]
          rw [absent, present]
          rfl
        have callback : logged.disconnectCallback context .ok refused =
            logged.redisAsyncReconnect context refused := by
          simp only [disconnectCallback]
          rw [absent]
        have handled := handleDisconnect_of_crashed callback crashed
        rw [handled]
        refine ⟨firstAfter, ?_⟩
        have loggedCurrent : ¬ logged.current = some context := isCurrent
        rw [watched, if_neg loggedCurrent]
        exact .ignored _ context _ live rfl (by simp [ContextEvent.notified])
          (.inr (.inr isCurrent))

/-! ### Runs -/

theorem watches_step
    {system next : RedisSystem} {action : RedisAction}
    (first : system.manager.WorkerFirst) (tracked : Tracked system.lives)
    (stepped : system.step action = some next) :
    Watches system action.notification next := by
  have same := watches_refl first
  have notArmed : ∀ {context found}, system.contexts[context]? = some found →
      found.freed = false → context ∉ system.reconnectTimers := by
    intro context found exists_ living armed
    have freed := tracked.timers context armed
    simp [lives, exists_, living] at freed
  simp only [step] at stepped
  split at stepped
  · cases stepped
  rename_i notCrashed
  have running : system.crashed = false := by simpa using notCrashed
  cases action with
  | addConn ip port =>
      cases stepped
      exact same.setManager (TaskManager.details_send2task _ _ _)
  | put key value usrData fn =>
      cases stepped
      exact same.setManager (TaskManager.details_send2task _ _ _)
  | sendRawCommand command usrData fn =>
      cases stepped
      exact same.setManager (TaskManager.details_send2task _ _ _)
  | sendFormatRawCommand command usrData fn =>
      cases stepped
      exact same.setManager (TaskManager.details_send2task _ _ _)
  | sendHbAll =>
      cases stepped
      exact same.setManager (TaskManager.details_sendHbAll _)
  | evfdCallback =>
      simp only at stepped
      split at stepped
      · cases stepped
      · split at stepped
        · cases stepped
        · rename_i num task found
          obtain ⟨before, isTask, read⟩ := Option.bind_eq_some_iff.mp found
          cases stepped
          have kept : task.swapQueues.detailInfo = before.detailInfo := by
            rw [TaskBase.readEvfd_eq_some read]
            rfl
          exact same.setManager (details_setTask isTask kept)
  | next refused =>
      simp only at stepped
      split at stepped
      · split at stepped
        · cases stepped
        · cases stepped
          exact same
        · cases stepped
          exact watches_processMsg first _ refused
      · cases stepped
  | connectNotification context status =>
      simp only at stepped
      split at stepped
      · rename_i found
        cases stepped
        exact watches_handleConnect first (notArmed found rfl) status
      · cases stepped
  | disconnectNotification context status refused =>
      simp only at stepped
      split at stepped
      · rename_i found
        cases stepped
        exact watches_handleDisconnect first running
          (List.getElem?_eq_some_iff.mp found).1 (notArmed found rfl) status
          refused
      · cases stepped
  | reconnectTimer context refused =>
      simp only at stepped
      split at stepped
      · rename_i both
        cases stepped
        have freed := tracked.timers context both.2
        have created : context < system.contexts.length := by
          simpa [lives] using (List.getElem?_eq_some_iff.mp freed).1
        exact watches_reconnectTimer first both.2 created refused
      · cases stepped

/-- A step in which hiredis tells that the current context is lost, or could
not be connected, leaves the worker with a reconnect under way. -/
def RetriesLoss (system : RedisSystem) (action : RedisAction) : Prop :=
  ∀ context event next, system.current = some context →
    action.notification = some event → event.Closes context →
      step system action = some next → next.watch.Retries context

/-- No notification of the current context reports an error. -/
def NotifiesOk (system : RedisSystem) : RedisAction → Prop
  | .connectNotification context status =>
      system.current = some context → status = .ok
  | .disconnectNotification context status _ =>
      system.current = some context → status = .ok
  | _ => True

theorem notifiesOk_iff (system : RedisSystem) (action : RedisAction) :
    NotifiesOk system action ↔
      ∀ context event, system.current = some context →
        action.notification = some event → event.Closes context →
          event = .disconnectNotified context .ok := by
  constructor
  · intro ok context event isCurrent notified closes
    cases action with
    | connectNotification other status =>
        cases notified
        cases status with
        | ok => cases closes
        | err =>
            cases closes
            cases ok isCurrent
    | disconnectNotification other status refused =>
        cases notified
        cases closes
        cases ok isCurrent
        rfl
    | _ => cases notified
  · intro only
    cases action with
    | connectNotification context status =>
        intro isCurrent
        cases status with
        | ok => rfl
        | err => cases only context _ isCurrent rfl rfl
    | disconnectNotification context status refused =>
        intro isCurrent
        cases only context _ isCurrent rfl rfl
        rfl
    | _ => trivial

/-- What is known along a run. -/
structure Watched (system : RedisSystem) : Prop where
  first : system.manager.WorkerFirst
  tracked : Tracked system.lives

theorem Watched.step
    {system next : RedisSystem} {action : RedisAction}
    (watched : Watched system)
    (stepped : RedisSystem.step system action = some next) :
    Watched next :=
  ⟨(watches_step watched.first watched.tracked stepped).1,
    (tracked_step watched.tracked stepped).2.2⟩

theorem watched_start : Watched (start TaskManager.empty) where
  first := by
    constructor
    · rfl
    · intro name listed
      have keys : (start TaskManager.empty).manager.taskMap.keys =
          [worker001, task0] := by decide
      rw [TaskManager.details, Option.isSome_map,
        ← Std.TreeMap.mem_iff_isSome_getElem?, ← Std.TreeMap.mem_keys, keys]
        at listed
      simp only [List.mem_cons, List.not_mem_nil, or_false] at listed
      rcases listed with own | manages
      · subst own
        rfl
      · subst manages
        rfl
  tracked := tracked_start TaskManager.empty

theorem retriesLoss_iff
    {system next : RedisSystem} {action : RedisAction}
    (watched : Watched system)
    (stepped : system.step action = some next) :
    RetriesLoss system action ↔ NotifiesOk system action := by
  have watches := (watches_step watched.first watched.tracked stepped).2
  rw [notifiesOk_iff]
  constructor
  · intro retries context event isCurrent notified closes
    rw [notified] at watches
    apply (watches.retries_iff isCurrent closes).mp
    exact retries context event next isCurrent notified closes stepped
  · intro ok context event other isCurrent notified closes otherStepped
    rw [stepped] at otherStepped
    cases otherStepped
    rw [notified] at watches
    apply (watches.retries_iff isCurrent closes).mpr
    exact ok context event isCurrent notified closes

theorem faithful_step
    {system next : RedisSystem} {action : RedisAction}
    (watched : Watched system) (faithful : system.watch.Faithful)
    (ok : NotifiesOk system action)
    (stepped : system.step action = some next) :
    next.watch.Faithful := by
  have watches := (watches_step watched.first watched.tracked stepped).2
  apply faithful.step watches
  intro context isCurrent
  have only := (notifiesOk_iff system action).mp ok context
  constructor
  · intro refused
    cases only _ isCurrent refused rfl
  · intro lost
    cases only _ isCurrent lost rfl

/-- Every loss of the current context is noticed, and the status says
connected only after a successful connect, exactly if none of the
notifications of the current context reports an error. -/
theorem lostConnection_isRetried_iff
    {actions : List RedisAction} {final : RedisSystem}
    (ran : run step (start TaskManager.empty) actions = some final) :
    AllSteps step RetriesLoss (start TaskManager.empty) actions ∧
        (∀ state, Visits step (start TaskManager.empty) actions state →
          state.watch.ConnectedRightly) ↔
      AllSteps step NotifiesOk (start TaskManager.empty) actions := by
  have exactly : AllSteps step RetriesLoss (start TaskManager.empty) actions ↔
      AllSteps step NotifiesOk (start TaskManager.empty) actions := by
    apply allSteps_congr _ _ watched_start ran
    · intro state action next watched stepped
      exact watched.step stepped
    · intro state action next watched stepped
      exact retriesLoss_iff watched stepped
  constructor
  · intro both
    exact exactly.mp both.1
  · intro ok
    constructor
    · exact exactly.mpr ok
    · intro state visits
      have both : Watched state ∧ state.watch.Faithful := by
        apply visits_invariant_of_allSteps _ _ ok ran visits
        · intro before action next _ holds here stepped
          exact ⟨holds.1.step stepped,
            faithful_step holds.1 holds.2 here stepped⟩
        · refine ⟨watched_start, ?_, ?_⟩
          · intro connected
            cases connected
          · intro connected
            cases connected
      exact both.2.connected

/-- A connection is made, lost in good order and made again. -/
theorem lostConnection_isRetried_iff_clean :
    ∃ final,
      run step (start TaskManager.empty)
          [.addConn "127.0.0.1" 6379, .evfdCallback, .next false, .next false,
            .connectNotification 0 .ok, .disconnectNotification 0 .ok false,
            .reconnectTimer 0 false, .connectNotification 1 .ok] =
        some final ∧
      ∀ state,
        Visits step (start TaskManager.empty)
          [.addConn "127.0.0.1" 6379, .evfdCallback, .next false, .next false,
            .connectNotification 0 .ok, .disconnectNotification 0 .ok false,
            .reconnectTimer 0 false, .connectNotification 1 .ok] state →
          state.watch.ConnectedRightly := by
  refine ⟨_, rfl, ?_⟩
  apply ((lostConnection_isRetried_iff rfl).mpr _).2
  iterate 4 apply allSteps_cons trivial rfl
  apply allSteps_cons _ rfl
  · apply allSteps_cons _ rfl
    · apply allSteps_cons trivial rfl
      exact ⟨fun _ => rfl, fun _ _ => trivial⟩
    · exact fun _ => rfl
  · exact fun _ => rfl

/-- A connect that fails leaves the status at connecting, and a connection
lost by an error leaves it at connected; no reconnect follows. -/
theorem lostConnection_isNotRetried :
    (∃ system next,
      run step (start TaskManager.empty)
          [.addConn "127.0.0.1" 6379, .evfdCallback, .next false,
            .next false] = some system ∧
        system.current = some 0 ∧
        step system (.connectNotification 0 .err) = some next ∧
        next.worker.connStat = .connecting ∧ ¬ next.watch.Retries 0) ∧
    ∃ system next,
      run step (start TaskManager.empty)
          [.addConn "127.0.0.1" 6379, .evfdCallback, .next false, .next false,
            .connectNotification 0 .ok] = some system ∧
        system.current = some 0 ∧
        step system (.disconnectNotification 0 .err false) = some next ∧
        next.worker.connStat = .connected ∧ ¬ next.watch.Retries 0 ∧
        ¬ next.watch.ConnectedRightly := by
  constructor
  · refine ⟨_, _, rfl, rfl, rfl, rfl, ?_⟩
    intro retries
    exact retries.2.1 rfl
  · refine ⟨_, _, rfl, rfl, rfl, rfl, ?_, ?_⟩
    · intro retries
      exact retries.1 rfl
    · intro rightly
      obtain ⟨context, isCurrent, last⟩ := rightly rfl
      cases isCurrent
      cases last

end RedisSystem

end DBWrapper
