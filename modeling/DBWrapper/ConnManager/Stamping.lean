import DBWrapper.ConnManager.Isolation

/-!
# The index that a pool stamps on its connections

A pool stamps its id on the connections that it creates, and accepts only
reports that carry it.  `add_pool` sets the id of a new pool after the pool has
created its connections, which therefore carry whatever value was in `_id`
before.  No report is lost exactly as long as every pool that is added has no
targets yet, or finds its future id in the uninitialised member.
-/

namespace DBWrapper

open Foundation

namespace ConnSystem

/-- The id that the next `add_pool` sets; its constructor draws two before. -/
def nextPoolId (system : ConnSystem) : Id :=
  BitVec.ofNat 32 (system.center.drawn + 2)

/-- If the action adds a pool, the connections that it creates at once carry
its id, for there are none or `_id` happens to hold it already. -/
def StampsPools (system : ConnSystem) (action : ConnAction) : Prop :=
  ∀ m manager fresh, system.addingManager action = some m →
    system.managers m = some manager → action.allocation = some fresh →
      manager.infoList = [] ∨ fresh.indeterminate = system.nextPoolId

/-- The pool gave its two ids to the connection. -/
structure GaveIds (pool : ConnPool) (dbConn : DBConn) : Prop where
  connIncId : dbConn.connIncId = pool.connIncId
  connDecId : dbConn.connDecId = pool.connDecId

/-- A pool in a `poolList`, and a connection that it created. -/
structure Created (system : ConnSystem) (p : Address) (pool : ConnPool)
    (conn : Address) (dbConn : DBConn) : Prop where
  live : system.pools p = some pool
  listed : ∃ m manager, system.managers m = some manager ∧
    p ∈ manager.poolList
  known : system.conns[conn]? = some dbConn
  gaveIds : GaveIds pool dbConn

/-- A connection of a pool in a `poolList` is in a list of the pool after it
has reported `CONN_INC`. -/
def ReportsKept (system : ConnSystem) : Prop :=
  ∀ p pool conn dbConn, Created system p pool conn dbConn →
    ∀ fresh next, step system (.report .onConnected conn fresh) = some next →
      ∃ after, next.pools p = some after ∧ after.Holds conn

def IndexesAgree (system : ConnSystem) : Prop :=
  ∀ p pool conn dbConn, Created system p pool conn dbConn →
    dbConn.poolIndex = pool.id

/-! ### The invariant -/

/-- All connections of live pools carry the id of their pool, and all ids
on connections have been drawn. -/
structure Stamped (system : ConnSystem) : Prop where
  index : ∀ {p conn : Address} {pool : ConnPool} {dbConn : DBConn},
    system.pools p = some pool → system.conns[conn]? = some dbConn →
      dbConn.connIncId = pool.connIncId → dbConn.poolIndex = pool.id
  drawn : ∀ {conn : Address} {dbConn : DBConn},
    system.conns[conn]? = some dbConn →
      dbConn.connIncId.toNat < system.center.drawn

theorem stamped_start : Stamped start := by
  constructor <;> simp [start]

/-- The ids of a live pool have been drawn. -/
theorem Routed.connIncId_lt
    {system : ConnSystem} (routed : Routed system)
    (wellFormed : WellFormed system) {p : Address} {pool : ConnPool}
    (live : system.pools p = some pool) :
    pool.connIncId.toNat < system.center.drawn := by
  have listed : pool.incInvoker p ∈ system.connBus.invokers :=
    (wellFormed.connInvokers _).mpr ⟨p, pool, live, .inl rfl⟩
  have registered := (routed.connBus.mem_invokers _).mp listed
  exact routed.connIds _
    (BusOp.mem_ids.mpr ⟨pool.incInvoker p, registered.mem, rfl⟩)

/-- Two live pools have different ids for `CONN_INC`. -/
theorem Routed.eq_of_connIncId_eq
    {system : ConnSystem} (routed : Routed system)
    (wellFormed : WellFormed system) {p q : Address} {pool other : ConnPool}
    (live : system.pools p = some pool)
    (otherLive : system.pools q = some other)
    (same : pool.connIncId = other.connIncId) : p = q := by
  have listed : pool.incInvoker p ∈ system.connBus.invokers :=
    (wellFormed.connInvokers _).mpr ⟨p, pool, live, .inl rfl⟩
  have otherListed : other.incInvoker q ∈ system.connBus.invokers :=
    (wellFormed.connInvokers _).mpr ⟨q, other, otherLive, .inl rfl⟩
  exact congrArg Invoker.t
    (routed.connBus.eq_of_id_eq listed otherListed same)

theorem mem_append_getElem?
    {conns added : Conns} {conn : Address} {dbConn : DBConn}
    (found : (conns ++ added)[conn]? = some dbConn) :
    conns[conn]? = some dbConn ∨ dbConn ∈ added := by
  rw [List.getElem?_append] at found
  split at found
  · exact .inl found
  · exact .inr (List.mem_of_getElem? found)

theorem Stamped.appendConn
    {system : ConnSystem} (stamped : Stamped system) (routed : Routed system)
    (wellFormed : WellFormed system) {p : Address} {pool : ConnPool}
    (live : system.pools p = some pool) (info : ConnInfo) :
    Stamped { system with conns := system.conns ++ [pool.newConn info] } := by
  constructor
  · intro q conn other dbConn otherLive found same
    rcases mem_append_getElem? found with earlier | added
    · exact stamped.index otherLive earlier same
    · rw [List.mem_singleton] at added
      subst added
      have here := routed.eq_of_connIncId_eq wellFormed live otherLive same
      subst here
      rw [live] at otherLive
      cases otherLive
      rfl
  · intro conn dbConn found
    rcases mem_append_getElem? found with earlier | added
    · exact stamped.drawn earlier
    · rw [List.mem_singleton] at added
      subst added
      exact routed.connIncId_lt wellFormed live

theorem Stamped.withPool
    {system : ConnSystem} (stamped : Stamped system) (routed : Routed system)
    (wellFormed : WellFormed system) {m : Address} {manager : ConnManager}
    {fresh : Allocation} (bound : system.center.drawn + 3 ≤ idLimit)
    (stamps : manager.infoList = [] ∨
      fresh.indeterminate = system.nextPoolId) :
    Stamped (system.withPool m manager fresh) := by
  have incId : (system.addedPool m manager fresh).connIncId.toNat =
      system.center.drawn + 1 := by
    exact toNat_ofNat_id (by omega)
  have split : ∀ {conn : Address} {dbConn : DBConn},
      (system.withPool m manager fresh).conns[conn]? = some dbConn →
        system.conns[conn]? = some dbConn ∨
          dbConn.connIncId = (system.addedPool m manager fresh).connIncId ∧
            dbConn.poolIndex = system.nextPoolId := by
    intro conn dbConn found
    rcases mem_append_getElem? found with earlier | added
    · exact .inl earlier
    · obtain ⟨info, listed, rfl⟩ := List.mem_map.mp added
      rcases stamps with none_ | holdsId
      · rw [none_] at listed
        cases listed
      · exact .inr ⟨rfl, holdsId⟩
  constructor
  · intro q conn other dbConn otherLive found same
    rw [withPool_pools] at otherLive
    rcases split found with earlier | ⟨newId, index⟩
    · have below := stamped.drawn earlier
      split at otherLive
      · cases otherLive
        rw [same, incId] at below
        omega
      · exact stamped.index otherLive earlier same
    · split at otherLive
      · cases otherLive
        exact index
      · have below := routed.connIncId_lt wellFormed otherLive
        rw [← same, newId, incId] at below
        omega
  · intro conn dbConn found
    change _ < system.center.drawn + 3
    rcases split found with earlier | ⟨newId, _⟩
    · have below := stamped.drawn earlier
      omega
    · rw [newId, incId]
      omega

theorem Stamped.effect
    {system current next : ConnSystem} {action : ConnAction}
    (stamped : Stamped current) (routed : Routed current)
    (wellFormed : WellFormed current) (stamps : StampsPools system action)
    (bound : next.center.drawn ≤ idLimit)
    (effect : Effect (permitted system action) current next) :
    Stamped next := by
  cases effect with
  | @pool p pool other live change _ _ =>
      have same := change.sameIdentity
      constructor
      · intro q conn after dbConn afterLive found sameId
        rw [setPool_pools] at afterLive
        split at afterLive
        · cases afterLive
          rw [same.id]
          exact stamped.index live found (sameId.trans same.connIncId)
        · exact stamped.index afterLive found sameId
      · exact stamped.drawn
  | conn live info => exact stamped.appendConn routed wellFormed live info
  | poolList _ _ _ => exact ⟨stamped.index, stamped.drawn⟩
  | targets _ _ => exact ⟨stamped.index, stamped.drawn⟩
  | addPool allowed added =>
      obtain ⟨rfl, adding, allocated⟩ := allowed
      obtain ⟨manager, found, _, rfl⟩ := addPool_eq_some_iff.mp added
      exact stamped.withPool routed wellFormed bound
        (stamps _ manager _ adding found allocated)
  | destroyPool _ _ =>
      constructor
      · intro q conn other dbConn otherLive found same
        rw [destroyPool_pools] at otherLive
        split at otherLive
        · cases otherLive
        · exact stamped.index otherLive found same
      · exact stamped.drawn
  | newManager _ =>
      constructor
      · exact stamped.index
      · intro conn dbConn found
        exact Nat.lt_add_right 2 (stamped.drawn found)

/-! ### The run -/

theorem routed_of_visits
    {actions : List ConnAction} {system state : ConnSystem}
    (ran : run step start actions = some system)
    (bound : system.center.drawn ≤ idLimit)
    (visits : Visits step start actions state) :
    WellFormed state ∧ state.center.drawn ≤ idLimit ∧ Routed state := by
  obtain ⟨before, after, rfl, reached⟩ := visits
  obtain ⟨middle, reachedMiddle, rest⟩ := run_append_eq_some_iff.mp ran
  rw [reached] at reachedMiddle
  cases reachedMiddle
  have wellFormed := wellFormed_run reached
  have small := (registeredSince_run wellFormed rest).1.trans bound
  exact ⟨wellFormed, small, routed_run reached small⟩

theorem Stamped.step
    {system next : ConnSystem} {action : ConnAction}
    (stamped : Stamped system) (wellFormed : WellFormed system)
    (routed : Routed system) (bound : next.center.drawn ≤ idLimit)
    (stamps : StampsPools system action)
    (stepped : ConnSystem.step system action = some next) : Stamped next := by
  have invariant : next.center.drawn ≤ idLimit →
      Routed next ∧ Stamped next := by
    apply @invariant_step
      (fun state => state.center.drawn ≤ idLimit → Routed state ∧ Stamped state)
      _ _ _ wellFormed _ (fun _ => ⟨routed, stamped⟩) stepped
    intro current after currentWell holds effect afterBound
    obtain ⟨currentRouted, currentStamped⟩ :=
      holds (effect.change.drawn_le.trans afterBound)
    exact ⟨currentRouted.change afterBound effect.change,
      currentStamped.effect currentRouted currentWell stamps afterBound effect⟩
  exact (invariant bound).2

/-- A pool takes the reports that carry its id. -/
theorem Stamped.reportsKept
    {system : ConnSystem} (stamped : Stamped system)
    (wellFormed : WellFormed system) (routed : Routed system) :
    ReportsKept system := by
  intro p pool conn dbConn created fresh next reported
  have index := stamped.index created.live created.known
    created.gaveIds.connIncId
  have called := routed.call_connInc wellFormed created.live
  rw [← created.gaveIds.connIncId] at called
  refine ⟨_, wellFormed.events_onConnected created.live created.known index
    called reported, ?_⟩
  exact (pool.holds_addConnPtr_iff conn conn dbConn.info).mpr (.inr rfl)

theorem Stamped.indexesAgree
    {system : ConnSystem} (stamped : Stamped system) : IndexesAgree system := by
  intro p pool conn dbConn created
  exact stamped.index created.live created.known created.gaveIds.connIncId

/-- After a step that adds a pool, the pool is in place with its connections,
and it holds none of them. -/
theorem added_of_step
    {system next : ConnSystem} {action : ConnAction} {m : Address} {fresh : Allocation}
    (adding : system.addingManager action = some m)
    (allocated : action.allocation = some fresh)
    (stepped : step system action = some next) :
    ∃ manager, system.managers m = some manager ∧
      next.pools fresh.address = some (system.addedPool m manager fresh) ∧
      (∃ after, next.managers m = some after ∧
        fresh.address ∈ after.poolList) ∧
      next.conns = (system.withPool m manager fresh).conns := by
  have listed : ∀ manager, ∃ after,
      (system.withPool m manager fresh).managers m = some after ∧
        fresh.address ∈ after.poolList := by
    intro manager
    exact ⟨_, by rw [withPool_managers, if_pos rfl], by simp⟩
  cases action with
  | addPool n allocation =>
      cases adding
      cases allocated
      obtain ⟨manager, found, _, rfl⟩ := addPool_eq_some_iff.mp stepped
      exact ⟨manager, found, by rw [withPool_pools, if_pos rfl],
        listed manager, rfl⟩
  | report report conn allocation =>
      cases report with
      | onDisconnected => cases adding
      | onConnected =>
          cases allocated
          simp only [addingManager] at adding
          split at adding
          · cases adding
          · rename_i p accepts
            obtain ⟨dbConn, invoker, pool, known, called, isInc, live, index⟩ :=
              acceptingPool_eq_some_iff.mp accepts
            obtain ⟨again, extender, manager, againLive, empty, extended,
              isPoolInc, found, absent⟩ :=
                extendingManager_eq_some_iff.mp adding
            rw [live] at againLive
            cases againLive
            simp only [ConnSystem.step, ConnSystem.report, known, callConnBus,
              called, isInc, onConnInc, live, index, empty, if_true,
              callManagerBus, extended, isPoolInc, onPoolInc, found] at stepped
            rw [if_neg absent] at stepped
            split at stepped
            · cases stepped
            · rename_i middle added
              obtain ⟨same, sameFound, free, rfl⟩ :=
                addPool_eq_some_iff.mp added
              rw [found] at sameFound
              cases sameFound
              have other : fresh.address ≠ p := by
                intro here
                rw [here, live] at free
                cases free
              have stillLive := addPool_pools added live
              simp only [insertConn, stillLive, Option.some.injEq] at stepped
              subst stepped
              refine ⟨manager, found, ?_, listed manager, rfl⟩
              rw [setPool_pools, if_neg other, withPool_pools, if_pos rfl]
  | _ => cases adding

/-- The first connection that an added pool creates. -/
theorem created_of_added
    {system next : ConnSystem} {m : Address} {manager : ConnManager}
    {fresh : Allocation} {info : ConnInfo} {infos : List ConnInfo}
    (targets : manager.infoList = info :: infos)
    (live :
      next.pools fresh.address = some (system.addedPool m manager fresh))
    (listed : ∃ after, next.managers m = some after ∧
      fresh.address ∈ after.poolList)
    (conns : next.conns = (system.withPool m manager fresh).conns) :
    Created next fresh.address (system.addedPool m manager fresh)
      system.conns.length
      ({ system.addedPool m manager fresh with
        id := fresh.indeterminate }.newConn info) := by
  constructor
  · exact live
  · exact ⟨m, listed⟩
  · rw [conns]
    simp [withPool, targets]
  · exact ⟨rfl, rfl⟩

/-- A report with a wrong index changes nothing. -/
theorem Routed.report_of_index_ne
    {system : ConnSystem} (routed : Routed system)
    (wellFormed : WellFormed system) {p conn : Address} {pool : ConnPool}
    {dbConn : DBConn} (created : Created system p pool conn dbConn)
    (wrong : dbConn.poolIndex ≠ pool.id) (fresh : Allocation) :
    step system (.report .onConnected conn fresh) = some system := by
  have called := routed.call_connInc wellFormed created.live
  rw [← created.gaveIds.connIncId] at called
  simp only [step, ConnSystem.report, created.known, callConnBus, called,
    ConnPool.incInvoker, onConnInc, created.live]
  rw [if_neg wrong]

theorem stampsPools_of_indexesAgree
    {system next : ConnSystem} {action : ConnAction}
    (stepped : step system action = some next) (agree : IndexesAgree next) :
    StampsPools system action := by
  intro m manager fresh adding found allocated
  obtain ⟨again, againFound, live, listed, conns⟩ :=
    added_of_step adding allocated stepped
  rw [found] at againFound
  cases againFound
  cases targets : manager.infoList with
  | nil => exact .inl rfl
  | cons info infos =>
      right
      exact agree _ _ _ _ (created_of_added targets live listed conns)

theorem stampsPools_of_reportsKept
    {system next : ConnSystem} {action : ConnAction}
    (wellFormed : WellFormed next) (routed : Routed next)
    (stepped : step system action = some next) (kept : ReportsKept next) :
    StampsPools system action := by
  intro m manager fresh adding found allocated
  obtain ⟨again, againFound, live, listed, conns⟩ :=
    added_of_step adding allocated stepped
  rw [found] at againFound
  cases againFound
  cases targets : manager.infoList with
  | nil => exact .inl rfl
  | cons info infos =>
      right
      by_contra wrong
      have created := created_of_added targets live listed conns
      -- the new pool is still empty, and the report leaves it so
      have dropped := routed.report_of_index_ne wellFormed created wrong fresh
      obtain ⟨after, afterLive, held⟩ := kept _ _ _ _ created fresh next dropped
      rw [live] at afterLive
      cases afterLive
      rcases held with isLocal | isRemote
      · cases isLocal
      · cases isRemote

/-- As long as no id is used twice: in every state of a run no report is lost,
and likewise all connections carry the id of their pool, exactly if every step
that adds a pool stamps the connections that the pool creates. -/
theorem connReport_neverLost_iff
    {actions : List ConnAction} {system : ConnSystem}
    (ran : run step start actions = some system)
    (bound : system.center.drawn ≤ 2 ^ 32) :
    ((∀ state, Visits step start actions state → ReportsKept state) ↔
      AllSteps step StampsPools start actions) ∧
    ((∀ state, Visits step start actions state → IndexesAgree state) ↔
      AllSteps step StampsPools start actions) := by
  have stamped : AllSteps step StampsPools start actions →
      ∀ {state}, Visits step start actions state → Stamped state := by
    intro stamps state visits
    have both := @visits_invariant_of_allSteps _ _ step StampsPools
      (fun state => WellFormed state ∧ Stamped state ∧
        (state.center.drawn ≤ idLimit → Routed state)) start system actions
    apply (both _ ⟨wellFormed_start, stamped_start, fun _ => routed_start⟩
      stamps ran visits).2.1
    intro before action next visitsNext holds here stepped
    obtain ⟨wellFormed, small, routed⟩ :=
      routed_of_visits ran bound visitsNext
    have earlier : before.center.drawn ≤ next.center.drawn :=
      (@registeredSince_run before next [action] holds.1
        (run_cons_eq_some_iff.mpr ⟨next, stepped, rfl⟩)).1
    exact ⟨wellFormed,
      holds.2.1.step holds.1 (holds.2.2 (earlier.trans small)) small here
        stepped,
      fun _ => routed⟩
  constructor
  · constructor
    · intro kept
      apply allSteps_of_visits _ ran
      intro state action next _ _ visitsNext stepped
      obtain ⟨wellFormed, _, routed⟩ := routed_of_visits ran bound visitsNext
      exact stampsPools_of_reportsKept wellFormed routed stepped
        (kept next visitsNext)
    · intro stamps state visits
      obtain ⟨wellFormed, _, routed⟩ := routed_of_visits ran bound visits
      exact (stamped stamps visits).reportsKept wellFormed routed
  · constructor
    · intro agree
      apply allSteps_of_visits _ ran
      intro state action next _ _ visitsNext stepped
      exact stampsPools_of_indexesAgree stepped (agree next visitsNext)
    · intro stamps state visits
      exact (stamped stamps visits).indexesAgree

/-- The pool is added before its target is known. -/
theorem connReport_neverLost_iff_poolFirst :
    ∃ system,
      run step start
          [.newManager 0, .addPool 0 ⟨7, 0⟩, .addConn 0 ⟨"", "", "", "", 0⟩] =
        some system ∧ ReportsKept system := by
  refine ⟨_, rfl, ?_⟩
  apply (@connReport_neverLost_iff
    [.newManager 0, .addPool 0 ⟨7, 0⟩, .addConn 0 ⟨"", "", "", "", 0⟩] _ rfl
    (by decide)).1.mpr _ _ (visits_of_run rfl)
  apply allSteps_cons _ rfl
  · apply allSteps_cons _ rfl
    · refine ⟨?_, fun _ _ => trivial⟩
      intro m manager fresh adding
      cases adding
    · intro m manager fresh adding found allocated
      cases adding
      cases found
      exact .inl rfl
  · intro m manager fresh adding
    cases adding

/-- The target is known before the pool is added: the connection carries the
0 that happened to be in `_id`, and the id of the pool is 4. -/
theorem connReport_lost :
    ∃ system,
      run step start
          [.newManager 0, .addConn 0 ⟨"", "", "", "", 0⟩,
            .addPool 0 ⟨7, 0⟩] = some system ∧
        ¬ ReportsKept system ∧ ¬ IndexesAgree system := by
  refine ⟨_, rfl, ?_, ?_⟩
  · intro kept
    obtain ⟨after, live, held⟩ :=
      kept 7 _ 0 _ ⟨rfl, ⟨0, _, rfl, by decide⟩, rfl, ⟨rfl, rfl⟩⟩ ⟨8, 0⟩ _ rfl
    cases live
    rcases held with isLocal | isRemote
    · cases isLocal
    · cases isRemote
  · intro agree
    have index := agree 7 _ 0 _
      ⟨rfl, ⟨0, _, rfl, by decide⟩, rfl, ⟨rfl, rfl⟩⟩
    revert index
    decide

end ConnSystem

end DBWrapper
