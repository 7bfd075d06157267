import DBWrapper.ConnManager.Operations

/-!
# Pool membership follows the reports

At every point of every run the connections that a pool holds are those whose
most recent event was a `CONN_INC`.  The history is the one of the pool: each
report that the bus delivers, and each call of `get_conn` and `del_conn(info)`,
is one event of it.
-/

namespace DBWrapper

open Foundation

namespace ConnPool

/-- `get_conn` answers with the front of the list that it serves from. -/
theorem getConn_fst (pool : ConnPool) : pool.getConn.1 = pool.serving.head? := by
  unfold getConn serving record
  dsimp only
  split <;> simp [*]

theorem getConn_eq_none_iff (pool : ConnPool) :
    pool.getConn.1 = none ↔ ∀ conn, ¬ pool.Holds conn := by
  rw [getConn_fst, List.head?_eq_none_iff]
  simp only [serving, Holds]
  by_cases noLocal : pool.dbInsLocalList = []
  · simp [noLocal, List.eq_nil_iff_forall_not_mem]
  · rw [if_neg noLocal]
    constructor
    · intro empty
      exact (noLocal empty).elim
    · intro nothing
      obtain ⟨conn, listed⟩ := List.exists_mem_of_ne_nil _ noLocal
      exact (nothing conn (.inl listed)).elim

theorem holds_of_getConn
    {pool : ConnPool} {conn : Address} (got : pool.getConn.1 = some conn) :
    pool.Holds conn ∧
      (conn ∉ pool.dbInsLocalList → pool.dbInsLocalList = []) := by
  rw [getConn_fst] at got
  have served := List.mem_of_head? got
  simp only [serving] at served
  split at served
  · rename_i noLocal
    exact ⟨.inr served, fun _ => noLocal⟩
  · exact ⟨.inl served, fun notLocal => (notLocal served).elim⟩

end ConnPool

namespace ConnSystem

/-- Every pool follows its history. -/
def PoolsFollow (system : ConnSystem) : Prop :=
  ∀ p pool, system.pools p = some pool → pool.Follows system.conns

theorem PoolsFollow.appendConns
    {system : ConnSystem} (follow : PoolsFollow system) (added : Conns) :
    PoolsFollow { system with conns := system.conns ++ added } := by
  intro p pool live
  exact (follow p pool live).appendAll added

theorem PoolsFollow.change
    {targets : Address → Prop} {system next : ConnSystem} (follow : PoolsFollow system)
    (change : Change targets system next) : PoolsFollow next := by
  cases change with
  | pool live poolChange =>
      intro q current currentLive
      rw [setPool_pools] at currentLive
      split at currentLive
      · cases currentLive
        exact poolChange.follows (follow _ _ live)
      · exact follow q current currentLive
  | conn conn => exact follow.appendConns [conn]
  | poolList found _ _ => exact follow
  | targets _ found => exact follow
  | addPool added =>
      obtain ⟨manager, _, _, rfl⟩ := addPool_eq_some_iff.mp added
      intro q current currentLive
      rw [withPool_pools] at currentLive
      split at currentLive
      · cases currentLive
        apply ConnPool.follows_of_new
        · rfl
        · rfl
        · intro conn reported
          simp [addedPool] at reported
      · exact follow.appendConns _ q current currentLive
  | destroyPool live _ =>
      intro q current currentLive
      rw [destroyPool_pools] at currentLive
      split at currentLive
      · cases currentLive
      · exact follow q current currentLive
  | newManager _ => exact follow

theorem poolsFollow_run
    {actions : List ConnAction} {system : ConnSystem}
    (ran : run step start actions = some system) : PoolsFollow system :=
  run_invariant_of_change (fun _ follow change => follow.change change)
    (fun p pool live => by simp [start] at live) ran

/-! ### What the nested calls may do -/

theorem addPool_pools
    {system next : ConnSystem} {m : Address} {fresh : Allocation}
    (added : system.addPool m fresh = some next) {p : Address}
    {pool : ConnPool} (live : system.pools p = some pool) :
    next.pools p = some pool := by
  obtain ⟨manager, _, free, rfl⟩ := addPool_eq_some_iff.mp added
  have other : p ≠ fresh.address := by
    intro equal
    subst equal
    rw [free] at live
    cases live
  rw [withPool_pools, if_neg other, live]

theorem dropPool_pools
    (system : ConnSystem) (p q : Address) :
    (system.dropPool p).pools q = none ∨
      (system.dropPool p).pools q = system.pools q := by
  simp only [dropPool]
  split
  · exact .inr rfl
  · split
    · rw [destroyPool_pools]
      split
      · exact .inl rfl
      · exact .inr rfl
    · exact .inr rfl

/-- Deleting pools does not change those that remain. -/
theorem delPool_pools
    {system : ConnSystem} {m : Address} {id : Id} {p : Address}
    {pool : ConnPool} (live : (system.delPool m id).pools p = some pool) :
    system.pools p = some pool := by
  have fold : ∀ (removed : List Address) (system : ConnSystem),
      (removed.foldl dropPool system).pools p = some pool →
        system.pools p = some pool := by
    intro removed
    induction removed with
    | nil => exact fun _ stillLive => stillLive
    | cons q removed induction =>
        intro system stillLive
        have before := induction _ stillLive
        rcases system.dropPool_pools q p with gone | same
        · rw [gone] at before
          cases before
        · rw [← same, before]
  simp only [delPool] at live
  split at live
  · exact live
  · have before := fold _ _ live
    exact before

theorem onPoolDec_pools
    {system next : ConnSystem} {m p q : Address} {pool : ConnPool}
    (handled : system.onPoolDec m p = some next)
    (live : next.pools q = some pool) : system.pools q = some pool := by
  unfold onPoolDec at handled
  split at handled
  · cases handled
  · dsimp only at handled
    split at handled
    · cases handled
    · split at handled
      · cases handled
        exact delPool_pools live
      · cases handled
        exact delPool_pools live

/-! ### Each report is one event -/

/-- A `CONN_INC` report that no pool accepts does nothing. -/
theorem WellFormed.report_of_unaccepted
    {system next : ConnSystem} (wellFormed : WellFormed system)
    {conn : Address} {fresh : Allocation}
    (unaccepted : system.acceptingPool conn = none)
    (reported : system.report .onConnected conn fresh = some next) :
    next = system := by
  simp only [ConnSystem.report] at reported
  split at reported
  · cases reported
  · rename_i dbConn known
    rcases wellFormed.callConnBus_connInc reported with
      same | ⟨p, pool, live, called, handled⟩
    · exact same
    · simp only [onConnInc, live] at handled
      split at handled
      · rename_i index
        have accepted := acceptingPool_eq_some_iff.mpr
          ⟨dbConn, _, pool, known, called, rfl, live, index⟩
        rw [unaccepted] at accepted
        cases accepted
      · exact (Option.some.inj handled).symm

/-- The bus hands a `CONN_INC` report with the index of the pool to the pool. -/
theorem WellFormed.events_onConnected
    {system next : ConnSystem} (wellFormed : WellFormed system)
    {p conn : Address} {pool : ConnPool} {dbConn : DBConn}
    {fresh : Allocation} (live : system.pools p = some pool)
    (known : system.conns[conn]? = some dbConn)
    (index : dbConn.poolIndex = pool.id)
    (routed : system.connBus.call connIncTopic dbConn.connIncId =
      some (pool.incInvoker p))
    (reported : system.report .onConnected conn fresh = some next) :
    next.pools p = some (pool.addConnPtr conn dbConn.info) := by
  simp only [ConnSystem.report, known, callConnBus, routed,
    ConnPool.incInvoker, onConnInc, live, index, if_true] at reported
  split at reported
  · split at reported
    · cases reported
    · rename_i middle called
      have stillLive : middle.pools p = some pool := by
        rcases wellFormed.callManagerBus_poolInc called with
          rfl | ⟨m, manager, _, _, added⟩
        · exact live
        · exact addPool_pools added live
      simp only [insertConn, stillLive, Option.some.injEq] at reported
      rw [← reported, setPool_pools, if_pos rfl]
  · simp only [insertConn, live, Option.some.injEq] at reported
    rw [← reported, setPool_pools, if_pos rfl]

/-- A `CONN_DEC` report likewise, unless it is the end of the pool. -/
theorem WellFormed.events_onDisconnected
    {system next : ConnSystem} (wellFormed : WellFormed system)
    {p conn : Address} {pool after : ConnPool} {dbConn : DBConn}
    {fresh : Allocation} (live : system.pools p = some pool)
    (known : system.conns[conn]? = some dbConn)
    (index : dbConn.poolIndex = pool.id)
    (routed : system.connBus.call connDecTopic dbConn.connDecId =
      some (pool.decInvoker p))
    (reported : system.report .onDisconnected conn fresh = some next)
    (survives : next.pools p = some after) :
    after = pool.delConnPtr conn dbConn.info := by
  have same := ConnPool.sameIdentity_delConnPtr pool conn dbConn.info
  simp only [ConnSystem.report, known, callConnBus, routed,
    ConnPool.decInvoker, onConnDec, live, index, if_true] at reported
  have middle : (system.setPool p (pool.delConnPtr conn dbConn.info)).pools p =
      some (pool.delConnPtr conn dbConn.info) := by
    rw [setPool_pools, if_pos rfl]
  split at reported
  · rcases (wellFormed.setPool live same).callManagerBus_poolDec reported with
      rfl | ⟨m, manager, _, _, handled⟩
    · rw [middle] at survives
      exact (Option.some.inj survives).symm
    · have before := onPoolDec_pools handled survives
      rw [middle] at before
      exact (Option.some.inj before).symm
  · cases reported
    rw [middle] at survives
    exact (Option.some.inj survives).symm

/-- What happens to the pool is in its history: a report that the bus takes
to the pool and that carries its index, and a call of one of its functions. -/
structure Recorded (system : ConnSystem) (p : Address) (pool : ConnPool) :
    Prop where
  connInc : ∀ {conn : Address} {dbConn : DBConn} {fresh : Allocation}
      {next : ConnSystem} {after : ConnPool},
    system.conns[conn]? = some dbConn → dbConn.poolIndex = pool.id →
      system.connBus.call connIncTopic dbConn.connIncId =
        some (pool.incInvoker p) →
      step system (.report .onConnected conn fresh) = some next →
      next.pools p = some after →
        after.events = pool.events ++ [.connInc conn]
  connDec : ∀ {conn : Address} {dbConn : DBConn} {fresh : Allocation}
      {next : ConnSystem} {after : ConnPool},
    system.conns[conn]? = some dbConn → dbConn.poolIndex = pool.id →
      system.connBus.call connDecTopic dbConn.connDecId =
        some (pool.decInvoker p) →
      step system (.report .onDisconnected conn fresh) = some next →
      next.pools p = some after →
        after.events = pool.events ++ [.connDec conn]
  getConn : ∀ {next : ConnSystem} {after : ConnPool},
    step system (.poolGetConn p) = some next → next.pools p = some after →
      after.events = pool.events ++ [.getConn]
  delConn : ∀ {info : ConnInfo} {next : ConnSystem} {after : ConnPool},
    step system (.poolDelConn p info) = some next → next.pools p = some after →
      after.events = pool.events ++ [.delConn info]

theorem WellFormed.recorded
    {system : ConnSystem} (wellFormed : WellFormed system)
    {p : Address} {pool : ConnPool} (live : system.pools p = some pool) :
    Recorded system p pool := by
  constructor
  · intro conn dbConn fresh next after known index routed reported survives
    rw [wellFormed.events_onConnected live known index routed reported]
      at survives
    cases survives
    exact ConnPool.events_addConnPtr _ _ _
  · intro conn dbConn fresh next after known index routed reported survives
    rw [wellFormed.events_onDisconnected live known index routed reported
      survives]
    exact ConnPool.events_delConnPtr _ _ _
  · intro next after stepped survives
    simp only [step, poolGetConn, live, Option.some.injEq] at stepped
    rw [← stepped, setPool_pools, if_pos rfl] at survives
    cases survives
    exact ConnPool.events_getConn _
  · intro info next after stepped survives
    simp only [step, poolDelConn, live, Option.some.injEq] at stepped
    rw [← stepped, setPool_pools, if_pos rfl] at survives
    cases survives
    exact ConnPool.events_delConn _ _ _

/-- A live pool holds the connections whose most recent event was a
`CONN_INC`, in the list of their type, and `get_conn` serves from them. -/
theorem connPool_followsReports
    {actions : List ConnAction} {system : ConnSystem}
    (ran : run step start actions = some system)
    {p : Address} {pool : ConnPool} (live : system.pools p = some pool) :
    (∀ (conn : Address) (dbConn : DBConn), system.conns[conn]? = some dbConn →
      (pool.Holds conn ↔ ConnPool.LastInc conn dbConn.info pool.events) ∧
        (conn ∈ pool.dbInsLocalList ↔
          pool.Holds conn ∧ dbConn.info.type = 0) ∧
        (conn ∈ pool.dbInsRemoteList ↔
          pool.Holds conn ∧ dbConn.info.type ≠ 0)) ∧
      (∀ conn, pool.Holds conn → conn < system.conns.length) ∧
      (pool.getConn.1 = none ↔ ∀ conn, ¬ pool.Holds conn) ∧
      (∀ conn, pool.getConn.1 = some conn → pool.Holds conn ∧
        (conn ∉ pool.dbInsLocalList → pool.dbInsLocalList = [])) ∧
      (∀ conn, pool.getConn.2.Holds conn ↔ pool.Holds conn) ∧
      Recorded system p pool := by
  have follows := poolsFollow_run ran p pool live
  refine ⟨?_, follows.heldExist, pool.getConn_eq_none_iff,
    fun conn got => ConnPool.holds_of_getConn got, pool.holds_getConn_iff,
    (wellFormed_run ran).recorded live⟩
  intro conn dbConn known
  have holds := follows.holds_iff known
  refine ⟨holds, ?_, ?_⟩
  · rw [follows.mem_local known, holds, and_comm]
  · rw [follows.mem_remote known, holds, and_comm]

/-- One pool, one target, and the connection to it has come up. -/
theorem connPool_followsReports_connected :
    ∃ system pool dbConn,
      run step start
          [.newManager 0, .addPool 0 ⟨7, 0⟩, .addConn 0 ⟨"", "", "", "", 0⟩,
            .report .onConnected 0 ⟨8, 0⟩] = some system ∧
        system.pools 7 = some pool ∧ system.conns[0]? = some dbConn ∧
        pool.dbInsLocalList = [0] ∧
        (pool.Holds 0 ↔ ConnPool.LastInc 0 dbConn.info pool.events) :=
  ⟨_, _, _, rfl, rfl, rfl, rfl,
    ((@connPool_followsReports
      [.newManager 0, .addPool 0 ⟨7, 0⟩, .addConn 0 ⟨"", "", "", "", 0⟩,
        .report .onConnected 0 ⟨8, 0⟩] _ rfl 7 _ rfl).1 0 _ rfl).1⟩

end ConnSystem

end DBWrapper
