import DBWrapper.ConnManager.Routing

/-!
# Isolation of pools and managers

A report with the ids and the index of one pool leaves every other pool as it
is, although it may make the manager destroy the reporting pool or add another
one while the bus is still in the call.  A report of a pool reaches the
manager that made it, and no other manager.
-/

namespace DBWrapper

open Foundation

namespace ConnSystem

/-! ### Deleting by id -/

theorem dropPool_pools_of_ne
    (system : ConnSystem) {p q : Address} (different : q ≠ p) :
    (system.dropPool p).pools q = system.pools q := by
  simp only [dropPool]
  split
  · rfl
  · split
    · rw [destroyPool_pools, if_neg different]
    · rfl

/-- `del_pool` leaves the pools with other ids alone. -/
theorem delPool_pools_of_ne
    {system : ConnSystem} {m : Address} {id : Id} {q : Address}
    {other : ConnPool} (live : system.pools q = some other)
    (different : other.id ≠ id) :
    (system.delPool m id).pools q = some other := by
  have fold : ∀ (removed : List Address) (system : ConnSystem),
      q ∉ removed →
        (removed.foldl dropPool system).pools q = system.pools q := by
    intro removed
    induction removed with
    | nil => exact fun _ _ => rfl
    | cons p removed induction =>
        intro system absent
        rw [List.mem_cons, not_or] at absent
        rw [List.foldl_cons, induction _ absent.2,
          dropPool_pools_of_ne system absent.1]
  unfold delPool
  split
  · exact live
  · dsimp only
    rw [fold]
    · exact live
    · intro removed
      have matched := (List.mem_filter.mp removed).2
      simp [hasId, live, different] at matched

theorem foldl_dropPool_managers
    (removed : List Address) (system : ConnSystem) :
    (removed.foldl dropPool system).managers = system.managers := by
  induction removed generalizing system with
  | nil => rfl
  | cons p removed induction =>
      rw [List.foldl_cons, induction, dropPool_managers]

theorem delPool_managers_self
    {system : ConnSystem} {m : Address} {manager : ConnManager}
    (found : system.managers m = some manager) (id : Id) :
    (system.delPool m id).managers m =
      some
        { manager with
          poolList :=
            manager.poolList.filter fun p => !system.hasId id p } := by
  simp only [delPool, found]
  rw [foldl_dropPool_managers, setManager_managers, if_pos rfl]

theorem delPool_managers_of_ne
    (system : ConnSystem) {m n : Address} (id : Id) (different : n ≠ m) :
    (system.delPool m id).managers n = system.managers n := by
  unfold delPool
  split
  · rfl
  · dsimp only
    rw [foldl_dropPool_managers, setManager_managers, if_neg different]

theorem onPoolDec_pools_of_ne
    {system next : ConnSystem} {m p q : Address} {pool other : ConnPool}
    (handled : system.onPoolDec m p = some next)
    (live : system.pools p = some pool)
    (otherLive : system.pools q = some other) (different : other.id ≠ pool.id) :
    next.pools q = some other := by
  simp only [onPoolDec, live] at handled
  have kept := @delPool_pools_of_ne system m _ _ _ otherLive different
  split at handled
  · cases handled
  · split at handled
    · cases handled
      exact kept
    · cases handled
      exact kept

theorem onPoolDec_managers_of_ne
    {system next : ConnSystem} {m n p : Address}
    (handled : system.onPoolDec m p = some next) (different : n ≠ m) :
    next.managers n = system.managers n := by
  unfold onPoolDec at handled
  split at handled
  · cases handled
  · rename_i pool _
    have kept := system.delPool_managers_of_ne pool.id different
    dsimp only at handled
    split at handled
    · cases handled
    · split at handled
      · cases handled
        rw [setManager_managers, if_neg different, kept]
      · cases handled
        exact kept

/-! ### Reports of connections -/

/-- The bus takes a report with the id of a live pool to that pool. -/
theorem Routed.call_connInc
    {system : ConnSystem} (routed : Routed system)
    (wellFormed : WellFormed system) {p : Address} {pool : ConnPool}
    (live : system.pools p = some pool) :
    system.connBus.call connIncTopic pool.connIncId =
      some (pool.incInvoker p) := by
  rw [routed.connBus.call_eq_some_iff, ← routed.connBus.mem_invokers]
  exact ⟨(wellFormed.connInvokers _).mpr ⟨p, pool, live, .inl rfl⟩, rfl, rfl⟩

theorem Routed.call_connDec
    {system : ConnSystem} (routed : Routed system)
    (wellFormed : WellFormed system) {p : Address} {pool : ConnPool}
    (live : system.pools p = some pool) :
    system.connBus.call connDecTopic pool.connDecId =
      some (pool.decInvoker p) := by
  rw [routed.connBus.call_eq_some_iff, ← routed.connBus.mem_invokers]
  exact ⟨(wellFormed.connInvokers _).mpr ⟨p, pool, live, .inr rfl⟩, rfl, rfl⟩

/-- The connection carries the ids and the index of the pool. -/
structure Carries (dbConn : DBConn) (pool : ConnPool) : Prop where
  poolIndex : dbConn.poolIndex = pool.id
  connIncId : dbConn.connIncId = pool.connIncId
  connDecId : dbConn.connDecId = pool.connDecId

/-- A report of one pool leaves the others as they are. -/
theorem Routed.report_pools_of_ne
    {system next : ConnSystem} (routed : Routed system)
    (wellFormed : WellFormed system) {p q : Address} {pool other : ConnPool}
    (live : system.pools p = some pool)
    (otherLive : system.pools q = some other) (different : q ≠ p)
    {report : Report} {conn : Address} {dbConn : DBConn} {fresh : Allocation}
    (known : system.conns[conn]? = some dbConn) (carries : Carries dbConn pool)
    (reported : system.report report conn fresh = some next) :
    next.pools q = some other := by
  have kept : ∀ after, (system.setPool p after).pools q = some other := by
    intro after
    rw [setPool_pools, if_neg different, otherLive]
  cases report with
  | onConnected =>
      simp only [ConnSystem.report, known, callConnBus, carries.connIncId,
        routed.call_connInc wellFormed live, ConnPool.incInvoker, onConnInc,
        live, carries.poolIndex, if_true] at reported
      split at reported
      · split at reported
        · cases reported
        · rename_i middle called
          have middleLive : middle.pools p = some pool ∧
              middle.pools q = some other := by
            rcases wellFormed.callManagerBus_poolInc called with
              rfl | ⟨m, manager, _, _, added⟩
            · exact ⟨live, otherLive⟩
            · exact ⟨addPool_pools added live, addPool_pools added otherLive⟩
          simp only [insertConn, middleLive.1, Option.some.injEq] at reported
          rw [← reported, setPool_pools, if_neg different, middleLive.2]
      · simp only [insertConn, live, Option.some.injEq] at reported
        rw [← reported]
        exact kept _
  | onDisconnected =>
      simp only [ConnSystem.report, known, callConnBus, carries.connDecId,
        routed.call_connDec wellFormed live, ConnPool.decInvoker, onConnDec,
        live, carries.poolIndex, if_true] at reported
      have same := ConnPool.sameIdentity_delConnPtr pool conn dbConn.info
      have otherId : other.id ≠ (pool.delConnPtr conn dbConn.info).id := by
        rw [same.id]
        intro sameIds
        exact different (routed.poolIdsDistinct otherLive live sameIds)
      split at reported
      · rcases (wellFormed.setPool live same).callManagerBus_poolDec reported with
          rfl | ⟨m, manager, _, _, handled⟩
        · exact kept _
        · apply onPoolDec_pools_of_ne handled _ (kept _) otherId
          rw [setPool_pools, if_pos rfl]
      · cases reported
        exact kept _

/-! ### Reports of pools -/

/-- The manager that registered the id of a pool is its creator. -/
theorem Routed.eq_creator
    {system : ConnSystem} (routed : Routed system)
    (wellFormed : WellFormed system) {p m : Address} {pool : ConnPool}
    {manager : ConnManager} (live : system.pools p = some pool)
    (found : system.managers m = some manager)
    (sameId : manager.poolIncId = pool.poolIncId ∨
      manager.poolDecId = pool.poolDecId) : m = pool.creator := by
  obtain ⟨owner, ownerFound, incId, decId⟩ := wellFormed.created live
  have incListed : ∀ {n : Address} {current : ConnManager},
      system.managers n = some current →
        current.incInvoker n ∈ system.managerBus.invokers :=
    fun currentFound =>
      (wellFormed.managerInvokers _).mpr ⟨_, _, currentFound, .inl rfl⟩
  have decListed : ∀ {n : Address} {current : ConnManager},
      system.managers n = some current →
        current.decInvoker n ∈ system.managerBus.invokers :=
    fun currentFound =>
      (wellFormed.managerInvokers _).mpr ⟨_, _, currentFound, .inr rfl⟩
  rcases sameId with sameInc | sameDec
  · have same := routed.managerBus.eq_of_id_eq (incListed found)
      (incListed ownerFound) (sameInc.trans incId)
    exact congrArg Invoker.t same
  · have same := routed.managerBus.eq_of_id_eq (decListed found)
      (decListed ownerFound) (sameDec.trans decId)
    exact congrArg Invoker.t same

theorem addPool_managers_of_ne
    {system next : ConnSystem} {m n : Address} {fresh : Allocation}
    (added : system.addPool m fresh = some next) (different : n ≠ m) :
    next.managers n = system.managers n := by
  obtain ⟨manager, _, _, rfl⟩ := addPool_eq_some_iff.mp added
  rw [withPool_managers, if_neg different]

theorem Routed.poolInc_managers_of_ne
    {system next : ConnSystem} (routed : Routed system)
    (wellFormed : WellFormed system) {p n : Address} {pool : ConnPool}
    {fresh : Allocation} (live : system.pools p = some pool)
    (different : n ≠ pool.creator)
    (called : system.callManagerBus poolIncTopic p pool.poolIncId fresh =
      some next) : next.managers n = system.managers n := by
  rcases wellFormed.callManagerBus_poolInc called with
    rfl | ⟨m, manager, found, sameId, added⟩
  · rfl
  · have isCreator := routed.eq_creator wellFormed live found (.inl sameId)
    rw [← isCreator] at different
    exact addPool_managers_of_ne added different

theorem Routed.poolDec_managers_of_ne
    {system next : ConnSystem} (routed : Routed system)
    (wellFormed : WellFormed system) {p n : Address} {pool : ConnPool}
    {fresh : Allocation} (live : system.pools p = some pool)
    (different : n ≠ pool.creator)
    (called : system.callManagerBus poolDecTopic p pool.poolDecId fresh =
      some next) : next.managers n = system.managers n := by
  rcases wellFormed.callManagerBus_poolDec called with
    rfl | ⟨m, manager, found, sameId, handled⟩
  · rfl
  · have isCreator := routed.eq_creator wellFormed live found (.inr sameId)
    rw [← isCreator] at different
    exact onPoolDec_managers_of_ne handled different

/-! ### Destroyed pools -/

/-- Whatever is registered was so before, or has an id drawn since. -/
def RegisteredSince (earlier system : ConnSystem) : Prop :=
  earlier.center.drawn ≤ system.center.drawn ∧
    (system.center.drawn ≤ idLimit → ∀ invoker ∈ system.connBus.invokers,
      invoker ∈ earlier.connBus.invokers ∨
        earlier.center.drawn ≤ invoker.id.toNat)

theorem RegisteredSince.change
    {targets : Address → Prop} {earlier system next : ConnSystem}
    (since : RegisteredSince earlier system)
    (change : Change targets system next) : RegisteredSince earlier next := by
  refine ⟨since.1.trans change.drawn_le, ?_⟩
  intro bound invoker listed
  have before := since.2 (change.drawn_le.trans bound)
  have drawnLater := since.1
  cases change with
  | addPool added =>
      obtain ⟨manager, _, _, rfl⟩ := addPool_eq_some_iff.mp added
      have small : system.center.drawn + 3 ≤ idLimit := bound
      rcases mem_withPool_connInvokers.mp listed with old | rfl | rfl
      · exact before invoker old
      · right
        change _ ≤ (BitVec.ofNat 32 system.center.drawn).toNat
        rw [toNat_ofNat_id (by omega)]
        exact drawnLater
      · right
        change _ ≤ (BitVec.ofNat 32 (system.center.drawn + 1)).toNat
        rw [toNat_ofNat_id (by omega)]
        omega
  | destroyPool _ _ =>
      apply before
      have once := List.mem_of_mem_filter listed
      exact List.mem_of_mem_filter once
  | _ => exact before invoker listed

theorem registeredSince_run
    {earlier system : ConnSystem} {actions : List ConnAction}
    (wellFormed : WellFormed earlier)
    (ran : run step earlier actions = some system) :
    RegisteredSince earlier system := by
  have both : WellFormed system ∧ RegisteredSince earlier system := by
    apply @run_invariant _ _ step
      (fun system => WellFormed system ∧ RegisteredSince earlier system)
      _ _ _ _ ⟨wellFormed, Nat.le_refl _, fun _ _ listed => .inl listed⟩ ran
    intro before action next holds stepped
    apply (changes_step holds.1 stepped).invariant _ holds
    intro system next holds change
    exact ⟨holds.1.change change, holds.2.change change⟩
  exact both.2

/-- A pool was live and is gone: its ids are registered never again. -/
theorem ids_unregistered_of_destroyed
    {front middle back : List ConnAction} {earlier gone system : ConnSystem}
    (frontRan : run step start front = some earlier)
    {p : Address} {pool : ConnPool} (live : earlier.pools p = some pool)
    (middleRan : run step earlier middle = some gone)
    (destroyed : gone.pools p = none)
    (backRan : run step gone back = some system)
    (bound : system.center.drawn ≤ idLimit) :
    ∀ invoker ∈ system.connBus.invokers,
      invoker.id ≠ pool.connIncId ∧ invoker.id ≠ pool.connDecId := by
  have earlierWell := wellFormed_run frontRan
  have goneRan : run step start (front ++ middle) = some gone :=
    run_append_eq_some_iff.mpr ⟨earlier, frontRan, middleRan⟩
  have goneWell := wellFormed_run goneRan
  have sinceEarlier := registeredSince_run earlierWell middleRan
  have sinceGone := registeredSince_run goneWell backRan
  have goneBound := sinceGone.1.trans bound
  have earlierRouted := routed_run frontRan (sinceEarlier.1.trans goneBound)
  have noneOwned : ∀ own ∈ earlier.connBus.invokers, own.t = p →
      ∀ invoker ∈ system.connBus.invokers, invoker.id ≠ own.id := by
    intro own ownListed owner invoker listed sameId
    have registered := (earlierRouted.connBus.mem_invokers own).mp ownListed
    have small := earlierRouted.connIds own.id
      (BusOp.mem_ids.mpr ⟨own, registered.mem, rfl⟩)
    rw [← sameId] at small
    have inGone : invoker ∈ gone.connBus.invokers := by
      rcases sinceGone.2 bound invoker listed with old | drawnLater
      · exact old
      · have := sinceEarlier.1
        omega
    have inEarlier : invoker ∈ earlier.connBus.invokers := by
      rcases sinceEarlier.2 goneBound invoker inGone with old | drawnLater
      · exact old
      · omega
    have same := earlierRouted.connBus.eq_of_id_eq inEarlier ownListed sameId
    obtain ⟨q, other, otherLive, isOwn⟩ :=
      (goneWell.connInvokers invoker).mp inGone
    have atQ : invoker.t = q := by
      rcases isOwn with rfl | rfl <;> rfl
    rw [same, owner] at atQ
    rw [← atQ, destroyed] at otherLive
    cases otherLive
  intro invoker listed
  constructor
  · exact noneOwned (pool.incInvoker p)
      ((earlierWell.connInvokers _).mpr ⟨p, pool, live, .inl rfl⟩) rfl
      invoker listed
  · exact noneOwned (pool.decInvoker p)
      ((earlierWell.connInvokers _).mpr ⟨p, pool, live, .inr rfl⟩) rfl
      invoker listed

/-- A report with ids that are not registered does nothing. -/
theorem report_eq_self
    {system : ConnSystem} {report : Report} {conn : Address}
    {dbConn : DBConn} {fresh : Allocation}
    (known : system.conns[conn]? = some dbConn)
    (unregistered : ∀ invoker ∈ system.connBus.invokers,
      invoker.id ≠ dbConn.connIncId ∧ invoker.id ≠ dbConn.connDecId) :
    system.report report conn fresh = some system := by
  have noInc : system.connBus.call connIncTopic dbConn.connIncId = none := by
    apply List.find?_eq_none.mpr
    intro invoker listed
    simp [Ne.symm (unregistered invoker listed).1]
  have noDec : system.connBus.call connDecTopic dbConn.connDecId = none := by
    apply List.find?_eq_none.mpr
    intro invoker listed
    simp [Ne.symm (unregistered invoker listed).2]
  cases report <;> simp [ConnSystem.report, known, callConnBus, noInc, noDec]

/-! ### No call ends in a dangling pointer -/

theorem WellFormed.callManagerBus_isSome
    {system : ConnSystem} (wellFormed : WellFormed system) (name : String)
    {p : Address} {pool : ConnPool} (live : system.pools p = some pool)
    (id : Id) {fresh : Allocation} (free : system.pools fresh.address = none) :
    (system.callManagerBus name p id fresh).isSome := by
  simp only [callManagerBus]
  split
  · rfl
  · rename_i invoker found
    have listed := List.mem_of_find?_eq_some found
    obtain ⟨m, manager, managerFound, rfl | rfl⟩ :=
      (wellFormed.managerInvokers invoker).mp listed
    · simp only [ConnManager.incInvoker, onPoolInc, managerFound, live]
      split
      · rfl
      · rw [Option.isSome_iff_exists]
        exact ⟨_, addPool_eq_some_iff.mpr ⟨manager, managerFound, free, rfl⟩⟩
    · simp only [ConnManager.decInvoker, onPoolDec, live,
        delPool_managers_self managerFound]
      split <;> rfl

theorem WellFormed.report_isSome
    {system : ConnSystem} (wellFormed : WellFormed system)
    {report : Report} {conn : Address} {dbConn : DBConn} {fresh : Allocation}
    (known : system.conns[conn]? = some dbConn)
    (free : system.pools fresh.address = none) :
    (system.report report conn fresh).isSome := by
  have handled : ∀ name id,
      (system.callConnBus name conn dbConn id fresh).isSome := by
    intro name id
    simp only [callConnBus]
    split
    · rfl
    · rename_i invoker found
      have listed := List.mem_of_find?_eq_some found
      obtain ⟨p, pool, live, rfl | rfl⟩ :=
        (wellFormed.connInvokers invoker).mp listed
      · simp only [ConnPool.incInvoker, onConnInc, live]
        split
        · split
          · have nested := wellFormed.callManagerBus_isSome poolIncTopic live
              pool.poolIncId free
            obtain ⟨middle, called⟩ := Option.isSome_iff_exists.mp nested
            have stillLive : middle.pools p = some pool := by
              rcases wellFormed.callManagerBus_poolInc called with
                rfl | ⟨m, manager, _, _, added⟩
              · exact live
              · exact addPool_pools added live
            simp [called, insertConn, stillLive]
          · simp [insertConn, live]
        · rfl
      · simp only [ConnPool.decInvoker, onConnDec, live]
        split
        · split
          · have different : fresh.address ≠ p := by
              intro here
              rw [here, live] at free
              cases free
            apply (wellFormed.setPool live
              (ConnPool.sameIdentity_delConnPtr pool conn
                dbConn.info)).callManagerBus_isSome
            · rw [setPool_pools, if_pos rfl]
            · rw [setPool_pools, if_neg different, free]
          · rfl
        · rfl
  cases report with
  | onConnected =>
      simp only [ConnSystem.report, known]
      exact handled _ _
  | onDisconnected =>
      simp only [ConnSystem.report, known]
      exact handled _ _

/-- Routing is exact; a report of a pool or of its connections reaches this
pool and its manager alone; a destroyed pool is never called again; and no
report, with all that its handlers do to the bus, runs into a dangling
pointer. -/
theorem messageBus_routesExactly
    {actions : List ConnAction} {system : ConnSystem}
    (ran : run step start actions = some system)
    (bound : system.center.drawn < 2 ^ 32) :
    (∀ name id invoker, system.connBus.call name id = some invoker ↔
      BusOp.Registered system.connBus.ops invoker ∧ invoker.name = name ∧
        invoker.id = id) ∧
    (∀ name id invoker, system.managerBus.call name id = some invoker ↔
      BusOp.Registered system.managerBus.ops invoker ∧ invoker.name = name ∧
        invoker.id = id) ∧
    (∀ p pool, system.pools p = some pool →
      ∀ report conn dbConn fresh next, system.conns[conn]? = some dbConn →
        Carries dbConn pool → system.report report conn fresh = some next →
        ∀ q other, q ≠ p → system.pools q = some other →
          next.pools q = some other) ∧
    (∀ front middle back earlier gone p pool,
      actions = front ++ middle ++ back →
      run step start front = some earlier → earlier.pools p = some pool →
      run step earlier middle = some gone → gone.pools p = none →
      ∀ report conn dbConn fresh, system.conns[conn]? = some dbConn →
        Carries dbConn pool →
          system.report report conn fresh = some system) ∧
    (∀ p pool fresh next, system.pools p = some pool →
      system.callManagerBus poolIncTopic p pool.poolIncId fresh = some next ∨
        system.callManagerBus poolDecTopic p pool.poolDecId fresh =
          some next →
      ∀ n, n ≠ pool.creator → next.managers n = system.managers n) ∧
    ∀ report conn dbConn fresh, system.conns[conn]? = some dbConn →
      system.pools fresh.address = none →
        (system.report report conn fresh).isSome := by
  have wellFormed := wellFormed_run ran
  have routed := routed_run ran (Nat.le_of_lt bound)
  refine ⟨?_, ?_, ?_, ?_, ?_, ?_⟩
  · intro name id invoker
    exact routed.connBus.call_eq_some_iff
  · intro name id invoker
    exact routed.managerBus.call_eq_some_iff
  · intro p pool live report conn dbConn fresh next known carries reported
      q other different otherLive
    exact routed.report_pools_of_ne wellFormed live otherLive different known
      carries reported
  · intro front middle back earlier gone p pool split frontRan live middleRan
      destroyed report conn dbConn fresh known carries
    rw [split] at ran
    obtain ⟨again, goneRan, backRan⟩ := run_append_eq_some_iff.mp ran
    have same : again = gone := by
      have composed : run step start (front ++ middle) = some gone :=
        run_append_eq_some_iff.mpr ⟨earlier, frontRan, middleRan⟩
      rw [composed] at goneRan
      exact (Option.some.inj goneRan).symm
    rw [same] at backRan
    apply report_eq_self known
    rw [carries.connIncId, carries.connDecId]
    exact ids_unregistered_of_destroyed frontRan live middleRan destroyed
      backRan (Nat.le_of_lt bound)
  · intro p pool fresh next live called n different
    rcases called with inc | dec
    · exact routed.poolInc_managers_of_ne wellFormed live different inc
    · exact routed.poolDec_managers_of_ne wellFormed live different dec
  · intro report conn dbConn fresh known free
    exact wellFormed.report_isSome known free

/-- The first connection of the pool at 7 reports; the pool at 8 is left as
it is. -/
theorem messageBus_routesExactly_twoPools :
    ∃ system next other,
      run step start
          [.newManager 0, .addPool 0 ⟨7, 0⟩, .addPool 0 ⟨8, 0⟩,
            .poolAddConn 7 ⟨"", "", "", "", 0⟩] = some system ∧
        system.report .onConnected 0 ⟨9, 0⟩ = some next ∧
        system.pools 8 = some other ∧ next.pools 8 = some other :=
  ⟨_, _, _, rfl, rfl, rfl,
    (@messageBus_routesExactly
      [.newManager 0, .addPool 0 ⟨7, 0⟩, .addPool 0 ⟨8, 0⟩,
        .poolAddConn 7 ⟨"", "", "", "", 0⟩] _ rfl (by decide)).2.2.1
      7 _ rfl .onConnected 0 _ ⟨9, 0⟩ _ rfl ⟨rfl, rfl, rfl⟩ rfl
      8 _ (by decide) rfl⟩

end ConnSystem

end DBWrapper
