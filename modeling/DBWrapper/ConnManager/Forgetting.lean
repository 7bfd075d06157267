import DBWrapper.ConnManager.Discovery
import DBWrapper.ConnManager.Fairness

/-!
# Whether a deleted target is handed out again

`del_conn(info)` removes the connections that the pools list, and no list
mentions one that is still being made.  When that one reports `CONN_INC`, the
pool takes it in without a look at the targets of the manager.  So a deleted
target stays away exactly as long as no report brings it back.
-/

namespace DBWrapper

open Foundation

namespace ConnSystem

/-- No pool of the manager holds a connection to the target. -/
def Forgotten (system : ConnSystem) (m : Address) (info : ConnInfo) : Prop :=
  ∀ manager p pool conn dbConn, system.managers m = some manager →
    p ∈ manager.poolList → system.pools p = some pool → pool.Holds conn →
      system.conns[conn]? = some dbConn → dbConn.info ≠ info

/-- The action deletes the target: by `del_conn(info)`, or because a poll does
not find it any more. -/
def DeletesTarget (system : ConnSystem) (m : Address) (info : ConnInfo) :
    ConnAction → Prop
  | .delConn n other => n = m ∧ other = info
  | .getConnInfo n polled =>
      n = m ∧ info ∈ system.connList m ∧ info ∉ polled
  | _ => False

/-- No connection to the target comes up in a pool that the manager lists. -/
def NotRevived (m : Address) (info : ConnInfo) (system : ConnSystem) :
    ConnAction → Prop
  | .report .onConnected conn _ =>
      ∀ p manager dbConn, system.acceptingPool conn = some p →
        system.managers m = some manager → p ∈ manager.poolList →
          system.conns[conn]? = some dbConn → dbConn.info ≠ info
  | _ => True

/-- `get_conn` answers with a connection of a pool in the list. -/
theorem holds_of_getConn
    {system : ConnSystem} {m conn : Address}
    (got : (system.getConn m).1 = some conn) :
    ∃ manager p pool, system.managers m = some manager ∧
      p ∈ manager.poolList ∧ system.pools p = some pool ∧
        pool.Holds conn := by
  simp only [ConnSystem.getConn, getPool] at got
  cases found : system.managers m with
  | none => simp [found] at got
  | some manager =>
      cases poolList : manager.poolList with
      | nil => simp [found, poolList] at got
      | cons p rest =>
          simp only [found, poolList, List.head?_cons, poolGetConn,
            ConnSystem.setManager] at got
          cases live : system.pools p with
          | none => simp [live] at got
          | some pool =>
              simp only [live] at got
              exact ⟨manager, p, pool, rfl, by simp [poolList], live,
                (ConnPool.holds_of_getConn got).1⟩

theorem Forgotten.getConn
    {system : ConnSystem} {m : Address} {info : ConnInfo}
    (forgotten : Forgotten system m info) {conn : Address} {dbConn : DBConn}
    (got : (system.getConn m).1 = some conn)
    (known : system.conns[conn]? = some dbConn) : dbConn.info ≠ info := by
  obtain ⟨manager, p, pool, found, listed, live, held⟩ :=
    holds_of_getConn got
  exact forgotten manager p pool conn dbConn found listed live held known

/-! ### The deletion -/

/-- After pools have been told to delete the target, and no report since. -/
theorem Told.forgotten
    {system next : ConnSystem} {m : Address} {manager : ConnManager}
    {infoList : List ConnInfo} {connList : ConnList} {told : List PoolEvent}
    (wellFormed : WellFormed system) (found : system.managers m = some manager)
    (tells : Told system m manager infoList connList told next)
    (follow : PoolsFollow next) {info : ConnInfo}
    (deleted : .delConn info ∈ told)
    (noReport : ∀ conn, .connInc conn ∉ told) : Forgotten next m info := by
  intro after p pool conn dbConn afterFound listed live held known same
  rw [tells.replaced] at afterFound
  cases afterFound
  obtain ⟨before, beforeLive, _⟩ := wellFormed.listed found listed
  obtain ⟨current, currentLive, events⟩ := tells.pools p listed before beforeLive
  rw [live] at currentLive
  cases currentLive
  rw [(follow p pool live).holds_iff known, ConnPool.LastInc, events] at held
  have notSet : ∀ event ∈ told, event ≠ .connInc conn := by
    intro event isTold isReport
    rw [isReport] at isTold
    exact noReport conn isTold
  have kept := ((latched_append_iff notSet).mp held).2
  exact kept _ deleted (.inr (congrArg PoolEvent.delConn same.symm))

theorem forgotten_of_deletes
    {system next : ConnSystem} {action : ConnAction} {m : Address}
    {info : ConnInfo} (wellFormed : WellFormed system)
    (follow : PoolsFollow next)
    (deletes : DeletesTarget system m info action)
    (stepped : step system action = some next) : Forgotten next m info := by
  cases action with
  | delConn n other =>
      obtain ⟨rfl, rfl⟩ := deletes
      cases stepped
      cases found : system.managers n with
      | none =>
          intro manager p pool conn dbConn after
          simp [delConn, found] at after
      | some manager =>
          have told := told_delConn found (wellFormed.distinct found) other
          exact told.forgotten wellFormed found follow (by simp) (by simp)
  | getConnInfo n polled =>
      obtain ⟨rfl, known, gone⟩ := deletes
      cases stepped
      cases found : system.managers n with
      | none => simp [connList, found] at known
      | some manager =>
          rw [connList_eq found] at known
          obtain ⟨infoList, connList, told, tells, news, deletions⟩ :=
            told_poll found (wellFormed.distinct found) polled
          apply tells.forgotten wellFormed found follow
          · exact (deletions info).mpr ⟨known, gone⟩
          · intro conn isTold
            obtain ⟨other, isNews⟩ := news _ isTold
            simp at isNews
  | _ => cases deletes

/-! ### The steps after it -/

/-- What holds while the effects of one action take place: nothing has come
into a pool that the manager listed before, but what the action permits. -/
structure StillForgotten (system : ConnSystem) (m : Address) (info : ConnInfo)
    (current : ConnSystem) : Prop where
  forgotten : Forgotten current m info
  follow : PoolsFollow current
  conns : system.conns <+: current.conns
  listed : ∀ {manager : ConnManager} {p : Address},
    current.managers m = some manager → p ∈ manager.poolList →
      (∃ before, system.managers m = some before ∧ p ∈ before.poolList) ∨
        system.pools p = none

theorem Forgotten.appendConns
    {system : ConnSystem} {m : Address} {info : ConnInfo}
    (forgotten : Forgotten system m info) (follow : PoolsFollow system)
    (added : Conns) :
    Forgotten { system with conns := system.conns ++ added } m info := by
  intro manager p pool conn dbConn found listed live held known
  have inRange := (follow p pool live).heldExist conn held
  have earlier : (system.conns ++ added)[conn]? = system.conns[conn]? :=
    List.getElem?_append_left inRange
  change (system.conns ++ added)[conn]? = some dbConn at known
  rw [earlier] at known
  exact forgotten manager p pool conn dbConn found listed live held known

/-- Lists that have not grown, and the same pools. -/
theorem StillForgotten.ofLists
    {system current next : ConnSystem} {m : Address} {info : ConnInfo}
    (still : StillForgotten system m info current)
    (follow : PoolsFollow next) (pools : next.pools = current.pools)
    (conns : next.conns = current.conns)
    (lists : ∀ after p, next.managers m = some after → p ∈ after.poolList →
      ∃ earlier, current.managers m = some earlier ∧ p ∈ earlier.poolList) :
    StillForgotten system m info next := by
  refine ⟨?_, follow, conns ▸ still.conns, ?_⟩
  · intro after p pool conn dbConn found listed live held known
    obtain ⟨earlier, foundEarlier, listedEarlier⟩ := lists after p found listed
    rw [pools] at live
    rw [conns] at known
    exact still.forgotten earlier p pool conn dbConn foundEarlier
      listedEarlier live held known
  · intro after p found listed
    obtain ⟨earlier, foundEarlier, listedEarlier⟩ := lists after p found listed
    exact still.listed foundEarlier listedEarlier

theorem mem_poolList_of_setManager
    {system : ConnSystem} {m n : Address} {manager other : ConnManager}
    (before : system.managers n = some manager)
    (subset : other.poolList ⊆ manager.poolList) (after : ConnManager)
    (p : Address)
    (found : (system.setManager n other).managers m = some after)
    (listed : p ∈ after.poolList) :
    ∃ earlier, system.managers m = some earlier ∧ p ∈ earlier.poolList := by
  rw [setManager_managers] at found
  split at found
  · rename_i here
    cases found
    exact ⟨manager, by rw [here, before], subset listed⟩
  · exact ⟨after, found, listed⟩

theorem mem_poolList_of_withPool
    {system : ConnSystem} {m n p : Address} {manager after : ConnManager}
    {fresh : Allocation} (before : system.managers n = some manager)
    (found : (system.withPool n manager fresh).managers m = some after)
    (listed : p ∈ after.poolList) :
    (∃ earlier, system.managers m = some earlier ∧ p ∈ earlier.poolList) ∨
      p = fresh.address := by
  rw [withPool_managers] at found
  split at found
  · rename_i here
    cases found
    rcases List.mem_append.mp listed with earlier | isNew
    · exact .inl ⟨manager, by rw [here, before], earlier⟩
    · exact .inr (List.mem_singleton.mp isNew)
  · exact .inl ⟨after, found, listed⟩

/-- A new pool is empty, and only it is listed in addition. -/
theorem StillForgotten.withPool
    {system current : ConnSystem} {m n : Address} {info : ConnInfo}
    {manager : ConnManager} {fresh : Allocation}
    (still : StillForgotten system m info current)
    (follow : PoolsFollow (current.withPool n manager fresh))
    (conns : system.conns <+: (current.withPool n manager fresh).conns)
    (found : current.managers n = some manager)
    (free : system.pools fresh.address = none) :
    StillForgotten system m info (current.withPool n manager fresh) := by
  refine ⟨?_, follow, conns, ?_⟩
  · intro after p pool conn dbConn foundAfter listed live held known
    rw [withPool_pools] at live
    split at live
    · cases live
      simp [addedPool, ConnPool.construct, ConnPool.Holds] at held
    · rename_i different
      obtain ⟨before, foundBefore, earlier⟩ :=
        (mem_poolList_of_withPool found foundAfter listed).resolve_right
          different
      exact still.forgotten.appendConns still.follow _ before p pool conn
        dbConn foundBefore earlier live held known
  · intro after p foundAfter listed
    rcases mem_poolList_of_withPool found foundAfter listed with
      earlier | isNew
    · obtain ⟨before, foundBefore, listedBefore⟩ := earlier
      exact still.listed foundBefore listedBefore
    · rw [isNew]
      exact .inr free

/-- A connection that enters a pool is one that the action may bring in. -/
theorem StillForgotten.setPool
    {system current : ConnSystem} {m p : Address} {info : ConnInfo}
    {action : ConnAction} {pool other : ConnPool}
    (still : StillForgotten system m info current)
    (notRevived : NotRevived m info system action)
    (follow : PoolsFollow (current.setPool p other))
    (live : current.pools p = some pool)
    (inserted : ∀ conn, other.Holds conn →
      pool.Holds conn ∨ (permitted system action).inserts p conn) :
    StillForgotten system m info (current.setPool p other) := by
  refine ⟨?_, follow, still.conns, still.listed⟩
  intro manager q after conn dbConn found listed afterLive held known
  rw [setPool_pools] at afterLive
  split at afterLive
  · rename_i here
    subst here
    cases afterLive
    rcases inserted conn held with before | ⟨⟨fresh, isReport⟩, accepts⟩
    · exact still.forgotten manager q pool conn dbConn found listed live
        before known
    · subst isReport
      obtain ⟨original, _, accepting, wasKnown, _, _, wasLive, _⟩ :=
        acceptingPool_eq_some_iff.mp accepts
      have same := getElem?_of_isPrefix still.conns wasKnown
      change current.conns[conn]? = some dbConn at known
      rw [known] at same
      cases same
      rcases still.listed found listed with
        ⟨before, foundBefore, listedBefore⟩ | absent
      · exact notRevived q before dbConn accepts foundBefore listedBefore
          wasKnown
      · rw [absent] at wasLive
        cases wasLive
  · exact still.forgotten manager q after conn dbConn found listed
      afterLive held known

theorem StillForgotten.effect
    {system current next : ConnSystem} {m : Address} {info : ConnInfo}
    {action : ConnAction} (still : StillForgotten system m info current)
    (notRevived : NotRevived m info system action)
    (effect : Effect (permitted system action) current next) :
    StillForgotten system m info next := by
  have follow := still.follow.change effect.change
  have conns := still.conns.trans effect.change.conns_isPrefix
  cases effect with
  | pool live change inserted removed =>
      exact still.setPool notRevived follow live inserted
  | conn live newInfo =>
      exact ⟨still.forgotten.appendConns still.follow _, follow, conns,
        still.listed⟩
  | @poolList n manager poolList unavailable before subset distinct =>
      apply still.ofLists follow rfl rfl
      exact mem_poolList_of_setManager before subset
  | @targets n manager infoList connList allowed before =>
      apply still.ofLists follow rfl rfl
      exact mem_poolList_of_setManager before (List.Subset.refl _)
  | @addPool n fresh next allowed added =>
      obtain ⟨rfl, _⟩ := allowed
      obtain ⟨manager, found, free, rfl⟩ := addPool_eq_some_iff.mp added
      exact still.withPool follow conns found free
  | @destroyPool p pool live unlisted =>
      refine ⟨?_, follow, conns, still.listed⟩
      intro manager q after conn dbConn found listed afterLive held known
      rw [destroyPool_pools] at afterLive
      split at afterLive
      · cases afterLive
      · exact still.forgotten manager q after conn dbConn found listed
          afterLive held known
  | @newManager n absent =>
      apply still.ofLists follow rfl rfl
      intro after p found listed
      by_cases here : m = n
      · subst here
        simp only [ConnSystem.newManager, ConnSystem.setManager,
          Function.update_self, Option.some.injEq] at found
        rw [← found] at listed
        cases listed
      · refine ⟨after, ?_, listed⟩
        simpa [ConnSystem.newManager, ConnSystem.setManager, here] using found

theorem Forgotten.step
    {system next : ConnSystem} {m : Address} {info : ConnInfo}
    {action : ConnAction} (forgotten : Forgotten system m info)
    (wellFormed : WellFormed system) (follow : PoolsFollow system)
    (notRevived : NotRevived m info system action)
    (stepped : ConnSystem.step system action = some next) :
    Forgotten next m info := by
  have still : StillForgotten system m info next := by
    apply invariant_step wellFormed _ _ stepped
    · intro current after _ still effect
      exact still.effect notRevived effect
    · exact ⟨forgotten, follow, List.prefix_refl _,
        fun found listed => .inl ⟨_, found, listed⟩⟩
  exact still.forgotten

theorem addPool_managers
    {system next : ConnSystem} {m n : Address} {fresh : Allocation}
    (added : system.addPool n fresh = some next) {manager : ConnManager}
    (found : system.managers m = some manager) {p : Address}
    (listed : p ∈ manager.poolList) :
    ∃ after, next.managers m = some after ∧ p ∈ after.poolList := by
  obtain ⟨extended, foundExtended, _, rfl⟩ := addPool_eq_some_iff.mp added
  rw [withPool_managers]
  split
  · rename_i here
    rw [← here, found] at foundExtended
    cases foundExtended
    exact ⟨_, rfl, List.mem_append_left _ listed⟩
  · exact ⟨manager, found, listed⟩

/-- A connection that comes up is in the list of its pool. -/
theorem WellFormed.revives
    {system next : ConnSystem} (wellFormed : WellFormed system)
    {conn p m : Address} {dbConn : DBConn} {manager : ConnManager}
    {fresh : Allocation} (accepts : system.acceptingPool conn = some p)
    (known : system.conns[conn]? = some dbConn)
    (found : system.managers m = some manager)
    (listed : p ∈ manager.poolList)
    (reported : system.report .onConnected conn fresh = some next) :
    ∃ after pool, next.managers m = some after ∧ p ∈ after.poolList ∧
      next.pools p = some pool ∧ pool.Holds conn := by
  obtain ⟨other, invoker, pool, otherKnown, called, isInc, live, index⟩ :=
    acceptingPool_eq_some_iff.mp accepts
  rw [known] at otherKnown
  cases otherKnown
  simp only [ConnSystem.report, known, callConnBus, called, isInc, onConnInc,
    live, index, if_true] at reported
  have holds : (pool.addConnPtr conn dbConn.info).Holds conn :=
    (pool.holds_addConnPtr_iff conn conn dbConn.info).mpr (.inr rfl)
  have inserts : ∀ middle : ConnSystem, middle.pools p = some pool →
      middle.insertConn p conn dbConn = some next →
        next.managers = middle.managers ∧
          next.pools p = some (pool.addConnPtr conn dbConn.info) := by
    intro middle middleLive inserted
    simp only [insertConn, middleLive, Option.some.injEq] at inserted
    subst inserted
    exact ⟨rfl, by rw [setPool_pools, if_pos rfl]⟩
  split at reported
  · split at reported
    · cases reported
    · rename_i middle extended
      rcases wellFormed.callManagerBus_poolInc extended with
        rfl | ⟨n, _, _, _, added⟩
      · obtain ⟨managers, entered⟩ := inserts _ live reported
        exact ⟨manager, _, by rw [managers, found], listed, entered, holds⟩
      · obtain ⟨after, foundAfter, stillListed⟩ :=
          addPool_managers added found listed
        obtain ⟨managers, entered⟩ :=
          inserts middle (addPool_pools added live) reported
        exact ⟨after, _, by rw [managers, foundAfter], stillListed, entered,
          holds⟩
  · obtain ⟨managers, entered⟩ := inserts _ live reported
    exact ⟨manager, _, by rw [managers, found], listed, entered, holds⟩

/-- A report that brings the target back. -/
theorem notRevived_of_forgotten
    {system next : ConnSystem} {m : Address} {info : ConnInfo}
    {action : ConnAction} (wellFormed : WellFormed system)
    (stepped : step system action = some next)
    (forgotten : Forgotten next m info) : NotRevived m info system action := by
  cases action with
  | report report conn fresh =>
      cases report with
      | onDisconnected => trivial
      | onConnected =>
          intro p manager dbConn accepts found listed known
          obtain ⟨after, pool, foundAfter, stillListed, live, held⟩ :=
            wellFormed.revives accepts known found listed stepped
          have stillKnown := getElem?_of_isPrefix
            (changes_step wellFormed stepped).conns_isPrefix known
          exact forgotten after p pool conn dbConn foundAfter stillListed live
            held stillKnown
  | _ => trivial

/-! ### Runs -/

/-- After a target has been deleted, no pool of the manager holds a connection
to it, and `get_conn` answers with none, exactly as long as no connection to
it comes up in one of these pools.  It does not matter whether the target is
added again meanwhile. -/
theorem deletedTarget_forgotten_iff
    {before after : List ConnAction} {deletion : ConnAction}
    {earlier deleted final : ConnSystem} {m : Address} {info : ConnInfo}
    (ranBefore : run step start before = some earlier)
    (deletes : DeletesTarget earlier m info deletion)
    (stepped : step earlier deletion = some deleted)
    (ranAfter : run step deleted after = some final) :
    ((∀ state, Visits step deleted after state → Forgotten state m info) ↔
      AllSteps step (NotRevived m info) deleted after) ∧
    (AllSteps step (NotRevived m info) deleted after →
      ∀ state, Visits step deleted after state → ∀ conn dbConn,
        (state.getConn m).1 = some conn → state.conns[conn]? = some dbConn →
          dbConn.info ≠ info) := by
  have known : ∀ {state}, Visits step deleted after state →
      WellFormed state ∧ PoolsFollow state := by
    intro state visits
    obtain ⟨front, back, _, reached⟩ := visits
    have ran : run step start (before ++ deletion :: front) = some state := by
      apply run_append_eq_some_iff.mpr
      exact ⟨earlier, ranBefore, run_cons_eq_some_iff.mpr
        ⟨deleted, stepped, reached⟩⟩
    exact ⟨wellFormed_run ran, poolsFollow_run ran⟩
  have initial : Forgotten deleted m info :=
    forgotten_of_deletes (wellFormed_run ranBefore)
      (known (visits_start step deleted after)).2 deletes stepped
  have stays : AllSteps step (NotRevived m info) deleted after →
      ∀ state, Visits step deleted after state → Forgotten state m info := by
    intro notRevived state visits
    have both : (WellFormed state ∧ PoolsFollow state) ∧
        Forgotten state m info := by
      apply visits_invariant_of_allSteps _ _ notRevived ranAfter visits
      · intro current action next visitsNext holds here stepped
        exact ⟨known visitsNext,
          holds.2.step holds.1.1 holds.1.2 here stepped⟩
      · exact ⟨known (visits_start step deleted after), initial⟩
    exact both.2
  refine ⟨⟨?_, stays⟩, ?_⟩
  · intro forgotten
    apply allSteps_of_visits _ ranAfter
    intro state action next _ visits visitsNext stepped
    exact notRevived_of_forgotten (known visits).1 stepped
      (forgotten next visitsNext)
  · intro notRevived state visits conn dbConn got isKnown
    exact (stays notRevived state visits).getConn got isKnown

/-- The connection is up before its target is deleted. -/
theorem deletedTarget_forgotten_iff_connected :
    ∃ earlier deleted final,
      run step start
          [.newManager 0, .addPool 0 ⟨7, 0⟩, .addConn 0 ⟨"", "", "", "", 0⟩,
            .report .onConnected 0 ⟨8, 0⟩] = some earlier ∧
        step earlier (.delConn 0 ⟨"", "", "", "", 0⟩) = some deleted ∧
        run step deleted [.getConn 0] = some final ∧
        Forgotten final 0 ⟨"", "", "", "", 0⟩ := by
  refine ⟨_, _, _, rfl, rfl, rfl, ?_⟩
  apply (@deletedTarget_forgotten_iff
    [.newManager 0, .addPool 0 ⟨7, 0⟩, .addConn 0 ⟨"", "", "", "", 0⟩,
      .report .onConnected 0 ⟨8, 0⟩] [.getConn 0]
    (.delConn 0 ⟨"", "", "", "", 0⟩) _ _ _ 0 ⟨"", "", "", "", 0⟩
    rfl ⟨rfl, rfl⟩ rfl rfl).1.mpr
  · exact ⟨trivial, fun _ _ => trivial⟩
  · exact visits_of_run rfl

/-- The connection comes up after its target has been deleted, and `get_conn`
hands it out. -/
theorem deletedTarget_handedOut :
    ∃ system dbConn,
      run step start
          [.newManager 0, .addPool 0 ⟨7, 0⟩, .addConn 0 ⟨"", "", "", "", 0⟩,
            .delConn 0 ⟨"", "", "", "", 0⟩,
            .report .onConnected 0 ⟨8, 0⟩] = some system ∧
        (system.getConn 0).1 = some 0 ∧ system.conns[0]? = some dbConn ∧
        dbConn.info = ⟨"", "", "", "", 0⟩ :=
  ⟨_, _, rfl, rfl, rfl, rfl⟩

end ConnSystem

end DBWrapper
