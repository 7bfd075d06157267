import Mathlib.Data.Finset.Card
import DBWrapper.ConnManager.Membership

/-!
# Connections that a pool lists twice

A pool appends every connection that reports `CONN_INC`, whether it is in its
lists or not.  Everything else that happens only removes connections or moves
them.  So a connection is listed twice exactly if it reports again while the
pool holds it, and then the pool counts it twice and serves it twice a round.
-/

namespace DBWrapper

open Foundation

namespace ConnPool

/-- Both lists. -/
def listed (pool : ConnPool) : List Address :=
  pool.dbInsLocalList ++ pool.dbInsRemoteList

/-- How often a pool lists the connection. -/
def copies (pool : ConnPool) (conn : Address) : Nat :=
  pool.listed.count conn

/-- What the pool reports and what it serves is right: `size` is the number of
connections that it holds, and each connection in the list that it serves from
gets one turn in a round. -/
structure ListsOnce (pool : ConnPool) : Prop where
  distinct : pool.listed.Nodup
  size : pool.size = pool.listed.toFinset.card
  share : ∀ conn ∈ pool.serving, pool.serving.count conn = 1

theorem copies_eq (pool : ConnPool) (conn : Address) :
    pool.copies conn =
      pool.dbInsLocalList.count conn + pool.dbInsRemoteList.count conn :=
  List.count_append

theorem copies_eq_zero_iff (pool : ConnPool) (conn : Address) :
    pool.copies conn = 0 ↔ ¬ pool.Holds conn := by
  rw [copies, List.count_eq_zero, listed, List.mem_append, Holds]

theorem listsOnce_iff (pool : ConnPool) :
    pool.ListsOnce ↔ ∀ conn, pool.copies conn ≤ 1 := by
  constructor
  · intro once
    exact List.nodup_iff_count_le_one.mp once.distinct
  · intro few
    have distinct : pool.listed.Nodup := List.nodup_iff_count_le_one.mpr few
    constructor
    · exact distinct
    · rw [List.toFinset_card_of_nodup distinct, listed, List.length_append]
      rfl
    · intro conn served
      apply List.count_eq_one_of_mem _ served
      simp only [serving]
      split
      · exact (List.nodup_append.mp distinct).2.1
      · exact (List.nodup_append.mp distinct).1

theorem copies_addConnPtr
    (pool : ConnPool) (conn other : Address) (info : ConnInfo) :
    (pool.addConnPtr conn info).copies other =
      pool.copies other + if other = conn then 1 else 0 := by
  have one : [conn].count other = if other = conn then 1 else 0 := by
    by_cases same : other = conn
    · rw [if_pos same, same, List.count_singleton_self]
    · rw [if_neg same, List.count_eq_zero, List.mem_singleton]
      exact same
  simp only [addConnPtr]
  by_cases isLocal : info.type = 0
  · simp only [isLocal, if_true, copies_eq, record, List.count_append, one]
    omega
  · simp only [isLocal, if_false, copies_eq, record, List.count_append, one]
    omega

theorem copies_delConnPtr_le
    (pool : ConnPool) (conn other : Address) (info : ConnInfo) :
    (pool.delConnPtr conn info).copies other ≤ pool.copies other := by
  simp only [delConnPtr, copies_eq, record]
  split
  · apply Nat.add_le_add_right
    exact List.filter_sublist.count_le other
  · apply Nat.add_le_add_left
    exact List.filter_sublist.count_le other

theorem copies_delConn_le
    (pool : ConnPool) (conns : Conns) (info : ConnInfo) (other : Address) :
    (pool.delConn conns info).copies other ≤ pool.copies other := by
  simp only [delConn, copies_eq, record]
  split
  · apply Nat.add_le_add_right
    exact List.filter_sublist.count_le other
  · apply Nat.add_le_add_left
    exact List.filter_sublist.count_le other

theorem copies_getConn (pool : ConnPool) (conn : Address) :
    pool.getConn.2.copies conn = pool.copies conn := by
  have rotated : ∀ list : List Address,
      (rotateList list).count conn = list.count conn := by
    intro list
    rw [rotateList_eq]
    exact (List.rotate_perm list 1).count_eq conn
  simp only [getConn, record]
  split
  · rename_i locals
    simp only [copies_eq, rotated, locals]
  · rename_i locals remotes
    simp only [copies_eq, rotated, locals, remotes]
  · rfl

end ConnPool

namespace ConnSystem

/-- How often the pool at the address lists the connection. -/
def copies (system : ConnSystem) (p conn : Address) : Nat :=
  match system.pools p with
  | none => 0
  | some pool => pool.copies conn

/-- No pool lists a connection more often than before. -/
def Thins (system next : ConnSystem) : Prop :=
  ∀ p conn, next.copies p conn ≤ system.copies p conn

theorem copies_of_live
    {system : ConnSystem} {p : Address} {pool : ConnPool}
    (live : system.pools p = some pool) (conn : Address) :
    system.copies p conn = pool.copies conn := by
  simp [copies, live]

theorem Thins.refl (system : ConnSystem) : Thins system system :=
  fun _ _ => Nat.le_refl _

theorem Thins.trans
    {system middle next : ConnSystem} (first : Thins system middle)
    (second : Thins middle next) : Thins system next :=
  fun p conn => Nat.le_trans (second p conn) (first p conn)

/-- The pools that are left are what they were. -/
theorem thins_of_survive
    {system next : ConnSystem}
    (survive : ∀ p pool, next.pools p = some pool →
      system.pools p = some pool) :
    Thins system next := by
  intro p conn
  cases live : next.pools p with
  | none => simp [copies, live]
  | some pool =>
      rw [copies_of_live live, copies_of_live (survive p pool live)]

theorem thins_of_pools
    {system next : ConnSystem} (same : next.pools = system.pools) :
    Thins system next := by
  apply thins_of_survive
  intro p pool live
  rw [← same, live]

theorem thins_setPool
    {system : ConnSystem} {p : Address} {pool other : ConnPool}
    (live : system.pools p = some pool)
    (fewer : ∀ conn, other.copies conn ≤ pool.copies conn) :
    Thins system (system.setPool p other) := by
  intro q conn
  simp only [copies, setPool_pools]
  by_cases here : q = p
  · subst here
    simp only [if_true, live]
    exact fewer conn
  · rw [if_neg here]

theorem thins_foldl
    {Element : Type} {operation : ConnSystem → Element → ConnSystem}
    (each : ∀ system element, Thins system (operation system element))
    (list : List Element) (system : ConnSystem) :
    Thins system (list.foldl operation system) := by
  induction list generalizing system with
  | nil => exact Thins.refl system
  | cons element list induction =>
      rw [List.foldl_cons]
      exact (each system element).trans (induction _)

/-! ### The operations -/

theorem thins_poolAddConn
    (system : ConnSystem) (p : Address) (info : ConnInfo) :
    Thins system (system.poolAddConn p info) := by
  simp only [poolAddConn]
  split
  · exact Thins.refl system
  · rename_i pool live
    have recorded : Thins system
        (system.setPool p (pool.record (.addConn info))) :=
      thins_setPool live (fun _ => Nat.le_refl _)
    exact recorded.trans (thins_of_pools rfl)

theorem thins_poolDelConn
    (system : ConnSystem) (p : Address) (info : ConnInfo) :
    Thins system (system.poolDelConn p info) := by
  simp only [poolDelConn]
  split
  · exact Thins.refl system
  · rename_i pool live
    exact thins_setPool live (pool.copies_delConn_le system.conns info)

theorem thins_poolGetConn (system : ConnSystem) (p : Address) :
    Thins system (system.poolGetConn p).2 := by
  simp only [poolGetConn]
  split
  · exact Thins.refl system
  · rename_i pool live
    exact thins_setPool live
      (fun conn => Nat.le_of_eq (pool.copies_getConn conn))

theorem thins_usePool (system : ConnSystem) (p : Address) :
    Thins system (system.usePool p) := by
  simp only [usePool]
  split
  · exact Thins.refl system
  · rename_i pool live
    exact thins_setPool live (fun _ => Nat.le_refl _)

theorem thins_addConn (system : ConnSystem) (m : Address) (info : ConnInfo) :
    Thins system (system.addConn m info) := by
  simp only [addConn]
  split
  · exact Thins.refl system
  · apply Thins.trans _
      (thins_foldl (fun system p => thins_poolAddConn system p info) _ _)
    exact thins_of_pools rfl

theorem thins_delConn (system : ConnSystem) (m : Address) (info : ConnInfo) :
    Thins system (system.delConn m info) := by
  simp only [delConn]
  split
  · exact Thins.refl system
  · apply Thins.trans _
      (thins_foldl (fun system p => thins_poolDelConn system p info) _ _)
    exact thins_of_pools rfl

theorem thins_setConnList
    (system : ConnSystem) (m : Address) (connList : ConnList) :
    Thins system (system.setConnList m connList) := by
  simp only [setConnList]
  split
  · exact Thins.refl system
  · exact thins_of_pools rfl

theorem thins_getConnInfo
    (system : ConnSystem) (m : Address) (tmplist : ConnList) :
    Thins system (system.getConnInfo m tmplist) := by
  have discovered : ∀ system tmp, Thins system (discover m system tmp) := by
    intro system tmp
    simp only [discover]
    split
    · exact Thins.refl system
    · exact (thins_addConn system m tmp).trans (thins_setConnList _ m _)
  have forgotten : ∀ system tmp,
      Thins system (forget m tmplist system tmp) := by
    intro system tmp
    simp only [forget]
    split
    · exact Thins.refl system
    · exact (thins_delConn system m tmp).trans (thins_setConnList _ m _)
  simp only [getConnInfo]
  exact (thins_foldl discovered _ _).trans (thins_foldl forgotten _ _)

theorem getPool_pools (system : ConnSystem) (m : Address) :
    (system.getPool m).2.pools = system.pools := by
  simp only [getPool]
  split <;> rfl

theorem thins_getConn (system : ConnSystem) (m : Address) :
    Thins system (system.getConn m).2 := by
  have rotated := thins_of_pools (system.getPool_pools m)
  simp only [getConn]
  split
  · rename_i after result
    rw [result] at rotated
    exact rotated
  · rename_i p after result
    rw [result] at rotated
    exact rotated.trans (thins_poolGetConn after p)

/-- A pool that has been added lists nothing. -/
theorem thins_addPool
    {system next : ConnSystem} {m : Address} {fresh : Allocation}
    (added : system.addPool m fresh = some next) : Thins system next := by
  obtain ⟨manager, _, _, rfl⟩ := addPool_eq_some_iff.mp added
  intro p conn
  simp only [copies, withPool_pools]
  by_cases here : p = fresh.address
  · rw [if_pos here]
    exact Nat.zero_le _
  · rw [if_neg here]

theorem thins_releasePool
    {system next : ConnSystem} {p : Address}
    (released : system.releasePool p = some next) : Thins system next := by
  simp only [releasePool] at released
  split at released
  · cases released
  · rename_i pool live
    split at released
    · cases released
    · split at released
      · cases released
      · split at released
        · cases released
          exact thins_setPool live (fun _ => Nat.le_refl _)
        · cases released
          apply thins_of_survive
          intro q other otherLive
          rw [destroyPool_pools] at otherLive
          split at otherLive
          · cases otherLive
          · exact otherLive
    · cases released
      exact thins_setPool live (fun _ => Nat.le_refl _)

theorem WellFormed.thins_onDisconnected
    {system next : ConnSystem} (wellFormed : WellFormed system)
    {conn : Address} {fresh : Allocation}
    (reported : system.report .onDisconnected conn fresh = some next) :
    Thins system next := by
  simp only [ConnSystem.report] at reported
  split at reported
  · cases reported
  · rename_i dbConn known
    rcases wellFormed.callConnBus_connDec reported with
      rfl | ⟨p, pool, live, _, handled⟩
    · exact Thins.refl _
    · have same := ConnPool.sameIdentity_delConnPtr pool conn dbConn.info
      have removed : Thins system
          (system.setPool p (pool.delConnPtr conn dbConn.info)) :=
        thins_setPool live
          (fun other => pool.copies_delConnPtr_le conn other dbConn.info)
      simp only [onConnDec, live] at handled
      split at handled
      · split at handled
        · rcases (wellFormed.setPool live same).callManagerBus_poolDec
            handled with rfl | ⟨m, manager, _, _, deleted⟩
          · exact removed
          · apply removed.trans
            apply thins_of_survive
            intro q other otherLive
            exact onPoolDec_pools deleted otherLive
        · cases handled
          exact removed
      · cases handled
        exact Thins.refl _

/-- Everything but a `CONN_INC` report. -/
theorem WellFormed.thins_step
    {system next : ConnSystem} {action : ConnAction}
    (wellFormed : WellFormed system)
    (noInc : ∀ conn fresh, action ≠ .report .onConnected conn fresh)
    (stepped : step system action = some next) : Thins system next := by
  cases action with
  | newManager m =>
      simp only [step] at stepped
      split at stepped
      · cases stepped
        exact thins_of_pools rfl
      · cases stepped
  | addPool m fresh => exact thins_addPool stepped
  | delPool m id =>
      cases stepped
      exact thins_of_survive (fun p pool live => delPool_pools live)
  | getPool m =>
      have rotated := thins_of_pools (system.getPool_pools m)
      simp only [step] at stepped
      split at stepped
      · rename_i after result
        rw [result] at rotated
        cases stepped
        exact rotated
      · rename_i p after result
        rw [result] at rotated
        cases stepped
        exact rotated.trans (thins_usePool after p)
  | releasePool p => exact thins_releasePool stepped
  | getConn m =>
      cases stepped
      exact thins_getConn system m
  | addConn m info =>
      cases stepped
      exact thins_addConn system m info
  | delConn m info =>
      cases stepped
      exact thins_delConn system m info
  | getConnInfo m polled =>
      cases stepped
      exact thins_getConnInfo system m polled
  | poolGetConn p =>
      cases stepped
      exact thins_poolGetConn system p
  | poolAddConn p info =>
      cases stepped
      exact thins_poolAddConn system p info
  | poolDelConn p info =>
      cases stepped
      exact thins_poolDelConn system p info
  | report report conn fresh =>
      cases report with
      | onConnected => exact (noInc conn fresh rfl).elim
      | onDisconnected => exact wellFormed.thins_onDisconnected stepped

/-! ### A report that brings a connection into a pool -/

/-- One more copy of one connection, and otherwise no more than before. -/
structure AddsCopy (system next : ConnSystem) (p conn : Address) : Prop where
  added : next.copies p conn = system.copies p conn + 1
  others : ∀ q other, ¬ (q = p ∧ other = conn) →
    next.copies q other ≤ system.copies q other

theorem addsCopy_insertConn
    {system next : ConnSystem} {p conn : Address} {dbConn : DBConn}
    (inserted : system.insertConn p conn dbConn = some next) :
    AddsCopy system next p conn := by
  simp only [insertConn] at inserted
  split at inserted
  · cases inserted
  · rename_i pool live
    cases inserted
    constructor
    · simp [copies, setPool_pools, live, ConnPool.copies_addConnPtr]
    · intro q other different
      simp only [copies, setPool_pools]
      by_cases here : q = p
      · subst here
        have otherConn : other ≠ conn := fun same => different ⟨rfl, same⟩
        simp [live, ConnPool.copies_addConnPtr, otherConn]
      · rw [if_neg here]

theorem WellFormed.addsCopy_onConnected
    {system next : ConnSystem} (wellFormed : WellFormed system)
    {p conn : Address} {fresh : Allocation}
    (accepts : system.acceptingPool conn = some p)
    (reported : system.report .onConnected conn fresh = some next) :
    AddsCopy system next p conn := by
  obtain ⟨dbConn, invoker, pool, known, called, isInc, live, index⟩ :=
    acceptingPool_eq_some_iff.mp accepts
  simp only [ConnSystem.report, known, callConnBus, called, isInc, onConnInc,
    live, index, if_true] at reported
  split at reported
  · split at reported
    · cases reported
    · rename_i middle extended
      rcases wellFormed.callManagerBus_poolInc extended with
        rfl | ⟨m, manager, _, _, added⟩
      · exact addsCopy_insertConn reported
      · -- the pool that has been added is another one
        have same : middle.copies p conn = system.copies p conn := by
          rw [copies_of_live live, copies_of_live (addPool_pools added live)]
        have inserted := addsCopy_insertConn reported
        constructor
        · rw [inserted.added, same]
        · intro q other different
          exact Nat.le_trans (inserted.others q other different)
            (thins_addPool added q other)
  · exact addsCopy_insertConn reported

/-! ### Runs -/

/-- No pool lists a connection twice. -/
def Unrepeated (system : ConnSystem) : Prop :=
  ∀ p conn, system.copies p conn ≤ 1

theorem unrepeated_iff (system : ConnSystem) :
    Unrepeated system ↔
      ∀ p pool, system.pools p = some pool → pool.ListsOnce := by
  constructor
  · intro unrepeated p pool live
    rw [pool.listsOnce_iff]
    intro conn
    rw [← copies_of_live live]
    exact unrepeated p conn
  · intro once p conn
    cases live : system.pools p with
    | none => simp [copies, live]
    | some pool =>
        rw [copies_of_live live]
        exact pool.listsOnce_iff.mp (once p pool live) conn

/-- A `CONN_INC` report that a pool accepts comes from a connection that the
pool does not hold. -/
def ReportsNew (system : ConnSystem) : ConnAction → Prop
  | .report .onConnected conn _ =>
      ∀ p pool, system.acceptingPool conn = some p →
        system.pools p = some pool → ¬ pool.Holds conn
  | _ => True

theorem Unrepeated.step_iff
    {system next : ConnSystem} {action : ConnAction}
    (unrepeated : Unrepeated system) (wellFormed : WellFormed system)
    (stepped : ConnSystem.step system action = some next) :
    Unrepeated next ↔ ReportsNew system action := by
  have thinned : Thins system next → Unrepeated next :=
    fun thins p conn => Nat.le_trans (thins p conn) (unrepeated p conn)
  by_cases noInc : ∀ conn fresh, action ≠ .report .onConnected conn fresh
  · have meets : ReportsNew system action := by
      cases action with
      | report report conn fresh =>
          cases report with
          | onConnected => exact (noInc conn fresh rfl).elim
          | onDisconnected => trivial
      | _ => trivial
    exact iff_of_true (thinned (wellFormed.thins_step noInc stepped)) meets
  · simp only [not_forall, ne_eq, not_not] at noInc
    obtain ⟨conn, fresh, rfl⟩ := noInc
    cases accepts : system.acceptingPool conn with
    | none =>
        have same := wellFormed.report_of_unaccepted accepts stepped
        subst same
        apply iff_of_true unrepeated
        intro p pool accepted
        rw [accepts] at accepted
        cases accepted
    | some p =>
        obtain ⟨added, others⟩ :=
          wellFormed.addsCopy_onConnected accepts stepped
        obtain ⟨_, _, pool, _, _, _, live, _⟩ :=
          acceptingPool_eq_some_iff.mp accepts
        have isNew : ReportsNew system (.report .onConnected conn fresh) ↔
            system.copies p conn = 0 := by
          rw [copies_of_live live, pool.copies_eq_zero_iff]
          constructor
          · intro meets
            exact meets p pool accepts live
          · intro notHeld q other accepted otherLive
            rw [accepts] at accepted
            cases accepted
            rw [live] at otherLive
            cases otherLive
            exact notHeld
        rw [isNew]
        constructor
        · intro stillUnrepeated
          have bound := stillUnrepeated p conn
          omega
        · intro absent q other
          by_cases here : q = p ∧ other = conn
          · obtain ⟨rfl, rfl⟩ := here
            omega
          · exact Nat.le_trans (others q other here) (unrepeated q other)

/-- In every state of a run all pools list their connections once, and so
count and serve them once, exactly if no connection ever reports `CONN_INC` to
a pool that holds it. -/
theorem connPool_listsOnce_iff
    {actions : List ConnAction} {system : ConnSystem}
    (ran : run step start actions = some system) :
    (∀ state, Visits step start actions state →
      ∀ p pool, state.pools p = some pool → pool.ListsOnce) ↔
      AllSteps step ReportsNew start actions := by
  simp only [← unrepeated_iff]
  constructor
  · intro always
    apply allSteps_of_visits _ ran
    intro state action next _ visits visitsNext stepped
    have unrepeated := always state visits
    obtain ⟨before, _, _, reached⟩ := visits
    exact (unrepeated.step_iff (wellFormed_run reached) stepped).mp
      (always next visitsNext)
  · intro meets state visits
    have both : WellFormed state ∧ Unrepeated state := by
      apply visits_invariant_of_allSteps _ _ meets ran visits
      · intro before action next _ holds isNew stepped
        exact ⟨holds.1.changes (changes_step holds.1 stepped),
          (holds.2.step_iff holds.1 stepped).mpr isNew⟩
      · exact ⟨wellFormed_start, fun p conn => Nat.zero_le 1⟩
    exact both.2

/-- One of two connections is lost and comes back. -/
theorem connPool_listsOnce_iff_alternating :
    ∃ system pool,
      run step start
          [.newManager 0, .addPool 0 ⟨7, 0⟩, .addConn 0 ⟨"", "", "", "", 0⟩,
            .addConn 0 ⟨"", "", "", "", 0⟩, .report .onConnected 0 ⟨8, 0⟩,
            .report .onConnected 1 ⟨8, 0⟩, .report .onDisconnected 0 ⟨8, 0⟩,
            .report .onConnected 0 ⟨8, 0⟩] = some system ∧
        system.pools 7 = some pool ∧ pool.dbInsLocalList = [1, 0] ∧
        pool.ListsOnce := by
  obtain ⟨system, ran, pool, live, lists⟩ : ∃ system,
      run step start
          [.newManager 0, .addPool 0 ⟨7, 0⟩, .addConn 0 ⟨"", "", "", "", 0⟩,
            .addConn 0 ⟨"", "", "", "", 0⟩, .report .onConnected 0 ⟨8, 0⟩,
            .report .onConnected 1 ⟨8, 0⟩, .report .onDisconnected 0 ⟨8, 0⟩,
            .report .onConnected 0 ⟨8, 0⟩] = some system ∧
        ∃ pool, system.pools 7 = some pool ∧ pool.dbInsLocalList = [1, 0] :=
    ⟨_, rfl, _, rfl, rfl⟩
  have notIn : ∀ {pool : ConnPool} {conn : Address},
      pool.copies conn = 0 → ¬ pool.Holds conn :=
    fun {pool conn} none_ => (pool.copies_eq_zero_iff conn).mp none_
  refine ⟨system, pool, ran, live, lists,
    (connPool_listsOnce_iff ran).mpr ?_ system (visits_of_run ran) 7 pool live⟩
  iterate 4 apply allSteps_cons trivial rfl
  apply allSteps_cons _ rfl
  · apply allSteps_cons _ rfl
    · apply allSteps_cons trivial rfl
      refine ⟨?_, fun _ _ => trivial⟩
      intro p other accepts otherLive
      cases accepts
      cases otherLive
      exact notIn rfl
    · intro p other accepts otherLive
      cases accepts
      cases otherLive
      exact notIn rfl
  · intro p other accepts otherLive
    cases accepts
    cases otherLive
    exact notIn rfl

/-- A heartbeat succeeds again, and the connection reports `CONN_INC` without
a `CONN_DEC` in between. -/
theorem connPool_listsTwice :
    ∃ system pool,
      run step start
          [.newManager 0, .addPool 0 ⟨7, 0⟩, .addConn 0 ⟨"", "", "", "", 0⟩,
            .report .onConnected 0 ⟨8, 0⟩,
            .report .onConnected 0 ⟨8, 0⟩] = some system ∧
        system.pools 7 = some pool ∧
        pool.dbInsLocalList = [0, 0] ∧ pool.size = 2 ∧ ¬ pool.ListsOnce := by
  refine ⟨_, _, rfl, rfl, rfl, rfl, ?_⟩
  intro once
  have distinct := once.distinct
  revert distinct
  decide

end ConnSystem

end DBWrapper
