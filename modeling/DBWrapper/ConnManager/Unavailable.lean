import DBWrapper.ConnManager.Availability
import DBWrapper.ConnManager.Confinement
import DBWrapper.ConnManager.Forgetting

/-!
# When `on_unavaliable` is called

A manager hears of a lost connection in a roundabout way: the pool that has
become empty reports `POOL_DEC`, the manager deletes it, and `on_unavaliable`
is called if no pool is listed any more.  So the loss of the last connection
goes unnoticed if other pools stay in the list, empty as they are, and
`del_conn(info)` makes no pool report at all.
-/

namespace DBWrapper

open Foundation

namespace ConnPool

theorem holds_delConnPtr_iff
    {conns : Conns} {pool : ConnPool} (follows : pool.Follows conns)
    {conn : Address} {dbConn : DBConn} (known : conns[conn]? = some dbConn)
    (other : Address) :
    (pool.delConnPtr conn dbConn.info).Holds other ↔
      pool.Holds other ∧ other ≠ conn := by
  constructor
  · intro held
    have before := holds_of_delConnPtr held
    refine ⟨before, ?_⟩
    intro same
    subst same
    rw [(follows.delConnPtr known).holds_iff known, events_delConnPtr,
      lastInc_append_singleton] at held
    simp at held
  · intro holds
    obtain ⟨before, different⟩ := holds
    have inRange := follows.heldExist other before
    have otherKnown : conns[other]? = some conns[other] :=
      List.getElem?_eq_getElem inRange
    rw [(follows.delConnPtr known).holds_iff otherKnown, events_delConnPtr,
      lastInc_append_singleton, ← follows.holds_iff otherKnown]
    exact .inr ⟨before, by simp [Ne.symm different]⟩

end ConnPool

namespace ConnSystem

/-- The connections in the pools of the list. -/
def connTotal (system : ConnSystem) (manager : ConnManager) : Nat :=
  (manager.poolList.map fun p =>
    match system.pools p with
    | none => 0
    | some pool => pool.size).sum

theorem connTotal_eq_zero_iff (system : ConnSystem) (manager : ConnManager) :
    system.connTotal manager = 0 ↔
      ∀ p ∈ manager.poolList, ¬ system.HoldsSome p := by
  rw [connTotal, List.sum_eq_zero_iff, List.forall_mem_map]
  apply forall_congr'
  intro p
  apply imp_congr_right
  intro listed
  cases live : system.pools p with
  | none => simp [HoldsSome, live]
  | some pool => rw [holdsSome_iff live, ← size_eq_zero_iff]

theorem connTotal_pos_iff (system : ConnSystem) (manager : ConnManager) :
    0 < system.connTotal manager ↔
      ∃ p ∈ manager.poolList, system.HoldsSome p := by
  rw [Nat.pos_iff_ne_zero, ne_eq, connTotal_eq_zero_iff]
  push Not
  exact Iff.rfl

/-- `on_unavaliable` is called if the action takes the last connection away
from a manager, and otherwise not as long as the manager has connections. -/
def AnnouncesLoss (system : ConnSystem) (action : ConnAction) : Prop :=
  ∀ next m manager after, system.step action = some next →
    system.managers m = some manager → next.managers m = some after →
      (LosesConns action → 0 < system.connTotal manager →
        next.connTotal after = 0 →
          manager.unavailable < after.unavailable) ∧
      (manager.unavailable < after.unavailable →
        next.connTotal after = 0 ∧
          (0 < system.connTotal manager → LosesConns action))

/-! ### What an action takes away -/

/-- The pool that accepts a `CONN_DEC` report of the connection. -/
def losingPool (system : ConnSystem) (conn : Address) : Option Address :=
  match system.conns[conn]? with
  | none => none
  | some dbConn =>
      match system.connBus.call connDecTopic dbConn.connDecId with
      | none => none
      | some invoker =>
          match invoker.f with
          | .connInc _ => none
          | .connDec p =>
              match system.pools p with
              | none => none
              | some pool =>
                  if dbConn.poolIndex = pool.id then some p else none

/-- The manager to which the bus takes a `POOL_DEC` report of the pool. -/
def removingManager (system : ConnSystem) (p : Address) : Option Address :=
  match system.pools p with
  | none => none
  | some pool =>
      match system.managerBus.call poolDecTopic pool.poolDecId with
      | none => none
      | some invoker =>
          match invoker.f with
          | .poolInc _ => none
          | .poolDec m => some m

/-- The report takes the last connection out of its pool, and the manager is
told to delete the pools with the id of that one. -/
def TellsToDelete (system : ConnSystem) (conn m : Address) (id : Id) : Prop :=
  ∃ p pool, system.losingPool conn = some p ∧ system.pools p = some pool ∧
    (∀ other, pool.Holds other → other = conn) ∧
    system.removingManager p = some m ∧ pool.id = id

/-- The pool does not stay in the list of the manager. -/
def Unlists (system : ConnSystem) (m q : Address) : ConnAction → Prop
  | .report .onDisconnected conn _ =>
      ∃ id, system.TellsToDelete conn m id ∧ system.hasId id q = true
  | _ => False

/-- The pool, in the list of the manager, holds a connection that the action
does not take out. -/
def Keeps (system : ConnSystem) (m q : Address) (action : ConnAction) : Prop :=
  ∃ pool conn dbConn, system.pools q = some pool ∧ pool.Holds conn ∧
    system.conns[conn]? = some dbConn ∧
    match action with
    | .report .onDisconnected other _ =>
        ¬ (system.losingPool other = some q ∧ conn = other)
    | action => ¬ DeletesTarget system m dbConn.info action

/-- The action does not take the last connection away from a manager and
leave pools in its list. -/
def LeavesConn (system : ConnSystem) (action : ConnAction) : Prop :=
  LosesConns action →
    ∀ m manager, system.managers m = some manager →
      (∃ q ∈ manager.poolList, system.HoldsSome q) →
      (∃ q ∈ manager.poolList, ¬ system.Unlists m q action) →
        ∃ q ∈ manager.poolList,
          ¬ system.Unlists m q action ∧ system.Keeps m q action

/-! ### Deleting targets -/

/-- What an action that takes connections away has done to the list of a
manager, to the pools in it and to the calls of `on_unavaliable`. -/
structure Lost (system next : ConnSystem) (action : ConnAction) (m : Address)
    (manager after : ConnManager) : Prop where
  mem_poolList : ∀ q, q ∈ after.poolList ↔
    q ∈ manager.poolList ∧ ¬ system.Unlists m q action
  holdsSome_iff : ∀ q ∈ after.poolList,
    (next.HoldsSome q ↔ system.Keeps m q action)
  silent : after.poolList ≠ [] → after.unavailable = manager.unavailable
  announced : manager.poolList ≠ [] → after.poolList = [] →
    manager.unavailable < after.unavailable

/-- The manager that the action makes delete targets. -/
def deletingManager : ConnAction → Option Address
  | .delConn m _ | .getConnInfo m _ => some m
  | _ => none

/-- Every listed pool of the manager hears which targets the action deletes,
and of no report. -/
theorem told_of_deletingManager
    {system next : ConnSystem} {action : ConnAction} {m : Address}
    {manager : ConnManager} (deletes : deletingManager action = some m)
    (found : system.managers m = some manager)
    (distinct : manager.poolList.Nodup)
    (stepped : step system action = some next) :
    ∃ infoList connList told,
      Told system m manager infoList connList told next ∧
      (∀ event ∈ told, ∃ info,
        event = .addConn info ∨ event = .delConn info) ∧
      ∀ info, .delConn info ∈ told ↔ DeletesTarget system m info action := by
  cases action with
  | delConn n info =>
      cases deletes
      cases stepped
      refine ⟨_, _, _, told_delConn found distinct info, ?_, ?_⟩
      · intro event isTold
        exact ⟨info, .inr (List.mem_singleton.mp isTold)⟩
      · simp [DeletesTarget, eq_comm]
  | getConnInfo n polled =>
      cases deletes
      cases stepped
      obtain ⟨infoList, connList, told, tells, news, deletions⟩ :=
        told_poll found distinct polled
      refine ⟨infoList, connList, told, tells, news, ?_⟩
      intro info
      rw [deletions, DeletesTarget, connList_eq found]
      simp
  | _ => cases deletes

theorem Told.holdsSome_iff
    {system next : ConnSystem} {m : Address} {manager : ConnManager}
    {infoList : List ConnInfo} {connList : ConnList} {told : List PoolEvent}
    (wellFormed : WellFormed system) (found : system.managers m = some manager)
    (tells : Told system m manager infoList connList told next)
    (follow : PoolsFollow system) (followNext : PoolsFollow next)
    (conns : system.conns <+: next.conns)
    (news : ∀ event ∈ told, ∃ info,
      event = .addConn info ∨ event = .delConn info)
    {q : Address} (listed : q ∈ manager.poolList) :
    next.HoldsSome q ↔
      ∃ pool conn dbConn, system.pools q = some pool ∧ pool.Holds conn ∧
        system.conns[conn]? = some dbConn ∧ .delConn dbConn.info ∉ told := by
  obtain ⟨pool, live, _⟩ := wellFormed.listed found listed
  obtain ⟨after, afterLive, events⟩ := tells.pools q listed pool live
  have notInc : ∀ conn, ∀ event ∈ told, event ≠ .connInc conn := by
    intro conn event isTold isReport
    obtain ⟨info, rfl | rfl⟩ := news event isTold <;> cases isReport
  have holds : ∀ {conn dbConn}, system.conns[conn]? = some dbConn →
      (after.Holds conn ↔ pool.Holds conn ∧ .delConn dbConn.info ∉ told) := by
    intro conn dbConn known
    rw [(followNext q after afterLive).holds_iff
        (getElem?_of_isPrefix conns known),
      (follow q pool live).holds_iff known, ConnPool.LastInc, events,
      latched_append_iff (notInc conn)]
    apply and_congr_right
    intro _
    constructor
    · intro quiet isTold
      exact quiet _ isTold (.inr rfl)
    · intro notTold event isTold resets
      rcases resets with rfl | rfl
      · obtain ⟨info, isNews⟩ := news _ isTold
        simp at isNews
      · exact notTold isTold
  rw [ConnSystem.holdsSome_iff afterLive]
  constructor
  · intro some_
    obtain ⟨conn, held⟩ := some_
    have reported : .connInc conn ∈ pool.events := by
      have inRange := (followNext q after afterLive).heldExist conn held
      rw [(followNext q after afterLive).holds_iff
          (List.getElem?_eq_getElem inRange),
        ConnPool.LastInc, events, latched_append_iff (notInc conn)] at held
      obtain ⟨event, listedEvent, rfl⟩ := held.1.exists_sets
      exact listedEvent
    have known : system.conns[conn]? = some _ :=
      List.getElem?_eq_getElem
        ((follow q pool live).reportedExist conn reported)
    obtain ⟨before, notTold⟩ := (holds known).mp held
    exact ⟨pool, conn, _, live, before, known, notTold⟩
  · intro keeps
    obtain ⟨other, conn, dbConn, otherLive, held, known, notTold⟩ := keeps
    rw [live] at otherLive
    cases otherLive
    exact ⟨conn, (holds known).mpr ⟨held, notTold⟩⟩

theorem confined_of_deletingManager
    {system next : ConnSystem} {action : ConnAction} {m : Address}
    (deletes : deletingManager action = some m)
    (stepped : step system action = some next) : Confined m system next := by
  cases action with
  | delConn n info =>
      cases deletes
      cases stepped
      exact confined_delConn system m info
  | getConnInfo n polled =>
      cases deletes
      cases stepped
      exact confined_getConnInfo system m polled
  | _ => cases deletes

theorem keeps_iff_of_deletingManager
    {system : ConnSystem} {action : ConnAction} {m n q : Address}
    (deletes : deletingManager action = some n) :
    system.Keeps m q action ↔
      ∃ pool conn dbConn, system.pools q = some pool ∧ pool.Holds conn ∧
        system.conns[conn]? = some dbConn ∧
        ¬ DeletesTarget system m dbConn.info action := by
  cases action with
  | delConn _ _ => exact Iff.rfl
  | getConnInfo _ _ => exact Iff.rfl
  | _ => cases deletes

theorem unlists_of_deletingManager
    {system : ConnSystem} {action : ConnAction} {m n q : Address}
    (deletes : deletingManager action = some n) :
    ¬ system.Unlists m q action := by
  cases action with
  | delConn _ _ => exact id
  | getConnInfo _ _ => exact id
  | _ => cases deletes

theorem not_deletesTarget_of_ne
    {system : ConnSystem} {action : ConnAction} {m n : Address}
    {info : ConnInfo} (deletes : deletingManager action = some n)
    (different : m ≠ n) : ¬ DeletesTarget system m info action := by
  cases action with
  | delConn other _ =>
      cases deletes
      exact fun deleted => different deleted.1.symm
  | getConnInfo other _ =>
      cases deletes
      exact fun deleted => different deleted.1.symm
  | _ => cases deletes

theorem lost_of_deletingManager
    {system next : ConnSystem} {action : ConnAction} {m n : Address}
    {manager after : ConnManager} (wellFormed : WellFormed system)
    (follow : PoolsFollow system) (followNext : PoolsFollow next)
    (deletes : deletingManager action = some n)
    (stepped : step system action = some next)
    (found : system.managers m = some manager)
    (foundAfter : next.managers m = some after) :
    Lost system next action m manager after := by
  have confined := confined_of_deletingManager deletes stepped
  have own : after.poolList = manager.poolList ∧
      after.unavailable = manager.unavailable := by
    by_cases here : m = n
    · subst here
      obtain ⟨same, foundSame, sameList, sameCount⟩ :=
        confined.own manager found
      rw [foundAfter] at foundSame
      cases foundSame
      exact ⟨sameList, sameCount⟩
    · rw [confined.others m here, found] at foundAfter
      cases foundAfter
      exact ⟨rfl, rfl⟩
  have conns := (changes_step wellFormed stepped).conns_isPrefix
  constructor
  · intro q
    rw [own.1, and_iff_left (unlists_of_deletingManager deletes)]
  · intro q listed
    rw [own.1] at listed
    rw [keeps_iff_of_deletingManager deletes]
    by_cases here : m = n
    · subst here
      obtain ⟨infoList, connList, told, tells, news, deletions⟩ :=
        told_of_deletingManager deletes found (wellFormed.distinct found)
          stepped
      rw [tells.holdsSome_iff wellFormed found follow followNext conns news
        listed]
      simp only [deletions]
    · have same : next.pools q = system.pools q := by
        cases foundOwner : system.managers n with
        | none => rw [confined.absent foundOwner]
        | some owner =>
            apply confined.pools q owner foundOwner
            intro there
            obtain ⟨pool, live, _⟩ := wellFormed.listed found listed
            exact here ((wellFormed.eq_of_listed live found listed).trans
              (wellFormed.eq_of_listed live foundOwner there).symm)
      simp only [HoldsSome, same, not_deletesTarget_of_ne deletes here,
        not_false_eq_true, and_true]
      constructor
      · intro holds
        obtain ⟨pool, conn, live, held⟩ := holds
        exact ⟨pool, conn, _, live, held, List.getElem?_eq_getElem
          ((follow q pool live).heldExist conn held)⟩
      · intro keeps
        obtain ⟨pool, conn, _, live, held, _⟩ := keeps
        exact ⟨pool, conn, live, held⟩
  · exact fun _ => own.2
  · intro notEmpty empty
    rw [own.1] at empty
    exact (notEmpty empty).elim

/-! ### `CONN_DEC` reports -/

theorem losingPool_eq_some_iff
    {system : ConnSystem} {conn p : Address} :
    system.losingPool conn = some p ↔
      ∃ dbConn invoker pool, system.conns[conn]? = some dbConn ∧
        system.connBus.call connDecTopic dbConn.connDecId = some invoker ∧
        invoker.f = .connDec p ∧ system.pools p = some pool ∧
        dbConn.poolIndex = pool.id := by
  simp only [losingPool]
  constructor
  · intro loses
    split at loses
    · cases loses
    · rename_i dbConn known
      split at loses
      · cases loses
      · rename_i invoker called
        split at loses
        · cases loses
        · rename_i q isDec
          split at loses
          · cases loses
          · rename_i pool live
            split at loses
            · rename_i index
              cases loses
              exact ⟨dbConn, invoker, pool, known, called, isDec, live, index⟩
            · cases loses
  · intro holds
    obtain ⟨dbConn, invoker, pool, known, called, isDec, live, index⟩ := holds
    simp [known, called, isDec, live, index]

/-- What a `CONN_DEC` report does: it is dropped, it takes the connection out
of its pool and no more, or a manager is told that the pool has become
empty. -/
inductive Disconnects (system : ConnSystem) (conn : Address) :
    ConnSystem → Prop where
  | dropped (notAccepted : system.losingPool conn = none) :
      Disconnects system conn system
  | left {p : Address} {pool : ConnPool} {dbConn : DBConn}
      (loses : system.losingPool conn = some p)
      (live : system.pools p = some pool)
      (known : system.conns[conn]? = some dbConn)
      (untold : ∀ m id, ¬ system.TellsToDelete conn m id) :
      Disconnects system conn
        (system.setPool p (pool.delConnPtr conn dbConn.info))
  | told {p n : Address} {pool : ConnPool} {dbConn : DBConn}
      {next : ConnSystem} (loses : system.losingPool conn = some p)
      (live : system.pools p = some pool)
      (known : system.conns[conn]? = some dbConn)
      (last : ∀ other, pool.Holds other → other = conn)
      (removing : system.removingManager p = some n)
      (handled : (system.setPool p
        (pool.delConnPtr conn dbConn.info)).onPoolDec n p = some next) :
      Disconnects system conn next

/-- Nobody hears of a pool whose topic has no handler. -/
theorem untold_of_unheard
    {system : ConnSystem} {conn p : Address} {pool : ConnPool}
    (loses : system.losingPool conn = some p)
    (live : system.pools p = some pool)
    (unheard : system.managerBus.call poolDecTopic pool.poolDecId = none)
    (m : Address) (id : Id) : ¬ system.TellsToDelete conn m id := by
  intro tells
  obtain ⟨q, other, losesAgain, _, _, removing, _⟩ := tells
  rw [loses] at losesAgain
  cases losesAgain
  simp only [removingManager, live, unheard] at removing
  cases removing

/-- Nobody hears of a pool that keeps a connection. -/
theorem untold_of_holds
    {system : ConnSystem} {conn other p : Address} {pool : ConnPool}
    (loses : system.losingPool conn = some p)
    (live : system.pools p = some pool)
    (held : pool.Holds other) (different : other ≠ conn)
    (m : Address) (id : Id) : ¬ system.TellsToDelete conn m id := by
  intro tells
  obtain ⟨q, again, losesAgain, againLive, last, _⟩ := tells
  rw [loses] at losesAgain
  cases losesAgain
  rw [live] at againLive
  cases againLive
  exact different (last other held)

/-- The handler of a pool that accepts the report. -/
theorem WellFormed.disconnects_accepted
    {system next : ConnSystem} (wellFormed : WellFormed system)
    (follow : PoolsFollow system) {p conn : Address} {pool : ConnPool}
    {dbConn : DBConn} {fresh : Allocation}
    (loses : system.losingPool conn = some p)
    (live : system.pools p = some pool)
    (known : system.conns[conn]? = some dbConn)
    (handled : system.onConnDec p conn dbConn fresh = some next)
    (index : dbConn.poolIndex = pool.id) : Disconnects system conn next := by
  have holds := ConnPool.holds_delConnPtr_iff (follow p pool live) known
  simp only [onConnDec, live, index, if_true] at handled
  split at handled
  · rename_i empty
    rw [size_eq_zero_iff, not_exists] at empty
    have last : ∀ other, pool.Holds other → other = conn := by
      intro other held
      by_contra different
      exact empty other ((holds other).mpr ⟨held, different⟩)
    rw [(ConnPool.sameIdentity_delConnPtr pool conn
      dbConn.info).poolDecId] at handled
    simp only [callManagerBus] at handled
    split at handled
    · rename_i unheard
      cases handled
      exact .left loses live known (untold_of_unheard loses live unheard)
    · rename_i invoker found
      obtain ⟨n, manager, _, _, rfl⟩ := wellFormed.managerBus_poolDec found
      have removing : system.removingManager p = some n := by
        have heard : system.managerBus.call poolDecTopic pool.poolDecId =
            some (manager.decInvoker n) := found
        simp only [removingManager, live, heard]
        rfl
      exact .told loses live known last removing handled
  · rename_i notEmpty
    cases handled
    rw [size_eq_zero_iff, not_not] at notEmpty
    obtain ⟨other, held⟩ := notEmpty
    obtain ⟨before, different⟩ := (holds other).mp held
    exact .left loses live known (untold_of_holds loses live before different)

theorem WellFormed.disconnects
    {system next : ConnSystem} (wellFormed : WellFormed system)
    (follow : PoolsFollow system) {conn : Address} {fresh : Allocation}
    (reported : system.report .onDisconnected conn fresh = some next) :
    Disconnects system conn next := by
  simp only [ConnSystem.report] at reported
  split at reported
  · cases reported
  · rename_i dbConn known
    simp only [callConnBus] at reported
    split at reported
    · rename_i called
      cases reported
      apply Disconnects.dropped
      simp [losingPool, known, called]
    · rename_i invoker called
      obtain ⟨p, pool, live, rfl⟩ := wellFormed.connBus_connDec called
      have handled : system.onConnDec p conn dbConn fresh = some next :=
        reported
      by_cases index : dbConn.poolIndex = pool.id
      · have loses := losingPool_eq_some_iff.mpr
          ⟨dbConn, _, pool, known, called, rfl, live, index⟩
        exact wellFormed.disconnects_accepted follow loses live known handled
          index
      · simp only [onConnDec, live, if_neg index] at handled
        cases handled
        apply Disconnects.dropped
        simp [losingPool, known, called, ConnPool.decInvoker, live, index]

/-- The `POOL_DEC` handler calls `on_unavaliable` when it has emptied the
list. -/
theorem onPoolDec_managers_self
    {system next : ConnSystem} {m p : Address} {pool : ConnPool}
    {manager : ConnManager} (handled : system.onPoolDec m p = some next)
    (live : system.pools p = some pool)
    (found : system.managers m = some manager) :
    ∃ after, next.managers m = some after ∧
      after.poolList =
        manager.poolList.filter (fun q => !system.hasId pool.id q) ∧
      after.unavailable =
        if after.poolList = [] then manager.unavailable + 1
        else manager.unavailable := by
  have deleted := delPool_managers_self found pool.id
  simp only [onPoolDec, live] at handled
  rw [deleted] at handled
  simp only at handled
  split at handled
  · rename_i empty
    cases handled
    refine ⟨_, by rw [setManager_managers, if_pos rfl], rfl, ?_⟩
    exact (if_pos empty).symm
  · rename_i notEmpty
    cases handled
    exact ⟨_, deleted, rfl, (if_neg notEmpty).symm⟩

theorem hasId_setPool
    {system : ConnSystem} {p : Address} {pool other : ConnPool}
    (live : system.pools p = some pool) (sameId : other.id = pool.id)
    (id : Id) (q : Address) :
    (system.setPool p other).hasId id q = system.hasId id q := by
  simp only [hasId, setPool_pools]
  by_cases here : q = p
  · rw [if_pos here, here, live]
    simp only [sameId]
  · rw [if_neg here]

/-- A pool that holds a connection, other than the lost one if the pool is
its own. -/
theorem keeps_report_iff
    {system : ConnSystem} (follow : PoolsFollow system)
    (m q conn : Address) (fresh : Allocation) :
    system.Keeps m q (.report .onDisconnected conn fresh) ↔
      ∃ pool other, system.pools q = some pool ∧ pool.Holds other ∧
        ¬ (system.losingPool conn = some q ∧ other = conn) := by
  constructor
  · intro keeps
    obtain ⟨pool, other, _, live, held, _, notLost⟩ := keeps
    exact ⟨pool, other, live, held, notLost⟩
  · intro keeps
    obtain ⟨pool, other, live, held, notLost⟩ := keeps
    exact ⟨pool, other, _, live, held, List.getElem?_eq_getElem
      ((follow q pool live).heldExist other held), notLost⟩

theorem holdsSome_delConnPtr_iff
    {system : ConnSystem} (follow : PoolsFollow system) {p conn : Address}
    {pool : ConnPool} {dbConn : DBConn}
    (loses : system.losingPool conn = some p)
    (live : system.pools p = some pool)
    (known : system.conns[conn]? = some dbConn)
    (m q : Address) (fresh : Allocation) :
    (system.setPool p (pool.delConnPtr conn dbConn.info)).HoldsSome q ↔
      system.Keeps m q (.report .onDisconnected conn fresh) := by
  rw [holdsSome_setPool, keeps_report_iff follow, loses]
  split
  · rename_i here
    subst here
    simp only [ConnPool.holds_delConnPtr_iff (follow q pool live) known, live,
      Option.some.injEq, true_and]
    constructor
    · intro some_
      obtain ⟨other, held, different⟩ := some_
      exact ⟨pool, other, rfl, held, different⟩
    · intro keeps
      obtain ⟨again, other, rfl, held, different⟩ := keeps
      exact ⟨other, held, different⟩
  · rename_i different
    have notLost : ∀ other, ¬ (some p = some q ∧ other = conn) := by
      intro other both
      exact different (Option.some.inj both.1).symm
    simp only [notLost, not_false_eq_true, and_true]
    exact Iff.rfl

/-- A report by which no manager is told anything. -/
theorem lost_of_untold
    {system next : ConnSystem} {conn m : Address} {fresh : Allocation}
    {manager : ConnManager}
    (untold : ∀ id, ¬ system.TellsToDelete conn m id)
    (holds : ∀ q ∈ manager.poolList, (next.HoldsSome q ↔
      system.Keeps m q (.report .onDisconnected conn fresh))) :
    Lost system next (.report .onDisconnected conn fresh) m manager
      manager := by
  have stays : ∀ q, ¬ system.Unlists m q (.report .onDisconnected conn fresh) := by
    intro q unlists
    obtain ⟨id, tells, _⟩ := unlists
    exact untold id tells
  constructor
  · intro q
    rw [and_iff_left (stays q)]
  · exact holds
  · exact fun _ => rfl
  · intro notEmpty empty
    exact (notEmpty empty).elim

/-- Only the manager that the bus finds is told, and only of the one id. -/
theorem tellsToDelete_iff_of_last
    {system : ConnSystem} {conn p n : Address} {pool : ConnPool}
    (loses : system.losingPool conn = some p)
    (live : system.pools p = some pool)
    (last : ∀ other, pool.Holds other → other = conn)
    (removing : system.removingManager p = some n) (m : Address) (id : Id) :
    system.TellsToDelete conn m id ↔ m = n ∧ pool.id = id := by
  constructor
  · intro tells
    obtain ⟨q, other, losesAgain, liveAgain, _, removingAgain, sameId⟩ := tells
    rw [loses] at losesAgain
    cases losesAgain
    rw [live] at liveAgain
    cases liveAgain
    rw [removing] at removingAgain
    cases removingAgain
    exact ⟨rfl, sameId⟩
  · intro same
    obtain ⟨rfl, sameId⟩ := same
    exact ⟨p, pool, loses, live, last, removing, sameId⟩

theorem Disconnects.lost
    {system next : ConnSystem} {conn m : Address} {fresh : Allocation}
    {manager after : ConnManager} (nextWell : WellFormed next)
    (follow : PoolsFollow system)
    (disconnects : Disconnects system conn next)
    (found : system.managers m = some manager)
    (foundAfter : next.managers m = some after) :
    Lost system next (.report .onDisconnected conn fresh) m manager after := by
  cases disconnects with
  | dropped notAccepted =>
      rw [found] at foundAfter
      cases foundAfter
      apply lost_of_untold
      · intro id tells
        obtain ⟨p, pool, loses, _⟩ := tells
        rw [notAccepted] at loses
        cases loses
      · intro q _
        rw [keeps_report_iff follow, notAccepted]
        simp [HoldsSome]
  | left loses live known untold =>
      change system.managers m = some after at foundAfter
      rw [found] at foundAfter
      cases foundAfter
      apply lost_of_untold (untold m)
      intro q _
      exact holdsSome_delConnPtr_iff follow loses live known m q fresh
  | @told p n pool dbConn next loses live known last removing handled =>
      have same := ConnPool.sameIdentity_delConnPtr pool conn dbConn.info
      have tells := tellsToDelete_iff_of_last loses live last removing
      have middleLive : (system.setPool p
          (pool.delConnPtr conn dbConn.info)).pools p =
            some (pool.delConnPtr conn dbConn.info) := by
        rw [setPool_pools, if_pos rfl]
      have holds : ∀ q ∈ after.poolList, (next.HoldsSome q ↔
          system.Keeps m q (.report .onDisconnected conn fresh)) := by
        intro q listed
        rw [← holdsSome_delConnPtr_iff follow loses live known m q fresh]
        obtain ⟨other, otherLive, _⟩ := nextWell.listed foundAfter listed
        rw [holdsSome_iff otherLive,
          holdsSome_iff (onPoolDec_pools handled otherLive)]
      by_cases here : m = n
      · subst here
        obtain ⟨again, foundAgain, list, count⟩ :=
          onPoolDec_managers_self handled middleLive found
        rw [foundAfter] at foundAgain
        cases foundAgain
        constructor
        · intro q
          have unlists : system.Unlists m q
              (.report .onDisconnected conn fresh) ↔
                system.hasId pool.id q = true := by
            simp only [Unlists, tells, true_and, exists_eq_left']
          rw [list, List.mem_filter, unlists, same.id,
            hasId_setPool live same.id, Bool.not_eq_true',
            Bool.not_eq_true]
        · exact holds
        · intro notEmpty
          rw [count, if_neg notEmpty]
        · intro _ empty
          rw [count, if_pos empty]
          exact Nat.lt_succ_self _
      · rw [onPoolDec_managers_of_ne handled here] at foundAfter
        change system.managers m = some after at foundAfter
        rw [found] at foundAfter
        cases foundAfter
        apply lost_of_untold _ holds
        intro id told
        exact here ((tells m id).mp told).1

/-! ### Ids that are not used twice -/

/-- The pool holds the connection, and the pools in the list hold no other
one. -/
def IsLastIn (system : ConnSystem) (manager : ConnManager)
    (p conn : Address) : Prop :=
  (∃ pool, system.pools p = some pool ∧ pool.Holds conn) ∧
    ∀ q ∈ manager.poolList, ∀ pool other, system.pools q = some pool →
      pool.Holds other → q = p ∧ other = conn

/-- The `POOL_DEC` handler takes away just the pool that has reported. -/
theorem Routed.unlists_iff
    {system : ConnSystem} (routed : Routed system)
    (wellFormed : WellFormed system) {m q conn : Address}
    {fresh : Allocation} {manager : ConnManager} {pool : ConnPool}
    (found : system.managers m = some manager)
    (listed : q ∈ manager.poolList) (live : system.pools q = some pool) :
    system.Unlists m q (.report .onDisconnected conn fresh) ↔
      system.losingPool conn = some q ∧
        ∀ other, pool.Holds other → other = conn := by
  constructor
  · intro unlists
    obtain ⟨id, ⟨p, emptied, loses, emptiedLive, last, _, isId⟩, hasId⟩ :=
      unlists
    simp only [ConnSystem.hasId, live, beq_iff_eq] at hasId
    have same := routed.poolIdsDistinct live emptiedLive
      (hasId.trans isId.symm)
    subst same
    rw [live] at emptiedLive
    cases emptiedLive
    exact ⟨loses, last⟩
  · intro reported
    obtain ⟨loses, last⟩ := reported
    have isCreator := wellFormed.eq_of_listed live found listed
    subst isCreator
    obtain ⟨owner, ownerFound, _, decId⟩ := wellFormed.created live
    have called := routed.call_poolDec wellFormed ownerFound
    have removing : system.removingManager q = some pool.creator := by
      simp only [removingManager, live, decId, called, ConnManager.decInvoker]
    refine ⟨pool.id, ⟨q, pool, loses, live, last, removing, rfl⟩, ?_⟩
    simp [hasId, live]

/-- A `CONN_DEC` report must not take the last connection out of one of
several pools. -/
theorem Routed.leavesConn_onDisconnected_iff
    {system : ConnSystem} (routed : Routed system)
    (wellFormed : WellFormed system) (follow : PoolsFollow system)
    (conn : Address) (fresh : Allocation) :
    LeavesConn system (.report .onDisconnected conn fresh) ↔
      ∀ m manager p, system.managers m = some manager →
        p ∈ manager.poolList → system.losingPool conn = some p →
          system.IsLastIn manager p conn → ∀ q ∈ manager.poolList, q = p := by
  constructor
  · intro leaves m manager p found listed loses isLast q qListed
    by_contra different
    obtain ⟨⟨pool, live, held⟩, only⟩ := isLast
    obtain ⟨other, otherLive, _⟩ := wellFormed.listed found qListed
    have stays : ¬ system.Unlists m q (.report .onDisconnected conn fresh) := by
      rw [routed.unlists_iff wellFormed found qListed otherLive, loses]
      intro unlisted
      exact different (Option.some.inj unlisted.1).symm
    obtain ⟨r, rListed, _, keeps⟩ := leaves trivial m manager found
      ⟨p, listed, pool, conn, live, held⟩ ⟨q, qListed, stays⟩
    obtain ⟨kept, again, keptLive, keptHeld, notLost⟩ :=
      (keeps_report_iff follow m r conn fresh).mp keeps
    obtain ⟨rfl, rfl⟩ := only r rListed kept again keptLive keptHeld
    exact notLost ⟨loses, rfl⟩
  · intro alone _ m manager found some_ stays
    obtain ⟨q, qListed, qStays⟩ := stays
    by_contra noneKept
    have lost : ∀ r ∈ manager.poolList, ∀ pool other,
        system.pools r = some pool → pool.Holds other →
          system.losingPool conn = some r ∧ other = conn := by
      intro r listed pool other live held
      by_contra notLost
      apply noneKept
      refine ⟨r, listed, ?_, (keeps_report_iff follow m r conn fresh).mpr
        ⟨pool, other, live, held, notLost⟩⟩
      rw [routed.unlists_iff wellFormed found listed live]
      intro unlisted
      exact notLost ⟨unlisted.1, unlisted.2 other held⟩
    obtain ⟨p, listed, pool, first, live, held⟩ := some_
    obtain ⟨loses, rfl⟩ := lost p listed pool first live held
    have isLast : system.IsLastIn manager p first := by
      refine ⟨⟨pool, live, held⟩, ?_⟩
      intro r rListed other again otherLive otherHeld
      obtain ⟨losesToo, same⟩ := lost r rListed other again otherLive otherHeld
      rw [loses] at losesToo
      exact ⟨(Option.some.inj losesToo).symm, same⟩
    have isOnly := alone m manager p found listed loses isLast q qListed
    subst isOnly
    apply qStays
    rw [routed.unlists_iff wellFormed found listed live]
    exact ⟨loses, fun other held => (lost q listed pool other live held).2⟩

/-! ### Steps and runs -/

theorem Changes.managers
    {targets : Address → Prop} {system next : ConnSystem}
    (changes : Changes targets system next) {m : Address}
    {manager : ConnManager} (found : system.managers m = some manager) :
    ∃ after, next.managers m = some after := by
  have replaced : ∀ {current : ConnSystem} {n : Address}
      (other : ConnManager), (∃ before, current.managers m = some before) →
        ∃ after, (current.setManager n other).managers m = some after := by
    intro current n other stays
    rw [setManager_managers]
    split
    · exact ⟨other, rfl⟩
    · exact stays
  apply changes.invariant _ ⟨manager, found⟩
  intro current after stays change
  cases change with
  | poolList _ _ _ => exact replaced _ stays
  | targets _ _ => exact replaced _ stays
  | addPool added =>
      obtain ⟨owner, _, _, rfl⟩ := addPool_eq_some_iff.mp added
      rw [withPool_managers]
      split
      · exact ⟨_, rfl⟩
      · exact stays
  | newManager absent =>
      simp only [ConnSystem.newManager]
      exact replaced _ stays
  | pool _ _ => exact stays
  | conn _ => exact stays
  | destroyPool _ _ => exact stays

theorem lost_of_step
    {system next : ConnSystem} {action : ConnAction} {m : Address}
    {manager after : ConnManager} (wellFormed : WellFormed system)
    (follow : PoolsFollow system) (loses : LosesConns action)
    (stepped : step system action = some next)
    (found : system.managers m = some manager)
    (foundAfter : next.managers m = some after) :
    Lost system next action m manager after := by
  have changes := changes_step wellFormed stepped
  have nextWell := wellFormed.changes changes
  have followNext : PoolsFollow next :=
    changes.invariant (fun _ _ follow change => follow.change change) follow
  cases action with
  | delConn n info =>
      exact lost_of_deletingManager wellFormed follow followNext rfl stepped
        found foundAfter
  | getConnInfo n polled =>
      exact lost_of_deletingManager wellFormed follow followNext rfl stepped
        found foundAfter
  | report report conn fresh =>
      cases report with
      | onConnected => cases loses
      | onDisconnected =>
          have disconnects := wellFormed.disconnects follow stepped
          exact disconnects.lost nextWell follow found foundAfter
  | _ => cases loses

/-- One step. -/
theorem announcesLoss_iff
    {system next : ConnSystem} {action : ConnAction}
    (wellFormed : WellFormed system) (follow : PoolsFollow system)
    (stepped : step system action = some next) :
    AnnouncesLoss system action ↔ LeavesConn system action := by
  by_cases loses : LosesConns action
  · constructor
    · intro announces _ m manager found some_ stays
      obtain ⟨q, listed, stays⟩ := stays
      obtain ⟨after, foundAfter⟩ :=
        (changes_step wellFormed stepped).managers found
      have lost := lost_of_step wellFormed follow loses stepped found
        foundAfter
      by_contra noneKept
      have nothing : next.connTotal after = 0 := by
        rw [connTotal_eq_zero_iff]
        intro r listedAfter holds
        obtain ⟨listedBefore, staysToo⟩ := (lost.mem_poolList r).mp listedAfter
        exact noneKept ⟨r, listedBefore, staysToo,
          (lost.holdsSome_iff r listedAfter).mp holds⟩
      have called := (announces next m manager after stepped found
        foundAfter).1 loses ((connTotal_pos_iff system manager).mpr some_)
        nothing
      have notEmpty : after.poolList ≠ [] :=
        List.ne_nil_of_mem ((lost.mem_poolList q).mpr ⟨listed, stays⟩)
      rw [lost.silent notEmpty] at called
      exact Nat.lt_irrefl _ called
    · intro leaves other m manager after otherStepped found foundAfter
      rw [stepped] at otherStepped
      cases otherStepped
      have lost := lost_of_step wellFormed follow loses stepped found
        foundAfter
      constructor
      · intro _ positive nothing
        obtain ⟨p, listed, holds⟩ :=
          (connTotal_pos_iff system manager).mp positive
        apply lost.announced (List.ne_nil_of_mem listed)
        by_contra notEmpty
        obtain ⟨q, listedAfter⟩ := List.exists_mem_of_ne_nil _ notEmpty
        obtain ⟨r, before, stays, keeps⟩ := leaves loses m manager found
          ⟨p, listed, holds⟩ ⟨q, (lost.mem_poolList q).mp listedAfter⟩
        have stillListed := (lost.mem_poolList r).mpr ⟨before, stays⟩
        rw [connTotal_eq_zero_iff] at nothing
        exact nothing r stillListed
          ((lost.holdsSome_iff r stillListed).mpr keeps)
      · intro called
        refine ⟨?_, fun _ => loses⟩
        have empty : after.poolList = [] := by
          by_contra notEmpty
          rw [lost.silent notEmpty] at called
          exact Nat.lt_irrefl _ called
        rw [connTotal, empty]
        rfl
  · apply iff_of_true
    · intro other m manager after otherStepped found foundAfter
      rw [stepped] at otherStepped
      cases otherStepped
      obtain ⟨same, foundSame, sameCount⟩ :=
        wellFormed.sameCounts_step loses stepped m manager found
      rw [foundAfter] at foundSame
      cases foundSame
      constructor
      · intro isLoss
        exact (loses isLoss).elim
      · intro called
        rw [sameCount] at called
        exact (Nat.lt_irrefl _ called).elim
    · intro isLoss
      exact (loses isLoss).elim

/-- In every run the loss of the last connection of a manager is announced,
and nothing else is while connections remain, exactly if no step takes the
last connection of a manager away and leaves pools in its list. -/
theorem lastLoss_isAnnounced_iff
    {actions : List ConnAction} {system : ConnSystem}
    (ran : run step start actions = some system) :
    AllSteps step AnnouncesLoss start actions ↔
      AllSteps step LeavesConn start actions := by
  apply @allSteps_congr _ _ step AnnouncesLoss LeavesConn
    (fun state => WellFormed state ∧ PoolsFollow state) _ _ _ _ _ _ ran
  · intro state action next known stepped
    have changes := changes_step known.1 stepped
    exact ⟨known.1.changes changes,
      changes.invariant (fun _ _ follow change => follow.change change)
        known.2⟩
  · intro state action next known stepped
    exact announcesLoss_iff known.1 known.2 stepped
  · refine ⟨wellFormed_start, ?_⟩
    intro p pool live
    cases live

/-- The only pool loses its only connection. -/
theorem lastLoss_isAnnounced_iff_onePool :
    ∃ system manager,
      run step start
          [.newManager 0, .addPool 0 ⟨7, 0⟩, .addConn 0 ⟨"", "", "", "", 0⟩,
            .report .onConnected 0 ⟨8, 0⟩, .report .onDisconnected 0 ⟨8, 0⟩] =
          some system ∧
        system.managers 0 = some manager ∧ manager.unavailable = 1 ∧
        AllSteps step AnnouncesLoss start
          [.newManager 0, .addPool 0 ⟨7, 0⟩, .addConn 0 ⟨"", "", "", "", 0⟩,
            .report .onConnected 0 ⟨8, 0⟩,
            .report .onDisconnected 0 ⟨8, 0⟩] := by
  refine ⟨_, _, rfl, rfl, rfl, ?_⟩
  apply (@lastLoss_isAnnounced_iff
    [.newManager 0, .addPool 0 ⟨7, 0⟩, .addConn 0 ⟨"", "", "", "", 0⟩,
      .report .onConnected 0 ⟨8, 0⟩, .report .onDisconnected 0 ⟨8, 0⟩]
    _ rfl).mpr
  apply allSteps_cons False.elim rfl
  apply allSteps_cons False.elim rfl
  apply allSteps_cons False.elim rfl
  apply allSteps_cons False.elim rfl
  refine ⟨?_, fun _ _ => trivial⟩
  intro _ m manager found _ stays
  obtain ⟨q, listed, staysListed⟩ := stays
  cases m with
  | zero =>
      cases found
      have isFirst : q = 7 := List.mem_singleton.mp listed
      subst isFirst
      apply (staysListed _).elim
      refine ⟨4, ⟨7, _, rfl, rfl, ?_, rfl, rfl⟩, rfl⟩
      intro other held
      rcases held with isLocal | isRemote
      · exact List.mem_singleton.mp isLocal
      · cases isRemote
  | succ m => cases found

/-- `del_conn(info)` takes the only connection away, or a `CONN_DEC` report
does while a second pool without connections is listed. -/
theorem lastLoss_notAnnounced :
    (∃ system,
      run step start
          [.newManager 0, .addPool 0 ⟨7, 0⟩, .addConn 0 ⟨"", "", "", "", 0⟩,
            .report .onConnected 0 ⟨8, 0⟩] = some system ∧
        ¬ AnnouncesLoss system (.delConn 0 ⟨"", "", "", "", 0⟩)) ∧
    ∃ system,
      run step start
          [.newManager 0, .addPool 0 ⟨7, 0⟩, .addConn 0 ⟨"", "", "", "", 0⟩,
            .report .onConnected 0 ⟨8, 0⟩, .addPool 0 ⟨8, 0⟩] = some system ∧
        ¬ AnnouncesLoss system (.report .onDisconnected 0 ⟨9, 0⟩) := by
  constructor
  · refine ⟨_, rfl, ?_⟩
    intro announces
    have called := (announces _ 0 _ _ rfl rfl rfl).1 trivial (by decide)
      (by decide)
    exact Nat.lt_irrefl _ called
  · refine ⟨_, rfl, ?_⟩
    intro announces
    have called := (announces _ 0 _ _ rfl rfl rfl).1 trivial (by decide)
      (by decide)
    exact Nat.lt_irrefl _ called

end ConnSystem

end DBWrapper
