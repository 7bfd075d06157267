import Mathlib.Data.List.Rotate
import Mathlib.Logic.Relation
import DBWrapper.Foundation.Runs
import DBWrapper.ConnManager.ConnManager

/-!
# The changes that the operations are made of

Every action, with the calls nested in it, is a sequence of elementary changes
of the system.  An invariant is proved once for each kind of change.
-/

namespace DBWrapper

open Foundation

/-- What may happen to the lists and to the history of one pool. -/
inductive PoolChange (conns : Conns) (pool : ConnPool) : ConnPool → Prop where
  | addConnPtr {conn : Address} {dbConn : DBConn}
      (found : conns[conn]? = some dbConn) :
      PoolChange conns pool (pool.addConnPtr conn dbConn.info)
  | delConnPtr {conn : Address} {dbConn : DBConn}
      (found : conns[conn]? = some dbConn) :
      PoolChange conns pool (pool.delConnPtr conn dbConn.info)
  | addConn (info : ConnInfo) :
      PoolChange conns pool (pool.record (.addConn info))
  | delConn (info : ConnInfo) :
      PoolChange conns pool (pool.delConn conns info)
  | getConn : PoolChange conns pool pool.getConn.2
  | users (users : Nat) : PoolChange conns pool { pool with users }

theorem PoolChange.sameIdentity
    {conns : Conns} {pool other : ConnPool}
    (change : PoolChange conns pool other) :
    ConnPool.SameIdentity pool other := by
  cases change with
  | addConnPtr _ => exact ConnPool.sameIdentity_addConnPtr _ _ _
  | delConnPtr _ => exact ConnPool.sameIdentity_delConnPtr _ _ _
  | addConn _ => exact ConnPool.sameIdentity_record _ _
  | delConn _ => exact ConnPool.sameIdentity_delConn _ _ _
  | getConn => exact ConnPool.sameIdentity_getConn _
  | users _ => constructor <;> rfl

theorem PoolChange.follows
    {conns : Conns} {pool other : ConnPool}
    (change : PoolChange conns pool other)
    (follows : ConnPool.Follows conns pool) : ConnPool.Follows conns other := by
  cases change with
  | addConnPtr found => exact follows.addConnPtr found
  | delConnPtr found => exact follows.delConnPtr found
  | addConn info => exact follows.recordAddConn info
  | delConn info => exact follows.delConn info
  | getConn => exact follows.getConn
  | users _ => exact follows.congr rfl rfl rfl

namespace ConnSystem

/-- No `poolList` contains the pool. -/
def Unlisted (system : ConnSystem) (p : Address) : Prop :=
  ∀ m manager, system.managers m = some manager → p ∉ manager.poolList

/-- The elementary changes.  `targets` tells for which managers the targets,
`infoList` and `_conn_list`, may change. -/
inductive Change (targets : Address → Prop) (system : ConnSystem) :
    ConnSystem → Prop where
  | pool {p : Address} {pool other : ConnPool}
      (live : system.pools p = some pool)
      (change : PoolChange system.conns pool other) :
      Change targets system (system.setPool p other)
  | conn (conn : DBConn) :
      Change targets system { system with conns := system.conns ++ [conn] }
  | poolList {m : Address} {manager : ConnManager} {poolList : List Address}
      {unavailable : Nat} (found : system.managers m = some manager)
      (subset : poolList ⊆ manager.poolList)
      (distinct : manager.poolList.Nodup → poolList.Nodup) :
      Change targets system
        (system.setManager m { manager with poolList, unavailable })
  | targets {m : Address} {manager : ConnManager} {infoList : List ConnInfo}
      {connList : ConnList} (allowed : targets m)
      (found : system.managers m = some manager) :
      Change targets system
        (system.setManager m { manager with infoList, connList })
  | addPool {m : Address} {fresh : Allocation} {next : ConnSystem}
      (added : system.addPool m fresh = some next) :
      Change targets system next
  | destroyPool {p : Address} {pool : ConnPool}
      (live : system.pools p = some pool) (unlisted : system.Unlisted p) :
      Change targets system (system.destroyPool p pool)
  | newManager {m : Address} (absent : system.managers m = none) :
      Change targets system (system.newManager m)

abbrev Changes (targets : Address → Prop) : ConnSystem → ConnSystem → Prop :=
  Relation.ReflTransGen (Change targets)

/-- An invariant of every change is an invariant of every sequence of them. -/
theorem Changes.invariant
    {targets : Address → Prop} {Invariant : ConnSystem → Prop}
    (preserved : ∀ system next, Invariant system →
      Change targets system next → Invariant next)
    {system next : ConnSystem} (changes : Changes targets system next)
    (holds : Invariant system) : Invariant next := by
  induction changes with
  | refl => exact holds
  | tail _ change induction => exact preserved _ _ induction change

/-! ### What `add_pool` does -/

theorem foldl_poolAddConn
    {system : ConnSystem} {p : Address} {pool : ConnPool}
    (live : system.pools p = some pool) (infos : List ConnInfo) :
    infos.foldl (fun system info => system.poolAddConn p info) system =
      { system with
        pools := Function.update system.pools p
          (some { pool with events := pool.events ++ infos.map .addConn })
        conns := system.conns ++ infos.map pool.newConn } := by
  induction infos generalizing system pool with
  | nil => simp [← live]
  | cons info infos induction =>
      have here : system.poolAddConn p info =
          { system.setPool p (pool.record (.addConn info)) with
            conns := system.conns ++ [pool.newConn info] } := by
        simp [poolAddConn, live]
      have stillLive : (system.poolAddConn p info).pools p =
          some (pool.record (.addConn info)) := by
        simp [here, setPool]
      rw [List.foldl_cons, induction stillLive, here]
      simp [setPool, ConnPool.record]
      intro info _
      rfl

/-- The pool that `add_pool` appends to the `poolList`. -/
def addedPool (system : ConnSystem) (m : Address) (manager : ConnManager)
    (fresh : Allocation) : ConnPool :=
  { ConnPool.construct m fresh (BitVec.ofNat 32 system.center.drawn)
      (BitVec.ofNat 32 (system.center.drawn + 1)) with
    id := BitVec.ofNat 32 (system.center.drawn + 2)
    poolIncId := manager.poolIncId
    poolDecId := manager.poolDecId
    events := manager.infoList.map .addConn }

/-- The system after `add_pool`; the connections of the new pool carry the
value that its id had before it was set. -/
def withPool (system : ConnSystem) (m : Address) (manager : ConnManager)
    (fresh : Allocation) : ConnSystem :=
  { center := { drawn := system.center.drawn + 3 }
    connBus :=
      (system.connBus.registerHandler
          ((system.addedPool m manager fresh).decInvoker fresh.address)).registerHandler
        ((system.addedPool m manager fresh).incInvoker fresh.address)
    managerBus := system.managerBus
    pools :=
      Function.update system.pools fresh.address
        (some (system.addedPool m manager fresh))
    managers :=
      Function.update system.managers m
        (some
          { manager with poolList := manager.poolList ++ [fresh.address] })
    conns :=
      system.conns ++
        manager.infoList.map
          { system.addedPool m manager fresh with
            id := fresh.indeterminate }.newConn }

theorem addPool_eq_some_iff
    {system next : ConnSystem} {m : Address} {fresh : Allocation} :
    system.addPool m fresh = some next ↔
      ∃ manager, system.managers m = some manager ∧
        system.pools fresh.address = none ∧
        next = system.withPool m manager fresh := by
  simp only [addPool]
  cases system.managers m with
  | none => simp
  | some manager =>
      cases system.pools fresh.address with
      | some pool => simp
      | none =>
          have live : (system.newConnPool m fresh).pools fresh.address =
              some (ConnPool.construct m fresh
                (BitVec.ofNat 32 system.center.drawn)
                (BitVec.ofNat 32 (system.center.drawn + 1))) := by
            simp [newConnPool, setPool, IdCenter.getUniqueID]
          simp only [Option.some.injEq, true_and, exists_eq_left']
          rw [foldl_poolAddConn live, eq_comm]
          apply Eq.congr rfl
          simp [adoptPool, newConnPool, setPool, setManager,
            IdCenter.getUniqueID, withPool, addedPool, ConnPool.construct]
          exact ⟨rfl, fun _ _ => rfl⟩

/-! ### No dangling pointers -/

/-- Lists hold live pools of their own manager, each once, and the handlers on
the buses are those of the objects that exist. -/
structure WellFormed (system : ConnSystem) : Prop where
  listed : ∀ {m p : Address} {manager : ConnManager},
    system.managers m = some manager → p ∈ manager.poolList →
      ∃ pool, system.pools p = some pool ∧ pool.creator = m
  distinct : ∀ {m : Address} {manager : ConnManager},
    system.managers m = some manager → manager.poolList.Nodup
  created : ∀ {p : Address} {pool : ConnPool}, system.pools p = some pool →
    ∃ manager, system.managers pool.creator = some manager ∧
      pool.poolIncId = manager.poolIncId ∧ pool.poolDecId = manager.poolDecId
  connInvokers : ∀ invoker, invoker ∈ system.connBus.invokers ↔
    ∃ p pool, system.pools p = some pool ∧
      (invoker = pool.incInvoker p ∨ invoker = pool.decInvoker p)
  managerInvokers : ∀ invoker, invoker ∈ system.managerBus.invokers ↔
    ∃ m manager, system.managers m = some manager ∧
      (invoker = manager.incInvoker m ∨ invoker = manager.decInvoker m)

theorem wellFormed_start : WellFormed start := by
  constructor <;> simp [start, MessageBus.empty]

theorem incInvoker_congr
    {pool other : ConnPool} (same : ConnPool.SameIdentity pool other)
    (p : Address) : other.incInvoker p = pool.incInvoker p := by
  simp [ConnPool.incInvoker, same.connIncId]

theorem decInvoker_congr
    {pool other : ConnPool} (same : ConnPool.SameIdentity pool other)
    (p : Address) : other.decInvoker p = pool.decInvoker p := by
  simp [ConnPool.decInvoker, same.connDecId]

theorem setPool_pools (system : ConnSystem) (p q : Address) (pool : ConnPool) :
    (system.setPool p pool).pools q =
      if q = p then some pool else system.pools q := by
  simp [setPool, Function.update_apply]

theorem setManager_managers
    (system : ConnSystem) (m other : Address) (manager : ConnManager) :
    (system.setManager m manager).managers other =
      if other = m then some manager else system.managers other := by
  simp [setManager, Function.update_apply]

theorem WellFormed.setPool
    {system : ConnSystem} (wellFormed : WellFormed system)
    {p : Address} {pool other : ConnPool}
    (live : system.pools p = some pool)
    (same : ConnPool.SameIdentity pool other) :
    WellFormed (system.setPool p other) := by
  constructor
  · intro m q manager found listed
    obtain ⟨old, oldLive, creator⟩ := wellFormed.listed found listed
    rw [setPool_pools]
    by_cases here : q = p
    · subst here
      rw [live] at oldLive
      cases oldLive
      exact ⟨other, if_pos rfl, same.creator.trans creator⟩
    · exact ⟨old, by rw [if_neg here, oldLive], creator⟩
  · intro m manager found
    exact wellFormed.distinct found
  · intro q current currentLive
    rw [setPool_pools] at currentLive
    split at currentLive
    · cases currentLive
      rw [same.creator, same.poolIncId, same.poolDecId]
      exact wellFormed.created live
    · exact wellFormed.created currentLive
  · intro invoker
    change invoker ∈ system.connBus.invokers ↔ _
    rw [wellFormed.connInvokers]
    constructor
    · intro holds
      obtain ⟨q, old, oldLive, isOwn⟩ := holds
      by_cases here : q = p
      · subst here
        rw [live] at oldLive
        cases oldLive
        refine ⟨q, other, by simp [setPool_pools], ?_⟩
        rw [incInvoker_congr same, decInvoker_congr same]
        exact isOwn
      · exact ⟨q, old, by simp [setPool_pools, here, oldLive], isOwn⟩
    · intro holds
      obtain ⟨q, current, currentLive, isOwn⟩ := holds
      rw [setPool_pools] at currentLive
      split at currentLive
      · rename_i here
        subst here
        cases currentLive
        rw [incInvoker_congr same, decInvoker_congr same] at isOwn
        exact ⟨q, pool, live, isOwn⟩
      · exact ⟨q, current, currentLive, isOwn⟩
  · exact wellFormed.managerInvokers

theorem WellFormed.setManager
    {system : ConnSystem} (wellFormed : WellFormed system)
    {m : Address} {manager other : ConnManager}
    (found : system.managers m = some manager)
    (sameInc : other.poolIncId = manager.poolIncId)
    (sameDec : other.poolDecId = manager.poolDecId)
    (subset : other.poolList ⊆ manager.poolList)
    (distinct : manager.poolList.Nodup → other.poolList.Nodup) :
    WellFormed (system.setManager m other) := by
  constructor
  · intro n p current currentFound listed
    rw [setManager_managers] at currentFound
    split at currentFound
    · rename_i here
      cases currentFound
      rw [here]
      exact wellFormed.listed found (subset listed)
    · exact wellFormed.listed currentFound listed
  · intro n current currentFound
    rw [setManager_managers] at currentFound
    split at currentFound
    · cases currentFound
      exact distinct (wellFormed.distinct found)
    · exact wellFormed.distinct currentFound
  · intro p pool live
    obtain ⟨old, oldFound, incId, decId⟩ := wellFormed.created live
    rw [setManager_managers]
    by_cases here : pool.creator = m
    · rw [here, found] at oldFound
      cases oldFound
      exact ⟨other, if_pos here, incId.trans sameInc.symm,
        decId.trans sameDec.symm⟩
    · exact ⟨old, by rw [if_neg here, oldFound], incId, decId⟩
  · exact wellFormed.connInvokers
  · intro invoker
    have inc : other.incInvoker m = manager.incInvoker m := by
      simp [ConnManager.incInvoker, sameInc]
    have dec : other.decInvoker m = manager.decInvoker m := by
      simp [ConnManager.decInvoker, sameDec]
    change invoker ∈ system.managerBus.invokers ↔ _
    rw [wellFormed.managerInvokers]
    constructor
    · intro holds
      obtain ⟨n, old, oldFound, isOwn⟩ := holds
      by_cases here : n = m
      · subst here
        rw [found] at oldFound
        cases oldFound
        refine ⟨n, other, by simp [setManager_managers], ?_⟩
        rw [inc, dec]
        exact isOwn
      · exact ⟨n, old, by simp [setManager_managers, here, oldFound], isOwn⟩
    · intro holds
      obtain ⟨n, current, currentFound, isOwn⟩ := holds
      rw [setManager_managers] at currentFound
      split at currentFound
      · rename_i here
        subst here
        cases currentFound
        rw [inc, dec] at isOwn
        exact ⟨n, manager, found, isOwn⟩
      · exact ⟨n, current, currentFound, isOwn⟩

theorem WellFormed.appendConn
    {system : ConnSystem} (wellFormed : WellFormed system) (conn : DBConn) :
    WellFormed { system with conns := system.conns ++ [conn] } := by
  constructor
  · exact wellFormed.listed
  · exact wellFormed.distinct
  · exact wellFormed.created
  · exact wellFormed.connInvokers
  · exact wellFormed.managerInvokers

/-- An address that is not in use is in no `poolList`. -/
theorem WellFormed.unlisted_of_none
    {system : ConnSystem} (wellFormed : WellFormed system) {p : Address}
    (free : system.pools p = none) : system.Unlisted p := by
  intro m manager found listed
  obtain ⟨pool, live, _⟩ := wellFormed.listed found listed
  rw [free] at live
  cases live

theorem withPool_pools
    (system : ConnSystem) (m : Address) (manager : ConnManager)
    (fresh : Allocation) (p : Address) :
    (system.withPool m manager fresh).pools p =
      if p = fresh.address then some (system.addedPool m manager fresh)
      else system.pools p := by
  simp [withPool, Function.update_apply]

theorem withPool_managers
    (system : ConnSystem) (m : Address) (manager : ConnManager)
    (fresh : Allocation) (other : Address) :
    (system.withPool m manager fresh).managers other =
      if other = m then
        some { manager with poolList := manager.poolList ++ [fresh.address] }
      else
        system.managers other := by
  simp [withPool, Function.update_apply]

theorem mem_withPool_connInvokers
    {system : ConnSystem} {m : Address} {manager : ConnManager}
    {fresh : Allocation} {invoker : Invoker Address ConnHandler} :
    invoker ∈ (system.withPool m manager fresh).connBus.invokers ↔
      invoker ∈ system.connBus.invokers ∨
        invoker = (system.addedPool m manager fresh).decInvoker fresh.address ∨
        invoker = (system.addedPool m manager fresh).incInvoker fresh.address := by
  simp [withPool, MessageBus.registerHandler]

theorem WellFormed.withPool
    {system : ConnSystem} (wellFormed : WellFormed system)
    {m : Address} {manager : ConnManager} {fresh : Allocation}
    (found : system.managers m = some manager)
    (free : system.pools fresh.address = none) :
    WellFormed (system.withPool m manager fresh) := by
  have keepsLive : ∀ {p : Address} {pool : ConnPool},
      system.pools p = some pool →
        (system.withPool m manager fresh).pools p = some pool := by
    intro p pool live
    have other : p ≠ fresh.address := by
      intro equal
      subst equal
      rw [free] at live
      cases live
    rw [withPool_pools, if_neg other, live]
  have added : (system.withPool m manager fresh).pools fresh.address =
      some (system.addedPool m manager fresh) := by
    rw [withPool_pools, if_pos rfl]
  have extended : (system.withPool m manager fresh).managers m =
      some { manager with poolList := manager.poolList ++ [fresh.address] } := by
    rw [withPool_managers, if_pos rfl]
  constructor
  · intro n p current currentFound listed
    rw [withPool_managers] at currentFound
    split at currentFound
    · rename_i here
      cases currentFound
      rw [List.mem_append, List.mem_singleton] at listed
      rcases listed with earlier | rfl
      · obtain ⟨pool, live, creator⟩ := wellFormed.listed found earlier
        exact ⟨pool, keepsLive live, creator.trans here.symm⟩
      · exact ⟨_, added, here.symm⟩
    · obtain ⟨pool, live, creator⟩ := wellFormed.listed currentFound listed
      exact ⟨pool, keepsLive live, creator⟩
  · intro n current currentFound
    rw [withPool_managers] at currentFound
    split at currentFound
    · cases currentFound
      have absent := wellFormed.unlisted_of_none free m manager found
      rw [List.nodup_append_comm]
      exact List.nodup_cons.mpr ⟨absent, wellFormed.distinct found⟩
    · exact wellFormed.distinct currentFound
  · intro p pool live
    rw [withPool_pools] at live
    split at live
    · cases live
      exact ⟨_, extended, rfl, rfl⟩
    · obtain ⟨old, oldFound, incId, decId⟩ := wellFormed.created live
      rw [withPool_managers]
      by_cases here : pool.creator = m
      · rw [here, found] at oldFound
        cases oldFound
        exact ⟨_, if_pos here, incId, decId⟩
      · exact ⟨old, by rw [if_neg here, oldFound], incId, decId⟩
  · intro invoker
    rw [mem_withPool_connInvokers, wellFormed.connInvokers]
    constructor
    · intro either
      rcases either with ⟨p, pool, live, isOwn⟩ | isDec | isInc
      · exact ⟨p, pool, keepsLive live, isOwn⟩
      · exact ⟨_, _, added, .inr isDec⟩
      · exact ⟨_, _, added, .inl isInc⟩
    · intro holds
      obtain ⟨p, pool, live, isOwn⟩ := holds
      rw [withPool_pools] at live
      split at live
      · rename_i here
        cases live
        rw [here] at isOwn
        exact .inr isOwn.symm
      · exact .inl ⟨p, pool, live, isOwn⟩
  · intro invoker
    change invoker ∈ system.managerBus.invokers ↔ _
    rw [wellFormed.managerInvokers]
    constructor
    · intro holds
      obtain ⟨n, old, oldFound, isOwn⟩ := holds
      by_cases here : n = m
      · subst here
        rw [found] at oldFound
        cases oldFound
        exact ⟨n, _, extended, isOwn⟩
      · exact ⟨n, old, by rw [withPool_managers, if_neg here, oldFound], isOwn⟩
    · intro holds
      obtain ⟨n, current, currentFound, isOwn⟩ := holds
      rw [withPool_managers] at currentFound
      split at currentFound
      · rename_i here
        subst here
        cases currentFound
        exact ⟨n, manager, found, isOwn⟩
      · exact ⟨n, current, currentFound, isOwn⟩

theorem destroyPool_pools
    (system : ConnSystem) (p q : Address) (pool : ConnPool) :
    (system.destroyPool p pool).pools q =
      if q = p then none else system.pools q := by
  simp [destroyPool, Function.update_apply]

theorem WellFormed.destroyPool
    {system : ConnSystem} (wellFormed : WellFormed system)
    {p : Address} {pool : ConnPool} (live : system.pools p = some pool)
    (unlisted : system.Unlisted p) :
    WellFormed (system.destroyPool p pool) := by
  constructor
  · intro m q manager found listed
    obtain ⟨other, otherLive, creator⟩ := wellFormed.listed found listed
    have different : q ≠ p := by
      intro equal
      subst equal
      exact unlisted m manager found listed
    exact ⟨other, by rw [destroyPool_pools, if_neg different, otherLive],
      creator⟩
  · intro m manager found
    exact wellFormed.distinct found
  · intro q other otherLive
    rw [destroyPool_pools] at otherLive
    split at otherLive
    · cases otherLive
    · exact wellFormed.created otherLive
  · intro invoker
    simp only [ConnSystem.destroyPool, MessageBus.removeHandler,
      List.mem_filter, wellFormed.connInvokers, Bool.not_eq_true',
      Bool.and_eq_false_iff, beq_eq_false_iff_ne]
    constructor
    · intro holds
      obtain ⟨⟨⟨q, other, otherLive, isOwn⟩, notInc⟩, notDec⟩ := holds
      have different : q ≠ p := by
        intro equal
        subst equal
        rw [live] at otherLive
        cases otherLive
        rcases isOwn with rfl | rfl
        · simp [ConnPool.incInvoker] at notInc
        · simp [ConnPool.decInvoker] at notDec
      exact ⟨q, other, by simp [different, otherLive], isOwn⟩
    · intro holds
      obtain ⟨q, other, otherLive, isOwn⟩ := holds
      rw [Function.update_apply] at otherLive
      split at otherLive
      · cases otherLive
      · rename_i different
        refine ⟨⟨⟨q, other, otherLive, isOwn⟩, ?_⟩, ?_⟩
        · rcases isOwn with rfl | rfl <;>
            exact .inl (.inr different)
        · rcases isOwn with rfl | rfl <;>
            exact .inl (.inr different)
  · exact wellFormed.managerInvokers

theorem WellFormed.newManager
    {system : ConnSystem} (wellFormed : WellFormed system) {m : Address}
    (absent : system.managers m = none) :
    WellFormed (system.newManager m) := by
  have others : ∀ n, n ≠ m →
      (system.newManager m).managers n = system.managers n := by
    intro n different
    simp [ConnSystem.newManager, ConnSystem.setManager, different]
  have known : ∀ {n manager}, system.managers n = some manager → n ≠ m := by
    intro n manager found equal
    subst equal
    rw [absent] at found
    cases found
  constructor
  · intro n p manager found listed
    by_cases here : n = m
    · subst here
      simp only [ConnSystem.newManager, ConnSystem.setManager,
        Function.update_self, Option.some.injEq] at found
      rw [← found] at listed
      cases listed
    · rw [others n here] at found
      exact wellFormed.listed found listed
  · intro n manager found
    by_cases here : n = m
    · subst here
      simp only [ConnSystem.newManager, ConnSystem.setManager,
        Function.update_self, Option.some.injEq] at found
      rw [← found]
      exact List.nodup_nil
    · rw [others n here] at found
      exact wellFormed.distinct found
  · intro p pool live
    obtain ⟨manager, found, incId, decId⟩ := wellFormed.created live
    exact ⟨manager, by rw [others _ (known found), found], incId, decId⟩
  · exact wellFormed.connInvokers
  · intro invoker
    have listed : invoker ∈ (system.newManager m).managerBus.invokers ↔
        invoker ∈ system.managerBus.invokers ∨
          ∃ manager, (system.newManager m).managers m = some manager ∧
            (invoker = manager.incInvoker m ∨
              invoker = manager.decInvoker m) := by
      simp [ConnSystem.newManager, ConnSystem.setManager,
        MessageBus.registerHandler]
    rw [listed, wellFormed.managerInvokers]
    constructor
    · intro either
      rcases either with ⟨n, manager, found, isOwn⟩ | ⟨manager, found, isOwn⟩
      · exact ⟨n, manager, by rw [others n (known found), found], isOwn⟩
      · exact ⟨m, manager, found, isOwn⟩
    · intro holds
      obtain ⟨n, manager, found, isOwn⟩ := holds
      by_cases here : n = m
      · subst here
        exact .inr ⟨manager, found, isOwn⟩
      · rw [others n here] at found
        exact .inl ⟨n, manager, found, isOwn⟩

theorem WellFormed.change
    {targets : Address → Prop} {system next : ConnSystem}
    (wellFormed : WellFormed system) (change : Change targets system next) :
    WellFormed next := by
  cases change with
  | pool live change => exact wellFormed.setPool live change.sameIdentity
  | conn conn => exact wellFormed.appendConn conn
  | poolList found subset distinct =>
      exact wellFormed.setManager found rfl rfl subset distinct
  | targets _ found =>
      exact wellFormed.setManager found rfl rfl (List.Subset.refl _) id
  | addPool added =>
      obtain ⟨manager, found, free, rfl⟩ := addPool_eq_some_iff.mp added
      exact wellFormed.withPool found free
  | destroyPool live unlisted => exact wellFormed.destroyPool live unlisted
  | newManager absent => exact wellFormed.newManager absent

theorem WellFormed.changes
    {targets : Address → Prop} {system next : ConnSystem}
    (wellFormed : WellFormed system) (changes : Changes targets system next) :
    WellFormed next :=
  changes.invariant (fun _ _ holds change => holds.change change) wellFormed

end ConnSystem

end DBWrapper
