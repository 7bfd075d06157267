import DBWrapper.ConnManager.Changes

/-!
# Changes with their permissions

An effect is an elementary change together with what allowed it: which
connection may enter which pool, whether connections may leave pools, which
manager may add a pool, and which may change its targets.  A new connection is
always one that a live pool has stamped.
-/

namespace DBWrapper

open Foundation

/-- What a pool is made from if the action adds one. -/
def ConnAction.allocation : ConnAction → Option Allocation
  | .addPool _ fresh | .report _ _ fresh => some fresh
  | _ => none

/-- What an action may do beyond the changes that are always possible. -/
structure Permits where
  targets : Address → Prop
  inserts : Address → Address → Prop
  removes : Prop
  addsPool : ConnSystem → Address → Allocation → Prop

namespace ConnPool

theorem holds_getConn_iff (pool : ConnPool) (conn : Address) :
    pool.getConn.2.Holds conn ↔ pool.Holds conn := by
  unfold getConn Holds record
  dsimp only
  split <;> simp [*]

theorem holds_addConnPtr_iff
    (pool : ConnPool) (conn other : Address) (info : ConnInfo) :
    (pool.addConnPtr conn info).Holds other ↔
      pool.Holds other ∨ other = conn := by
  simp only [addConnPtr, Holds, record]
  by_cases isLocal : info.type = 0
  · simp only [isLocal, if_true, List.mem_append, List.mem_singleton]
    tauto
  · simp only [isLocal, if_false, List.mem_append, List.mem_singleton]
    tauto

theorem holds_of_delConnPtr
    {pool : ConnPool} {conn other : Address} {info : ConnInfo}
    (held : (pool.delConnPtr conn info).Holds other) : pool.Holds other := by
  simp only [delConnPtr, record] at held
  split at held
  · exact held.imp_left List.mem_of_mem_filter
  · exact held.imp_right List.mem_of_mem_filter

theorem holds_of_delConn
    {pool : ConnPool} {conns : Conns} {other : Address} {info : ConnInfo}
    (held : (pool.delConn conns info).Holds other) : pool.Holds other := by
  simp only [delConn, record] at held
  split at held
  · exact held.imp_left List.mem_of_mem_filter
  · exact held.imp_right List.mem_of_mem_filter

end ConnPool

namespace ConnSystem

inductive Effect (permits : Permits) (system : ConnSystem) :
    ConnSystem → Prop where
  | pool {p : Address} {pool other : ConnPool}
      (live : system.pools p = some pool)
      (change : PoolChange system.conns pool other)
      (inserted : ∀ conn, other.Holds conn →
        pool.Holds conn ∨ permits.inserts p conn)
      (removed : permits.removes ∨ ∀ conn, pool.Holds conn → other.Holds conn) :
      Effect permits system (system.setPool p other)
  | conn {p : Address} {pool : ConnPool} (live : system.pools p = some pool)
      (info : ConnInfo) :
      Effect permits system
        { system with conns := system.conns ++ [pool.newConn info] }
  | poolList {m : Address} {manager : ConnManager} {poolList : List Address}
      {unavailable : Nat} (found : system.managers m = some manager)
      (subset : poolList ⊆ manager.poolList)
      (distinct : manager.poolList.Nodup → poolList.Nodup) :
      Effect permits system
        (system.setManager m { manager with poolList, unavailable })
  | targets {m : Address} {manager : ConnManager} {infoList : List ConnInfo}
      {connList : ConnList} (allowed : permits.targets m)
      (found : system.managers m = some manager) :
      Effect permits system
        (system.setManager m { manager with infoList, connList })
  | addPool {m : Address} {fresh : Allocation} {next : ConnSystem}
      (allowed : permits.addsPool system m fresh)
      (added : system.addPool m fresh = some next) :
      Effect permits system next
  | destroyPool {p : Address} {pool : ConnPool}
      (live : system.pools p = some pool) (unlisted : system.Unlisted p) :
      Effect permits system (system.destroyPool p pool)
  | newManager {m : Address} (absent : system.managers m = none) :
      Effect permits system (system.newManager m)

abbrev Effects (permits : Permits) : ConnSystem → ConnSystem → Prop :=
  Relation.ReflTransGen (Effect permits)

variable {permits : Permits}

theorem Effect.change
    {system next : ConnSystem} (effect : Effect permits system next) :
    Change permits.targets system next := by
  cases effect with
  | pool live change _ _ => exact .pool live change
  | conn _ info => exact .conn _
  | poolList found subset distinct => exact .poolList found subset distinct
  | targets allowed found => exact .targets allowed found
  | addPool _ added => exact .addPool added
  | destroyPool live unlisted => exact .destroyPool live unlisted
  | newManager absent => exact .newManager absent

theorem Effects.changes
    {system next : ConnSystem} (effects : Effects permits system next) :
    Changes permits.targets system next :=
  Relation.ReflTransGen.mono (fun _ _ effect => Effect.change effect) _ _
    effects

theorem Effects.wellFormed
    {system next : ConnSystem} (effects : Effects permits system next)
    (wellFormed : WellFormed system) : WellFormed next :=
  wellFormed.changes effects.changes

/-- An invariant of every effect on well-formed systems is an invariant of
every sequence of them. -/
theorem Effects.invariant
    {Invariant : ConnSystem → Prop}
    (preserved : ∀ system next, WellFormed system → Invariant system →
      Effect permits system next → Invariant next)
    {system next : ConnSystem} (effects : Effects permits system next)
    (wellFormed : WellFormed system) (holds : Invariant system) :
    Invariant next := by
  induction effects with
  | refl => exact holds
  | tail earlier effect induction =>
      exact preserved _ _ (Effects.wellFormed earlier wellFormed) induction
        effect

/-! ### What an action permits -/

/-- The pool that accepts a `CONN_INC` report of the connection: the bus
takes the report to it, and the index of the connection is its id. -/
def acceptingPool (system : ConnSystem) (conn : Address) : Option Address :=
  match system.conns[conn]? with
  | none => none
  | some dbConn =>
      match system.connBus.call connIncTopic dbConn.connIncId with
      | none => none
      | some invoker =>
          match invoker.f with
          | .connDec _ => none
          | .connInc p =>
              match system.pools p with
              | none => none
              | some pool =>
                  if dbConn.poolIndex = pool.id then some p else none

/-- The manager that adds a pool when a connection enters the pool: the pool
is empty, and the manager does not list it. -/
def extendingManager (system : ConnSystem) (p : Address) : Option Address :=
  match system.pools p with
  | none => none
  | some pool =>
      if pool.size = 0 then
        match system.managerBus.call poolIncTopic pool.poolIncId with
        | none => none
        | some invoker =>
            match invoker.f with
            | .poolDec _ => none
            | .poolInc m =>
                match system.managers m with
                | none => none
                | some manager =>
                    if manager.poolList.any (system.hasId pool.id) then none
                    else some m
      else
        none

theorem acceptingPool_eq_some_iff
    {system : ConnSystem} {conn p : Address} :
    system.acceptingPool conn = some p ↔
      ∃ dbConn invoker pool, system.conns[conn]? = some dbConn ∧
        system.connBus.call connIncTopic dbConn.connIncId = some invoker ∧
        invoker.f = .connInc p ∧ system.pools p = some pool ∧
        dbConn.poolIndex = pool.id := by
  simp only [acceptingPool]
  constructor
  · intro accepts
    split at accepts
    · cases accepts
    · rename_i dbConn known
      split at accepts
      · cases accepts
      · rename_i invoker called
        split at accepts
        · cases accepts
        · rename_i q isInc
          split at accepts
          · cases accepts
          · rename_i pool live
            split at accepts
            · rename_i index
              cases accepts
              exact ⟨dbConn, invoker, pool, known, called, isInc, live, index⟩
            · cases accepts
  · intro holds
    obtain ⟨dbConn, invoker, pool, known, called, isInc, live, index⟩ := holds
    simp [known, called, isInc, live, index]

theorem extendingManager_eq_some_iff
    {system : ConnSystem} {p m : Address} :
    system.extendingManager p = some m ↔
      ∃ pool invoker manager, system.pools p = some pool ∧ pool.size = 0 ∧
        system.managerBus.call poolIncTopic pool.poolIncId = some invoker ∧
        invoker.f = .poolInc m ∧ system.managers m = some manager ∧
        ¬ manager.poolList.any (system.hasId pool.id) = true := by
  simp only [extendingManager]
  constructor
  · intro extending
    split at extending
    · cases extending
    · rename_i pool live
      split at extending
      · rename_i empty
        split at extending
        · cases extending
        · rename_i invoker called
          split at extending
          · cases extending
          · rename_i n isInc
            split at extending
            · cases extending
            · rename_i manager found
              split at extending
              · cases extending
              · rename_i absent
                cases extending
                exact ⟨pool, invoker, manager, live, empty, called, isInc,
                  found, absent⟩
      · cases extending
  · intro holds
    obtain ⟨pool, invoker, manager, live, empty, called, isInc, found,
      absent⟩ := holds
    simp only [live, empty, if_true, called, isInc, found]
    rw [if_neg absent]

/-- The manager to which the action adds a pool. -/
def addingManager (system : ConnSystem) : ConnAction → Option Address
  | .addPool m _ => some m
  | .report .onConnected conn _ =>
      match system.acceptingPool conn with
      | none => none
      | some p => system.extendingManager p
  | _ => none

/-- The managers whose targets an action may change. -/
def setsTargets : ConnAction → Address → Prop
  | .addConn n _, m | .delConn n _, m | .getConnInfo n _, m => m = n
  | _, _ => False

/-- The actions that may take connections out of pools. -/
def removesConns : ConnAction → Prop
  | .delConn _ _ | .getConnInfo _ _ | .poolDelConn _ _ => True
  | .report .onDisconnected _ _ => True
  | _ => False

/-- Only the report of a connection brings it into a pool, and a pool is
added before anything else happens. -/
def permitted (system : ConnSystem) (action : ConnAction) : Permits :=
  { targets := setsTargets action
    inserts := fun p conn =>
      (∃ fresh, action = .report .onConnected conn fresh) ∧
        system.acceptingPool conn = some p
    removes := removesConns action
    addsPool := fun current m fresh =>
      current = system ∧ system.addingManager action = some m ∧
        action.allocation = some fresh }

end ConnSystem

end DBWrapper
