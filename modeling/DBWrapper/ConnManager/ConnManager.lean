import Mathlib.Data.List.Rotate
import DBWrapper.ConnManager.ConnPool

/-!
# Connection managers

The state of all managers, pools and connections, with the two message buses
and the id counter that they share.  A connection reports to its pool over the
first bus; a pool that has become empty, or was empty, reports to its manager
over the second one while that call is still running, and the manager then
destroys the pool or makes a new one.

Objects are known by their addresses.  The address of a destroyed pool may be
used again; managers are never destroyed.
-/

namespace DBWrapper

def connIncTopic : String := "conn_inc"

def connDecTopic : String := "conn_dec"

def poolIncTopic : String := "pool_inc"

def poolDecTopic : String := "pool_dec"

/-- The handlers, with the `this` that they capture. -/
inductive ConnHandler where
  | connInc (this : Address)
  | connDec (this : Address)
  deriving DecidableEq, Repr

inductive ManagerHandler where
  | poolInc (this : Address)
  | poolDec (this : Address)
  deriving DecidableEq, Repr

/-- `connManager`; `connList` is the `_conn_list` of its `servDiscov`, and
`unavailable` counts the calls of `on_unavaliable`. -/
structure ConnManager where
  infoList : List ConnInfo
  poolList : List Address
  poolIncId : Id
  poolDecId : Id
  connList : ConnList
  unavailable : Nat

/-- What `new connPool` depends on: the address of the new object, and the
value in the members that its constructor leaves uninitialised. -/
structure Allocation where
  address : Address
  indeterminate : Id
  deriving DecidableEq, Repr

structure ConnSystem where
  center : IdCenter
  connBus : MessageBus Address ConnHandler
  managerBus : MessageBus Address ManagerHandler
  pools : Address → Option ConnPool
  managers : Address → Option ConnManager
  conns : Conns

/-- The two reports of a connection. -/
inductive Report where
  | onConnected
  | onDisconnected
  deriving DecidableEq, Repr

inductive ConnAction where
  | newManager (m : Address)
  | addPool (m : Address) (fresh : Allocation)
  | delPool (m : Address) (id : Id)
  | getPool (m : Address)
  | releasePool (p : Address)
  | getConn (m : Address)
  | addConn (m : Address) (info : ConnInfo)
  | delConn (m : Address) (info : ConnInfo)
  | getConnInfo (m : Address) (polled : ConnList)
  | poolGetConn (p : Address)
  | poolAddConn (p : Address) (info : ConnInfo)
  | poolDelConn (p : Address) (info : ConnInfo)
  | report (report : Report) (conn : Address) (fresh : Allocation)

namespace ConnPool

/-- A pool after its constructor, which has drawn the two ids. -/
def construct (creator : Address) (fresh : Allocation) (connDecId connIncId : Id) :
    ConnPool :=
  { id := fresh.indeterminate
    connIncId
    connDecId
    poolIncId := fresh.indeterminate
    poolDecId := fresh.indeterminate
    dbInsLocalList := []
    dbInsRemoteList := []
    creator
    users := 0
    events := [] }

/-- The entry for `CONN_INC` that the constructor makes on the bus. -/
def incInvoker (pool : ConnPool) (p : Address) : Invoker Address ConnHandler :=
  { name := connIncTopic, f := .connInc p, t := p, id := pool.connIncId }

def decInvoker (pool : ConnPool) (p : Address) : Invoker Address ConnHandler :=
  { name := connDecTopic, f := .connDec p, t := p, id := pool.connDecId }

end ConnPool

namespace ConnManager

def incInvoker (manager : ConnManager) (m : Address) :
    Invoker Address ManagerHandler :=
  { name := poolIncTopic, f := .poolInc m, t := m, id := manager.poolIncId }

def decInvoker (manager : ConnManager) (m : Address) :
    Invoker Address ManagerHandler :=
  { name := poolDecTopic, f := .poolDec m, t := m, id := manager.poolDecId }

end ConnManager

namespace ConnSystem

def start : ConnSystem :=
  { center := { drawn := 0 }
    connBus := .empty
    managerBus := .empty
    pools := fun _ => none
    managers := fun _ => none
    conns := [] }

def setPool (system : ConnSystem) (p : Address) (pool : ConnPool) :
    ConnSystem :=
  { system with pools := Function.update system.pools p (some pool) }

def setManager (system : ConnSystem) (m : Address) (manager : ConnManager) :
    ConnSystem :=
  { system with managers := Function.update system.managers m (some manager) }

/-! ### `connPool` -/

/-- The constructor: `CONN_DEC` is registered first. -/
def newConnPool (system : ConnSystem) (creator : Address)
    (fresh : Allocation) : ConnSystem :=
  let (decId, center) := system.center.getUniqueID
  let (incId, center) := center.getUniqueID
  let pool := ConnPool.construct creator fresh decId incId
  let system :=
    { system with
      center
      connBus :=
        (system.connBus.registerHandler (pool.decInvoker fresh.address)).registerHandler
          (pool.incInvoker fresh.address) }
  system.setPool fresh.address pool

/-- The destructor `~connPool`. -/
def destroyPool (system : ConnSystem) (p : Address) (pool : ConnPool) :
    ConnSystem :=
  { system with
    connBus :=
      (system.connBus.removeHandler connIncTopic p pool.connIncId).removeHandler
        connDecTopic p pool.connDecId
    pools := Function.update system.pools p none }

/-- `add_conn(connInfo)`: the connection reports later, if at all. -/
def poolAddConn (system : ConnSystem) (p : Address) (info : ConnInfo) :
    ConnSystem :=
  match system.pools p with
  | none => system
  | some pool =>
      { system.setPool p (pool.record (.addConn info)) with
        conns := system.conns ++ [pool.newConn info] }

def poolDelConn (system : ConnSystem) (p : Address) (info : ConnInfo) :
    ConnSystem :=
  match system.pools p with
  | none => system
  | some pool => system.setPool p (pool.delConn system.conns info)

def poolGetConn (system : ConnSystem) (p : Address) :
    Option Address × ConnSystem :=
  match system.pools p with
  | none => (none, system)
  | some pool => (pool.getConn.1, system.setPool p pool.getConn.2)

/-! ### `connManager` -/

/-- The constructor: `POOL_INC` is registered first. -/
def newManager (system : ConnSystem) (m : Address) : ConnSystem :=
  let (incId, center) := system.center.getUniqueID
  let (decId, center) := center.getUniqueID
  let manager : ConnManager :=
    { infoList := [], poolList := [], poolIncId := incId, poolDecId := decId,
      connList := ∅, unavailable := 0 }
  let system :=
    { system with
      center
      managerBus :=
        (system.managerBus.registerHandler (manager.incInvoker m)).registerHandler
          (manager.decInvoker m) }
  system.setManager m manager

/-- The id of a new pool, and the ids of the manager, are set after the
connections of the pool have been made. -/
def adoptPool (system : ConnSystem) (p : Address) (manager : ConnManager) :
    ConnSystem :=
  let (id, center) := system.center.getUniqueID
  match system.pools p with
  | none => { system with center }
  | some pool =>
      { system with center }.setPool p
        { pool with
          id, poolDecId := manager.poolDecId, poolIncId := manager.poolIncId }

/-- `add_pool()`.  `none`: there is no such manager, or the allocator cannot
return this address. -/
def addPool (system : ConnSystem) (m : Address) (fresh : Allocation) :
    Option ConnSystem :=
  match system.managers m, system.pools fresh.address with
  | some manager, none =>
      let system := system.newConnPool m fresh
      let system :=
        manager.infoList.foldl (fun system info =>
          system.poolAddConn fresh.address info) system
      let system := system.adoptPool fresh.address manager
      some (system.setManager m
        { manager with poolList := manager.poolList ++ [fresh.address] })
  | _, _ => none

def hasId (system : ConnSystem) (id : Id) (p : Address) : Bool :=
  match system.pools p with
  | none => false
  | some pool => pool.id == id

/-- The shared pointer in `poolList` goes away: without users the pool is
destroyed. -/
def dropPool (system : ConnSystem) (p : Address) : ConnSystem :=
  match system.pools p with
  | none => system
  | some pool => if pool.users = 0 then system.destroyPool p pool else system

/-- `del_pool(id)`. -/
def delPool (system : ConnSystem) (m : Address) (id : Id) : ConnSystem :=
  match system.managers m with
  | none => system
  | some manager =>
      let removed := manager.poolList.filter (system.hasId id)
      let kept := manager.poolList.filter fun p => !system.hasId id p
      removed.foldl dropPool
        (system.setManager m { manager with poolList := kept })

/-- `get_pool()`; `none` is `nullptr`. -/
def getPool (system : ConnSystem) (m : Address) :
    Option Address × ConnSystem :=
  match system.managers m with
  | none => (none, system)
  | some manager =>
      (manager.poolList.head?,
        system.setManager m
          { manager with poolList := rotateList manager.poolList })

/-- The caller of `get_pool()` keeps the pointer that it returned. -/
def usePool (system : ConnSystem) (p : Address) : ConnSystem :=
  match system.pools p with
  | none => system
  | some pool => system.setPool p { pool with users := pool.users + 1 }

/-- A shared pointer outside of the `poolList` goes away. -/
def releasePool (system : ConnSystem) (p : Address) : Option ConnSystem :=
  match system.pools p with
  | none => none
  | some pool =>
      match pool.users with
      | 0 => none
      | 1 =>
          match system.managers pool.creator with
          | none => none
          | some manager =>
              if p ∈ manager.poolList then
                some (system.setPool p { pool with users := 0 })
              else
                some (system.destroyPool p pool)
      | users + 2 => some (system.setPool p { pool with users := users + 1 })

/-- `get_conn()`. -/
def getConn (system : ConnSystem) (m : Address) :
    Option Address × ConnSystem :=
  match system.getPool m with
  | (none, system) => (none, system)
  | (some p, system) => system.poolGetConn p

/-- `add_conn(info)`. -/
def addConn (system : ConnSystem) (m : Address) (info : ConnInfo) :
    ConnSystem :=
  match system.managers m with
  | none => system
  | some manager =>
      manager.poolList.foldl (fun system p => system.poolAddConn p info)
        (system.setManager m
          { manager with infoList := manager.infoList ++ [info] })

/-- `del_conn(info)`. -/
def delConn (system : ConnSystem) (m : Address) (info : ConnInfo) :
    ConnSystem :=
  match system.managers m with
  | none => system
  | some manager =>
      manager.poolList.foldl (fun system p => system.poolDelConn p info)
        (system.setManager m
          { manager with
            infoList := manager.infoList.filter fun other => !other.beq info })

/-! ### Reports -/

/-- The `POOL_INC` handler; `none` would be a dangling pointer. -/
def onPoolInc (system : ConnSystem) (m p : Address) (fresh : Allocation) :
    Option ConnSystem :=
  match system.managers m, system.pools p with
  | some manager, some pool =>
      if manager.poolList.any (system.hasId pool.id) then
        some system
      else
        system.addPool m fresh
  | _, _ => none

/-- The `POOL_DEC` handler. -/
def onPoolDec (system : ConnSystem) (m p : Address) : Option ConnSystem :=
  match system.pools p with
  | none => none
  | some pool =>
      let system := system.delPool m pool.id
      match system.managers m with
      | none => none
      | some manager =>
          if manager.poolList = [] then
            some (system.setManager m
              { manager with unavailable := manager.unavailable + 1 })
          else
            some system

/-- `call(name, p, id)` on the bus of the managers. -/
def callManagerBus (system : ConnSystem) (name : String) (p : Address)
    (id : Id) (fresh : Allocation) : Option ConnSystem :=
  match system.managerBus.call name id with
  | none => some system
  | some invoker =>
      match invoker.f with
      | .poolInc m => system.onPoolInc m p fresh
      | .poolDec m => system.onPoolDec m p

/-- The `CONN_DEC` handler. -/
def onConnDec (system : ConnSystem) (p conn : Address) (dbConn : DBConn)
    (fresh : Allocation) : Option ConnSystem :=
  match system.pools p with
  | none => none
  | some pool =>
      if dbConn.poolIndex = pool.id then
        let pool := pool.delConnPtr conn dbConn.info
        let system := system.setPool p pool
        if pool.size = 0 then
          system.callManagerBus poolDecTopic p pool.poolDecId fresh
        else
          some system
      else
        some system

/-- The part of the `CONN_INC` handler behind its test for emptiness. -/
def insertConn (system : ConnSystem) (p conn : Address) (dbConn : DBConn) :
    Option ConnSystem :=
  match system.pools p with
  | none => none
  | some pool => some (system.setPool p (pool.addConnPtr conn dbConn.info))

/-- The `CONN_INC` handler. -/
def onConnInc (system : ConnSystem) (p conn : Address) (dbConn : DBConn)
    (fresh : Allocation) : Option ConnSystem :=
  match system.pools p with
  | none => none
  | some pool =>
      if dbConn.poolIndex = pool.id then
        if pool.size = 0 then
          match system.callManagerBus poolIncTopic p pool.poolIncId fresh with
          | none => none
          | some system => system.insertConn p conn dbConn
        else
          system.insertConn p conn dbConn
      else
        some system

/-- `call(name, conn, id)` on the bus of the pools. -/
def callConnBus (system : ConnSystem) (name : String) (conn : Address)
    (dbConn : DBConn) (id : Id) (fresh : Allocation) : Option ConnSystem :=
  match system.connBus.call name id with
  | none => some system
  | some invoker =>
      match invoker.f with
      | .connInc p => system.onConnInc p conn dbConn fresh
      | .connDec p => system.onConnDec p conn dbConn fresh

/-- A connection reports with the ids that its pool gave it. -/
def report (system : ConnSystem) (report : Report) (conn : Address)
    (fresh : Allocation) : Option ConnSystem :=
  match system.conns[conn]? with
  | none => none
  | some dbConn =>
      match report with
      | .onConnected =>
          system.callConnBus connIncTopic conn dbConn dbConn.connIncId fresh
      | .onDisconnected =>
          system.callConnBus connDecTopic conn dbConn dbConn.connDecId fresh

/-! ### `serviceDiscovery` -/

def setConnList (system : ConnSystem) (m : Address) (connList : ConnList) :
    ConnSystem :=
  match system.managers m with
  | none => system
  | some manager => system.setManager m { manager with connList }

/-- The `_conn_list` of the manager. -/
def connList (system : ConnSystem) (m : Address) : ConnList :=
  match system.managers m with
  | none => ∅
  | some manager => manager.connList

/-- One turn of the first loop of `getConnInfo`. -/
def discover (m : Address) (system : ConnSystem) (tmp : ConnInfo) :
    ConnSystem :=
  if (system.connList m).contains tmp then
    system
  else
    let system := system.addConn m tmp
    system.setConnList m ((system.connList m).insert tmp)

/-- One turn of its second loop. -/
def forget (m : Address) (tmplist : ConnList) (system : ConnSystem)
    (tmp : ConnInfo) : ConnSystem :=
  if tmplist.contains tmp then
    system
  else
    let system := system.delConn m tmp
    system.setConnList m ((system.connList m).erase tmp)

/-- `getConnInfo()`, where the callback returns `tmplist`.  The second loop
visits what is in `_conn_list` when it starts. -/
def getConnInfo (system : ConnSystem) (m : Address) (tmplist : ConnList) :
    ConnSystem :=
  let system := tmplist.toList.foldl (discover m) system
  (system.connList m).toList.foldl (forget m tmplist) system

def step (system : ConnSystem) : ConnAction → Option ConnSystem
  | .newManager m =>
      if system.managers m = none then some (system.newManager m) else none
  | .addPool m fresh => system.addPool m fresh
  | .delPool m id => some (system.delPool m id)
  | .getPool m =>
      match system.getPool m with
      | (none, system) => some system
      | (some p, system) => some (system.usePool p)
  | .releasePool p => system.releasePool p
  | .getConn m => some (system.getConn m).2
  | .addConn m info => some (system.addConn m info)
  | .delConn m info => some (system.delConn m info)
  | .getConnInfo m polled => some (system.getConnInfo m polled)
  | .poolGetConn p => some (system.poolGetConn p).2
  | .poolAddConn p info => some (system.poolAddConn p info)
  | .poolDelConn p info => some (system.poolDelConn p info)
  | .report report conn fresh => system.report report conn fresh

end ConnSystem

end DBWrapper
