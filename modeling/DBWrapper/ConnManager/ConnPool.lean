import Mathlib.Data.List.Rotate
import DBWrapper.ConnManager.ConnInfo
import DBWrapper.ConnManager.MessageBus

/-!
# Connection pools

A pool keeps its local and its remote connections in two lists.  Reports add
and remove connections by pointer, `del_conn(info)` removes them by target,
and `get_conn` rotates the list that it serves from.

`events` is the history of the calls that a pool has received; only
specifications read it.
-/

namespace DBWrapper

open Foundation

abbrev Address := Nat

/-- What the pools read of a `DBConn`.  `connPool::add_conn(info)` sets it
once, and nothing changes it later. -/
structure DBConn where
  info : ConnInfo
  poolIndex : Id
  connIncId : Id
  connDecId : Id
  deriving DecidableEq, Repr

/-- All connections ever created; the pointer to one is its position. -/
abbrev Conns := List DBConn

inductive PoolEvent where
  | connInc (conn : Address)
  | connDec (conn : Address)
  | addConn (info : ConnInfo)
  | delConn (info : ConnInfo)
  | getConn
  deriving DecidableEq, Repr

/-- `connPool`.  `creator` is the manager whose `add_pool` made the pool, and
`users` counts the shared pointers to the pool outside of its `poolList`. -/
structure ConnPool where
  id : Id
  connIncId : Id
  connDecId : Id
  poolIncId : Id
  poolDecId : Id
  dbInsLocalList : List Address
  dbInsRemoteList : List Address
  creator : Address
  users : Nat
  events : List PoolEvent
  deriving DecidableEq, Repr

/-- `pop_front`, and `push_back` of what was removed. -/
def rotateList {Element : Type} : List Element → List Element
  | [] => []
  | front :: rest => rest ++ [front]

@[simp] theorem mem_rotateList {Element : Type} (list : List Element)
    (element : Element) : element ∈ rotateList list ↔ element ∈ list := by
  cases list <;> simp [rotateList, or_comm]

theorem rotateList_eq {Element : Type} (list : List Element) :
    rotateList list = list.rotate 1 := by
  cases list <;> simp [rotateList]

namespace ConnPool

def record (pool : ConnPool) (event : PoolEvent) : ConnPool :=
  { pool with events := pool.events ++ [event] }

/-- `DBInsLocalList.size() + DBInsRemoteList.size()`. -/
def size (pool : ConnPool) : Nat :=
  pool.dbInsLocalList.length + pool.dbInsRemoteList.length

/-- The connection that `add_conn(connInfo)` creates. -/
def newConn (pool : ConnPool) (info : ConnInfo) : DBConn :=
  { info, poolIndex := pool.id, connIncId := pool.connIncId,
    connDecId := pool.connDecId }

/-- `add_conn(DBConn *)`, called for a `CONN_INC` report. -/
def addConnPtr (pool : ConnPool) (conn : Address) (info : ConnInfo) :
    ConnPool :=
  let pool := pool.record (.connInc conn)
  if info.type = 0 then
    { pool with dbInsLocalList := pool.dbInsLocalList ++ [conn] }
  else
    { pool with dbInsRemoteList := pool.dbInsRemoteList ++ [conn] }

/-- `del_conn(DBConn *)`, called for a `CONN_DEC` report. -/
def delConnPtr (pool : ConnPool) (conn : Address) (info : ConnInfo) :
    ConnPool :=
  let pool := pool.record (.connDec conn)
  if info.type = 0 then
    { pool with
      dbInsLocalList := pool.dbInsLocalList.filter fun db => !(db == conn) }
  else
    { pool with
      dbInsRemoteList := pool.dbInsRemoteList.filter fun db => !(db == conn) }

/-- `db->get_conn_info() == info`. -/
def hasInfo (conns : Conns) (info : ConnInfo) (db : Address) : Bool :=
  match conns[db]? with
  | none => false
  | some conn => conn.info.beq info

/-- `del_conn(connInfo)`. -/
def delConn (pool : ConnPool) (conns : Conns) (info : ConnInfo) : ConnPool :=
  let pool := pool.record (.delConn info)
  if info.type = 0 then
    { pool with
      dbInsLocalList :=
        pool.dbInsLocalList.filter fun db => !hasInfo conns info db }
  else
    { pool with
      dbInsRemoteList :=
        pool.dbInsRemoteList.filter fun db => !hasInfo conns info db }

/-- `get_conn()`; `none` is `nullptr`. -/
def getConn (pool : ConnPool) : Option Address × ConnPool :=
  let pool := pool.record .getConn
  match pool.dbInsLocalList, pool.dbInsRemoteList with
  | front :: rest, _ =>
      (some front, { pool with dbInsLocalList := rotateList (front :: rest) })
  | [], front :: rest =>
      (some front, { pool with dbInsRemoteList := rotateList (front :: rest) })
  | [], [] => (none, pool)

/-- The list that `get_conn` serves from. -/
def serving (pool : ConnPool) : List Address :=
  if pool.dbInsLocalList = [] then pool.dbInsRemoteList else pool.dbInsLocalList

def Holds (pool : ConnPool) (conn : Address) : Prop :=
  conn ∈ pool.dbInsLocalList ∨ conn ∈ pool.dbInsRemoteList

/-- What the pool is, apart from its connections and its users. -/
structure SameIdentity (pool other : ConnPool) : Prop where
  id : other.id = pool.id
  connIncId : other.connIncId = pool.connIncId
  connDecId : other.connDecId = pool.connDecId
  poolIncId : other.poolIncId = pool.poolIncId
  poolDecId : other.poolDecId = pool.poolDecId
  creator : other.creator = pool.creator

theorem sameIdentity_record (pool : ConnPool) (event : PoolEvent) :
    SameIdentity pool (pool.record event) := by
  constructor <;> rfl

theorem sameIdentity_addConnPtr
    (pool : ConnPool) (conn : Address) (info : ConnInfo) :
    SameIdentity pool (pool.addConnPtr conn info) := by
  simp only [addConnPtr]
  by_cases isLocal : info.type = 0 <;>
    simp only [isLocal, if_true, if_false] <;> constructor <;> rfl

theorem sameIdentity_delConnPtr
    (pool : ConnPool) (conn : Address) (info : ConnInfo) :
    SameIdentity pool (pool.delConnPtr conn info) := by
  simp only [delConnPtr]
  by_cases isLocal : info.type = 0 <;>
    simp only [isLocal, if_true, if_false] <;> constructor <;> rfl

theorem sameIdentity_delConn
    (pool : ConnPool) (conns : Conns) (info : ConnInfo) :
    SameIdentity pool (pool.delConn conns info) := by
  simp only [delConn]
  by_cases isLocal : info.type = 0 <;>
    simp only [isLocal, if_true, if_false] <;> constructor <;> rfl

theorem sameIdentity_getConn (pool : ConnPool) :
    SameIdentity pool pool.getConn.2 := by
  unfold getConn
  dsimp only
  split <;> constructor <;> rfl

theorem events_addConnPtr
    (pool : ConnPool) (conn : Address) (info : ConnInfo) :
    (pool.addConnPtr conn info).events = pool.events ++ [.connInc conn] := by
  simp only [addConnPtr]
  by_cases isLocal : info.type = 0 <;> simp [isLocal, record]

theorem events_delConnPtr
    (pool : ConnPool) (conn : Address) (info : ConnInfo) :
    (pool.delConnPtr conn info).events = pool.events ++ [.connDec conn] := by
  simp only [delConnPtr]
  by_cases isLocal : info.type = 0 <;> simp [isLocal, record]

theorem events_delConn
    (pool : ConnPool) (conns : Conns) (info : ConnInfo) :
    (pool.delConn conns info).events = pool.events ++ [.delConn info] := by
  simp only [delConn]
  by_cases isLocal : info.type = 0 <;> simp [isLocal, record]

theorem events_getConn (pool : ConnPool) :
    pool.getConn.2.events = pool.events ++ [.getConn] := by
  unfold getConn record
  dsimp only
  split <;> rfl

/-! ### Which connections a pool holds -/

/-- The most recent of the events that concern the connection, which are its
reports and the deletions of its target, is a `CONN_INC`. -/
def LastInc (conn : Address) (info : ConnInfo) (events : List PoolEvent) :
    Prop :=
  Latched (· = .connInc conn)
    (fun event => event = .connDec conn ∨ event = .delConn info) events

theorem lastInc_append_singleton
    {conn : Address} {info : ConnInfo} {events : List PoolEvent}
    {last : PoolEvent} :
    LastInc conn info (events ++ [last]) ↔
      last = .connInc conn ∨
        LastInc conn info events ∧
          ¬ (last = .connDec conn ∨ last = .delConn info) :=
  latched_append_singleton

/-- Both lists follow the history, for every connection of the system. -/
structure Follows (conns : Conns) (pool : ConnPool) : Prop where
  mem_local : ∀ {conn : Address} {dbConn : DBConn}, conns[conn]? = some dbConn →
    (conn ∈ pool.dbInsLocalList ↔
      dbConn.info.type = 0 ∧ LastInc conn dbConn.info pool.events)
  mem_remote : ∀ {conn : Address} {dbConn : DBConn}, conns[conn]? = some dbConn →
    (conn ∈ pool.dbInsRemoteList ↔
      dbConn.info.type ≠ 0 ∧ LastInc conn dbConn.info pool.events)
  heldExist : ∀ conn, pool.Holds conn → conn < conns.length
  reportedExist : ∀ conn, .connInc conn ∈ pool.events → conn < conns.length

theorem Follows.holds_iff
    {conns : Conns} {pool : ConnPool} (follows : Follows conns pool)
    {conn : Address} {dbConn : DBConn} (found : conns[conn]? = some dbConn) :
    pool.Holds conn ↔ LastInc conn dbConn.info pool.events := by
  simp only [Holds]
  rw [follows.mem_local found, follows.mem_remote found]
  tauto

/-- Changes to other members do not matter. -/
theorem Follows.congr
    {conns : Conns} {pool other : ConnPool} (follows : Follows conns pool)
    (sameLocal : other.dbInsLocalList = pool.dbInsLocalList)
    (sameRemote : other.dbInsRemoteList = pool.dbInsRemoteList)
    (sameEvents : other.events = pool.events) : Follows conns other := by
  constructor
  · rw [sameLocal, sameEvents]
    exact follows.mem_local
  · rw [sameRemote, sameEvents]
    exact follows.mem_remote
  · simp only [Holds]
    rw [sameLocal, sameRemote]
    exact follows.heldExist
  · rw [sameEvents]
    exact follows.reportedExist

/-- A pool without connections, to which none has reported. -/
theorem follows_of_new
    (conns : Conns) {pool : ConnPool} (noLocal : pool.dbInsLocalList = [])
    (noRemote : pool.dbInsRemoteList = [])
    (noReport : ∀ conn, .connInc conn ∉ pool.events) :
    Follows conns pool := by
  have notLast : ∀ conn info, ¬ LastInc conn info pool.events := by
    intro conn info last
    obtain ⟨event, listed, rfl⟩ := last.exists_sets
    exact noReport conn listed
  constructor
  · intro conn dbConn _
    simp [noLocal, notLast]
  · intro conn dbConn _
    simp [noRemote, notLast]
  · simp [Holds, noLocal, noRemote]
  · intro conn reported
    exact (noReport conn reported).elim

/-- A new connection is held by no pool. -/
theorem Follows.append
    {conns : Conns} {pool : ConnPool} (follows : Follows conns pool)
    (added : DBConn) : Follows (conns ++ [added]) pool := by
  have split : ∀ {conn : Address} {dbConn : DBConn},
      (conns ++ [added])[conn]? = some dbConn →
        conns[conn]? = some dbConn ∨
          conn = conns.length := by
    intro conn dbConn found
    rw [List.getElem?_append] at found
    split at found
    · exact .inl found
    · rename_i notEarlier
      have bound := (List.getElem?_eq_some_iff.mp found).1
      rw [List.length_singleton, Nat.lt_one_iff] at bound
      exact .inr (Nat.le_antisymm (Nat.le_of_sub_eq_zero bound)
        (Nat.le_of_not_lt notEarlier))
  have notLast : ∀ info, ¬ LastInc conns.length info pool.events := by
    intro info last
    obtain ⟨event, listed, rfl⟩ := last.exists_sets
    exact Nat.lt_irrefl _ (follows.reportedExist _ listed)
  constructor
  · intro conn dbConn found
    rcases split found with earlier | rfl
    · exact follows.mem_local earlier
    · have absent : conns.length ∉ pool.dbInsLocalList := fun held =>
        Nat.lt_irrefl _ (follows.heldExist _ (.inl held))
      simp [absent, notLast]
  · intro conn dbConn found
    rcases split found with earlier | rfl
    · exact follows.mem_remote earlier
    · have absent : conns.length ∉ pool.dbInsRemoteList := fun held =>
        Nat.lt_irrefl _ (follows.heldExist _ (.inr held))
      simp [absent, notLast]
  · intro conn held
    rw [List.length_append]
    exact Nat.lt_add_right _ (follows.heldExist conn held)
  · intro conn reported
    rw [List.length_append]
    exact Nat.lt_add_right _ (follows.reportedExist conn reported)

theorem Follows.appendAll
    {conns : Conns} {pool : ConnPool} (follows : Follows conns pool)
    (added : Conns) : Follows (conns ++ added) pool := by
  induction added generalizing conns with
  | nil => simpa using follows
  | cons conn added induction =>
      rw [← List.singleton_append, ← List.append_assoc]
      exact induction (follows.append conn)

/-- One more event, and lists that have changed accordingly. -/
theorem Follows.event
    {conns : Conns} {pool other : ConnPool} {event : PoolEvent}
    (follows : Follows conns pool)
    (events : other.events = pool.events ++ [event])
    (locals : ∀ {conn : Address} {dbConn : DBConn},
      conns[conn]? = some dbConn →
        (conn ∈ other.dbInsLocalList ↔
          event = .connInc conn ∧ dbConn.info.type = 0 ∨
            conn ∈ pool.dbInsLocalList ∧
              ¬ (event = .connDec conn ∨ event = .delConn dbConn.info)))
    (remotes : ∀ {conn : Address} {dbConn : DBConn},
      conns[conn]? = some dbConn →
        (conn ∈ other.dbInsRemoteList ↔
          event = .connInc conn ∧ dbConn.info.type ≠ 0 ∨
            conn ∈ pool.dbInsRemoteList ∧
              ¬ (event = .connDec conn ∨ event = .delConn dbConn.info)))
    (held : ∀ conn, other.Holds conn → pool.Holds conn ∨ event = .connInc conn)
    (reported : ∀ conn, event = .connInc conn → conn < conns.length) :
    Follows conns other := by
  constructor
  · intro conn dbConn found
    rw [locals found, follows.mem_local found, events,
      lastInc_append_singleton]
    tauto
  · intro conn dbConn found
    rw [remotes found, follows.mem_remote found, events,
      lastInc_append_singleton]
    tauto
  · intro conn listed
    rcases held conn listed with earlier | added
    · exact follows.heldExist conn earlier
    · exact reported conn added
  · intro conn listed
    rw [events, List.mem_append, List.mem_singleton] at listed
    rcases listed with earlier | added
    · exact follows.reportedExist conn earlier
    · exact reported conn added.symm

theorem Follows.addConnPtr
    {conns : Conns} {pool : ConnPool} (follows : Follows conns pool)
    {conn : Address} {dbConn : DBConn} (found : conns[conn]? = some dbConn) :
    Follows conns (pool.addConnPtr conn dbConn.info) := by
  have inRange := (List.getElem?_eq_some_iff.mp found).1
  simp only [ConnPool.addConnPtr, record]
  by_cases isLocal : dbConn.info.type = 0
  · rw [if_pos isLocal]
    apply follows.event rfl
    · intro other otherConn otherFound
      simp only [List.mem_append, List.mem_singleton, PoolEvent.connInc.injEq]
      by_cases same : conn = other
      · subst same
        rw [found] at otherFound
        cases otherFound
        simp [isLocal]
      · simp [same, Ne.symm same]
    · intro other otherConn otherFound
      simp only [PoolEvent.connInc.injEq]
      by_cases same : conn = other
      · subst same
        rw [found] at otherFound
        cases otherFound
        simp [isLocal]
      · simp [same]
    · intro other listed
      simp only [Holds, List.mem_append, List.mem_singleton] at listed
      rcases listed with (earlier | rfl) | remote
      · exact .inl (.inl earlier)
      · exact .inr rfl
      · exact .inl (.inr remote)
    · intro other holds
      obtain ⟨rfl⟩ := holds
      exact inRange
  · rw [if_neg isLocal]
    apply follows.event rfl
    · intro other otherConn otherFound
      simp only [PoolEvent.connInc.injEq]
      by_cases same : conn = other
      · subst same
        rw [found] at otherFound
        cases otherFound
        simp [isLocal]
      · simp [same]
    · intro other otherConn otherFound
      simp only [List.mem_append, List.mem_singleton, PoolEvent.connInc.injEq]
      by_cases same : conn = other
      · subst same
        rw [found] at otherFound
        cases otherFound
        simp [isLocal]
      · simp [same, Ne.symm same]
    · intro other listed
      simp only [Holds, List.mem_append, List.mem_singleton] at listed
      rcases listed with localOne | (earlier | rfl)
      · exact .inl (.inl localOne)
      · exact .inl (.inr earlier)
      · exact .inr rfl
    · intro other holds
      obtain ⟨rfl⟩ := holds
      exact inRange

theorem Follows.delConnPtr
    {conns : Conns} {pool : ConnPool} (follows : Follows conns pool)
    {conn : Address} {dbConn : DBConn} (found : conns[conn]? = some dbConn) :
    Follows conns (pool.delConnPtr conn dbConn.info) := by
  simp only [ConnPool.delConnPtr, record]
  by_cases isLocal : dbConn.info.type = 0
  · rw [if_pos isLocal]
    have notRemote : conn ∉ pool.dbInsRemoteList := by
      rw [follows.mem_remote found]
      simp [isLocal]
    apply follows.event rfl
    · intro other otherConn otherFound
      simp [List.mem_filter, @eq_comm _ conn other]
    · intro other otherConn otherFound
      simp only [reduceCtorEq, false_and, false_or, or_false,
        PoolEvent.connDec.injEq]
      constructor
      · intro listed
        refine ⟨listed, ?_⟩
        intro equal
        subst equal
        exact notRemote listed
      · exact fun listed => listed.1
    · intro other listed
      simp only [Holds, List.mem_filter] at listed
      exact .inl (listed.imp_left And.left)
    · intro other reported
      cases reported
  · rw [if_neg isLocal]
    have notLocal : conn ∉ pool.dbInsLocalList := by
      rw [follows.mem_local found]
      simp [isLocal]
    apply follows.event rfl
    · intro other otherConn otherFound
      simp only [reduceCtorEq, false_and, false_or, or_false,
        PoolEvent.connDec.injEq]
      constructor
      · intro listed
        refine ⟨listed, ?_⟩
        intro equal
        subst equal
        exact notLocal listed
      · exact fun listed => listed.1
    · intro other otherConn otherFound
      simp [List.mem_filter, @eq_comm _ conn other]
    · intro other listed
      simp only [Holds, List.mem_filter] at listed
      exact .inl (listed.imp_right And.left)
    · intro other reported
      cases reported

theorem hasInfo_iff
    {conns : Conns} {db : Address} {dbConn : DBConn}
    (found : conns[db]? = some dbConn) (info : ConnInfo) :
    hasInfo conns info db = true ↔ dbConn.info = info := by
  simp only [hasInfo]
  rw [found]
  exact ConnInfo.beq_iff

theorem Follows.delConn
    {conns : Conns} {pool : ConnPool} (follows : Follows conns pool)
    (info : ConnInfo) :
    Follows conns (pool.delConn conns info) := by
  simp only [ConnPool.delConn, record]
  by_cases isLocal : info.type = 0
  · rw [if_pos isLocal]
    apply follows.event rfl
    · intro conn dbConn found
      simp [List.mem_filter, Bool.eq_false_iff, hasInfo_iff found,
        @eq_comm _ info dbConn.info]
    · intro conn dbConn found
      simp only [reduceCtorEq, false_and, false_or, PoolEvent.delConn.injEq]
      constructor
      · intro listed
        refine ⟨listed, ?_⟩
        intro equal
        subst equal
        exact ((follows.mem_remote found).mp listed).1 isLocal
      · exact fun listed => listed.1
    · intro conn listed
      simp only [Holds, List.mem_filter] at listed
      exact .inl (listed.imp_left And.left)
    · intro conn reported
      cases reported
  · rw [if_neg isLocal]
    apply follows.event rfl
    · intro conn dbConn found
      simp only [reduceCtorEq, false_and, false_or, PoolEvent.delConn.injEq]
      constructor
      · intro listed
        refine ⟨listed, ?_⟩
        intro equal
        subst equal
        exact isLocal ((follows.mem_local found).mp listed).1
      · exact fun listed => listed.1
    · intro conn dbConn found
      simp [List.mem_filter, Bool.eq_false_iff, hasInfo_iff found,
        @eq_comm _ info dbConn.info]
    · intro conn listed
      simp only [Holds, List.mem_filter] at listed
      exact .inl (listed.imp_right And.left)
    · intro conn reported
      cases reported

/-- An event that is neither a report nor a deletion, and lists with the same
elements. -/
theorem Follows.neutral
    {conns : Conns} {pool other : ConnPool} {event : PoolEvent}
    (follows : Follows conns pool)
    (events : other.events = pool.events ++ [event])
    (notInc : ∀ conn, event ≠ .connInc conn)
    (notDec : ∀ conn, event ≠ .connDec conn)
    (notDel : ∀ info, event ≠ .delConn info)
    (sameLocal : ∀ conn,
      conn ∈ other.dbInsLocalList ↔ conn ∈ pool.dbInsLocalList)
    (sameRemote : ∀ conn,
      conn ∈ other.dbInsRemoteList ↔ conn ∈ pool.dbInsRemoteList) :
    Follows conns other := by
  apply follows.event events
  · intro conn dbConn _
    simp [sameLocal, notInc, notDec, notDel]
  · intro conn dbConn _
    simp [sameRemote, notInc, notDec, notDel]
  · intro conn listed
    simp only [Holds] at listed
    rw [sameLocal, sameRemote] at listed
    exact .inl listed
  · intro conn reported
    exact (notInc conn reported).elim

theorem Follows.getConn
    {conns : Conns} {pool : ConnPool} (follows : Follows conns pool) :
    Follows conns pool.getConn.2 := by
  apply @Follows.neutral _ _ _ .getConn follows
  · unfold ConnPool.getConn record
    dsimp only
    split <;> rfl
  · simp
  · simp
  · simp
  · intro conn
    unfold ConnPool.getConn record
    dsimp only
    split <;> simp [*]
  · intro conn
    unfold ConnPool.getConn record
    dsimp only
    split <;> simp [*]

theorem Follows.recordAddConn
    {conns : Conns} {pool : ConnPool} (follows : Follows conns pool)
    (info : ConnInfo) :
    Follows conns (pool.record (.addConn info)) :=
  @Follows.neutral _ _ _ (.addConn info) follows rfl (by simp) (by simp)
    (by simp) (fun _ => Iff.rfl) (fun _ => Iff.rfl)

end ConnPool

end DBWrapper
