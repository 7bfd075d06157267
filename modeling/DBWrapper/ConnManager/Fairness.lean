import DBWrapper.ConnManager.Membership
import DBWrapper.Foundation.RoundRobin

/-!
# Fairness of `get_conn`

`connManager::get_conn` turns the list of the pools, and the pool that was in
front turns the list that it serves from.  On the lists of connections this is
the nested rotation of `DBWrapper.Foundation.RoundRobin`.
-/

namespace DBWrapper

open Foundation

theorem ConnPool.serving_getConn (pool : ConnPool) :
    pool.getConn.2.serving = pool.serving.rotate 1 := by
  simp only [ConnPool.getConn, ConnPool.record]
  cases locals : pool.dbInsLocalList with
  | cons front rest => simp [ConnPool.serving, locals, rotateList]
  | nil =>
      cases remotes : pool.dbInsRemoteList with
      | cons front rest =>
          simp [ConnPool.serving, locals, remotes, rotateList]
      | nil => simp [ConnPool.serving, locals, remotes]

theorem ConnPool.serving_ne_nil_iff (pool : ConnPool) :
    pool.serving ≠ [] ↔ ∃ conn, pool.Holds conn := by
  have empty := pool.getConn_eq_none_iff
  rw [pool.getConn_fst, List.head?_eq_none_iff] at empty
  rw [ne_eq, empty, not_forall_not]

namespace ConnSystem

/-- The list that the pool at the address serves from. -/
def servingList (system : ConnSystem) (p : Address) : List Address :=
  match system.pools p with
  | none => []
  | some pool => pool.serving

/-- The system after a number of calls of `get_conn`. -/
def afterGetConn (system : ConnSystem) (m : Address) : Nat → ConnSystem
  | 0 => system
  | calls + 1 => ((system.afterGetConn m calls).getConn m).2

/-- The manager has the pools, each once, and they serve from the lists. -/
def ServesFrom (system : ConnSystem) (m : Address)
    (lists : List (List Address)) : Prop :=
  ∃ manager, system.managers m = some manager ∧ manager.poolList.Nodup ∧
    (∀ p ∈ manager.poolList, ∃ pool, system.pools p = some pool) ∧
    manager.poolList.map system.servingList = lists

/-- One call of `get_conn` is one call of the nested rotation. -/
theorem ServesFrom.getConn
    {system : ConnSystem} {m : Address} {lists : List (List Address)}
    (serves : ServesFrom system m lists) :
    (system.getConn m).1 = (serve lists).1 ∧
      ServesFrom (system.getConn m).2 m (serve lists).2 := by
  obtain ⟨manager, found, distinct, allLive, rfl⟩ := serves
  cases poolList : manager.poolList with
  | nil =>
      have rotated : system.getConn m =
          (none, system.setManager m
            { manager with poolList := rotateList manager.poolList }) := by
        simp [ConnSystem.getConn, getPool, found, poolList]
      rw [rotated]
      refine ⟨rfl, _, by rw [setManager_managers, if_pos rfl], ?_⟩
      simp [poolList, rotateList, serve]
  | cons p rest =>
      rw [poolList] at distinct allLive
      obtain ⟨pool, live⟩ := allLive p List.mem_cons_self
      have absent := (List.nodup_cons.mp distinct).1
      have result : system.getConn m =
          (pool.getConn.1,
            (system.setManager m
              { manager with poolList := rest ++ [p] }).setPool p
                pool.getConn.2) := by
        have livePool : (system.setManager m
            { manager with poolList := rest ++ [p] }).pools p = some pool :=
          live
        simp [ConnSystem.getConn, getPool, found, poolList, rotateList,
          poolGetConn, livePool]
      have ownList : system.servingList p = pool.serving := by
        simp [servingList, live]
      rw [result]
      constructor
      · rw [pool.getConn_fst]
        simp [serve, ownList]
      · refine ⟨{ manager with poolList := rest ++ [p] }, ?_, ?_, ?_, ?_⟩
        · simp [setPool, setManager]
        · rw [List.nodup_append_comm]
          exact distinct
        · intro q listed
          rw [setPool_pools]
          by_cases here : q = p
          · exact ⟨_, if_pos here⟩
          · rw [if_neg here]
            apply allLive
            simpa [or_comm] using listed
        · have others : ∀ q ∈ rest,
              ((system.setManager m
                { manager with poolList := rest ++ [p] }).setPool p
                  pool.getConn.2).servingList q = system.servingList q := by
            intro q listed
            have different : q ≠ p := by
              intro equal
              subst equal
              exact absent listed
            simp only [servingList, setPool_pools, if_neg different]
            rfl
          rw [List.map_append, List.map_congr_left others]
          simp [serve, live, servingList, setPool_pools,
            pool.serving_getConn]

theorem ServesFrom.afterGetConn
    {system : ConnSystem} {m : Address} {lists : List (List Address)}
    (serves : ServesFrom system m lists) (calls : Nat) :
    ServesFrom (system.afterGetConn m calls) m (served lists calls) := by
  induction calls with
  | zero => exact serves
  | succ calls induction => exact induction.getConn.2

theorem WellFormed.servesFrom
    {system : ConnSystem} (wellFormed : WellFormed system)
    {m : Address} {manager : ConnManager}
    (found : system.managers m = some manager) :
    ServesFrom system m (manager.poolList.map system.servingList) := by
  refine ⟨manager, found, wellFormed.distinct found, ?_, rfl⟩
  intro p listed
  obtain ⟨pool, live, _⟩ := wellFormed.listed found listed
  exact ⟨pool, live⟩

/-- The call after `t` calls returns element `t / m % n` of the list of pool
`t % m`, where `m` pools serve and the list has `n` elements.  So over a
common period every position of every list is returned equally often, and a
pool with local connections returns no others. -/
theorem getConn_fair
    {actions : List ConnAction} {system : ConnSystem}
    (ran : run step start actions = some system)
    {m : Address} {manager : ConnManager}
    (found : system.managers m = some manager)
    (somePool : manager.poolList ≠ [])
    (allHold : ∀ p ∈ manager.poolList, ∀ pool, system.pools p = some pool →
      ∃ conn, pool.Holds conn) :
    (∀ t, ∃ p pool conn,
      manager.poolList[t % manager.poolList.length]? = some p ∧
      system.pools p = some pool ∧
      pool.serving[t / manager.poolList.length % pool.serving.length]? =
        some conn ∧
      ((system.afterGetConn m t).getConn m).1 = some conn ∧
      (pool.dbInsLocalList ≠ [] → conn ∈ pool.dbInsLocalList)) ∧
    ∀ n, (∀ p ∈ manager.poolList, (system.servingList p).length ∣ n) →
      ∀ start i j p, manager.poolList[i]? = some p →
        j < (system.servingList p).length →
        ((Finset.Ico start (start + manager.poolList.length * n)).filter
          fun t => t % manager.poolList.length = i ∧
            t / manager.poolList.length % (system.servingList p).length =
              j).card =
          n / (system.servingList p).length := by
  have wellFormed := wellFormed_run ran
  have serves := wellFormed.servesFrom found
  have positive : 0 < manager.poolList.length :=
    List.length_pos_iff.mpr somePool
  constructor
  · intro t
    have inRange := Nat.mod_lt t positive
    obtain ⟨p, turn⟩ : ∃ p,
        manager.poolList[t % manager.poolList.length]? = some p :=
      ⟨_, List.getElem?_eq_getElem inRange⟩
    have listed := List.mem_of_getElem? turn
    obtain ⟨pool, live, _⟩ := wellFormed.listed found listed
    have nonempty : pool.serving ≠ [] :=
      pool.serving_ne_nil_iff.mpr (allHold p listed pool live)
    have lists : (manager.poolList.map system.servingList)[
        t % (manager.poolList.map system.servingList).length]? =
          some pool.serving := by
      simp [turn, servingList, live]
    have elementInRange : t / manager.poolList.length % pool.serving.length <
        pool.serving.length :=
      Nat.mod_lt _ (List.length_pos_iff.mpr nonempty)
    obtain ⟨conn, element⟩ : ∃ conn,
        pool.serving[t / manager.poolList.length % pool.serving.length]? =
          some conn :=
      ⟨_, List.getElem?_eq_getElem elementInRange⟩
    refine ⟨p, pool, conn, turn, live, element, ?_, ?_⟩
    · rw [(serves.afterGetConn t).getConn.1, serve_served lists nonempty,
        List.length_map, element]
    · intro hasLocal
      have served := List.mem_of_getElem? element
      rw [ConnPool.serving, if_neg hasLocal] at served
      exact served
  · intro n divides start i j p turn jInRange
    have iInRange := (List.getElem?_eq_some_iff.mp turn).1
    exact card_turns iInRange jInRange
      (divides p (List.mem_of_getElem? turn)) start

/-- Two connections of one pool, in any two consecutive calls. -/
theorem getConn_fair_twoConnections :
    ∃ system manager,
      run step start
          [.newManager 0, .addPool 0 ⟨7, 0⟩, .addConn 0 ⟨"", "", "", "", 0⟩,
            .addConn 0 ⟨"", "", "", "", 1⟩,
            .addConn 0 ⟨"", "", "", "", 0⟩,
            .report .onConnected 0 ⟨8, 0⟩, .report .onConnected 1 ⟨8, 0⟩,
            .report .onConnected 2 ⟨8, 0⟩] = some system ∧
        system.managers 0 = some manager ∧
        manager.poolList = [7] ∧ system.servingList 7 = [0, 2] ∧
        ∀ start, ((Finset.Ico start (start + 1 * 2)).filter fun t =>
          t % 1 = 0 ∧ t / 1 % 2 = 1).card = 1 :=
  ⟨_, _, rfl, rfl, rfl, rfl, fun start =>
    (@getConn_fair
      [.newManager 0, .addPool 0 ⟨7, 0⟩, .addConn 0 ⟨"", "", "", "", 0⟩,
        .addConn 0 ⟨"", "", "", "", 1⟩, .addConn 0 ⟨"", "", "", "", 0⟩,
        .report .onConnected 0 ⟨8, 0⟩, .report .onConnected 1 ⟨8, 0⟩,
        .report .onConnected 2 ⟨8, 0⟩] _ rfl 0 _ rfl (by decide)
      (by
        intro p listed pool live
        have atSeven : p = 7 := List.mem_singleton.mp listed
        subst atSeven
        cases live
        exact ⟨0, .inl List.mem_cons_self⟩)).2
      2 (by
        intro p listed
        have atSeven : p = 7 := List.mem_singleton.mp listed
        subst atSeven
        exact Nat.dvd_refl 2)
      start 0 1 7 rfl (by decide)⟩

end ConnSystem

end DBWrapper
