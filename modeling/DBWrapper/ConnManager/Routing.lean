import DBWrapper.ConnManager.Membership

/-!
# Routing

All ids come from one counter, so as long as it has not wrapped around no id
has been drawn twice.  Then the bus takes a report to the one object that drew
its id, and a pool that is gone is never called again, even if another object
lives at its address.
-/

namespace DBWrapper

open Foundation

namespace ConnSystem

/-- The number of ids that an `int` can tell apart. -/
def idLimit : Nat := 2 ^ 32

theorem toNat_ofNat_id {n : Nat} (small : n < idLimit) :
    (BitVec.ofNat 32 n).toNat = n := by
  rw [BitVec.toNat_ofNat]
  exact Nat.mod_eq_of_lt small

/-- No id has been used twice, and those in use have been drawn. -/
structure Routed (system : ConnSystem) : Prop where
  connBus : system.connBus.Consistent
  managerBus : system.managerBus.Consistent
  connIds : ∀ id ∈ BusOp.ids system.connBus.ops, id.toNat < system.center.drawn
  managerIds : ∀ id ∈ BusOp.ids system.managerBus.ops,
    id.toNat < system.center.drawn
  poolIds : ∀ {p : Address} {pool : ConnPool}, system.pools p = some pool →
    pool.id.toNat < system.center.drawn
  poolIdsDistinct : ∀ {p q : Address} {pool other : ConnPool},
    system.pools p = some pool → system.pools q = some other →
      pool.id = other.id → p = q

/-- An id that has just been drawn is in use nowhere. -/
theorem not_mem_ids_of_drawn
    {Owner Handler : Type} {ops : List (BusOp Owner Handler)} {drawn n : Nat}
    (below : ∀ id ∈ BusOp.ids ops, id.toNat < drawn) (later : drawn ≤ n)
    (small : n < idLimit) : BitVec.ofNat 32 n ∉ BusOp.ids ops := by
  intro used
  have earlier := below _ used
  rw [toNat_ofNat_id small] at earlier
  omega

theorem routed_start : Routed start := by
  constructor
  · exact MessageBus.consistent_empty
  · exact MessageBus.consistent_empty
  · simp [start, MessageBus.empty, BusOp.ids]
  · simp [start, MessageBus.empty, BusOp.ids]
  · simp [start]
  · simp [start]

theorem Routed.setPool
    {system : ConnSystem} (routed : Routed system)
    {p : Address} {pool other : ConnPool} (live : system.pools p = some pool)
    (sameId : other.id = pool.id) : Routed (system.setPool p other) := by
  have earlier : ∀ {q : Address} {current : ConnPool},
      (system.setPool p other).pools q = some current →
        ∃ old, system.pools q = some old ∧ current.id = old.id := by
    intro q current currentLive
    rw [setPool_pools] at currentLive
    split at currentLive
    · rename_i here
      cases currentLive
      exact ⟨pool, by rw [here, live], sameId⟩
    · exact ⟨current, currentLive, rfl⟩
  constructor
  · exact routed.connBus
  · exact routed.managerBus
  · exact routed.connIds
  · exact routed.managerIds
  · intro q current currentLive
    obtain ⟨old, oldLive, same⟩ := earlier currentLive
    rw [same]
    exact routed.poolIds oldLive
  · intro q r left right leftLive rightLive sameIds
    obtain ⟨oldLeft, oldLeftLive, sameLeft⟩ := earlier leftLive
    obtain ⟨oldRight, oldRightLive, sameRight⟩ := earlier rightLive
    rw [sameLeft, sameRight] at sameIds
    exact routed.poolIdsDistinct oldLeftLive oldRightLive sameIds

theorem Routed.destroyPool
    {system : ConnSystem} (routed : Routed system) (p : Address)
    (pool : ConnPool) : Routed (system.destroyPool p pool) := by
  have earlier : ∀ {q : Address} {current : ConnPool},
      (system.destroyPool p pool).pools q = some current →
        system.pools q = some current := by
    intro q current currentLive
    rw [destroyPool_pools] at currentLive
    split at currentLive
    · cases currentLive
    · exact currentLive
  constructor
  · exact (routed.connBus.removeHandler _ _ _).removeHandler _ _ _
  · exact routed.managerBus
  · simpa [ConnSystem.destroyPool, MessageBus.removeHandler]
      using routed.connIds
  · exact routed.managerIds
  · intro q current currentLive
    exact routed.poolIds (earlier currentLive)
  · intro q r left right leftLive rightLive sameIds
    exact routed.poolIdsDistinct (earlier leftLive) (earlier rightLive) sameIds

/-- Two registrations with the next two ids of the counter. -/
theorem consistent_registerTwice
    {Owner Handler : Type} {bus : MessageBus Owner Handler} {drawn : Nat}
    (consistent : bus.Consistent)
    (below : ∀ id ∈ BusOp.ids bus.ops, id.toNat < drawn)
    {first second : Invoker Owner Handler}
    (firstId : first.id = BitVec.ofNat 32 drawn)
    (secondId : second.id = BitVec.ofNat 32 (drawn + 1))
    (bound : drawn + 1 < idLimit) :
    ((bus.registerHandler first).registerHandler second).Consistent ∧
      ∀ id ∈ BusOp.ids
        ((bus.registerHandler first).registerHandler second).ops,
        id.toNat < drawn + 2 := by
  have firstSmall := toNat_ofNat_id (Nat.lt_of_succ_lt bound)
  have secondSmall := toNat_ofNat_id bound
  have ids : BusOp.ids
      ((bus.registerHandler first).registerHandler second).ops =
        BusOp.ids bus.ops ++ [first.id] ++ [second.id] := by
    simp [MessageBus.registerHandler]
  constructor
  · have once : (bus.registerHandler first).Consistent := by
      apply consistent.registerHandler
      rw [firstId]
      exact not_mem_ids_of_drawn below (Nat.le_refl _) (Nat.lt_of_succ_lt bound)
    apply once.registerHandler
    have onceIds : BusOp.ids (bus.registerHandler first).ops =
        BusOp.ids bus.ops ++ [first.id] := by
      simp [MessageBus.registerHandler]
    rw [onceIds, List.mem_append, List.mem_singleton, secondId, firstId]
    intro either
    rcases either with used | same
    · exact not_mem_ids_of_drawn below (Nat.le_succ _) bound used
    · have equal := congrArg BitVec.toNat same
      rw [firstSmall, secondSmall] at equal
      omega
  · intro id used
    rw [ids, List.mem_append, List.mem_append, List.mem_singleton,
      List.mem_singleton] at used
    rcases used with (earlier | isFirst) | isSecond
    · have := below id earlier
      omega
    · rw [isFirst, firstId, firstSmall]
      omega
    · rw [isSecond, secondId, secondSmall]
      omega

theorem Routed.withPool
    {system : ConnSystem} (routed : Routed system) {m : Address}
    {manager : ConnManager} {fresh : Allocation}
    (bound : system.center.drawn + 3 ≤ idLimit) :
    Routed (system.withPool m manager fresh) := by
  have registered := @consistent_registerTwice _ _ system.connBus
    system.center.drawn routed.connBus routed.connIds
    ((system.addedPool m manager fresh).decInvoker fresh.address)
    ((system.addedPool m manager fresh).incInvoker fresh.address)
    rfl rfl (by omega)
  have idSmall : (system.addedPool m manager fresh).id.toNat =
      system.center.drawn + 2 := by
    exact toNat_ofNat_id (by omega)
  have drawn : (system.withPool m manager fresh).center.drawn =
      system.center.drawn + 3 := rfl
  constructor
  · exact registered.1
  · exact routed.managerBus
  · intro id used
    have below := registered.2 id used
    rw [drawn]
    omega
  · intro id used
    have below := routed.managerIds id used
    rw [drawn]
    omega
  · intro p pool live
    rw [withPool_pools] at live
    rw [drawn]
    split at live
    · cases live
      omega
    · have below := routed.poolIds live
      omega
  · intro p q pool other live otherLive sameIds
    have sameNumbers := congrArg BitVec.toNat sameIds
    rw [withPool_pools] at live otherLive
    split at live
    · split at otherLive
      · rename_i here there
        rw [here, there]
      · cases live
        have below := routed.poolIds otherLive
        omega
    · split at otherLive
      · cases otherLive
        have below := routed.poolIds live
        omega
      · exact routed.poolIdsDistinct live otherLive sameIds

theorem Routed.newManager
    {system : ConnSystem} (routed : Routed system) (m : Address)
    (bound : system.center.drawn + 2 ≤ idLimit) :
    Routed (system.newManager m) := by
  have drawn : (system.newManager m).center.drawn =
      system.center.drawn + 2 := rfl
  have registered : (system.newManager m).managerBus.Consistent ∧
      ∀ id ∈ BusOp.ids (system.newManager m).managerBus.ops,
        id.toNat < system.center.drawn + 2 := by
    apply consistent_registerTwice routed.managerBus routed.managerIds
    · rfl
    · rfl
    · omega
  constructor
  · exact routed.connBus
  · exact registered.1
  · intro id used
    have below := routed.connIds id used
    rw [drawn]
    omega
  · exact registered.2
  · intro p pool live
    have below := routed.poolIds live
    rw [drawn]
    omega
  · exact routed.poolIdsDistinct

theorem Change.drawn_le
    {targets : Address → Prop} {system next : ConnSystem}
    (change : Change targets system next) :
    system.center.drawn ≤ next.center.drawn := by
  cases change with
  | addPool added =>
      obtain ⟨manager, _, _, rfl⟩ := addPool_eq_some_iff.mp added
      exact Nat.le_add_right _ 3
  | newManager _ => exact Nat.le_add_right _ 2
  | _ => exact Nat.le_refl _

theorem Routed.change
    {targets : Address → Prop} {system next : ConnSystem} (routed : Routed system)
    (bound : next.center.drawn ≤ idLimit)
    (change : Change targets system next) : Routed next := by
  cases change with
  | pool live poolChange =>
      exact routed.setPool live poolChange.sameIdentity.id
  | conn conn =>
      exact ⟨routed.connBus, routed.managerBus, routed.connIds,
        routed.managerIds, routed.poolIds, routed.poolIdsDistinct⟩
  | poolList _ _ _ =>
      exact ⟨routed.connBus, routed.managerBus, routed.connIds,
        routed.managerIds, routed.poolIds, routed.poolIdsDistinct⟩
  | targets _ _ =>
      exact ⟨routed.connBus, routed.managerBus, routed.connIds,
        routed.managerIds, routed.poolIds, routed.poolIdsDistinct⟩
  | addPool added =>
      obtain ⟨manager, _, _, rfl⟩ := addPool_eq_some_iff.mp added
      exact routed.withPool bound
  | destroyPool _ _ => exact routed.destroyPool _ _
  | newManager _ => exact routed.newManager _ bound

theorem routed_run
    {actions : List ConnAction} {system : ConnSystem}
    (ran : run step start actions = some system)
    (bound : system.center.drawn ≤ idLimit) : Routed system := by
  have invariant : system.center.drawn ≤ idLimit → Routed system := by
    apply @run_invariant_of_change
      (fun system => system.center.drawn ≤ idLimit → Routed system) _ _ _ _ ran
    · intro targets before next _ holds change nextBound
      exact (holds (change.drawn_le.trans nextBound)).change nextBound change
    · intro _
      exact routed_start
  exact invariant bound

end ConnSystem

end DBWrapper
