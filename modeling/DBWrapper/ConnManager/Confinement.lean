import DBWrapper.ConnManager.Discovery
import DBWrapper.ConnManager.Isolation

/-!
# What operations leave alone

The operations on targets, with all the calls to pools that they make, stay
within one manager and the pools in its list.  And only a lost connection can
make a manager call `on_unavaliable`.
-/

namespace DBWrapper

namespace ConnSystem

theorem foldl_managers
    {Element : Type} {operation : ConnSystem → Element → ConnSystem}
    (managers : ∀ system element,
      (operation system element).managers = system.managers)
    (list : List Element) (system : ConnSystem) :
    (list.foldl operation system).managers = system.managers := by
  induction list generalizing system with
  | nil => rfl
  | cons element list induction =>
      rw [List.foldl_cons, induction, managers]

/-- Only the manager and the pools in its list have changed, and neither the
list nor the calls of `on_unavaliable`. -/
structure Confined (m : Address) (system next : ConnSystem) : Prop where
  own : ∀ manager, system.managers m = some manager →
    ∃ after, next.managers m = some after ∧
      after.poolList = manager.poolList ∧
      after.unavailable = manager.unavailable
  others : ∀ n, n ≠ m → next.managers n = system.managers n
  pools : ∀ q manager, system.managers m = some manager →
    q ∉ manager.poolList → next.pools q = system.pools q
  absent : system.managers m = none → next = system

theorem Confined.refl (m : Address) (system : ConnSystem) :
    Confined m system system := by
  constructor
  · intro manager found
    exact ⟨manager, found, rfl, rfl⟩
  · exact fun _ _ => rfl
  · exact fun _ _ _ _ => rfl
  · exact fun _ => rfl

theorem Confined.trans
    {m : Address} {system middle next : ConnSystem}
    (first : Confined m system middle) (second : Confined m middle next) :
    Confined m system next := by
  constructor
  · intro manager found
    obtain ⟨between, foundBetween, sameList, sameCount⟩ :=
      first.own manager found
    obtain ⟨after, foundAfter, sameListAfter, sameCountAfter⟩ :=
      second.own between foundBetween
    exact ⟨after, foundAfter, sameListAfter.trans sameList,
      sameCountAfter.trans sameCount⟩
  · intro n different
    rw [second.others n different, first.others n different]
  · intro q manager found unlisted
    obtain ⟨between, foundBetween, sameList, _⟩ := first.own manager found
    rw [second.pools q between foundBetween (by rwa [sameList]),
      first.pools q manager found unlisted]
  · intro none_
    have same := first.absent none_
    subst same
    exact second.absent none_

theorem confined_foldl
    {Element : Type} {m : Address}
    {operation : ConnSystem → Element → ConnSystem}
    (each : ∀ system element, Confined m system (operation system element))
    (list : List Element) (system : ConnSystem) :
    Confined m system (list.foldl operation system) := by
  induction list generalizing system with
  | nil => exact Confined.refl m system
  | cons element list induction =>
      rw [List.foldl_cons]
      exact (each system element).trans (induction _)

theorem confined_setManager
    {system : ConnSystem} {m : Address} {manager other : ConnManager}
    (found : system.managers m = some manager)
    (sameList : other.poolList = manager.poolList)
    (sameCount : other.unavailable = manager.unavailable) :
    Confined m system (system.setManager m other) := by
  constructor
  · intro before foundBefore
    rw [found] at foundBefore
    cases foundBefore
    exact ⟨other, by rw [setManager_managers, if_pos rfl], sameList,
      sameCount⟩
  · intro n different
    rw [setManager_managers, if_neg different]
  · exact fun _ _ _ _ => rfl
  · intro none_
    rw [none_] at found
    cases found

/-- A call to each pool in the list of the manager. -/
theorem confined_poolCalls
    {operation : ConnSystem → Address → ConnSystem}
    (managers : ∀ system p, (operation system p).managers = system.managers)
    (others : ∀ system p q, q ≠ p →
      (operation system p).pools q = system.pools q)
    {system : ConnSystem} {m : Address} {manager : ConnManager}
    (found : system.managers m = some manager) :
    Confined m system (manager.poolList.foldl operation system) := by
  have kept := foldl_managers managers manager.poolList system
  have elsewhere : ∀ (list : List Address) (system : ConnSystem) (q : Address),
      q ∉ list → (list.foldl operation system).pools q = system.pools q := by
    intro list
    induction list with
    | nil => exact fun _ _ _ => rfl
    | cons p list induction =>
        intro system q notIn
        rw [List.mem_cons, not_or] at notIn
        rw [List.foldl_cons, induction _ q notIn.2, others _ _ _ notIn.1]
  constructor
  · intro before foundBefore
    exact ⟨before, by rw [kept, foundBefore], rfl, rfl⟩
  · intro n _
    rw [kept]
  · intro q before foundBefore unlisted
    rw [found] at foundBefore
    cases foundBefore
    exact elsewhere manager.poolList system q unlisted
  · intro none_
    rw [none_] at found
    cases found

theorem confined_addConn (system : ConnSystem) (m : Address) (info : ConnInfo) :
    Confined m system (system.addConn m info) := by
  simp only [addConn]
  split
  · exact Confined.refl m system
  · rename_i manager found
    have first : Confined m system
        (system.setManager m
          { manager with infoList := manager.infoList ++ [info] }) :=
      confined_setManager found rfl rfl
    apply first.trans
    apply @confined_poolCalls (fun system p => system.poolAddConn p info) _ _ _
      m { manager with infoList := manager.infoList ++ [info] }
    · rw [setManager_managers, if_pos rfl]
    · exact fun system p => poolAddConn_managers system p info
    · intro system p q different
      exact poolAddConn_pools_of_ne system info different

theorem confined_delConn (system : ConnSystem) (m : Address) (info : ConnInfo) :
    Confined m system (system.delConn m info) := by
  simp only [delConn]
  split
  · exact Confined.refl m system
  · rename_i manager found
    have first : Confined m system
        (system.setManager m
          { manager with
            infoList := manager.infoList.filter fun other => !other.beq info }) :=
      confined_setManager found rfl rfl
    apply first.trans
    apply @confined_poolCalls (fun system p => system.poolDelConn p info) _ _ _
      m { manager with
            infoList := manager.infoList.filter fun other => !other.beq info }
    · rw [setManager_managers, if_pos rfl]
    · exact fun system p => poolDelConn_managers system p info
    · intro system p q different
      exact poolDelConn_pools_of_ne system info different

theorem confined_setConnList
    (system : ConnSystem) (m : Address) (connList : ConnList) :
    Confined m system (system.setConnList m connList) := by
  simp only [setConnList]
  split
  · exact Confined.refl m system
  · rename_i manager found
    exact confined_setManager found rfl rfl

theorem confined_getConnInfo
    (system : ConnSystem) (m : Address) (polled : ConnList) :
    Confined m system (system.getConnInfo m polled) := by
  have discovered : ∀ system tmp,
      Confined m system (discover m system tmp) := by
    intro system tmp
    simp only [discover]
    split
    · exact Confined.refl m system
    · exact (confined_addConn system m tmp).trans
        (confined_setConnList _ m _)
  have forgotten : ∀ system tmp,
      Confined m system (forget m polled system tmp) := by
    intro system tmp
    simp only [forget]
    split
    · exact Confined.refl m system
    · exact (confined_delConn system m tmp).trans
        (confined_setConnList _ m _)
  simp only [getConnInfo]
  exact (confined_foldl discovered _ _).trans (confined_foldl forgotten _ _)

/-! ### Actions that take no connection away -/

/-- `CONN_DEC` reports and calls of `connManager::del_conn(info)`, which a
poll of the service discovery makes too. -/
def LosesConns : ConnAction → Prop
  | .report .onDisconnected _ _ | .delConn _ _ | .getConnInfo _ _ => True
  | _ => False

/-- `on_unavaliable` has not been called for any manager. -/
def SameCounts (system next : ConnSystem) : Prop :=
  ∀ m manager, system.managers m = some manager →
    ∃ after, next.managers m = some after ∧
      after.unavailable = manager.unavailable

theorem sameCounts_of_managers
    {system next : ConnSystem} (same : next.managers = system.managers) :
    SameCounts system next := by
  intro m manager found
  exact ⟨manager, by rw [same, found], rfl⟩

theorem SameCounts.trans
    {system middle next : ConnSystem} (first : SameCounts system middle)
    (second : SameCounts middle next) : SameCounts system next := by
  intro m manager found
  obtain ⟨between, foundBetween, same⟩ := first m manager found
  obtain ⟨after, foundAfter, sameAfter⟩ := second m between foundBetween
  exact ⟨after, foundAfter, sameAfter.trans same⟩

theorem Confined.sameCounts
    {m : Address} {system next : ConnSystem}
    (confined : Confined m system next) : SameCounts system next := by
  intro n manager found
  by_cases here : n = m
  · subst here
    obtain ⟨after, foundAfter, _, sameCount⟩ := confined.own manager found
    exact ⟨after, foundAfter, sameCount⟩
  · exact ⟨manager, by rw [confined.others n here, found], rfl⟩

theorem sameCounts_addPool
    {system next : ConnSystem} {m : Address} {fresh : Allocation}
    (added : system.addPool m fresh = some next) : SameCounts system next := by
  obtain ⟨manager, found, _, rfl⟩ := addPool_eq_some_iff.mp added
  intro n before foundBefore
  rw [withPool_managers]
  split
  · rename_i here
    subst here
    rw [found] at foundBefore
    cases foundBefore
    exact ⟨_, rfl, rfl⟩
  · exact ⟨before, foundBefore, rfl⟩

theorem sameCounts_delPool (system : ConnSystem) (m : Address) (id : Id) :
    SameCounts system (system.delPool m id) := by
  intro n before found
  by_cases here : n = m
  · subst here
    exact ⟨_, delPool_managers_self found id, rfl⟩
  · exact ⟨before, by rw [delPool_managers_of_ne system id here, found], rfl⟩

theorem poolGetConn_managers (system : ConnSystem) (p : Address) :
    (system.poolGetConn p).2.managers = system.managers := by
  simp only [poolGetConn]
  split <;> rfl

theorem usePool_managers (system : ConnSystem) (p : Address) :
    (system.usePool p).managers = system.managers := by
  simp only [usePool]
  split <;> rfl

theorem releasePool_managers
    {system next : ConnSystem} {p : Address}
    (released : system.releasePool p = some next) :
    next.managers = system.managers := by
  simp only [releasePool] at released
  split at released
  · cases released
  · split at released
    · cases released
    · split at released
      · cases released
      · split at released
        · cases released
          rfl
        · cases released
          rfl
    · cases released
      rfl

theorem sameCounts_getPool (system : ConnSystem) (m : Address) :
    SameCounts system (system.getPool m).2 := by
  simp only [getPool]
  split
  · exact sameCounts_of_managers rfl
  · rename_i manager found
    intro n before foundBefore
    rw [setManager_managers]
    split
    · rename_i here
      subst here
      rw [found] at foundBefore
      cases foundBefore
      exact ⟨_, rfl, rfl⟩
    · exact ⟨before, foundBefore, rfl⟩

theorem sameCounts_getConn (system : ConnSystem) (m : Address) :
    SameCounts system (system.getConn m).2 := by
  have rotated := sameCounts_getPool system m
  simp only [getConn]
  split
  · rename_i after result
    rw [result] at rotated
    exact rotated
  · rename_i p after result
    rw [result] at rotated
    exact rotated.trans (sameCounts_of_managers (poolGetConn_managers after p))

theorem WellFormed.sameCounts_onConnected
    {system next : ConnSystem} (wellFormed : WellFormed system)
    {conn : Address} {fresh : Allocation}
    (reported : system.report .onConnected conn fresh = some next) :
    SameCounts system next := by
  have inserts : ∀ {middle : ConnSystem} {p : Address} {dbConn : DBConn},
      middle.insertConn p conn dbConn = some next →
        SameCounts middle next := by
    intro middle p dbConn inserted
    apply sameCounts_of_managers
    simp only [insertConn] at inserted
    split at inserted
    · cases inserted
    · cases inserted
      rfl
  simp only [ConnSystem.report] at reported
  split at reported
  · cases reported
  · rename_i dbConn known
    rcases wellFormed.callConnBus_connInc reported with
      rfl | ⟨p, pool, live, called, handled⟩
    · exact sameCounts_of_managers rfl
    · simp only [onConnInc, live] at handled
      split at handled
      · split at handled
        · split at handled
          · cases handled
          · rename_i middle extended
            rcases wellFormed.callManagerBus_poolInc extended with
              rfl | ⟨m, manager, _, _, added⟩
            · exact inserts handled
            · exact (sameCounts_addPool added).trans (inserts handled)
        · exact inserts handled
      · cases handled
        exact sameCounts_of_managers rfl

theorem WellFormed.sameCounts_step
    {system next : ConnSystem} {action : ConnAction}
    (wellFormed : WellFormed system) (keeps : ¬ LosesConns action)
    (stepped : step system action = some next) : SameCounts system next := by
  simp only [step] at stepped
  split at stepped
  · rename_i m
    split at stepped
    · rename_i absent
      cases stepped
      intro n manager found
      have other : n ≠ m := by
        intro equal
        subst equal
        rw [absent] at found
        cases found
      refine ⟨manager, ?_, rfl⟩
      simpa [ConnSystem.newManager, ConnSystem.setManager, other] using found
    · cases stepped
  · exact sameCounts_addPool stepped
  · cases stepped
    exact sameCounts_delPool _ _ _
  · rename_i m
    have rotated := sameCounts_getPool system m
    split at stepped
    · rename_i result
      cases stepped
      rw [result] at rotated
      exact rotated
    · rename_i p after result
      cases stepped
      rw [result] at rotated
      exact rotated.trans (sameCounts_of_managers (usePool_managers after p))
  · exact sameCounts_of_managers (releasePool_managers stepped)
  · cases stepped
    exact sameCounts_getConn _ _
  · cases stepped
    exact (confined_addConn _ _ _).sameCounts
  · exact (keeps trivial).elim
  · exact (keeps trivial).elim
  · cases stepped
    exact sameCounts_of_managers (poolGetConn_managers _ _)
  · cases stepped
    exact sameCounts_of_managers (poolAddConn_managers _ _ _)
  · cases stepped
    exact sameCounts_of_managers (poolDelConn_managers _ _ _)
  · rename_i report conn fresh
    cases report with
    | onConnected => exact wellFormed.sameCounts_onConnected stepped
    | onDisconnected => exact (keeps trivial).elim

end ConnSystem

end DBWrapper
