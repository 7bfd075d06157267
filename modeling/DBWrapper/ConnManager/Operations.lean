import DBWrapper.ConnManager.Effects

/-!
# The operations as sequences of changes

Only `add_conn(info)`, `del_conn(info)` and the polls of the service discovery
change the targets of a manager.  Everything else, with all that a report may
trigger, leaves them alone.
-/

namespace DBWrapper

open Foundation

namespace ConnSystem

variable {permits : Permits}

theorem effects_poolAddConn
    (system : ConnSystem) (p : Address) (info : ConnInfo) :
    Effects permits system (system.poolAddConn p info) := by
  simp only [poolAddConn]
  split
  · exact .refl
  · rename_i pool live
    have recorded : Effect permits system
        (system.setPool p (pool.record (.addConn info))) :=
      .pool live (.addConn info) (fun _ held => .inl held)
        (.inr fun _ held => held)
    have created : Effect permits
        (system.setPool p (pool.record (.addConn info)))
        { system.setPool p (pool.record (.addConn info)) with
          conns := system.conns ++ [pool.newConn info] } := by
      apply @Effect.conn _ _ p (pool.record (.addConn info))
      rw [setPool_pools, if_pos rfl]
    exact .tail (.single recorded) created

theorem effects_poolDelConn
    (allowed : permits.removes) (system : ConnSystem) (p : Address)
    (info : ConnInfo) :
    Effects permits system (system.poolDelConn p info) := by
  simp only [poolDelConn]
  split
  · exact .refl
  · rename_i pool live
    exact .single
      (.pool live (.delConn info)
        (fun _ held => .inl (ConnPool.holds_of_delConn held)) (.inl allowed))

theorem effects_poolGetConn (system : ConnSystem) (p : Address) :
    Effects permits system (system.poolGetConn p).2 := by
  simp only [poolGetConn]
  split
  · exact .refl
  · rename_i pool live
    apply Relation.ReflTransGen.single
    apply Effect.pool live .getConn
    · intro conn held
      exact .inl ((pool.holds_getConn_iff conn).mp held)
    · exact .inr fun conn held => (pool.holds_getConn_iff conn).mpr held

theorem effects_foldl
    {Element : Type} {operation : ConnSystem → Element → ConnSystem}
    (each : ∀ system element, Effects permits system (operation system element))
    (list : List Element) (system : ConnSystem) :
    Effects permits system (list.foldl operation system) := by
  induction list generalizing system with
  | nil => exact .refl
  | cons element list induction =>
      exact (each system element).trans (induction (operation system element))

theorem effects_addConn
    {m : Address} (allowed : permits.targets m) (system : ConnSystem)
    (info : ConnInfo) :
    Effects permits system (system.addConn m info) := by
  simp only [addConn]
  split
  · exact .refl
  · rename_i manager found
    have first : Effect permits system
        (system.setManager m
          { manager with infoList := manager.infoList ++ [info] }) :=
      .targets allowed found
    exact Relation.ReflTransGen.head first
      (effects_foldl (fun system p => effects_poolAddConn system p info) _ _)

theorem effects_delConn
    {m : Address} (allowed : permits.targets m) (removes : permits.removes)
    (system : ConnSystem) (info : ConnInfo) :
    Effects permits system (system.delConn m info) := by
  simp only [delConn]
  split
  · exact .refl
  · rename_i manager found
    have first : Effect permits system
        (system.setManager m
          { manager with
            infoList := manager.infoList.filter fun other => !other.beq info }) :=
      .targets allowed found
    exact Relation.ReflTransGen.head first
      (effects_foldl
        (fun system p => effects_poolDelConn removes system p info) _ _)

theorem effects_getPool (system : ConnSystem) (m : Address) :
    Effects permits system (system.getPool m).2 := by
  simp only [getPool]
  split
  · exact .refl
  · rename_i manager found
    apply Relation.ReflTransGen.single
    apply Effect.poolList found
    · intro p listed
      exact (mem_rotateList _ p).mp listed
    · intro distinct
      rw [rotateList_eq]
      exact List.nodup_rotate.mpr distinct

theorem effects_usePool (system : ConnSystem) (p : Address) :
    Effects permits system (system.usePool p) := by
  simp only [usePool]
  split
  · exact .refl
  · rename_i pool live
    exact .single
      (.pool live (.users _) (fun _ held => .inl held) (.inr fun _ held => held))

theorem effects_getConn (system : ConnSystem) (m : Address) :
    Effects permits system (system.getConn m).2 := by
  have rotated := @effects_getPool permits system m
  simp only [getConn]
  split
  · rename_i after result
    rw [result] at rotated
    exact rotated
  · rename_i p after result
    rw [result] at rotated
    exact rotated.trans (effects_poolGetConn after p)

/-! ### Destroying pools -/

theorem dropPool_managers (system : ConnSystem) (p : Address) :
    (system.dropPool p).managers = system.managers := by
  simp only [dropPool]
  split
  · rfl
  · split <;> rfl

theorem effects_dropPool
    {system : ConnSystem} {p : Address} (unlisted : system.Unlisted p) :
    Effects permits system (system.dropPool p) := by
  simp only [dropPool]
  split
  · exact .refl
  · rename_i pool live
    split
    · exact .single (.destroyPool live unlisted)
    · exact .refl

theorem effects_foldl_dropPool
    {system : ConnSystem} {removed : List Address}
    (unlisted : ∀ p ∈ removed, system.Unlisted p) :
    Effects permits system (removed.foldl dropPool system) := by
  induction removed generalizing system with
  | nil => exact .refl
  | cons p removed induction =>
      have first := @effects_dropPool permits system p
        (unlisted p List.mem_cons_self)
      apply first.trans
      apply induction
      intro q listed m manager found
      rw [dropPool_managers] at found
      exact unlisted q (List.mem_cons_of_mem _ listed) m manager found

/-- A pool that `del_pool` has taken out of the list of its manager is in no
list at all. -/
theorem WellFormed.unlisted_of_removed
    {system : ConnSystem} (wellFormed : WellFormed system)
    {m : Address} {manager : ConnManager}
    (found : system.managers m = some manager) {id : Id} {p : Address}
    (removed : p ∈ manager.poolList.filter (system.hasId id)) :
    (system.setManager m
      { manager with
        poolList :=
          manager.poolList.filter fun p => !system.hasId id p }).Unlisted p := by
  obtain ⟨listed, matches_⟩ := List.mem_filter.mp removed
  obtain ⟨pool, live, creator⟩ := wellFormed.listed found listed
  intro n current currentFound stillListed
  rw [setManager_managers] at currentFound
  split at currentFound
  · cases currentFound
    have kept := (List.mem_filter.mp stillListed).2
    rw [matches_] at kept
    cases kept
  · rename_i other
    obtain ⟨again, againLive, againCreator⟩ :=
      wellFormed.listed currentFound stillListed
    rw [live] at againLive
    cases againLive
    exact other (againCreator.symm.trans creator)

theorem effects_delPool
    {system : ConnSystem} (wellFormed : WellFormed system)
    (m : Address) (id : Id) :
    Effects permits system (system.delPool m id) := by
  simp only [delPool]
  split
  · exact .refl
  · rename_i manager found
    have first : Effect permits system
        (system.setManager m
          { manager with
            poolList :=
              manager.poolList.filter fun p => !system.hasId id p }) :=
      .poolList found (List.filter_subset_self _) (fun distinct => distinct.filter _)
    exact Relation.ReflTransGen.head first
      (effects_foldl_dropPool
        (fun p removed => wellFormed.unlisted_of_removed found removed))

theorem effects_releasePool
    {system next : ConnSystem} {p : Address} (wellFormed : WellFormed system)
    (released : system.releasePool p = some next) :
    Effects permits system next := by
  simp only [releasePool] at released
  split at released
  · cases released
  · rename_i pool live
    split at released
    · cases released
    · split at released
      · cases released
      · rename_i manager found
        split at released
        · cases released
          exact .single
            (.pool live (.users 0) (fun _ held => .inl held)
              (.inr fun _ held => held))
        · rename_i absent
          cases released
          apply Relation.ReflTransGen.single
          apply Effect.destroyPool live
          intro m other otherFound listed
          obtain ⟨again, againLive, creator⟩ :=
            wellFormed.listed otherFound listed
          rw [live] at againLive
          cases againLive
          rw [creator, otherFound] at found
          cases found
          exact absent listed
    · cases released
      exact .single
        (.pool live (.users _) (fun _ held => .inl held)
          (.inr fun _ held => held))

/-! ### Reports of pools -/

theorem poolTopics_ne : poolIncTopic ≠ poolDecTopic := by
  decide

/-- What a manager has registered for `POOL_INC` is its own handler. -/
theorem WellFormed.managerBus_poolInc
    {system : ConnSystem} (wellFormed : WellFormed system) {id : Id}
    {invoker : Invoker Address ManagerHandler}
    (found : system.managerBus.call poolIncTopic id = some invoker) :
    ∃ m manager, system.managers m = some manager ∧ manager.poolIncId = id ∧
      invoker = manager.incInvoker m := by
  obtain ⟨listed, topic, sameId⟩ := MessageBus.of_call_eq_some found
  obtain ⟨m, manager, managerFound, rfl | rfl⟩ :=
    (wellFormed.managerInvokers invoker).mp listed
  · exact ⟨m, manager, managerFound, sameId, rfl⟩
  · exact (poolTopics_ne topic.symm).elim

theorem WellFormed.managerBus_poolDec
    {system : ConnSystem} (wellFormed : WellFormed system) {id : Id}
    {invoker : Invoker Address ManagerHandler}
    (found : system.managerBus.call poolDecTopic id = some invoker) :
    ∃ m manager, system.managers m = some manager ∧ manager.poolDecId = id ∧
      invoker = manager.decInvoker m := by
  obtain ⟨listed, topic, sameId⟩ := MessageBus.of_call_eq_some found
  obtain ⟨m, manager, managerFound, rfl | rfl⟩ :=
    (wellFormed.managerInvokers invoker).mp listed
  · exact (poolTopics_ne topic).elim
  · exact ⟨m, manager, managerFound, sameId, rfl⟩

/-- A `POOL_INC` report does nothing, or it adds one pool. -/
theorem WellFormed.callManagerBus_poolInc
    {system next : ConnSystem} (wellFormed : WellFormed system)
    {p : Address} {id : Id} {fresh : Allocation}
    (called : system.callManagerBus poolIncTopic p id fresh = some next) :
    next = system ∨
      ∃ m manager, system.managers m = some manager ∧ manager.poolIncId = id ∧
        system.addPool m fresh = some next := by
  simp only [callManagerBus] at called
  split at called
  · cases called
    exact .inl rfl
  · rename_i invoker found
    obtain ⟨m, manager, managerFound, sameId, rfl⟩ :=
      wellFormed.managerBus_poolInc found
    simp only [ConnManager.incInvoker, onPoolInc] at called
    split at called
    · split at called
      · cases called
        exact .inl rfl
      · exact .inr ⟨m, manager, managerFound, sameId, called⟩
    · cases called

/-- A `POOL_DEC` report does nothing, or it makes one manager delete the
pool. -/
theorem WellFormed.callManagerBus_poolDec
    {system next : ConnSystem} (wellFormed : WellFormed system)
    {p : Address} {id : Id} {fresh : Allocation}
    (called : system.callManagerBus poolDecTopic p id fresh = some next) :
    next = system ∨
      ∃ m manager, system.managers m = some manager ∧ manager.poolDecId = id ∧
        system.onPoolDec m p = some next := by
  simp only [callManagerBus] at called
  split at called
  · cases called
    exact .inl rfl
  · rename_i invoker found
    obtain ⟨m, manager, managerFound, sameId, rfl⟩ :=
      wellFormed.managerBus_poolDec found
    exact .inr ⟨m, manager, managerFound, sameId, called⟩

/-- A manager that a `POOL_INC` report makes add a pool is the one that
`extendingManager` names. -/
theorem WellFormed.addPool_of_poolInc
    {system next : ConnSystem} (wellFormed : WellFormed system)
    {p : Address} {pool : ConnPool} {fresh : Allocation}
    (live : system.pools p = some pool) (empty : pool.size = 0)
    (called :
      system.callManagerBus poolIncTopic p pool.poolIncId fresh = some next) :
    next = system ∨
      ∃ m, system.extendingManager p = some m ∧
        system.addPool m fresh = some next := by
  simp only [callManagerBus] at called
  split at called
  · cases called
    exact .inl rfl
  · rename_i invoker found
    obtain ⟨m, manager, managerFound, _, rfl⟩ :=
      wellFormed.managerBus_poolInc found
    simp only [ConnManager.incInvoker, onPoolInc, managerFound, live]
      at called
    split at called
    · cases called
      exact .inl rfl
    · rename_i absent
      refine .inr ⟨m, ?_, called⟩
      apply extendingManager_eq_some_iff.mpr
      exact ⟨pool, _, manager, live, empty, found, rfl, managerFound, absent⟩

theorem effects_onPoolDec
    {system next : ConnSystem} {m p : Address} (wellFormed : WellFormed system)
    (handled : system.onPoolDec m p = some next) :
    Effects permits system next := by
  unfold onPoolDec at handled
  split at handled
  · cases handled
  · rename_i pool live
    have deleted := @effects_delPool permits system wellFormed m pool.id
    dsimp only at handled
    split at handled
    · cases handled
    · rename_i manager found
      split at handled
      · cases handled
        exact .tail deleted
          (.poolList found (List.Subset.refl _) id)
      · cases handled
        exact deleted

/-! ### Reports of connections -/

theorem connTopics_ne : connIncTopic ≠ connDecTopic := by
  decide

theorem WellFormed.connBus_connInc
    {system : ConnSystem} (wellFormed : WellFormed system) {id : Id}
    {invoker : Invoker Address ConnHandler}
    (found : system.connBus.call connIncTopic id = some invoker) :
    ∃ p pool, system.pools p = some pool ∧ invoker = pool.incInvoker p := by
  obtain ⟨listed, topic, _⟩ := MessageBus.of_call_eq_some found
  obtain ⟨p, pool, live, rfl | rfl⟩ :=
    (wellFormed.connInvokers invoker).mp listed
  · exact ⟨p, pool, live, rfl⟩
  · exact (connTopics_ne topic.symm).elim

theorem WellFormed.connBus_connDec
    {system : ConnSystem} (wellFormed : WellFormed system) {id : Id}
    {invoker : Invoker Address ConnHandler}
    (found : system.connBus.call connDecTopic id = some invoker) :
    ∃ p pool, system.pools p = some pool ∧ invoker = pool.decInvoker p := by
  obtain ⟨listed, topic, _⟩ := MessageBus.of_call_eq_some found
  obtain ⟨p, pool, live, rfl | rfl⟩ :=
    (wellFormed.connInvokers invoker).mp listed
  · exact (connTopics_ne topic).elim
  · exact ⟨p, pool, live, rfl⟩

/-- A `CONN_INC` report does nothing, or it runs the handler of the pool that
registered the id. -/
theorem WellFormed.callConnBus_connInc
    {system next : ConnSystem} (wellFormed : WellFormed system)
    {conn : Address} {dbConn : DBConn} {id : Id} {fresh : Allocation}
    (called : system.callConnBus connIncTopic conn dbConn id fresh = some next) :
    next = system ∨
      ∃ p pool, system.pools p = some pool ∧
        system.connBus.call connIncTopic id = some (pool.incInvoker p) ∧
        system.onConnInc p conn dbConn fresh = some next := by
  simp only [callConnBus] at called
  split at called
  · cases called
    exact .inl rfl
  · rename_i invoker found
    obtain ⟨p, pool, live, rfl⟩ := wellFormed.connBus_connInc found
    exact .inr ⟨p, pool, live, found, called⟩

theorem WellFormed.callConnBus_connDec
    {system next : ConnSystem} (wellFormed : WellFormed system)
    {conn : Address} {dbConn : DBConn} {id : Id} {fresh : Allocation}
    (called : system.callConnBus connDecTopic conn dbConn id fresh = some next) :
    next = system ∨
      ∃ p pool, system.pools p = some pool ∧
        system.connBus.call connDecTopic id = some (pool.decInvoker p) ∧
        system.onConnDec p conn dbConn fresh = some next := by
  simp only [callConnBus] at called
  split at called
  · cases called
    exact .inl rfl
  · rename_i invoker found
    obtain ⟨p, pool, live, rfl⟩ := wellFormed.connBus_connDec found
    exact .inr ⟨p, pool, live, found, called⟩

theorem effects_insertConn
    {system next : ConnSystem} {p conn : Address} {dbConn : DBConn}
    (allowed : permits.inserts p conn)
    (known : system.conns[conn]? = some dbConn)
    (inserted : system.insertConn p conn dbConn = some next) :
    Effects permits system next := by
  simp only [insertConn] at inserted
  split at inserted
  · cases inserted
  · rename_i pool live
    cases inserted
    apply Relation.ReflTransGen.single
    apply Effect.pool live (.addConnPtr known)
    · intro other held
      rcases (pool.holds_addConnPtr_iff conn other dbConn.info).mp held with
        earlier | rfl
      · exact .inl earlier
      · exact .inr allowed
    · exact .inr fun other held =>
        (pool.holds_addConnPtr_iff conn other dbConn.info).mpr (.inl held)

theorem effects_onConnDec
    {system next : ConnSystem} {p conn : Address} {dbConn : DBConn}
    {fresh : Allocation} (allowed : permits.removes)
    (wellFormed : WellFormed system)
    (known : system.conns[conn]? = some dbConn)
    (handled : system.onConnDec p conn dbConn fresh = some next) :
    Effects permits system next := by
  unfold onConnDec at handled
  split at handled
  · cases handled
  · rename_i pool live
    have removed : Effects permits system
        (system.setPool p (pool.delConnPtr conn dbConn.info)) :=
      .single
        (.pool live (.delConnPtr known)
          (fun _ held => .inl (ConnPool.holds_of_delConnPtr held))
          (.inl allowed))
    split at handled
    · dsimp only at handled
      split at handled
      · have afterRemoval := removed.wellFormed wellFormed
        rcases afterRemoval.callManagerBus_poolDec handled with
          rfl | ⟨m, manager, _, _, deleted⟩
        · exact removed
        · exact removed.trans (effects_onPoolDec afterRemoval deleted)
      · cases handled
        exact removed
    · cases handled
      exact .refl

theorem Change.conns_isPrefix
    {targets : Address → Prop} {system next : ConnSystem}
    (change : Change targets system next) : system.conns <+: next.conns := by
  cases change with
  | conn conn => exact List.prefix_append _ _
  | addPool added =>
      obtain ⟨manager, _, _, rfl⟩ := addPool_eq_some_iff.mp added
      exact List.prefix_append _ _
  | _ => exact List.prefix_refl _

/-- Connections stay where they are. -/
theorem Changes.conns_isPrefix
    {targets : Address → Prop} {system next : ConnSystem}
    (changes : Changes targets system next) : system.conns <+: next.conns := by
  induction changes with
  | refl => exact List.prefix_refl _
  | tail _ change induction => exact induction.trans change.conns_isPrefix

theorem getElem?_of_isPrefix
    {conns more : Conns} (extends_ : conns <+: more) {conn : Address}
    {dbConn : DBConn} (known : conns[conn]? = some dbConn) :
    more[conn]? = some dbConn := by
  obtain ⟨added, rfl⟩ := extends_
  have inRange := (List.getElem?_eq_some_iff.mp known).1
  rw [List.getElem?_append_left inRange, known]

theorem effects_onConnInc
    {system next : ConnSystem} {p conn : Address} {dbConn : DBConn}
    {pool : ConnPool} {fresh : Allocation} (wellFormed : WellFormed system)
    (known : system.conns[conn]? = some dbConn)
    (live : system.pools p = some pool)
    (routed : system.connBus.call connIncTopic dbConn.connIncId =
      some (pool.incInvoker p))
    (handled : system.onConnInc p conn dbConn fresh = some next) :
    Effects (permitted system (.report .onConnected conn fresh)) system
      next := by
  simp only [onConnInc, live] at handled
  split at handled
  · rename_i index
    have accepts : system.acceptingPool conn = some p := by
      apply acceptingPool_eq_some_iff.mpr
      exact ⟨dbConn, _, pool, known, routed, rfl, live, index⟩
    have allowed : (permitted system (.report .onConnected conn fresh)).inserts
        p conn := ⟨⟨fresh, rfl⟩, accepts⟩
    split at handled
    · rename_i empty
      split at handled
      · cases handled
      · rename_i middle called
        rcases wellFormed.addPool_of_poolInc live empty called with
          rfl | ⟨m, extending, added⟩
        · exact effects_insertConn allowed known handled
        · have nested : Effects
              (permitted system (.report .onConnected conn fresh)) system
              middle := by
            apply Relation.ReflTransGen.single
            apply Effect.addPool _ added
            refine ⟨rfl, ?_, rfl⟩
            simp only [addingManager, accepts]
            exact extending
          have stillKnown :=
            getElem?_of_isPrefix nested.changes.conns_isPrefix known
          exact nested.trans (effects_insertConn allowed stillKnown handled)
    · exact effects_insertConn allowed known handled
  · cases handled
    exact .refl

theorem effects_report
    {system next : ConnSystem} {report : Report} {conn : Address}
    {fresh : Allocation} (wellFormed : WellFormed system)
    (reported : system.report report conn fresh = some next) :
    Effects (permitted system (.report report conn fresh)) system next := by
  simp only [ConnSystem.report] at reported
  split at reported
  · cases reported
  · rename_i dbConn known
    split at reported
    · rcases wellFormed.callConnBus_connInc reported with
        rfl | ⟨p, pool, live, routed, handled⟩
      · exact .refl
      · exact effects_onConnInc wellFormed known live routed handled
    · rcases wellFormed.callConnBus_connDec reported with
        rfl | ⟨p, pool, _, _, handled⟩
      · exact .refl
      · exact effects_onConnDec trivial wellFormed known handled

/-! ### Service discovery -/

theorem effects_setConnList
    {m : Address} (allowed : permits.targets m) (system : ConnSystem)
    (connList : ConnList) :
    Effects permits system (system.setConnList m connList) := by
  simp only [setConnList]
  split
  · exact .refl
  · rename_i manager found
    exact .single (.targets allowed found)

theorem effects_getConnInfo
    {m : Address} (allowed : permits.targets m) (removes : permits.removes)
    (system : ConnSystem) (tmplist : ConnList) :
    Effects permits system (system.getConnInfo m tmplist) := by
  have discovered : ∀ system tmp, Effects permits system (discover m system tmp) := by
    intro system tmp
    simp only [discover]
    split
    · exact .refl
    · exact (effects_addConn allowed system tmp).trans
        (effects_setConnList allowed _ _)
  have forgotten : ∀ system tmp,
      Effects permits system (forget m tmplist system tmp) := by
    intro system tmp
    simp only [forget]
    split
    · exact .refl
    · exact (effects_delConn allowed removes system tmp).trans
        (effects_setConnList allowed _ _)
  simp only [getConnInfo]
  exact (effects_foldl discovered _ _).trans (effects_foldl forgotten _ _)

theorem effects_step
    {system next : ConnSystem} {action : ConnAction}
    (wellFormed : WellFormed system)
    (stepped : step system action = some next) :
    Effects (permitted system action) system next := by
  cases action with
  | newManager m =>
      simp only [step] at stepped
      split at stepped
      · rename_i absent
        cases stepped
        exact .single (.newManager absent)
      · cases stepped
  | addPool m fresh =>
      exact .single (.addPool ⟨rfl, rfl, rfl⟩ stepped)
  | delPool m id =>
      cases stepped
      exact effects_delPool wellFormed m id
  | getPool m =>
      have rotated := @effects_getPool (permitted system (.getPool m)) system m
      simp only [step] at stepped
      split at stepped
      · rename_i after result
        rw [result] at rotated
        cases stepped
        exact rotated
      · rename_i p after result
        rw [result] at rotated
        cases stepped
        exact rotated.trans (effects_usePool after p)
  | releasePool p => exact effects_releasePool wellFormed stepped
  | getConn m =>
      cases stepped
      exact effects_getConn system m
  | addConn m info =>
      cases stepped
      exact @effects_addConn (permitted system (.addConn m info)) m rfl system
        info
  | delConn m info =>
      cases stepped
      exact @effects_delConn (permitted system (.delConn m info)) m rfl
        trivial system info
  | getConnInfo m polled =>
      cases stepped
      exact @effects_getConnInfo (permitted system (.getConnInfo m polled)) m
        rfl trivial system polled
  | poolGetConn p =>
      cases stepped
      exact effects_poolGetConn system p
  | poolAddConn p info =>
      cases stepped
      exact effects_poolAddConn system p info
  | poolDelConn p info =>
      cases stepped
      exact effects_poolDelConn trivial system p info
  | report report conn fresh => exact effects_report wellFormed stepped

theorem changes_step
    {system next : ConnSystem} {action : ConnAction}
    (wellFormed : WellFormed system)
    (stepped : step system action = some next) :
    Changes (setsTargets action) system next :=
  (effects_step wellFormed stepped).changes

theorem wellFormed_run
    {actions : List ConnAction} {system : ConnSystem}
    (ran : run step start actions = some system) : WellFormed system :=
  run_invariant
    (fun _ _ _ wellFormed stepped =>
      wellFormed.changes (changes_step wellFormed stepped))
    wellFormed_start ran

/-- An invariant of the elementary changes of well-formed systems holds in
every state of every run. -/
theorem run_invariant_of_change
    {Invariant : ConnSystem → Prop}
    (preserved : ∀ {targets : Address → Prop} {system next : ConnSystem},
      WellFormed system → Invariant system → Change targets system next →
        Invariant next)
    (initial : Invariant start)
    {actions : List ConnAction} {system : ConnSystem}
    (ran : run step start actions = some system) : Invariant system := by
  have both : WellFormed system ∧ Invariant system := by
    apply run_invariant _ ⟨wellFormed_start, initial⟩ ran
    intro before action next holds stepped
    apply (changes_step holds.1 stepped).invariant _ holds
    intro system next holds change
    exact ⟨holds.1.change change, preserved holds.1 holds.2 change⟩
  exact both.2

/-- What an invariant demands of the effects of one action may depend on the
state before it. -/
theorem invariant_step
    {Invariant : ConnSystem → Prop} {system next : ConnSystem}
    {action : ConnAction} (wellFormed : WellFormed system)
    (preserved : ∀ current after, WellFormed current → Invariant current →
      Effect (permitted system action) current after → Invariant after)
    (holds : Invariant system)
    (stepped : step system action = some next) : Invariant next :=
  (effects_step wellFormed stepped).invariant preserved wellFormed holds

end ConnSystem

end DBWrapper
