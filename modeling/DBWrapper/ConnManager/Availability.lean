import DBWrapper.ConnManager.Fairness
import DBWrapper.ConnManager.Stamping

/-!
# When `get_conn` has a connection to hand out

`get_conn` asks only the pool in front, and the rotation brings every pool of
the list there.  So a manager that has a connection hands one out, now and in
the calls to come, exactly if none of its pools is empty.  `CONN_DEC` removes
a pool that has become empty, but `add_pool` appends an empty one, and
`del_conn(info)` leaves pools empty where they are.
-/

namespace DBWrapper

open Foundation

/-- All elements of the list have the property, or none has it. -/
def AllOrNoneOf {Element : Type} (list : List Element)
    (property : Element → Prop) : Prop :=
  (∀ element ∈ list, property element) ∨ ∀ element ∈ list, ¬ property element

theorem AllOrNoneOf.congr
    {Element : Type} {list other : List Element}
    {property otherProperty : Element → Prop}
    (holds : AllOrNoneOf list property) (subset : other ⊆ list)
    (same : ∀ element ∈ other, (otherProperty element ↔ property element)) :
    AllOrNoneOf other otherProperty := by
  rcases holds with all | none_
  · left
    intro element listed
    exact (same element listed).mpr (all element (subset listed))
  · right
    intro element listed
    rw [same element listed]
    exact none_ element (subset listed)

namespace ConnSystem

/-- The pool at the address holds a connection. -/
def HoldsSome (system : ConnSystem) (p : Address) : Prop :=
  ∃ pool conn, system.pools p = some pool ∧ pool.Holds conn

/-- A manager with a connection in one of its pools hands one out, now and
after any number of further calls. -/
def HandsOut (system : ConnSystem) : Prop :=
  ∀ m manager, system.managers m = some manager →
    (∃ p ∈ manager.poolList, system.HoldsSome p) →
      ∀ calls, ((system.afterGetConn m calls).getConn m).1 ≠ none

/-- No manager has both a pool with connections and one without. -/
def AllOrNone (system : ConnSystem) : Prop :=
  ∀ m manager, system.managers m = some manager →
    AllOrNoneOf manager.poolList system.HoldsSome

theorem holdsSome_iff
    {system : ConnSystem} {p : Address} {pool : ConnPool}
    (live : system.pools p = some pool) :
    system.HoldsSome p ↔ ∃ conn, pool.Holds conn := by
  simp [HoldsSome, live]

theorem holdsSome_iff_servingList (system : ConnSystem) (p : Address) :
    system.HoldsSome p ↔ system.servingList p ≠ [] := by
  simp only [HoldsSome, servingList]
  cases system.pools p with
  | none => simp
  | some pool => simp [pool.serving_ne_nil_iff]

theorem WellFormed.handsOut_iff
    {system : ConnSystem} (wellFormed : WellFormed system) :
    HandsOut system ↔ AllOrNone system := by
  have answer : ∀ {m manager calls p}, system.managers m = some manager →
      manager.poolList[calls % manager.poolList.length]? = some p →
        (((system.afterGetConn m calls).getConn m).1 = none ↔
          ¬ system.HoldsSome p) := by
    intro m manager calls p found turn
    have serves := wellFormed.servesFrom found
    have lists : (manager.poolList.map system.servingList)[
        calls % (manager.poolList.map system.servingList).length]? =
          some (system.servingList p) := by
      simp [turn]
    rw [(serves.afterGetConn calls).getConn.1, serve_served_eq_none_iff lists,
      holdsSome_iff_servingList, not_not]
  constructor
  · intro handsOut m manager found
    by_cases some_ : ∃ p ∈ manager.poolList, system.HoldsSome p
    · left
      intro p listed
      obtain ⟨calls, inRange, atPlace⟩ := List.getElem_of_mem listed
      have turn : manager.poolList[calls % manager.poolList.length]? =
          some p := by
        rw [Nat.mod_eq_of_lt inRange, List.getElem?_eq_getElem inRange, atPlace]
      by_contra empty
      exact handsOut m manager found some_ calls
        ((answer found turn).mpr empty)
    · right
      intro p listed holds
      exact some_ ⟨p, listed, holds⟩
  · intro allOrNone m manager found some_ calls nothing
    obtain ⟨p, listed, holds⟩ := some_
    have inRange : calls % manager.poolList.length < manager.poolList.length :=
      Nat.mod_lt _ (List.length_pos_of_mem listed)
    have turn := List.getElem?_eq_getElem inRange
    have empty := (answer found turn).mp nothing
    rcases allOrNone m manager found with all | none_
    · exact empty (all _ (List.getElem_mem inRange))
    · exact none_ p listed holds

/-! ### Changes that keep every listed pool as it is -/

/-- The lists of the managers have not grown, and every pool in them holds a
connection exactly if it held one before. -/
def Quiet (system next : ConnSystem) : Prop :=
  ∀ m after, next.managers m = some after →
    (after.poolList = [] ∨ ∃ manager, system.managers m = some manager ∧
      after.poolList ⊆ manager.poolList) ∧
    ∀ p ∈ after.poolList, (next.HoldsSome p ↔ system.HoldsSome p)

theorem AllOrNone.quiet
    {system next : ConnSystem} (allOrNone : AllOrNone system)
    (quiet : Quiet system next) : AllOrNone next := by
  intro m after found
  obtain ⟨list, same⟩ := quiet m after found
  rcases list with empty | ⟨manager, before, subset⟩
  · left
    simp [empty]
  · exact (allOrNone m manager before).congr subset same

theorem holdsSome_setPool
    (system : ConnSystem) (p q : Address) (other : ConnPool) :
    (system.setPool p other).HoldsSome q ↔
      if q = p then ∃ conn, other.Holds conn else system.HoldsSome q := by
  simp only [HoldsSome, setPool_pools]
  split <;> simp

/-- Effects that bring no connection in, take none out and add no pool. -/
theorem Quiet.effect
    {permits : Permits} (noInserts : ∀ p conn, ¬ permits.inserts p conn)
    (noRemoves : ¬ permits.removes)
    (noPools : ∀ system m fresh, ¬ permits.addsPool system m fresh)
    {system current next : ConnSystem} (quiet : Quiet system current)
    (effect : Effect permits current next) : Quiet system next := by
  intro m after found
  cases effect with
  | @pool p pool other live change inserted removed =>
      obtain ⟨list, same⟩ := quiet m after found
      refine ⟨list, ?_⟩
      intro q listed
      rw [← same q listed, holdsSome_setPool]
      split
      · rename_i here
        subst here
        rw [holdsSome_iff live]
        have kept := removed.resolve_left noRemoves
        constructor
        · intro holds
          obtain ⟨conn, held⟩ := holds
          exact ⟨conn, (inserted conn held).resolve_right
            (noInserts _ conn)⟩
        · intro holds
          obtain ⟨conn, held⟩ := holds
          exact ⟨conn, kept conn held⟩
      · exact Iff.rfl
  | conn live info => exact quiet m after found
  | @poolList n manager poolList unavailable before subset distinct =>
      rw [setManager_managers] at found
      split at found
      · rename_i here
        cases found
        rw [here]
        obtain ⟨list, same⟩ := quiet n manager before
        refine ⟨?_, fun p listed => same p (subset listed)⟩
        rcases list with empty | ⟨earlier, known, subsetEarlier⟩
        · left
          exact List.eq_nil_of_subset_nil (empty ▸ subset)
        · right
          exact ⟨earlier, known, fun p listed =>
            subsetEarlier (subset listed)⟩
      · exact quiet m after found
  | @targets n manager infoList connList allowed before =>
      rw [setManager_managers] at found
      split at found
      · rename_i here
        cases found
        rw [here]
        exact quiet n manager before
      · exact quiet m after found
  | addPool allowed added => exact (noPools _ _ _ allowed).elim
  | @destroyPool p pool live unlisted =>
      obtain ⟨list, same⟩ := quiet m after found
      refine ⟨list, ?_⟩
      intro q listed
      have other : q ≠ p := by
        intro equal
        subst equal
        exact unlisted m after found listed
      rw [← same q listed]
      simp only [HoldsSome, destroyPool_pools, if_neg other]
  | @newManager n absent =>
      by_cases here : m = n
      · subst here
        simp only [ConnSystem.newManager, ConnSystem.setManager,
          Function.update_self, Option.some.injEq] at found
        subst found
        simp
      · apply quiet m after
        simpa [ConnSystem.newManager, ConnSystem.setManager, here]
          using found

theorem Effects.quiet
    {permits : Permits} (noInserts : ∀ p conn, ¬ permits.inserts p conn)
    (noRemoves : ¬ permits.removes)
    (noPools : ∀ system m fresh, ¬ permits.addsPool system m fresh)
    {system next : ConnSystem} (effects : Effects permits system next) :
    Quiet system next := by
  induction effects with
  | refl =>
      intro m manager found
      exact ⟨.inr ⟨manager, found, List.Subset.refl _⟩, fun _ _ => Iff.rfl⟩
  | tail _ effect induction =>
      exact induction.effect noInserts noRemoves noPools effect

/-! ### Deleting a target -/

/-- The pool holds a connection to another target. -/
def KeepsOther (system : ConnSystem) (info : ConnInfo) (p : Address) : Prop :=
  ∃ pool conn dbConn, system.pools p = some pool ∧ pool.Holds conn ∧
    system.conns[conn]? = some dbConn ∧ dbConn.info ≠ info

theorem foldl_poolDelConn
    {list : List Address} (distinct : list.Nodup) (system : ConnSystem)
    (info : ConnInfo) :
    list.foldl (fun system p => system.poolDelConn p info) system =
      { system with
        pools := fun q =>
          if q ∈ list then
            (system.pools q).map (fun pool => pool.delConn system.conns info)
          else
            system.pools q } := by
  induction list generalizing system with
  | nil => simp
  | cons p list induction =>
      obtain ⟨absent, distinctRest⟩ := List.nodup_cons.mp distinct
      have first : system.poolDelConn p info =
          { system with
            pools := fun q =>
              if q = p then
                (system.pools q).map (fun pool => pool.delConn system.conns info)
              else
                system.pools q } := by
        simp only [poolDelConn]
        cases live : system.pools p with
        | none =>
            have same : (fun q =>
                if q = p then
                  (system.pools q).map
                    (fun pool => pool.delConn system.conns info)
                else
                  system.pools q) = system.pools := by
              funext q
              split
              · rename_i here
                rw [here, live]
                rfl
              · rfl
            rw [same]
        | some pool =>
            simp only [setPool]
            congr 1
            funext q
            rw [Function.update_apply]
            split
            · rename_i here
              rw [here, live]
              rfl
            · rfl
      rw [List.foldl_cons, induction distinctRest, first]
      congr 1
      funext q
      by_cases here : q = p
      · subst here
        simp [absent]
      · simp [here]

theorem delConn_eq
    {system : ConnSystem} {m : Address} {manager : ConnManager}
    (found : system.managers m = some manager)
    (distinct : manager.poolList.Nodup) (info : ConnInfo) :
    system.delConn m info =
      { system.setManager m
          { manager with
            infoList := manager.infoList.filter fun other => !other.beq info } with
        pools := fun q =>
          if q ∈ manager.poolList then
            (system.pools q).map (fun pool => pool.delConn system.conns info)
          else
            system.pools q } := by
  simp only [delConn, found]
  exact foldl_poolDelConn distinct _ info

theorem holds_delConn_iff
    {conns : Conns} {pool : ConnPool} (follows : pool.Follows conns)
    (info : ConnInfo) (conn : Address) :
    (pool.delConn conns info).Holds conn ↔
      pool.Holds conn ∧
        ∃ dbConn, conns[conn]? = some dbConn ∧ dbConn.info ≠ info := by
  constructor
  · intro held
    have before := ConnPool.holds_of_delConn held
    have inRange : conn < List.length conns := follows.heldExist conn before
    have known : conns[conn]? = some conns[conn] :=
      List.getElem?_eq_getElem inRange
    refine ⟨before, conns[conn], known, ?_⟩
    rw [(follows.delConn info).holds_iff known, ConnPool.events_delConn,
      ConnPool.lastInc_append_singleton] at held
    rcases held with reported | ⟨_, notDeleted⟩
    · cases reported
    · intro same
      exact notDeleted (.inr (congrArg PoolEvent.delConn same.symm))
  · intro holds
    obtain ⟨before, dbConn, known, different⟩ := holds
    rw [(follows.delConn info).holds_iff known, ConnPool.events_delConn,
      ConnPool.lastInc_append_singleton, ← follows.holds_iff known]
    exact .inr ⟨before, by simpa [eq_comm] using different⟩

theorem holdsSome_delConn
    {system : ConnSystem} {m : Address} {manager : ConnManager}
    (found : system.managers m = some manager)
    (distinct : manager.poolList.Nodup) (follow : PoolsFollow system)
    (info : ConnInfo) (p : Address) :
    (system.delConn m info).HoldsSome p ↔
      if p ∈ manager.poolList then system.KeepsOther info p
      else system.HoldsSome p := by
  rw [delConn_eq found distinct]
  simp only [HoldsSome, KeepsOther]
  split
  · cases live : system.pools p with
    | none => simp
    | some pool => simp [holds_delConn_iff (follow p pool live)]
  · exact Iff.rfl

/-! ### Reports -/

theorem Routed.call_poolInc
    {system : ConnSystem} (routed : Routed system)
    (wellFormed : WellFormed system) {m : Address} {manager : ConnManager}
    (found : system.managers m = some manager) :
    system.managerBus.call poolIncTopic manager.poolIncId =
      some (manager.incInvoker m) := by
  rw [routed.managerBus.call_eq_some_iff, ← routed.managerBus.mem_invokers]
  exact ⟨(wellFormed.managerInvokers _).mpr ⟨m, manager, found, .inl rfl⟩,
    rfl, rfl⟩

theorem Routed.call_poolDec
    {system : ConnSystem} (routed : Routed system)
    (wellFormed : WellFormed system) {m : Address} {manager : ConnManager}
    (found : system.managers m = some manager) :
    system.managerBus.call poolDecTopic manager.poolDecId =
      some (manager.decInvoker m) := by
  rw [routed.managerBus.call_eq_some_iff, ← routed.managerBus.mem_invokers]
  exact ⟨(wellFormed.managerInvokers _).mpr ⟨m, manager, found, .inr rfl⟩,
    rfl, rfl⟩

/-- The test of the `POOL_INC` handler asks whether the pool is listed. -/
theorem Routed.any_hasId_iff
    {system : ConnSystem} (routed : Routed system)
    (wellFormed : WellFormed system) {p m : Address} {pool : ConnPool}
    {manager : ConnManager} (live : system.pools p = some pool)
    (found : system.managers m = some manager) :
    manager.poolList.any (system.hasId pool.id) = true ↔
      p ∈ manager.poolList := by
  rw [List.any_eq_true]
  constructor
  · intro listed
    obtain ⟨q, qListed, sameId⟩ := listed
    obtain ⟨other, otherLive, _⟩ := wellFormed.listed found qListed
    simp only [hasId, otherLive, beq_iff_eq] at sameId
    rw [routed.poolIdsDistinct live otherLive sameId.symm]
    exact qListed
  · intro listed
    exact ⟨p, listed, by simp [hasId, live]⟩

/-- What a `CONN_INC` report does: it is dropped, it brings the connection
into a pool, or it first makes the manager add another pool. -/
inductive Connects (system : ConnSystem) (conn : Address)
    (fresh : Allocation) : ConnSystem → Prop where
  | dropped (notAccepted : system.acceptingPool conn = none) :
      Connects system conn fresh system
  | entered {p : Address} {pool : ConnPool} {dbConn : DBConn}
      {manager : ConnManager} (accepts : system.acceptingPool conn = some p)
      (live : system.pools p = some pool)
      (known : system.conns[conn]? = some dbConn)
      (created : system.managers pool.creator = some manager)
      (listed : pool.size = 0 → p ∈ manager.poolList) :
      Connects system conn fresh
        (system.setPool p (pool.addConnPtr conn dbConn.info))
  | extended {p : Address} {pool : ConnPool} {dbConn : DBConn}
      {manager : ConnManager} (accepts : system.acceptingPool conn = some p)
      (live : system.pools p = some pool)
      (known : system.conns[conn]? = some dbConn)
      (created : system.managers pool.creator = some manager)
      (empty : pool.size = 0) (unlisted : p ∉ manager.poolList)
      (free : system.pools fresh.address = none) :
      Connects system conn fresh
        ((system.withPool pool.creator manager fresh).setPool p
          (pool.addConnPtr conn dbConn.info))

theorem Routed.connects
    {system next : ConnSystem} (routed : Routed system)
    (wellFormed : WellFormed system) {conn : Address} {fresh : Allocation}
    (reported : system.report .onConnected conn fresh = some next) :
    Connects system conn fresh next := by
  cases accepts : system.acceptingPool conn with
  | none =>
      have unchanged := wellFormed.report_of_unaccepted accepts reported
      rw [unchanged]
      exact .dropped accepts
  | some p =>
      obtain ⟨dbConn, invoker, pool, known, called, isInc, live, index⟩ :=
        acceptingPool_eq_some_iff.mp accepts
      obtain ⟨manager, created, incId, _⟩ := wellFormed.created live
      simp only [ConnSystem.report, known, callConnBus, called, isInc,
        onConnInc, live, index, if_true] at reported
      split at reported
      · rename_i empty
        have extend := routed.call_poolInc wellFormed created
        rw [← incId] at extend
        simp only [callManagerBus, extend, ConnManager.incInvoker, onPoolInc,
          created, live, routed.any_hasId_iff wellFormed live created]
          at reported
        split at reported
        · cases reported
        · rename_i middle added
          split at added
          · rename_i listed
            cases added
            simp only [insertConn, live, Option.some.injEq] at reported
            subst reported
            exact .entered accepts live known created (fun _ => listed)
          · rename_i unlisted
            have stillLive := addPool_pools added live
            obtain ⟨found, foundManager, free, rfl⟩ :=
              addPool_eq_some_iff.mp added
            rw [created] at foundManager
            cases foundManager
            simp only [insertConn, stillLive, Option.some.injEq] at reported
            subst reported
            exact .extended accepts live known created empty unlisted free
      · rename_i notEmpty
        simp only [insertConn, live, Option.some.injEq] at reported
        subst reported
        exact .entered accepts live known created
          (fun empty => (notEmpty empty).elim)

theorem size_eq_zero_iff (pool : ConnPool) :
    pool.size = 0 ↔ ¬ ∃ conn, pool.Holds conn := by
  simp only [ConnPool.size, ConnPool.Holds, Nat.add_eq_zero_iff,
    List.length_eq_zero_iff, List.eq_nil_iff_forall_not_mem, not_exists,
    not_or, forall_and]

/-- A `POOL_DEC` report takes the pool out of the list. -/
theorem unlisted_of_onPoolDec
    {system next : ConnSystem} (wellFormed : WellFormed system)
    {p : Address} {pool : ConnPool} (live : system.pools p = some pool)
    (handled : system.onPoolDec pool.creator p = some next) :
    next.Unlisted p := by
  intro m manager found listed
  have nextWell := (@effects_onPoolDec
    { targets := fun _ => True, inserts := fun _ _ => True, removes := True,
      addsPool := fun _ _ _ => True } _ _ _ _ wellFormed handled).wellFormed
    wellFormed
  obtain ⟨after, afterLive, isCreator⟩ := nextWell.listed found listed
  have before := onPoolDec_pools handled afterLive
  rw [live] at before
  cases before
  subst isCreator
  simp only [onPoolDec, live] at handled
  obtain ⟨owner, ownerFound, _⟩ := wellFormed.created live
  have deleted := delPool_managers_self ownerFound pool.id
  rw [deleted] at handled
  simp only at handled
  have gone : p ∉ owner.poolList.filter fun q => !system.hasId pool.id q := by
    simp [hasId, live]
  split at handled
  · cases handled
    rw [setManager_managers, if_pos rfl] at found
    cases found
    exact gone listed
  · cases handled
    rw [deleted] at found
    cases found
    exact gone listed

/-- A `CONN_DEC` report leaves no empty pool in a list. -/
theorem Routed.quiet_onDisconnected
    {system next : ConnSystem} (routed : Routed system)
    (wellFormed : WellFormed system) {conn : Address} {fresh : Allocation}
    (reported : system.report .onDisconnected conn fresh = some next) :
    Quiet system next := by
  have unchanged : Quiet system system := by
    intro m manager found
    exact ⟨.inr ⟨manager, found, List.Subset.refl _⟩, fun _ _ => Iff.rfl⟩
  simp only [ConnSystem.report] at reported
  split at reported
  · cases reported
  · rename_i dbConn known
    rcases wellFormed.callConnBus_connDec reported with
      rfl | ⟨p, pool, live, called, handled⟩
    · exact unchanged
    · simp only [onConnDec, live] at handled
      split at handled
      · have same := ConnPool.sameIdentity_delConnPtr pool conn dbConn.info
        have middleWell := wellFormed.setPool live same
        have middleLive : (system.setPool p
            (pool.delConnPtr conn dbConn.info)).pools p =
              some (pool.delConnPtr conn dbConn.info) := by
          rw [setPool_pools, if_pos rfl]
        split at handled
        · rename_i empty
          obtain ⟨manager, created, _, decId⟩ := wellFormed.created live
          have delete : (system.setPool p
              (pool.delConnPtr conn dbConn.info)).managerBus.call poolDecTopic
                (pool.delConnPtr conn dbConn.info).poolDecId =
                  some (manager.decInvoker pool.creator) := by
            rw [same.poolDecId, decId]
            exact routed.call_poolDec wellFormed created
          simp only [callManagerBus, delete, ConnManager.decInvoker] at handled
          rw [← same.creator] at handled
          have unlisted := unlisted_of_onPoolDec middleWell middleLive handled
          have quiet := @Effects.quiet
            { targets := fun _ => False, inserts := fun _ _ => False,
              removes := False, addsPool := fun _ _ _ => False }
            (fun _ _ => id) id (fun _ _ _ => id) _ _
            (effects_onPoolDec middleWell handled)
          intro m after found
          obtain ⟨list, kept⟩ := quiet m after found
          refine ⟨list, ?_⟩
          intro q listed
          have other : q ≠ p := by
            intro equal
            subst equal
            exact unlisted m after found listed
          rw [kept q listed, holdsSome_setPool, if_neg other]
        · rename_i notEmpty
          cases handled
          have stillHolds := not_not.mp (mt (size_eq_zero_iff _).mpr notEmpty)
          have heldBefore : ∃ conn, pool.Holds conn := by
            obtain ⟨other, held⟩ := stillHolds
            exact ⟨other, ConnPool.holds_of_delConnPtr held⟩
          intro m after found
          refine ⟨.inr ⟨after, found, List.Subset.refl _⟩, ?_⟩
          intro q listed
          rw [holdsSome_setPool]
          split
          · rename_i here
            subst here
            rw [holdsSome_iff live]
            exact iff_of_true stillHolds heldBefore
          · exact Iff.rfl
      · cases handled
        exact unchanged

/-! ### Steps -/

/-- The operations of the managers, and the reports.  What a poll of the
service discovery forgets, and what a pool is told directly to delete, is
left out. -/
def Offered : ConnAction → Prop
  | .getConnInfo _ _ | .poolDelConn _ _ => False
  | _ => True

/-- The action does not bring pools with and without connections together in
one list: a pool is added only next to empty ones, a target is deleted only if
every listed pool keeps another connection or none does, and the first
connection of a pool comes up only if the pool is alone in its list, or is not
in the list and all in the list are empty. -/
def StaysAllOrNone (system : ConnSystem) : ConnAction → Prop
  | .addPool m _ =>
      ∀ manager, system.managers m = some manager →
        ∀ p ∈ manager.poolList, ¬ system.HoldsSome p
  | .delConn m info =>
      ∀ manager, system.managers m = some manager →
        AllOrNoneOf manager.poolList (system.KeepsOther info)
  | .report .onConnected conn _ =>
      ∀ p pool manager, system.acceptingPool conn = some p →
        system.pools p = some pool → pool.size = 0 →
        system.managers pool.creator = some manager →
          (p ∈ manager.poolList → ∀ q ∈ manager.poolList, q = p) ∧
          (p ∉ manager.poolList →
            ∀ q ∈ manager.poolList, ¬ system.HoldsSome q)
  | _ => True

theorem holdsSome_withPool
    {system : ConnSystem} {m : Address} {manager : ConnManager}
    {fresh : Allocation} (free : system.pools fresh.address = none)
    (p : Address) :
    (system.withPool m manager fresh).HoldsSome p ↔ system.HoldsSome p := by
  simp only [HoldsSome, withPool_pools]
  split
  · rename_i here
    rw [here, free]
    simp [addedPool, ConnPool.construct, ConnPool.Holds]
  · exact Iff.rfl

/-- Of a list to which a pool without connections has been appended, none
holds one. -/
theorem allOrNoneOf_append_iff
    {Element : Type} {list : List Element} {last : Element}
    {property : Element → Prop} (lacks : ¬ property last) :
    AllOrNoneOf (list ++ [last]) property ↔
      ∀ element ∈ list, ¬ property element := by
  constructor
  · intro either element listed holds
    rcases either with all | none_
    · exact lacks (all last (by simp))
    · exact none_ element (by simp [listed]) holds
  · intro none_
    right
    intro element listed
    rcases List.mem_append.mp listed with earlier | isLast
    · exact none_ element earlier
    · rw [List.mem_singleton.mp isLast]
      exact lacks

theorem allOrNone_withPool_iff
    {system : ConnSystem} {m : Address} {manager : ConnManager}
    {fresh : Allocation} (allOrNone : AllOrNone system)
    (free : system.pools fresh.address = none) :
    AllOrNone (system.withPool m manager fresh) ↔
      ∀ p ∈ manager.poolList, ¬ system.HoldsSome p := by
  have lacks : ¬ system.HoldsSome fresh.address := by
    simp [HoldsSome, free]
  have same : (system.withPool m manager fresh).HoldsSome =
      system.HoldsSome := by
    funext p
    exact propext (holdsSome_withPool free p)
  simp only [AllOrNone, same]
  constructor
  · intro all
    have own := all m _ (by rw [withPool_managers, if_pos rfl])
    exact (allOrNoneOf_append_iff lacks).mp own
  · intro none_ n after found
    rw [withPool_managers] at found
    split at found
    · cases found
      exact (allOrNoneOf_append_iff lacks).mpr none_
    · exact allOrNone n after found

/-- A pool that is in no list does not matter. -/
theorem allOrNone_setPool_of_unlisted
    {system : ConnSystem} {p : Address} (unlisted : system.Unlisted p)
    (other : ConnPool) :
    AllOrNone (system.setPool p other) ↔ AllOrNone system := by
  have same : ∀ {m manager}, system.managers m = some manager →
      ∀ q ∈ manager.poolList,
        ((system.setPool p other).HoldsSome q ↔ system.HoldsSome q) := by
    intro m manager found q listed
    have different : q ≠ p := by
      intro equal
      subst equal
      exact unlisted m manager found listed
    rw [holdsSome_setPool, if_neg different]
  constructor
  · intro all m manager found
    apply (all m manager found).congr (List.Subset.refl _)
    intro q listed
    exact (same found q listed).symm
  · intro all m manager found
    exact (all m manager found).congr (List.Subset.refl _) (same found)

theorem WellFormed.eq_of_listed
    {system : ConnSystem} (wellFormed : WellFormed system)
    {m : Address} {manager : ConnManager} {p : Address} {pool : ConnPool}
    (live : system.pools p = some pool)
    (found : system.managers m = some manager)
    (listed : p ∈ manager.poolList) : m = pool.creator := by
  obtain ⟨other, otherLive, isCreator⟩ := wellFormed.listed found listed
  rw [live] at otherLive
  cases otherLive
  exact isCreator.symm

theorem allOrNone_delConn_iff
    {system : ConnSystem} (wellFormed : WellFormed system)
    (follow : PoolsFollow system) (allOrNone : AllOrNone system)
    (m : Address) (info : ConnInfo) :
    AllOrNone (system.delConn m info) ↔
      ∀ manager, system.managers m = some manager →
        AllOrNoneOf manager.poolList (system.KeepsOther info) := by
  cases found : system.managers m with
  | none =>
      have unchanged : system.delConn m info = system := by
        simp [delConn, found]
      rw [unchanged]
      exact iff_of_true allOrNone (by simp)
  | some manager =>
      have distinct := wellFormed.distinct found
      have holds := holdsSome_delConn found distinct follow info
      have managers : ∀ n, (system.delConn m info).managers n =
          if n = m then
            some
              { manager with
                infoList :=
                  manager.infoList.filter fun other => !other.beq info }
          else
            system.managers n := by
        intro n
        rw [delConn_eq found distinct]
        exact setManager_managers _ _ _ _
      constructor
      · intro all other same
        cases same
        have own := all m _ ((managers m).trans (if_pos rfl))
        apply own.congr (List.Subset.refl _)
        intro p listed
        rw [holds, if_pos listed]
      · intro keeps n after afterFound
        rw [managers] at afterFound
        split at afterFound
        · cases afterFound
          apply (keeps manager rfl).congr (List.Subset.refl _)
          intro p listed
          rw [holds, if_pos listed]
        · rename_i different
          apply (allOrNone n after afterFound).congr (List.Subset.refl _)
          intro p listed
          obtain ⟨pool, live, _⟩ := wellFormed.listed afterFound listed
          have notHere : p ∉ manager.poolList := by
            intro here
            exact different ((wellFormed.eq_of_listed live afterFound listed).trans
              (wellFormed.eq_of_listed live found here).symm)
          rw [holds, if_neg notHere]

theorem holdsSome_addConnPtr_iff
    (system : ConnSystem) (p q conn : Address) (pool : ConnPool)
    (info : ConnInfo) :
    (system.setPool p (pool.addConnPtr conn info)).HoldsSome q ↔
      q = p ∨ system.HoldsSome q := by
  have holdsNow : ∃ other, (pool.addConnPtr conn info).Holds other :=
    ⟨conn, (pool.holds_addConnPtr_iff conn conn info).mpr (.inr rfl)⟩
  rw [holdsSome_setPool]
  split
  · rename_i here
    simp [here, holdsNow]
  · rename_i different
    simp [different]

/-- A connection that enters a listed pool does harm only as the first one of
its pool, next to other pools. -/
theorem allOrNone_addConnPtr_iff
    {system : ConnSystem} (wellFormed : WellFormed system)
    (allOrNone : AllOrNone system) {p conn : Address} {pool : ConnPool}
    {info : ConnInfo} {manager : ConnManager}
    (live : system.pools p = some pool)
    (created : system.managers pool.creator = some manager)
    (listed : pool.size = 0 → p ∈ manager.poolList) :
    AllOrNone (system.setPool p (pool.addConnPtr conn info)) ↔
      (pool.size = 0 → ∀ q ∈ manager.poolList, q = p) := by
  have holds := fun q => holdsSome_addConnPtr_iff system p q conn pool info
  constructor
  · intro all empty q qListed
    have lacks : ¬ system.HoldsSome p := by
      rw [holdsSome_iff live]
      exact (size_eq_zero_iff pool).mp empty
    rcases all _ _ created with allHold | noneHold
    · rcases (holds q).mp (allHold q qListed) with same | before
      · exact same
      · rcases allOrNone _ _ created with allBefore | noneBefore
        · exact (lacks (allBefore p (listed empty))).elim
        · exact (noneBefore q qListed before).elim
    · exact (noneHold p (listed empty) ((holds p).mpr (.inl rfl))).elim
  · intro alone m after found
    by_cases empty : pool.size = 0
    · by_cases isCreator : m = pool.creator
      · subst isCreator
        change system.managers pool.creator = some after at found
        rw [created] at found
        cases found
        left
        intro q qListed
        exact (holds q).mpr (.inl (alone empty q qListed))
      · apply (allOrNone m after found).congr (List.Subset.refl _)
        intro q qListed
        have different : q ≠ p := by
          intro equal
          subst equal
          exact isCreator (wellFormed.eq_of_listed live found qListed)
        rw [holds]
        simp [different]
    · apply (allOrNone m after found).congr (List.Subset.refl _)
      intro q qListed
      rw [holds, or_iff_right_iff_imp]
      intro here
      subst here
      rw [holdsSome_iff live]
      exact not_not.mp (mt (size_eq_zero_iff pool).mpr empty)

/-- What is asked of a report that a pool accepts. -/
theorem staysAllOrNone_report_iff
    {system : ConnSystem} {p conn : Address} {pool : ConnPool}
    {manager : ConnManager} {fresh : Allocation}
    (accepts : system.acceptingPool conn = some p)
    (live : system.pools p = some pool)
    (created : system.managers pool.creator = some manager) :
    StaysAllOrNone system (.report .onConnected conn fresh) ↔
      (pool.size = 0 →
        (p ∈ manager.poolList → ∀ q ∈ manager.poolList, q = p) ∧
        (p ∉ manager.poolList →
          ∀ q ∈ manager.poolList, ¬ system.HoldsSome q)) := by
  constructor
  · intro stays empty
    exact stays p pool manager accepts live empty created
  · intro guard other otherPool owner otherAccepts otherLive empty owns
    rw [accepts] at otherAccepts
    cases otherAccepts
    rw [live] at otherLive
    cases otherLive
    rw [created] at owns
    cases owns
    exact guard empty

theorem allOrNone_connects_iff
    {system next : ConnSystem} (wellFormed : WellFormed system)
    (allOrNone : AllOrNone system) {conn : Address} {fresh : Allocation}
    (connects : Connects system conn fresh next) :
    AllOrNone next ↔
      StaysAllOrNone system (.report .onConnected conn fresh) := by
  cases connects with
  | dropped notAccepted => simp [StaysAllOrNone, notAccepted, allOrNone]
  | @entered p pool dbConn manager accepts live known created listed =>
      rw [staysAllOrNone_report_iff accepts live created,
        allOrNone_addConnPtr_iff wellFormed allOrNone live created listed]
      constructor
      · intro alone empty
        exact ⟨fun _ => alone empty, fun unlisted =>
          (unlisted (listed empty)).elim⟩
      · intro guard empty
        exact (guard empty).1 (listed empty)
  | @extended p pool dbConn manager accepts live known created empty unlisted
      free =>
      have different : p ≠ fresh.address := by
        intro equal
        subst equal
        rw [free] at live
        cases live
      have nowhere :
          (system.withPool pool.creator manager fresh).Unlisted p := by
        intro m after found listed
        rw [withPool_managers] at found
        split at found
        · cases found
          simp only [List.mem_append, List.mem_singleton] at listed
          exact listed.elim unlisted different
        · rename_i notCreator
          exact notCreator (wellFormed.eq_of_listed live found listed)
      rw [staysAllOrNone_report_iff accepts live created,
        allOrNone_setPool_of_unlisted nowhere,
        allOrNone_withPool_iff allOrNone free]
      constructor
      · intro noneHold _
        exact ⟨fun listed => (unlisted listed).elim, fun _ => noneHold⟩
      · intro guard
        exact (guard empty).2 unlisted

/-- One step. -/
theorem allOrNone_step_iff
    {system next : ConnSystem} {action : ConnAction}
    (wellFormed : WellFormed system) (routed : Routed system)
    (follow : PoolsFollow system) (allOrNone : AllOrNone system)
    (offered : Offered action)
    (stepped : step system action = some next) :
    AllOrNone next ↔ StaysAllOrNone system action := by
  have quiet : (∀ conn fresh, action ≠ .report .onConnected conn fresh) →
      ¬ removesConns action → system.addingManager action = none →
        AllOrNone next := by
    intro notConnected noRemoves noPool
    apply allOrNone.quiet
    apply Effects.quiet _ _ _ (effects_step wellFormed stepped)
    · intro p conn allowed
      obtain ⟨⟨fresh, isReport⟩, _⟩ := allowed
      exact notConnected conn fresh isReport
    · exact noRemoves
    · intro current m fresh allowed
      rw [permitted] at allowed
      rw [noPool] at allowed
      cases allowed.2.1
  cases action with
  | addPool m fresh =>
      obtain ⟨manager, found, free, rfl⟩ := addPool_eq_some_iff.mp stepped
      rw [allOrNone_withPool_iff allOrNone free]
      simp [StaysAllOrNone, found]
  | delConn m info =>
      cases stepped
      exact allOrNone_delConn_iff wellFormed follow allOrNone m info
  | report report conn fresh =>
      cases report with
      | onConnected =>
          exact allOrNone_connects_iff wellFormed allOrNone
            (routed.connects wellFormed stepped)
      | onDisconnected =>
          have kept := allOrNone.quiet
            (routed.quiet_onDisconnected wellFormed stepped)
          exact iff_of_true kept trivial
  | getConnInfo m polled => cases offered
  | poolDelConn p info => cases offered
  | _ => exact iff_of_true (quiet (by simp) id rfl) trivial

/-! ### Runs -/

/-- In a run without repeated ids every manager that has a connection hands
one out, in every state and however often `get_conn` is called from there,
exactly if no step brings pools with and without connections together. -/
theorem getConn_handsOut_iff
    {actions : List ConnAction} {system : ConnSystem}
    (ran : run step start actions = some system)
    (bound : system.center.drawn ≤ 2 ^ 32)
    (offered : ∀ action ∈ actions, Offered action) :
    (∀ state, Visits step start actions state → HandsOut state) ↔
      AllSteps step StaysAllOrNone start actions := by
  have known : ∀ {state}, Visits step start actions state →
      WellFormed state ∧ Routed state ∧ PoolsFollow state := by
    intro state visits
    obtain ⟨wellFormed, _, routed⟩ := routed_of_visits ran bound visits
    obtain ⟨before, _, _, reached⟩ := visits
    exact ⟨wellFormed, routed, poolsFollow_run reached⟩
  constructor
  · intro handsOut
    apply allSteps_of_visits _ ran
    intro state action next listed visits visitsNext stepped
    obtain ⟨wellFormed, routed, follow⟩ := known visits
    have before := wellFormed.handsOut_iff.mp (handsOut state visits)
    have after := (known visitsNext).1.handsOut_iff.mp
      (handsOut next visitsNext)
    exact (allOrNone_step_iff wellFormed routed follow before
      (offered action listed) stepped).mp after
  · intro stays state visits
    apply (known visits).1.handsOut_iff.mpr
    have invariant : (WellFormed state ∧ Routed state ∧ PoolsFollow state) ∧
        AllOrNone state := by
      apply visits_invariant_of_allSteps _ _
        (stays.and (allSteps_mem step start actions)) ran visits
      · intro before action next visitsNext holds here stepped
        obtain ⟨⟨wellFormed, routed, follow⟩, allOrNone⟩ := holds
        refine ⟨known visitsNext, ?_⟩
        exact (allOrNone_step_iff wellFormed routed follow allOrNone
          (offered action here.2) stepped).mpr here.1
      · refine ⟨known (visits_start step start actions), ?_⟩
        intro m manager found
        cases found
    exact invariant.2

/-- One pool, one target, and `get_conn` after the connection has come up. -/
theorem getConn_handsOut_iff_onePool :
    ∃ system,
      run step start
          [.newManager 0, .addPool 0 ⟨7, 0⟩, .addConn 0 ⟨"", "", "", "", 0⟩,
            .report .onConnected 0 ⟨8, 0⟩] = some system ∧
        HandsOut system := by
  refine ⟨_, rfl, ?_⟩
  apply (@getConn_handsOut_iff
    [.newManager 0, .addPool 0 ⟨7, 0⟩, .addConn 0 ⟨"", "", "", "", 0⟩,
      .report .onConnected 0 ⟨8, 0⟩] _ rfl (by decide) (by simp [Offered])).mpr
  · apply allSteps_cons trivial rfl
    apply allSteps_cons _ rfl
    · apply allSteps_cons trivial rfl
      refine ⟨?_, fun _ _ => trivial⟩
      intro p pool manager accepts live empty created
      cases accepts
      cases live
      cases created
      refine ⟨?_, fun absent => (absent List.mem_cons_self).elim⟩
      intro _ q listed
      exact List.mem_singleton.mp listed
    · intro manager found p listed
      cases found
      cases listed
  · exact visits_of_run rfl

/-- With a second pool that is still empty, and with a pool emptied by
`del_conn(info)`, the manager holds a connection and hands out none. -/
theorem getConn_handsOutNone :
    (∃ system manager,
      run step start
          [.newManager 0, .addPool 0 ⟨7, 0⟩, .addConn 0 ⟨"", "", "", "", 0⟩,
            .report .onConnected 0 ⟨8, 0⟩, .addPool 0 ⟨8, 0⟩, .getConn 0] =
          some system ∧
        system.managers 0 = some manager ∧
        (∃ p ∈ manager.poolList, system.HoldsSome p) ∧
        (system.getConn 0).1 = none) ∧
    ∃ system manager,
      run step start
          [.newManager 0, .addPool 0 ⟨7, 0⟩, .addPool 0 ⟨8, 0⟩,
            .addConn 0 ⟨"", "", "", "", 0⟩, .addConn 0 ⟨"", "", "", "", 1⟩,
            .report .onConnected 0 ⟨9, 0⟩, .report .onConnected 3 ⟨9, 0⟩,
            .delConn 0 ⟨"", "", "", "", 0⟩] = some system ∧
        system.managers 0 = some manager ∧
        (∃ p ∈ manager.poolList, system.HoldsSome p) ∧
        (system.getConn 0).1 = none := by
  constructor
  · exact ⟨_, _, rfl, rfl, ⟨7, by decide, _, 0, rfl, .inl (by decide)⟩, rfl⟩
  · exact ⟨_, _, rfl, rfl, ⟨8, by decide, _, 3, rfl, .inr (by decide)⟩, rfl⟩

end ConnSystem

end DBWrapper
