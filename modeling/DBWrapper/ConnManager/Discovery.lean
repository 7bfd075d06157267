import Mathlib.Data.List.Count
import DBWrapper.ConnManager.Operations

/-!
# Service discovery

A poll compares the polled set with `_conn_list` and tells the manager what
has appeared and what has disappeared; the manager keeps `infoList` and passes
the news on to its pools.  As long as polls are the only source of targets the
three copies agree, and every pool hears of every change once.
-/

namespace DBWrapper

open Foundation

namespace ConnSystem

/-- The targets of the manager have been replaced, and each of its pools has
received the calls. -/
structure Told (system : ConnSystem) (m : Address) (manager : ConnManager)
    (infoList : List ConnInfo) (connList : ConnList) (told : List PoolEvent)
    (next : ConnSystem) : Prop where
  replaced : next.managers m = some { manager with infoList, connList }
  pools : ∀ p ∈ manager.poolList, ∀ pool, system.pools p = some pool →
    ∃ after, next.pools p = some after ∧ after.events = pool.events ++ told

theorem Told.refl
    {system : ConnSystem} {m : Address} {manager : ConnManager}
    (found : system.managers m = some manager) :
    Told system m manager manager.infoList manager.connList [] system := by
  constructor
  · exact found
  · intro p _ pool live
    exact ⟨pool, live, by simp⟩

theorem Told.trans
    {system middle final : ConnSystem} {m : Address} {manager : ConnManager}
    {infoList infoList' : List ConnInfo} {connList connList' : ConnList}
    {told told' : List PoolEvent}
    (first : Told system m manager infoList connList told middle)
    (second : Told middle m { manager with infoList, connList } infoList'
      connList' told' final) :
    Told system m manager infoList' connList' (told ++ told') final := by
  constructor
  · exact second.replaced
  · intro p listed pool live
    obtain ⟨between, betweenLive, betweenEvents⟩ :=
      first.pools p listed pool live
    obtain ⟨after, afterLive, afterEvents⟩ :=
      second.pools p listed between betweenLive
    refine ⟨after, afterLive, ?_⟩
    rw [afterEvents, betweenEvents, List.append_assoc]

/-! ### One target -/

theorem poolAddConn_managers
    (system : ConnSystem) (p : Address) (info : ConnInfo) :
    (system.poolAddConn p info).managers = system.managers := by
  simp only [poolAddConn]
  split <;> rfl

theorem poolDelConn_managers
    (system : ConnSystem) (p : Address) (info : ConnInfo) :
    (system.poolDelConn p info).managers = system.managers := by
  simp only [poolDelConn]
  split <;> rfl

theorem poolAddConn_pools_of_ne
    (system : ConnSystem) {p q : Address} (info : ConnInfo)
    (different : q ≠ p) :
    (system.poolAddConn p info).pools q = system.pools q := by
  simp only [poolAddConn]
  split
  · rfl
  · simp only [setPool_pools, if_neg different]

theorem poolDelConn_pools_of_ne
    (system : ConnSystem) {p q : Address} (info : ConnInfo)
    (different : q ≠ p) :
    (system.poolDelConn p info).pools q = system.pools q := by
  simp only [poolDelConn]
  split
  · rfl
  · simp only [setPool_pools, if_neg different]

/-- A loop over the pools that makes one call to each of them. -/
theorem foldl_pools
    {operation : ConnSystem → Address → ConnSystem} {event : PoolEvent}
    (managers : ∀ system p, (operation system p).managers = system.managers)
    (others : ∀ system p q, q ≠ p →
      (operation system p).pools q = system.pools q)
    (own : ∀ system p pool, system.pools p = some pool →
      ∃ after, (operation system p).pools p = some after ∧
        after.events = pool.events ++ [event])
    {poolList : List Address} (distinct : poolList.Nodup)
    (system : ConnSystem) :
    (poolList.foldl operation system).managers = system.managers ∧
      (∀ q, q ∉ poolList →
        (poolList.foldl operation system).pools q = system.pools q) ∧
      ∀ p ∈ poolList, ∀ pool, system.pools p = some pool →
        ∃ after, (poolList.foldl operation system).pools p = some after ∧
          after.events = pool.events ++ [event] := by
  induction poolList generalizing system with
  | nil => simp
  | cons first rest induction =>
      obtain ⟨absent, distinctRest⟩ := List.nodup_cons.mp distinct
      obtain ⟨sameManagers, notListed, listedOnes⟩ :=
        induction distinctRest (operation system first)
      refine ⟨sameManagers.trans (managers system first), ?_, ?_⟩
      · intro q notIn
        rw [List.mem_cons, not_or] at notIn
        rw [List.foldl_cons, notListed q notIn.2, others _ _ _ notIn.1]
      · intro p listed pool live
        rw [List.foldl_cons]
        by_cases here : p = first
        · subst here
          rw [notListed p absent]
          exact own system p pool live
        · have later : p ∈ rest := (List.mem_cons.mp listed).resolve_left here
          apply listedOnes p later pool
          rw [others _ _ _ here, live]

theorem told_addConn
    {system : ConnSystem} {m : Address} {manager : ConnManager}
    (found : system.managers m = some manager)
    (distinct : manager.poolList.Nodup) (info : ConnInfo) :
    Told system m manager (manager.infoList ++ [info]) manager.connList
      [.addConn info] (system.addConn m info) := by
  have loop := @foldl_pools (fun system p => system.poolAddConn p info)
    (.addConn info)
    (fun system p => poolAddConn_managers system p info)
    (fun system _ _ different =>
      poolAddConn_pools_of_ne system info different)
    (by
      intro system p pool live
      refine ⟨pool.record (.addConn info), ?_, rfl⟩
      simp only [poolAddConn, live, setPool_pools, if_true])
    manager.poolList distinct
  simp only [addConn, found]
  constructor
  · rw [(loop _).1, setManager_managers, if_pos rfl]
  · intro p listed pool live
    exact (loop _).2.2 p listed pool live

theorem told_delConn
    {system : ConnSystem} {m : Address} {manager : ConnManager}
    (found : system.managers m = some manager)
    (distinct : manager.poolList.Nodup) (info : ConnInfo) :
    Told system m manager
      (manager.infoList.filter fun other => !other.beq info) manager.connList
      [.delConn info] (system.delConn m info) := by
  have loop := @foldl_pools (fun system p => system.poolDelConn p info)
    (.delConn info)
    (fun system p => poolDelConn_managers system p info)
    (fun system _ _ different =>
      poolDelConn_pools_of_ne system info different)
    (by
      intro system p pool live
      refine ⟨pool.delConn system.conns info, ?_, ?_⟩
      · simp only [poolDelConn, live, setPool_pools, if_true]
      · exact ConnPool.events_delConn _ _ _)
    manager.poolList distinct
  simp only [delConn, found]
  constructor
  · rw [(loop _).1, setManager_managers, if_pos rfl]
  · intro p listed pool live
    exact (loop _).2.2 p listed pool live

theorem told_setConnList
    {system : ConnSystem} {m : Address} {manager : ConnManager}
    (found : system.managers m = some manager) (connList : ConnList) :
    Told system m manager manager.infoList connList []
      (system.setConnList m connList) := by
  simp only [setConnList, found]
  constructor
  · rw [setManager_managers, if_pos rfl]
  · intro p _ pool live
    exact ⟨pool, live, by simp⟩

theorem connList_eq
    {system : ConnSystem} {m : Address} {manager : ConnManager}
    (found : system.managers m = some manager) :
    system.connList m = manager.connList := by
  simp [connList, found]

/-! ### The two loops -/

/-- The first loop adds what is new, in the order of the set. -/
theorem told_foldl_discover
    {system : ConnSystem} {m : Address} {manager : ConnManager}
    (found : system.managers m = some manager)
    (distinct : manager.poolList.Nodup)
    {tmps : List ConnInfo} (distinctTmps : tmps.Nodup) :
    ∃ connList,
      Told system m manager
        (manager.infoList ++
          tmps.filter fun tmp => !manager.connList.contains tmp)
        connList
        ((tmps.filter fun tmp => !manager.connList.contains tmp).map .addConn)
        (tmps.foldl (discover m) system) ∧
      ∀ info, info ∈ connList ↔ info ∈ manager.connList ∨ info ∈ tmps := by
  induction tmps generalizing system manager with
  | nil => exact ⟨manager.connList, by simpa using Told.refl found, by simp⟩
  | cons tmp tmps induction =>
      obtain ⟨absent, distinctRest⟩ := List.nodup_cons.mp distinctTmps
      rw [List.foldl_cons]
      cases present : manager.connList.contains tmp with
      | true =>
          have unchanged : discover m system tmp = system := by
            simp [discover, connList_eq found, present]
          obtain ⟨connList, told, members⟩ :=
            induction found distinct distinctRest
          refine ⟨connList, ?_, ?_⟩
          · rw [unchanged, List.filter_cons_of_neg (by simp [present])]
            exact told
          · intro info
            rw [members, List.mem_cons]
            have isMember : tmp ∈ manager.connList := present
            constructor
            · intro either
              rcases either with old | later
              · exact .inl old
              · exact .inr (.inr later)
            · intro either
              rcases either with old | rfl | later
              · exact .inl old
              · exact .inl isMember
              · exact .inr later
      | false =>
          have added := told_addConn found distinct tmp
          have inserted := told_setConnList added.replaced
            (manager.connList.insert tmp)
          have here : discover m system tmp =
              (system.addConn m tmp).setConnList m
                (manager.connList.insert tmp) := by
            simp [discover, connList_eq found, present,
              connList_eq added.replaced]
          have both := added.trans inserted
          obtain ⟨connList, told, members⟩ :=
            induction both.replaced distinct distinctRest
          have sameNews :
              tmps.filter (fun other =>
                !(manager.connList.insert tmp).contains other) =
              tmps.filter fun other => !manager.connList.contains other := by
            apply List.filter_congr
            intro other listed
            have different : tmp ≠ other := by
              intro equal
              subst equal
              exact absent listed
            simp [Std.TreeSet.contains_insert, different]
          refine ⟨connList, ?_, ?_⟩
          · rw [here, List.filter_cons_of_pos (by simp [present])]
            have whole := both.trans told
            simp only [sameNews] at whole
            simpa using whole
          · intro info
            rw [members, List.mem_cons, Std.TreeSet.mem_insert,
              Std.LawfulEqCmp.compare_eq_iff_eq]
            tauto

/-- The second loop deletes what has disappeared. -/
theorem told_foldl_forget
    {system : ConnSystem} {m : Address} {manager : ConnManager}
    (found : system.managers m = some manager)
    (distinct : manager.poolList.Nodup) (tmplist : ConnList)
    (tmps : List ConnInfo) :
    ∃ infoList connList,
      Told system m manager infoList connList
        ((tmps.filter fun tmp => !tmplist.contains tmp).map .delConn)
        (tmps.foldl (forget m tmplist) system) ∧
      infoList.Sublist manager.infoList ∧
      (∀ info, info ∈ infoList ↔
        info ∈ manager.infoList ∧ ¬ (info ∈ tmps ∧ info ∉ tmplist)) ∧
      ∀ info, info ∈ connList ↔
        info ∈ manager.connList ∧ ¬ (info ∈ tmps ∧ info ∉ tmplist) := by
  induction tmps generalizing system manager with
  | nil =>
      exact ⟨_, _, Told.refl found, List.Sublist.refl _, by simp, by simp⟩
  | cons tmp tmps induction =>
      rw [List.foldl_cons]
      cases present : tmplist.contains tmp with
      | true =>
          have isMember : tmp ∈ tmplist := present
          have unchanged : forget m tmplist system tmp = system := by
            simp [forget, present]
          obtain ⟨infoList, connList, told, sublist, infos, members⟩ :=
            induction found distinct
          have sameGone : ∀ info,
              (info ∈ tmp :: tmps ∧ info ∉ tmplist) ↔
                (info ∈ tmps ∧ info ∉ tmplist) := by
            intro info
            rw [List.mem_cons]
            constructor
            · intro holds
              rcases holds with ⟨rfl | later, gone⟩
              · exact (gone isMember).elim
              · exact ⟨later, gone⟩
            · intro holds
              exact ⟨.inr holds.1, holds.2⟩
          refine ⟨infoList, connList, ?_, sublist, ?_, ?_⟩
          · rw [unchanged, List.filter_cons_of_neg (by simp [present])]
            exact told
          · intro info
            rw [infos, sameGone]
          · intro info
            rw [members, sameGone]
      | false =>
          have notMember : tmp ∉ tmplist := by
            rw [← Std.TreeSet.contains_iff_mem, present]
            simp
          have deleted := told_delConn found distinct tmp
          have erased := told_setConnList deleted.replaced
            (manager.connList.erase tmp)
          have here : forget m tmplist system tmp =
              (system.delConn m tmp).setConnList m
                (manager.connList.erase tmp) := by
            simp [forget, present, connList_eq deleted.replaced]
          have both := deleted.trans erased
          obtain ⟨infoList, connList, told, sublist, infos, members⟩ :=
            induction both.replaced distinct
          have firstGone : ∀ info,
              (info ∈ tmp :: tmps ∧ info ∉ tmplist) ↔
                info = tmp ∨ (info ∈ tmps ∧ info ∉ tmplist) := by
            intro info
            rw [List.mem_cons]
            constructor
            · intro holds
              rcases holds with ⟨rfl | later, gone⟩
              · exact .inl rfl
              · exact .inr ⟨later, gone⟩
            · intro either
              rcases either with rfl | ⟨later, gone⟩
              · exact ⟨.inl rfl, notMember⟩
              · exact ⟨.inr later, gone⟩
          refine ⟨infoList, connList, ?_, ?_, ?_, ?_⟩
          · rw [here, List.filter_cons_of_pos (by simp [present])]
            simpa using both.trans told
          · exact sublist.trans List.filter_sublist
          · intro info
            rw [infos, firstGone, List.mem_filter, Bool.not_eq_true',
              Bool.eq_false_iff, ne_eq, ConnInfo.beq_iff]
            tauto
          · intro info
            rw [members, firstGone, Std.TreeSet.mem_erase,
              ne_eq, Std.LawfulEqCmp.compare_eq_iff_eq, eq_comm]
            tauto

/-- The two copies that the manager and its service discovery keep agree. -/
def TargetsAgree (system : ConnSystem) (m : Address) : Prop :=
  ∀ manager, system.managers m = some manager →
    manager.infoList.Nodup ∧
      ∀ info, info ∈ manager.infoList ↔ info ∈ manager.connList

theorem nodup_toList (connList : ConnList) : connList.toList.Nodup :=
  Std.TreeSet.distinct_toList.imp
    (fun different same =>
      different (Std.LawfulEqCmp.compare_eq_iff_eq.mpr same))

theorem mem_filter_toList (connList other : ConnList) (info : ConnInfo) :
    info ∈ connList.toList.filter (fun tmp => !other.contains tmp) ↔
      info ∈ connList ∧ info ∉ other := by
  rw [List.mem_filter, Std.TreeSet.mem_toList, Bool.not_eq_true',
    Bool.eq_false_iff, ne_eq, Std.TreeSet.contains_iff_mem]

/-- What the pools hear when the manager is polled. -/
theorem told_poll
    {system : ConnSystem} {m : Address} {manager : ConnManager}
    (found : system.managers m = some manager)
    (distinct : manager.poolList.Nodup) (polled : ConnList) :
    ∃ infoList connList told,
      Told system m manager infoList connList told
        (system.getConnInfo m polled) ∧
      (∀ event ∈ told, ∃ info,
        event = .addConn info ∨ event = .delConn info) ∧
      ∀ info, .delConn info ∈ told ↔
        info ∈ manager.connList ∧ info ∉ polled := by
  obtain ⟨middleList, discovered, members⟩ :=
    told_foldl_discover found distinct (nodup_toList polled)
  obtain ⟨infoList, connList, forgotten, _⟩ :=
    told_foldl_forget discovered.replaced distinct polled middleList.toList
  have result : system.getConnInfo m polled =
      middleList.toList.foldl (forget m polled)
        (polled.toList.foldl (discover m) system) := by
    simp only [getConnInfo, connList_eq discovered.replaced]
  rw [result]
  refine ⟨infoList, connList, _, discovered.trans forgotten, ?_, ?_⟩
  · intro event isTold
    rw [List.mem_append, List.mem_map, List.mem_map] at isTold
    rcases isTold with ⟨info, _, rfl⟩ | ⟨info, _, rfl⟩
    · exact ⟨info, .inl rfl⟩
    · exact ⟨info, .inr rfl⟩
  · intro info
    have isGone : .delConn info ∈
        (polled.toList.filter fun tmp =>
            !manager.connList.contains tmp).map PoolEvent.addConn ++
          (middleList.toList.filter fun tmp =>
            !polled.contains tmp).map PoolEvent.delConn ↔
        info ∈ middleList ∧ info ∉ polled := by
      rw [List.mem_append, List.mem_map, List.mem_map,
        ← mem_filter_toList middleList polled info]
      simp only [reduceCtorEq, and_false, exists_false, false_or,
        PoolEvent.delConn.injEq, exists_eq_right]
    rw [isGone, members, Std.TreeSet.mem_toList]
    tauto

/-- A poll: what the manager knows afterwards, and what its pools hear. -/
theorem told_getConnInfo
    {system : ConnSystem} {m : Address} {manager : ConnManager}
    (found : system.managers m = some manager)
    (distinct : manager.poolList.Nodup) (agree : system.TargetsAgree m)
    (polled : ConnList) :
    ∃ infoList connList, ∃ news gone : List ConnInfo,
      Told system m manager infoList connList
        (news.map .addConn ++ gone.map .delConn)
        (system.getConnInfo m polled) ∧
      infoList.Nodup ∧ (∀ info, info ∈ infoList ↔ info ∈ polled) ∧
      (∀ info, info ∈ connList ↔ info ∈ polled) ∧
      news.Nodup ∧
      (∀ info, info ∈ news ↔ info ∈ polled ∧ info ∉ manager.infoList) ∧
      gone.Nodup ∧
      ∀ info, info ∈ gone ↔ info ∈ manager.infoList ∧ info ∉ polled := by
  obtain ⟨infosDistinct, sameTargets⟩ := agree manager found
  obtain ⟨middleList, discovered, middleMembers⟩ :=
    told_foldl_discover found distinct (nodup_toList polled)
  obtain ⟨infoList, connList, forgotten, sublist, infos, members⟩ :=
    told_foldl_forget discovered.replaced distinct polled middleList.toList
  have news : ∀ info,
      info ∈ polled.toList.filter
          (fun tmp => !manager.connList.contains tmp) ↔
        info ∈ polled ∧ info ∉ manager.infoList := by
    intro info
    rw [mem_filter_toList, sameTargets]
  have middleIs : ∀ info, info ∈ middleList ↔
      info ∈ manager.infoList ∨ info ∈ polled := by
    intro info
    rw [middleMembers, Std.TreeSet.mem_toList, sameTargets]
  refine ⟨infoList, connList, _, _, ?_, ?_, ?_, ?_,
    (nodup_toList polled).filter _, news,
    (nodup_toList middleList).filter fun tmp => !polled.contains tmp, ?_⟩
  · have whole := discovered.trans forgotten
    simp only [getConnInfo]
    simp only [connList_eq discovered.replaced]
    exact whole
  · apply sublist.nodup
    apply infosDistinct.append ((nodup_toList polled).filter _)
    intro info old new
    exact ((news info).mp new).2 old
  · intro info
    rw [infos, List.mem_append, news, Std.TreeSet.mem_toList, middleIs]
    tauto
  · intro info
    rw [members, Std.TreeSet.mem_toList, middleIs]
    tauto
  · intro info
    rw [mem_filter_toList, middleIs]
    tauto

theorem getConnInfo_of_none
    {system : ConnSystem} {m : Address} (absent : system.managers m = none)
    (polled : ConnList) : system.getConnInfo m polled = system := by
  have idle : ∀ tmps : List ConnInfo,
      tmps.foldl (discover m) system = system := by
    intro tmps
    induction tmps with
    | nil => rfl
    | cons tmp tmps induction =>
        have here : discover m system tmp = system := by
          simp [discover, connList, absent, addConn, setConnList]
        rw [List.foldl_cons, here, induction]
  have noTargets : system.connList m = ∅ := by
    simp [connList, absent]
  have empty : (∅ : ConnList).toList = [] := rfl
  simp only [getConnInfo]
  simp [idle, noTargets, empty]

/-! ### Runs -/

theorem TargetsAgree.change
    {targets : Address → Prop} {system next : ConnSystem} {m : Address}
    (agree : system.TargetsAgree m) (notSet : ¬ targets m)
    (change : Change targets system next) : next.TargetsAgree m := by
  cases change with
  | pool _ _ => exact agree
  | conn _ => exact agree
  | poolList found _ _ =>
      intro current currentFound
      rw [setManager_managers] at currentFound
      split at currentFound
      · rename_i manager _ _ _ _ here
        cases currentFound
        rw [← here] at found
        exact agree manager found
      · exact agree current currentFound
  | targets allowed found =>
      intro current currentFound
      rw [setManager_managers] at currentFound
      split at currentFound
      · rename_i here
        rw [← here] at allowed
        exact (notSet allowed).elim
      · exact agree current currentFound
  | addPool added =>
      obtain ⟨manager, found, _, rfl⟩ := addPool_eq_some_iff.mp added
      intro current currentFound
      rw [withPool_managers] at currentFound
      split at currentFound
      · rename_i here
        cases currentFound
        rw [← here] at found
        exact agree manager found
      · exact agree current currentFound
  | destroyPool _ _ => exact agree
  | newManager absent =>
      intro current currentFound
      simp only [newManager, setManager, Function.update_apply] at currentFound
      split at currentFound
      · cases currentFound
        simp
      · exact agree current currentFound

theorem TargetsAgree.changes
    {targets : Address → Prop} {system next : ConnSystem} {m : Address}
    (agree : system.TargetsAgree m) (notSet : ¬ targets m)
    (changes : Changes targets system next) : next.TargetsAgree m :=
  @Changes.invariant targets (fun system => system.TargetsAgree m)
    (fun _ _ holds change => holds.change notSet change) _ _ changes agree

/-- A run in which only polls change the targets of the manager. -/
def PollsOnly (m : Address) (actions : List ConnAction) : Prop :=
  ∀ info, .addConn m info ∉ actions ∧ .delConn m info ∉ actions

theorem TargetsAgree.step
    {system next : ConnSystem} {m : Address} {action : ConnAction}
    (wellFormed : WellFormed system) (agree : system.TargetsAgree m)
    (notAdd : ∀ info, action ≠ .addConn m info)
    (notDel : ∀ info, action ≠ .delConn m info)
    (stepped : step system action = some next) : next.TargetsAgree m := by
  by_cases sets : setsTargets action m
  · cases action with
    | addConn n info =>
        have same : m = n := sets
        subst same
        exact (notAdd info rfl).elim
    | delConn n info =>
        have same : m = n := sets
        subst same
        exact (notDel info rfl).elim
    | getConnInfo n polled =>
        have same : m = n := sets
        subst same
        cases stepped
        intro current currentFound
        cases found : system.managers m with
        | none =>
            rw [getConnInfo_of_none found] at currentFound
            exact agree current currentFound
        | some manager =>
            obtain ⟨infoList, connList, news, gone, told, distinct, infos,
              members, _⟩ :=
              told_getConnInfo found (wellFormed.distinct found) agree polled
            rw [told.replaced] at currentFound
            cases currentFound
            refine ⟨distinct, ?_⟩
            intro info
            rw [infos, members]
    | _ => exact sets.elim
  · exact agree.changes sets (changes_step wellFormed stepped)

theorem targetsAgree_run
    {actions : List ConnAction} {system : ConnSystem} {m : Address}
    (ran : run step start actions = some system)
    (pollsOnly : PollsOnly m actions) : system.TargetsAgree m := by
  have both : WellFormed system ∧ system.TargetsAgree m := by
    apply run_invariant_of_mem _ _ ran
    · intro before action next holds listed stepped
      refine ⟨holds.1.changes (changes_step holds.1 stepped), ?_⟩
      apply holds.2.step holds.1 _ _ stepped
      · intro info equal
        subst equal
        exact (pollsOnly info).1 listed
      · intro info equal
        subst equal
        exact (pollsOnly info).2 listed
    · refine ⟨wellFormed_start, ?_⟩
      intro manager found
      cases found
  exact both.2

theorem count_map_addConn (infos : List ConnInfo) (info : ConnInfo) :
    (infos.map PoolEvent.addConn).count (.addConn info) = infos.count info :=
  List.count_map_of_injective infos PoolEvent.addConn
    (fun _ _ => PoolEvent.addConn.inj) info

theorem count_map_delConn (infos : List ConnInfo) (info : ConnInfo) :
    (infos.map PoolEvent.delConn).count (.delConn info) = infos.count info :=
  List.count_map_of_injective infos PoolEvent.delConn
    (fun _ _ => PoolEvent.delConn.inj) info

/-- After every poll `infoList`, `_conn_list` and the polled set agree; every
pool of the manager has heard of each change once; and a pool that is added
hears of each target once. -/
theorem getConnInfo_agrees
    {actions : List ConnAction} {system : ConnSystem}
    (ran : run step start actions = some system)
    {m : Address} (pollsOnly : PollsOnly m actions)
    {manager : ConnManager} (found : system.managers m = some manager) :
    manager.infoList.Nodup ∧
    (∀ info, info ∈ manager.infoList ↔ info ∈ manager.connList) ∧
    (∀ polled next, step system (.getConnInfo m polled) = some next →
      ∃ after, next.managers m = some after ∧ after.infoList.Nodup ∧
        (∀ info, info ∈ after.infoList ↔ info ∈ after.connList) ∧
        (∀ info, info ∈ after.connList ↔ info ∈ polled) ∧
        ∀ p ∈ manager.poolList, ∃ pool afterPool told,
          system.pools p = some pool ∧ next.pools p = some afterPool ∧
          afterPool.events = pool.events ++ told ∧
          (∀ info, told.count (.addConn info) =
            if info ∈ polled ∧ info ∉ manager.infoList then 1 else 0) ∧
          ∀ info, told.count (.delConn info) =
            if info ∈ manager.infoList ∧ info ∉ polled then 1 else 0) ∧
    ∀ fresh next, system.addPool m fresh = some next →
      ∃ pool, next.pools fresh.address = some pool ∧
        ∀ info, pool.events.count (.addConn info) =
          if info ∈ manager.infoList then 1 else 0 := by
  have wellFormed := wellFormed_run ran
  have agree := targetsAgree_run ran pollsOnly
  obtain ⟨infosDistinct, sameTargets⟩ := agree manager found
  refine ⟨infosDistinct, sameTargets, ?_, ?_⟩
  · intro polled next polls
    cases polls
    obtain ⟨infoList, connList, news, gone, told, distinct, infos, members,
      newsDistinct, newsAre, goneDistinct, goneAre⟩ :=
      told_getConnInfo found (wellFormed.distinct found) agree polled
    refine ⟨_, told.replaced, distinct, ?_, members, ?_⟩
    · intro info
      rw [infos, members]
    · intro p listed
      obtain ⟨pool, live, _⟩ := wellFormed.listed found listed
      obtain ⟨afterPool, afterLive, events⟩ := told.pools p listed pool live
      refine ⟨pool, afterPool, _, live, afterLive, events, ?_, ?_⟩
      · intro info
        have notDeleted : (gone.map PoolEvent.delConn).count
            (.addConn info) = 0 :=
          List.count_eq_zero.mpr (by simp)
        rw [List.count_append, count_map_addConn, notDeleted,
          newsDistinct.count, Nat.add_zero]
        simp only [newsAre]
      · intro info
        have notAdded : (news.map PoolEvent.addConn).count
            (.delConn info) = 0 :=
          List.count_eq_zero.mpr (by simp)
        rw [List.count_append, count_map_delConn, notAdded,
          goneDistinct.count, Nat.zero_add]
        simp only [goneAre]
  · intro fresh next added
    obtain ⟨again, againFound, _, rfl⟩ := addPool_eq_some_iff.mp added
    rw [found] at againFound
    cases againFound
    refine ⟨_, by rw [withPool_pools, if_pos rfl], ?_⟩
    intro info
    simp only [addedPool]
    rw [count_map_addConn, infosDistinct.count]

/-- The second poll replaces the target of the first one. -/
theorem getConnInfo_agrees_secondPoll :
    ∃ system manager next,
      run step start
          [.newManager 0, .addPool 0 ⟨7, 0⟩,
            .getConnInfo 0 ((∅ : ConnList).insert ⟨"", "", "a", "", 0⟩)] =
        some system ∧
      system.managers 0 = some manager ∧
      step system
          (.getConnInfo 0 ((∅ : ConnList).insert ⟨"", "", "b", "", 0⟩)) =
        some next ∧
      ∃ after, next.managers 0 = some after ∧
        ∀ info, info ∈ after.infoList ↔
          info ∈ (∅ : ConnList).insert ⟨"", "", "b", "", 0⟩ := by
  refine ⟨_, _, _, rfl, rfl, rfl, ?_⟩
  obtain ⟨after, found, _, infos, members, _⟩ :=
    (@getConnInfo_agrees
      [.newManager 0, .addPool 0 ⟨7, 0⟩,
        .getConnInfo 0 ((∅ : ConnList).insert ⟨"", "", "a", "", 0⟩)]
      _ rfl 0 (by simp [PollsOnly]) _ rfl).2.2.1
      ((∅ : ConnList).insert ⟨"", "", "b", "", 0⟩) _ rfl
  exact ⟨after, found, fun info => (infos info).trans (members info)⟩

end ConnSystem

end DBWrapper
