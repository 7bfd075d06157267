import DBWrapper.Foundation.SetTraversal
import DBWrapper.ConnManager.Confinement

/-!
# The loop that erases from its own set

The second loop of `getConnInfo` walks through `_conn_list` and erases the
element at which it stands.  `getConnInfo` itself takes the elements that are
there at the beginning; here the loop has an iterator, as in the source.  It
works only for polls in which nothing has disappeared.
-/

namespace DBWrapper

open Foundation

namespace ConnSystem

/-- The first loop of `getConnInfo`. -/
def discoverAll (system : ConnSystem) (m : Address) (tmplist : ConnList) :
    ConnSystem :=
  tmplist.toList.foldl (discover m) system

/-- One turn of its second loop, with the elements that are erased. -/
def forgetTurn (m : Address) (tmplist : ConnList) (system : ConnSystem)
    (tmp : ConnInfo) : ConnSystem × List ConnInfo :=
  (forget m tmplist system tmp, if tmplist.contains tmp then [] else [tmp])

/-- The second loop leaves the system like this, and `undefined` if it has
used an iterator to an element that it had erased. -/
def Leaves (system : ConnSystem) (m : Address) (tmplist : ConnList)
    (final : Traversal ConnSystem ConnInfo) : Prop :=
  Ends (rangeForPass (connList · m) (forgetTurn m tmplist))
    (rangeFor (connList · m) (system.discoverAll m tmplist)) final

/-- A poll is well defined and ends with the set that has been returned. -/
def Reconciles (system : ConnSystem) (m : Address) (tmplist : ConnList) :
    Prop :=
  ∃ final, system.Leaves m tmplist final ∧ final.undefined = false ∧
    ∀ info, info ∈ final.state.connList m ↔ info ∈ tmplist

theorem addConn_managers_self
    {system : ConnSystem} {m : Address} {manager : ConnManager}
    (found : system.managers m = some manager) (info : ConnInfo) :
    (system.addConn m info).managers m =
      some { manager with infoList := manager.infoList ++ [info] } := by
  simp only [addConn, found]
  rw [foldl_managers (fun system p => poolAddConn_managers system p info),
    setManager_managers, if_pos rfl]

/-- What has been polled is added to `_conn_list`. -/
theorem mem_connList_foldl_discover
    {system : ConnSystem} {m : Address} {manager : ConnManager}
    (found : system.managers m = some manager) (tmps : List ConnInfo) :
    ∀ info, info ∈ (tmps.foldl (discover m) system).connList m ↔
      info ∈ manager.connList ∨ info ∈ tmps := by
  induction tmps generalizing system manager with
  | nil =>
      intro info
      simp [connList_eq found]
  | cons tmp tmps induction =>
      intro info
      rw [List.foldl_cons]
      cases present : manager.connList.contains tmp with
      | true =>
          have unchanged : discover m system tmp = system := by
            simp [discover, connList_eq found, present]
          have isMember : tmp ∈ manager.connList := present
          rw [unchanged, induction found, List.mem_cons]
          constructor
          · intro either
            exact either.imp_right .inr
          · intro either
            rcases either with old | same | later
            · exact .inl old
            · rw [same]
              exact .inl isMember
            · exact .inr later
      | false =>
          have added := addConn_managers_self found tmp
          have here : (discover m system tmp).managers m =
              some
                { manager with
                  infoList := manager.infoList ++ [tmp]
                  connList := manager.connList.insert tmp } := by
            simp [discover, connList_eq found, present, setConnList, added,
              connList_eq added, setManager_managers]
          rw [induction here, List.mem_cons]
          simp only [Std.TreeSet.mem_insert, Std.LawfulEqCmp.compare_eq_iff_eq]
          tauto

/-- The loop ends, and it is well defined exactly if nothing is erased; then
it has done nothing. -/
theorem exists_leaves (system : ConnSystem) (m : Address)
    (tmplist : ConnList) :
    ∃ final, system.Leaves m tmplist final ∧
      (final.undefined = false ↔
        ∀ info ∈ (system.discoverAll m tmplist).connList m,
          info ∈ tmplist) ∧
      (final.undefined = false →
        final.state = system.getConnInfo m tmplist ∧
          final.state.connList m =
            (system.discoverAll m tmplist).connList m) := by
  have keeps : ∀ system tmp, ¬ tmp ∉ tmplist →
      (forgetTurn m tmplist system tmp).1.connList m = system.connList m ∧
        (forgetTurn m tmplist system tmp).2 = [] := by
    intro system tmp kept
    have present : tmplist.contains tmp = true := not_not.mp kept
    simp [forgetTurn, forget, present]
  have erases : ∀ system tmp, tmp ∉ tmplist →
      tmp ∈ (forgetTurn m tmplist system tmp).2 := by
    intro system tmp gone
    have absent : tmplist.contains tmp = false :=
      Bool.eq_false_iff.mpr gone
    simp [forgetTurn, absent]
  obtain ⟨final, ends, defined, result⟩ :=
    @rangeFor_ends _ _ _ (connList · m) (forgetTurn m tmplist)
      (fun tmp => tmp ∉ tmplist) _ keeps erases
      (system.discoverAll m tmplist)
  refine ⟨final, ends, ?_, result⟩
  rw [defined]
  simp only [Std.TreeSet.mem_toList, not_not]

/-- Everything in `_conn_list` is still in the polled set. -/
def NothingGone (manager : ConnManager) (tmplist : ConnList) : Prop :=
  ∀ info ∈ manager.connList, info ∈ tmplist

theorem defined_iff
    {system : ConnSystem} {m : Address} {manager : ConnManager}
    (found : system.managers m = some manager) {tmplist : ConnList}
    {final : Traversal ConnSystem ConnInfo}
    (leaves : system.Leaves m tmplist final) :
    final.undefined = false ↔ NothingGone manager tmplist := by
  obtain ⟨other, otherLeaves, defined, _⟩ := system.exists_leaves m tmplist
  rw [Ends.unique leaves otherLeaves, defined]
  simp only [discoverAll, mem_connList_foldl_discover found,
    Std.TreeSet.mem_toList]
  constructor
  · intro all info old
    exact all info (.inl old)
  · intro nothingGone info listed
    rcases listed with old | polled
    · exact nothingGone info old
    · exact polled

theorem reconciles_iff
    {system : ConnSystem} {m : Address} {manager : ConnManager}
    (found : system.managers m = some manager) (tmplist : ConnList) :
    system.Reconciles m tmplist ↔ NothingGone manager tmplist := by
  constructor
  · intro reconciles
    obtain ⟨final, leaves, isDefined, _⟩ := reconciles
    exact (defined_iff found leaves).mp isDefined
  · intro nothingGone
    obtain ⟨final, leaves, _, result⟩ := system.exists_leaves m tmplist
    have isDefined := (defined_iff found leaves).mpr nothingGone
    refine ⟨final, leaves, isDefined, ?_⟩
    intro info
    rw [(result isDefined).2, discoverAll, mem_connList_foldl_discover found,
      Std.TreeSet.mem_toList]
    exact or_iff_right_of_imp (nothingGone info)

/-- A poll is well defined, and leaves `_conn_list` equal to the set that the
callback has returned, exactly if no target has disappeared from that set; it
then is the poll of the model that takes the elements at the beginning.
Otherwise the loop advances an iterator to an element that it has erased. -/
theorem getConnInfo_reconciles_iff
    {system : ConnSystem} {m : Address} {manager : ConnManager}
    (found : system.managers m = some manager) (tmplist : ConnList) :
    (system.Reconciles m tmplist ↔ NothingGone manager tmplist) ∧
    ∃ final, system.Leaves m tmplist final ∧
      (final.undefined = false ↔ NothingGone manager tmplist) ∧
      (final.undefined = false →
        final.state = system.getConnInfo m tmplist) := by
  obtain ⟨final, leaves, _, result⟩ := system.exists_leaves m tmplist
  exact ⟨reconciles_iff found tmplist, final, leaves,
    defined_iff found leaves, fun isDefined => (result isDefined).1⟩

/-- A second target appears. -/
theorem getConnInfo_reconciles_iff_growing :
    ∃ system,
      run step start
          [.newManager 0,
            .getConnInfo 0 ((∅ : ConnList).insert ⟨"", "", "a", "", 0⟩)] =
        some system ∧
      system.Reconciles 0
        (((∅ : ConnList).insert ⟨"", "", "a", "", 0⟩).insert
          ⟨"", "", "b", "", 0⟩) := by
  refine ⟨_, rfl, ?_⟩
  apply (getConnInfo_reconciles_iff rfl _).1.mpr
  intro info listed
  have same : info ∈ (∅ : ConnList).insert ⟨"", "", "a", "", 0⟩ := listed
  exact Std.TreeSet.mem_insert.mpr (.inr same)

/-- The only target is replaced by another one. -/
theorem getConnInfo_notReconciled :
    ∃ system,
      run step start
          [.newManager 0,
            .getConnInfo 0 ((∅ : ConnList).insert ⟨"", "", "a", "", 0⟩)] =
        some system ∧
      (∃ final,
        system.Leaves 0 ((∅ : ConnList).insert ⟨"", "", "b", "", 0⟩) final ∧
          final.undefined = true) ∧
      ¬ system.Reconciles 0
        ((∅ : ConnList).insert ⟨"", "", "b", "", 0⟩) := by
  have gone : ∀ {manager : ConnManager},
      manager.connList = (∅ : ConnList).insert ⟨"", "", "a", "", 0⟩ →
        ¬ NothingGone manager
          ((∅ : ConnList).insert ⟨"", "", "b", "", 0⟩) := by
    intro manager lists nothingGone
    have listed : (⟨"", "", "a", "", 0⟩ : ConnInfo) ∈ manager.connList := by
      rw [lists]
      exact Std.TreeSet.mem_insert_self
    have polled : ((∅ : ConnList).insert ⟨"", "", "b", "", 0⟩).contains
        ⟨"", "", "a", "", 0⟩ = true := nothingGone _ listed
    revert polled
    decide
  refine ⟨_, rfl, ?_, ?_⟩
  · obtain ⟨final, leaves, _⟩ := exists_leaves _ 0
      ((∅ : ConnList).insert ⟨"", "", "b", "", 0⟩)
    refine ⟨final, leaves, Bool.not_eq_false _ |>.mp ?_⟩
    intro isDefined
    exact gone rfl ((defined_iff rfl leaves).mp isDefined)
  · intro reconciles
    exact gone rfl ((reconciles_iff rfl _).mp reconciles)

end ConnSystem

end DBWrapper
