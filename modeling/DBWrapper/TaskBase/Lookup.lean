import DBWrapper.TaskBase.Task

/-!
# Finding a task by its detail info

The loop of `get_task_ptr_p_with_detail_info` returns in its first turn, with
the task or with a null pointer.  So it looks at the task whose name sorts
first, and the lookup is complete exactly if no other task matters.
-/

namespace DBWrapper

namespace TaskManager

/-- A task that is returned is in the map and has the detail info, and a null
pointer means that no task in the map has it. -/
def LookupComplete (manager : TaskManager) (info : Pointer) : Prop :=
  match manager.getTaskPtrPWithDetailInfo info with
  | some name =>
      ∃ task, manager.taskMap[name]? = some task ∧ task.detailInfo = some info
  | none =>
      ∀ (name : String) (task : TaskBase),
        manager.taskMap[name]? = some task → task.detailInfo ≠ some info

/-- The task whose name sorts first has the detail info. -/
def FirstHas (manager : TaskManager) (info : Pointer) : Prop :=
  ∃ name task, manager.taskMap.toList.head? = some (name, task) ∧
    task.detailInfo = some info

theorem getElem?_of_head?
    {manager : TaskManager} {name : String} {task : TaskBase}
    (first : manager.taskMap.toList.head? = some (name, task)) :
    manager.taskMap[name]? = some task := by
  rw [← Std.TreeMap.mem_toList_iff_getElem?_eq_some]
  exact List.mem_of_mem_head? first

/-- The lookup returns the first task if that one has the detail info. -/
theorem lookup_eq_some_iff
    {manager : TaskManager} {info : Pointer} {name : String} :
    manager.getTaskPtrPWithDetailInfo info = some name ↔
      ∃ task, manager.taskMap.toList.head? = some (name, task) ∧
        task.detailInfo = some info := by
  simp only [getTaskPtrPWithDetailInfo]
  cases listed : manager.taskMap.toList with
  | nil => simp
  | cons entry entries =>
      obtain ⟨first, task⟩ := entry
      by_cases same : task.detailInfo = some info
      · simp [same]
      · simp only [same, if_false, reduceCtorEq, List.head?_cons,
          Option.some.injEq, Prod.mk.injEq, false_iff, not_exists, not_and]
        intro other equal different
        rw [← equal.2] at different
        exact same different

theorem lookupComplete_iff (manager : TaskManager) (info : Pointer) :
    manager.LookupComplete info ↔
      (∀ (name : String) (task : TaskBase),
        manager.taskMap[name]? = some task → task.detailInfo ≠ some info) ∨
      manager.FirstHas info := by
  simp only [LookupComplete]
  cases found : manager.getTaskPtrPWithDetailInfo info with
  | some name =>
      obtain ⟨task, first, same⟩ := lookup_eq_some_iff.mp found
      apply iff_of_true
      · exact ⟨task, getElem?_of_head? first, same⟩
      · exact .inr ⟨name, task, first, same⟩
  | none =>
      have notFirst : ¬ manager.FirstHas info := by
        intro holds
        obtain ⟨name, task, first, same⟩ := holds
        rw [lookup_eq_some_iff.mpr ⟨task, first, same⟩] at found
        cases found
      rw [or_iff_left notFirst]

/-- A lookup misses a task exactly if the detail info is there but not in the
first task of the map; of the tasks that have it, only the first one of the
map is ever found. -/
theorem lookup_complete_iff (manager : TaskManager) (info : Pointer) :
    (manager.LookupComplete info ↔
      (∀ (name : String) (task : TaskBase),
        manager.taskMap[name]? = some task → task.detailInfo ≠ some info) ∨
      manager.FirstHas info) ∧
    ∀ (name : String) (task : TaskBase),
      manager.taskMap[name]? = some task → task.detailInfo = some info →
        (manager.getTaskPtrPWithDetailInfo info = some name ↔
          manager.taskMap.keys.head? = some name) := by
  refine ⟨lookupComplete_iff manager info, ?_⟩
  intro name task registered same
  rw [lookup_eq_some_iff, ← Std.TreeMap.map_fst_toList_eq_keys,
    List.head?_map, Option.map_eq_some_iff]
  constructor
  · intro found
    obtain ⟨other, first, _⟩ := found
    exact ⟨(name, other), first, rfl⟩
  · intro found
    obtain ⟨⟨_, other⟩, first, rfl⟩ := found
    have stored := getElem?_of_head? first
    rw [registered] at stored
    cases stored
    exact ⟨task, first, same⟩

/-- Two workers, each with a context of its own: the callbacks of the second
one find nothing. -/
theorem lookup_misses :
    ∃ manager : TaskManager,
      (manager.taskMap["WORKER001"]?.bind TaskBase.detailInfo) = some 1 ∧
        (manager.taskMap["WORKER002"]?.bind TaskBase.detailInfo) = some 2 ∧
        manager.getTaskPtrPWithDetailInfo 2 = none ∧
        ¬ manager.LookupComplete 2 := by
  let manager : TaskManager :=
    (((empty.addTasks (TaskBase.create "WORKER001")).addTasks
      (TaskBase.create "WORKER002")).setTaskDetailInfo "WORKER001"
      1).setTaskDetailInfo "WORKER002" 2
  have missed : manager.getTaskPtrPWithDetailInfo 2 = none := rfl
  refine ⟨manager, rfl, rfl, missed, ?_⟩
  simp only [LookupComplete, missed]
  intro absent
  exact absent "WORKER002" _ rfl rfl

end TaskManager

end DBWrapper
