import Mathlib.Data.List.Rotate
import DBWrapper.Foundation.Runs
import DBWrapper.TaskBase.Task

/-!
# Heartbeat supervision

Task0 runs a timer.  At every tick but the first it restarts the tasks whose
entry in `hb_map` is still false, rebuilds `hb_map` from the task map, and
sends a heartbeat request to every other task; a response sets an entry to
true.  The tick and the handler both write `hb_map`, and tasks may be added
between ticks.
-/

namespace DBWrapper

open Foundation

abbrev HbMap := Std.TreeMap String Bool compare

/-- The task manager together with what `manager_task` remembers. -/
structure HbSystem where
  manager : TaskManager
  hbMap : HbMap
  firstLoop : Bool

inductive HbAction where
  | tick
  | onMessage (msg : TaskMsg)
  | addTasks (task : TaskBase)
  deriving DecidableEq, Repr

namespace HbSystem

def start (manager : TaskManager) : HbSystem :=
  { manager, hbMap := ∅, firstLoop := true }

/-- The loop over `hb_map`: the restarted tasks under their names, and
whether the loop came to its end.  A name without a task leaves the callback
at once. -/
def checkResponses (tmpTaskMap : TaskMap) :
    List (String × Bool) → List (String × TaskBase) × Bool
  | [] => ([], true)
  | (name, responded) :: rest =>
      if name = task0 then
        checkResponses tmpTaskMap rest
      else if responded then
        checkResponses tmpTaskMap rest
      else
        match tmpTaskMap[name]? with
        | none => ([], false)
        | some task =>
            let (restarted, completed) := checkResponses tmpTaskMap rest
            ((name, task) :: restarted, completed)

def clearHbMap (tmpTaskMap : TaskMap) : HbMap :=
  tmpTaskMap.keys.foldl (fun hbMap name => hbMap.insertIfNew name false) ∅

/-- The timer callback of `start_hb`, with the tasks it restarts. -/
def startHb (system : HbSystem) : HbSystem × List (String × TaskBase) :=
  if system.firstLoop then
    ({ system with firstLoop := false }, [])
  else
    let tmpTaskMap := system.manager.taskMap
    match checkResponses tmpTaskMap system.hbMap.toList with
    | (restarted, false) => (system, restarted)
    | (restarted, true) =>
        ({ system with
            hbMap := clearHbMap tmpTaskMap
            manager := system.manager.sendHbAll }, restarted)

/-- `manager_task::on_message`; `none` is an exception out of the cast. -/
def onMessage (system : HbSystem) (msg : TaskMsg) : Option HbSystem :=
  if msg.type = .taskHbRsp then
    match msg.body.castString with
    | none => none
    | some name => some { system with hbMap := system.hbMap.insert name true }
  else
    some system

def step (system : HbSystem) : HbAction → Option HbSystem
  | .tick => some system.startHb.1
  | .onMessage msg => system.onMessage msg
  | .addTasks task => some { system with manager := system.manager.addTasks task }

end HbSystem

/-! ### Sending the requests -/

namespace TaskManager

def hbReq (name : String) (seqId : UInt32) : TaskMsg :=
  { type := .taskHbReq, body := .string name, seqId }

theorem getElem?_sendHb
    (manager : TaskManager) (target name : String) :
    (manager.sendHb target).taskMap[name]? =
      if name = target ∧ name ≠ task0 then
        manager.taskMap[name]?.map (received · (hbReq name manager.seqId))
      else
        manager.taskMap[name]? := by
  simp only [sendHb, send2taskWith]
  by_cases same : name = target
  · subst same
    by_cases manages : name = task0
    · simp [manages]
    · simp [manages, getElem?_send2task, hbReq]
  · by_cases manages : target = task0 <;>
      simp [manages, getElem?_send2task, same]

theorem getElem?_foldl_sendHb_of_notMem
    {manager : TaskManager} {targets : List String} {name : String}
    (skipped : name ∉ targets ∨ name = task0) :
    (targets.foldl sendHb manager).taskMap[name]? = manager.taskMap[name]? := by
  induction targets generalizing manager with
  | nil => rfl
  | cons target targets induction =>
      have notHere : ¬ (name = target ∧ name ≠ task0) := by
        intro holds
        obtain ⟨rfl, other⟩ := holds
        rcases skipped with absent | manages
        · exact absent List.mem_cons_self
        · exact other manages
      have notLater : name ∉ targets ∨ name = task0 :=
        skipped.imp_left (fun absent later => absent (List.mem_cons_of_mem _ later))
      rw [List.foldl_cons, induction notLater, getElem?_sendHb, if_neg notHere]

theorem getElem?_foldl_sendHb_of_mem
    {manager : TaskManager} {targets : List String} {name : String}
    (distinct : targets.Nodup) (listed : name ∈ targets)
    (other : name ≠ task0) :
    ∃ seqId,
      (targets.foldl sendHb manager).taskMap[name]? =
        manager.taskMap[name]?.map (received · (hbReq name seqId)) := by
  induction targets generalizing manager with
  | nil => cases listed
  | cons target targets induction =>
      obtain ⟨notLater, distinctRest⟩ := List.nodup_cons.mp distinct
      rw [List.foldl_cons]
      by_cases here : name = target
      · subst here
        refine ⟨manager.seqId, ?_⟩
        rw [getElem?_foldl_sendHb_of_notMem (.inl notLater), getElem?_sendHb,
          if_pos ⟨rfl, other⟩]
      · have later : name ∈ targets :=
          (List.mem_cons.mp listed).resolve_left here
        obtain ⟨seqId, sent⟩ :=
          @induction (manager.sendHb target) distinctRest later
        refine ⟨seqId, ?_⟩
        rw [sent, getElem?_sendHb, if_neg (fun both => here both.1)]

/-- Every task but task0 receives one request, and task0 none. -/
theorem getElem?_sendHbAll
    {manager : TaskManager} {name : String} {task : TaskBase}
    (found : manager.taskMap[name]? = some task) :
    (name = task0 → manager.sendHbAll.taskMap[name]? = some task) ∧
      (name ≠ task0 →
        ∃ seqId, manager.sendHbAll.taskMap[name]? =
          some (received task (hbReq name seqId))) := by
  constructor
  · intro manages
    simp only [sendHbAll]
    rw [getElem?_foldl_sendHb_of_notMem (.inr manages), found]
  · intro other
    have listed : name ∈ manager.taskMap.keys :=
      Std.TreeMap.mem_keys.mpr (TaskMap.mem_iff.mpr ⟨task, found⟩)
    obtain ⟨seqId, sent⟩ :=
      @getElem?_foldl_sendHb_of_mem manager _ _
        Std.TreeMap.nodup_keys listed other
    refine ⟨seqId, ?_⟩
    simp only [sendHbAll]
    rw [sent, found]
    rfl

theorem taskQueue_sendHbAll
    {manager : TaskManager} {name : String} {task : TaskBase}
    (found : manager.taskMap[name]? = some task) :
    ∃ after, manager.sendHbAll.taskMap[name]? = some after ∧
      (name = task0 → after.taskQueue = task.taskQueue) ∧
      (name ≠ task0 →
        ∃ seqId, after.taskQueue = task.taskQueue ++ [hbReq name seqId]) := by
  obtain ⟨kept, sent⟩ := getElem?_sendHbAll found
  by_cases manages : name = task0
  · exact ⟨task, kept manages, fun _ => rfl, fun other => (other manages).elim⟩
  · obtain ⟨seqId, requested⟩ := sent manages
    refine ⟨_, requested, fun isTask0 => (manages isTask0).elim, fun _ => ?_⟩
    exact ⟨seqId, by simp [received]⟩

theorem mem_sendHbAll (manager : TaskManager) (name : String) :
    name ∈ manager.sendHbAll.taskMap ↔ name ∈ manager.taskMap := by
  rw [TaskMap.mem_iff, TaskMap.mem_iff]
  cases found : manager.taskMap[name]? with
  | none =>
      have absent : name ∉ manager.taskMap.keys := by
        rw [Std.TreeMap.mem_keys, TaskMap.mem_iff, found]
        simp
      simp only [sendHbAll]
      rw [getElem?_foldl_sendHb_of_notMem (.inl absent), found]
  | some task =>
      obtain ⟨after, afterFound, _⟩ := taskQueue_sendHbAll found
      rw [afterFound]
      simp

theorem mem_addTasks {manager : TaskManager} {name : String}
    (listed : name ∈ manager.taskMap) (task : TaskBase) :
    name ∈ (manager.addTasks task).taskMap := by
  simp [addTasks, listed]

end TaskManager

namespace HbSystem

/-! ### One tick -/

theorem getElem?_insertIfNew_false (hbMap : HbMap) (target name : String) :
    (hbMap.insertIfNew target false)[name]? =
      hbMap[name]?.or (if name = target then some false else none) := by
  rw [Std.TreeMap.getElem?_insertIfNew]
  by_cases same : name = target
  · subst same
    by_cases listed : name ∈ hbMap
    · obtain ⟨value, found⟩ :=
        Option.isSome_iff_exists.mp
          (Std.TreeMap.mem_iff_isSome_getElem?.mp listed)
      rw [if_neg (fun isNew => isNew.2 listed), found]
      rfl
    · simp [listed]
  · simp [same, Ne.symm same]

theorem getElem?_foldl_insertIfNew
    (names : List String) (hbMap : HbMap) (name : String) :
    (names.foldl (fun hbMap name => hbMap.insertIfNew name false) hbMap)[name]? =
      hbMap[name]?.or (if name ∈ names then some false else none) := by
  induction names generalizing hbMap with
  | nil => simp
  | cons first names induction =>
      rw [List.foldl_cons, induction, getElem?_insertIfNew_false,
        Option.or_assoc]
      by_cases here : name = first <;> simp [here]

theorem getElem?_clearHbMap (tmpTaskMap : TaskMap) (name : String) :
    (clearHbMap tmpTaskMap)[name]? =
      if name ∈ tmpTaskMap then some false else none := by
  simp only [clearHbMap]
  rw [getElem?_foldl_insertIfNew]
  simp

/-- After a completed tick every entry has a task. -/
theorem mem_of_clearHbMap
    {manager : TaskManager} {name : String} {value : Bool}
    (entry : (clearHbMap manager.taskMap)[name]? = some value) :
    name ∈ manager.sendHbAll.taskMap := by
  rw [TaskManager.mem_sendHbAll]
  by_contra absent
  rw [getElem?_clearHbMap, if_neg absent] at entry
  cases entry

/-- A response makes no entry false. -/
theorem eq_false_of_insert_true
    {hbMap : HbMap} {sender name : String}
    (entry : (hbMap.insert sender true)[name]? = some false) :
    hbMap[name]? = some false := by
  rw [Std.TreeMap.getElem?_insert] at entry
  split at entry
  · cases entry
  · exact entry

/-- Entries that are true, and that of task0, are passed over. -/
theorem checkResponses_of_skipped
    {tmpTaskMap : TaskMap} {first : String} {responded : Bool}
    {rest : List (String × Bool)}
    (skips : first = task0 ∨ responded = true) :
    checkResponses tmpTaskMap ((first, responded) :: rest) =
      checkResponses tmpTaskMap rest := by
  rw [checkResponses]
  rcases skips with manages | answered
  · rw [if_pos manages]
  · rw [if_pos answered, ite_self]

theorem checkResponses_of_waiting
    {tmpTaskMap : TaskMap} {first : String} {rest : List (String × Bool)}
    (different : first ≠ task0) :
    checkResponses tmpTaskMap ((first, false) :: rest) =
      match tmpTaskMap[first]? with
      | none => ([], false)
      | some task =>
          ((first, task) :: (checkResponses tmpTaskMap rest).1,
            (checkResponses tmpTaskMap rest).2) := by
  rw [checkResponses, if_neg different, if_neg Bool.false_ne_true]

theorem mem_cons_of_skipped
    {first other : String} {responded : Bool} {rest : List (String × Bool)}
    (skips : first = task0 ∨ responded = true) (different : other ≠ task0) :
    (other, false) ∈ (first, responded) :: rest ↔ (other, false) ∈ rest := by
  rw [List.mem_cons, or_iff_right_iff_imp]
  intro here
  cases here
  rcases skips with manages | answered
  · exact (different manages).elim
  · cases answered

theorem checkResponses_sublist
    (tmpTaskMap : TaskMap) (entries : List (String × Bool)) :
    ((checkResponses tmpTaskMap entries).1.map Prod.fst).Sublist
      (entries.map Prod.fst) := by
  induction entries with
  | nil => simp [checkResponses]
  | cons entry rest induction =>
      obtain ⟨first, responded⟩ := entry
      by_cases skips : first = task0 ∨ responded = true
      · rw [checkResponses_of_skipped skips]
        exact induction.cons _
      · simp only [not_or, Bool.not_eq_true] at skips
        obtain ⟨different, rfl⟩ := skips
        rw [checkResponses_of_waiting different]
        cases tmpTaskMap[first]? with
        | none => exact List.nil_sublist _
        | some task => exact induction.cons_cons _

/-- The loop over `hb_map` comes to its end exactly if every entry that is
still false, task0 apart, names a task. -/
theorem checkResponses_completes_iff
    {tmpTaskMap : TaskMap} {entries : List (String × Bool)} :
    (checkResponses tmpTaskMap entries).2 = true ↔
      ∀ name, name ≠ task0 → (name, false) ∈ entries → name ∈ tmpTaskMap := by
  induction entries with
  | nil => simp [checkResponses]
  | cons entry rest induction =>
      obtain ⟨first, responded⟩ := entry
      by_cases skips : first = task0 ∨ responded = true
      · rw [checkResponses_of_skipped skips, induction]
        apply forall_congr'
        intro other
        apply forall_congr'
        intro otherDifferent
        rw [mem_cons_of_skipped skips otherDifferent]
      · simp only [not_or, Bool.not_eq_true] at skips
        obtain ⟨different, rfl⟩ := skips
        rw [checkResponses_of_waiting different]
        cases found : tmpTaskMap[first]? with
        | none =>
            simp only [Bool.false_eq_true, false_iff, not_forall]
            refine ⟨first, different, List.mem_cons_self, ?_⟩
            rw [TaskMap.mem_iff, found]
            simp
        | some task =>
            have registered : first ∈ tmpTaskMap :=
              TaskMap.mem_iff.mpr ⟨task, found⟩
            simp only [induction]
            constructor
            · intro others other otherDifferent listed
              rcases List.mem_cons.mp listed with here | later
              · cases here
                exact registered
              · exact others other otherDifferent later
            · intro others other otherDifferent listed
              exact others other otherDifferent
                (List.mem_cons_of_mem _ listed)

/-- In an ordered map, the loop restarts the tasks whose entries are false and
that come before the first such name without a task. -/
theorem mem_checkResponses_iff
    {tmpTaskMap : TaskMap} {entries : List (String × Bool)}
    (ordered : entries.Pairwise (fun left right =>
      compare left.1 right.1 = .lt))
    {name : String} {task : TaskBase} :
    (name, task) ∈ (checkResponses tmpTaskMap entries).1 ↔
      name ≠ task0 ∧ tmpTaskMap[name]? = some task ∧
        (name, false) ∈ entries ∧
        ∀ other, compare other name = .lt → other ≠ task0 →
          (other, false) ∈ entries → other ∈ tmpTaskMap := by
  induction entries with
  | nil => simp [checkResponses]
  | cons entry rest induction =>
      obtain ⟨first, responded⟩ := entry
      obtain ⟨least, orderedRest⟩ := List.pairwise_cons.mp ordered
      by_cases skips : first = task0 ∨ responded = true
      · rw [checkResponses_of_skipped skips, induction orderedRest]
        apply and_congr_right
        intro different
        rw [mem_cons_of_skipped skips different]
        apply and_congr_right
        intro _
        apply and_congr_right
        intro _
        apply forall_congr'
        intro other
        apply forall_congr'
        intro _
        apply forall_congr'
        intro otherDifferent
        rw [mem_cons_of_skipped skips otherDifferent]
      · simp only [not_or, Bool.not_eq_true] at skips
        obtain ⟨firstDifferent, rfl⟩ := skips
        rw [checkResponses_of_waiting firstDifferent]
        cases found : tmpTaskMap[first]? with
        | none =>
            simp only [List.not_mem_nil, false_iff]
            intro holds
            obtain ⟨_, nameFound, listed, before⟩ := holds
            rcases List.mem_cons.mp listed with here | later
            · cases here
              rw [found] at nameFound
              cases nameFound
            · have registered := before first (least _ later) firstDifferent
                List.mem_cons_self
              obtain ⟨owner, ownerFound⟩ := TaskMap.mem_iff.mp registered
              rw [found] at ownerFound
              cases ownerFound
        | some owner =>
            have registered : first ∈ tmpTaskMap :=
              TaskMap.mem_iff.mpr ⟨owner, found⟩
            simp only [List.mem_cons]
            rw [induction orderedRest]
            constructor
            · intro either
              rcases either with here | ⟨different, nameFound, later, before⟩
              · cases here
                refine ⟨firstDifferent, found, .inl rfl, ?_⟩
                intro other less _ listed
                rcases listed with same | behind
                · cases same
                  exact registered
                · have greater := Std.OrientedCmp.gt_of_lt (least _ behind)
                  rw [less] at greater
                  cases greater
              · refine ⟨different, nameFound, .inr later, ?_⟩
                intro other less otherDifferent listed
                rcases listed with same | behind
                · cases same
                  exact registered
                · exact before other less otherDifferent behind
            · intro holds
              obtain ⟨different, nameFound, listed, before⟩ := holds
              rcases listed with same | later
              · cases same
                rw [found] at nameFound
                cases nameFound
                exact .inl rfl
              · refine .inr ⟨different, nameFound, later, ?_⟩
                intro other less otherDifferent behind
                exact before other less otherDifferent (.inr behind)

theorem mem_toList_hbMap {hbMap : HbMap} {name : String} {value : Bool} :
    (name, value) ∈ hbMap.toList ↔ hbMap[name]? = some value :=
  Std.TreeMap.mem_toList_iff_getElem?_eq_some

theorem restarted_startHb
    {system : HbSystem} (notFirst : system.firstLoop = false) :
    system.startHb.2 =
      (checkResponses system.manager.taskMap system.hbMap.toList).1 := by
  simp only [startHb]
  rw [notFirst]
  simp only [Bool.false_eq_true, if_false]
  split
  · rename_i abandoned
    rw [abandoned]
  · rename_i completed
    rw [completed]

theorem nodup_startHb
    {system : HbSystem} (notFirst : system.firstLoop = false) :
    (system.startHb.2.map Prod.fst).Nodup := by
  rw [restarted_startHb notFirst]
  apply (checkResponses_sublist _ _).nodup
  rw [Std.TreeMap.map_fst_toList_eq_keys]
  exact Std.TreeMap.nodup_keys

/-- No entry before that of the name makes the loop over `hb_map` leave. -/
def Reaches (system : HbSystem) (name : String) : Prop :=
  ∀ other, compare other name = .lt → other ≠ task0 →
    system.hbMap[other]? = some false → other ∈ system.manager.taskMap

/-- The tasks that a tick restarts. -/
theorem mem_startHb_iff
    {system : HbSystem} (notFirst : system.firstLoop = false)
    {name : String} {task : TaskBase} :
    (name, task) ∈ system.startHb.2 ↔
      name ≠ task0 ∧ system.manager.taskMap[name]? = some task ∧
        system.hbMap[name]? = some false ∧ Reaches system name := by
  rw [restarted_startHb notFirst,
    mem_checkResponses_iff Std.TreeMap.ordered_keys_toList]
  simp only [mem_toList_hbMap, Reaches]

/-- Every task that has not answered is still in the task map. -/
def NoneStale (system : HbSystem) : Prop :=
  ∀ name : String, name ≠ task0 → system.hbMap[name]? = some false →
    name ∈ system.manager.taskMap

theorem NoneStale.reaches
    {system : HbSystem} (noneStale : NoneStale system) (name : String) :
    Reaches system name := by
  intro other _ different entry
  exact noneStale other different entry

/-- A tick that completes. -/
theorem NoneStale.startHb_eq
    {system : HbSystem} (noneStale : NoneStale system)
    (notFirst : system.firstLoop = false) :
    system.startHb =
      ({ system with
          hbMap := clearHbMap system.manager.taskMap
          manager := system.manager.sendHbAll },
        (checkResponses system.manager.taskMap system.hbMap.toList).1) := by
  have completed :
      (checkResponses system.manager.taskMap system.hbMap.toList).2 = true := by
    rw [checkResponses_completes_iff]
    intro name different entry
    exact noneStale name different (mem_toList_hbMap.mp entry)
  simp only [startHb]
  rw [notFirst]
  simp only [Bool.false_eq_true, if_false]
  split
  · rename_i abandoned
    rw [abandoned] at completed
    cases completed
  · rename_i finished
    rw [finished]

/-! ### Between two ticks -/

/-- Task0 has processed a response in the name of the task. -/
def Responded (actions : List HbAction) (name : String) : Prop :=
  ∃ seqId, .onMessage ⟨.taskHbRsp, seqId, .string name⟩ ∈ actions

/-- What a run without ticks does to `hb_map`. -/
structure Between (system : HbSystem) (actions : List HbAction)
    (now : HbSystem) : Prop where
  responded : ∀ name : String, Responded actions name → now.hbMap[name]? = some true
  silent : ∀ name : String, ¬ Responded actions name →
    now.hbMap[name]? = system.hbMap[name]?
  firstLoop : now.firstLoop = system.firstLoop

theorem onMessage_eq_some
    {system next : HbSystem} {msg : TaskMsg}
    (processed : system.onMessage msg = some next) :
    (∃ name, msg.type = .taskHbRsp ∧ msg.body = .string name ∧
        next = { system with hbMap := system.hbMap.insert name true }) ∨
      msg.type ≠ .taskHbRsp ∧ next = system := by
  simp only [onMessage] at processed
  split at processed
  · rename_i response
    cases body : msg.body with
    | string name =>
        simp only [body, TaskAny.castString, Option.some.injEq] at processed
        exact .inl ⟨name, response, rfl, processed.symm⟩
    | _ => simp [body, TaskAny.castString] at processed
  · rename_i other
    cases processed
    exact .inr ⟨other, rfl⟩

theorem between_step
    {system next : HbSystem} {action : HbAction} (noTick : action ≠ .tick)
    (stepped : step system action = some next) :
    Between system [action] next := by
  cases action with
  | tick => exact (noTick rfl).elim
  | addTasks task =>
      cases stepped
      constructor
      · intro name holds
        obtain ⟨seqId, listed⟩ := holds
        simp at listed
      · intro name _
        rfl
      · rfl
  | onMessage msg =>
      rcases onMessage_eq_some stepped with
        ⟨sender, response, body, rfl⟩ | ⟨other, rfl⟩
      · have isResponse : msg = ⟨.taskHbRsp, msg.seqId, .string sender⟩ := by
          rw [← response, ← body]
        constructor
        · intro name holds
          obtain ⟨seqId, listed⟩ := holds
          rw [isResponse] at listed
          simp only [List.mem_singleton, HbAction.onMessage.injEq,
            TaskMsg.mk.injEq, TaskAny.string.injEq] at listed
          rw [listed.2.2]
          simp
        · intro name silent
          have different : sender ≠ name := by
            intro equal
            subst equal
            apply silent
            exact ⟨msg.seqId, by rw [← isResponse]; exact List.mem_singleton_self _⟩
          simp [Std.TreeMap.getElem?_insert, different]
        · rfl
      · constructor
        · intro name holds
          obtain ⟨seqId, listed⟩ := holds
          simp only [List.mem_singleton, HbAction.onMessage.injEq] at listed
          rw [← listed] at other
          exact (other rfl).elim
        · intro name _
          rfl
        · rfl

theorem between_run
    {system now : HbSystem} {actions : List HbAction}
    (noTick : .tick ∉ actions) (ran : run step system actions = some now) :
    Between system actions now := by
  induction actions generalizing system with
  | nil =>
      cases ran
      constructor
      · intro name holds
        obtain ⟨seqId, listed⟩ := holds
        cases listed
      · intro name _
        rfl
      · rfl
  | cons action actions induction =>
      obtain ⟨next, stepped, rest⟩ := run_cons_eq_some_iff.mp ran
      have first : Between system [action] next := by
        apply between_step _ stepped
        intro equal
        subst equal
        exact noTick List.mem_cons_self
      have later := induction
        (fun listed => noTick (List.mem_cons_of_mem _ listed)) rest
      constructor
      · intro name holds
        obtain ⟨seqId, listed⟩ := holds
        by_cases again : Responded actions name
        · exact later.responded name again
        · rw [later.silent name again]
          apply first.responded name
          refine ⟨seqId, ?_⟩
          rcases List.mem_cons.mp listed with here | behind
          · exact List.mem_singleton.mpr here
          · exact (again ⟨seqId, behind⟩).elim
      · intro name silent
        rw [later.silent, first.silent]
        · intro holds
          obtain ⟨seqId, listed⟩ := holds
          apply silent
          exact ⟨seqId, List.mem_cons.mpr (.inl (List.mem_singleton.mp listed))⟩
        · intro holds
          obtain ⟨seqId, listed⟩ := holds
          exact silent ⟨seqId, List.mem_cons_of_mem _ listed⟩
      · rw [later.firstLoop, first.firstLoop]

/-! ### Runs -/

/-- An entry that is still false has its task in the task map, and there is
no such entry before the first tick. -/
structure Supervised (system : HbSystem) : Prop where
  registered : ∀ name : String, system.hbMap[name]? = some false →
    name ∈ system.manager.taskMap
  noneBeforeFirst : system.firstLoop = true →
    ∀ name : String, system.hbMap[name]? ≠ some false

theorem supervised_start (manager : TaskManager) :
    Supervised (start manager) := by
  constructor
  · intro name entry
    simp [start] at entry
  · intro _ name entry
    simp [start] at entry

theorem Supervised.noneStale
    {system : HbSystem} (supervised : Supervised system) :
    NoneStale system := by
  intro name _ entry
  exact supervised.registered name entry

/-- A tick other than the first one completes. -/
theorem Supervised.startHb_eq
    {system : HbSystem} (supervised : Supervised system)
    (notFirst : system.firstLoop = false) :
    system.startHb =
      ({ system with
          hbMap := clearHbMap system.manager.taskMap
          manager := system.manager.sendHbAll },
        (checkResponses system.manager.taskMap system.hbMap.toList).1) :=
  supervised.noneStale.startHb_eq notFirst

theorem Supervised.step
    {system next : HbSystem} {action : HbAction}
    (supervised : Supervised system)
    (stepped : step system action = some next) :
    Supervised next := by
  cases action with
  | tick =>
      cases stepped
      cases first : system.firstLoop with
      | true =>
          have noFalse := supervised.noneBeforeFirst first
          constructor
          · intro name entry
            simp only [startHb, first, if_true] at entry
            exact (noFalse name entry).elim
          · intro stillFirst
            simp [startHb, first] at stillFirst
      | false =>
          rw [supervised.startHb_eq first]
          constructor
          · intro name entry
            exact mem_of_clearHbMap entry
          · intro stillFirst
            simp [first] at stillFirst
  | onMessage msg =>
      rcases onMessage_eq_some stepped with ⟨sender, _, _, rfl⟩ | ⟨_, rfl⟩
      · constructor
        · intro name entry
          exact supervised.registered name (eq_false_of_insert_true entry)
        · intro stillFirst name entry
          exact supervised.noneBeforeFirst stillFirst name
            (eq_false_of_insert_true entry)
      · exact supervised
  | addTasks task =>
      cases stepped
      constructor
      · intro name entry
        exact TaskManager.mem_addTasks (supervised.registered name entry) task
      · exact supervised.noneBeforeFirst

theorem supervised_run
    {manager : TaskManager} {actions : List HbAction} {system : HbSystem}
    (ran : run step (start manager) actions = some system) :
    Supervised system :=
  run_invariant (fun _ _ _ supervised stepped => supervised.step stepped)
    (supervised_start manager) ran

theorem firstLoop_startHb (system : HbSystem) :
    system.startHb.1.firstLoop = false := by
  simp only [startHb]
  cases first : system.firstLoop with
  | true => rfl
  | false =>
      simp only [Bool.false_eq_true, if_false]
      split
      · exact first
      · rfl

theorem firstLoop_run
    {system now : HbSystem} {actions : List HbAction}
    (ran : run step system actions = some now) :
    now.firstLoop = true ↔ system.firstLoop = true ∧ .tick ∉ actions := by
  induction actions generalizing system with
  | nil =>
      cases ran
      simp
  | cons action actions induction =>
      obtain ⟨next, stepped, rest⟩ := run_cons_eq_some_iff.mp ran
      rw [induction rest]
      by_cases tick : action = .tick
      · subst tick
        cases stepped
        simp [firstLoop_startHb]
      · rw [(between_step tick stepped).firstLoop]
        simp [Ne.symm tick]

/-- The first tick does nothing, and every later one restarts exactly the
tasks that were registered at the previous tick, were asked then, and have
not answered since; each tick then asks every task but task0 once. -/
theorem startHb_exact
    {manager : TaskManager} {front : List HbAction} {previous : HbSystem}
    (ran : run step (start manager) front = some previous) :
    (.tick ∉ front →
      previous.startHb = ({ previous with firstLoop := false }, [])) ∧
    ∀ {between : List HbAction} {now : HbSystem},
      .tick ∉ between →
      run step previous.startHb.1 between = some now →
        (∀ name task, (name, task) ∈ now.startHb.2 ↔
          name ≠ task0 ∧ now.manager.taskMap[name]? = some task ∧
            name ∈ previous.manager.taskMap ∧ .tick ∈ front ∧
            ¬ Responded between name) ∧
        (now.startHb.2.map Prod.fst).Nodup ∧
        (∀ name : String, now.startHb.1.hbMap[name]? =
          if name ∈ now.startHb.1.manager.taskMap then some false else none) ∧
        ∀ (name : String) task, now.manager.taskMap[name]? = some task →
          ∃ after, now.startHb.1.manager.taskMap[name]? = some after ∧
            (name = task0 → after.taskQueue = task.taskQueue) ∧
            (name ≠ task0 → ∃ seqId, after.taskQueue =
              task.taskQueue ++ [TaskManager.hbReq name seqId]) := by
  have ticked : run step (start manager) (front ++ [.tick]) =
      some previous.startHb.1 :=
    run_append_eq_some_iff.mpr ⟨previous, ran, rfl⟩
  have firstLoop : previous.firstLoop = true ↔ .tick ∉ front := by
    rw [firstLoop_run ran]
    simp [start]
  refine ⟨fun noTick => by simp [startHb, firstLoop.mpr noTick], ?_⟩
  intro between now noTick betweenRan
  have wholeRun : run step (start manager) ((front ++ [.tick]) ++ between) =
      some now :=
    run_append_eq_some_iff.mpr ⟨_, ticked, betweenRan⟩
  have supervised := supervised_run wholeRun
  have notFirst : now.firstLoop = false := by
    rw [Bool.eq_false_iff]
    intro stillFirst
    have absent := ((firstLoop_run wholeRun).mp stillFirst).2
    simp at absent
  have since := between_run noTick betweenRan
  -- an entry is false at this tick if the previous tick wrote it, and no
  -- response has come since
  have stillFalse : ∀ name : String, now.hbMap[name]? = some false ↔
      name ∈ previous.manager.taskMap ∧ .tick ∈ front ∧
        ¬ Responded between name := by
    intro name
    by_cases responded : Responded between name
    · simp [since.responded name responded, responded]
    · rw [since.silent name responded]
      by_cases earlierTick : .tick ∈ front
      · have later : previous.firstLoop = false := by
          rw [Bool.eq_false_iff]
          intro isFirst
          exact firstLoop.mp isFirst earlierTick
        rw [(supervised_run ran).startHb_eq later]
        simp [getElem?_clearHbMap, earlierTick, responded]
      · have isFirst := firstLoop.mpr earlierTick
        have noFalse := (supervised_run ran).noneBeforeFirst isFirst name
        simp [startHb, isFirst, noFalse, earlierTick]
  refine ⟨?_, nodup_startHb notFirst, ?_⟩
  · intro name task
    have reaches := supervised.noneStale.reaches name
    rw [mem_startHb_iff notFirst, stillFalse]
    simp only [reaches, and_true]
  rw [supervised.startHb_eq notFirst]
  constructor
  · intro name
    simp only [getElem?_clearHbMap, TaskManager.mem_sendHbAll]
  · intro name task found
    exact TaskManager.taskQueue_sendHbAll found

/-- The second tick asks the task, and it does not answer. -/
theorem startHb_exact_noResponse :
    ∃ previous now,
      run step (start .empty) [.addTasks (.create "w"), .tick] =
        some previous ∧
      run step previous.startHb.1 [] = some now ∧
      ∃ task, ("w", task) ∈ now.startHb.2 :=
  ⟨_, _, rfl, rfl, _,
    (((@startHb_exact .empty [.addTasks (.create "w"), .tick] _ rfl).2
        List.not_mem_nil rfl).1 "w" _).mpr
      ⟨by decide, rfl, by decide, by simp,
        fun responded => by simp [Responded] at responded⟩⟩

end HbSystem

end DBWrapper
