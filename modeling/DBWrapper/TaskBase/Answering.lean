import DBWrapper.Foundation.Responder
import DBWrapper.TaskBase.Scheduling

/-!
# How the loops answer heartbeat requests

A worker answers a heartbeat request itself, in `process_msg`, by changing the
body and the type of the message it has popped, so its handler never sees the
request.  Every message that is put into a queue is recorded together with the
thread that sends it.
-/

namespace DBWrapper

open Foundation

/-- A message that a thread has put into the queue of a task. -/
structure Sent where
  thread : Thread
  target : String
  msg : TaskMsg
  deriving DecidableEq, Repr

/-- The messages that have been sent to the task, in order. -/
def sentTo (target : String) (sends : List Sent) : List TaskMsg :=
  (sends.filter (·.target = target)).map Sent.msg

theorem sentTo_append (target : String) (left right : List Sent) :
    sentTo target (left ++ right) =
      sentTo target left ++ sentTo target right := by
  simp only [sentTo, List.filter_append, List.map_append]

namespace TaskSystem

/-- What `send2task` puts into a queue. -/
def sendsTo (system : TaskSystem) (thread : Thread) (target : String)
    (msg : TaskMsg) : List Sent :=
  match system.taskMap[target]? with
  | none => []
  | some _ => [{ thread, target, msg }]

/-- What an action puts into a queue. -/
def sends (system : TaskSystem) : TaskAction → List Sent
  | .inQueue thread target msg => system.sendsTo thread target msg
  | .reply name =>
      match system.taskMap[name]?, system.phase name with
      | some task, .replying tmp =>
          system.sendsTo (.loop name) task0 (hbRsp task.name tmp)
      | _, _ => []
  | _ => []

theorem enqueued_inQueue (system : TaskSystem) (thread : Thread)
    (target : String) (msg : TaskMsg) (other : String) :
    (system.inQueue thread target msg).enqueued other =
      system.enqueued other ++
        sentTo other (system.sendsTo thread target msg) := by
  simp only [inQueue, sendsTo]
  cases system.taskMap[target]? with
  | none => simp [sentTo]
  | some task =>
      by_cases same : other = target
      · subst same
        simp [sentTo]
      · simp [sentTo, same, Ne.symm same]

theorem enqueued_step
    {system next : TaskSystem} {action : TaskAction}
    (stepped : system.step action = some next) (target : String) :
    next.enqueued target =
      system.enqueued target ++ sentTo target (system.sends action) := by
  cases action with
  | inQueue thread other msg =>
      cases moves_of_step stepped with
      | inQueue _ _ _ => exact enqueued_inQueue system thread other msg target
  | reply name =>
      simp only [step] at stepped
      split at stepped
      · rename_i task tmp found replying
        split at stepped
        · cases stepped
          simp only [sends, found, replying]
          exact enqueued_inQueue system _ _ _ target
        · cases stepped
      · cases stepped
  | _ =>
      have unchanged : next.enqueued = system.enqueued := by
        cases moves_of_step stepped <;> rfl
      rw [unchanged]
      exact (List.append_nil _).symm

/-! ### The tasks -/

/-- No task is added, removed or renamed. -/
def SameTasks (system next : TaskSystem) : Prop :=
  ∀ name : String, next.taskMap[name]?.map TaskBase.name =
    system.taskMap[name]?.map TaskBase.name

theorem sameTasks_of_insert
    {system next : TaskSystem} {name : String} {before after : TaskBase}
    (found : system.taskMap[name]? = some before)
    (inserted : next.taskMap = system.taskMap.insert name after)
    (sameName : after.name = before.name) :
    SameTasks system next := by
  intro other
  rw [inserted, TaskMap.getElem?_insert]
  split
  · rename_i same
    subst same
    rw [found, Option.map_some, Option.map_some, sameName]
  · rfl

theorem sameTasks_inQueue (system : TaskSystem) (thread : Thread)
    (target : String) (msg : TaskMsg) :
    SameTasks system (system.inQueue thread target msg) := by
  cases found : system.taskMap[target]? with
  | none =>
      intro name
      simp only [inQueue, found]
  | some task =>
      apply @sameTasks_of_insert _ _ _ _ (task.inQueue msg) found _ rfl
      simp only [inQueue, found]

theorem sameTasks_step
    {system next : TaskSystem} {action : TaskAction}
    (stepped : system.step action = some next) : SameTasks system next := by
  cases moves_of_step stepped with
  | @init name task found _ => exact sameTasks_of_insert found rfl rfl
  | inQueue target msg _ => exact sameTasks_inQueue system _ target msg
  | @write thread target task _ found =>
      apply sameTasks_of_insert found rfl
      rw [TaskBase.writeEvfd_eq]
  | spurious name =>
      intro other
      rfl
  | @evfdCallback name task after num found _ read =>
      apply sameTasks_of_insert found rfl
      rw [TaskBase.readEvfd_eq_some read]
  | swap found _ => exact sameTasks_of_insert found rfl rfl
  | rest found _ _ =>
      intro other
      rfl
  | peek found _ _ =>
      intro other
      rfl
  | take found _ _ _ => exact sameTasks_of_insert found rfl rfl
  | @reply name task tmp _ _ =>
      exact sameTasks_inQueue system (.loop name) task0 (hbRsp task.name tmp)
  | @finish name task tmp popped found _ =>
      apply sameTasks_of_insert found rfl
      cases popped <;> rfl

theorem SameTasks.mem
    {system next : TaskSystem} (sameTasks : SameTasks system next)
    {name : String} (listed : name ∈ system.taskMap) :
    name ∈ next.taskMap := by
  obtain ⟨before, found⟩ := TaskMap.mem_iff.mp listed
  have same := sameTasks name
  rw [found, Option.map_some] at same
  obtain ⟨after, afterFound, _⟩ := Option.map_eq_some_iff.mp same
  exact TaskMap.mem_iff.mpr ⟨after, afterFound⟩

/-! ### What a step does to one loop -/

/-- The phase of the loop and the messages it is done with after an action,
whoever performs it. -/
inductive LoopTurn (system : TaskSystem) (name : String) :
    TaskAction → LoopPhase → List TaskMsg → Prop where
  | still {action : TaskAction} (noReply : action ≠ .reply name) :
      LoopTurn system name action (system.phase name) (system.handled name)
  | waits {action : TaskAction} {phase : LoopPhase}
      (noReply : action ≠ .reply name)
      (before : (system.phase name).current = [])
      (after : phase.current = []) :
      LoopTurn system name action phase (system.handled name)
  | handles {task : TaskBase} {tmp : TaskMsg} {popped : Bool}
      (found : system.taskMap[name]? = some task)
      (draining : system.phase name = .draining)
      (kind : tmp.type = .taskHbReq → task.name = task0) :
      LoopTurn system name (.next name) (.handling tmp popped)
        (system.handled name)
  | takes {task : TaskBase} {tmp : TaskMsg}
      (found : system.taskMap[name]? = some task)
      (draining : system.phase name = .draining)
      (request : tmp.type = .taskHbReq) (worker : task.name ≠ task0) :
      LoopTurn system name (.next name) (.replying tmp) (system.handled name)
  | answers {task : TaskBase} {tmp : TaskMsg}
      (found : system.taskMap[name]? = some task)
      (replying : system.phase name = .replying tmp) :
      LoopTurn system name (.reply name) (.replied tmp) (system.handled name)
  | finishes {tmp : TaskMsg}
      (current : (system.phase name).current = [tmp])
      (answered : system.phase name ≠ .replying tmp) :
      LoopTurn system name (.finish name) .draining
        (system.handled name ++ [tmp])

/-- It is enough to look at the loop that the step is about. -/
theorem LoopTurn.of_own
    {system next : TaskSystem} {acting name : String} {action : TaskAction}
    (others : ∀ name, name ≠ acting → next.phase name = system.phase name ∧
      next.handled name = system.handled name ∧ action ≠ .reply name)
    (own : LoopTurn system acting action (next.phase acting)
      (next.handled acting)) :
    LoopTurn system name action (next.phase name) (next.handled name) := by
  by_cases same : name = acting
  · subst same
    exact own
  · obtain ⟨samePhase, sameHandled, noReply⟩ := others name same
    rw [samePhase, sameHandled]
    exact .still noReply

theorem loopTurn_setPhase
    {system next : TaskSystem} {acting name : String} {action : TaskAction}
    {phase : LoopPhase}
    (phases : next.phase = Function.update system.phase acting phase)
    (handled : next.handled = system.handled)
    (noReply : ∀ name, name ≠ acting → action ≠ .reply name)
    (own : LoopTurn system acting action phase (system.handled acting)) :
    LoopTurn system name action (next.phase name) (next.handled name) := by
  apply LoopTurn.of_own
  · intro other different
    rw [phases, handled]
    exact ⟨Function.update_of_ne different _ _, rfl, noReply other different⟩
  · rw [phases, handled, Function.update_self]
    exact own

theorem handled_inQueue (system : TaskSystem) (thread : Thread)
    (target : String) (msg : TaskMsg) :
    (system.inQueue thread target msg).handled = system.handled := by
  simp only [inQueue]
  split <;> rfl

theorem loopTurn_next
    {system next : TaskSystem} {acting : String}
    (stepped : system.step (.next acting) = some next) (name : String) :
    LoopTurn system name (.next acting) (next.phase name)
      (next.handled name) := by
  simp only [step] at stepped
  split at stepped
  · rename_i task found draining
    have free : (system.phase acting).current = [] := by
      rw [draining]
      rfl
    split at stepped
    · cases stepped
      exact loopTurn_setPhase rfl rfl (by simp)
        (.waits (by simp) free rfl)
    · rename_i tmp _ _
      split at stepped
      · rename_i request
        split at stepped
        · rename_i manages
          cases stepped
          exact loopTurn_setPhase rfl rfl (by simp)
            (.handles found draining (fun _ => manages))
        · rename_i worker
          cases stepped
          exact loopTurn_setPhase rfl rfl (by simp)
            (.takes found draining request worker)
      · rename_i other
        cases stepped
        exact loopTurn_setPhase rfl rfl (by simp)
          (.handles found draining (fun request => (other request).elim))
  · cases stepped

theorem loopTurn_reply
    {system next : TaskSystem} {acting : String}
    (stepped : system.step (.reply acting) = some next) (name : String) :
    LoopTurn system name (.reply acting) (next.phase name)
      (next.handled name) := by
  simp only [step] at stepped
  split at stepped
  · rename_i task tmp found replying
    split at stepped
    · cases stepped
      apply loopTurn_setPhase
      · rw [setPhase, phase_inQueue]
      · rw [setPhase, handled_inQueue]
      · intro other different same
        cases same
        exact different rfl
      · exact .answers found replying
    · cases stepped
  · cases stepped

theorem loopTurn_finish
    {system next : TaskSystem} {acting : String}
    (stepped : system.step (.finish acting) = some next) (name : String) :
    LoopTurn system name (.finish acting) (next.phase name)
      (next.handled name) := by
  have finishes : ∀ (task : TaskBase) (tmp : TaskMsg),
      (system.phase acting).current = [tmp] →
      system.phase acting ≠ .replying tmp →
        LoopTurn system name (.finish acting)
          ((system.finishMsg acting task tmp).phase name)
          ((system.finishMsg acting task tmp).handled name) := by
    intro task tmp current answered
    apply @LoopTurn.of_own _ _ acting
    · intro other different
      simp [finishMsg, different]
    · simp only [finishMsg, Function.update_self]
      exact .finishes current answered
  simp only [step] at stepped
  split at stepped
  · split at stepped
    · rename_i task tmp popped found handling
      have current : (system.phase acting).current = [tmp] := by
        rw [handling, LoopPhase.current]
      split at stepped
      · cases stepped
        exact finishes _ tmp current (by simp [handling])
      · cases stepped
        exact finishes _ tmp current (by simp [handling])
    · rename_i task tmp found replied
      cases stepped
      apply finishes
      · rw [replied, LoopPhase.current]
      · simp [replied]
    · cases stepped
  · cases stepped

theorem loopTurn_step
    {system next : TaskSystem} {action : TaskAction}
    (stepped : system.step action = some next) (name : String) :
    LoopTurn system name action (next.phase name) (next.handled name) := by
  cases action with
  | next acting => exact loopTurn_next stepped name
  | reply acting => exact loopTurn_reply stepped name
  | finish acting => exact loopTurn_finish stepped name
  | init acting =>
      cases moves_of_step stepped with
      | init found notStarted =>
          have free : (system.phase acting).current = [] := by
            rw [notStarted]
            rfl
          exact loopTurn_setPhase rfl rfl (by simp)
            (.waits (by simp) free rfl)
  | inQueue thread target msg =>
      cases moves_of_step stepped with
      | inQueue _ _ _ =>
          rw [phase_inQueue, handled_inQueue]
          exact .still (by simp)
  | write thread =>
      cases moves_of_step stepped with
      | write _ _ => exact .still (by simp)
  | evfdCallback acting =>
      cases moves_of_step stepped with
      | spurious _ => exact .still (by simp)
      | evfdCallback found idle _ =>
          have free : (system.phase acting).current = [] := by
            rw [idle]
            rfl
          exact loopTurn_setPhase rfl rfl (by simp)
            (.waits (by simp) free rfl)
  | swap acting =>
      cases moves_of_step stepped with
      | swap found counted =>
          have free : (system.phase acting).current = [] := by
            rw [counted]
            rfl
          exact loopTurn_setPhase rfl rfl (by simp)
            (.waits (by simp) free rfl)

/-! ### Requests and answers -/

/-- No worker hands a request to its handler, and only workers answer. -/
structure Answering (system : TaskSystem) : Prop where
  named : ∀ (name : String) task, system.taskMap[name]? = some task →
    task.name = name
  handling : ∀ name tmp popped, name ≠ task0 →
    system.phase name = .handling tmp popped → tmp.type ≠ .taskHbReq
  replying : ∀ name tmp,
    (system.phase name = .replying tmp ∨ system.phase name = .replied tmp) →
      name ≠ task0 ∧ tmp.type = .taskHbReq

theorem LoopTurn.type_handling
    {system : TaskSystem} {name : String} {action : TaskAction}
    {phase : LoopPhase} {handled : List TaskMsg}
    (turn : LoopTurn system name action phase handled)
    (answering : Answering system) (worker : name ≠ task0)
    {tmp : TaskMsg} {popped : Bool} (handles : phase = .handling tmp popped) :
    tmp.type ≠ .taskHbReq := by
  cases turn with
  | still _ => exact answering.handling name tmp popped worker handles
  | waits _ _ after =>
      rw [handles] at after
      cases after
  | handles found _ kind =>
      cases handles
      intro request
      apply worker
      rw [← answering.named name _ found]
      exact kind request
  | takes _ _ _ _ => cases handles
  | answers _ _ => cases handles
  | finishes _ _ => cases handles

theorem LoopTurn.type_replying
    {system : TaskSystem} {name : String} {action : TaskAction}
    {phase : LoopPhase} {handled : List TaskMsg}
    (turn : LoopTurn system name action phase handled)
    (answering : Answering system) {tmp : TaskMsg}
    (replies : phase = .replying tmp ∨ phase = .replied tmp) :
    name ≠ task0 ∧ tmp.type = .taskHbReq := by
  cases turn with
  | still _ => exact answering.replying name tmp replies
  | waits _ _ after =>
      rcases replies with replying | replied
      · rw [replying] at after
        cases after
      · rw [replied] at after
        cases after
  | handles _ _ _ => rcases replies with replying | replied <;> contradiction
  | takes found _ request worker =>
      rcases replies with replying | replied
      · cases replying
        rw [answering.named name _ found] at worker
        exact ⟨worker, request⟩
      · cases replied
  | answers _ replying =>
      rcases replies with other | replied
      · cases other
      · cases replied
        exact answering.replying name tmp (.inl replying)
  | finishes _ _ => rcases replies with replying | replied <;> contradiction

theorem SameTasks.named
    {system next : TaskSystem} (sameTasks : SameTasks system next)
    (answering : Answering system) {name : String} {task : TaskBase}
    (found : next.taskMap[name]? = some task) : task.name = name := by
  have same := sameTasks name
  rw [found, Option.map_some] at same
  obtain ⟨before, beforeFound, sameName⟩ := Option.map_eq_some_iff.mp same.symm
  rw [← sameName]
  exact answering.named name before beforeFound

theorem Answering.step
    {system next : TaskSystem} {action : TaskAction}
    (answering : Answering system)
    (stepped : system.step action = some next) : Answering next := by
  constructor
  · intro name task found
    exact (sameTasks_step stepped).named answering found
  · intro name tmp popped worker handles
    exact (loopTurn_step stepped name).type_handling answering worker handles
  · intro name tmp replies
    exact (loopTurn_step stepped name).type_replying answering replies

theorem Answering.inQueue
    {system : TaskSystem} (answering : Answering system) (thread : Thread)
    (target : String) (msg : TaskMsg) :
    Answering (system.inQueue thread target msg) := by
  constructor
  · intro name task found
    exact (sameTasks_inQueue system thread target msg).named answering found
  · rw [phase_inQueue]
    exact answering.handling
  · rw [phase_inQueue]
    exact answering.replying

end TaskSystem

/-- The heartbeat request that a loop has popped. -/
def LoopPhase.stage : LoopPhase → Stage TaskMsg
  | .replying tmp => .taken tmp
  | .replied tmp => .answered tmp
  | _ => .free

theorem LoopPhase.stage_of_current {phase : LoopPhase}
    (waiting : phase.current = []) : phase.stage = .free := by
  cases phase with
  | handling tmp popped => cases waiting
  | replying tmp => cases waiting
  | replied tmp => cases waiting
  | _ => rfl

/-- The request whose response the loop has just enqueued. -/
def LoopPhase.answered : LoopPhase → List TaskMsg
  | .replied tmp => [tmp]
  | _ => []

/-- The sequence number and the body of every heartbeat response that the
loop of the task has enqueued to task0. -/
def repliesOf (name : String) (sends : List Sent) : List (UInt32 × TaskAny) :=
  (sends.filter (fun sent => sent.thread = .loop name ∧
    sent.target = task0 ∧ sent.msg.type = .taskHbRsp)).map
      (fun sent => (sent.msg.seqId, sent.msg.body))

/-- The response to a request of the worker. -/
def replyOf (name : String) (tmp : TaskMsg) : UInt32 × TaskAny :=
  (tmp.seqId, .string name)

/-- The loop of a worker, seen as a server of heartbeat requests. -/
def LoopPhase.responder (handled : List TaskMsg)
    (replies : List (UInt32 × TaskAny)) (phase : LoopPhase) :
    Responder TaskMsg (UInt32 × TaskAny) :=
  { stage := phase.stage
    finished := handled.filter (·.type = .taskHbReq)
    replies }

/-- Neither a request nor a response is sent by hand. -/
def OrdinarySend (action : TaskAction) : Prop :=
  ∀ thread target msg, action = .inQueue thread target msg →
    msg.type ≠ .taskHbReq ∧ msg.type ≠ .taskHbRsp

namespace TaskSystem

theorem mem_sendsTo
    {system : TaskSystem} {thread : Thread} {target : String}
    {msg : TaskMsg} {sent : Sent}
    (listed : sent ∈ system.sendsTo thread target msg) :
    sent = { thread, target, msg } := by
  simp only [sendsTo] at listed
  split at listed
  · cases listed
  · exact List.mem_singleton.mp listed

/-- An action enqueues an ordinary message, or a loop its response. -/
theorem mem_sends
    {system : TaskSystem} {action : TaskAction} {sent : Sent}
    (ordinary : OrdinarySend action) (listed : sent ∈ system.sends action) :
    (sent.msg.type ≠ .taskHbReq ∧ sent.msg.type ≠ .taskHbRsp) ∨
      ∃ name tmp, action = .reply name ∧
        system.phase name = .replying tmp ∧ sent.thread = .loop name ∧
        sent.msg.type = .taskHbRsp := by
  cases action with
  | inQueue thread target msg =>
      rw [mem_sendsTo listed]
      exact .inl (ordinary thread target msg rfl)
  | reply name =>
      simp only [sends] at listed
      split at listed
      · rename_i task tmp _ replying
        rw [mem_sendsTo listed]
        exact .inr ⟨name, tmp, rfl, replying, rfl, rfl⟩
      · cases listed
  | _ => cases listed

theorem repliesOf_sends_eq_nil
    {system : TaskSystem} {name : String} {action : TaskAction}
    (ordinary : OrdinarySend action) (noReply : action ≠ .reply name) :
    repliesOf name (system.sends action) = [] := by
  simp only [repliesOf, List.map_eq_nil_iff, List.filter_eq_nil_iff,
    decide_eq_true_eq]
  intro sent listed matched
  obtain ⟨thread, _, response⟩ := matched
  rcases mem_sends ordinary listed with ⟨_, other⟩ | ⟨acting, _, isReply, _, loop, _⟩
  · exact other response
  · rw [thread] at loop
    cases loop
    exact noReply isReply

/-- The loop of a worker does what a server of heartbeat requests does. -/
theorem LoopTurn.responder
    {system : TaskSystem} {name : String} {action : TaskAction}
    {phase : LoopPhase} {handled : List TaskMsg}
    (turn : LoopTurn system name action phase handled)
    (answering : Answering system) (listed : task0 ∈ system.taskMap)
    (worker : name ≠ task0) (ordinary : OrdinarySend action)
    (replies : List (UInt32 × TaskAny)) :
    Relation.ReflTransGen (Responder.Step (replyOf name))
      ((system.phase name).responder (system.handled name) replies)
      (phase.responder handled
        (replies ++ repliesOf name (system.sends action))) := by
  cases turn with
  | still noReply =>
      rw [repliesOf_sends_eq_nil ordinary noReply, List.append_nil]
  | waits noReply before after =>
      rw [repliesOf_sends_eq_nil ordinary noReply, List.append_nil]
      simp only [LoopPhase.responder, LoopPhase.stage_of_current before,
        LoopPhase.stage_of_current after]
      exact .refl
  | handles _ draining _ =>
      rw [repliesOf_sends_eq_nil ordinary (by simp), List.append_nil]
      simp only [LoopPhase.responder, draining, LoopPhase.stage]
      exact .refl
  | @takes task tmp _ draining _ _ =>
      rw [repliesOf_sends_eq_nil ordinary (by simp), List.append_nil]
      simp only [LoopPhase.responder, draining]
      exact .single (.take tmp rfl)
  | @answers task tmp found replying =>
      obtain ⟨manager, managerFound⟩ := TaskMap.mem_iff.mp listed
      have reply : repliesOf name (system.sends (.reply name)) =
          [replyOf name tmp] := by
        simp only [sends, found, replying, sendsTo, managerFound]
        rw [answering.named name task found]
        simp [repliesOf, replyOf, hbRsp]
      rw [reply]
      simp only [LoopPhase.responder, replying]
      exact .single (.answer rfl)
  | @finishes tmp current answered =>
      rw [repliesOf_sends_eq_nil ordinary (by simp), List.append_nil]
      simp only [LoopPhase.responder, List.filter_append]
      cases phase : system.phase name with
      | handling other popped =>
          rw [phase] at current
          cases current
          have kind := answering.handling name tmp popped worker phase
          simp only [List.filter_singleton, kind, decide_false, cond_false,
            List.append_nil]
          exact .refl
      | replying other =>
          rw [phase] at current
          cases current
          exact (answered phase).elim
      | replied other =>
          rw [phase] at current
          cases current
          have request := (answering.replying name tmp (.inr phase)).2
          simp only [List.filter_singleton, request, decide_true, cond_true]
          exact .single (.finish rfl)
      | _ =>
          rw [phase] at current
          cases current

end TaskSystem

end DBWrapper
