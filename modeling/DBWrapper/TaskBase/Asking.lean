import DBWrapper.Foundation.Runs
import DBWrapper.TaskBase.Answering
import DBWrapper.TaskBase.Heartbeat

/-!
# Heartbeat requests and their answers

Task0 runs `send_hb_all` while the other threads send and all loops process
their messages.  Every request is answered once, by its worker, under its own
number, and the numbers are different until the counter wraps around.
-/

namespace DBWrapper

open Foundation

/-- Where task0 is in `send_hb_all`, with the names still to come. -/
inductive SendHbAll where
  | notRunning
  /-- At the head of the loop. -/
  | atLoop (names : List String)
  /-- Inside `send2task`, before `_seq_id++`. -/
  | inBody (names : List String)
  deriving DecidableEq, Repr

structure AskingSystem where
  tasks : TaskSystem
  seqId : UInt32
  sendHbAll : SendHbAll
  sends : List Sent

inductive AskingAction where
  | act (action : TaskAction)
  | sendHbAll
  | sendHb
  | incSeqId
  deriving DecidableEq, Repr

namespace AskingSystem

/-- While task0 is in `send_hb_all` its loop does nothing else. -/
def mayAct (system : AskingSystem) : TaskAction → Bool
  | .init name | .evfdCallback name | .swap name | .next name | .reply name
  | .finish name => name ≠ task0 ∨ system.sendHbAll = .notRunning
  | .inQueue thread _ _ =>
      thread ≠ .loop task0 ∨ system.sendHbAll = .notRunning
  | .write _ => true

/-- Task0 calls `send_hb_all` from its timer or from a handler. -/
def mayAsk (system : AskingSystem) : Bool :=
  system.sendHbAll = .notRunning ∧
    system.tasks.pending (.loop task0) = none ∧
    (system.tasks.phase task0 = .idle ∨ system.tasks.maySend (.loop task0))

def step (system : AskingSystem) : AskingAction → Option AskingSystem
  | .act action =>
      if system.mayAct action then
        match system.tasks.step action with
        | none => none
        | some tasks =>
            some
              { system with
                tasks
                sends := system.sends ++ system.tasks.sends action }
      else
        none
  | .sendHbAll =>
      if system.mayAsk then
        some { system with sendHbAll := .atLoop system.tasks.taskMap.keys }
      else
        none
  | .sendHb =>
      match system.sendHbAll with
      | .atLoop [] => some { system with sendHbAll := .notRunning }
      | .atLoop (name :: names) =>
          if name ≠ task0 then
            let msg := TaskManager.hbReq name system.seqId
            some
              { system with
                tasks := system.tasks.inQueue (.loop task0) name msg
                sendHbAll := .inBody names
                sends :=
                  system.sends ++
                    system.tasks.sendsTo (.loop task0) name msg }
          else
            some { system with sendHbAll := .atLoop names }
      | _ => none
  | .incSeqId =>
      match system.sendHbAll with
      | .inBody names =>
          if system.tasks.pending (.loop task0) = none then
            some
              { system with
                seqId := system.seqId + 1
                sendHbAll := .atLoop names }
          else
            none
      | _ => none

end AskingSystem

namespace AskingSystem

/-- The task manager that the threads share. -/
def manager (system : AskingSystem) : TaskManager :=
  { taskMap := system.tasks.taskMap, seqId := system.seqId }

/-- A turn of the loop with nothing in between is `sendHb`. -/
theorem sendHb_of_steps
    {system asked written next : AskingSystem} {name : String}
    {names : List String} {task : TaskBase}
    (atLoop : system.sendHbAll = .atLoop (name :: names))
    (worker : name ≠ task0) (found : system.tasks.taskMap[name]? = some task)
    (asks : step system .sendHb = some asked)
    (writes : step asked (.act (.write (.loop task0))) = some written)
    (counts : step written .incSeqId = some next) :
    next.sendHbAll = .atLoop names ∧
      next.seqId = (system.manager.sendHb name).seqId ∧
      ∀ other : String, next.tasks.taskMap[other]? =
        (system.manager.sendHb name).taskMap[other]? := by
  simp only [step, atLoop, if_pos worker, Option.some.injEq] at asks
  subst asks
  have enqueued : (system.tasks.inQueue (.loop task0) name
      (TaskManager.hbReq name system.seqId)).taskMap =
        system.tasks.taskMap.insert name
          (task.inQueue (TaskManager.hbReq name system.seqId)) := by
    simp only [TaskSystem.inQueue, found]
  have pending : (system.tasks.inQueue (.loop task0) name
      (TaskManager.hbReq name system.seqId)).pending (.loop task0) =
        some name := by
    simp only [TaskSystem.inQueue, found, Function.update_self]
  simp only [step, mayAct, if_true, TaskSystem.step, pending, enqueued,
    TaskMap.getElem?_insert, Option.some.injEq] at writes
  subst writes
  simp only [step, Function.update_self, if_true, Option.some.injEq] at counts
  subst counts
  refine ⟨rfl, ?_, ?_⟩
  · simp [TaskManager.sendHb, worker, manager, TaskManager.send2taskWith,
      TaskManager.send2task, found]
  · intro other
    rw [TaskManager.getElem?_sendHb]
    by_cases same : other = name
    · subst same
      simp [TaskSystem.setTask, manager, worker, found, TaskManager.received]
    · simp [TaskSystem.setTask, manager, enqueued, same, Ne.symm same,
        TaskMap.getElem?_insert]

end AskingSystem

/-- The heartbeat requests among the sends, in order. -/
def requestsIn (sends : List Sent) : List TaskMsg :=
  (sends.map Sent.msg).filter (·.type = .taskHbReq)

theorem requestsIn_append (left right : List Sent) :
    requestsIn (left ++ right) = requestsIn left ++ requestsIn right := by
  simp only [requestsIn, List.map_append, List.filter_append]

/-- The loops and the ordinary sends enqueue no request. -/
theorem requestsIn_sends
    {system : TaskSystem} {action : TaskAction}
    (ordinary : OrdinarySend action) :
    requestsIn (system.sends action) = [] := by
  rw [requestsIn, List.filter_eq_nil_iff]
  intro msg listed request
  rw [decide_eq_true_eq] at request
  obtain ⟨sent, sentListed, rfl⟩ := List.mem_map.mp listed
  rcases TaskSystem.mem_sends ordinary sentListed with
    ⟨other, _⟩ | ⟨_, _, _, _, _, response⟩
  · exact other request
  · rw [response] at request
    cases request

/-- The names that the loop of `send_hb_all` has still to come to. -/
def SendHbAll.names : SendHbAll → List String
  | .notRunning => []
  | .atLoop names | .inBody names => names

namespace AskingSystem

/-- The heartbeat requests that have been enqueued, in order. -/
def requests (system : AskingSystem) : List TaskMsg :=
  requestsIn system.sends

/-- The number of the next request, whether or not `_seq_id` has been
incremented after the last one. -/
def nextSeqId (system : AskingSystem) : UInt32 :=
  match system.sendHbAll with
  | .inBody _ => system.seqId + 1
  | _ => system.seqId

/-- What a step does to the system. -/
inductive Effect (system : AskingSystem) :
    AskingAction → AskingSystem → Prop where
  | act {action : TaskAction} {tasks : TaskSystem}
      (stepped : system.tasks.step action = some tasks) :
      Effect system (.act action)
        { system with
          tasks, sends := system.sends ++ system.tasks.sends action }
  | moves {action : AskingAction} {seqId : UInt32} {sendHbAll : SendHbAll}
      (number : { system with seqId, sendHbAll }.nextSeqId = system.nextSeqId)
      (names : ∀ name ∈ sendHbAll.names,
        name ∈ system.sendHbAll.names ∨ name ∈ system.tasks.taskMap) :
      Effect system action { system with seqId, sendHbAll }
  | asks {name : String} {names : List String}
      (atLoop : system.sendHbAll = .atLoop (name :: names))
      (worker : name ≠ task0) :
      Effect system .sendHb
        { system with
          tasks := system.tasks.inQueue (.loop task0) name
            (TaskManager.hbReq name system.seqId)
          sendHbAll := .inBody names
          sends := system.sends ++
            system.tasks.sendsTo (.loop task0) name
              (TaskManager.hbReq name system.seqId) }

theorem effect_of_step
    {system next : AskingSystem} {action : AskingAction}
    (stepped : system.step action = some next) :
    Effect system action next := by
  cases action with
  | act action =>
      simp only [step] at stepped
      split at stepped
      · split at stepped
        · cases stepped
        · rename_i tasks moved
          cases stepped
          exact .act moved
      · cases stepped
  | sendHbAll =>
      simp only [step] at stepped
      split at stepped
      · rename_i may
        cases stepped
        simp only [mayAsk, decide_eq_true_eq] at may
        apply Effect.moves
        · simp only [nextSeqId, may.1]
        · intro name listed
          exact .inr (Std.TreeMap.mem_keys.mp listed)
      · cases stepped
  | sendHb =>
      simp only [step] at stepped
      split at stepped
      · rename_i atLoop
        cases stepped
        apply Effect.moves
        · simp only [nextSeqId, atLoop]
        · intro name listed
          cases listed
      · rename_i name names atLoop
        split at stepped
        · rename_i worker
          cases stepped
          exact .asks atLoop worker
        · cases stepped
          apply Effect.moves
          · simp only [nextSeqId, atLoop]
          · intro other listed
            rw [atLoop]
            exact .inl (List.mem_cons_of_mem _ listed)
      · cases stepped
  | incSeqId =>
      simp only [step] at stepped
      split at stepped
      · rename_i names inBody
        split at stepped
        · cases stepped
          apply Effect.moves
          · simp only [nextSeqId, inBody]
          · intro name listed
            rw [inBody]
            exact .inl listed
        · cases stepped
      · cases stepped

/-! ### The correspondence -/

/-- The loops answer every request once, and task0 answers none. -/
structure Corresponds (system : AskingSystem) : Prop where
  answering : system.tasks.Answering
  listed : task0 ∈ system.tasks.taskMap
  oneToOne : ∀ name, name ≠ task0 →
    Responder.OneToOne (replyOf name)
      ((system.tasks.phase name).responder (system.tasks.handled name)
        (repliesOf name system.sends))
  silent : ∀ sent ∈ system.sends, sent.msg.type = .taskHbRsp →
    sent.thread ≠ .loop task0

/-- The sends of the step are ordinary ones, except for those of
`send_hb_all` and the responses. -/
def Ordinary (action : AskingAction) : Prop :=
  ∀ taskAction, action = .act taskAction → OrdinarySend taskAction

theorem repliesOf_append (name : String) (left right : List Sent) :
    repliesOf name (left ++ right) =
      repliesOf name left ++ repliesOf name right := by
  simp only [repliesOf, List.filter_append, List.map_append]

theorem Corresponds.step
    {system next : AskingSystem} {action : AskingAction}
    (corresponds : Corresponds system) (ordinary : Ordinary action)
    (stepped : AskingSystem.step system action = some next) :
    Corresponds next := by
  cases effect_of_step stepped with
  | @act action tasks moved =>
      have ordinarySend := ordinary action rfl
      constructor
      · exact corresponds.answering.step moved
      · exact (TaskSystem.sameTasks_step moved).mem corresponds.listed
      · intro name worker
        have turn := TaskSystem.loopTurn_step moved name
        have steps := turn.responder corresponds.answering corresponds.listed
          worker ordinarySend (repliesOf name system.sends)
        rw [repliesOf_append]
        exact (corresponds.oneToOne name worker).steps steps
      · intro sent listed response
        rcases List.mem_append.mp listed with earlier | now
        · exact corresponds.silent sent earlier response
        · rcases TaskSystem.mem_sends ordinarySend now with
            ⟨_, other⟩ | ⟨acting, tmp, _, replying, loop, _⟩
          · exact (other response).elim
          · have worker :=
              (corresponds.answering.replying acting tmp (.inl replying)).1
            rw [loop]
            intro isTask0
            cases isTask0
            exact worker rfl
  | moves _ _ =>
      exact ⟨corresponds.answering, corresponds.listed, corresponds.oneToOne,
        corresponds.silent⟩
  | @asks target names _ _ =>
      have isRequest : ∀ sent ∈ system.tasks.sendsTo (.loop task0) target
          (TaskManager.hbReq target system.seqId),
          sent.msg.type = .taskHbReq := by
        intro sent listed
        rw [TaskSystem.mem_sendsTo listed]
        rfl
      constructor
      · exact corresponds.answering.inQueue _ _ _
      · exact (TaskSystem.sameTasks_inQueue _ _ _ _).mem corresponds.listed
      · intro name worker
        have noReply : repliesOf name
            (system.tasks.sendsTo (.loop task0) target
              (TaskManager.hbReq target system.seqId)) = [] := by
          simp only [repliesOf, List.map_eq_nil_iff, List.filter_eq_nil_iff,
            decide_eq_true_eq]
          intro sent listed matched
          have request := isRequest sent listed
          rw [matched.2.2] at request
          cases request
        rw [repliesOf_append, noReply, List.append_nil,
          TaskSystem.phase_inQueue, TaskSystem.handled_inQueue]
        exact corresponds.oneToOne name worker
      · intro sent listed response
        rcases List.mem_append.mp listed with earlier | now
        · exact corresponds.silent sent earlier response
        · have request := isRequest sent now
          rw [response] at request
          cases request

/-! ### The sequence numbers -/

/-- The requests are numbered one after the other, from the given number. -/
structure Numbered (first : UInt32) (system : AskingSystem) : Prop where
  names : ∀ name ∈ system.sendHbAll.names, name ∈ system.tasks.taskMap
  seqIds : system.requests.map TaskMsg.seqId =
    (List.range system.requests.length).map
      (fun index => first + UInt32.ofNat index)
  next : system.nextSeqId = first + UInt32.ofNat system.requests.length

theorem Numbered.step
    {first : UInt32} {system next : AskingSystem} {action : AskingAction}
    (numbered : Numbered first system) (ordinary : Ordinary action)
    (stepped : AskingSystem.step system action = some next) :
    Numbered first next := by
  cases effect_of_step stepped with
  | @act action tasks moved =>
      have sameRequests :
          requests { system with
            tasks, sends := system.sends ++ system.tasks.sends action } =
            system.requests := by
        rw [requests, requestsIn_append,
          requestsIn_sends (ordinary action rfl), List.append_nil]
        rfl
      constructor
      · intro name listed
        exact (TaskSystem.sameTasks_step moved).mem (numbered.names name listed)
      · rw [sameRequests]
        exact numbered.seqIds
      · rw [sameRequests]
        exact numbered.next
  | moves number names =>
      constructor
      · intro name listed
        rcases names name listed with earlier | registered
        · exact numbered.names name earlier
        · exact registered
      · exact numbered.seqIds
      · rw [number]
        exact numbered.next
  | @asks name names atLoop _ =>
      have registered : name ∈ system.tasks.taskMap := by
        apply numbered.names
        rw [atLoop]
        exact List.mem_cons_self
      obtain ⟨task, found⟩ := TaskMap.mem_iff.mp registered
      have grown : ∀ tasks : TaskSystem,
          requests { system with
            tasks
            sendHbAll := .inBody names
            sends := system.sends ++ system.tasks.sendsTo (.loop task0) name
              (TaskManager.hbReq name system.seqId) } =
            system.requests ++ [TaskManager.hbReq name system.seqId] := by
        intro tasks
        simp [requests, requestsIn, TaskSystem.sendsTo, found,
          TaskManager.hbReq]
      have number : system.seqId =
          first + UInt32.ofNat system.requests.length := by
        rw [← numbered.next]
        simp only [nextSeqId, atLoop]
      constructor
      · intro other listed
        apply (TaskSystem.sameTasks_inQueue _ _ _ _).mem
        apply numbered.names
        rw [atLoop]
        exact List.mem_cons_of_mem _ listed
      · rw [grown, List.map_append, numbered.seqIds, List.length_append,
          List.length_singleton, List.range_succ, List.map_append]
        simp [TaskManager.hbReq, number]
      · rw [grown, List.length_append, List.length_singleton]
        simp only [nextSeqId]
        rw [number, UInt32.ofNat_add, UInt32.add_assoc]
        rfl

theorem Numbered.nodup
    {first : UInt32} {system : AskingSystem} (numbered : Numbered first system)
    (fewer : system.requests.length < 2 ^ 32) :
    (system.requests.map TaskMsg.seqId).Nodup := by
  rw [numbered.seqIds]
  apply List.Nodup.map_on _ List.nodup_range
  intro left leftLess right rightLess same
  rw [List.mem_range] at leftLess rightLess
  have sameNumber := congrArg UInt32.toNat ((UInt32.add_right_inj first).mp same)
  rw [UInt32.toNat_ofNat_of_lt' (leftLess.trans fewer),
    UInt32.toNat_ofNat_of_lt' (rightLess.trans fewer)] at sameNumber
  exact sameNumber

/-! ### Runs -/

/-- Nothing has been sent, and no loop is in the middle of a message. -/
structure Quiet (system : AskingSystem) : Prop where
  named : ∀ (name : String) task, system.tasks.taskMap[name]? = some task →
    task.name = name
  waiting : ∀ name, (system.tasks.phase name).current = []
  handled : ∀ name, system.tasks.handled name = []
  sendHbAll : system.sendHbAll = .notRunning
  sends : system.sends = []

theorem Quiet.corresponds
    {system : AskingSystem} (quiet : Quiet system)
    (listed : task0 ∈ system.tasks.taskMap) : Corresponds system := by
  constructor
  · constructor
    · exact quiet.named
    · intro name tmp popped _ handling
      have waiting := quiet.waiting name
      rw [handling] at waiting
      cases waiting
    · intro name tmp replies
      have waiting := quiet.waiting name
      rcases replies with replying | replied
      · rw [replying] at waiting
        cases waiting
      · rw [replied] at waiting
        cases waiting
  · exact listed
  · intro name _
    simp only [Responder.OneToOne, Responder.processed, LoopPhase.responder,
      LoopPhase.stage_of_current (quiet.waiting name), quiet.handled name,
      quiet.sends]
    rfl
  · intro sent sentListed
    rw [quiet.sends] at sentListed
    cases sentListed

theorem Quiet.numbered
    {system : AskingSystem} (quiet : Quiet system) :
    Numbered system.seqId system := by
  have noRequests : system.requests = [] := by
    simp only [requests, quiet.sends]
    rfl
  constructor
  · intro name listed
    rw [quiet.sendHbAll] at listed
    cases listed
  · rw [noRequests]
    rfl
  · rw [noRequests]
    simp [nextSeqId, quiet.sendHbAll]

theorem corresponds_run
    {system now : AskingSystem} {actions : List AskingAction}
    (corresponds : Corresponds system)
    (ordinary : ∀ action ∈ actions, Ordinary action)
    (ran : run step system actions = some now) : Corresponds now := by
  apply run_invariant_of_mem _ corresponds ran
  intro before action next holds listed stepped
  exact holds.step (ordinary action listed) stepped

theorem numbered_run
    {first : UInt32} {system now : AskingSystem} {actions : List AskingAction}
    (numbered : Numbered first system)
    (ordinary : ∀ action ∈ actions, Ordinary action)
    (ran : run step system actions = some now) : Numbered first now := by
  apply run_invariant_of_mem _ numbered ran
  intro before action next holds listed stepped
  exact holds.step (ordinary action listed) stepped

/-- The heartbeat requests that the task has processed: those it is done with
and the one whose response it has just enqueued. -/
def processed (system : AskingSystem) (name : String) : List TaskMsg :=
  (system.tasks.handled name ++ (system.tasks.phase name).answered).filter
    (·.type = .taskHbReq)

theorem Corresponds.replies
    {system : AskingSystem} (corresponds : Corresponds system)
    {name : String} (worker : name ≠ task0) :
    repliesOf name system.sends =
      (system.processed name).map (replyOf name) := by
  have oneToOne := corresponds.oneToOne name worker
  simp only [Responder.OneToOne, LoopPhase.responder, Responder.processed]
    at oneToOne
  rw [oneToOne, processed]
  cases phase : system.tasks.phase name with
  | replied tmp =>
      have request := (corresponds.answering.replying name tmp (.inr phase)).2
      simp [LoopPhase.stage, LoopPhase.answered, request]
  | _ => simp [LoopPhase.stage, LoopPhase.answered]

/-- Requests and responses correspond one to one, whatever the interleaving:
every worker answers the requests it processes, once and in order, by itself;
task0 answers none; and no two requests have the same number before the
counter wraps around. -/
theorem hbReq_answeredOnce
    {system now : AskingSystem} {actions : List AskingAction}
    (quiet : Quiet system) (listed : task0 ∈ system.tasks.taskMap)
    (ordinary : ∀ action ∈ actions, Ordinary action)
    (ran : run step system actions = some now) :
    (∀ name, name ≠ task0 →
      repliesOf name now.sends =
          (now.processed name).map (fun tmp => (tmp.seqId, .string name)) ∧
        ∀ tmp popped, now.tasks.phase name = .handling tmp popped →
          tmp.type ≠ .taskHbReq) ∧
      (∀ tmp, now.tasks.phase task0 ≠ .replying tmp ∧
        now.tasks.phase task0 ≠ .replied tmp) ∧
      (∀ sent ∈ now.sends, sent.msg.type = .taskHbRsp →
        sent.thread ≠ .loop task0) ∧
      (now.requests.length < 2 ^ 32 →
        (now.requests.map TaskMsg.seqId).Nodup) := by
  have corresponds := corresponds_run (quiet.corresponds listed) ordinary ran
  have numbered := numbered_run quiet.numbered ordinary ran
  refine ⟨?_, ?_, corresponds.silent, numbered.nodup⟩
  · intro name worker
    constructor
    · exact corresponds.replies worker
    · intro tmp popped handling
      exact corresponds.answering.handling name tmp popped worker handling
  · intro tmp
    constructor
    · intro replying
      exact (corresponds.answering.replying task0 tmp (.inl replying)).1 rfl
    · intro replied
      exact (corresponds.answering.replying task0 tmp (.inr replied)).1 rfl

/-- Tasks are constructed and added, and nothing has been sent. -/
def start (names : List String) (seqId : UInt32) : AskingSystem :=
  { tasks := TaskSystem.start names
    seqId
    sendHbAll := .notRunning
    sends := [] }

theorem quiet_start (names : List String) (seqId : UInt32) :
    Quiet (start names seqId) := by
  constructor
  · intro name task found
    rw [TaskSystem.start_task found]
    rfl
  · intro name
    rfl
  · intro name
    rfl
  · rfl
  · rfl

/-- Task0 asks the worker, another thread sends it a ping, and the worker
answers the request. -/
theorem hbReq_answeredOnce_amongOthers :
    ∃ now,
      run step (start ["task0", "w"] 0)
          [.act (.init "task0"), .act (.init "w"), .sendHbAll, .sendHb,
            .act (.inQueue (.sender 0) "w" ⟨.taskPing, 7, .other⟩), .sendHb,
            .act (.write (.loop "task0")), .incSeqId, .sendHb,
            .act (.write (.sender 0)), .act (.evfdCallback "w"),
            .act (.swap "w"), .act (.next "w"), .act (.finish "w"),
            .act (.next "w"), .act (.reply "w")] =
        some now ∧
      repliesOf "w" now.sends = [(0, .string "w")] ∧
      repliesOf "w" now.sends =
        (now.processed "w").map (fun tmp => (tmp.seqId, .string "w")) := by
  refine ⟨_, rfl, by decide, ?_⟩
  have answered := @hbReq_answeredOnce (start ["task0", "w"] 0) _
    [.act (.init "task0"), .act (.init "w"), .sendHbAll, .sendHb,
      .act (.inQueue (.sender 0) "w" ⟨.taskPing, 7, .other⟩), .sendHb,
      .act (.write (.loop "task0")), .incSeqId, .sendHb,
      .act (.write (.sender 0)), .act (.evfdCallback "w"),
      .act (.swap "w"), .act (.next "w"), .act (.finish "w"),
      .act (.next "w"), .act (.reply "w")]
    (quiet_start _ _) (by decide)
    (by simp [Ordinary, OrdinarySend]) rfl
  exact (answered.1 "w" (by decide)).1

/-! ### Requests on their way -/

/-- The record of the sends agrees with that of the queues. -/
structure Recorded (system : AskingSystem) : Prop where
  inOrder : system.tasks.QueuesInOrder
  enqueued : ∀ target, system.tasks.enqueued target =
    sentTo target system.sends

theorem Recorded.step
    {system next : AskingSystem} {action : AskingAction}
    (recorded : Recorded system)
    (stepped : AskingSystem.step system action = some next) :
    Recorded next := by
  cases effect_of_step stepped with
  | act moved =>
      constructor
      · exact recorded.inOrder.step moved
      · intro target
        rw [TaskSystem.enqueued_step moved, recorded.enqueued, sentTo_append]
  | moves _ _ => exact ⟨recorded.inOrder, recorded.enqueued⟩
  | asks _ _ =>
      constructor
      · exact recorded.inOrder.tracks (TaskSystem.tracks_inQueue _ _ _ _)
      · intro target
        rw [TaskSystem.enqueued_inQueue, recorded.enqueued, sentTo_append]

theorem recorded_run
    {names : List String} {seqId : UInt32} {system : AskingSystem}
    {actions : List AskingAction}
    (ran : run step (start names seqId) actions = some system) :
    Recorded system := by
  apply run_invariant _ _ ran
  · intro before action next recorded stepped
    exact recorded.step stepped
  · constructor
    · exact TaskSystem.queuesInOrder_start names
    · intro target
      rfl

theorem answered_prefix_current (phase : LoopPhase) :
    phase.answered <+: phase.current := by
  cases phase with
  | replied tmp => exact List.prefix_refl _
  | _ => exact List.nil_prefix

/-- The requests that a task has processed are the first of those that have
been sent to it. -/
theorem processed_prefix_sentTo
    {names : List String} {seqId : UInt32} {system : AskingSystem}
    {actions : List AskingAction}
    (ran : run step (start names seqId) actions = some system)
    {name : String} (listed : name ∈ system.tasks.taskMap) :
    system.processed name <+:
      (sentTo name system.sends).filter (·.type = .taskHbReq) := by
  have recorded := recorded_run ran
  obtain ⟨task, found⟩ := TaskMap.mem_iff.mp listed
  have account : system.tasks.handled name ++
          (system.tasks.buffer name task).held ++
          (system.tasks.buffer name task).remaining ++ task.taskQueue =
        system.tasks.enqueued name :=
    (recorded.inOrder name task found).account
  have held : (system.tasks.phase name).answered <+:
      (system.tasks.buffer name task).held := by
    rw [TaskSystem.held_buffer]
    exact answered_prefix_current _
  rw [← recorded.enqueued]
  apply List.IsPrefix.filter
  rw [← account, List.append_assoc, List.append_assoc]
  apply (List.prefix_append_right_inj _).mpr
  exact held.trans (List.prefix_append _ _)

end AskingSystem

end DBWrapper
