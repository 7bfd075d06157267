import DBWrapper.Redis.FormatCommand
import DBWrapper.Redis.Worker

/-!
# Which command a call issues

A call of the client puts a message on the queue of the worker, and the
worker gives the body of the message to hiredis: as a finished command, or as
the format string of a command.  Here the two are followed as far as
`__redisAsyncCommand` accepts them.  A connection that is being closed, and
one without subscriptions to cancel, drops a command; none is changed.
-/

namespace DBWrapper

open Foundation

namespace Hiredis

/-- `c_str()`, as far as it is read as a string. -/
def cStr (body : ByteString) : ByteString :=
  body.takeWhile (· ≠ 0)

def dollar : UInt8 := 36

def carriageReturn : UInt8 := 13

/-- The name of the command, which is asserted to be there: behind the first
`$` is the end of a line. -/
def nextArgument (cmd : ByteString) : Bool :=
  ((cStr cmd).dropWhile (· ≠ dollar)).contains carriageReturn

/-- `__redisAsyncCommand`, with the bytes it appends to the output. -/
def asyncCommand (cmd : ByteString) : Except FormatFailure ByteString :=
  if nextArgument cmd then .ok cmd else .error .aborted

def redisvAsyncCommand (format : ByteString) :
    Except FormatFailure ByteString := do
  let cmd ← redisvFormatCommand format
  asyncCommand cmd

/-- No byte of a number is a zero or a `$`. -/
theorem ne_of_mem_decimal
    {number : Nat} {byte : UInt8} (printed : byte ∈ decimal number) :
    byte ≠ 0 ∧ byte ≠ dollar := by
  have digit := isDigit_of_mem_decimal printed
  constructor
  · intro zero
    rw [zero] at digit
    cases digit
  · intro sign
    rw [sign] at digit
    cases digit

/-- A command with at least one argument has a name. -/
theorem asyncCommand_redisFormatCommand
    {argv : List ByteString} (named : argv ≠ []) :
    asyncCommand (RedisCommand.redisFormatCommand argv) =
      .ok (RedisCommand.redisFormatCommand argv) := by
  obtain ⟨name, others, same⟩ := List.exists_cons_of_ne_nil named
  let count : ByteString := ascii "*" ++ decimal argv.length ++ crlf
  let length : ByteString := decimal name.length ++ crlf
  obtain ⟨rest, split⟩ :
      ∃ rest, RedisCommand.redisFormatCommand argv =
        (count ++ dollar :: length) ++ rest := by
    refine ⟨name ++ crlf ++ others.flatMap RedisCommand.formatArgument, ?_⟩
    have sign : ascii "$" = [dollar] := rfl
    simp [RedisCommand.redisFormatCommand, RedisCommand.formatArgument, count,
      length, sign, same]
  have star : ascii "*" = [42] := rfl
  have lineEnd : crlf = [carriageReturn, 10] := rfl
  have starBytes : ∀ byte ∈ ascii "*", byte ≠ 0 ∧ byte ≠ dollar := by
    simp [star, dollar]
  have lineEndBytes : ∀ byte ∈ crlf, byte ≠ 0 ∧ byte ≠ dollar := by
    simp [lineEnd, dollar, carriageReturn]
  have countBytes : ∀ byte ∈ count, byte ≠ 0 ∧ byte ≠ dollar := by
    intro byte listed
    rcases List.mem_append.mp listed with header | lineEnd
    · rcases List.mem_append.mp header with star | digits
      · exact starBytes byte star
      · exact ne_of_mem_decimal digits
    · exact lineEndBytes byte lineEnd
  have lengthBytes : ∀ byte ∈ length, byte ≠ 0 ∧ byte ≠ dollar := by
    intro byte listed
    rcases List.mem_append.mp listed with digits | lineEnd
    · exact ne_of_mem_decimal digits
    · exact lineEndBytes byte lineEnd
  have string : cStr (RedisCommand.redisFormatCommand argv) =
      (count ++ dollar :: length) ++ cStr rest := by
    rw [split, cStr, List.takeWhile_append_of_pos]
    · rfl
    · intro byte listed
      rcases List.mem_append.mp listed with header | line
      · simpa using (countBytes byte header).1
      · rcases List.mem_cons.mp line with sign | line
        · rw [sign]
          decide
        · simpa using (lengthBytes byte line).1
  have line : (cStr (RedisCommand.redisFormatCommand argv)).dropWhile
      (· ≠ dollar) = dollar :: (length ++ cStr rest) := by
    rw [string, List.append_assoc, List.dropWhile_append_of_pos]
    · rfl
    · intro byte listed
      simpa using (countBytes byte listed).2
  have ends : carriageReturn ∈ length := by
    apply List.mem_append_right
    decide
  have found : nextArgument (RedisCommand.redisFormatCommand argv) = true := by
    rw [nextArgument, line]
    simp [ends]
  rw [asyncCommand, if_pos found]

end Hiredis

open Hiredis

/-- What a use of a context appends to the output of the connection. -/
def ContextUse.issued : ContextUse → Option (Except FormatFailure ByteString)
  | .formattedCommand msg => some (asyncCommand msg.body)
  | .command msg => some (redisvAsyncCommand (cStr msg.body))
  | .readHostPort => none

/-- The call puts one message on the worker's queue, and whatever the worker
has done when it comes to it, it then issues `command`. -/
def Issues (call : TaskManager → Bool × TaskManager)
    (command : ByteString) : Prop :=
  ∀ (manager : TaskManager) (task : TaskBase),
    manager.taskMap[worker001]? = some task →
      ∃ after msg use,
        (call manager).2.taskMap[worker001]? = some after ∧
        after.taskQueue = task.taskQueue ++ [msg] ∧
        (∀ (system : RedisSystem) (refused : Bool),
          system.onMessage msg refused =
            system.log (.used system.worker.context use)) ∧
        use.issued = some (.ok command)

namespace RedisAsyncClient

theorem getElem?_send2taskWith
    {manager : TaskManager} {task : TaskBase} {name : String}
    (registered : manager.taskMap[name]? = some task)
    (type : MsgType) (body : TaskAny) :
    (manager.send2taskWith name type body 0).2.taskMap[name]? =
      some (TaskManager.received task { type, seqId := 0, body }) := by
  have sent :=
    TaskManager.getElem?_send2task manager name { type, seqId := 0, body } name
  rw [if_pos rfl, registered] at sent
  exact sent

theorem taskQueue_received (task : TaskBase) (msg : TaskMsg) :
    (TaskManager.received task msg).taskQueue = task.taskQueue ++ [msg] := by
  simp [TaskManager.received]

/-- The message of a call is known, and so is what the worker does with it. -/
theorem issues_iff
    {type : MsgType} {body : TaskAny} {use : ContextUse}
    (passedOn : ∀ (system : RedisSystem) (refused : Bool),
      system.onMessage { type, seqId := 0, body } refused =
        system.log (.used system.worker.context use))
    (command : ByteString) :
    Issues
        (fun manager =>
          (true, (manager.send2taskWith worker001 type body 0).2)) command ↔
      use.issued = some (.ok command) := by
  constructor
  · intro issues
    have registered :
        (init TaskManager.empty).taskMap[worker001]? =
          some (TaskBase.create worker001).init := rfl
    obtain ⟨after, msg, recorded, found, queued, processed, issued⟩ :=
      issues _ _ registered
    have sent := getElem?_send2taskWith registered type body
    have received : TaskManager.received (TaskBase.create worker001).init
        { type, seqId := 0, body } = after :=
      Option.some.inj (sent.symm.trans found)
    rw [← received, taskQueue_received] at queued
    have sameMsg : { type, seqId := 0, body } = msg :=
      List.singleton_inj.mp (List.append_cancel_left queued)
    have logged :=
      (passedOn (RedisSystem.start TaskManager.empty) false).symm.trans
        (sameMsg ▸ processed (RedisSystem.start TaskManager.empty) false)
    have sameUse : use = recorded := by
      simpa [RedisSystem.log] using congrArg RedisSystem.history logged
    rw [sameUse]
    exact issued
  · intro issued manager task registered
    exact ⟨_, _, use, getElem?_send2taskWith registered type body,
      taskQueue_received task _, passedOn, issued⟩

/-- A finished command is not interpreted. -/
theorem sendFormatRawCommand_issues_iff
    (body : ByteString) (usrData fn : Pointer) (command : ByteString) :
    Issues (sendFormatRawCommand · body usrData fn) command ↔
      asyncCommand body = .ok command := by
  let use : ContextUse := .formattedCommand { usrData, cb := fn, body }
  have passedOn : ∀ (system : RedisSystem) (refused : Bool),
      system.onMessage
          { type := .taskRedisFormatRaw, seqId := 0,
            body := .formatRaw { usrData, cb := fn, body } } refused =
        system.log (.used system.worker.context use) := by
    intro system refused
    rfl
  have issues := issues_iff passedOn command
  rw [show use.issued = some (asyncCommand body) from rfl,
    Option.some_inj] at issues
  exact issues

/-- So a `put` issues its own command, whatever bytes the key and the value
consist of. -/
theorem put_issues (key value : ByteString) (usrData fn : Pointer) :
    Issues (put · key value usrData fn)
      (RedisCommand.redisFormatCommand [ascii "SET", key, value]) :=
  (sendFormatRawCommand_issues_iff _ usrData fn _).mpr
    (asyncCommand_redisFormatCommand (by simp))

end RedisAsyncClient

end DBWrapper
