import DBWrapper.Foundation.PendingRequests
import DBWrapper.Foundation.Runs
import DBWrapper.Redis.AsyncHistory

/-!
# Which reply a callback gets

A reply carries no mark of the command that it answers: the context gives it to
the callback at the head of a queue.  As long as no command subscribes or
monitors, the callbacks of the accepted commands are called in the order of
their commands, each of them once: with the replies, as many as have been taken
off the stream, and when the context is freed, with none.

Meanwhile the bytes that are written are those of the accepted commands, in
order, however many of them each call of `write` has taken.

The code counts the bytes of its buffers in numbers of type `int`, so all of this
needs that none of them gets longer than `INT_MAX` bytes.
-/

namespace DBWrapper

open Foundation

namespace Hiredis

open Arguments

/-! ### The reader -/

theorem Reply.encode_ne_nil (reply : Reply) : reply.encode ≠ [] := by
  cases reply <;> simp [Reply.encode, crlf_eq]

/-- The reader has taken `answers` off what has been received. -/
structure Reads (received : ByteString) (answers : List Reply)
    (old : ReplyHeap) (cursor : ReplyCursor) (reader : RedisReader) : Prop where
  empty : ∀ cell ∈ old, cell = none
  steps : Transducer.Steps ReplyCursor.step (ReplyCursor.inside []) received
    answers cursor reader.cursor
  between : Between old cursor reader

theorem reads_create : Reads [] [] [] (ReplyCursor.inside []) (.create []) where
  empty := by simp
  steps := .refl
  between := between_create []

theorem Reads.feed
    {received : ByteString} {answers : List Reply} {old : ReplyHeap}
    {cursor : ReplyCursor} {reader : RedisReader}
    (reads : Reads received answers old cursor reader) {chunk : ByteString}
    (room : reader.HasRoom chunk) :
    ∃ next, reader.redisReaderFeed chunk = (true, next) ∧
      Reads (received ++ chunk) answers old cursor next := by
  obtain ⟨fed, between, input⟩ := reads.between.feed room
  refine ⟨_, fed, reads.empty, ?_, between⟩
  rw [input]
  exact reads.steps.append ReplyCursor.stable_step chunk

/-- What is left of an output buffer that can be counted. -/
theorem unwritten_eq_drop
    {obuf : ByteString} (short : obuf.length ≤ intMax) {nwritten : Nat}
    (positive : nwritten ≠ 0) (inside : nwritten ≤ obuf.length) :
    unwritten obuf nwritten = some (obuf.drop nwritten) := by
  rw [unwritten, toInt_of_le short]
  split
  · rename_i whole
    rw [Int.natCast_inj.mp whole, List.drop_length]
  · exact sdsrange_drop short (by omega) inside

/-- What `redisReaderGetReply` returns while the stream is the beginning of what
a server writes: the next reply of the server, or nothing when all that have
arrived are taken. -/
theorem Reads.getReply
    {all : List Reply} (sendable : ∀ reply ∈ all, Sendable maxLevels reply)
    {received : ByteString} (isPrefix : received <+: Reply.encodeAll all)
    {answers : List Reply} {old : ReplyHeap} {cursor : ReplyCursor}
    {reader : RedisReader}
    (reads : Reads received answers old cursor reader) :
    (∃ after next,
      reader.redisReaderGetReply = some (true, none, next) ∧
        Reads received answers old after next ∧
        answers = arrived Reply.encode all received.length) ∨
      ∃ reply next,
        reader.redisReaderGetReply = some (true, some old.length, next) ∧
          answers ++ [reply] <+: all ∧
          next.heap = old ++ reply.cells old.length ∧
          Transducer.Steps ReplyCursor.step (ReplyCursor.inside []) received
            (answers ++ [reply]) (ReplyCursor.inside []) next.cursor ∧
          ∀ heap, Between heap (ReplyCursor.inside []) { next with heap } := by
  rw [encodeAll_eq_stream] at isPrefix
  have whole := (reads_reply maxLevels).settles_arrived
    (stable_reply maxLevels) rfl sendable isPrefix
  obtain ⟨final, left, settles, going⟩ :=
    ReplyCursor.settles_of_transducer whole
  have outcome := outcome_redisReaderGetReply reads.between
  -- A failure would be the end of the stream.
  have noFailure : ∀ {after : ReplyCursor} {rest : ByteString}
      {failure : ReplyFailure},
      Transducer.Steps ReplyCursor.step cursor reader.cursor [] after rest →
        after.failure ≠ some failure := by
    intro after rest failure steps failed
    have stopped := (reads.steps.trans steps).settles
      (.wait (ReplyCursor.step_of_failure failed rest))
    obtain ⟨_, same, _⟩ := stopped.unique settles
    rw [same, going] at failed
    cases failed
  generalize reader.redisReaderGetReply = result at outcome ⊢
  cases outcome with
  | @waits after next steps waits between =>
      have taken := reads.steps.trans steps
      rw [List.append_nil] at taken
      have settled := taken.settles (.wait waits)
      rw [List.append_nil] at settled
      obtain ⟨same, _, _⟩ := settled.unique settles
      exact Or.inl ⟨after, next, rfl, ⟨reads.empty, taken, between⟩, same⟩
  | @replied reply next steps _ heap idle =>
      have taken := reads.steps.trans steps
      obtain ⟨later, same, _⟩ := taken.extends settles
      refine Or.inr ⟨reply, next, rfl, ?_, heap, taken, idle⟩
      exact (same ▸ List.prefix_append _ later).trans
        (arrived_isPrefix all received.length)
  | failed steps failed _ => exact (noFailure steps failed).elim
  | outside goes =>
      obtain ⟨after, rest, steps, failed⟩ := goes
      exact (noFailure steps failed).elim

namespace AsyncContext

/-- No loop of `__redisAsyncFree` has been entered. -/
def open? (context : AsyncContext) : Bool :=
  match context.phase with
  | .freeing | .callingNull | .freed => false
  | _ => true

/-! ### The invariant -/

/-- No command has subscribed or monitors. -/
structure Plain (context : AsyncContext) : Prop where
  subscribed : context.subscribed = false
  monitoring : context.monitoring = false
  invalid : context.invalid = []
  channels : context.channels = []
  patterns : context.patterns = []

/-- All but the flags, the phase and the reader. -/
structure Same (before after : AsyncContext) : Prop where
  subscribed : after.subscribed = before.subscribed
  monitoring : after.monitoring = before.monitoring
  invalid : after.invalid = before.invalid
  channels : after.channels = before.channels
  patterns : after.patterns = before.patterns
  replies : after.replies = before.replies
  obuf : after.obuf = before.obuf
  accepted : after.acceptedCallbacks = before.acceptedCallbacks
  commands : after.commands = before.commands
  calls : after.calls = before.calls
  written : after.written = before.written
  received : after.received = before.received

/-- Nothing that the invariant speaks of. -/
def Neutral (event : AsyncEvent) : Prop :=
  event.acceptedCallback = none ∧ event.command = [] ∧ event.call = none ∧
    event.written = [] ∧ event.received = []

/-- The calls of callbacks that are no null pointers. -/
def callsFor (callbacks : List RedisCallback) (results : List (Option Reply)) :
    List (RedisCallback × Option Reply) :=
  (callbacks.zip results).filter (·.1.fn.isSome)

/-- Replies that have been taken off the stream, and then none at all. -/
def resultsOf (answers : List Reply) (nulls : Nat) : List (Option Reply) :=
  answers.map some ++ List.replicate nulls none

/-- Where the reader is in each phase of the loop. -/
def ReaderAt (all answers : List Reply) (received : ByteString)
    (reader : RedisReader) : AsyncPhase → Prop
  | .idle =>
      ∃ old cursor, Reads received answers old cursor reader ∧
        answers = arrived Reply.encode all received.length
  | .processing _ => ∃ old cursor, Reads received answers old cursor reader
  | .calling _ reply =>
      ∃ (old : ReplyHeap) (value : Reply),
        (∀ cell ∈ old, cell = none) ∧ reply = old.length ∧
        reader.heap = old ++ value.cells old.length ∧
        Transducer.Steps ReplyCursor.step (ReplyCursor.inside []) received
          answers (ReplyCursor.inside []) reader.cursor ∧
        ∀ heap, Between heap (ReplyCursor.inside []) { reader with heap }
  | _ => True

/-- Of a context whose server writes `all`: `answers` are the replies that
callbacks have got, and `nulls` counts the callbacks that got none. -/
structure Sound (all answers : List Reply) (nulls : Nat)
    (context : AsyncContext) : Prop where
  plain : context.Plain
  queue : Answers context.acceptedCallbacks (resultsOf answers nulls)
    context.replies
  calls : context.calls =
    callsFor context.acceptedCallbacks (resultsOf answers nulls)
  output : context.written ++ context.obuf = context.commands
  answered : answers <+: all
  untilClosed : context.open? = true → nulls = 0
  closed : context.open? = false → context.disconnecting ∨ context.freeing
  emptied : context.phase = .freed → context.replies = []
  aborted : context.phase = .aborted →
    context.acceptedCallbacks.length < all.length
  reader : ReaderAt all answers context.received context.reader context.phase

theorem resultsOf_answer (answers : List Reply) (reply : Reply) :
    resultsOf (answers ++ [reply]) 0 = resultsOf answers 0 ++ [some reply] := by
  simp [resultsOf]

theorem resultsOf_null (answers : List Reply) (nulls : Nat) :
    resultsOf answers (nulls + 1) = resultsOf answers nulls ++ [none] := by
  rw [resultsOf, List.replicate_succ', ← List.append_assoc]
  rfl

theorem callsFor_push
    {callbacks pending : List RedisCallback} {results : List (Option Reply)}
    (queue : Answers callbacks results pending) (cb : RedisCallback) :
    callsFor (callbacks ++ [cb]) results = callsFor callbacks results := by
  rw [callsFor, queue.zip_push, callsFor]

theorem callsFor_pop
    {callbacks pending : List RedisCallback} {results : List (Option Reply)}
    {cb : RedisCallback} (queue : Answers callbacks results (cb :: pending))
    (result : Option Reply) :
    callsFor callbacks (results ++ [result]) =
      callsFor callbacks results ++
        if cb.fn.isSome then [(cb, result)] else [] := by
  rw [callsFor, queue.zip_pop, List.filter_append, callsFor]
  cases isCallback : cb.fn <;> simp [isCallback]

theorem Same.refl (context : AsyncContext) : Same context context := by
  constructor <;> rfl

theorem Same.plain
    {before after : AsyncContext} (same : Same before after)
    (plain : before.Plain) : after.Plain where
  subscribed := same.subscribed.trans plain.subscribed
  monitoring := same.monitoring.trans plain.monitoring
  invalid := same.invalid.trans plain.invalid
  channels := same.channels.trans plain.channels
  patterns := same.patterns.trans plain.patterns

theorem Same.update
    {before context : AsyncContext} (same : Same before context)
    (connected disconnecting freeing inCallback : Bool)
    (err : Option RedisError) (reader : RedisReader) (phase : AsyncPhase) :
    Same before
      { context with
        connected, disconnecting, freeing, inCallback, err, reader, phase } :=
  { same with }

theorem Same.log
    {before context : AsyncContext} (same : Same before context)
    {event : AsyncEvent} (neutral : Neutral event) :
    Same before (context.log event) := by
  have logs : Logs context (context.log event) event := logs_of_history rfl
  obtain ⟨accepted, command, call, written, received⟩ := neutral
  exact
    { subscribed := same.subscribed
      monitoring := same.monitoring
      invalid := same.invalid
      channels := same.channels
      patterns := same.patterns
      replies := same.replies
      obuf := same.obuf
      accepted := by
        rw [logs.accepted, accepted, Option.toList_none, List.append_nil,
          same.accepted]
      commands := by
        rw [logs.commands, command, List.append_nil, same.commands]
      calls := by
        rw [logs.calls, call, Option.toList_none, List.append_nil, same.calls]
      written := by
        rw [logs.written, written, List.append_nil, same.written]
      received := by
        rw [logs.received, received, List.append_nil, same.received] }

namespace Sound

variable {all answers : List Reply} {nulls : Nat}
  {before after : AsyncContext}

/-- Steps that change nothing but the flags, the phase and the reader. -/
theorem of_same
    (sound : Sound all answers nulls before) (same : Same before after)
    (untilClosed : after.open? = true → nulls = 0)
    (closed : after.open? = false → after.disconnecting ∨ after.freeing)
    (emptied : after.phase = .freed → after.replies = [])
    (aborted : after.phase = .aborted →
      before.acceptedCallbacks.length < all.length)
    (reader : ReaderAt all answers before.received after.reader after.phase) :
    Sound all answers nulls after where
  plain := same.plain sound.plain
  queue := by
    rw [same.accepted, same.replies]
    exact sound.queue
  calls := by
    rw [same.calls, same.accepted]
    exact sound.calls
  output := by
    rw [same.written, same.obuf, same.commands]
    exact sound.output
  answered := sound.answered
  untilClosed := untilClosed
  closed := closed
  emptied := emptied
  aborted := by
    rw [same.accepted]
    exact aborted
  reader := by
    rw [same.received]
    exact reader

/-- Entering the loops of `__redisAsyncFree`. -/
theorem closes
    (sound : Sound all answers nulls before) (same : Same before after)
    (phase : after.phase = .freeing)
    (closing : after.disconnecting ∨ after.freeing) :
    Sound all answers nulls after := by
  apply sound.of_same same
  · simp [open?, phase]
  · exact fun _ => closing
  · simp [phase]
  · simp [phase]
  · rw [phase]
    trivial

theorem aborts
    (sound : Sound all answers nulls before) (isOpen : before.open? = true)
    (same : Same before after) (phase : after.phase = .aborted)
    (unsolicited : before.acceptedCallbacks.length < all.length) :
    Sound all answers nulls after := by
  apply sound.of_same same
  · exact fun _ => sound.untilClosed isOpen
  · simp [open?, phase]
  · simp [phase]
  · exact fun _ => unsolicited
  · rw [phase]
    trivial

/-- Flags are only ever set while the phase stays. -/
theorem flags
    (sound : Sound all answers nulls before) (same : Same before after)
    (phase : after.phase = before.phase) (reader : after.reader = before.reader)
    (disconnecting : before.disconnecting → after.disconnecting)
    (freeing : before.freeing → after.freeing) :
    Sound all answers nulls after := by
  have sameOpen : after.open? = before.open? := by simp [open?, phase]
  apply sound.of_same same
  · rw [sameOpen]
    exact sound.untilClosed
  · rw [sameOpen]
    exact fun isClosed => (sound.closed isClosed).imp disconnecting freeing
  · rw [phase, same.replies]
    exact sound.emptied
  · rw [phase]
    exact sound.aborted
  · rw [phase, reader]
    exact sound.reader

end Sound

/-- `__redisAsyncDisconnect` finds an error, or a disconnect that nobody waits
for; so its assertion holds. -/
theorem asyncDisconnect_eq
    {context : AsyncContext}
    (ready : context.err.isSome ∨
      (context.disconnecting = true ∧ context.replies = [])) :
    context.asyncDisconnect =
      { context with disconnecting := true, phase := .freeing } := by
  rw [asyncDisconnect]
  cases err : context.err with
  | some err => rfl
  | none =>
      rcases ready with failed | ⟨disconnecting, replies⟩
      · rw [err] at failed
        cases failed
      · simp only [replies, if_true]
        cases context
        simp only at disconnecting
        subst disconnecting
        rfl

namespace Sound

variable {all answers : List Reply} {nulls : Nat}
  {before : AsyncContext}

theorem asyncDisconnect
    {context : AsyncContext} (sound : Sound all answers nulls before)
    (same : Same before context)
    (ready : context.err.isSome ∨
      (context.disconnecting = true ∧ context.replies = [])) :
    Sound all answers nulls context.asyncDisconnect := by
  rw [asyncDisconnect_eq ready]
  exact sound.closes (same.update _ _ _ _ _ _ _) rfl (Or.inl rfl)

theorem redisAsyncDisconnect (sound : Sound all answers nulls before) :
    Sound all answers nulls before.redisAsyncDisconnect := by
  rw [AsyncContext.redisAsyncDisconnect]
  have same : Same before { before with disconnecting := true } :=
    (Same.refl before).update _ _ _ _ _ _ _
  split
  · rename_i immediate
    exact sound.asyncDisconnect same (Or.inr ⟨rfl, immediate.2⟩)
  · exact sound.flags same rfl rfl (fun _ => rfl) id

theorem redisAsyncFree (sound : Sound all answers nulls before) :
    Sound all answers nulls before.redisAsyncFree := by
  rw [AsyncContext.redisAsyncFree]
  have same : Same before { before with freeing := true } :=
    (Same.refl before).update _ _ _ _ _ _ _
  split
  · exact sound.flags same rfl rfl id fun _ => rfl
  · exact sound.closes (same.update _ _ _ _ _ _ _) rfl (Or.inr rfl)

/-- A command of its own is put behind those that wait. -/
theorem asyncCommand
    (sound : Sound all answers nulls before)
    (running : before.inUserCode = true) (cb : RedisCallback)
    {cmd : ByteString} (regular : commandKind cmd = some .regular) :
    Sound all answers nulls (before.asyncCommand cb cmd).2 := by
  rw [AsyncContext.asyncCommand]
  split
  · exact sound
  · rename_i accepting
    have isOpen : before.open? = true := by
      cases isOpen : before.open? with
      | true => rfl
      | false => exact (accepting (sound.closed isOpen)).elim
    simp only [regular, sound.plain.subscribed, Bool.false_eq_true, if_false]
    have logs : Logs before
        ({ before with
          subscribed := false
          replies := before.replies ++ [cb] }.appendCommand cb cmd)
        (.accepted cb cmd) := logs_of_history rfl
    exact
      { plain :=
          { subscribed := rfl
            monitoring := sound.plain.monitoring
            invalid := sound.plain.invalid
            channels := sound.plain.channels
            patterns := sound.plain.patterns }
        queue := by
          rw [logs.accepted]
          exact sound.queue.push cb
        calls := by
          rw [logs.calls, logs.accepted]
          change before.calls ++ [] = callsFor (before.acceptedCallbacks ++ [cb]) _
          rw [List.append_nil, callsFor_push sound.queue]
          exact sound.calls
        output := by
          rw [logs.written, logs.commands]
          change before.written ++ [] ++ (before.obuf ++ cmd) = _
          rw [List.append_nil, ← List.append_assoc, sound.output]
          rfl
        answered := sound.answered
        untilClosed := sound.untilClosed
        closed := sound.closed
        emptied := by
          intro freed
          have isClosed : before.open? = false := by
            rw [open?, show before.phase = .freed from freed]
          rw [isOpen] at isClosed
          cases isClosed
        aborted := by
          intro aborted
          have stopped : before.inUserCode = false := by
            rw [inUserCode, show before.phase = .aborted from aborted]
          rw [running] at stopped
          cases stopped
        reader := by
          rw [logs.received]
          change ReaderAt all answers (before.received ++ []) before.reader
            before.phase
          rw [List.append_nil]
          exact sound.reader }

end Sound

/-- The callback at the head of the queue gets its result. -/
structure Pops (before after : AsyncContext) (cb : RedisCallback)
    (result : Option Reply) : Prop where
  subscribed : after.subscribed = before.subscribed
  monitoring : after.monitoring = before.monitoring
  invalid : after.invalid = before.invalid
  channels : after.channels = before.channels
  patterns : after.patterns = before.patterns
  replies : before.replies = cb :: after.replies
  obuf : after.obuf = before.obuf
  accepted : after.acceptedCallbacks = before.acceptedCallbacks
  commands : after.commands = before.commands
  calls : after.calls =
    before.calls ++ if cb.fn.isSome then [(cb, result)] else []
  written : after.written = before.written
  received : after.received = before.received

section Popping

variable {before : AsyncContext} {cb : RedisCallback}
  {replies : List RedisCallback}

/-- Whatever the flags, the phase and the reader become. -/
theorem pops_of_null
    (head : before.replies = cb :: replies) (isNull : cb.fn = none)
    (result : Option Reply) (connected disconnecting freeing inCallback : Bool)
    (err : Option RedisError) (reader : RedisReader) (phase : AsyncPhase) :
    Pops before
      { before with
        replies, connected, disconnecting, freeing, inCallback, err, reader,
        phase } cb result where
  subscribed := rfl
  monitoring := rfl
  invalid := rfl
  channels := rfl
  patterns := rfl
  replies := head
  obuf := rfl
  accepted := rfl
  commands := rfl
  calls := by
    rw [isNull]
    exact (List.append_nil _).symm
  written := rfl
  received := rfl

theorem pops_of_call
    (head : before.replies = cb :: replies) (isCallback : cb.fn.isSome)
    (result : Option Reply) (connected disconnecting freeing inCallback : Bool)
    (err : Option RedisError) (reader : RedisReader) (phase : AsyncPhase) :
    Pops before
      ({ before with
        replies, connected, disconnecting, freeing, inCallback, err, reader,
        phase }.log (.called cb result)) cb result := by
  have logs : Logs before
      ({ before with
        replies, connected, disconnecting, freeing, inCallback, err, reader,
        phase }.log (.called cb result)) (.called cb result) :=
    logs_of_history rfl
  exact
    { subscribed := rfl
      monitoring := rfl
      invalid := rfl
      channels := rfl
      patterns := rfl
      replies := head
      obuf := rfl
      accepted := logs.accepted.trans (List.append_nil _)
      commands := logs.commands.trans (List.append_nil _)
      calls := by
        rw [logs.calls, if_pos isCallback]
        rfl
      written := logs.written.trans (List.append_nil _)
      received := logs.received.trans (List.append_nil _) }

end Popping

namespace Sound

variable {all answers : List Reply} {nulls : Nat}
  {before : AsyncContext}

theorem pops
    {after : AsyncContext} {cb : RedisCallback} {result : Option Reply}
    (sound : Sound all answers nulls before) (pops : Pops before after cb result)
    {later : List Reply} {count : Nat}
    (results : resultsOf later count = resultsOf answers nulls ++ [result])
    (answered : later <+: all) (untilClosed : after.open? = true → count = 0)
    (closed : after.open? = false → after.disconnecting ∨ after.freeing)
    (notFreed : after.phase ≠ .freed) (notAborted : after.phase ≠ .aborted)
    (reader : ReaderAt all later before.received after.reader after.phase) :
    Sound all later count after := by
  have queue := sound.queue
  rw [pops.replies] at queue
  exact
    { plain :=
        { subscribed := pops.subscribed.trans sound.plain.subscribed
          monitoring := pops.monitoring.trans sound.plain.monitoring
          invalid := pops.invalid.trans sound.plain.invalid
          channels := pops.channels.trans sound.plain.channels
          patterns := pops.patterns.trans sound.plain.patterns }
      queue := by
        rw [pops.accepted, results]
        exact queue.pop result
      calls := by
        rw [pops.calls, pops.accepted, results, callsFor_pop queue, sound.calls]
      output := by
        rw [pops.written, pops.obuf, pops.commands]
        exact sound.output
      answered
      untilClosed
      closed
      emptied := fun freed => (notFreed freed).elim
      aborted := fun aborted => (notAborted aborted).elim
      reader := by
        rw [pops.received]
        exact reader }

/-- A callback that will get no reply any more. -/
theorem runNull
    {cb : RedisCallback} {replies : List RedisCallback}
    (sound : Sound all answers nulls before)
    (phase : before.phase = .freeing) (head : before.replies = cb :: replies) :
    Sound all answers (nulls + 1) ({ before with replies }.runNull cb) := by
  have isClosed : before.open? = false := by simp [open?, phase]
  rw [AsyncContext.runNull]
  split
  · rename_i isCallback
    apply sound.pops (pops_of_call head isCallback none _ _ _ _ _ _ _)
      (resultsOf_null answers nulls) sound.answered
    · simp [open?, log]
    · exact fun _ => sound.closed isClosed
    · simp [log]
    · simp [log]
    · trivial
  · rename_i isNull
    have pops := pops_of_null head (Option.not_isSome_iff_eq_none.mp isNull) none
      before.connected before.disconnecting before.freeing before.inCallback
      before.err before.reader before.phase
    apply sound.pops pops (resultsOf_null answers nulls) sound.answered
    · simp [open?, phase]
    · exact fun _ => sound.closed isClosed
    · simp [phase]
    · simp [phase]
    · change ReaderAt all answers before.received before.reader before.phase
      rw [phase]
      trivial

/-- With nothing left to call. -/
theorem asyncFree_eq
    (plain : before.Plain) (empty : before.replies = []) (choice : Nat) :
    before.asyncFree choice =
      if before.connected then
        { before with phase := .freed }.log
          (.disconnected (before.freeing || before.err.isNone))
      else
        { before with phase := .freed } := by
  obtain ⟨_, _, invalid, channels, patterns⟩ := plain
  cases before
  simp only at invalid channels patterns empty
  subst invalid channels patterns empty
  simp [AsyncContext.asyncFree]

theorem asyncFree
    (sound : Sound all answers nulls before)
    (phase : before.phase = .freeing) (choice : Nat) :
    ∃ count, Sound all answers count (before.asyncFree choice) := by
  have isClosed : before.open? = false := by simp [open?, phase]
  cases pending : before.replies with
  | cons cb replies =>
      refine ⟨nulls + 1, ?_⟩
      rw [AsyncContext.asyncFree, pending]
      exact sound.runNull phase pending
  | nil =>
      refine ⟨nulls, ?_⟩
      rw [asyncFree_eq sound.plain pending]
      have same := (Same.refl before).update before.connected
        before.disconnecting before.freeing before.inCallback before.err
        before.reader .freed
      split
      · apply sound.of_same (same.log ⟨rfl, rfl, rfl, rfl, rfl⟩)
        · simp [open?, log]
        · exact fun _ => sound.closed isClosed
        · exact fun _ => pending
        · simp [log]
        · trivial
      · apply sound.of_same same
        · simp [open?]
        · exact fun _ => sound.closed isClosed
        · exact fun _ => pending
        · simp
        · trivial

end Sound

/-- The object of a reply, and nothing else, is freed. -/
theorem freeObject_eq
    {context : AsyncContext} {old : ReplyHeap} {value : Reply}
    (heap : context.reader.heap = old ++ value.cells old.length) :
    context.freeObject old.length =
      some
        { context with
          reader :=
            { context.reader with
              heap := old ++ List.replicate value.size none } } := by
  have freed := frees_cells old.length value old [] context.reader.heap.length
    rfl (by rw [heap, List.length_append]; omega)
  rw [List.append_nil, ← heap] at freed
  have one : freeReplyObject context.reader.heap.length context.reader.heap
      old.length = some (old ++ List.replicate value.size none) := by
    simpa using freed
  simp only [freeObject, one, Option.map_some]

/-- A reply that nobody has asked for is an error that ends the connection, or
fails an assertion. -/
theorem takeReply_of_empty
    {context : AsyncContext} (plain : context.Plain)
    (empty : context.replies = []) {old : ReplyHeap} {value : Reply}
    (heap : context.reader.heap = old ++ value.cells old.length)
    (cb : RedisCallback) :
    context.takeReply cb old.length value = context.abort ∨
      ∃ err, context.takeReply cb old.length value =
        { context with
          err := some err
          reader :=
            { context.reader with
              heap := old ++ List.replicate value.size none }
          disconnecting := true
          phase := .freeing } := by
  cases value with
  | error str =>
      right
      have freed := @freeObject_eq
        { context with err := some (otherError str) } old (.error str) heap
      refine ⟨otherError str, ?_⟩
      simp only [takeReply, empty] at freed ⊢
      rw [freed]
      exact asyncDisconnect_eq (Or.inl rfl)
  | string str => simp [takeReply, empty, plain.subscribed, plain.monitoring]
  | array element => simp [takeReply, empty, plain.subscribed, plain.monitoring]
  | integer value => simp [takeReply, empty, plain.subscribed, plain.monitoring]
  | nil => simp [takeReply, empty, plain.subscribed, plain.monitoring]
  | status str => simp [takeReply, empty, plain.subscribed, plain.monitoring]

namespace Sound

variable {all answers : List Reply} {nulls : Nat}
  {before : AsyncContext}

theorem runCallback
    {cb : RedisCallback} {replies : List RedisCallback} {reply : Reply}
    {reader : RedisReader} {old : ReplyHeap}
    (sound : Sound all answers 0 before)
    (head : before.replies = cb :: replies)
    (answered : answers ++ [reply] <+: all)
    (empty : ∀ cell ∈ old, cell = none)
    (heap : reader.heap = old ++ reply.cells old.length)
    (steps : Transducer.Steps ReplyCursor.step (ReplyCursor.inside [])
      before.received (answers ++ [reply]) (ReplyCursor.inside [])
      reader.cursor)
    (idle : ∀ heap, Between heap (ReplyCursor.inside []) { reader with heap }) :
    Sound all (answers ++ [reply]) 0
      ({ before with reader, replies }.runCallback cb old.length reply) := by
  rw [AsyncContext.runCallback]
  split
  · rename_i isCallback
    apply sound.pops
      (pops_of_call head isCallback (some reply) _ _ _ _ _ _ _)
      (resultsOf_answer answers reply) answered
    · exact fun _ => rfl
    · simp [open?, log]
    · simp [log]
    · simp [log]
    · exact ⟨old, reply, empty, rfl, heap, steps, idle⟩
  · rename_i isNull
    rw [freeObject_eq heap]
    apply sound.pops
      (pops_of_null head (Option.not_isSome_iff_eq_none.mp isNull) (some reply)
        _ _ _ _ _ _ _)
      (resultsOf_answer answers reply) answered
    · exact fun _ => rfl
    · simp [open?]
    · simp
    · simp
    · exact ⟨_, _, all_none_append_replicate empty reply.size, steps, idle _⟩

theorem processCallbacks
    (sendable : ∀ reply ∈ all, Sendable maxLevels reply)
    (isPrefix : before.received <+: Reply.encodeAll all) {cb : RedisCallback}
    (sound : Sound all answers nulls before)
    (phase : before.phase = .processing cb) :
    ∃ later, Sound all later nulls (before.processCallbacks cb) := by
  have isOpen : before.open? = true := by simp [open?, phase]
  have noNulls : nulls = 0 := sound.untilClosed isOpen
  subst noNulls
  have reader := sound.reader
  rw [phase] at reader
  obtain ⟨old, cursor, reads⟩ := reader
  rw [AsyncContext.processCallbacks]
  rcases reads.getReply sendable isPrefix with
    ⟨after, next, taken, readsNext, complete⟩ |
    ⟨reply, next, taken, answered, heap, steps, idle⟩
  · refine ⟨answers, ?_⟩
    simp only [taken]
    split
    · rename_i closing
      have same := (Same.refl before).update before.connected
        before.disconnecting before.freeing before.inCallback before.err next
        before.phase
      exact sound.asyncDisconnect same (Or.inr ⟨closing.1, closing.2.2⟩)
    · rw [if_neg (by simp [sound.plain.monitoring])]
      have same := (Same.refl before).update before.connected
        before.disconnecting before.freeing before.inCallback before.err next
        .idle
      apply sound.of_same same
      · exact fun _ => rfl
      · simp [open?]
      · simp
      · simp
      · exact ⟨old, after, readsNext, complete⟩
  · have read := readReply_cells reply old []
      (by rw [← length_cells old.length, heap, List.length_append]; omega :
        reply.size ≤ next.heap.length)
    rw [List.append_nil, ← heap] at read
    simp only [taken, read]
    by_cases pending : before.replies = []
    · refine ⟨answers, ?_⟩
      have same := Same.refl before
      have plain := (same.update before.connected before.disconnecting
        before.freeing before.inCallback before.err next
        before.phase).plain sound.plain
      -- Every callback has its reply, and there is one more.
      have unsolicited : before.acceptedCallbacks.length < all.length := by
        have queue := sound.queue
        rw [pending] at queue
        have counted : answers.length = before.acceptedCallbacks.length := by
          simpa [resultsOf] using queue.complete
        have longer := answered.length_le
        rw [List.length_append, List.length_singleton] at longer
        omega
      rcases takeReply_of_empty plain pending heap cb with
        aborted | ⟨err, disconnected⟩
      · rw [aborted]
        exact sound.aborts isOpen (same.update _ _ _ _ _ _ _) rfl unsolicited
      · rw [disconnected]
        exact sound.closes (same.update _ _ _ _ _ _ _) rfl (Or.inl rfl)
    · obtain ⟨cb, replies, pending⟩ := List.exists_cons_of_ne_nil pending
      refine ⟨answers ++ [reply], ?_⟩
      simp only [AsyncContext.takeReply, pending]
      exact sound.runCallback pending answered reads.empty heap steps idle

theorem returnsFrom
    {cb : RedisCallback} {reply : Pointer}
    (sound : Sound all answers nulls before)
    (phase : before.phase = .calling cb reply) :
    Sound all answers nulls (before.returnsFrom cb reply) := by
  have isOpen : before.open? = true := by simp [open?, phase]
  have noNulls : nulls = 0 := sound.untilClosed isOpen
  subst noNulls
  have reader := sound.reader
  rw [phase] at reader
  obtain ⟨old, value, empty, rfl, heap, steps, idle⟩ := reader
  rw [AsyncContext.returnsFrom]
  have freed := @freeObject_eq { before with inCallback := false } old value heap
  simp only [freed]
  split
  · rename_i freeing
    exact sound.closes ((Same.refl before).update _ _ _ _ _ _ _) rfl
      (Or.inr freeing)
  · apply sound.of_same ((Same.refl before).update _ _ _ _ _ _ _)
    · exact fun _ => rfl
    · simp [open?]
    · simp
    · simp
    · exact ⟨_, _, all_none_append_replicate empty value.size, steps, idle _⟩

theorem returnsFromNull
    (sound : Sound all answers nulls before)
    (phase : before.phase = .callingNull) :
    Sound all answers nulls
      { before with inCallback := false, phase := .freeing } := by
  have isClosed : before.open? = false := by simp [open?, phase]
  exact sound.closes ((Same.refl before).update _ _ _ _ _ _ _) rfl
    (sound.closed isClosed)

/-! ### Events -/

/-- The event is handled further, or not for now, or the context is closed. -/
theorem handleConnect
    (sound : Sound all answers nulls before) (phase : before.phase = .idle)
    (connect : ConnectResult) :
    Sound all answers nulls (before.handleConnect connect).2 ∧
      ((before.handleConnect connect).1 = true →
        (before.handleConnect connect).2.phase = .idle ∧
          (before.handleConnect connect).2.obuf = before.obuf ∧
          (before.handleConnect connect).2.reader = before.reader) := by
  unfold AsyncContext.handleConnect
  split
  · exact ⟨sound, fun _ => ⟨phase, rfl, rfl⟩⟩
  · have same := Same.refl before
    cases connect with
    | connected =>
        refine ⟨?_, fun _ => ⟨phase, rfl, rfl⟩⟩
        have logged := (same.update true before.disconnecting before.freeing
          before.inCallback before.err before.reader before.phase).log
            (⟨rfl, rfl, rfl, rfl, rfl⟩ : Neutral (.connected true))
        exact sound.flags logged rfl rfl id id
    | inProgress err =>
        refine ⟨?_, fun impossible => Bool.false_ne_true impossible |>.elim⟩
        exact sound.flags (same.update _ _ _ _ _ _ _) rfl rfl id id
    | failed err =>
        refine ⟨?_, fun impossible => Bool.false_ne_true impossible |>.elim⟩
        have logged := (same.update before.connected before.disconnecting
          before.freeing before.inCallback (some err) before.reader
          before.phase).log
            (⟨rfl, rfl, rfl, rfl, rfl⟩ : Neutral (.connected false))
        exact sound.asyncDisconnect logged (Or.inl rfl)

theorem bufferRead
    (sound : Sound all answers nulls before) (phase : before.phase = .idle)
    {result : ReadResult}
    (room : ∀ chunk, result = .bytes chunk → before.reader.HasRoom chunk) :
    Sound all answers nulls (before.bufferRead result) := by
  have isOpen : before.open? = true := by simp [open?, phase]
  have noNulls : nulls = 0 := sound.untilClosed isOpen
  subst noNulls
  have same := Same.refl before
  have reader := sound.reader
  rw [phase] at reader
  obtain ⟨old, cursor, reads, _⟩ := reader
  unfold AsyncContext.bufferRead
  split
  · rename_i failed
    exact sound.asyncDisconnect same (Or.inl failed)
  · cases result with
    | again =>
        apply sound.of_same (same.update _ _ _ _ _ _ _)
        · exact fun _ => rfl
        · simp [open?]
        · simp
        · simp
        · exact ⟨old, cursor, reads⟩
    | failed err =>
        exact sound.asyncDisconnect (same.update _ _ _ _ _ _ _) (Or.inl rfl)
    | eof =>
        exact sound.asyncDisconnect (same.update _ _ _ _ _ _ _) (Or.inl rfl)
    | bytes chunk =>
        obtain ⟨next, fed, readsNext⟩ := reads.feed (room chunk rfl)
        simp only [fed, if_true]
        have logs : Logs before
            { { before with reader := next }.log (.read chunk) with
              phase := .processing { fn := none, privdata := 0 } }
            (.read chunk) := logs_of_history rfl
        have accepted := logs.accepted.trans (List.append_nil _)
        exact
          { plain := { sound.plain with }
            queue := by
              rw [accepted]
              exact sound.queue
            calls := by
              rw [logs.calls, accepted]
              exact (List.append_nil _).trans sound.calls
            output := by
              rw [logs.written, logs.commands]
              change before.written ++ [] ++ before.obuf = before.commands ++ []
              rw [List.append_nil, List.append_nil]
              exact sound.output
            answered := sound.answered
            untilClosed := fun _ => rfl
            closed := by simp [open?]
            emptied := by simp
            aborted := by simp
            reader := by
              rw [logs.received]
              exact ⟨old, cursor, readsNext⟩ }

theorem bufferWrite
    (sound : Sound all answers nulls before)
    (short : before.obuf.length ≤ intMax) {result : WriteResult}
    (possible : before.possibleWrite result = true) :
    Sound all answers nulls (before.bufferWrite result) := by
  have same := Same.refl before
  unfold AsyncContext.bufferWrite
  split
  · rename_i failed
    exact sound.asyncDisconnect same (Or.inl failed)
  · split
    · exact sound
    · rename_i nonempty
      cases result with
      | again => exact sound
      | failed err =>
          exact sound.asyncDisconnect (same.update _ _ _ _ _ _ _) (Or.inl rfl)
      | wrote count =>
          simp only
          split
          · exact sound
          · rename_i positive
            have fits : count ≤ before.obuf.length := by
              simp only [possibleWrite, Bool.and_eq_true,
                decide_eq_true_eq] at possible
              exact possible.1
            rw [unwritten_eq_drop short positive fits]
            have logs : Logs before
                ({ before with obuf := before.obuf.drop count }.log
                  (.wrote (before.obuf.take count)))
                (.wrote (before.obuf.take count)) := logs_of_history rfl
            have accepted := logs.accepted.trans (List.append_nil _)
            have received := logs.received.trans (List.append_nil _)
            exact
              { plain := { sound.plain with }
                queue := by
                  rw [accepted]
                  exact sound.queue
                calls := by
                  rw [logs.calls, accepted]
                  exact (List.append_nil _).trans sound.calls
                output := by
                  rw [logs.written, logs.commands]
                  change before.written ++ before.obuf.take count ++
                    before.obuf.drop count = before.commands ++ []
                  rw [List.append_assoc, List.take_append_drop, List.append_nil]
                  exact sound.output
                answered := sound.answered
                untilClosed := sound.untilClosed
                closed := sound.closed
                emptied := sound.emptied
                aborted := by
                  rw [accepted]
                  exact sound.aborted
                reader := by
                  rw [received]
                  exact sound.reader }

theorem readable
    (sound : Sound all answers nulls before) (phase : before.phase = .idle)
    (connect : ConnectResult) {result : ReadResult}
    (room : ∀ chunk, result = .bytes chunk → before.reader.HasRoom chunk) :
    Sound all answers nulls
      (match before.handleConnect connect with
        | (true, context) => context.bufferRead result
        | (false, context) => context) := by
  obtain ⟨handled, idle⟩ := sound.handleConnect phase connect
  generalize before.handleConnect connect = next at handled idle ⊢
  obtain ⟨further, context⟩ := next
  cases further with
  | false => exact handled
  | true =>
      apply handled.bufferRead (idle rfl).1
      rw [(idle rfl).2.2]
      exact room

theorem writable
    (sound : Sound all answers nulls before) (phase : before.phase = .idle)
    (connect : ConnectResult) {result : WriteResult}
    (possible : before.possibleWrite result = true)
    (short : before.obuf.length ≤ intMax) :
    Sound all answers nulls
      (match before.handleConnect connect with
        | (true, context) => context.bufferWrite result
        | (false, context) => context) := by
  obtain ⟨handled, further⟩ := sound.handleConnect phase connect
  generalize before.handleConnect connect = next at handled further ⊢
  obtain ⟨goesOn, context⟩ := next
  cases goesOn with
  | false => exact handled
  | true =>
      have sameBuffer : context.obuf = before.obuf := (further rfl).2.1
      apply handled.bufferWrite (by rw [sameBuffer]; exact short)
      cases result with
      | wrote count => simpa [possibleWrite, sameBuffer] using possible
      | again => rfl
      | failed err => rfl

end Sound

/-- The steps in which `all` is what the server writes, and no command
subscribes or monitors. -/
def Serves (all : List Reply) (context : AsyncContext) : AsyncLabel → Prop
  | .command _ cmd =>
      context.received <+: Reply.encodeAll all ∧
        commandKind cmd = some .regular
  | _ => context.received <+: Reply.encodeAll all

instance decidableServes (all : List Reply) (context : AsyncContext) :
    ∀ label, Decidable (Serves all context label)
  | .command _ _ => inferInstanceAs (Decidable (_ ∧ _))
  | .disconnect | .free | .readable _ _ | .writable _ _ | .next _ | .returns =>
      inferInstanceAs (Decidable (context.received <+: Reply.encodeAll all))

theorem Serves.isPrefix
    {all : List Reply} {context : AsyncContext} {label : AsyncLabel}
    (serves : Serves all context label) :
    context.received <+: Reply.encodeAll all := by
  cases label with
  | command cb cmd => exact serves.1
  | disconnect => exact serves
  | free => exact serves
  | readable connect result => exact serves
  | writable connect result => exact serves
  | next choice => exact serves
  | returns => exact serves

/-- The step can count the bytes of the buffers that it works on. -/
def InBounds (context : AsyncContext) : AsyncLabel → Prop
  | .readable _ (.bytes chunk) => context.reader.HasRoom chunk
  | .writable _ _ => context.obuf.length ≤ intMax
  | _ => True

instance decidableInBounds (context : AsyncContext) :
    ∀ label, Decidable (InBounds context label)
  | .readable _ (.bytes chunk) =>
      inferInstanceAs (Decidable (context.reader.HasRoom chunk))
  | .writable _ _ =>
      inferInstanceAs (Decidable (context.obuf.length ≤ intMax))
  | .readable _ .again | .readable _ (.failed _) | .readable _ .eof
  | .command _ _ | .disconnect | .free | .next _ | .returns => isTrue trivial

theorem sound_create (all : List Reply) : Sound all [] 0 create where
  plain := ⟨rfl, rfl, rfl, rfl, rfl⟩
  queue := .start
  calls := rfl
  output := rfl
  answered := List.nil_prefix
  untilClosed := fun _ => rfl
  closed := by simp [open?, create]
  emptied := fun _ => rfl
  aborted := by simp [create]
  reader :=
    ⟨[], ReplyCursor.inside [], reads_create,
      (arrived_zero fun reply _ => reply.encode_ne_nil).symm⟩

theorem sound_step
    {all : List Reply} (sendable : ∀ reply ∈ all, Sendable maxLevels reply)
    {before after : AsyncContext} {label : AsyncLabel}
    (stepped : before.step label = some after) (serves : Serves all before label)
    (inBounds : InBounds before label)
    {answers : List Reply} {nulls : Nat}
    (sound : Sound all answers nulls before) :
    ∃ later count, Sound all later count after := by
  cases label with
  | command cb cmd =>
      simp only [step] at stepped
      split at stepped
      · rename_i running
        cases stepped
        exact ⟨answers, nulls, sound.asyncCommand running cb serves.2⟩
      · cases stepped
  | disconnect =>
      simp only [step] at stepped
      split at stepped
      · cases stepped
        exact ⟨answers, nulls, sound.redisAsyncDisconnect⟩
      · cases stepped
  | free =>
      simp only [step] at stepped
      split at stepped
      · cases stepped
        exact ⟨answers, nulls, sound.redisAsyncFree⟩
      · cases stepped
  | readable connect result =>
      simp only [step] at stepped
      split at stepped
      · rename_i enabled
        have room : ∀ chunk, result = .bytes chunk →
            before.reader.HasRoom chunk := by
          rintro chunk rfl
          exact inBounds
        have handled := sound.readable enabled.1 connect room
        refine ⟨answers, nulls, ?_⟩
        generalize before.handleConnect connect = next at stepped handled
        obtain ⟨goesOn, context⟩ := next
        cases goesOn <;> cases stepped <;> exact handled
      · cases stepped
  | writable connect result =>
      simp only [step] at stepped
      split at stepped
      · rename_i enabled
        have handled := sound.writable enabled.1 connect enabled.2 inBounds
        refine ⟨answers, nulls, ?_⟩
        generalize before.handleConnect connect = next at stepped handled
        obtain ⟨goesOn, context⟩ := next
        cases goesOn <;> cases stepped <;> exact handled
      · cases stepped
  | next choice =>
      simp only [step] at stepped
      cases phase : before.phase with
      | processing cb =>
          rw [phase] at stepped
          cases stepped
          obtain ⟨later, sound⟩ :=
            sound.processCallbacks sendable serves.isPrefix phase
          exact ⟨later, nulls, sound⟩
      | freeing =>
          rw [phase] at stepped
          cases stepped
          exact ⟨answers, sound.asyncFree phase choice⟩
      | idle => rw [phase] at stepped; cases stepped
      | calling cb reply => rw [phase] at stepped; cases stepped
      | callingNull => rw [phase] at stepped; cases stepped
      | freed => rw [phase] at stepped; cases stepped
      | aborted => rw [phase] at stepped; cases stepped
  | returns =>
      simp only [step] at stepped
      cases phase : before.phase with
      | calling cb reply =>
          rw [phase] at stepped
          cases stepped
          exact ⟨answers, nulls, sound.returnsFrom phase⟩
      | callingNull =>
          rw [phase] at stepped
          cases stepped
          exact ⟨answers, nulls, sound.returnsFromNull phase⟩
      | idle => rw [phase] at stepped; cases stepped
      | processing cb => rw [phase] at stepped; cases stepped
      | freeing => rw [phase] at stepped; cases stepped
      | freed => rw [phase] at stepped; cases stepped
      | aborted => rw [phase] at stepped; cases stepped

/-- The callbacks are called in the order of their commands, with the replies
in the order in which the server writes them; those that are left when the
context is freed are called with none.  Between two events all that has arrived
has been given away.  An assertion fails only if the server writes more replies than
there are commands. -/
theorem calls_inOrder
    {all : List Reply} (sendable : ∀ reply ∈ all, Sendable maxLevels reply)
    {labels : List AsyncLabel} {final : AsyncContext}
    (serves : AllSteps step (Serves all) create labels)
    (inBounds : AllSteps step InBounds create labels)
    (ran : run step create labels = some final) :
    ∃ answers nulls,
      answers <+: all ∧
        final.calls =
          callsFor final.acceptedCallbacks (resultsOf answers nulls) ∧
        (final.phase = .idle →
          nulls = 0 ∧
            answers = arrived Reply.encode all final.received.length) ∧
        (final.phase = .freed →
          answers.length + nulls = final.acceptedCallbacks.length) ∧
        (final.phase = .aborted →
          final.acceptedCallbacks.length < all.length) ∧
        final.written ++ final.obuf = final.commands := by
  have reached : ∃ answers nulls, Sound all answers nulls final := by
    apply run_invariant_of_allSteps _ _ (serves.and inBounds) ran
    · intro before label after sound both stepped
      obtain ⟨answers, nulls, sound⟩ := sound
      exact sound_step sendable stepped both.1 both.2 sound
    · exact ⟨[], 0, sound_create all⟩
  obtain ⟨answers, nulls, sound⟩ := reached
  refine ⟨answers, nulls, sound.answered, sound.calls, ?_, ?_, sound.aborted,
    sound.output⟩
  · intro idle
    have reader := sound.reader
    rw [idle] at reader
    obtain ⟨old, cursor, _, complete⟩ := reader
    exact ⟨sound.untilClosed (by simp [open?, idle]), complete⟩
  · intro freed
    have queue := sound.queue
    rw [sound.emptied freed] at queue
    simpa [resultsOf] using queue.complete

/-- Two commands; the first callback frees the context. -/
def freedEarly : List AsyncLabel :=
  [.command { fn := some 1, privdata := 0 } (ascii "*1\r\n$4\r\nPING\r\n"),
    .command { fn := some 2, privdata := 0 } (ascii "*1\r\n$4\r\nPING\r\n"),
    .writable .connected (.wrote 20),
    .readable .connected (.bytes (ascii ":7\r\n")), .next 0, .free, .returns,
    .next 0, .returns, .next 0]

theorem calls_inOrder_freedEarly :
    ∃ final,
      run step create freedEarly = some final ∧
        ∃ answers nulls,
          answers <+: [.integer 7] ∧
            final.calls =
              callsFor final.acceptedCallbacks (resultsOf answers nulls) ∧
            (final.phase = .idle →
              nulls = 0 ∧
                answers =
                  arrived Reply.encode [.integer 7] final.received.length) ∧
            (final.phase = .freed →
              answers.length + nulls = final.acceptedCallbacks.length) ∧
            (final.phase = .aborted → final.acceptedCallbacks.length < 1) ∧
            final.written ++ final.obuf = final.commands := by
  have runs : (run step create freedEarly).isSome := by decide +kernel
  obtain ⟨final, ran⟩ := Option.isSome_iff_exists.mp runs
  refine ⟨final, ran, calls_inOrder ?_ (by decide +kernel)
    (by decide +kernel) ran⟩
  intro reply listed
  rw [List.mem_singleton.mp listed]
  exact .integer (by decide)

end AsyncContext

end Hiredis

end DBWrapper
