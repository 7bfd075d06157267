import DBWrapper.Redis.CallbackQueue

/-!
# The blocking context of hiredis

Commands are appended to the output buffer; `redisGetReply` returns a reply that
is there already, and otherwise writes the buffer out and reads until a reply is
complete.  A step is a call of the program or one system call inside of
`redisGetReply`, with what the operating system answers.  The program frees a
reply before it asks for the next one.

The replies come in the order in which the server writes them, and none is kept
back: the context waits for the server only when everything is written and every
reply that has arrived has been returned.  The bytes of the buffers are counted
in numbers of type `int`, and none of them gets longer than `INT_MAX` bytes.
-/

namespace DBWrapper

open Foundation

namespace Hiredis

/-- Where the code is: in the program, with or without a reply to free, or in
one of the loops of `redisGetReply`. -/
inductive BlockingPhase where
  | idle
  | returned (reply : Pointer)
  | writing
  | reading
  | aborted
  deriving DecidableEq, Repr

/-- `redisContext` with the flag `REDIS_BLOCK`, and what has gone through it. -/
structure BlockingContext where
  err : Option RedisError
  obuf : ByteString
  reader : RedisReader
  phase : BlockingPhase
  commands : ByteString
  written : ByteString
  received : ByteString
  replies : List Reply
  deriving Repr

/-- Of the answers to `read` and `write`, `again` is here `EINTR` alone; `EAGAIN`
is an error like others. -/
inductive BlockingLabel where
  | appendCommand (cmd : ByteString)
  | getReply
  | freeReply
  | write (result : WriteResult)
  | read (result : ReadResult)
  deriving DecidableEq, Repr

namespace BlockingContext

def create : BlockingContext :=
  { err := none, obuf := [], reader := .create [], phase := .idle
    commands := [], written := [], received := [], replies := [] }

/-- `redisGetReplyFromReader`, and what `redisGetReply` does with the answer; it
goes on to `next` if there is no reply. -/
def getReplyFromReader (context : BlockingContext) (next : BlockingPhase) :
    BlockingContext :=
  match context.reader.redisReaderGetReply with
  | none => { context with phase := .aborted }
  | some (false, _, reader) =>
      { context with reader, err := reader.err, phase := .idle }
  | some (true, none, reader) => { context with reader, phase := next }
  | some (true, some reply, reader) =>
      match readReply reader.heap reader.heap.length reply with
      | none => { context with reader, phase := .aborted }
      | some value =>
          { context with
            reader, phase := .returned reply
            replies := context.replies ++ [value] }

/-- `redisBufferWrite` in the loop that writes until all is done. -/
def bufferWrite (context : BlockingContext) (result : WriteResult) :
    BlockingContext :=
  if context.err.isSome then
    { context with phase := .idle }
  else if context.obuf = [] then
    { context with phase := .reading }
  else
    match result with
    | .again => context
    | .failed err => { context with err := some err, phase := .idle }
    | .wrote count =>
        if count = 0 then
          context
        else
          match unwritten context.obuf count with
          | none => { context with phase := .aborted }
          | some obuf =>
              { context with
                obuf, written := context.written ++ context.obuf.take count
                phase := if obuf = [] then .reading else .writing }

/-- `redisBufferRead` in the loop that reads until there is a reply. -/
def bufferRead (context : BlockingContext) (result : ReadResult) :
    BlockingContext :=
  if context.err.isSome then
    { context with phase := .idle }
  else
    match result with
    | .again => context.getReplyFromReader .reading
    | .failed err => { context with err := some err, phase := .idle }
    | .eof =>
        { context with
          err := some { type := .eof, errstr := "Server closed the connection" }
          phase := .idle }
    | .bytes chunk =>
        let (fed, reader) := context.reader.redisReaderFeed chunk
        let context :=
          { context with reader, received := context.received ++ chunk }
        if fed then
          context.getReplyFromReader .reading
        else
          { context with err := reader.err, phase := .idle }

/-- What `write` can answer. -/
def possibleWrite (context : BlockingContext) : WriteResult → Bool
  | .wrote count => count ≤ context.obuf.length && count ≤ writeSize
  | _ => true

def inProgram (context : BlockingContext) : Bool :=
  match context.phase with
  | .idle | .returned _ => true
  | _ => false

/-- The program frees the reply that it has got. -/
def freeReply (context : BlockingContext) : Option BlockingContext :=
  match context.phase with
  | .returned reply =>
      match freeReplyObject context.reader.heap.length context.reader.heap
          reply with
      | none => some { context with phase := .aborted }
      | some heap =>
          some
            { context with
              reader := { context.reader with heap }, phase := .idle }
  | _ => none

def step (context : BlockingContext) : BlockingLabel → Option BlockingContext
  | .appendCommand cmd =>
      if context.inProgram then
        some
          { context with
            obuf := context.obuf ++ cmd, commands := context.commands ++ cmd }
      else
        none
  | .getReply =>
      if context.phase = .idle then
        some (context.getReplyFromReader .writing)
      else
        none
  | .freeReply => context.freeReply
  | .write result =>
      if context.phase = .writing ∧ context.possibleWrite result then
        some (context.bufferWrite result)
      else
        none
  | .read result =>
      if context.phase = .reading ∧ AsyncContext.possibleRead result then
        some (context.bufferRead result)
      else
        none

/-! ### The invariant -/

/-- Where the reader is in each phase. -/
def ReaderAt (all replies : List Reply) (received : ByteString)
    (reader : RedisReader) : BlockingPhase → Prop
  | .idle => ∃ old cursor, Reads received replies old cursor reader
  | .writing | .reading =>
      ∃ old cursor, Reads received replies old cursor reader ∧
        replies = arrived Reply.encode all received.length
  | .returned reply =>
      ∃ (old : ReplyHeap) (value : Reply),
        (∀ cell ∈ old, cell = none) ∧ reply = old.length ∧
        reader.heap = old ++ value.cells old.length ∧
        Transducer.Steps ReplyCursor.step (ReplyCursor.inside []) received
          replies (ReplyCursor.inside []) reader.cursor ∧
        ∀ heap, Between heap (ReplyCursor.inside []) { reader with heap }
  | .aborted => False

/-- Of a context whose server writes `all`. -/
structure Sound (all : List Reply) (context : BlockingContext) : Prop where
  output : context.written ++ context.obuf = context.commands
  flushed : context.phase = .reading → context.obuf = []
  isPrefix : context.received <+: Reply.encodeAll all
  answered : context.replies <+: all
  reader : ReaderAt all context.replies context.received context.reader
    context.phase

theorem sound_create (all : List Reply) : Sound all create where
  output := rfl
  flushed := fun _ => rfl
  isPrefix := List.nil_prefix
  answered := List.nil_prefix
  reader := ⟨[], _, reads_create⟩

section Steps

variable {all : List Reply} {before : BlockingContext}

/-- The next reply is returned, or there is none and all that have arrived have
been. -/
theorem sound_getReplyFromReader
    (sendable : ∀ reply ∈ all, Sendable maxLevels reply)
    {next : BlockingPhase} (waits : next = .writing ∨ next = .reading)
    (output : before.written ++ before.obuf = before.commands)
    (flushed : next = .reading → before.obuf = [])
    (isPrefix : before.received <+: Reply.encodeAll all)
    (answered : before.replies <+: all)
    {old : ReplyHeap} {cursor : ReplyCursor}
    (reads : Reads before.received before.replies old cursor before.reader) :
    Sound all (before.getReplyFromReader next) := by
  unfold getReplyFromReader
  rcases reads.getReply sendable isPrefix with
    ⟨after, reader, taken, readsNext, complete⟩ |
    ⟨reply, reader, taken, answeredNext, heap, steps, idle⟩
  · rw [taken]
    exact
      { output
        flushed
        isPrefix
        answered
        reader := by
          rcases waits with rfl | rfl
          · exact ⟨old, after, readsNext, complete⟩
          · exact ⟨old, after, readsNext, complete⟩ }
  · have size : reply.size ≤ reader.heap.length := by
      rw [← length_cells old.length, heap, List.length_append]
      omega
    have read := readReply_cells reply old [] size
    rw [List.append_nil, ← heap] at read
    rw [taken]
    simp only [read]
    exact
      { output
        flushed := fun reading => nomatch reading
        isPrefix
        answered := answeredNext
        reader := ⟨old, reply, reads.empty, rfl, heap, steps, idle⟩ }

namespace Sound

/-- `redisGetReply` returns an error. -/
theorem returnsError
    (sound : Sound all before) {old : ReplyHeap} {cursor : ReplyCursor}
    (reads : Reads before.received before.replies old cursor before.reader)
    (err : Option RedisError) : Sound all { before with err, phase := .idle } where
  output := sound.output
  flushed := fun reading => nomatch reading
  isPrefix := sound.isPrefix
  answered := sound.answered
  reader := ⟨old, cursor, reads⟩

theorem appendCommand
    (sound : Sound all before) (mayCall : before.inProgram = true)
    (cmd : ByteString) :
    Sound all
      { before with
        obuf := before.obuf ++ cmd, commands := before.commands ++ cmd } where
  output := by
    rw [← sound.output, List.append_assoc]
  flushed := by
    intro reading
    have phase : before.phase = .reading := reading
    rw [inProgram, phase] at mayCall
    cases mayCall
  isPrefix := sound.isPrefix
  answered := sound.answered
  reader := sound.reader

theorem getReply
    (sendable : ∀ reply ∈ all, Sendable maxLevels reply)
    (sound : Sound all before) (phase : before.phase = .idle) :
    Sound all (before.getReplyFromReader .writing) := by
  have reader := sound.reader
  rw [phase] at reader
  obtain ⟨old, cursor, reads⟩ := reader
  exact sound_getReplyFromReader sendable (.inl rfl) sound.output
    (fun reading => nomatch reading) sound.isPrefix sound.answered reads

theorem freeReply
    (sound : Sound all before) {reply : Pointer}
    (phase : before.phase = .returned reply) :
    ∃ heap,
      freeReplyObject before.reader.heap.length before.reader.heap reply =
          some heap ∧
        Sound all
          { before with
            reader := { before.reader with heap }, phase := .idle } := by
  have reader := sound.reader
  rw [phase] at reader
  obtain ⟨old, value, empty, rfl, heap, steps, idle⟩ := reader
  have freed := frees_cells old.length value old [] before.reader.heap.length
    rfl (by rw [heap, List.length_append]; omega)
  rw [List.append_nil, ← heap] at freed
  have one : freeReplyObject before.reader.heap.length before.reader.heap
      old.length = some (old ++ List.replicate value.size none) := by
    simpa using freed
  refine ⟨_, one, ?_⟩
  exact
    { output := sound.output
      flushed := fun reading => nomatch reading
      isPrefix := sound.isPrefix
      answered := sound.answered
      reader :=
        ⟨_, _, all_none_append_replicate empty value.size, steps, idle _⟩ }

theorem bufferWrite
    (sound : Sound all before) (phase : before.phase = .writing)
    (short : before.obuf.length ≤ intMax) {result : WriteResult}
    (possible : ∀ count, result = .wrote count → count ≤ before.obuf.length) :
    Sound all (before.bufferWrite result) := by
  have reader := sound.reader
  rw [phase] at reader
  obtain ⟨old, cursor, reads, complete⟩ := reader
  unfold BlockingContext.bufferWrite
  split
  · exact sound.returnsError reads before.err
  · split
    · rename_i empty
      exact
        { output := sound.output
          flushed := fun _ => empty
          isPrefix := sound.isPrefix
          answered := sound.answered
          reader := ⟨old, cursor, reads, complete⟩ }
    · cases result with
      | again => exact sound
      | failed err => exact sound.returnsError reads (some err)
      | wrote count =>
          have inside := possible count rfl
          simp only
          split
          · exact sound
          · rename_i positive
            rw [unwritten_eq_drop short positive inside]
            have output : before.written ++ before.obuf.take count ++
                before.obuf.drop count = before.commands := by
              rw [List.append_assoc, List.take_append_drop]
              exact sound.output
            exact
              { output
                flushed := by
                  intro reading
                  by_contra left
                  simp only [if_neg left] at reading
                  cases reading
                isPrefix := sound.isPrefix
                answered := sound.answered
                reader := by
                  by_cases done : before.obuf.drop count = []
                  · simp only [if_pos done]
                    exact ⟨old, cursor, reads, complete⟩
                  · simp only [if_neg done]
                    exact ⟨old, cursor, reads, complete⟩ }

theorem bufferRead
    (sendable : ∀ reply ∈ all, Sendable maxLevels reply)
    (sound : Sound all before) (phase : before.phase = .reading)
    {result : ReadResult}
    (served : ∀ chunk, result = .bytes chunk →
      before.received ++ chunk <+: Reply.encodeAll all)
    (room : ∀ chunk, result = .bytes chunk → before.reader.HasRoom chunk) :
    Sound all (before.bufferRead result) := by
  have reader := sound.reader
  rw [phase] at reader
  obtain ⟨old, cursor, reads, _⟩ := reader
  have flushed := sound.flushed phase
  unfold BlockingContext.bufferRead
  split
  · exact sound.returnsError reads before.err
  · cases result with
    | again =>
        exact sound_getReplyFromReader sendable (.inr rfl) sound.output
          (fun _ => flushed) sound.isPrefix sound.answered reads
    | failed err => exact sound.returnsError reads (some err)
    | eof => exact sound.returnsError reads _
    | bytes chunk =>
        obtain ⟨reader, fed, readsNext⟩ := reads.feed (room chunk rfl)
        simp only [fed, if_true]
        exact @sound_getReplyFromReader all
          { before with reader, received := before.received ++ chunk } sendable _
          (.inr rfl) sound.output (fun _ => flushed) (served chunk rfl)
          sound.answered _ _ readsNext

end Sound

end Steps

/-! ### Runs -/

/-- `all` is what the server writes. -/
def Serves (all : List Reply) (context : BlockingContext) :
    BlockingLabel → Prop
  | .read (.bytes chunk) =>
      context.received ++ chunk <+: Reply.encodeAll all
  | _ => True

instance decidableServes (all : List Reply) (context : BlockingContext) :
    ∀ label, Decidable (Serves all context label)
  | .read (.bytes chunk) =>
      inferInstanceAs
        (Decidable (context.received ++ chunk <+: Reply.encodeAll all))
  | .read .again | .read (.failed _) | .read .eof | .write _ | .getReply
  | .freeReply | .appendCommand _ => isTrue trivial

/-- The step can count the bytes of the buffer that it works on. -/
def InBounds (context : BlockingContext) : BlockingLabel → Prop
  | .read (.bytes chunk) => context.reader.HasRoom chunk
  | .write _ => context.obuf.length ≤ intMax
  | _ => True

instance decidableInBounds (context : BlockingContext) :
    ∀ label, Decidable (InBounds context label)
  | .read (.bytes chunk) =>
      inferInstanceAs (Decidable (context.reader.HasRoom chunk))
  | .write _ => inferInstanceAs (Decidable (context.obuf.length ≤ intMax))
  | .read .again | .read (.failed _) | .read .eof | .getReply | .freeReply
  | .appendCommand _ => isTrue trivial

theorem sound_step
    {all : List Reply} (sendable : ∀ reply ∈ all, Sendable maxLevels reply)
    {before after : BlockingContext} {label : BlockingLabel}
    (sound : Sound all before) (serves : Serves all before label)
    (inBounds : InBounds before label)
    (stepped : step before label = some after) : Sound all after := by
  cases label with
  | appendCommand cmd =>
      obtain ⟨inProgram, same⟩ := Option.ite_none_right_eq_some.mp stepped
      cases same
      exact sound.appendCommand inProgram cmd
  | getReply =>
      obtain ⟨phase, same⟩ := Option.ite_none_right_eq_some.mp stepped
      cases same
      exact sound.getReply sendable phase
  | freeReply =>
      change before.freeReply = some after at stepped
      unfold freeReply at stepped
      split at stepped
      · rename_i reply phase
        obtain ⟨heap, freed, next⟩ := sound.freeReply phase
        rw [freed] at stepped
        cases stepped
        exact next
      · cases stepped
  | write result =>
      obtain ⟨⟨phase, possible⟩, same⟩ :=
        Option.ite_none_right_eq_some.mp stepped
      cases same
      apply sound.bufferWrite phase inBounds
      rintro count rfl
      simp only [possibleWrite, Bool.and_eq_true, decide_eq_true_eq] at possible
      exact possible.1
  | read result =>
      obtain ⟨⟨phase, _⟩, same⟩ := Option.ite_none_right_eq_some.mp stepped
      cases same
      apply sound.bufferRead sendable phase
      · rintro chunk rfl
        exact serves
      · rintro chunk rfl
        exact inBounds

end BlockingContext

end Hiredis

end DBWrapper
