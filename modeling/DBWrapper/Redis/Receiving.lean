import DBWrapper.Foundation.Runs
import DBWrapper.Redis.ReaderRefinement

/-!
# Receiving replies

A connection feeds its reader with what has arrived and takes off the replies
that are complete.  Each of them is handed to a callback, which may follow its
pointers, and is freed behind it.

What the callbacks see is the stream read by the recursive parser, whichever way
the bytes have been cut on their way; and when the reader is given up, no object
of a reply is left.  This holds as long as no chunk makes the buffer longer than
`INT_MAX` bytes, which the reader counts in numbers of type `int`.
-/

namespace DBWrapper

open Foundation

namespace Hiredis

/-- The loop of `redisProcessCallbacks`, as far as the replies go.  Every one of
them but the last result takes a byte. -/
def drainReplies : Nat → RedisReader → Option (List Reply × RedisReader)
  | 0, _ => none
  | fuel + 1, reader => do
      let (_, reply, reader) ← reader.redisReaderGetReply
      match reply with
      | none => some ([], reader)
      | some reply => do
          let value ← readReply reader.heap reader.heap.length reply
          let heap ← freeReplyObject reader.heap.length reader.heap reply
          let (values, reader) ← drainReplies fuel { reader with heap }
          some (value :: values, reader)

/-- What a read from the socket brings about. -/
def receive (reader : RedisReader) (chunk : ByteString) :
    Option (List Reply × RedisReader) :=
  let reader := (reader.redisReaderFeed chunk).2
  drainReplies (reader.cursor.length + 1) reader

def receiveAll : List ByteString → RedisReader →
    Option (List Reply × RedisReader)
  | [], reader => some ([], reader)
  | chunk :: chunks, reader => do
      let (replies, reader) ← receive reader chunk
      let (later, reader) ← receiveAll chunks reader
      some (replies ++ later, reader)

/-- The reader behind a chunk. -/
def readerAfter (reader : RedisReader) (chunk : ByteString) :
    Option RedisReader :=
  (receive reader chunk).map Prod.snd

/-- The buffer can be counted with the chunk in it. -/
def RedisReader.HasRoom (reader : RedisReader) (chunk : ByteString) : Prop :=
  reader.buf.length + chunk.length ≤ intMax

instance RedisReader.decidableHasRoom (reader : RedisReader)
    (chunk : ByteString) : Decidable (reader.HasRoom chunk) :=
  inferInstanceAs (Decidable (_ ≤ _))

/-! ### Between two calls -/

/-- A reader without tasks is one in front of a reply. -/
def Between (old : ReplyHeap) (cursor : ReplyCursor) (reader : RedisReader) :
    Prop :=
  Represents old cursor
      { reader with
        rstack :=
          if reader.rstack = [] then [.new (-1)] else reader.rstack } ∧
    ReplyCursor.step cursor [] = none

/-- What may become of `redisReaderGetReply`. -/
inductive ReplyOutcome (old : ReplyHeap) (cursor : ReplyCursor)
    (input : ByteString) :
    Option (Bool × Option Pointer × RedisReader) → Prop where
  | waits {after : ReplyCursor} {reader : RedisReader} :
      Transducer.Steps ReplyCursor.step cursor input [] after reader.cursor →
      ReplyCursor.step after reader.cursor = none →
      Between old after reader →
      ReplyOutcome old cursor input (some (true, none, reader))
  | replied {reply : Reply} {reader : RedisReader} :
      Transducer.Steps ReplyCursor.step cursor input [reply]
        (ReplyCursor.inside []) reader.cursor →
      reader.cursor.length < input.length →
      reader.heap = old ++ reply.cells old.length →
      (∀ heap, Between heap (ReplyCursor.inside []) { reader with heap }) →
      ReplyOutcome old cursor input (some (true, some old.length, reader))
  | failed {after : ReplyCursor} {left : ByteString} {err : RedisError}
      {reader : RedisReader} :
      Transducer.Steps ReplyCursor.step cursor input [] after left →
      after.failure = some (.error err) → Failed old err reader →
      ReplyOutcome old cursor input (some (false, none, reader))
  | outside {result : Option (Bool × Option Pointer × RedisReader)} :
      GoesOutside cursor input → ReplyOutcome old cursor input result

/-- A cursor that waits for the rest of an item waits all the more at the end of
the input. -/
theorem step_nil_of_step
    {cursor : ReplyCursor} {input : ByteString}
    (waits : ReplyCursor.step cursor input = none) :
    ReplyCursor.step cursor [] = none := by
  cases outcome : ReplyCursor.step cursor [] with
  | none => rfl
  | some result =>
      obtain ⟨next, rest, outputs⟩ := result
      have longer := ReplyCursor.stable_step _ _ _ _ _ input outcome
      rw [List.nil_append, waits] at longer
      cases longer

theorem subrange_drop
    {s : ByteString} {start : Nat} (positive : 0 < start)
    (inside : start ≤ s.length) : subrange s start (-1) = s.drop start := by
  have nonempty : (s.length : Int) ≠ 0 := by omega
  have notBack : ¬ (start : Int) < 0 := by omega
  have stop : max ((s.length : Int) + -1) 0 = s.length - 1 := by omega
  have back : (-1 : Int) < 0 := by decide
  simp only [subrange, nonempty, notBack, back, stop, if_false, if_true]
  by_cases atEnd : start = s.length
  · rw [if_pos (by omega), List.drop_eq_nil_of_le (by omega)]
  · rw [if_neg (by omega), Int.toNat_natCast]
    apply List.take_of_length_le
    rw [List.length_drop]
    omega

theorem sdsrange_drop
    {s : ByteString} (short : s.length ≤ intMax) {start : Nat}
    (positive : 0 < start) (inside : start ≤ s.length) :
    sdsrange s start (-1) = some (s.drop start) := by
  rw [sdsrange_eq_subrange short (by omega) (by decide) (by decide),
    subrange_drop positive inside]

/-- What is left to read stays when the rest is discarded. -/
theorem discard_spec
    {reader : RedisReader} (inside : reader.pos ≤ reader.buf.length)
    (short : reader.buf.length ≤ intMax) :
    ∃ buf pos, reader.discard = some { reader with buf, pos } ∧
      pos ≤ buf.length ∧ buf.length ≤ intMax ∧
      buf.drop pos = reader.cursor := by
  rw [RedisReader.discard]
  split
  · rw [toInt_of_le (inside.trans short),
      sdsrange_drop short (by omega) inside]
    refine ⟨_, 0, rfl, Nat.zero_le _, ?_, List.drop_zero⟩
    rw [List.length_drop]
    omega
  · exact ⟨reader.buf, reader.pos, rfl, inside, short, rfl⟩

theorem Represents.moved
    {old : ReplyHeap} {cursor : ReplyCursor} {reader : RedisReader}
    (represents : Represents old cursor reader) {buf : ByteString} {pos : Nat}
    (inside : pos ≤ buf.length) (short : buf.length ≤ intMax) :
    Represents old cursor { reader with buf, pos } where
  going := represents.going
  noErr := represents.noErr
  inside := inside
  short := short
  proper := represents.proper
  tasks := represents.tasks
  heap := represents.heap
  reply := represents.reply

theorem Represents.between
    {old : ReplyHeap} {cursor : ReplyCursor} {reader : RedisReader}
    (represents : Represents old cursor reader) {input : ByteString}
    (waits : ReplyCursor.step cursor input = none) :
    Between old cursor reader := by
  obtain ⟨obj, tasks⟩ := represents.tasks
  have notDone : reader.rstack ≠ [] := by
    rw [tasks]
    exact List.cons_ne_nil _ _
  refine ⟨?_, step_nil_of_step waits⟩
  rw [if_neg notDone]
  exact represents

/-- In front of a reply, whatever the heap holds. -/
theorem between_of_idle
    {reader : RedisReader} (noErr : reader.err = none)
    (inside : reader.pos ≤ reader.buf.length)
    (short : reader.buf.length ≤ intMax) (rstack : reader.rstack = [])
    (reply : reader.reply = none) :
    Between reader.heap (ReplyCursor.inside []) reader := by
  refine ⟨?_, rfl⟩
  rw [if_pos rstack]
  exact
    { going := rfl
      noErr
      inside
      short
      proper := proper_nil
      tasks := ⟨none, rfl⟩
      heap := (List.append_nil reader.heap).symm
      reply := reply }

theorem between_create (heap : ReplyHeap) :
    Between heap (ReplyCursor.inside []) (RedisReader.create heap) := by
  have idle : Between (RedisReader.create heap).heap (ReplyCursor.inside [])
      (RedisReader.create heap) :=
    between_of_idle rfl (Nat.le_refl _) (Nat.zero_le _) rfl rfl
  exact idle

theorem outcome_redisReaderGetReply
    {old : ReplyHeap} {cursor : ReplyCursor} {reader : RedisReader}
    (between : Between old cursor reader) :
    ReplyOutcome old cursor reader.cursor reader.redisReaderGetReply := by
  have noErr : reader.err.isSome = false := by
    rw [show reader.err = none from between.1.noErr]
    rfl
  by_cases empty : reader.len = 0
  · have left : reader.cursor = [] := by
      rw [RedisReader.cursor, List.length_eq_zero_iff.mp empty, List.drop_nil]
    have waits : ReplyCursor.step cursor reader.cursor = none := by
      rw [left]
      exact between.2
    simp only [RedisReader.redisReaderGetReply, noErr, Bool.false_eq_true,
      if_false, empty, if_true]
    exact .waits .refl waits between
  · have start : (if reader.rstack = [] then
        { reader with rstack := [.new (-1)] } else reader) =
          { reader with
            rstack :=
              if reader.rstack = [] then [.new (-1)] else reader.rstack } := by
      split <;> rfl
    have loop := outcome_processItems between.1 (Nat.lt_succ_self _)
    rw [← start] at loop
    simp only [RedisReader.redisReaderGetReply, noErr, Bool.false_eq_true,
      if_false, empty]
    generalize RedisReader.processItems _ _ = final at loop
    have input : (if reader.rstack = [] then
        { reader with rstack := [.new (-1)] } else reader).cursor =
          reader.cursor := by
      rw [start]
      rfl
    rw [input] at loop
    cases loop with
    | @replied reply after steps delivers shorter =>
        obtain ⟨buf, pos, discarded, inside, short, same⟩ :=
          discard_spec delivers.inside delivers.short
        have going : after.err.isSome = false := by
          rw [delivers.noErr]
          rfl
        simp only [Option.bind_eq_bind, Option.bind_some, going,
          Bool.false_eq_true, if_false, discarded, delivers.rstack, if_true,
          delivers.reply]
        refine .replied ?_ ?_ delivers.heap ?_
        · simpa only [RedisReader.cursor, same] using steps
        · simpa only [RedisReader.cursor, same] using shorter
        · intro heap
          let final : RedisReader :=
            { err := after.err, buf, pos, rstack := [], reply := none, heap }
          exact @between_of_idle final delivers.noErr inside short rfl rfl
    | @halts after halts =>
        cases halts with
        | @waits next _ steps waits represents =>
            obtain ⟨buf, pos, discarded, inside, short, same⟩ :=
              discard_spec represents.inside represents.short
            obtain ⟨obj, tasks⟩ := represents.tasks
            have going : after.err.isSome = false := by
              rw [represents.noErr]
              rfl
            have notDone : after.rstack ≠ [] := by
              rw [tasks]
              exact List.cons_ne_nil _ _
            have moved := represents.moved inside short
            simp only [Option.bind_eq_bind, Option.bind_some, going,
              Bool.false_eq_true, if_false, discarded, notDone]
            have left : ({ after with buf, pos } : RedisReader).cursor =
                after.cursor := same
            refine .waits ?_ ?_ (moved.between waits)
            · rw [left]
              exact steps
            · rw [left]
              exact waits
        | failed steps failed given =>
            have stopped : after.err.isSome = true := by
              rw [given.err]
              rfl
            simp only [Option.bind_eq_bind, Option.bind_some, stopped, if_true]
            exact .failed steps failed given
    | outside goes => exact .outside goes

/-! ### A run -/

/-- The reader after the callbacks of everything that is complete.  No object
but those of an unfinished reply is left. -/
inductive Holds (cursor : ReplyCursor) (left : ByteString) :
    RedisReader → Prop where
  | going {old : ReplyHeap} {reader : RedisReader} :
      (∀ cell ∈ old, cell = none) → Between old cursor reader →
      reader.cursor = left → ReplyCursor.step cursor left = none →
      Holds cursor left reader
  | failed {err : RedisError} {reader : RedisReader} :
      cursor.failure = some (.error err) → reader.err = some err →
      reader.reply = none → (∀ cell ∈ reader.heap, cell = none) →
      Holds cursor left reader

theorem all_none_append_replicate
    {old : ReplyHeap} (empty : ∀ cell ∈ old, cell = none) (count : Nat) :
    ∀ cell ∈ old ++ List.replicate count none, cell = none := by
  intro cell listed
  rcases List.mem_append.mp listed with before | freed
  · exact empty cell before
  · exact List.eq_of_mem_replicate freed

/-- Reply after reply is read by its callback and freed. -/
theorem settles_drainReplies
    {fuel : Nat} {old : ReplyHeap} {cursor : ReplyCursor}
    {reader : RedisReader} (empty : ∀ cell ∈ old, cell = none)
    (between : Between old cursor reader)
    (enough : reader.cursor.length < fuel) :
    ∃ replies after left,
      Transducer.Settles ReplyCursor.step cursor reader.cursor replies after
          left ∧
        (after.failure ≠ some .outside →
          ∃ next, drainReplies fuel reader = some (replies, next) ∧
            Holds after left next) := by
  induction fuel generalizing old cursor reader with
  | zero => exact (Nat.not_lt_zero _ enough).elim
  | succ fuel induction =>
      have outcome := outcome_redisReaderGetReply between
      rw [drainReplies]
      generalize reader.redisReaderGetReply = result at outcome
      cases outcome with
      | waits steps waits between =>
          refine ⟨_, _, _, steps.settles (.wait waits), fun _ => ?_⟩
          exact ⟨_, rfl, .going empty between rfl waits⟩
      | @replied reply next steps shorter heap idle =>
          have cells : (reply.cells old.length).length ≤ next.heap.length := by
            rw [heap, List.length_append]
            omega
          have read := readReply_cells reply old []
            (by rw [← length_cells old.length]; exact cells :
              reply.size ≤ next.heap.length)
          have freed := frees_cells old.length reply old [] next.heap.length rfl
            cells
          rw [List.append_nil, ← heap] at read freed
          have one : freeReplyObject next.heap.length next.heap old.length =
              some (old ++ List.replicate reply.size none) := by
            simpa using freed
          have emptied := all_none_append_replicate empty reply.size
          obtain ⟨replies, after, left, settles, run⟩ :=
            induction emptied (idle _) (by
              change next.cursor.length < fuel
              omega)
          refine ⟨_, _, _, steps.settles settles, fun inside => ?_⟩
          obtain ⟨final, drained, holds⟩ := run inside
          refine ⟨final, ?_, holds⟩
          simp only [Option.bind_eq_bind, Option.bind_some, read, one, drained,
            List.singleton_append]
      | @failed after left err next steps failed given =>
          have stopped := steps.settles
            (.wait (ReplyCursor.step_of_failure failed left))
          refine ⟨_, _, _, stopped, fun _ => ⟨next, rfl, ?_⟩⟩
          obtain ⟨count, heap⟩ := given.heap
          refine .failed failed given.err given.reply ?_
          rw [heap]
          exact all_none_append_replicate empty count
      | outside goes =>
          obtain ⟨after, left, steps, failed⟩ := goes
          have stopped := steps.settles
            (.wait (ReplyCursor.step_of_failure failed left))
          exact ⟨_, _, _, stopped, fun inside => (inside failed).elim⟩

theorem Between.feed
    {old : ReplyHeap} {cursor : ReplyCursor} {reader : RedisReader}
    (between : Between old cursor reader) {chunk : ByteString}
    (room : reader.HasRoom chunk) :
    reader.redisReaderFeed chunk =
        (true, { reader with buf := reader.buf ++ chunk }) ∧
      Between old cursor { reader with buf := reader.buf ++ chunk } ∧
      ({ reader with buf := reader.buf ++ chunk } : RedisReader).cursor =
        reader.cursor ++ chunk := by
  have noErr : reader.err = none := between.1.noErr
  have inside : reader.pos ≤ reader.buf.length := between.1.inside
  have longer : reader.pos ≤ (reader.buf ++ chunk).length := by
    rw [List.length_append]
    omega
  have short : (reader.buf ++ chunk).length ≤ intMax := by
    rw [List.length_append]
    exact room
  refine ⟨?_, ⟨between.1.moved longer short, between.2⟩, ?_⟩
  · simp [RedisReader.redisReaderFeed, noErr]
  · exact List.drop_append_of_le_length inside

theorem settles_receive
    {cursor : ReplyCursor} {left : ByteString} {reader : RedisReader}
    (holds : Holds cursor left reader) {chunk : ByteString}
    (room : reader.HasRoom chunk) :
    ∃ replies after rest,
      Transducer.Settles ReplyCursor.step cursor (left ++ chunk) replies after
          rest ∧
        (after.failure ≠ some .outside →
          ∃ next, receive reader chunk = some (replies, next) ∧
            Holds after rest next) := by
  cases holds with
  | going empty between same waits =>
      obtain ⟨fed, longer, input⟩ := between.feed room
      obtain ⟨replies, after, rest, settles, run⟩ :=
        settles_drainReplies empty longer (Nat.lt_succ_self _)
      rw [input, same] at settles
      refine ⟨replies, after, rest, settles, fun inside => ?_⟩
      obtain ⟨next, drained, holds⟩ := run inside
      exact ⟨next, by rw [receive, fed]; exact drained, holds⟩
  | @failed err _ failed stopped reply empty =>
      have waits := ReplyCursor.step_of_failure failed (left ++ chunk)
      refine ⟨[], cursor, left ++ chunk, .wait waits, fun _ => ⟨reader, ?_, ?_⟩⟩
      · simp [receive, RedisReader.redisReaderFeed, stopped, drainReplies,
          RedisReader.redisReaderGetReply]
      · exact .failed failed stopped reply empty

theorem feeds_of_failure
    {cursor : ReplyCursor} {failure : ReplyFailure}
    (failed : cursor.failure = some failure) (left : ByteString)
    (chunks : List ByteString) :
    Transducer.Feeds ReplyCursor.step cursor left chunks [] cursor
      (left ++ chunks.flatten) := by
  induction chunks generalizing left with
  | nil =>
      rw [List.flatten_nil, List.append_nil]
      exact .done
  | cons chunk chunks induction =>
      rw [List.flatten_cons, ← List.append_assoc]
      have waits := ReplyCursor.step_of_failure failed (left ++ chunk)
      exact .chunk (.wait waits) (induction (left ++ chunk))

theorem feeds_receiveAll
    {cursor : ReplyCursor} {left : ByteString} {reader : RedisReader}
    (holds : Holds cursor left reader) {chunks : List ByteString}
    (room : AllSteps readerAfter RedisReader.HasRoom reader chunks) :
    ∃ replies after rest,
      Transducer.Feeds ReplyCursor.step cursor left chunks replies after rest ∧
        (after.failure ≠ some .outside →
          ∃ next, receiveAll chunks reader = some (replies, next) ∧
            Holds after rest next) := by
  induction chunks generalizing cursor left reader with
  | nil => exact ⟨[], cursor, left, .done, fun _ => ⟨reader, rfl, holds⟩⟩
  | cons chunk chunks induction =>
      obtain ⟨replies, middle, between, settles, run⟩ :=
        settles_receive holds room.1
      by_cases outside : middle.failure = some .outside
      · have stopped := feeds_of_failure outside between chunks
        exact ⟨_, _, _, .chunk settles stopped,
          fun inside => (inside outside).elim⟩
      · obtain ⟨next, received, holdsNext⟩ := run outside
        have reached : readerAfter reader chunk = some next := by
          rw [readerAfter, received, Option.map_some]
        obtain ⟨later, after, rest, feeds, runLater⟩ :=
          induction holdsNext (room.2 next reached)
        refine ⟨_, _, _, .chunk settles feeds, fun inside => ?_⟩
        obtain ⟨final, receivedLater, holdsFinal⟩ := runLater inside
        refine ⟨final, ?_, holdsFinal⟩
        simp only [receiveAll, received, receivedLater, Option.bind_eq_bind,
          Option.bind_some]

theorem holds_create {heap : ReplyHeap} (empty : ∀ cell ∈ heap, cell = none) :
    Holds (ReplyCursor.inside []) [] (RedisReader.create heap) :=
  .going empty (between_create heap) rfl rfl

theorem Holds.err
    {cursor : ReplyCursor} {left : ByteString} {reader : RedisReader}
    (holds : Holds cursor left reader) :
    cursor.failure = reader.err.map .error := by
  cases holds with
  | going _ between _ _ =>
      rw [between.1.going, show reader.err = none from between.1.noErr]
      rfl
  | failed failed stopped _ _ =>
      rw [failed, stopped]
      rfl

/-- Nothing is left of a reply that has not been completed. -/
theorem Holds.redisReaderFree
    {cursor : ReplyCursor} {left : ByteString} {reader : RedisReader}
    (holds : Holds cursor left reader) :
    ∃ heap, reader.redisReaderFree = some heap ∧
      ∀ cell ∈ heap, cell = none := by
  cases holds with
  | failed _ _ reply empty =>
      refine ⟨reader.heap, ?_, empty⟩
      simp [RedisReader.redisReaderFree, RedisReader.freeReply, reply]
  | going empty between _ _ =>
      obtain ⟨count, freed⟩ := between.1.freeReply
      exact ⟨_, freed, all_none_append_replicate empty count⟩

/-- What the recursive parser reads from the whole stream is what the callbacks
see of it, chunk by chunk. -/
theorem receiveAll_of_settles
    {chunks : List ByteString}
    (room : AllSteps readerAfter RedisReader.HasRoom (.create []) chunks)
    {replies : List Reply}
    {failure : Option ReplyFailure} {left : ByteString}
    (settles : Transducer.Settles (reply maxLevels).transducer none
      chunks.flatten replies failure left)
    (inside : failure ≠ some .outside) :
    ∃ reader heap,
      receiveAll chunks (.create []) = some (replies, reader) ∧
        reader.err.map ReplyFailure.error = failure ∧
        reader.redisReaderFree = some heap ∧ ∀ cell ∈ heap, cell = none := by
  have start := holds_create (by simp : ∀ cell ∈ ([] : ReplyHeap), cell = none)
  obtain ⟨received, after, rest, feeds, run⟩ := feeds_receiveAll start room
  obtain ⟨cursor, other, followed, failed⟩ :=
    ReplyCursor.settles_of_transducer settles
  have fed := feeds.settles ReplyCursor.stable_step rfl
  rw [List.nil_append] at fed
  obtain ⟨sameReplies, sameCursor, _⟩ := fed.unique followed
  rw [← sameCursor] at failed
  rw [← failed] at inside
  obtain ⟨reader, ran, holds⟩ := run inside
  obtain ⟨heap, freed, empty⟩ := holds.redisReaderFree
  refine ⟨reader, heap, ?_, ?_, freed, empty⟩
  · rw [ran, sameReplies]
  · rw [← failed, holds.err]

/-- How a stream is cut makes no difference: the callbacks see the replies that
the recursive parser reads from the whole of it, the connection has the error
that the parser ends with, and giving up the reader frees every object that is
left. -/
theorem receiveAll_eq_values
    {chunks : List ByteString}
    (room : AllSteps readerAfter RedisReader.HasRoom (.create []) chunks)
    (inside : ((reply maxLevels).values chunks.flatten).2 ≠ some .outside) :
    ∃ reader heap,
      receiveAll chunks (.create []) =
          some (((reply maxLevels).values chunks.flatten).1, reader) ∧
        reader.err.map ReplyFailure.error =
          ((reply maxLevels).values chunks.flatten).2 ∧
        reader.redisReaderFree = some heap ∧ ∀ cell ∈ heap, cell = none := by
  obtain ⟨left, settles⟩ := Parser.settles_values
    (leaves_and_progresses_reply maxLevels).2 chunks.flatten
  exact receiveAll_of_settles room settles inside

/-- The cuts are inside of a length and between the two bytes of a line end. -/
theorem receiveAll_eq_values_cut :
    ∃ reader heap,
      receiveAll
          [ascii "*2\r\n:7\r\n$", ascii "2\r\nok\r", ascii "\n+ok\r\n"]
          (.create []) =
        some
          (((reply maxLevels).values
            (ascii "*2\r\n:7\r\n$2\r\nok\r\n+ok\r\n")).1, reader) ∧
      reader.err.map ReplyFailure.error =
        ((reply maxLevels).values
          (ascii "*2\r\n:7\r\n$2\r\nok\r\n+ok\r\n")).2 ∧
      reader.redisReaderFree = some heap ∧ ∀ cell ∈ heap, cell = none :=
  @receiveAll_eq_values
    [ascii "*2\r\n:7\r\n$", ascii "2\r\nok\r", ascii "\n+ok\r\n"]
    (by decide +kernel) (by decide +kernel)

/-- What a server has written is received reply by reply, each of them as soon
as its last byte is there. -/
theorem receiveAll_arrived
    {replies : List Reply}
    (sendable : ∀ reply ∈ replies, Sendable maxLevels reply)
    {chunks : List ByteString}
    (room : AllSteps readerAfter RedisReader.HasRoom (.create []) chunks)
    (isPrefix : chunks.flatten <+: Reply.encodeAll replies) :
    ∃ reader,
      receiveAll chunks (.create []) =
          some (arrived Reply.encode replies chunks.flatten.length, reader) ∧
        reader.err = none := by
  rw [encodeAll_eq_stream] at isPrefix
  have settles := (reads_reply maxLevels).settles_arrived
    (stable_reply maxLevels) rfl sendable isPrefix
  obtain ⟨reader, _, ran, noErr, _⟩ :=
    receiveAll_of_settles room settles (by simp)
  exact ⟨reader, ran, Option.map_eq_none_iff.mp noErr⟩

/-- Of two replies, the second one is not yet complete. -/
theorem receiveAll_arrived_first :
    ∃ reader,
      receiveAll [ascii ":7", ascii "\r\n+o"] (.create []) =
          some (arrived Reply.encode [.integer 7, .status (ascii "ok")] 6,
            reader) ∧
        reader.err = none :=
  receiveAll_arrived
    (by
      intro reply listed
      rcases List.mem_pair.mp listed with rfl | rfl
      · exact .integer (by decide)
      · exact .status (by decide))
    (by decide +kernel) (by decide +kernel)

/-- Arrays that are nested too deeply for the stack end the connection, behind
the replies before them. -/
theorem receiveAll_nestingError
    {replies : List Reply}
    (sendable : ∀ reply ∈ replies, Sendable maxLevels reply)
    {levels : Nat} {deep : Reply} (deepSendable : Sendable levels deep)
    (tooDeep : ¬ Sendable maxLevels deep)
    {chunks : List ByteString}
    (room : AllSteps readerAfter RedisReader.HasRoom (.create []) chunks)
    {rest : ByteString}
    (sent : chunks.flatten =
      Reply.encodeAll replies ++ (deep.encode ++ rest)) :
    ∃ reader,
      receiveAll chunks (.create []) = some (replies, reader) ∧
        reader.err = some nestingError := by
  have fails := reply_nestingError deepSendable tooDeep rest
  have settles := (reads_reply maxLevels).settles_failure sendable fails
  rw [← encodeAll_eq_stream, ← sent] at settles
  obtain ⟨reader, _, ran, stopped, _⟩ :=
    receiveAll_of_settles room settles (by simp)
  refine ⟨reader, ran, ?_⟩
  obtain ⟨err, found, same⟩ := Option.map_eq_some_iff.mp stopped
  cases same
  exact found

/-- An empty array inside of as many others. -/
def nested : Nat → Reply
  | 0 => .array []
  | levels + 1 => .array [nested levels]

theorem sendable_nested (levels : Nat) :
    Sendable (levels + 1) (nested levels) := by
  induction levels with
  | zero => exact .array (Nat.zero_le _) (by simp)
  | succ levels induction =>
      apply Sendable.array (by simp [intMax])
      intro reply listed
      rw [List.mem_singleton.mp listed]
      exact induction

theorem not_sendable_nested (levels : Nat) :
    ¬ Sendable levels (nested levels) := by
  induction levels with
  | zero =>
      intro sendable
      cases sendable
  | succ levels induction =>
      intro sendable
      cases sendable with
      | array _ inside => exact induction (inside _ List.mem_cons_self)

/-- Nine arrays inside each other. -/
theorem receiveAll_nestingError_nine :
    ∃ reader,
      receiveAll
          [ascii ":7\r\n*1\r\n*1\r\n*1\r\n*1\r\n*1\r",
            ascii "\n*1\r\n*1\r\n*1\r\n*0\r\n+ok\r\n"] (.create []) =
          some ([.integer 7], reader) ∧
        reader.err = some nestingError :=
  @receiveAll_nestingError [.integer 7]
    (by
      intro reply listed
      rw [List.mem_singleton.mp listed]
      exact .integer (by decide))
    9 (nested 8) (sendable_nested 8) (not_sendable_nested 8) _
    (by decide +kernel) (ascii "+ok\r\n") (by decide +kernel)

end Hiredis

end DBWrapper
