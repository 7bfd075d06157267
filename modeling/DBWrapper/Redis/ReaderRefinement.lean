import DBWrapper.Redis.ReplyObjects

/-!
# The reader and the cursor

The reader of hiredis is in a state that represents a cursor: its stack has a
task for the next item and one for every array around it, and the heap holds
these arrays with their complete elements, behind whatever was there before.

Each item that the reader processes is one or two steps of the cursor, and the
object of the item is stored where the cursor has it.
-/

namespace DBWrapper

open Foundation

namespace Hiredis

/-! ### Tasks -/

/-- The index of the next item in the innermost array. -/
def nextIdx : List Frame → Int
  | [] => -1
  | frame :: _ => frame.done.length

/-- The tasks of the arrays around an item. -/
def arrayTasks (base : Pointer) : List Frame → List RedisReadTask
  | [] => []
  | frame :: frames =>
      { type := some .array
        elements := frame.elements
        idx := nextIdx frames
        obj := some (base + openSize frames) } :: arrayTasks base frames

/-- The task of the next item has an `obj` that is left over from an earlier
one. -/
def Tasks (base : Pointer) (frames : List Frame) (type : Option ReplyType)
    (rstack : List RedisReadTask) : Prop :=
  ∃ obj, rstack =
    { type, elements := -1, idx := nextIdx frames, obj } ::
      arrayTasks base frames

/-- There is a place on the stack for each array, an element is missing in each
of them, and the number of elements is an `int`. -/
structure Proper (frames : List Frame) : Prop where
  levels : frames.length ≤ maxLevels
  missing : ∀ frame ∈ frames, frame.done.length < frame.elements
  counts : ∀ frame ∈ frames, frame.elements ≤ intMax

theorem length_arrayTasks (base : Pointer) (frames : List Frame) :
    (arrayTasks base frames).length = frames.length := by
  induction frames with
  | nil => rfl
  | cons frame frames induction =>
      rw [arrayTasks, List.length_cons, List.length_cons, induction]

theorem proper_nil : Proper [] where
  levels := Nat.zero_le _
  missing := by simp
  counts := by simp

theorem Proper.tail
    {frame : Frame} {frames : List Frame} (proper : Proper (frame :: frames)) :
    Proper frames where
  levels := (Nat.le_succ _).trans proper.levels
  missing := fun other listed =>
    proper.missing other (List.mem_cons_of_mem _ listed)
  counts := fun other listed =>
    proper.counts other (List.mem_cons_of_mem _ listed)

theorem Proper.cons
    {frame : Frame} {frames : List Frame} (proper : Proper frames)
    (room : frames.length < maxLevels)
    (missing : frame.done.length < frame.elements)
    (count : frame.elements ≤ intMax) : Proper (frame :: frames) where
  levels := room
  missing := by
    intro other listed
    rcases List.mem_cons.mp listed with rfl | inside
    · exact missing
    · exact proper.missing other inside
  counts := by
    intro other listed
    rcases List.mem_cons.mp listed with rfl | inside
    · exact count
    · exact proper.counts other inside

theorem Proper.complete
    {frames : List Frame} (proper : Proper frames) (reply : Reply) :
    Proper (complete frames reply).1 := by
  induction frames generalizing reply with
  | nil => exact proper_nil
  | cons frame frames induction =>
      by_cases last : frame.done.length + 1 = frame.elements
      · rw [Hiredis.complete, if_pos last]
        exact induction proper.tail _
      · rw [Hiredis.complete, if_neg last]
        have missing := proper.missing frame List.mem_cons_self
        apply proper.tail.cons proper.levels
        · change (frame.done ++ [reply]).length < frame.elements
          rw [List.length_append, List.length_singleton]
          omega
        · exact proper.counts frame List.mem_cons_self

/-- A reply comes out exactly when no array is left. -/
theorem complete_fst_eq_nil_iff (frames : List Frame) (reply : Reply) :
    (complete frames reply).1 = [] ↔ (complete frames reply).2 ≠ none := by
  induction frames generalizing reply with
  | nil => simp [complete]
  | cons frame frames induction =>
      by_cases last : frame.done.length + 1 = frame.elements
      · rw [complete, if_pos last]
        exact induction _
      · rw [complete, if_neg last]
        simp

/-- Leaving complete arrays on the stack is what it is in the cursor. -/
theorem moveToNextTask_arrayTasks
    {frames : List Frame} (proper : Proper frames) (base : Pointer)
    (reply : Reply) {cur : RedisReadTask} (idx : cur.idx = nextIdx frames) :
    ∃ rstack, moveToNextTask (cur :: arrayTasks base frames) = some rstack ∧
      match (complete frames reply).2 with
      | some _ => rstack = []
      | none => Tasks base (complete frames reply).1 none rstack := by
  induction frames generalizing cur reply with
  | nil => exact ⟨[], rfl, rfl⟩
  | cons frame frames induction =>
      have missing := proper.missing frame List.mem_cons_self
      by_cases last : frame.done.length + 1 = frame.elements
      · have atLast : cur.idx = (frame.elements : Int) - 1 := by
          rw [idx, nextIdx]
          omega
        rw [complete, if_pos last]
        simp only [arrayTasks, moveToNextTask, atLast, ne_eq, not_true,
          if_false, if_true]
        exact induction proper.tail _ rfl
      · have notLast : cur.idx ≠ (frame.elements : Int) - 1 := by
          rw [idx, nextIdx]
          omega
        have before : cur.idx < (frame.elements : Int) := by
          rw [idx, nextIdx]
          omega
        rw [complete, if_neg last]
        simp only [arrayTasks, moveToNextTask, notLast, before, ne_eq, not_true,
          if_false, if_true]
        refine ⟨_, rfl, cur.obj, ?_⟩
        simp [arrayTasks, nextIdx, idx]

/-! ### Objects -/

/-- The object of an item is stored in the innermost array. -/
theorem storeObject_arrayTasks
    {frames : List Frame} (proper : Proper frames) (old : ReplyHeap)
    {cur : RedisReadTask} (idx : cur.idx = nextIdx frames)
    (object : RedisReply) :
    storeObject (old ++ openCells old.length [] frames)
        (cur :: arrayTasks old.length frames) object =
      some
        (old ++ (openCells old.length [old.length + openSize frames] frames ++
          [some object]),
          old.length + openSize frames) := by
  cases frames with
  | nil => simp [storeObject, arrayTasks, openCells, openSize]
  | cons frame frames =>
      let address := old.length + openSize frames
      let pointers := addresses (address + 1) frame.done
      have missing := proper.missing frame List.mem_cons_self
      have here : (old ++ openCells old.length [address] frames).length =
          address := by
        rw [List.length_append, length_openCells]
      have size : (old ++ openCells old.length [] (frame :: frames)).length =
          old.length + openSize (frame :: frames) := by
        rw [List.length_append, length_openCells]
      have count : pointers.length = frame.done.length :=
        length_addresses _ _
      have stored := setElement_arrayObject
        (by rw [count]; exact missing : pointers.length < frame.elements)
        (old.length + openSize (frame :: frames))
      rw [count] at stored
      have found := object?_append_cons
        (old ++ openCells old.length [address] frames)
        (Reply.cellsAll (address + 1) frame.done ++ [some object])
        (arrayObject frame.elements pointers)
      rw [here] at found
      have replaced := set_append_cons
        (old ++ openCells old.length [address] frames)
        (Reply.cellsAll (address + 1) frame.done ++ [some object])
        (some (arrayObject frame.elements pointers))
        (some (arrayObject frame.elements
          (pointers ++ [old.length + openSize (frame :: frames)])))
      rw [here] at replaced
      have shape : old ++ openCells old.length [] (frame :: frames) ++
          [some object] =
        old ++ openCells old.length [address] frames ++
          some (arrayObject frame.elements pointers) ::
            (Reply.cellsAll (address + 1) frame.done ++ [some object]) := by
        simp [openCells, address, pointers]
      have atIdx : cur.idx = (frame.done.length : Int) := idx
      simp only [storeObject, arrayTasks, size, shape, Option.bind_eq_bind,
        Option.bind_some]
      rw [show old.length + openSize frames = address from rfl, found]
      simp only [Option.bind_some, type_arrayObject, if_true, atIdx, stored,
        replaced]
      simp [openCells, address, pointers]

/-! ### States -/

/-- The reader is in the middle of a reply, and can count the bytes of its
buffer. -/
structure Represents (old : ReplyHeap) (cursor : ReplyCursor)
    (reader : RedisReader) : Prop where
  going : cursor.failure = none
  noErr : reader.err = none
  inside : reader.pos ≤ reader.buf.length
  short : reader.buf.length ≤ intMax
  proper : Proper cursor.frames
  tasks : Tasks old.length cursor.frames cursor.type reader.rstack
  heap : reader.heap = old ++ openCells old.length [] cursor.frames
  reply : reader.reply = if cursor.frames = [] then none else some old.length

/-- The reader has just completed a reply. -/
structure Delivers (old : ReplyHeap) (reply : Reply) (reader : RedisReader) :
    Prop where
  noErr : reader.err = none
  inside : reader.pos ≤ reader.buf.length
  short : reader.buf.length ≤ intMax
  rstack : reader.rstack = []
  heap : reader.heap = old ++ reply.cells old.length
  reply : reader.reply = some old.length

/-- The reader has given up, and nothing of the reply is left. -/
structure Failed (old : ReplyHeap) (err : RedisError) (reader : RedisReader) :
    Prop where
  err : reader.err = some err
  rstack : reader.rstack = []
  heap : ∃ count, reader.heap = old ++ List.replicate count none
  reply : reader.reply = none

/-- The reader behind an item. -/
def Reaches (old : ReplyHeap) (place : ReplyCursor × Option Reply)
    (reader : RedisReader) : Prop :=
  match place.2 with
  | none => Represents old place.1 reader
  | some reply =>
      place.1 = ReplyCursor.inside [] ∧ Delivers old reply reader

/-- The loop ends, with a reader that waits or has given up. -/
inductive Halts (old : ReplyHeap) (cursor : ReplyCursor) (input : ByteString) :
    RedisReader → Prop where
  | waits {after : ReplyCursor} {reader : RedisReader} :
      Transducer.Steps ReplyCursor.step cursor input [] after reader.cursor →
      ReplyCursor.step after reader.cursor = none →
      Represents old after reader → Halts old cursor input reader
  | failed {after : ReplyCursor} {left : ByteString} {err : RedisError}
      {reader : RedisReader} :
      Transducer.Steps ReplyCursor.step cursor input [] after left →
      after.failure = some (.error err) →
      Failed old err reader → Halts old cursor input reader

/-- The cursor comes to a number or length that the reader does not
support. -/
def GoesOutside (cursor : ReplyCursor) (input : ByteString) : Prop :=
  ∃ after left,
    Transducer.Steps ReplyCursor.step cursor input [] after left ∧
      after.failure = some .outside

/-- What may become of an item. -/
inductive ItemOutcome (old : ReplyHeap) (cursor : ReplyCursor)
    (input : ByteString) : Option (Bool × RedisReader) → Prop where
  | goes {place : ReplyCursor × Option Reply} {reader : RedisReader} :
      Transducer.Steps ReplyCursor.step cursor input place.2.toList place.1
        reader.cursor →
      Reaches old place reader → reader.cursor.length < input.length →
      ItemOutcome old cursor input (some (true, reader))
  | halts {reader : RedisReader} :
      Halts old cursor input reader →
      ItemOutcome old cursor input (some (false, reader))
  | outside {result : Option (Bool × RedisReader)} :
      GoesOutside cursor input → ItemOutcome old cursor input result

theorem Halts.after
    {old : ReplyHeap} {before cursor : ReplyCursor} {whole input : ByteString}
    {reader : RedisReader}
    (steps : Transducer.Steps ReplyCursor.step before whole [] cursor input)
    (halts : Halts old cursor input reader) : Halts old before whole reader := by
  cases halts with
  | waits later waits represents =>
      exact .waits (steps.trans later) waits represents
  | failed later failed given =>
      exact .failed (steps.trans later) failed given

theorem GoesOutside.after
    {before cursor : ReplyCursor} {whole input : ByteString}
    (steps : Transducer.Steps ReplyCursor.step before whole [] cursor input)
    (goes : GoesOutside cursor input) : GoesOutside before whole := by
  obtain ⟨after, left, later, failed⟩ := goes
  exact ⟨after, left, steps.trans later, failed⟩

theorem ItemOutcome.after
    {old : ReplyHeap} {before cursor : ReplyCursor} {whole input : ByteString}
    {result : Option (Bool × RedisReader)}
    (steps : Transducer.Steps ReplyCursor.step before whole [] cursor input)
    (shorter : input.length ≤ whole.length)
    (outcome : ItemOutcome old cursor input result) :
    ItemOutcome old before whole result := by
  cases outcome with
  | goes later reaches less =>
      exact .goes (steps.trans later) reaches (less.trans_le shorter)
  | halts halts => exact .halts (halts.after steps)
  | outside goes => exact .outside (goes.after steps)

namespace Represents

variable {old : ReplyHeap} {cursor : ReplyCursor} {reader : RedisReader}

theorem freeReply (represents : Represents old cursor reader) :
    ∃ count, reader.freeReply = some (old ++ List.replicate count none) := by
  by_cases atTop : cursor.frames = []
  · have reply := represents.reply
    rw [if_pos atTop] at reply
    have heap := represents.heap
    rw [atTop, openCells, List.append_nil] at heap
    exact ⟨0, by simp [RedisReader.freeReply, reply, heap]⟩
  · have reply := represents.reply
    rw [if_neg atTop] at reply
    have frees : Frees [old.length] old.length
        (openCells old.length [] cursor.frames) := by
      have all := frees_openCells (frees_nil (old.length + openSize cursor.frames))
      rw [List.append_nil] at all
      obtain ⟨frame, frames, shape⟩ := List.exists_cons_of_ne_nil atTop
      rw [shape] at all ⊢
      exact all
    have freed := frees old [] reader.heap.length rfl
      (by rw [represents.heap, List.length_append]; omega)
    simp only [List.append_nil, List.foldlM_cons, List.foldlM_nil,
      ← represents.heap] at freed
    exact ⟨_, by simpa [RedisReader.freeReply, reply] using freed⟩

theorem setError
    (represents : Represents old cursor reader) (err : RedisError) :
    ∃ failed, reader.setError err = some failed ∧ Failed old err failed := by
  obtain ⟨count, freed⟩ := represents.freeReply
  refine ⟨_, by rw [RedisReader.setError, freed]; rfl, ?_⟩
  exact ⟨rfl, rfl, ⟨count, rfl⟩, rfl⟩

/-- An item whose object is in its place. -/
theorem finishItem
    (represents : Represents old cursor reader) (reply : Reply) {pos : Nat}
    (inside : pos ≤ reader.buf.length) :
    ∃ next,
      { reader with pos }.finishItem
          (old ++ storedCells old.length cursor.frames reply)
          (old.length + openSize cursor.frames) = some next ∧
        next.buf = reader.buf ∧ next.pos = pos ∧
        Reaches old (ReplyCursor.finish cursor.frames reply) next := by
  obtain ⟨obj, tasks⟩ := represents.tasks
  have idx : (RedisReadTask.mk cursor.type (-1) (nextIdx cursor.frames)
      obj).idx = nextIdx cursor.frames := rfl
  obtain ⟨rstack, moved, place⟩ :=
    moveToNextTask_arrayTasks represents.proper old.length reply idx
  rw [← tasks] at moved
  have root : (if reader.rstack.length = 1 then
      some (old.length + openSize cursor.frames) else reader.reply) =
        some old.length := by
    rw [represents.reply, tasks, List.length_cons, length_arrayTasks]
    cases cursor.frames with
    | nil => rfl
    | cons frame frames => simp
  refine ⟨{ reader with
    pos
    heap := old ++ storedCells old.length cursor.frames reply
    reply := some old.length
    rstack }, ?_, rfl, rfl, ?_⟩
  · simp only [RedisReader.finishItem, moved, root, Option.bind_eq_bind,
      Option.bind_some]
  · have atEnd := complete_fst_eq_nil_iff cursor.frames reply
    have cells := storedCells_complete old.length cursor.frames reply
    simp only [Reaches, ReplyCursor.finish]
    cases output : (complete cursor.frames reply).2 with
    | none =>
        simp only [output] at place
        rw [output] at atEnd cells
        have notTop : (complete cursor.frames reply).1 ≠ [] := by
          simpa using atEnd
        exact
          { going := rfl
            noErr := represents.noErr
            inside
            short := represents.short
            proper := represents.proper.complete reply
            tasks := place
            heap := by
              rw [cells]
              simp [ReplyCursor.inside]
            reply := by simp [ReplyCursor.inside, notTop] }
    | some whole =>
        simp only [output] at place
        rw [output] at atEnd cells
        have atTop : (complete cursor.frames reply).1 = [] := by
          simpa using atEnd
        refine ⟨by rw [atTop], ?_⟩
        exact
          { noErr := represents.noErr
            inside
            short := represents.short
            rstack := place
            heap := by
              rw [cells, atTop]
              simp [openCells]
            reply := rfl }

/-- An item that takes `size` bytes and has a single object. -/
theorem completes
    (represents : Represents old cursor reader) {reply : Reply}
    {object : RedisReply} (cells : ∀ base, reply.cells base = [some object])
    {size : Nat} (inside : size ≤ reader.cursor.length) :
    ∃ stored next,
      storeObject reader.heap reader.rstack object = some stored ∧
        { reader with pos := reader.pos + size }.finishItem stored.1 stored.2 =
          some next ∧
        next.cursor = reader.cursor.drop size ∧
        Reaches old (ReplyCursor.finish cursor.frames reply) next := by
  obtain ⟨obj, tasks⟩ := represents.tasks
  have idx : (RedisReadTask.mk cursor.type (-1) (nextIdx cursor.frames)
      obj).idx = nextIdx cursor.frames := rfl
  have stored := storeObject_arrayTasks represents.proper old idx object
  rw [← represents.heap, ← tasks, ← cells (old.length + openSize cursor.frames)]
    at stored
  have inBuf : reader.pos + size ≤ reader.buf.length := by
    have atPos := represents.inside
    rw [RedisReader.cursor, List.length_drop] at inside
    omega
  obtain ⟨next, finished, buf, pos, reaches⟩ :=
    represents.finishItem reply inBuf
  refine ⟨_, next, stored, finished, ?_, reaches⟩
  rw [RedisReader.cursor, RedisReader.cursor, buf, pos, List.drop_drop]

theorem seekNewline_cursor (represents : Represents old cursor reader) :
    seekNewline reader.cursor = lineLength reader.cursor := by
  apply seekNewline_eq_lineLength
  have short := represents.short
  rw [RedisReader.cursor, List.length_drop]
  omega

theorem readLine (represents : Represents old cursor reader) :
    reader.readLine =
      some ((lineLength reader.cursor).map fun len =>
        (reader.cursor, len,
          { reader with pos := reader.pos + (len + 2) })) := by
  rw [RedisReader.readLine, represents.seekNewline_cursor]
  cases found : lineLength reader.cursor with
  | none => rfl
  | some len =>
      have fits := lineLength_le found
      have short := represents.short
      rw [RedisReader.cursor, List.length_drop] at fits
      simp only [if_neg (by omega : ¬ intMax < len + 2), Option.map_some]

end Represents

/-- What the reader makes of a line that starts here is what the line stands
for. -/
theorem readLongLong_line
    {input : ByteString} {len : Nat} (found : lineLength input = some len) :
    readLongLong (input.take len ++ crlf) = readLongLong input := by
  have whole := readLongLong_append (input.take len) (input.drop (len + 2))
  rw [lineLength_spec found] at whole
  exact whole.symm

/-- The reader does with an item what a parser makes of it. -/
def Agrees {Value : Type} (old : ReplyHeap) (reader : RedisReader)
    (next : Value → ReplyCursor × Option Reply)
    (result : Option (Bool × RedisReader)) :
    Parsed UInt8 ReplyFailure Value → Prop
  | .more => result = some (false, reader)
  | .done value rest =>
      rest.length < reader.cursor.length ∧
        ∃ after, result = some (true, after) ∧ after.cursor = rest ∧
          Reaches old (next value) after
  | .fail .outside => True
  | .fail (.error _) => False

theorem Agrees.outcome
    {Value : Type} {old : ReplyHeap} {cursor : ReplyCursor}
    {reader : RedisReader} {next : Value → ReplyCursor × Option Reply}
    {result : Option (Bool × RedisReader)}
    {parsed : Parsed UInt8 ReplyFailure Value}
    (agrees : Agrees old reader next result parsed)
    (represents : Represents old cursor reader)
    (advances : ReplyCursor.step cursor reader.cursor =
      cursor.advance reader.cursor parsed next) :
    ItemOutcome old cursor reader.cursor result := by
  cases parsed with
  | more =>
      rw [Agrees] at agrees
      rw [agrees]
      exact .halts (.waits .refl advances represents)
  | done value rest =>
      obtain ⟨shorter, after, ran, left, reaches⟩ := agrees
      subst left
      rw [ran]
      exact .goes (.single advances) reaches shorter
  | fail failure =>
      cases failure with
      | error err => exact agrees.elim
      | outside => exact .outside ⟨_, _, .single advances, rfl⟩

section Items

variable {old : ReplyHeap} {cursor : ReplyCursor} {reader : RedisReader}

theorem Represents.head_type (represents : Represents old cursor reader) :
    reader.rstack.head?.bind (·.type) = cursor.type := by
  obtain ⟨obj, tasks⟩ := represents.tasks
  rw [tasks]
  rfl

theorem createStringObject_eq
    {rstack : List RedisReadTask} {type : ReplyType}
    (head : rstack.head?.bind (·.type) = some type)
    (isText : type = .error ∨ type = .status ∨ type = .string)
    (heap : ReplyHeap) (str : ByteString) :
    createStringObject heap rstack str =
      storeObject heap rstack { createReplyObject type with str } := by
  obtain ⟨task, top, kind⟩ := Option.bind_eq_some_iff.mp head
  simp [createStringObject, top, kind, isText]

/-- The lines of both types become text. -/
theorem agrees_text
    (represents : Represents old cursor reader) {cur : RedisReadTask}
    {type : ReplyType} (kind : cursor.type = some type)
    (same : cur.type = some type) (isText : type = .error ∨ type = .status)
    {text : ByteString → Reply}
    (parses : ∀ input, scalar type input =
      (line input).bind fun str => .done (text str))
    (cells : ∀ str base, (text str).cells base =
      [some { createReplyObject type with str }]) :
    Agrees old reader (ReplyCursor.finish cursor.frames)
      (reader.processLineItem cur) (scalar type reader.cursor) := by
  rw [parses, line]
  cases found : lineLength reader.cursor with
  | none =>
      simp [Agrees, RedisReader.processLineItem, represents.readLine, found]
  | some len =>
      have fits := lineLength_le found
      have shorter : (reader.cursor.drop (len + 2)).length <
          reader.cursor.length := by
        rw [List.length_drop]
        omega
      obtain ⟨stored, next, store, finished, left, reaches⟩ :=
        represents.completes (cells (reader.cursor.take len)) fits
      have head := represents.head_type
      rw [kind] at head
      have created := createStringObject_eq head
        (isText.imp_right Or.inl) reader.heap (reader.cursor.take len)
      have notInteger : type ≠ .integer := by
        rcases isText with rfl | rfl <;> simp
      refine ⟨shorter, next, ?_, left, reaches⟩
      simp [RedisReader.processLineItem, represents.readLine, found, same,
        notInteger, created, store, finished]

theorem agrees_integer
    (represents : Represents old cursor reader) {cur : RedisReadTask}
    (same : cur.type = some .integer) :
    Agrees old reader (ReplyCursor.finish cursor.frames)
      (reader.processLineItem cur) (scalar .integer reader.cursor) := by
  simp only [scalar, number, line]
  cases found : lineLength reader.cursor with
  | none =>
      simp [Agrees, RedisReader.processLineItem, represents.readLine, found]
  | some len =>
      have value := readLongLong_line found
      simp only [Parsed.bind_done, numberOf, value]
      cases read : readLongLong reader.cursor with
      | none => trivial
      | some integer =>
          have fits := lineLength_le found
          have shorter : (reader.cursor.drop (len + 2)).length <
              reader.cursor.length := by
            rw [List.length_drop]
            omega
          have cells : ∀ base, (Reply.integer integer).cells base =
              [some { createReplyObject .integer with integer }] :=
            fun base => rfl
          obtain ⟨stored, next, store, finished, left, reaches⟩ :=
            represents.completes cells fits
          refine ⟨shorter, next, ?_, left, reaches⟩
          simp [RedisReader.processLineItem, represents.readLine, found,
            same, read, createIntegerObject, store, finished]

/-- The length, the bytes and two more are there or are waited for. -/
theorem agrees_processBulkItem
    (represents : Represents old cursor reader)
    (kind : cursor.type = some .string) :
    Agrees old reader (ReplyCursor.finish cursor.frames)
      reader.processBulkItem (scalar .string reader.cursor) := by
  simp only [scalar, number, line]
  have seek := represents.seekNewline_cursor
  cases found : lineLength reader.cursor with
  | none =>
      rw [found] at seek
      simp [Agrees, RedisReader.processBulkItem, seek]
  | some s =>
      rw [found] at seek
      have value := readLongLong_line found
      simp only [Parsed.bind_done, numberOf, value]
      cases read : readLongLong reader.cursor with
      | none => trivial
      | some len =>
          have fits := lineLength_le found
          simp only [Parsed.bind_done, bulkOf]
          by_cases isNil : len < 0
          · rw [if_pos isNil]
            have cells : ∀ base, Reply.nil.cells base =
                [some (createReplyObject .nil)] := fun base => rfl
            obtain ⟨stored, next, store, finished, left, reaches⟩ :=
              represents.completes cells fits
            refine ⟨?_, next, ?_, left, reaches⟩
            · rw [List.length_drop]
              omega
            · simp [RedisReader.processBulkItem, seek, read, isNil,
                createNilObject, store, finished]
          · rw [if_neg isNil]
            by_cases unsupported : longLongMax < len.toNat + 2
            · rw [if_pos unsupported]
              trivial
            · rw [if_neg unsupported]
              have room : reader.pos + (s + 2 + (len.toNat + 2)) ≤
                  reader.len ↔
                    len.toNat + 2 ≤ (reader.cursor.drop (s + 2)).length := by
                have atPos := represents.inside
                rw [RedisReader.len]
                rw [RedisReader.cursor, List.length_drop] at fits
                rw [List.length_drop, RedisReader.cursor, List.length_drop]
                omega
              by_cases complete :
                  len.toNat + 2 ≤ (reader.cursor.drop (s + 2)).length
              · rw [if_pos complete]
                have enough : s + 2 + (len.toNat + 2) ≤
                    reader.cursor.length := by
                  rw [List.length_drop] at complete
                  omega
                have cells : ∀ base, (Reply.string
                    ((reader.cursor.drop (s + 2)).take len.toNat)).cells base =
                      [some { createReplyObject .string with
                        str := (reader.cursor.drop (s + 2)).take len.toNat }] :=
                  fun base => rfl
                obtain ⟨stored, next, store, finished, left, reaches⟩ :=
                  represents.completes cells enough
                have head := represents.head_type
                rw [kind] at head
                have created := createStringObject_eq head (by simp)
                  reader.heap ((reader.cursor.drop (s + 2)).take len.toNat)
                refine ⟨?_, next, ?_, ?_, reaches⟩
                · rw [List.drop_drop, List.length_drop]
                  omega
                · simp [RedisReader.processBulkItem, seek, read, isNil,
                    unsupported, room.mpr complete, created, store, finished]
                · rw [left, List.drop_drop]
              · rw [if_neg complete]
                have waits := mt room.mp complete
                simp [Agrees, RedisReader.processBulkItem, seek, read, isNil,
                  unsupported, waits]

/-- A header of a nonempty array makes its object the innermost one. -/
theorem Represents.opens
    (represents : Represents old cursor reader) {cur : RedisReadTask}
    {obj : Option Pointer}
    (tasks : reader.rstack = cur :: arrayTasks old.length cursor.frames)
    (same : cur = RedisReadTask.mk (some .array) (-1) (nextIdx cursor.frames)
      obj)
    (room : cursor.frames.length < maxLevels) {elements : Nat}
    (some_element : 0 < elements) (count : elements ≤ intMax) {size : Nat}
    (inside : size ≤ reader.cursor.length) :
    ∃ stored next,
      storeObject reader.heap reader.rstack
          { createReplyObject .array with
            elements
            element := List.replicate elements none } = some stored ∧
        next =
          { reader with
            pos := reader.pos + size
            heap := stored.1
            reply :=
              if reader.rstack.length = 1 then some stored.2 else reader.reply
            rstack := .new 0 ::
              { cur with elements := (elements : Int), obj := some stored.2 } ::
                reader.rstack.tail } ∧
        Represents old
          (ReplyCursor.inside ({ elements, done := [] } :: cursor.frames))
          next := by
  have idx : cur.idx = nextIdx cursor.frames := by rw [same]
  have stored := storeObject_arrayTasks represents.proper old idx
    { createReplyObject .array with
      elements
      element := List.replicate elements none }
  rw [← represents.heap, ← tasks] at stored
  refine ⟨_, _, stored, rfl, ?_⟩
  exact
    { going := rfl
      noErr := represents.noErr
      inside := by
        have atPos := represents.inside
        rw [RedisReader.cursor, List.length_drop] at inside
        change reader.pos + size ≤ reader.buf.length
        omega
      short := represents.short
      proper := represents.proper.cons room some_element count
      tasks := by
        refine ⟨none, ?_⟩
        rw [tasks, same]
        rfl
      heap := by
        simp [ReplyCursor.inside, openCells, arrayObject, addresses,
          Reply.cellsAll]
      reply := by
        simp only [ReplyCursor.inside, reduceCtorEq, if_false]
        rw [represents.reply, tasks, List.length_cons, length_arrayTasks]
        cases cursor.frames with
        | nil => rfl
        | cons frame frames => simp }

theorem agrees_processMultiBulkItem
    (represents : Represents old cursor reader) {cur : RedisReadTask}
    {obj : Option Pointer}
    (tasks : reader.rstack = cur :: arrayTasks old.length cursor.frames)
    (same : cur = RedisReadTask.mk (some .array) (-1) (nextIdx cursor.frames)
      obj)
    (room : cursor.frames.length < maxLevels) :
    Agrees old reader (ReplyCursor.enter cursor.frames)
      (reader.processMultiBulkItem cur) (arrayHeader reader.cursor) := by
  have notFull : reader.rstack.length ≠ 9 := by
    rw [tasks, List.length_cons, length_arrayTasks]
    rw [maxLevels] at room
    omega
  simp only [arrayHeader, number, line]
  cases found : lineLength reader.cursor with
  | none =>
      simp [Agrees, RedisReader.processMultiBulkItem, represents.readLine,
        found, notFull]
  | some len =>
      have value := readLongLong_line found
      simp only [Parsed.bind_done, numberOf, value]
      cases read : readLongLong reader.cursor with
      | none => trivial
      | some elements =>
          have fits := lineLength_le found
          have shorter : (reader.cursor.drop (len + 2)).length <
              reader.cursor.length := by
            rw [List.length_drop]
            omega
          simp only [Parsed.bind_done, arrayLength]
          by_cases isNil : elements = -1
          · rw [if_pos isNil]
            have cells : ∀ base, Reply.nil.cells base =
                [some (createReplyObject .nil)] := fun base => rfl
            obtain ⟨stored, next, store, finished, left, reaches⟩ :=
              represents.completes cells fits
            refine ⟨shorter, next, ?_, left, reaches⟩
            simp [RedisReader.processMultiBulkItem, represents.readLine,
              found, notFull, read, isNil, createNilObject, store, finished]
          · rw [if_neg isNil]
            by_cases unsupported : elements < 0 ∨ intMax < elements
            · rw [if_pos unsupported]
              trivial
            · rw [if_neg unsupported]
              obtain ⟨count, rfl⟩ : ∃ count : Nat, elements = count :=
                ⟨elements.toNat, by omega⟩
              have small : count ≤ intMax := by omega
              have same_int : toInt count = count := toInt_of_le small
              have same_size : toSizeT count = count := by
                rw [toSizeT]
                rw [intMax] at small
                omega
              rw [Int.toNat_natCast]
              cases count with
              | zero =>
                  have cells : ∀ base, (Reply.array []).cells base =
                      [some (createReplyObject .array)] := fun base => rfl
                  obtain ⟨stored, next, store, finished, left, reaches⟩ :=
                    represents.completes cells fits
                  refine ⟨shorter, next, ?_, left, reaches⟩
                  have object : ({ createReplyObject .array with
                      elements := 0, element := [] } : RedisReply) =
                        createReplyObject .array := rfl
                  simp only [Int.natCast_zero] at same_int same_size
                  simp [RedisReader.processMultiBulkItem, represents.readLine,
                    found, notFull, read, createArrayObject, same_int,
                    same_size, object, store, finished]
              | succ count =>
                  obtain ⟨stored, next, store, shape, reaches⟩ :=
                    represents.opens tasks same room (Nat.succ_pos count)
                      small fits
                  have left : next.cursor = reader.cursor.drop (len + 2) := by
                    rw [shape, RedisReader.cursor, RedisReader.cursor,
                      List.drop_drop]
                  refine ⟨shorter, next, ?_, left, reaches⟩
                  have positive : (0 : Int) < ((count + 1 : Nat) : Int) := by
                    omega
                  simp only [RedisReader.processMultiBulkItem,
                    represents.readLine, found, notFull, read, if_false,
                    Option.map_some, Option.bind_eq_bind, Option.bind_some,
                    isNil, createArrayObject, same_int, same_size, store,
                    Int.toNat_natCast, positive, if_true, shape]

/-- An item whose type has been read. -/
theorem outcome_processTypedItem
    (represents : Represents old cursor reader) {type : ReplyType}
    (kind : cursor.type = some type) {cur : RedisReadTask}
    (top : reader.rstack.head? = some cur) :
    ItemOutcome old cursor reader.cursor (reader.processTypedItem cur) := by
  obtain ⟨obj, tasks⟩ := represents.tasks
  have same : cur = RedisReadTask.mk (some type) (-1) (nextIdx cursor.frames)
      obj := by
    rw [tasks, List.head?_cons, Option.some.injEq, kind] at top
    exact top.symm
  have curType : cur.type = some type := by rw [same]
  have scalarStep : type ≠ .array →
      ReplyCursor.step cursor reader.cursor =
        cursor.advance reader.cursor (scalar type reader.cursor)
          (ReplyCursor.finish cursor.frames) := by
    intro notArray
    simp [ReplyCursor.step, represents.going, kind, notArray]
  cases type with
  | error =>
      have agrees := agrees_text represents kind curType (Or.inl rfl)
        (fun input => rfl : ∀ input, scalar .error input = _)
        (fun str base => rfl)
      simpa [RedisReader.processTypedItem, curType] using
        agrees.outcome represents (scalarStep (by simp))
  | status =>
      have agrees := agrees_text represents kind curType (Or.inr rfl)
        (fun input => rfl : ∀ input, scalar .status input = _)
        (fun str base => rfl)
      simpa [RedisReader.processTypedItem, curType] using
        agrees.outcome represents (scalarStep (by simp))
  | integer =>
      have agrees := agrees_integer represents curType
      simpa [RedisReader.processTypedItem, curType] using
        agrees.outcome represents (scalarStep (by simp))
  | string =>
      have agrees := agrees_processBulkItem represents kind
      simpa [RedisReader.processTypedItem, curType] using
        agrees.outcome represents (scalarStep (by simp))
  | nil =>
      have stepped := scalarStep (by simp)
      exact .outside ⟨_, _, .single stepped, rfl⟩
  | array =>
      simp only [RedisReader.processTypedItem, curType]
      by_cases full : cursor.frames.length = maxLevels
      · obtain ⟨failed, ran, given⟩ := represents.setError nestingError
        have nine : reader.rstack.length = 9 := by
          rw [tasks, List.length_cons, length_arrayTasks, full, maxLevels]
        have stepped : ReplyCursor.step cursor reader.cursor =
            some (cursor.fail (.error nestingError), reader.cursor, []) := by
          simp [ReplyCursor.step, represents.going, kind, full]
        have result : reader.processMultiBulkItem cur =
            some (false, failed) := by
          simp [RedisReader.processMultiBulkItem, nine, ran]
        rw [result]
        exact .halts (.failed (.single stepped) rfl given)
      · have room : cursor.frames.length < maxLevels := by
          have levels := represents.proper.levels
          omega
        have stack : reader.rstack =
            cur :: arrayTasks old.length cursor.frames := by
          rw [tasks, same, kind]
        have agrees :=
          agrees_processMultiBulkItem represents stack same room
        apply agrees.outcome represents
        simp [ReplyCursor.step, represents.going, kind, full]

/-- The type byte has been read. -/
theorem Represents.typed
    (represents : Represents old cursor reader) (type : Option ReplyType)
    {obj : Option Pointer} {pos : Nat} (inside : pos ≤ reader.buf.length) :
    Represents old { cursor with type }
      { reader with
        pos
        rstack := RedisReadTask.mk type (-1) (nextIdx cursor.frames) obj ::
          arrayTasks old.length cursor.frames } where
  going := represents.going
  noErr := represents.noErr
  inside := inside
  short := represents.short
  proper := represents.proper
  tasks := ⟨obj, rfl⟩
  heap := represents.heap
  reply := represents.reply

/-- One item is one step of the cursor, or two if its type has not been read. -/
theorem outcome_processItem (represents : Represents old cursor reader) :
    ItemOutcome old cursor reader.cursor reader.processItem := by
  obtain ⟨obj, tasks⟩ := represents.tasks
  cases kind : cursor.type with
  | some type =>
      have typed := outcome_processTypedItem represents kind
        (by rw [tasks, List.head?_cons])
      simpa only [RedisReader.processItem, tasks, kind, Option.isSome_some,
        if_true] using typed
  | none =>
      rw [kind] at tasks
      have unread : cursor = ReplyCursor.inside cursor.frames := by
        have going := represents.going
        cases cursor
        cases kind
        cases going
        rfl
      simp only [RedisReader.processItem, tasks, Option.isSome_none,
        Bool.false_eq_true, if_false]
      cases input : reader.cursor with
      | nil =>
          rw [← input]
          have waits : ReplyCursor.step cursor reader.cursor = none := by
            rw [input, unread]
            rfl
          have halts := Halts.waits .refl waits represents
          simpa only [input] using ItemOutcome.halts halts
      | cons byte rest =>
          have inside : reader.pos + 1 ≤ reader.buf.length := by
            have size := congrArg List.length input
            rw [RedisReader.cursor, List.length_drop, List.length_cons] at size
            omega
          simp only
          cases readType : replyType? byte with
          | none =>
              obtain ⟨failed, ran, given⟩ :=
                (@Represents.typed _ _ _ represents none obj _ inside).setError
                  (protocolByteError byte)
              have stepped : ReplyCursor.step cursor (byte :: rest) =
                  some (cursor.fail (.error (protocolByteError byte)),
                    byte :: rest, []) := by
                rw [unread]
                simp [ReplyCursor.step, ReplyCursor.inside, readType]
              simp only [ran, Option.bind_eq_bind, Option.bind_some]
              exact .halts (.failed (.single stepped) rfl given)
          | some type =>
              have typed :=
                @Represents.typed _ _ _ represents (some type) obj _ inside
              have outcome := outcome_processTypedItem typed rfl rfl
              have left : reader.buf.drop (reader.pos + 1) = rest := by
                rw [← List.drop_drop]
                change reader.cursor.drop 1 = rest
                rw [input, List.drop_one, List.tail_cons]
              have steps :=
                ReplyCursor.steps_typeByte readType cursor.frames rest
              rw [← unread] at steps
              rw [RedisReader.cursor, left] at outcome
              have later : { cursor with type := some type } =
                  ReplyCursor.inItem cursor.frames type := by
                rw [unread]
                rfl
              rw [later] at outcome
              apply outcome.after steps
              simp

/-! ### Whole replies -/

/-- What may become of the loop. -/
inductive LoopOutcome (old : ReplyHeap) (cursor : ReplyCursor)
    (input : ByteString) : Option RedisReader → Prop where
  | replied {reply : Reply} {reader : RedisReader} :
      Transducer.Steps ReplyCursor.step cursor input [reply]
        (ReplyCursor.inside []) reader.cursor →
      Delivers old reply reader → reader.cursor.length < input.length →
      LoopOutcome old cursor input (some reader)
  | halts {reader : RedisReader} :
      Halts old cursor input reader →
      LoopOutcome old cursor input (some reader)
  | outside {result : Option RedisReader} :
      GoesOutside cursor input → LoopOutcome old cursor input result

/-- The loop takes one item after the other; each of them but the last one
takes a byte. -/
theorem outcome_processItems
    {fuel : Nat} (represents : Represents old cursor reader)
    (enough : reader.cursor.length < fuel) :
    LoopOutcome old cursor reader.cursor (RedisReader.processItems fuel reader)
    := by
  induction fuel generalizing cursor reader with
  | zero => exact (Nat.not_lt_zero _ enough).elim
  | succ fuel induction =>
      obtain ⟨obj, tasks⟩ := represents.tasks
      have notDone : reader.rstack ≠ [] := by
        rw [tasks]
        exact List.cons_ne_nil _ _
      rw [RedisReader.processItems, if_neg notDone]
      have item := outcome_processItem represents
      generalize reader.processItem = result at item
      cases item with
      | @goes place next steps reaches shorter =>
          simp only
          rw [Reaches] at reaches
          cases output : place.2 with
          | none =>
              simp only [output] at reaches
              rw [output, Option.toList_none] at steps
              have later := induction reaches (by omega)
              generalize RedisReader.processItems fuel next = final at later
              cases later with
              | replied rest delivers less =>
                  exact .replied (steps.trans rest) delivers
                    (less.trans shorter)
              | halts halts => exact .halts (halts.after steps)
              | outside goes => exact .outside (goes.after steps)
          | some reply =>
              simp only [output] at reaches
              obtain ⟨atTop, delivers⟩ := reaches
              rw [output, Option.toList_some, atTop] at steps
              cases fuel with
              | zero => omega
              | succ fuel =>
                  rw [RedisReader.processItems, if_pos delivers.rstack]
                  exact .replied steps delivers shorter
      | halts halts => exact .halts halts
      | outside goes => exact .outside goes

end Items

end Hiredis

end DBWrapper
