import DBWrapper.Redis.FormatCommand

/-!
# The reply reader of hiredis

The bytes that arrive on a connection are appended to the buffer of a
`redisReader`, and `redisReaderGetReply` takes one reply off the buffer if a
whole one is there.  The reader keeps its place in the middle of a reply: a
stack of tasks says which element of which array comes next.

The objects of the replies are made by the default reply functions.  Every
object but the outermost one is written into the array that it is an element
of; addresses are positions in the heap, and a freed object leaves its position
empty.

`none` is undefined behaviour or a failed assertion.  Memory is never short.
-/

namespace DBWrapper

open Foundation

namespace Hiredis

/-! ### Reply objects -/

/-- `REDIS_REPLY_STRING` and so on. -/
inductive ReplyType where
  | string | array | integer | nil | status | error
  deriving DecidableEq, Repr

/-- `redisReply`.  The length of `str` is `len`; `element` has as many slots as
have been allocated, none for a null pointer. -/
structure RedisReply where
  type : ReplyType
  integer : Int
  str : ByteString
  elements : Nat
  element : List (Option Pointer)
  deriving DecidableEq, Repr

/-- The objects by their addresses; those that have been freed are gone. -/
abbrev ReplyHeap := List (Option RedisReply)

def ReplyHeap.object? (heap : ReplyHeap) (address : Pointer) :
    Option RedisReply :=
  heap[address]?.join

/-- `redisReadTask`.  `type` is `none` for `-1`. -/
structure RedisReadTask where
  type : Option ReplyType
  elements : Int
  idx : Int
  obj : Option Pointer
  deriving DecidableEq, Repr

/-- A task before its type has been read. -/
def RedisReadTask.new (idx : Int) : RedisReadTask :=
  { type := none, elements := -1, idx, obj := none }

/-- `calloc` sets everything else to zero. -/
def createReplyObject (type : ReplyType) : RedisReply :=
  { type, integer := 0, str := [], elements := 0, element := [] }

/-- `parent->element[idx] = r`. -/
def RedisReply.setElement (parent : RedisReply) (idx : Int) (r : Pointer) :
    Option RedisReply :=
  if 0 ≤ idx ∧ idx < parent.element.length then
    some { parent with element := parent.element.set idx.toNat (some r) }
  else
    none

/-- The common end of the functions that create an object for the task on top
of the stack. -/
def storeObject (heap : ReplyHeap) (rstack : List RedisReadTask)
    (object : RedisReply) : Option (ReplyHeap × Pointer) :=
  let r := heap.length
  let heap := heap ++ [some object]
  match rstack with
  | task :: parentTask :: _ => do
      let address ← parentTask.obj
      let parent ← heap.object? address
      if parent.type = .array then
        let parent ← parent.setElement task.idx r
        some (heap.set address (some parent), r)
      else
        none
  | _ => some (heap, r)

/-- The type of the object is the one of the task. -/
def createStringObject (heap : ReplyHeap) (rstack : List RedisReadTask)
    (str : ByteString) : Option (ReplyHeap × Pointer) := do
  let task ← rstack.head?
  let type ← task.type
  if type = .error ∨ type = .status ∨ type = .string then
    storeObject heap rstack { createReplyObject type with str }
  else
    none

/-- The conversion to `size_t`. -/
def toSizeT (value : Int) : Nat :=
  (value % 18446744073709551616).toNat

def createArrayObject (heap : ReplyHeap) (rstack : List RedisReadTask)
    (elements : Int) : Option (ReplyHeap × Pointer) :=
  storeObject heap rstack
    { createReplyObject .array with
      elements := toSizeT elements
      element := List.replicate elements.toNat none }

def createIntegerObject (heap : ReplyHeap) (rstack : List RedisReadTask)
    (integer : Int) : Option (ReplyHeap × Pointer) :=
  storeObject heap rstack { createReplyObject .integer with integer }

def createNilObject (heap : ReplyHeap) (rstack : List RedisReadTask) :
    Option (ReplyHeap × Pointer) :=
  storeObject heap rstack (createReplyObject .nil)

/-- An object is freed behind its elements.  The depth of the recursion is
bounded by the number of objects. -/
def freeReplyObject : Nat → ReplyHeap → Pointer → Option ReplyHeap
  | 0, _, _ => none
  | fuel + 1, heap, address => do
      let r ← heap.object? address
      let heap ←
        if r.type = .array then
          (r.element.reduceOption).foldlM (freeReplyObject fuel) heap
        else
          some heap
      some (heap.set address none)

/-! ### Lines and numbers -/

def cr : UInt8 := 13

def lf : UInt8 := 10

/-- The loops of `seekNewline`, with `s` from `pos` on. -/
def seekNewlineFrom (len : Int) (pos : Nat) : ByteString → Option Nat
  | [] => none
  | byte :: s =>
      if (pos : Int) < len then
        if byte = cr ∧ s.head? = some lf then
          some pos
        else
          seekNewlineFrom len (pos + 1) s
      else
        none

/-- The loops end in front of the last byte, which they count in numbers of type
`int`: of more than 2 GiB they see a part, or nothing. -/
def seekNewline (s : ByteString) : Option Nat :=
  seekNewlineFrom (toInt (s.length - 1)) 0 s

def longLongMax : Nat := 9223372036854775807

/-- Why a number has no value: a byte of it is not a digit, or the value
overflows. -/
inductive NumberFailure where
  | unexpected | overflow
  deriving DecidableEq, Repr

/-- The loop over the digits, as far as the end of the line. -/
def readDigits (v : Nat) : ByteString → Except NumberFailure Nat
  | [] => .error .overflow
  | c :: s =>
      if c = cr then
        .ok v
      else if isDigit c then
        let v := v * 10 + (c.toNat - 48)
        if v ≤ longLongMax then readDigits v s else .error .overflow
      else
        .error .unexpected

def minus : UInt8 := 45

def plus : UInt8 := 43

/-- The sign, and where the digits start. -/
def readSign : ByteString → Int × ByteString
  | [] => (1, [])
  | c :: s =>
      if c = minus then (-1, s) else if c = plus then (1, s) else (1, c :: s)

/-- `-1` stands for everything that is no number. -/
def readLongLong (s : ByteString) : Option Int :=
  let (mult, s) := readSign s
  match readDigits 0 s with
  | .ok v => some (mult * v)
  | .error .unexpected => some (-1)
  | .error .overflow => none

/-! ### Errors -/

/-- `REDIS_ERR_IO` and so on. -/
inductive RedisErr where
  | io | other | eof | protocol | oom
  deriving DecidableEq, Repr

structure RedisError where
  type : RedisErr
  errstr : String
  deriving DecidableEq, Repr

/-- `isprint` in the C locale. -/
def isPrint (byte : UInt8) : Bool :=
  32 ≤ byte.toNat && byte.toNat ≤ 126

/-- How an error message shows a byte. -/
def chrtos (byte : UInt8) : String :=
  match byte.toNat with
  | 92 => "\"\\\\\""
  | 34 => "\"\\\"\""
  | 10 => "\"\\n\""
  | 13 => "\"\\r\""
  | 9 => "\"\\t\""
  | 7 => "\"\\a\""
  | 8 => "\"\\b\""
  | code =>
      if isPrint byte then
        "\"" ++ String.singleton (Char.ofNat code) ++ "\""
      else
        "\"\\x" ++ String.singleton (Nat.digitChar (code / 16)) ++
          String.singleton (Nat.digitChar (code % 16)) ++ "\""

def protocolByteError (byte : UInt8) : RedisError :=
  { type := .protocol
    errstr := "Protocol error, got " ++ chrtos byte ++ " as reply type byte" }

def nestingError : RedisError :=
  { type := .protocol
    errstr := "No support for nested multi bulk replies with depth > 7" }

/-! ### The reader -/

/-- `len` is the length of `buf`, and `ridx` is one less than the length of
`rstack`, which has the current task in front.  `heap` holds the reply
objects. -/
structure RedisReader where
  err : Option RedisError
  buf : ByteString
  pos : Nat
  rstack : List RedisReadTask
  reply : Option Pointer
  heap : ReplyHeap
  deriving DecidableEq, Repr

/-- The bytes that `type` is read from. -/
def replyType? (byte : UInt8) : Option ReplyType :=
  if byte = minus then some .error
  else if byte = plus then some .status
  else if byte = 58 then some .integer
  else if byte = 36 then some .string
  else if byte = 42 then some .array
  else none

namespace RedisReader

def create (heap : ReplyHeap) : RedisReader :=
  { err := none, buf := [], pos := 0, rstack := [], reply := none, heap }

def len (reader : RedisReader) : Nat :=
  reader.buf.length

/-- What has been built of the reply is freed. -/
def freeReply (reader : RedisReader) : Option ReplyHeap :=
  match reader.reply with
  | some reply => freeReplyObject reader.heap.length reader.heap reply
  | none => some reader.heap

/-- `redisReaderFree`, with the objects that remain. -/
def redisReaderFree (reader : RedisReader) : Option ReplyHeap :=
  reader.freeReply

/-- `__redisReaderSetError`. -/
def setError (reader : RedisReader) (err : RedisError) :
    Option RedisReader := do
  let heap ← reader.freeReply
  some
    { err := some err, buf := [], pos := 0, rstack := [], reply := none, heap }

/-- `buf + pos`. -/
def cursor (reader : RedisReader) : ByteString :=
  reader.buf.drop reader.pos

/-- Where a line starts and how long it is, if there is one.  The sum with its
end is an `int`. -/
def readLine (reader : RedisReader) :
    Option (Option (ByteString × Nat × RedisReader)) :=
  match seekNewline reader.cursor with
  | none => some none
  | some len =>
      if intMax < len + 2 then
        none
      else
        some (some
          (reader.cursor, len, { reader with pos := reader.pos + (len + 2) }))

end RedisReader

/-- `moveToNextTask`: arrays that are complete are left. -/
def moveToNextTask : List RedisReadTask → Option (List RedisReadTask)
  | [] => some []
  | [_] => some []
  | cur :: prv :: rstack =>
      if prv.type ≠ some .array then
        none
      else if cur.idx = prv.elements - 1 then
        moveToNextTask (prv :: rstack)
      else if cur.idx < prv.elements then
        some ({ cur with type := none, elements := -1, idx := cur.idx + 1 } ::
          prv :: rstack)
      else
        none

namespace RedisReader

/-- The end of an item whose object has been created. -/
def finishItem (reader : RedisReader) (heap : ReplyHeap) (obj : Pointer) :
    Option RedisReader := do
  let rstack ← moveToNextTask reader.rstack
  let reply := if reader.rstack.length = 1 then some obj else reader.reply
  some { reader with heap, reply, rstack }

/-- In the results of this and the following functions, `true` is
`REDIS_OK`. -/
def processLineItem (reader : RedisReader) (cur : RedisReadTask) :
    Option (Bool × RedisReader) := do
  match ← reader.readLine with
  | none => some (false, reader)
  | some (p, len, reader) =>
      let (heap, obj) ←
        if cur.type = some .integer then do
          let value ← readLongLong p
          createIntegerObject reader.heap reader.rstack value
        else
          createStringObject reader.heap reader.rstack (p.take len)
      let reader ← reader.finishItem heap obj
      some (true, reader)

/-- The two bytes behind the string are skipped, whatever they are; the sum with
them is a `long`. -/
def processBulkItem (reader : RedisReader) : Option (Bool × RedisReader) :=
  let p := reader.cursor
  match seekNewline p with
  | none => some (false, reader)
  | some s => do
      let len ← readLongLong p
      if len < 0 then do
        let (heap, obj) ← createNilObject reader.heap reader.rstack
        let reader := { reader with pos := reader.pos + (s + 2) }
        let reader ← reader.finishItem heap obj
        some (true, reader)
      else if longLongMax < len.toNat + 2 then
        none
      else
        let bytelen := s + 2 + (len.toNat + 2)
        if reader.pos + bytelen ≤ reader.len then do
          let str := (p.drop (s + 2)).take len.toNat
          let (heap, obj) ←
            createStringObject reader.heap reader.rstack str
          let reader := { reader with pos := reader.pos + bytelen }
          let reader ← reader.finishItem heap obj
          some (true, reader)
        else
          some (false, reader)

/-- The stack has nine places.  The number of elements is a `long`, and `cur`
and the object get it as an `int`. -/
def processMultiBulkItem (reader : RedisReader) (cur : RedisReadTask) :
    Option (Bool × RedisReader) := do
  if reader.rstack.length = 9 then
    let reader ← reader.setError nestingError
    some (false, reader)
  else
    match ← reader.readLine with
    | none => some (false, reader)
    | some (p, _, reader) =>
        let elements ← readLongLong p
        if elements = -1 then do
          let (heap, obj) ← createNilObject reader.heap reader.rstack
          let reader ← reader.finishItem heap obj
          some (true, reader)
        else do
          let (heap, obj) ←
            createArrayObject reader.heap reader.rstack (toInt elements)
          if 0 < elements then
            let cur := { cur with elements := toInt elements, obj := some obj }
            let reply :=
              if reader.rstack.length = 1 then some obj else reader.reply
            let rstack := .new 0 :: cur :: reader.rstack.tail
            some (true, { reader with heap, reply, rstack })
          else do
            let reader ← reader.finishItem heap obj
            some (true, reader)

/-- An item whose type has been read. -/
def processTypedItem (reader : RedisReader) (cur : RedisReadTask) :
    Option (Bool × RedisReader) :=
  match cur.type with
  | some .error | some .status | some .integer => reader.processLineItem cur
  | some .string => reader.processBulkItem
  | some .array => reader.processMultiBulkItem cur
  | some .nil | none => none

/-- The type stays read when the rest of the item is not there yet. -/
def processItem (reader : RedisReader) : Option (Bool × RedisReader) :=
  match reader.rstack with
  | [] => none
  | cur :: rstack =>
      if cur.type.isSome then
        reader.processTypedItem cur
      else
        match reader.cursor with
        | [] => some (false, reader)
        | byte :: _ =>
            let reader := { reader with pos := reader.pos + 1 }
            match replyType? byte with
            | some type =>
                let cur := { cur with type := some type }
                { reader with rstack := cur :: rstack }.processTypedItem cur
            | none => do
                let reader ← reader.setError (protocolByteError byte)
                some (false, reader)

/-- The loop of `redisReaderGetReply`.  Every item but the last one takes at
least one byte. -/
def processItems : Nat → RedisReader → Option RedisReader
  | 0, _ => none
  | fuel + 1, reader =>
      if reader.rstack = [] then
        some reader
      else
        match reader.processItem with
        | none => none
        | some (true, reader) => processItems fuel reader
        | some (false, reader) => some reader

/-- `redisReaderFeed`.  Whether an empty buffer is reallocated makes no
difference to what it holds. -/
def redisReaderFeed (reader : RedisReader) (buf : ByteString) :
    Bool × RedisReader :=
  if reader.err.isSome then
    (false, reader)
  else
    (true, { reader with buf := reader.buf ++ buf })

end RedisReader

/-- `sdsrange` on the bytes of a string; its indices are of type `int`. -/
def sdsrange (s : ByteString) (start stop : Int) : Option ByteString :=
  let len := s.length
  if len = 0 then
    some s
  else
    let start := if start < 0 then max (toInt (len + start)) 0 else start
    let stop := if stop < 0 then max (toInt (len + stop)) 0 else stop
    if (intMax : Int) ≤ stop - start then
      none
    else
      let newlen : Nat :=
        if stop < start ∨ toInt len ≤ start then
          0
        else
          (min stop (toInt len - 1) - start + 1).toNat
      some ((s.drop start.toNat).take newlen)

/-- The bytes between two indices, which count from the end if they are
negative. -/
def subrange (s : ByteString) (start stop : Int) : ByteString :=
  let len : Int := s.length
  if len = 0 then
    s
  else
    let start := if start < 0 then max (len + start) 0 else start
    let stop := if stop < 0 then max (len + stop) 0 else stop
    if stop < start ∨ len ≤ start then
      []
    else
      let stop := min stop (len - 1)
      (s.drop start.toNat).take (stop - start + 1).toNat

/-- An index from the end of the string. -/
theorem index_eq
    {length : Nat} (short : length ≤ intMax) {index : Int}
    (isInt : -2147483648 ≤ index) :
    (if index < 0 then max (toInt (length + index)) 0 else index) =
      if index < 0 then max ((length : Int) + index) 0 else index := by
  split
  · rw [toInt_of_mem (by omega) (by omega)]
  · rfl

/-- Of a string that is not too long, `sdsrange` leaves what is asked for. -/
theorem sdsrange_eq_subrange
    {s : ByteString} (short : s.length ≤ intMax) {start stop : Int}
    (startIsInt : -2147483648 ≤ start) (stopIsInt : -2147483648 ≤ stop)
    (below : stop < intMax) :
    sdsrange s start stop = some (subrange s start stop) := by
  unfold sdsrange subrange
  simp only [index_eq short startIsInt, index_eq short stopIsInt,
    toInt_of_le short]
  by_cases empty : s.length = 0
  · have emptyInt : (s.length : Int) = 0 := by omega
    rw [if_pos empty, if_pos emptyInt]
  · have notEmptyInt : ¬ (s.length : Int) = 0 := by omega
    rw [if_neg empty, if_neg notEmptyInt]
    have startNonneg : 0 ≤
        (if start < 0 then max ((s.length : Int) + start) 0 else start) := by
      split <;> omega
    have stopBelow :
        (if stop < 0 then max ((s.length : Int) + stop) 0 else stop) <
          intMax := by
      split <;> omega
    generalize (if start < 0 then max ((s.length : Int) + start) 0
      else start) = first at startNonneg ⊢
    generalize (if stop < 0 then max ((s.length : Int) + stop) 0
      else stop) = last at stopBelow ⊢
    rw [if_neg (by omega)]
    by_cases nothing : last < first ∨ (s.length : Int) ≤ first
    · rw [if_pos nothing, if_pos nothing, List.take_zero]
    · rw [if_neg nothing, if_neg nothing]

namespace RedisReader

/-- What has been read is discarded when it is at least 1 KiB. -/
def discard (reader : RedisReader) : Option RedisReader :=
  if 1024 ≤ reader.pos then do
    let buf ← sdsrange reader.buf (toInt reader.pos) (-1)
    some { reader with buf, pos := 0 }
  else
    some reader

/-- `redisReaderGetReply`, with the reply that it stores. -/
def redisReaderGetReply (reader : RedisReader) :
    Option (Bool × Option Pointer × RedisReader) :=
  if reader.err.isSome then
    some (false, none, reader)
  else if reader.len = 0 then
    some (true, none, reader)
  else do
    let reader :=
      if reader.rstack = [] then
        { reader with rstack := [.new (-1)] }
      else
        reader
    let reader ← processItems (reader.cursor.length + 1) reader
    if reader.err.isSome then
      some (false, none, reader)
    else
      let reader ← reader.discard
      if reader.rstack = [] then
        some (true, reader.reply, { reader with reply := none })
      else
        some (true, none, reader)

end RedisReader

end Hiredis

end DBWrapper
