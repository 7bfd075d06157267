import DBWrapper.Redis.Arguments
import DBWrapper.Redis.Receiving

/-!
# The asynchronous context of hiredis

Commands are appended to an output buffer and their callbacks to a queue; the
event loop writes the buffer, reads what has arrived, and gives each reply to the
callback at the head of the queue.  A callback may issue further commands and
may ask for a disconnect or for the context to be freed, which is then put off
until it returns.  Freeing the context runs the callbacks that are left with no
reply.

A step is a call by the user, an event of the socket with what the operating
system answers, or what the code does between two of these.  The connect and
disconnect callbacks make no calls, as those of the worker do not.  Subscriptions
are a map from names to callbacks, whose entries the disposal visits in an order
of its own.
-/

namespace DBWrapper

open Foundation

namespace Hiredis

open Arguments

/-- `redisCallback`.  `fn` is `none` for a null pointer. -/
structure RedisCallback where
  fn : Option Pointer
  privdata : Pointer
  deriving DecidableEq, Repr

/-- Where the code is.  In `processing`, `cb` is the variable of
`redisProcessCallbacks`; in `calling`, a callback of its loop is running, and in
`callingNull`, one of the loops of `__redisAsyncFree`. -/
inductive AsyncPhase where
  | idle
  | processing (cb : RedisCallback)
  | calling (cb : RedisCallback) (reply : Pointer)
  | freeing
  | callingNull
  | freed
  | aborted
  deriving DecidableEq, Repr

/-- What can be seen of a context from outside. -/
inductive AsyncEvent where
  | accepted (cb : RedisCallback) (cmd : ByteString)
  | called (cb : RedisCallback) (reply : Option Reply)
  | wrote (bytes : ByteString)
  | read (bytes : ByteString)
  | connected (ok : Bool)
  | disconnected (ok : Bool)
  deriving Repr

/-- `redisAsyncContext` with its `redisContext`.  `ac->err` is a copy of `err`
that is taken before it is looked at. -/
structure AsyncContext where
  connected : Bool
  disconnecting : Bool
  freeing : Bool
  inCallback : Bool
  subscribed : Bool
  monitoring : Bool
  err : Option RedisError
  obuf : ByteString
  reader : RedisReader
  replies : List RedisCallback
  invalid : List RedisCallback
  channels : List (ByteString × RedisCallback)
  patterns : List (ByteString × RedisCallback)
  phase : AsyncPhase
  history : List AsyncEvent
  deriving Repr

/-- The answer of `redisCheckSocketError`, which leaves an error behind also for
a connection that is still in progress. -/
inductive ConnectResult where
  | connected
  | inProgress (err : RedisError)
  | failed (err : RedisError)
  deriving DecidableEq, Repr

/-- The answer of `read`. -/
inductive ReadResult where
  | bytes (chunk : ByteString)
  | again
  | failed (err : RedisError)
  | eof
  deriving DecidableEq, Repr

/-- The answer of `write`. -/
inductive WriteResult where
  | wrote (count : Nat)
  | again
  | failed (err : RedisError)
  deriving DecidableEq, Repr

inductive AsyncLabel where
  | command (cb : RedisCallback) (cmd : ByteString)
  | disconnect
  | free
  | readable (connect : ConnectResult) (result : ReadResult)
  | writable (connect : ConnectResult) (result : WriteResult)
  | next (choice : Nat)
  | returns
  deriving DecidableEq, Repr

/-- The size of the buffer in `redisBufferRead`. -/
def readSize : Nat := 16384

/-- What one call of `write` transfers at most. -/
def writeSize : Nat := 2147479552

/-- What `redisBufferWrite` leaves of the output buffer.  The lengths are taken
as numbers of type `int`. -/
def unwritten (obuf : ByteString) (nwritten : Nat) : Option ByteString :=
  if (nwritten : Int) = toInt obuf.length then
    some []
  else
    sdsrange obuf nwritten (-1)

namespace AsyncContext

/-- `redisAsyncConnect`, before the connection is established. -/
def create : AsyncContext :=
  { connected := false, disconnecting := false, freeing := false
    inCallback := false, subscribed := false, monitoring := false
    err := none, obuf := [], reader := .create [], replies := [], invalid := []
    channels := [], patterns := [], phase := .idle, history := [] }

def log (context : AsyncContext) (event : AsyncEvent) :
    AsyncContext :=
  { context with history := context.history ++ [event] }

def abort (context : AsyncContext) : AsyncContext :=
  { context with phase := .aborted }

/-! ### Disconnecting -/

/-- `__redisAsyncDisconnect`, up to the loops of `__redisAsyncFree`. -/
def asyncDisconnect (context : AsyncContext) : AsyncContext :=
  match context.err with
  | none =>
      if context.replies = [] then
        { context with phase := .freeing }
      else
        context.abort
  | some _ => { context with disconnecting := true, phase := .freeing }

def redisAsyncDisconnect (context : AsyncContext) : AsyncContext :=
  let context := { context with disconnecting := true }
  if ¬ context.inCallback ∧ context.replies = [] then
    context.asyncDisconnect
  else
    context

def redisAsyncFree (context : AsyncContext) : AsyncContext :=
  let context := { context with freeing := true }
  if context.inCallback then context else { context with phase := .freeing }

/-- A callback of the loops in `__redisAsyncFree`. -/
def runNull (context : AsyncContext) (cb : RedisCallback) :
    AsyncContext :=
  if cb.fn.isSome then
    { context with inCallback := true, phase := .callingNull }.log
      (.called cb none)
  else
    context

/-- The loops of `__redisAsyncFree`, and what is behind them. -/
def asyncFree (context : AsyncContext) (choice : Nat) :
    AsyncContext :=
  match context.replies, context.invalid with
  | cb :: replies, _ => { context with replies }.runNull cb
  | [], cb :: invalid => { context with invalid }.runNull cb
  | [], [] =>
      match context.channels[choice]?, context.patterns[choice]? with
      | some (_, cb), _ =>
          { context with
            channels := context.channels.eraseIdx choice }.runNull cb
      | none, some (_, cb) =>
          if context.channels = [] then
            { context with
              patterns := context.patterns.eraseIdx choice }.runNull cb
          else
            context
      | none, none =>
          if context.channels = [] ∧ context.patterns = [] then
            let freed := { context with phase := .freed }
            if context.connected then
              freed.log
                (.disconnected (context.freeing || context.err.isNone))
            else
              freed
          else
            context

/-! ### Commands -/

/-- `dictReplace`. -/
def dictReplace (dict : List (ByteString × RedisCallback)) (name : ByteString)
    (cb : RedisCallback) : List (ByteString × RedisCallback) :=
  dict.filter (·.1 ≠ name) ++ [(name, cb)]

/-- `__redisAppendCommand`. -/
def appendCommand (context : AsyncContext) (cb : RedisCallback)
    (cmd : ByteString) : AsyncContext :=
  { context with obuf := context.obuf ++ cmd }.log (.accepted cb cmd)

/-- `__redisAsyncCommand`; `true` is `REDIS_OK`. -/
def asyncCommand (context : AsyncContext) (cb : RedisCallback)
    (cmd : ByteString) : Bool × AsyncContext :=
  if context.disconnecting ∨ context.freeing then
    (false, context)
  else
    match commandKind cmd with
    | none => (false, context.abort)
    | some (.subscribe true names) =>
        let patterns := names.foldl (dictReplace · · cb) context.patterns
        (true,
          { context with subscribed := true, patterns }.appendCommand cb cmd)
    | some (.subscribe false names) =>
        let channels := names.foldl (dictReplace · · cb) context.channels
        (true,
          { context with subscribed := true, channels }.appendCommand cb cmd)
    | some .unsubscribe =>
        if context.subscribed then
          (true, context.appendCommand cb cmd)
        else
          (false, context)
    | some .monitor =>
        (true,
          { context with
            monitoring := true
            replies := context.replies ++ [cb] }.appendCommand cb cmd)
    | some .regular =>
        if context.subscribed then
          (true,
            { context with
              invalid := context.invalid ++ [cb] }.appendCommand cb cmd)
        else
          (true,
            { context with
              replies := context.replies ++ [cb] }.appendCommand cb cmd)

/-! ### Replies -/

/-- `__redisGetSubscribeCallback`; `cb` is what `dstcb` points at. -/
def getSubscribeCallback (context : AsyncContext) (cb : RedisCallback)
    (reply : Reply) : Option (RedisCallback × AsyncContext) :=
  match reply with
  | .array (.string stype :: .string sname :: rest) =>
      let stype := cStr stype
      let pvariant := stype.head?.map toLower = some letterP
      let callbacks :=
        if pvariant then context.patterns else context.channels
      match callbacks.find? (·.1 = sname) with
      | none => some (cb, context)
      | some (_, cb) =>
          let name := if pvariant then stype.tail else stype
          if name.map toLower = ascii "unsubscribe" then
            let callbacks := callbacks.filter (·.1 ≠ sname)
            let context :=
              if pvariant then
                { context with patterns := callbacks }
              else
                { context with channels := callbacks }
            match rest with
            | .integer count :: _ =>
                some
                  (cb,
                    { context with
                      subscribed := context.subscribed && count ≠ 0 })
            | _ => none
          else
            some (cb, context)
  | .array _ => none
  | _ =>
      match context.invalid with
      | [] => some (cb, context)
      | cb :: invalid => some (cb, { context with invalid })

/-- `freeObject`. -/
def freeObject (context : AsyncContext) (reply : Pointer) :
    Option AsyncContext :=
  let reader := context.reader
  (freeReplyObject reader.heap.length reader.heap reply).map fun heap =>
    { context with reader := { reader with heap } }

/-- The callback of a reply, if there is one. -/
def runCallback (context : AsyncContext) (cb : RedisCallback)
    (reply : Pointer) (value : Reply) : AsyncContext :=
  if cb.fn.isSome then
    { context with inCallback := true, phase := .calling cb reply }.log
      (.called cb (some value))
  else
    match context.freeObject reply with
    | none => context.abort
    | some context => { context with phase := .processing cb }

/-- `errstr` has room for 127 bytes. -/
def otherError (str : ByteString) : RedisError :=
  { type := .other
    errstr := String.ofList
      (((cStr str).take 127).map fun byte => Char.ofNat byte.toNat) }

/-- The body of the loop in `redisProcessCallbacks` for a reply. -/
def takeReply (context : AsyncContext) (cb : RedisCallback)
    (reply : Pointer) (value : Reply) : AsyncContext :=
  match context.replies with
  | cb :: replies => { context with replies }.runCallback cb reply value
  | [] =>
      match value with
      | .error str =>
          match { context with err := some (otherError str) }.freeObject
              reply with
          | none => context.abort
          | some context => context.asyncDisconnect
      | _ =>
          if context.subscribed then
            match context.getSubscribeCallback cb value with
            | none => context.abort
            | some (cb, context) => context.runCallback cb reply value
          else if context.monitoring then
            context.runCallback cb reply value
          else
            context.abort

/-- The loop of `redisProcessCallbacks`. -/
def processCallbacks (context : AsyncContext) (cb : RedisCallback) :
    AsyncContext :=
  match context.reader.redisReaderGetReply with
  | none => context.abort
  | some (false, _, reader) =>
      { context with reader, err := reader.err }.asyncDisconnect
  | some (true, none, reader) =>
      let context := { context with reader }
      if context.disconnecting ∧ context.obuf = [] ∧ context.replies = [] then
        context.asyncDisconnect
      else
        { context with
          replies :=
            if context.monitoring then
              context.replies ++ [cb]
            else
              context.replies
          phase := .idle }
  | some (true, some reply, reader) =>
      match readReply reader.heap reader.heap.length reply with
      | none => context.abort
      | some value => { context with reader }.takeReply cb reply value

/-- The user's callback returns. -/
def returnsFrom (context : AsyncContext) (cb : RedisCallback)
    (reply : Pointer) : AsyncContext :=
  match { context with inCallback := false }.freeObject reply with
  | none => context.abort
  | some context =>
      if context.freeing then
        { context with phase := .freeing }
      else
        { context with phase := .processing cb }

/-! ### Events -/

/-- `__redisAsyncHandleConnect`; `true` means that the event is handled
further. -/
def handleConnect (context : AsyncContext) (connect : ConnectResult) :
    Bool × AsyncContext :=
  if context.connected then
    (true, context)
  else
    match connect with
    | .connected =>
        (true, { context with connected := true }.log (.connected true))
    | .inProgress err => (false, { context with err := some err })
    | .failed err =>
        (false,
          ({ context with err := some err }.log
            (.connected false)).asyncDisconnect)

/-- `redisBufferRead` and `redisAsyncHandleRead` behind it. -/
def bufferRead (context : AsyncContext) (result : ReadResult) :
    AsyncContext :=
  if context.err.isSome then
    context.asyncDisconnect
  else
    match result with
    | .again => { context with phase := .processing { fn := none, privdata := 0 } }
    | .failed err => { context with err := some err }.asyncDisconnect
    | .eof =>
        { context with
          err := some { type := .eof, errstr := "Server closed the connection" }
        }.asyncDisconnect
    | .bytes chunk =>
        let (fed, reader) := context.reader.redisReaderFeed chunk
        let context := { context with reader }.log (.read chunk)
        if fed then
          { context with phase := .processing { fn := none, privdata := 0 } }
        else
          { context with err := reader.err }.asyncDisconnect

/-- `redisBufferWrite`. -/
def bufferWrite (context : AsyncContext) (result : WriteResult) :
    AsyncContext :=
  if context.err.isSome then
    context.asyncDisconnect
  else if context.obuf = [] then
    context
  else
    match result with
    | .again => context
    | .failed err => { context with err := some err }.asyncDisconnect
    | .wrote count =>
        if count = 0 then
          context
        else
          match unwritten context.obuf count with
          | none => context.abort
          | some obuf =>
              { context with obuf }.log (.wrote (context.obuf.take count))

/-- What `read` and `write` can answer. -/
def possibleRead : ReadResult → Bool
  | .bytes chunk => chunk ≠ [] && chunk.length ≤ readSize
  | _ => true

def possibleWrite (context : AsyncContext) : WriteResult → Bool
  | .wrote count => count ≤ context.obuf.length && count ≤ writeSize
  | _ => true

/-- The user's code is running, in a callback or outside of one. -/
def inUserCode (context : AsyncContext) : Bool :=
  match context.phase with
  | .idle | .calling _ _ | .callingNull => true
  | _ => false

def step (context : AsyncContext) : AsyncLabel → Option AsyncContext
  | .command cb cmd =>
      if context.inUserCode then some (context.asyncCommand cb cmd).2 else none
  | .disconnect =>
      if context.inUserCode then some context.redisAsyncDisconnect else none
  | .free => if context.inUserCode then some context.redisAsyncFree else none
  | .readable connect result =>
      if context.phase = .idle ∧ possibleRead result then
        match context.handleConnect connect with
        | (true, context) => some (context.bufferRead result)
        | (false, context) => some context
      else
        none
  | .writable connect result =>
      if context.phase = .idle ∧ context.possibleWrite result then
        match context.handleConnect connect with
        | (true, context) => some (context.bufferWrite result)
        | (false, context) => some context
      else
        none
  | .next choice =>
      match context.phase with
      | .processing cb => some (context.processCallbacks cb)
      | .freeing => some (context.asyncFree choice)
      | _ => none
  | .returns =>
      match context.phase with
      | .calling cb reply => some (context.returnsFrom cb reply)
      | .callingNull =>
          some { context with inCallback := false, phase := .freeing }
      | _ => none

end AsyncContext

end Hiredis

end DBWrapper
