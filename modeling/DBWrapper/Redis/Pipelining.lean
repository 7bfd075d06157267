import DBWrapper.Redis.CallbackQueue

/-!
# A client and a server

The context of a client and a server are connected by two streams of bytes.
The client formats commands, writes as much of them as the operating system
takes, and reads what has arrived in pieces of any size; the server executes a
command when all of it has arrived, and writes its reply.  All of these happen in
any order, and the connection may break at any time.

The callback of a command gets the reply to this command, as a server gives it
that executes nothing but the commands of the client, in their order.  This needs
that no buffer of the client gets longer than `INT_MAX` bytes.
-/

namespace DBWrapper

open Foundation

namespace Hiredis

open Arguments

universe u

/-- A command that neither subscribes nor monitors. -/
def Regular : List ByteString → Prop
  | [] => False
  | name :: arguments =>
      carriageReturn ∉ name ∧
        (∀ argument ∈ name :: arguments, argument.length ≤ intMax) ∧
        kindOf name arguments = .regular

instance decidableRegular : ∀ argv, Decidable (Regular argv)
  | [] => inferInstanceAs (Decidable False)
  | _ :: _ => inferInstanceAs (Decidable (_ ∧ _ ∧ _))

theorem Regular.commandKind
    {argv : List ByteString} (regular : Regular argv) :
    commandKind (RedisCommand.redisFormatCommand argv) = some .regular := by
  cases argv with
  | nil => exact regular.elim
  | cons name arguments =>
      obtain ⟨oneLine, fits, kind⟩ := regular
      rw [commandKind_redisFormatCommand oneLine fits, kind]

/-- What the server writes later does not matter to what has been read. -/
theorem AsyncContext.Sound.extend
    {all answers : List Reply} {nulls : Nat} {context : AsyncContext}
    (sound : AsyncContext.Sound all answers nulls context)
    (isPrefix : context.received <+: Reply.encodeAll all) (reply : Reply) :
    AsyncContext.Sound (all ++ [reply]) answers nulls context where
  plain := sound.plain
  queue := sound.queue
  calls := sound.calls
  output := sound.output
  answered := sound.answered.trans (List.prefix_append all [reply])
  untilClosed := sound.untilClosed
  closed := sound.closed
  emptied := sound.emptied
  aborted := by
    intro aborted
    have fewer := sound.aborted aborted
    rw [List.length_append]
    omega
  reader := by
    have reader := sound.reader
    cases phase : context.phase with
    | idle =>
        rw [phase] at reader
        obtain ⟨old, cursor, reads, complete⟩ := reader
        refine ⟨old, cursor, reads, ?_⟩
        rw [encodeAll_eq_stream] at isPrefix
        rw [arrived_append (fun reply _ => reply.encode_ne_nil)
          isPrefix.length_le, complete]
    | processing cb =>
        rw [phase] at reader
        exact reader
    | calling cb pointer =>
        rw [phase] at reader
        exact reader
    | freeing => trivial
    | callingNull => trivial
    | freed => trivial
    | aborted => trivial

/-- A command is accepted, or nothing happens. -/
theorem AsyncContext.asyncCommand_cases
    (context : AsyncContext) (plain : context.Plain) (cb : RedisCallback)
    {cmd : ByteString} (regular : Arguments.commandKind cmd = some .regular) :
    context.asyncCommand cb cmd = (false, context) ∨
      ((context.asyncCommand cb cmd).1 = true ∧
        AsyncContext.Logs context (context.asyncCommand cb cmd).2
          (.accepted cb cmd)) := by
  rw [AsyncContext.asyncCommand]
  split
  · exact Or.inl rfl
  · simp only [regular, plain.subscribed, Bool.false_eq_true, if_false]
    exact Or.inr ⟨trivial, AsyncContext.logs_of_history rfl⟩

/-! ### The server -/

section Server

variable {Database : Type u}
  (serve : Database → List ByteString → Database × Reply)

/-- What becomes of the database. -/
def databaseAfter (database : Database) (commands : List (List ByteString)) :
    Database :=
  commands.foldl (fun database argv => (serve database argv).1) database

/-- The replies to commands that are executed one after the other. -/
def answersTo : Database → List (List ByteString) → List Reply
  | _, [] => []
  | database, argv :: commands =>
      (serve database argv).2 :: answersTo (serve database argv).1 commands

theorem answersTo_append
    (database : Database) (front back : List (List ByteString)) :
    answersTo serve database (front ++ back) =
      answersTo serve database front ++
        answersTo serve (databaseAfter serve database front) back := by
  induction front generalizing database with
  | nil => rfl
  | cons argv front induction =>
      simp only [List.cons_append, answersTo, databaseAfter, List.foldl_cons]
      rw [induction, databaseAfter]

theorem length_answersTo
    (database : Database) (commands : List (List ByteString)) :
    (answersTo serve database commands).length = commands.length := by
  induction commands generalizing database with
  | nil => rfl
  | cons argv commands induction =>
      rw [answersTo, List.length_cons, induction, List.length_cons]

theorem sendable_answersTo
    {serve : Database → List ByteString → Database × Reply}
    (sendable : ∀ database argv, Sendable maxLevels (serve database argv).2)
    (database : Database) (commands : List (List ByteString)) :
    ∀ reply ∈ answersTo serve database commands, Sendable maxLevels reply := by
  induction commands generalizing database with
  | nil => simp [answersTo]
  | cons argv commands induction =>
      intro reply listed
      rcases List.mem_cons.mp listed with rfl | later
      · exact sendable database argv
      · exact induction _ reply later

end Server

/-! ### The system -/

/-- `issued` are the commands that `redisAsyncCommand` has accepted, `executed`
those that have reached the server. -/
structure Pipeline (Database : Type u) where
  context : AsyncContext
  issued : List (RedisCallback × List ByteString)
  database : Database
  executed : List (List ByteString)
  replied : List Reply

inductive PipelineLabel where
  | command (cb : RedisCallback) (argv : List ByteString)
  | execute (argv : List ByteString)
  | client (label : AsyncLabel)
  deriving DecidableEq, Repr

namespace Pipeline

section System

variable {Database : Type u}
  (serve : Database → List ByteString → Database × Reply)

def start (database : Database) : Pipeline Database :=
  { context := .create, issued := [], database, executed := [], replied := [] }

/-- What the client has written and the server has not read. -/
def toServer (system : Pipeline Database) : ByteString :=
  system.context.written.drop
    (system.executed.flatMap RedisCommand.redisFormatCommand).length

/-- What the server has written and the client has not read. -/
def toClient (system : Pipeline Database) : ByteString :=
  (Reply.encodeAll system.replied).drop system.context.received.length

/-- A step that the client makes without a new command; it reads what the
server has written. -/
def allows (system : Pipeline Database) : AsyncLabel → Bool
  | .command _ _ => false
  | .readable _ (.bytes chunk) => decide (chunk <+: system.toClient)
  | _ => true

def step (system : Pipeline Database) :
    PipelineLabel → Option (Pipeline Database)
  | .command cb argv =>
      if system.context.inUserCode then
        let (accepted, context) :=
          system.context.asyncCommand cb (RedisCommand.redisFormatCommand argv)
        let issued :=
          if accepted then system.issued ++ [(cb, argv)] else system.issued
        some { system with context, issued }
      else
        none
  | .execute argv =>
      if RedisCommand.redisFormatCommand argv <+: system.toServer then
        let (database, reply) := serve system.database argv
        some
          { system with
            database
            executed := system.executed ++ [argv]
            replied := system.replied ++ [reply] }
      else
        none
  | .client label =>
      if system.allows label then
        (system.context.step label).map fun context => { system with context }
      else
        none

end System

/-! ### The invariant -/

section Invariant

variable {Database : Type u}
  {serve : Database → List ByteString → Database × Reply}
  {database : Database}

def callbacks (system : Pipeline Database) : List RedisCallback :=
  system.issued.map Prod.fst

def commands (system : Pipeline Database) : List (List ByteString) :=
  system.issued.map Prod.snd

/-- The server is ahead of what the client reads, and the client of what the
server executes. -/
structure Aligned (serve : Database → List ByteString → Database × Reply)
    (database : Database) (system : Pipeline Database) : Prop where
  sound : ∃ answers nulls,
    AsyncContext.Sound system.replied answers nulls system.context
  callbacks : system.context.acceptedCallbacks = system.callbacks
  commands : system.context.commands =
    system.commands.flatMap RedisCommand.redisFormatCommand
  executed : system.executed <+: system.commands
  consumed : system.executed.flatMap RedisCommand.redisFormatCommand <+:
    system.context.written
  replied : system.replied = answersTo serve database system.executed
  database : system.database = databaseAfter serve database system.executed
  received : system.context.received <+: Reply.encodeAll system.replied

theorem aligned_start
    (serve : Database → List ByteString → Database × Reply)
    (database : Database) : Aligned serve database (start database) where
  sound := ⟨[], 0, AsyncContext.sound_create []⟩
  callbacks := rfl
  commands := rfl
  executed := List.nil_prefix
  consumed := List.nil_prefix
  replied := rfl
  database := rfl
  received := List.nil_prefix

namespace Aligned

variable {system : Pipeline Database}

theorem asyncCommand
    (aligned : Aligned serve database system)
    (running : system.context.inUserCode = true) (cb : RedisCallback)
    {argv : List ByteString} (regular : Regular argv)
    {next : Pipeline Database}
    (stepped : step serve system (.command cb argv) = some next) :
    Aligned serve database next := by
  obtain ⟨answers, nulls, sound⟩ := aligned.sound
  have later := sound.asyncCommand running cb regular.commandKind
  simp only [step, running, if_true] at stepped
  rcases system.context.asyncCommand_cases sound.plain cb regular.commandKind with
    rejected | ⟨accepted, logs⟩
  · simp only [rejected, Bool.false_eq_true, if_false] at stepped
    cases stepped
    exact aligned
  · simp only [accepted, if_true] at stepped
    cases stepped
    exact
      { sound := ⟨answers, nulls, later⟩
        callbacks := by
          rw [Pipeline.callbacks, List.map_append, logs.accepted,
            aligned.callbacks]
          rfl
        commands := by
          rw [Pipeline.commands, List.map_append, List.flatMap_append,
            logs.commands, aligned.commands]
          simp [Pipeline.commands, AsyncEvent.command]
        executed := by
          rw [Pipeline.commands, List.map_append]
          exact aligned.executed.trans (List.prefix_append _ _)
        consumed := by
          rw [logs.written]
          exact aligned.consumed.trans (List.prefix_append _ _)
        replied := aligned.replied
        database := aligned.database
        received := by
          rw [logs.received]
          exact (List.append_nil _).symm ▸ aligned.received }

/-- The command that the server finds is the next one. -/
theorem execute
    (aligned : Aligned serve database system) {argv : List ByteString}
    (found : RedisCommand.redisFormatCommand argv <+: system.toServer) :
    Aligned serve database
      { system with
        database := (serve system.database argv).1
        executed := system.executed ++ [argv]
        replied := system.replied ++ [(serve system.database argv).2] } := by
  obtain ⟨answers, nulls, sound⟩ := aligned.sound
  obtain ⟨behind, wire⟩ := found
  have written : system.executed.flatMap RedisCommand.redisFormatCommand ++
      (RedisCommand.redisFormatCommand argv ++ behind) =
        system.context.written := by
    rw [wire, toServer]
    exact List.prefix_append_drop aligned.consumed |>.symm
  exact
    { sound := ⟨answers, nulls, sound.extend aligned.received _⟩
      callbacks := aligned.callbacks
      commands := aligned.commands
      executed := by
        apply Resp.parse_undoes.isPrefix_append_singleton
          (Resp.redisFormatCommand_ne_nil argv) aligned.executed
        · calc
            system.commands.flatMap RedisCommand.redisFormatCommand =
                system.context.written ++ system.context.obuf := by
              rw [sound.output, aligned.commands]
            _ = _ := by
              rw [← written, List.append_assoc, List.append_assoc]
      consumed := by
        rw [List.flatMap_append, List.flatMap_singleton, ← written,
          ← List.append_assoc]
        exact List.prefix_append _ _
      replied := by
        rw [answersTo_append, ← aligned.replied, ← aligned.database]
        rfl
      database := by
        rw [databaseAfter, List.foldl_append, aligned.database, databaseAfter]
        rfl
      received := by
        refine aligned.received.trans ?_
        rw [encodeAll_eq_stream, encodeAll_eq_stream, stream_append]
        exact List.prefix_append _ _ }

theorem client
    (sendable : ∀ database argv, Sendable maxLevels (serve database argv).2)
    (aligned : Aligned serve database system) {label : AsyncLabel}
    (allowed : system.allows label = true)
    (inBounds : AsyncContext.InBounds system.context label)
    {context : AsyncContext}
    (stepped : system.context.step label = some context) :
    Aligned serve database { system with context } := by
  obtain ⟨answers, nulls, sound⟩ := aligned.sound
  have noCommand : ∀ cb cmd, label ≠ .command cb cmd := by
    rintro cb cmd rfl
    cases allowed
  have serves : AsyncContext.Serves system.replied system.context label := by
    cases label with
    | command cb cmd => exact (noCommand cb cmd rfl).elim
    | disconnect => exact aligned.received
    | free => exact aligned.received
    | readable connect result => exact aligned.received
    | writable connect result => exact aligned.received
    | next choice => exact aligned.received
    | returns => exact aligned.received
  have repliesSendable : ∀ reply ∈ system.replied, Sendable maxLevels reply := by
    rw [aligned.replied]
    exact sendable_answersTo sendable database system.executed
  have carries := AsyncContext.carries_step stepped noCommand
  exact
    { sound :=
        AsyncContext.sound_step repliesSendable stepped serves inBounds sound
      callbacks := carries.accepted.trans aligned.callbacks
      commands := carries.commands.trans aligned.commands
      executed := aligned.executed
      consumed := aligned.consumed.trans carries.written
      replied := aligned.replied
      database := aligned.database
      received := by
        rcases carries.received with same | ⟨connect, chunk, rfl, longer⟩
        · rw [same]
          exact aligned.received
        · -- What is read is the beginning of what is under way.
          have underWay : chunk <+: system.toClient := of_decide_eq_true allowed
          rw [longer, List.prefix_append_drop aligned.received]
          exact List.prefix_append_right_inj _ |>.mpr underWay }

end Aligned

/-- The commands of a run neither subscribe nor monitor. -/
def Issues : PipelineLabel → Prop
  | .command _ argv => Regular argv
  | _ => True

instance decidableIssues : ∀ label, Decidable (Issues label)
  | .command _ argv => decidableRegular argv
  | .execute _ | .client _ => inferInstanceAs (Decidable True)

/-- The client can count the bytes of the buffers that it works on. -/
def InBounds (system : Pipeline Database) : PipelineLabel → Prop
  | .client label => AsyncContext.InBounds system.context label
  | .command _ _ | .execute _ => True

instance decidableInBounds (system : Pipeline Database) :
    ∀ label, Decidable (InBounds system label)
  | .client label => AsyncContext.decidableInBounds system.context label
  | .command _ _ | .execute _ => isTrue trivial

theorem aligned_step
    (sendable : ∀ database argv, Sendable maxLevels (serve database argv).2)
    {system next : Pipeline Database} {label : PipelineLabel}
    (issues : Issues label) (inBounds : InBounds system label)
    (aligned : Aligned serve database system)
    (stepped : step serve system label = some next) :
    Aligned serve database next := by
  cases label with
  | command cb argv =>
      by_cases running : system.context.inUserCode
      · exact aligned.asyncCommand running cb issues stepped
      · simp only [step, running, Bool.false_eq_true, if_false] at stepped
        cases stepped
  | execute argv =>
      simp only [step] at stepped
      split at stepped
      · rename_i found
        cases stepped
        exact aligned.execute found
      · cases stepped
  | client label =>
      simp only [step] at stepped
      split at stepped
      · rename_i allowed
        obtain ⟨context, made, rfl⟩ := Option.map_eq_some_iff.mp stepped
        exact aligned.client sendable allowed inBounds made
      · cases stepped

theorem aligned_run
    (sendable : ∀ database argv, Sendable maxLevels (serve database argv).2)
    {labels : List PipelineLabel} (issues : ∀ label ∈ labels, Issues label)
    (inBounds : AllSteps (step serve) InBounds (start database) labels)
    {final : Pipeline Database}
    (ran : run (step serve) (start database) labels = some final) :
    Aligned serve database final := by
  have guarded := (allSteps_mem (step serve) (start database) labels).and
    inBounds
  apply run_invariant_of_allSteps _ (aligned_start serve database) guarded ran
  intro system label next aligned both stepped
  exact aligned_step sendable (issues label both.1) both.2 aligned stepped

/-- `SET` and `EXISTS` for a single key. -/
def serveFlag (exists? : Bool) (argv : List ByteString) : Bool × Reply :=
  if argv.head? = some (ascii "SET") then
    (true, .status (ascii "OK"))
  else
    (exists?, .integer (if exists? then 1 else 0))

theorem sendable_serveFlag (exists? : Bool) (argv : List ByteString) :
    Sendable maxLevels (serveFlag exists? argv).2 := by
  rw [serveFlag]
  split
  · exact .status (by decide)
  · cases exists?
    · exact .integer (by decide)
    · exact .integer (by decide)

/-- The second command is written while the reply to the first one arrives. -/
def setThenExists : List PipelineLabel :=
  [.command { fn := some 1, privdata := 0 } [ascii "SET", ascii "k", ascii "v"],
    .command { fn := some 2, privdata := 0 } [ascii "EXISTS", ascii "k"],
    .client (.writable .connected (.wrote 30)),
    .execute [ascii "SET", ascii "k", ascii "v"],
    .client (.readable .connected (.bytes (ascii "+O"))),
    .client (.next 0),
    .client (.writable .connected (.wrote 20)),
    .execute [ascii "EXISTS", ascii "k"],
    .client (.readable .connected (.bytes (ascii "K\r\n:1\r\n"))),
    .client (.next 0), .client .returns, .client (.next 0), .client .returns,
    .client (.next 0)]

/-- The callbacks are called in the order of their commands, and each with the
reply to its own command; those that are left when the context is freed are
called with none. -/
theorem calls_answersTo
    (sendable : ∀ database argv, Sendable maxLevels (serve database argv).2)
    {labels : List PipelineLabel} (issues : ∀ label ∈ labels, Issues label)
    (inBounds : AllSteps (step serve) InBounds (start database) labels)
    {final : Pipeline Database}
    (ran : run (step serve) (start database) labels = some final) :
    ∃ answers nulls,
      answers <+: answersTo serve database final.commands ∧
        final.context.calls =
          AsyncContext.callsFor final.callbacks
            (AsyncContext.resultsOf answers nulls) ∧
        (final.context.phase ≠ .freeing → final.context.phase ≠ .callingNull →
          final.context.phase ≠ .freed → nulls = 0) ∧
        (final.context.phase = .freed →
          answers.length + nulls = final.issued.length) := by
  have aligned := aligned_run sendable issues inBounds ran
  obtain ⟨answers, nulls, sound⟩ := aligned.sound
  refine ⟨answers, nulls, ?_, ?_, ?_, ?_⟩
  · obtain ⟨others, whole⟩ := aligned.executed
    rw [← whole, answersTo_append, ← aligned.replied]
    exact sound.answered.trans (List.prefix_append _ _)
  · rw [← aligned.callbacks]
    exact sound.calls
  · intro notFreeing notCalling notFreed
    apply sound.untilClosed
    cases phase : final.context.phase with
    | freeing => exact (notFreeing phase).elim
    | callingNull => exact (notCalling phase).elim
    | freed => exact (notFreed phase).elim
    | idle => simp [AsyncContext.open?, phase]
    | processing cb => simp [AsyncContext.open?, phase]
    | calling cb reply => simp [AsyncContext.open?, phase]
    | aborted => simp [AsyncContext.open?, phase]
  · intro freed
    have queue := sound.queue
    rw [sound.emptied freed, aligned.callbacks] at queue
    simpa [AsyncContext.resultsOf, Pipeline.callbacks] using queue.complete

theorem calls_answersTo_setThenExists :
    ∃ (final : Pipeline Bool) (answers : List Reply) (nulls : Nat),
      answers <+: answersTo serveFlag false final.commands ∧
        final.context.calls =
          AsyncContext.callsFor final.callbacks
            (AsyncContext.resultsOf answers nulls) ∧
        (final.context.phase ≠ .freeing → final.context.phase ≠ .callingNull →
          final.context.phase ≠ .freed → nulls = 0) ∧
        (final.context.phase = .freed →
          answers.length + nulls = final.issued.length) := by
  have runs : (run (step serveFlag) (start false) setThenExists).isSome := by
    decide +kernel
  obtain ⟨final, ran⟩ := Option.isSome_iff_exists.mp runs
  exact ⟨final, calls_answersTo sendable_serveFlag (by decide +kernel)
    (by decide +kernel) ran⟩

/-- When all that was written has arrived, nobody waits for a reply. -/
theorem calls_of_quiescent
    (sendable : ∀ database argv, Sendable maxLevels (serve database argv).2)
    {labels : List PipelineLabel} (issues : ∀ label ∈ labels, Issues label)
    (inBounds : AllSteps (step serve) InBounds (start database) labels)
    {final : Pipeline Database}
    (ran : run (step serve) (start database) labels = some final)
    (idle : final.context.phase = .idle) (written : final.context.obuf = [])
    (executed : final.toServer = []) (received : final.toClient = []) :
    final.context.calls =
        AsyncContext.callsFor final.callbacks
          ((answersTo serve database final.commands).map some) ∧
      final.database = databaseAfter serve database final.commands ∧
      final.context.replies = [] := by
  have aligned := aligned_run sendable issues inBounds ran
  obtain ⟨answers, nulls, sound⟩ := aligned.sound
  have all : final.executed = final.commands := by
    apply Resp.parse_undoes.flatMap_injective Resp.redisFormatCommand_ne_nil
    calc
      final.executed.flatMap RedisCommand.redisFormatCommand =
          final.executed.flatMap RedisCommand.redisFormatCommand ++
            final.toServer := by
        rw [executed, List.append_nil]
      _ = final.context.written := (List.prefix_append_drop aligned.consumed).symm
      _ = final.context.written ++ final.context.obuf := by
        rw [written, List.append_nil]
      _ = final.commands.flatMap RedisCommand.redisFormatCommand :=
        sound.output.trans aligned.commands
  have whole : final.context.received = Reply.encodeAll final.replied := by
    have rest := List.prefix_append_drop aligned.received
    rw [rest]
    exact (List.append_nil _).symm.trans (congrArg _ received.symm)
  have reader := sound.reader
  rw [idle] at reader
  obtain ⟨old, cursor, _, complete⟩ := reader
  rw [whole, encodeAll_eq_stream, arrived_length_stream, aligned.replied,
    all] at complete
  have noNulls : nulls = 0 :=
    sound.untilClosed (by simp [AsyncContext.open?, idle])
  subst noNulls complete
  have results : AsyncContext.resultsOf (answersTo serve database final.commands)
      0 = (answersTo serve database final.commands).map some := List.append_nil _
  refine ⟨?_, all ▸ aligned.database, ?_⟩
  · rw [← aligned.callbacks, ← results]
    exact sound.calls
  · obtain ⟨front, requests, counted⟩ := sound.queue
    rw [results, List.length_map, length_answersTo] at counted
    have lengths := congrArg List.length requests
    rw [aligned.callbacks, List.length_append, counted, Pipeline.callbacks,
      Pipeline.commands, List.length_map, List.length_map] at lengths
    exact List.eq_nil_of_length_eq_zero (by omega)

theorem calls_of_quiescent_setThenExists :
    ∃ final : Pipeline Bool,
      final.context.calls =
          AsyncContext.callsFor final.callbacks
            ((answersTo serveFlag false final.commands).map some) ∧
        final.database = databaseAfter serveFlag false final.commands ∧
        final.context.replies = [] := by
  have runs : (run (step serveFlag) (start false) setThenExists).map
      (fun final => (final.context.phase, final.context.obuf, final.toServer,
        final.toClient)) = some (.idle, [], [], []) := by
    decide +kernel
  obtain ⟨final, ran, quiescent⟩ := Option.map_eq_some_iff.mp runs
  simp only [Prod.mk.injEq] at quiescent
  obtain ⟨idle, written, executed, received⟩ := quiescent
  exact ⟨final, calls_of_quiescent sendable_serveFlag (by decide +kernel)
    (by decide +kernel) ran idle written executed received⟩

/-- No assertion fails, no reply is read or freed that is not there, and no
reply comes that nobody has asked for. -/
theorem phase_ne_aborted
    (sendable : ∀ database argv, Sendable maxLevels (serve database argv).2)
    {labels : List PipelineLabel} (issues : ∀ label ∈ labels, Issues label)
    (inBounds : AllSteps (step serve) InBounds (start database) labels)
    {final : Pipeline Database}
    (ran : run (step serve) (start database) labels = some final) :
    final.context.phase ≠ .aborted := by
  have aligned := aligned_run sendable issues inBounds ran
  obtain ⟨answers, nulls, sound⟩ := aligned.sound
  intro aborted
  have unsolicited := sound.aborted aborted
  have fewer := aligned.executed.length_le
  rw [aligned.callbacks, aligned.replied, length_answersTo, Pipeline.callbacks,
    List.length_map] at unsolicited
  rw [Pipeline.commands, List.length_map] at fewer
  omega

theorem phase_ne_aborted_setThenExists :
    ∃ final, run (step serveFlag) (start false) setThenExists = some final ∧
      final.context.phase ≠ .aborted := by
  have runs : (run (step serveFlag) (start false) setThenExists).isSome := by
    decide +kernel
  obtain ⟨final, ran⟩ := Option.isSome_iff_exists.mp runs
  exact ⟨final, ran,
    phase_ne_aborted sendable_serveFlag (by decide +kernel) (by decide +kernel)
      ran⟩

end Invariant

end Pipeline

end Hiredis

end DBWrapper
