import DBWrapper.Translib.TpktReads

/-!
# Junk in front of the frames

A pass that finds a wrong magic number removes one byte and goes on with the
length that it has read behind this byte.  If that length is more than what is
buffered, the loop is left, and the next byte is looked at when the next chunk
arrives; if not, that many bytes are taken for a frame.  So the receiver gets
over the junk only if every length it meets there is large enough, and if the
chunks do not end with the last byte of junk.
-/

namespace DBWrapper

namespace Translib

open Foundation

/-! ### Runs without a bound on the passes -/

/-- The chunks arrive one after the other, and every run of the loop is
left. -/
inductive Feeds : Reception → List (List UInt8) → Reception → Prop where
  | done {state : Reception} : Feeds state [] state
  | chunk {state next final : Reception} {chunk : List UInt8}
      {chunks : List (List UInt8)} :
      Ends onSessionReadPass
        { state with session := state.session.deliver chunk } next →
      Feeds next chunks final → Feeds state (chunk :: chunks) final

/-- In the end exactly these messages have been handed over, each with its own
frame. -/
def Delivers (messages : List (List UInt8)) (state : Reception)
    (chunks : List (List UInt8)) : Prop :=
  ∃ final, Feeds state chunks final ∧ final.reads = messages.map onReadOf

/-- The loop is at its beginning or between two passes, and the chunks are
still to come. -/
def DeliversFrom (messages : List (List UInt8)) (state : Reception)
    (chunks : List (List UInt8)) : Prop :=
  ∃ next, Ends onSessionReadPass state next ∧ Delivers messages next chunks

theorem feeds_of_receiveChunks
    {fuel : Nat} {state final : Reception} {chunks : List (List UInt8)}
    (received : receiveChunks fuel state chunks = some final) :
    Feeds state chunks final := by
  induction chunks generalizing state with
  | nil =>
      cases received
      exact .done
  | cons chunk chunks induction =>
      rw [receiveChunks] at received
      split at received
      · cases received
      · rename_i next returned
        exact .chunk (ends_of_iterate returned) (induction received)

theorem receiveChunks_of_feeds
    {state final : Reception} {chunks : List (List UInt8)}
    (feeds : Feeds state chunks final) :
    ∃ enough, ∀ fuel, enough ≤ fuel →
      receiveChunks fuel state chunks = some final := by
  induction feeds with
  | done => exact ⟨0, fun fuel _ => rfl⟩
  | chunk ends _ induction =>
      obtain ⟨enough, result⟩ := iterate_of_ends ends
      obtain ⟨more, rest⟩ := induction
      refine ⟨max enough more, ?_⟩
      intro fuel bound
      have passed := result fuel (by omega)
      rw [receiveChunks, onSessionRead, passed]
      exact rest fuel (by omega)

theorem delivers_iff
    {messages chunks : List (List UInt8)} {state : Reception} :
    (∃ final enough, (∀ fuel, enough ≤ fuel →
        receiveChunks fuel state chunks = some final) ∧
      final.reads = messages.map onReadOf) ↔
      Delivers messages state chunks := by
  constructor
  · intro received
    obtain ⟨final, enough, result, reads⟩ := received
    have ran := result enough (Nat.le_refl enough)
    exact ⟨final, feeds_of_receiveChunks ran, reads⟩
  · intro delivers
    obtain ⟨final, feeds, reads⟩ := delivers
    obtain ⟨enough, result⟩ := receiveChunks_of_feeds feeds
    exact ⟨final, enough, result, reads⟩

theorem delivers_nil
    {messages : List (List UInt8)} {state : Reception} :
    Delivers messages state [] ↔ state.reads = messages.map onReadOf := by
  constructor
  · intro delivers
    obtain ⟨final, feeds, reads⟩ := delivers
    cases feeds
    exact reads
  · intro reads
    exact ⟨state, .done, reads⟩

theorem delivers_cons
    {messages chunks : List (List UInt8)} {state : Reception}
    {chunk : List UInt8} :
    Delivers messages state (chunk :: chunks) ↔
      DeliversFrom messages
        { state with session := state.session.deliver chunk } chunks := by
  constructor
  · intro delivers
    obtain ⟨final, feeds, reads⟩ := delivers
    cases feeds with
    | chunk ends later => exact ⟨_, ends, final, later, reads⟩
  · intro delivers
    obtain ⟨next, ends, final, feeds, reads⟩ := delivers
    exact ⟨final, .chunk ends feeds, reads⟩

/-- It does not matter which passes of the loop have been made. -/
theorem deliversFrom_of_ends
    {messages chunks : List (List UInt8)} {state next : Reception}
    (ends : Ends onSessionReadPass state next) :
    DeliversFrom messages state chunks ↔ Delivers messages next chunks := by
  constructor
  · intro delivers
    obtain ⟨other, otherEnds, rest⟩ := delivers
    rw [ends.unique otherEnds]
    exact rest
  · intro delivers
    exact ⟨next, ends, delivers⟩

theorem deliversFrom_of_again
    {messages chunks : List (List UInt8)} {state next : Reception}
    (passed : onSessionReadPass state = .again next) :
    DeliversFrom messages state chunks ↔
      DeliversFrom messages next chunks := by
  constructor
  · intro delivers
    obtain ⟨final, ends, rest⟩ := delivers
    cases ends with
    | leave left =>
        rw [passed] at left
        cases left
    | again continued later =>
        rw [passed] at continued
        cases continued
        exact ⟨final, later, rest⟩
  · intro delivers
    obtain ⟨final, ends, rest⟩ := delivers
    exact ⟨final, .again passed ends, rest⟩

/-! ### The calls that have been made stay -/

theorem reads_isPrefix_of_ends
    {state final : Reception} (ends : Ends onSessionReadPass state final) :
    state.reads <+: final.reads := by
  induction ends with
  | leave left => rw [reads_of_leave left]
  | again passed _ induction =>
      obtain ⟨call, reads, _⟩ := sound_iff_of_again passed
      rw [reads] at induction
      exact (List.prefix_append _ _).trans induction

theorem Feeds.reads_isPrefix
    {state final : Reception} {chunks : List (List UInt8)}
    (feeds : Feeds state chunks final) : state.reads <+: final.reads := by
  induction feeds with
  | done => exact List.prefix_refl _
  | chunk ends _ induction =>
      exact (reads_isPrefix_of_ends ends).trans induction

theorem DeliversFrom.reads_isPrefix
    {messages chunks : List (List UInt8)} {state : Reception}
    (delivers : DeliversFrom messages state chunks) :
    state.reads <+: messages.map onReadOf := by
  obtain ⟨next, ends, final, feeds, reads⟩ := delivers
  rw [← reads]
  exact (reads_isPrefix_of_ends ends).trans feeds.reads_isPrefix

/-! ### The loop on a beginning of the frames -/

/-- A frame that is there as a whole is taken for one in the air where the
length of the buffer does not fit into its type. -/
theorem onSessionReadPass_overflow
    {state : Reception} {message back : List UInt8}
    (framable : Framable message)
    (input : state.session.HasInput (tpktFrame message ++ back))
    (inTheAir : ¬ message.length + 4 ≤
      (UInt32.ofNat (tpktFrame message ++ back).length).toNat) :
    onSessionReadPass state = .leave state := by
  obtain ⟨high, middle, low, frame, value⟩ := framable.exists_header
  rw [← input.getInputBufferLength] at inTheAir
  by_cases noData : state.session.getInputBufferLength < 1
  · exact onSessionReadPass_idle input (.inl noData)
  · rw [frame] at input
    apply onSessionReadPass_inTheAir input noData
    rw [gt_iff_lt, UInt32.lt_iff_toNat_lt, value]
    exact Nat.not_le.mp inTheAir

/-- The first of the messages that are left is not there as a whole. -/
def InFirstFrame (left : List (List UInt8)) (rest : List UInt8) : Prop :=
  ∀ message later, left = message :: later →
    rest.length < (tpktFrame message).length

theorem InFirstFrame.pending_eq
    {left : List (List UInt8)} {rest : List UInt8}
    (inFirst : InFirstFrame left rest) :
    pending tpktFrame left rest = rest := by
  cases left with
  | nil => rfl
  | cons message later =>
      exact pending_cons_of_short (inFirst message later rfl)

/-- A run of the loop on a beginning of the frames takes frames off it.  It
takes all of them if the length of the buffer fits into its type, and if not,
it leaves more than that type counts. -/
theorem ends_of_isPrefix
    {messages : List (List UInt8)} {state : Reception} {buffer : List UInt8}
    (framable : ∀ message ∈ messages, Framable message)
    (input : state.session.HasInput buffer)
    (isPrefix : buffer <+: stream tpktFrame messages) :
    ∃ taken left rest session, messages = taken ++ left ∧
      buffer = stream tpktFrame taken ++ rest ∧
      session.HasInput rest ∧
      Ends onSessionReadPass state
        { session, reads := state.reads ++ taken.map onReadOf } ∧
      (buffer.length < 2 ^ 32 → InFirstFrame left rest) ∧
      (2 ^ 32 ≤ buffer.length → 2 ^ 32 ≤ rest.length) := by
  induction messages generalizing state buffer with
  | nil =>
      have empty : buffer = [] := by simpa using isPrefix
      subst empty
      have left := onSessionReadPass_incomplete
        (.inl rfl : Incomplete tpktFrame Framable []) input
      refine ⟨[], [], [], state.session, rfl, rfl, input, ?_, ?_, id⟩
      · simpa using Ends.leave left
      · intro _ message later none
        cases none
  | cons message messages induction =>
      have headFramable := framable message List.mem_cons_self
      have stays : onSessionReadPass state = .leave state →
          Ends onSessionReadPass state
            { session := state.session
              reads :=
                state.reads ++ ([] : List (List UInt8)).map onReadOf } := by
        intro left
        simpa using Ends.leave left
      rcases prefix_stream_cons_cases isPrefix with
        ⟨back, rfl, backPrefix⟩ | ⟨inFrame, short⟩
      · by_cases whole : message.length + 4 ≤
            (UInt32.ofNat (tpktFrame message ++ back).length).toNat
        · obtain ⟨session, after, passed⟩ :=
            onSessionReadPass_frame headFramable input whole
          obtain ⟨taken, left, rest, last, rfl, rfl, lastInput, ends, fits,
            many⟩ :=
            @induction { session, reads := state.reads ++ [onReadOf message] }
              _ (fun other listed =>
                framable other (List.mem_cons_of_mem _ listed))
              after backPrefix
          refine ⟨message :: taken, left, rest, last, rfl, ?_, lastInput, ?_,
            ?_, ?_⟩
          · rw [stream_cons, List.append_assoc]
          · apply Ends.again passed
            simpa using ends
          · intro below
            apply fits
            rw [List.length_append] at below
            omega
          · intro above
            apply many
            rw [UInt32.toNat_ofNat'] at whole
            rw [List.length_append, length_tpktFrame] at above whole
            omega
        · have left := onSessionReadPass_overflow headFramable input whole
          refine ⟨[], message :: messages, _, state.session, rfl, rfl, input,
            stays left, ?_, id⟩
          intro below
          exact (whole (whole_of_below below)).elim
      · have left := onSessionReadPass_incomplete
          (.inr ⟨message, headFramable, inFrame, short⟩) input
        refine ⟨[], message :: messages, buffer, state.session, rfl, rfl,
          input, stays left, ?_, id⟩
        intro _ other later same
        obtain ⟨rfl, rfl⟩ := List.cons.inj same
        exact short

theorem reads_eq_iff {taken more others : List (List UInt8)} :
    taken.map onReadOf ++ more.map onReadOf =
        (taken ++ (more ++ others)).map onReadOf ↔ others = [] := by
  rw [← List.append_assoc, List.map_append, List.map_append,
    List.self_eq_append_right, List.map_eq_nil_iff]

/-- `received` is what has arrived of the frames.  Whenever the loop is
entered, the length of the buffer fits into its type. -/
def Flows (messages : List (List UInt8)) :
    List UInt8 → List UInt8 → List (List UInt8) → Prop
  | _, buffer, [] => buffer.length < 2 ^ 32
  | received, buffer, chunk :: chunks =>
      buffer.length < 2 ^ 32 ∧
        Flows messages (received ++ chunk)
          (pending tpktFrame messages received ++ chunk) chunks

theorem Flows.length_lt
    {messages chunks : List (List UInt8)} {received buffer : List UInt8}
    (flows : Flows messages received buffer chunks) :
    buffer.length < 2 ^ 32 := by
  cases chunks with
  | nil => exact flows
  | cons chunk chunks => exact flows.1

/-- Behind the junk everything that follows is delivered exactly if the length
of the buffer always fits into its type. -/
theorem deliversFrom_iff_flows
    {messages taken left chunks : List (List UInt8)} {state : Reception}
    {received buffer : List UInt8}
    (framable : ∀ message ∈ messages, Framable message)
    (whole : messages = taken ++ left)
    (got : received = stream tpktFrame taken ++ buffer)
    (toCome : buffer ++ chunks.flatten = stream tpktFrame left)
    (input : state.session.HasInput buffer)
    (reads : state.reads = taken.map onReadOf) :
    DeliversFrom messages state chunks ↔
      Flows messages received buffer chunks := by
  induction chunks generalizing taken left state received buffer with
  | nil =>
      obtain ⟨more, others, rest, session, rfl, rfl, _, ends, fits, many⟩ :=
        ends_of_isPrefix
          (fun message listed => framable message
            (by rw [whole]; exact List.mem_append_right _ listed))
          input (by rw [← toCome]; exact List.prefix_append _ _)
      rw [List.flatten_nil, List.append_nil, stream_append,
        List.append_cancel_left_eq] at toCome
      rw [deliversFrom_of_ends ends, delivers_nil, reads, whole, Flows,
        reads_eq_iff]
      constructor
      · intro none
        subst none
        by_contra above
        have rest := many (Nat.not_lt.mp above)
        rw [toCome] at rest
        exact absurd rest (by decide)
      · intro below
        have inFirst := fits below
        rw [toCome] at inFirst
        cases others with
        | nil => rfl
        | cons message later =>
            have short := inFirst message later rfl
            rw [stream_cons, List.length_append] at short
            omega
  | cons chunk chunks induction =>
      obtain ⟨more, others, rest, session, rfl, rfl, after, ends, fits,
        many⟩ :=
        ends_of_isPrefix
          (fun message listed => framable message
            (by rw [whole]; exact List.mem_append_right _ listed))
          input (by rw [← toCome]; exact List.prefix_append _ _)
      rw [List.flatten_cons, stream_append, List.append_assoc,
        List.append_cancel_left_eq, ← List.append_assoc] at toCome
      rw [← List.append_assoc] at whole
      have gotAll : received = stream tpktFrame (taken ++ more) ++ rest := by
        rw [got, stream_append, List.append_assoc]
      have later : DeliversFrom messages
            { session := session.deliver chunk
              reads := (taken ++ more).map onReadOf } chunks ↔
          Flows messages (received ++ chunk) (rest ++ chunk) chunks := by
        apply induction whole _ toCome (after.deliver chunk) rfl
        rw [gotAll, List.append_assoc]
      rw [deliversFrom_of_ends ends, delivers_cons, reads, ← List.map_append,
        later, Flows]
      constructor
      · intro flows
        have below := flows.length_lt
        have fitted : (stream tpktFrame more ++ rest).length < 2 ^ 32 := by
          by_contra above
          have rest := many (Nat.not_lt.mp above)
          rw [List.length_append] at below
          omega
        rw [whole, gotAll, pending_append, (fits fitted).pending_eq]
        rw [whole, gotAll] at flows
        exact ⟨fitted, flows⟩
      · intro flows
        obtain ⟨fitted, flows⟩ := flows
        rw [whole, gotAll, pending_append, (fits fitted).pending_eq] at flows
        rw [whole, gotAll]
        exact flows

/-! ### The junk -/

/-- What gets the receiver over the junk.  `junk` is what is left of it, and
`buffer` begins with it. -/
def Resyncs (messages : List (List UInt8)) :
    List UInt8 → List UInt8 → List (List UInt8) → Prop
  | _, _, [] => messages = []
  | [], buffer, chunk :: chunks =>
      Flows messages (buffer ++ chunk) (buffer ++ chunk) chunks
  | lost :: junk, buffer, chunk :: chunks =>
      match buffer ++ chunk with
      | first :: high :: middle :: low :: rest =>
          if UInt32.ofNat (rest.length + 4) < 1 then
            Resyncs messages (lost :: junk)
              (first :: high :: middle :: low :: rest) chunks
          else if tpktPacketLength high middle low >
              UInt32.ofNat (rest.length + 4) then
            -- one byte is dropped, and the loop is left
            Resyncs messages junk (high :: middle :: low :: rest) chunks
          else
            -- what is taken happens to be the first frame
            junk = [] ∧ ∃ message later, messages = message :: later ∧
              (tpktPacketLength high middle low).toNat =
                message.length + 4 ∧
              message.length + 4 ≤ rest.length + 3 ∧
              Flows messages (high :: middle :: low :: rest)
                ((high :: middle :: low :: rest).drop (message.length + 4))
                chunks
      | short => Resyncs messages (lost :: junk) short chunks

/-- A byte is dropped, and what follows it seems to be in the air. -/
theorem onSessionReadPass_lost
    {state : Reception} {first high middle low : UInt8} {rest : List UInt8}
    (input : state.session.HasInput (first :: high :: middle :: low :: rest))
    (lost : first ≠ tpktVersion1LowByte)
    (hasData : ¬ UInt32.ofNat (rest.length + 4) < 1)
    (inTheAir : tpktPacketLength high middle low >
      UInt32.ofNat (rest.length + 4)) :
    ∃ session : TcpSocket, session.HasInput (high :: middle :: low :: rest) ∧
      onSessionReadPass state = .leave { state with session } := by
  have length : state.session.getInputBufferLength =
      UInt32.ofNat (rest.length + 4) := input.getInputBufferLength
  rw [← length] at hasData inTheAir
  obtain ⟨dropped, _, _, after, _, passed⟩ :=
    onSessionReadPass_header input hasData
  rw [if_pos inTheAir] at passed
  refine ⟨dropped, ?_, passed⟩
  simpa [skipped, lost] using after

/-- What is taken behind a byte of junk is the first frame only if no junk is
left and its length is the one that was read. -/
theorem call_eq_onReadOf_iff
    {junk bytes toCome message : List UInt8} {later : List (List UInt8)}
    {packetLength : UInt32} (framable : Framable message)
    (noVersion : tpktVersion1LowByte ∉ junk)
    (behind : bytes ++ toCome =
      junk ++ stream tpktFrame (message :: later)) :
    ({ packetLength, filled := bytes.take packetLength.toNat,
       len := packetLength - tpkt1Length } : OnRead) = onReadOf message ↔
      junk = [] ∧ packetLength.toNat = message.length + 4 ∧
        message.length + 4 ≤ bytes.length := by
  have short := framable.length_lt
  have fits : (UInt32.ofNat (message.length + 4)).toNat =
      message.length + 4 := by
    apply UInt32.toNat_ofNat_of_lt'
    simp only [UInt32.size]
    omega
  constructor
  · intro same
    have value := congrArg (fun call => call.packetLength.toNat) same
    have filled := congrArg OnRead.filled same
    simp only [onReadOf, fits] at value filled
    rw [value] at filled
    have there : message.length + 4 ≤ bytes.length := by
      have lengths := congrArg List.length filled
      rw [List.length_take, length_tpktFrame] at lengths
      omega
    refine ⟨?_, value, there⟩
    cases junk with
    | nil => rfl
    | cons lost junk =>
        obtain ⟨high, middle, low, frame, _⟩ := framable.exists_header
        cases bytes with
        | nil => simp at there
        | cons byte bytes =>
            obtain ⟨rfl, _⟩ := List.cons.inj behind
            rw [frame, List.take_succ_cons] at filled
            obtain ⟨isVersion, _⟩ := List.cons.inj filled
            rw [isVersion] at noVersion
            exact (noVersion List.mem_cons_self).elim
  · intro holds
    obtain ⟨rfl, value, there⟩ := holds
    have frame : bytes.take (message.length + 4) = tpktFrame message := by
      have taken := congrArg (List.take (message.length + 4)) behind
      rw [List.take_append_of_le_length there, List.nil_append, stream_cons,
        ← length_tpktFrame, List.take_left] at taken
      rw [← length_tpktFrame]
      exact taken
    have same : packetLength = UInt32.ofNat (message.length + 4) := by
      rw [← value, UInt32.ofNat_toNat]
    rw [value, frame, onReadOf, same, UInt32.ofNat_add]
    simp [tpkt1Length]

/-- What a pass does that finds its length in the buffer. -/
theorem deliversFrom_of_taken
    {messages chunks : List (List UInt8)} {junk : List UInt8}
    {state : Reception} {first high middle low : UInt8} {rest : List UInt8}
    (framable : ∀ message ∈ messages, Framable message)
    (noVersion : tpktVersion1LowByte ∉ junk)
    (behind : high :: middle :: low :: rest ++ chunks.flatten =
      junk ++ stream tpktFrame messages)
    (lost : first ≠ tpktVersion1LowByte)
    (input : state.session.HasInput (first :: high :: middle :: low :: rest))
    (fresh : state.reads = [])
    (hasData : ¬ UInt32.ofNat (rest.length + 4) < 1)
    (complete : ¬ tpktPacketLength high middle low >
      UInt32.ofNat (rest.length + 4)) :
    DeliversFrom messages state chunks ↔
      junk = [] ∧ ∃ message later, messages = message :: later ∧
        (tpktPacketLength high middle low).toNat = message.length + 4 ∧
        message.length + 4 ≤ rest.length + 3 ∧
        Flows messages (high :: middle :: low :: rest)
          ((high :: middle :: low :: rest).drop (message.length + 4))
          chunks := by
  have length : state.session.getInputBufferLength =
      UInt32.ofNat (rest.length + 4) := input.getInputBufferLength
  rw [← length] at hasData complete
  obtain ⟨next, passed⟩ :=
    (onSessionReadPass_of_header input hasData).mpr complete
  obtain ⟨_, _, _, _, _, same, _, after, reads⟩ :=
    onSessionReadPass_again input passed
  simp only [List.cons.injEq] at same
  obtain ⟨rfl, rfl, rfl, rfl, rfl⟩ := same
  simp only [skipped, if_pos lost, fresh, List.nil_append, Nat.add_comm 1,
    List.drop_succ_cons, List.drop_zero] at after reads
  rw [deliversFrom_of_again passed]
  have restOfFrames : ∀ {message later}, messages = message :: later →
      junk = [] → (tpktPacketLength high middle low).toNat =
          message.length + 4 →
        message.length + 4 ≤ rest.length + 3 →
          (DeliversFrom messages next chunks ↔
            Flows messages (high :: middle :: low :: rest)
              ((high :: middle :: low :: rest).drop (message.length + 4))
              chunks) := by
    intro message later isFirst noJunk value there
    subst isFirst
    have call := (call_eq_onReadOf_iff
      (framable message List.mem_cons_self) noVersion behind).mpr
        ⟨noJunk, value, there⟩
    have frame := congrArg OnRead.filled call
    simp only [onReadOf, value] at frame
    have bytes := List.take_append_drop (message.length + 4)
      (high :: middle :: low :: rest)
    rw [frame] at bytes
    rw [call] at reads
    rw [value] at after
    have split : message :: later = [message] ++ later := rfl
    apply deliversFrom_iff_flows framable split _ _ after reads
    · simpa using bytes.symm
    · rw [← bytes, noJunk, List.nil_append, stream_cons, List.append_assoc,
        List.append_cancel_left_eq] at behind
      exact behind
  constructor
  · intro delivers
    have first := delivers.reads_isPrefix
    rw [reads] at first
    cases messages with
    | nil => simp at first
    | cons message later =>
        rw [List.map_cons, List.cons_prefix_cons] at first
        obtain ⟨noJunk, value, there⟩ := (call_eq_onReadOf_iff
          (framable message List.mem_cons_self) noVersion behind).mp first.1
        exact ⟨noJunk, message, later, rfl, value, there,
          (restOfFrames rfl noJunk value there).mp delivers⟩
  · intro holds
    obtain ⟨noJunk, message, later, isFirst, value, there, flows⟩ := holds
    exact (restOfFrames isFirst noJunk value there).mpr flows

/-- In every state of the junk: the messages are delivered exactly if the
receiver gets over what is left of it. -/
theorem delivers_iff_resyncs
    {messages chunks : List (List UInt8)} {junk buffer : List UInt8}
    {state : Reception}
    (framable : ∀ message ∈ messages, Framable message)
    (noVersion : tpktVersion1LowByte ∉ junk)
    (whole : buffer ++ chunks.flatten = junk ++ stream tpktFrame messages)
    (input : state.session.HasInput buffer) (fresh : state.reads = []) :
    Delivers messages state chunks ↔ Resyncs messages junk buffer chunks := by
  induction chunks generalizing junk buffer state with
  | nil => rw [delivers_nil, fresh, Resyncs, eq_comm, List.map_eq_nil_iff]
  | cons chunk chunks induction =>
      obtain ⟨next, isNext, delivered, unread⟩ : ∃ next : Reception,
          { state with session := state.session.deliver chunk } = next ∧
            next.session.HasInput (buffer ++ chunk) ∧ next.reads = [] :=
        ⟨_, rfl, input.deliver chunk, fresh⟩
      rw [List.flatten_cons, ← List.append_assoc] at whole
      rw [delivers_cons, isNext]
      cases junk with
      | nil =>
          rw [Resyncs]
          have noneTaken : messages = [] ++ messages := rfl
          exact deliversFrom_iff_flows framable noneTaken rfl whole delivered
            unread
      | cons lost junk =>
          simp only [Resyncs]
          generalize buffer ++ chunk = bytes at whole delivered ⊢
          have idle : UInt32.ofNat bytes.length < 1 ∨ bytes.length < 4 →
              (DeliversFrom messages next chunks ↔
                Resyncs messages (lost :: junk) bytes chunks) := by
            intro quiet
            rw [← delivered.getInputBufferLength] at quiet
            rw [deliversFrom_of_ends
              (.leave (onSessionReadPass_idle delivered quiet))]
            exact induction noVersion whole delivered unread
          rcases bytes with
            _ | ⟨first, _ | ⟨high, _ | ⟨middle, _ | ⟨low, rest⟩⟩⟩⟩
          · exact idle (.inr (by simp))
          · exact idle (.inr (by simp))
          · exact idle (.inr (by simp))
          · exact idle (.inr (by simp))
          · obtain ⟨isLost, behind⟩ := List.cons.inj whole
            subst isLost
            have notVersion : first ≠ tpktVersion1LowByte := by
              intro isVersion
              rw [isVersion] at noVersion
              exact noVersion List.mem_cons_self
            have noneLeft : tpktVersion1LowByte ∉ junk :=
              fun listed => noVersion (List.mem_cons_of_mem _ listed)
            simp only
            split
            · rename_i noData
              exact idle (.inl noData)
            · rename_i hasData
              split
              · rename_i inTheAir
                obtain ⟨session, after, left⟩ := onSessionReadPass_lost
                  delivered notVersion hasData inTheAir
                rw [deliversFrom_of_ends (.leave left)]
                exact induction noneLeft behind after unread
              · rename_i complete
                exact deliversFrom_of_taken framable noneLeft behind
                  notVersion delivered unread hasData complete

/-- The receiver gets over junk without the version byte, and hands over
exactly the messages behind it, exactly if no length that it reads behind a
byte of junk is found in the buffer and a chunk arrives when the junk is
gone. -/
theorem onSessionRead_resyncs_iff
    {junk : List UInt8} {messages chunks : List (List UInt8)}
    {session : TcpSocket} (noVersion : tpktVersion1LowByte ∉ junk)
    (framable : ∀ message ∈ messages, Framable message)
    (cut : chunks.flatten = junk ++ sentBytes messages)
    (fresh : session.HasInput []) :
    (∃ final enough, (∀ fuel, enough ≤ fuel →
        receiveChunks fuel { session, reads := [] } chunks = some final) ∧
      final.reads = messages.map onReadOf) ↔
      Resyncs messages junk [] chunks := by
  rw [delivers_iff]
  rw [sentBytes_eq_stream framable] at cut
  exact delivers_iff_resyncs framable noVersion cut fresh rfl

/-- The two bytes of junk are followed by large numbers, and the chunks go on
when they are gone. -/
theorem onSessionRead_resyncs_iff_fourChunks :
    ∃ final enough, (∀ fuel, enough ≤ fuel →
        receiveChunks fuel { session := openSocket, reads := [] }
          [[7], [9, 1, 0], [0], [5, 5]] = some final) ∧
      final.reads = [[5]].map onReadOf := by
  apply (onSessionRead_resyncs_iff (show tpktVersion1LowByte ∉ [7, 9] by decide)
    (show ∀ message ∈ [[5]], Framable message by decide) (by decide)
    ⟨_, rfl, rfl⟩).mpr
  have below : ([1, 0, 0, 5, 5] : List UInt8).length < 2 ^ 32 := by decide
  exact below

/-- With one byte of junk and everything in one chunk, the frame stays in the
buffer.  And behind the 7 of 7 0 0 5 the receiver takes five bytes for a frame,
the beginning of the real one with them. -/
theorem onSessionRead_loses :
    (¬ ∃ final enough, (∀ fuel, enough ≤ fuel →
          receiveChunks fuel { session := openSocket, reads := [] }
            [[7, 1, 0, 0, 5, 5]] = some final) ∧
        final.reads = [[5]].map onReadOf) ∧
      ¬ ∃ final enough, (∀ fuel, enough ≤ fuel →
          receiveChunks fuel { session := openSocket, reads := [] }
            [[7, 0, 0, 5, 1, 0, 0, 5, 5]] = some final) ∧
        final.reads.map OnRead.message = [some [5]] := by
  constructor
  · intro received
    obtain ⟨final, enough, result, reads⟩ := received
    have ran := result (enough + 4) (Nat.le_add_right _ _)
    cases ran
    cases reads
  · intro received
    obtain ⟨final, enough, result, reads⟩ := received
    have ran := result (enough + 4) (Nat.le_add_right _ _)
    cases ran
    revert reads
    decide

end Translib

end DBWrapper
