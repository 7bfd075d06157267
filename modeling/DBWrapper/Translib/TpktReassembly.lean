import DBWrapper.Foundation.Reassembly
import DBWrapper.Translib.Tpkt

/-!
# TPKT frames survive any chunking

The abstract receiver of `Foundation.Reassembly` takes complete frames off its
buffer.  One pass of `onSessionRead` either does exactly that or leaves the
loop, so the loop refines `Drains`, and a session fed chunk by chunk refines
`Receives`.
-/

namespace DBWrapper

namespace Translib

open Foundation

/-- The bytes of one message on the wire. -/
def tpktFrame (message : List UInt8) : List UInt8 :=
  tpktHeader (UInt32.ofNat message.length) ++ message

/-- The message fits into one frame. -/
def Framable (message : List UInt8) : Prop :=
  message.length ≤ tpkt1MaxMsgLength - tpkt1Length.toNat

instance (message : List UInt8) : Decidable (Framable message) :=
  inferInstanceAs (Decidable (_ ≤ _))

/-- The call of `onRead` that hands over exactly this message. -/
def onReadOf (message : List UInt8) : OnRead :=
  { packetLength := UInt32.ofNat (message.length + 4)
    filled := tpktFrame message
    len := UInt32.ofNat message.length }

def openSocket : TcpSocket :=
  { bev :=
      some { input := [], output := [], writeEnabled := true, shutDown := false }
    isClosing := false }

/-- `sendWithTPKT` for one message after the other, every write accepted. -/
def sendAll : TcpSocket → List (List UInt8) → TcpSocket
  | session, [] => session
  | session, message :: messages =>
      sendAll
        (sendWithTPKT session message (UInt32.ofNat message.length)
          true true).2
        messages

/-- What a fresh session has written after sending the messages. -/
def sentBytes (messages : List (List UInt8)) : List UInt8 :=
  match (sendAll openSocket messages).bev with
  | none => []
  | some bev => bev.output

/-- In no run of the loop does the input buffer reach `bound` bytes. -/
def BufferBelow (bound : Nat) : Reception → List (List UInt8) → Prop
  | _, [] => True
  | state, chunk :: chunks =>
      (∀ bytes, (state.session.deliver chunk).HasInput bytes →
          bytes.length < bound) ∧
        ∀ fuel next,
          onSessionRead fuel
              { state with session := state.session.deliver chunk } =
            some next →
          BufferBelow bound next chunks

theorem Framable.length_lt {message : List UInt8} (framable : Framable message) :
    message.length + 4 < 2 ^ 24 := by
  simp only [Framable, tpkt1MaxMsgLength, tpkt1Length,
    UInt32.reduceToNat] at framable
  omega

theorem Framable.toNat_length {message : List UInt8}
    (framable : Framable message) :
    (UInt32.ofNat message.length).toNat = message.length := by
  have short := framable.length_lt
  exact UInt32.toNat_ofNat_of_lt' (by
    simp only [UInt32.size]
    omega)

theorem Framable.exists_header {message : List UInt8}
    (framable : Framable message) :
    ∃ high middle low,
      tpktFrame message = tpktVersion1LowByte :: high :: middle :: low :: message ∧
        (tpktPacketLength high middle low).toNat = message.length + 4 := by
  have short := framable.length_lt
  rw [← framable.toNat_length] at short
  obtain ⟨high, middle, low, header, value⟩ :=
    tpktPacketLength_tpktHeader short
  rw [framable.toNat_length] at value
  exact ⟨high, middle, low, by simp [tpktFrame, header], value⟩

@[simp] theorem length_tpktFrame (message : List UInt8) :
    (tpktFrame message).length = message.length + 4 := by
  simp [tpktFrame, tpktHeader]

theorem tpktFrame_ne_nil (message : List UInt8) : tpktFrame message ≠ [] := by
  intro empty
  have := congrArg List.length empty
  simp at this

theorem Framable.message_onReadOf {message : List UInt8}
    (framable : Framable message) :
    (onReadOf message).message = some message := by
  obtain ⟨high, middle, low, frame, _⟩ := framable.exists_header
  have inside :
      tpkt1Length.toNat + (onReadOf message).len.toNat ≤
        (onReadOf message).filled.length := by
    simp [onReadOf, tpkt1Length, framable.toNat_length]
    omega
  rw [OnRead.message, if_pos inside]
  simp [onReadOf, framable.toNat_length, frame, tpkt1Length]

section Sending

private theorem sendWithTPKT_accepted
    {bev : Bufferevent} {message : List UInt8}
    (framable : Framable message) :
    sendWithTPKT { bev := some bev, isClosing := false } message
        (UInt32.ofNat message.length) true true =
      (true,
        { bev := some { bev with output := bev.output ++ tpktFrame message }
          isClosing := false }) := by
  simp [sendWithTPKT, TcpSocket.send, tpktFrame, framable.toNat_length]

private theorem sendAll_accepted
    {bev : Bufferevent} {messages : List (List UInt8)}
    (framable : ∀ message, message ∈ messages → Framable message) :
    sendAll { bev := some bev, isClosing := false } messages =
      { bev := some
          { bev with output := bev.output ++ stream tpktFrame messages }
        isClosing := false } := by
  induction messages generalizing bev with
  | nil => simp [sendAll]
  | cons message messages induction =>
      have headFramable := framable message List.mem_cons_self
      have tailFramable : ∀ other, other ∈ messages → Framable other := by
        intro other member
        exact framable other (List.mem_cons_of_mem _ member)
      rw [sendAll, sendWithTPKT_accepted headFramable,
        induction tailFramable]
      simp

theorem sentBytes_eq_stream {messages : List (List UInt8)}
    (framable : ∀ message, message ∈ messages → Framable message) :
    sentBytes messages = stream tpktFrame messages := by
  simp only [sentBytes, openSocket]
  rw [sendAll_accepted framable]
  simp

end Sending

section Receiving

/-- How many bytes a pass removes in front of a header. -/
def skipped (first : UInt8) : Nat :=
  if first ≠ tpktVersion1LowByte then 1 else 0

@[simp] theorem skipped_version : skipped tpktVersion1LowByte = 0 := rfl

/-- The session after the test of the magic number. -/
theorem TcpSocket.HasInput.afterMagic
    {socket : TcpSocket} {bytes : List UInt8} (input : socket.HasInput bytes)
    (first : UInt8) :
    ∃ session : TcpSocket,
      (if first ≠ tpktVersion1LowByte then (socket.readInputBuffer 1).2.2
        else socket) = session ∧
        session.HasInput (bytes.drop (skipped first)) := by
  by_cases lost : first ≠ tpktVersion1LowByte
  · obtain ⟨session, after, read⟩ := input.readInputBuffer 1
    refine ⟨session, by rw [if_pos lost, read], ?_⟩
    simpa [skipped, lost] using after
  · refine ⟨socket, by rw [if_neg lost], ?_⟩
    simpa [skipped, lost] using input

theorem exists_header_of_length
    {bytes : List UInt8} (header : 4 ≤ bytes.length) :
    ∃ first high middle low rest,
      bytes = first :: high :: middle :: low :: rest := by
  rcases bytes with _ | ⟨first, _ | ⟨high, _ | ⟨middle, _ | ⟨low, rest⟩⟩⟩⟩
  · simp at header
  · simp at header
  · simp at header
  · simp at header
  · exact ⟨first, high, middle, low, rest, rfl⟩

/-- Without data, or without a whole header, the loop is left at once. -/
theorem onSessionReadPass_idle
    {state : Reception} {bytes : List UInt8}
    (input : state.session.HasInput bytes)
    (idle : state.session.getInputBufferLength < 1 ∨ bytes.length < 4) :
    onSessionReadPass state = .leave state := by
  simp only [onSessionReadPass]
  by_cases noData : state.session.getInputBufferLength < 1
  · rw [if_pos noData]
  · have noView : state.session.viewInputBuffer tpkt1Length = none := by
      rw [input.viewInputBuffer]
      apply if_neg
      exact Nat.not_le.mpr (idle.resolve_left noData)
    rw [if_neg noData, noView]

/-- What a pass does at a header.  The length in the header is compared with
that of the whole buffer, and read behind the byte that may have been
removed. -/
theorem onSessionReadPass_header
    {state : Reception} {first high middle low : UInt8} {rest : List UInt8}
    (input : state.session.HasInput (first :: high :: middle :: low :: rest))
    (hasData : ¬ state.session.getInputBufferLength < 1) :
    ∃ dropped last : TcpSocket,
      (first = tpktVersion1LowByte → dropped = state.session) ∧
      dropped.HasInput
        ((first :: high :: middle :: low :: rest).drop (skipped first)) ∧
      last.HasInput
        ((first :: high :: middle :: low :: rest).drop
          (skipped first + (tpktPacketLength high middle low).toNat)) ∧
      onSessionReadPass state =
        if tpktPacketLength high middle low >
            state.session.getInputBufferLength then
          .leave { state with session := dropped }
        else
          .again
            { session := last
              reads := state.reads ++
                [{ packetLength := tpktPacketLength high middle low
                   filled :=
                    ((first :: high :: middle :: low :: rest).drop
                      (skipped first)).take
                        (tpktPacketLength high middle low).toNat
                   len := tpktPacketLength high middle low - tpkt1Length }] }
      := by
  have view : state.session.viewInputBuffer tpkt1Length =
      some [first, high, middle, low] := by
    rw [input.viewInputBuffer]
    simp [evbufferPullup, tpkt1Length]
  obtain ⟨dropped, chosen, after⟩ := input.afterMagic first
  obtain ⟨last, lastInput, read⟩ :=
    after.readInputBuffer (tpktPacketLength high middle low)
  rw [List.drop_drop] at lastInput
  refine ⟨dropped, last, ?_, after, lastInput, ?_⟩
  · intro isVersion
    rw [← chosen, if_neg (not_not_intro isVersion)]
  · simp only [onSessionReadPass, if_neg hasData, view, List.getD_cons_zero,
      List.getD_cons_succ, chosen, read]

/-- A frame whose end is not found in the buffer stays there. -/
theorem onSessionReadPass_inTheAir
    {state : Reception} {high middle low : UInt8} {rest : List UInt8}
    (input : state.session.HasInput
      (tpktVersion1LowByte :: high :: middle :: low :: rest))
    (hasData : ¬ state.session.getInputBufferLength < 1)
    (inTheAir : tpktPacketLength high middle low >
      state.session.getInputBufferLength) :
    onSessionReadPass state = .leave state := by
  obtain ⟨dropped, _, unchanged, _, _, passed⟩ :=
    onSessionReadPass_header input hasData
  rw [passed, if_pos inTheAir, unchanged rfl]

/-- Below the end of its type the length of the buffer counts a whole frame. -/
theorem whole_of_below
    {message rest : List UInt8}
    (below : (tpktFrame message ++ rest).length < 2 ^ 32) :
    message.length + 4 ≤
      (UInt32.ofNat (tpktFrame message ++ rest).length).toNat := by
  rw [UInt32.toNat_ofNat_of_lt' below]
  simp

/-- A frame at the front of the buffer that is not found to be in the air is
removed and its message handed over. -/
theorem onSessionReadPass_frame
    {state : Reception} {message rest : List UInt8}
    (framable : Framable message)
    (input : state.session.HasInput (tpktFrame message ++ rest))
    (whole : message.length + 4 ≤
      (UInt32.ofNat (tpktFrame message ++ rest).length).toNat) :
    ∃ session, session.HasInput rest ∧
      onSessionReadPass state =
        .again { session, reads := state.reads ++ [onReadOf message] } := by
  obtain ⟨high, middle, low, frame, value⟩ := framable.exists_header
  rw [← input.getInputBufferLength] at whole
  have hasData : ¬ state.session.getInputBufferLength < 1 := by
    rw [UInt32.lt_iff_toNat_lt]
    simp only [UInt32.reduceToNat]
    omega
  have complete : ¬ tpktPacketLength high middle low >
      state.session.getInputBufferLength := by
    rw [gt_iff_lt, UInt32.lt_iff_toNat_lt, value]
    exact Nat.not_lt.mpr whole
  have packetLength :
      tpktPacketLength high middle low = UInt32.ofNat (message.length + 4) := by
    rw [← value, UInt32.ofNat_toNat]
  have len :
      tpktPacketLength high middle low - tpkt1Length =
        UInt32.ofNat message.length := by
    rw [packetLength, UInt32.ofNat_add]
    simp [tpkt1Length]
  have bytes : tpktFrame message ++ rest =
      tpktVersion1LowByte :: high :: middle :: low :: (message ++ rest) := by
    rw [frame]
    rfl
  have header := input
  rw [bytes] at header
  obtain ⟨_, session, _, _, after, passed⟩ :=
    onSessionReadPass_header header hasData
  rw [if_neg complete, len] at passed
  simp only [skipped_version, Nat.zero_add, List.drop_zero, value, ← bytes,
    ← length_tpktFrame, List.drop_left, List.take_left] at after passed
  refine ⟨session, after, ?_⟩
  rw [passed, packetLength, onReadOf]

/-- Part of a frame stays in the buffer, and the loop is left by one of its
three exits: no data, no whole header, or a body that is still in the air. -/
theorem onSessionReadPass_incomplete
    {state : Reception} {buffer : List UInt8}
    (incomplete : Incomplete tpktFrame Framable buffer)
    (input : state.session.HasInput buffer) :
    onSessionReadPass state = .leave state := by
  by_cases idle : state.session.getInputBufferLength < 1 ∨ buffer.length < 4
  · exact onSessionReadPass_idle input idle
  · obtain ⟨hasData, long⟩ := not_or.mp idle
    rcases incomplete with rfl | ⟨message, framable, isPrefix, short⟩
    · exact (long (by decide)).elim
    · have bound := framable.length_lt
      rw [length_tpktFrame] at short
      have length : state.session.getInputBufferLength.toNat =
          buffer.length := by
        rw [input.getInputBufferLength]
        apply UInt32.toNat_ofNat_of_lt'
        simp only [UInt32.size]
        omega
      obtain ⟨high, middle, low, frame, value⟩ := framable.exists_header
      obtain ⟨_, _, _, _, body, rfl⟩ :=
        exists_header_of_length (Nat.not_lt.mp long)
      obtain ⟨behind, whole⟩ := isPrefix
      simp only [frame, List.cons_append, List.cons.injEq] at whole
      obtain ⟨rfl, rfl, rfl, rfl, _⟩ := whole
      apply onSessionReadPass_inTheAir input hasData
      rw [gt_iff_lt, UInt32.lt_iff_toNat_lt, length, value]
      exact short

theorem ends_of_drains
    (state : Reception) {buffer final : List UInt8}
    {messages : List (List UInt8)}
    (drained : Drains tpktFrame Framable buffer messages final)
    (input : state.session.HasInput buffer)
    (below : buffer.length < 2 ^ 32) :
    ∃ session, session.HasInput final ∧
      Ends onSessionReadPass state
        { session, reads := state.reads ++ messages.map onReadOf } := by
  induction drained generalizing state with
  | stop incomplete =>
      refine ⟨state.session, input, ?_⟩
      have left := onSessionReadPass_incomplete incomplete input
      simpa using Ends.leave left
  | @frame message rest final messages framable _ induction =>
      obtain ⟨session, after, passed⟩ :=
        onSessionReadPass_frame framable input (whole_of_below below)
      have restBelow : rest.length < 2 ^ 32 := by
        rw [List.length_append] at below
        omega
      obtain ⟨last, lastInput, ends⟩ :=
        @induction { session, reads := state.reads ++ [onReadOf message] }
          after restBelow
      refine ⟨last, lastInput, .again passed ?_⟩
      simpa using ends

theorem receiveChunks_of_receives
    {state : Reception} {buffer final : List UInt8}
    {chunks messages : List (List UInt8)}
    (received : Receives tpktFrame Framable buffer chunks messages final)
    (input : state.session.HasInput buffer)
    (below : BufferBelow (2 ^ 32) state chunks) :
    ∃ session enough, session.HasInput final ∧
      ∀ fuel, enough ≤ fuel →
        receiveChunks fuel state chunks =
          some { session, reads := state.reads ++ messages.map onReadOf } := by
  induction received generalizing state with
  | done =>
      refine ⟨state.session, 0, input, ?_⟩
      intro fuel _
      simp [receiveChunks]
  | @chunk buffer chunk middle final chunks first later drained _ induction =>
      have delivered := input.deliver chunk
      obtain ⟨session, sessionInput, ends⟩ :=
        ends_of_drains
          { state with session := state.session.deliver chunk }
          drained delivered (below.1 _ delivered)
      obtain ⟨enough, result⟩ := iterate_of_ends ends
      have restBelow := below.2 enough _ (result enough (Nat.le_refl _))
      obtain ⟨last, more, lastInput, rest⟩ := induction sessionInput restBelow
      refine ⟨last, max enough more, lastInput, ?_⟩
      intro fuel bound
      have passed := result fuel (by omega)
      rw [receiveChunks, onSessionRead, passed]
      simpa using rest fuel (by omega)

end Receiving

theorem BufferBelow.of_append
    {bound : Nat} {state : Reception} {front back : List (List UInt8)}
    (below : BufferBelow bound state (front ++ back)) :
    BufferBelow bound state front := by
  induction front generalizing state with
  | nil => trivial
  | cons chunk front induction =>
      exact ⟨below.1, fun fuel next ran => induction (below.2 fuel next ran)⟩

/-- Whatever the bytes are, a pass only removes bytes from the front of the
input buffer. -/
theorem onSessionReadPass_suffix
    {state next : Reception} {bytes : List UInt8}
    (input : state.session.HasInput bytes)
    (passed : onSessionReadPass state = .again next ∨
      onSessionReadPass state = .leave next) :
    ∃ rest, next.session.HasInput rest ∧ rest <:+ bytes := by
  by_cases idle : state.session.getInputBufferLength < 1 ∨ bytes.length < 4
  · rw [onSessionReadPass_idle input idle] at passed
    rcases passed with again | leave
    · cases again
    · cases leave
      exact ⟨bytes, input, List.suffix_refl bytes⟩
  · obtain ⟨hasData, long⟩ := not_or.mp idle
    obtain ⟨_, _, _, _, _, rfl⟩ :=
      exists_header_of_length (Nat.not_lt.mp long)
    obtain ⟨dropped, last, _, after, lastInput, result⟩ :=
      onSessionReadPass_header input hasData
    rw [result] at passed
    split at passed
    · rcases passed with again | leave
      · cases again
      · cases leave
        exact ⟨_, after, List.drop_suffix _ _⟩
    · rcases passed with again | leave
      · cases again
        exact ⟨_, lastInput, List.drop_suffix _ _⟩
      · cases leave

theorem exists_input_of_ends
    {state final : Reception} {bytes : List UInt8}
    (ends : Ends onSessionReadPass state final)
    (input : state.session.HasInput bytes) :
    ∃ rest, final.session.HasInput rest ∧ rest <:+ bytes := by
  induction ends generalizing bytes with
  | leave left => exact onSessionReadPass_suffix input (.inr left)
  | again passed _ induction =>
      obtain ⟨middle, middleInput, middleSuffix⟩ :=
        onSessionReadPass_suffix input (.inl passed)
      obtain ⟨rest, restInput, restSuffix⟩ := induction middleInput
      exact ⟨rest, restInput, restSuffix.trans middleSuffix⟩

/-- The buffer cannot reach a bound that all the bytes together do not
reach. -/
theorem bufferBelow_of_length_lt
    {bound : Nat} {state : Reception} {bytes : List UInt8}
    {chunks : List (List UInt8)}
    (input : state.session.HasInput bytes)
    (total : (bytes ++ chunks.flatten).length < bound) :
    BufferBelow bound state chunks := by
  induction chunks generalizing state bytes with
  | nil => trivial
  | cons chunk chunks induction =>
      have delivered := input.deliver chunk
      simp only [List.flatten_cons, List.length_append] at total
      constructor
      · intro other otherInput
        rw [otherInput.unique delivered, List.length_append]
        omega
      · intro fuel next ran
        obtain ⟨rest, restInput, restSuffix⟩ :=
          exists_input_of_ends (ends_of_iterate ran) delivered
        have shorter := restSuffix.length_le
        apply induction restInput
        rw [List.length_append] at shorter ⊢
        omega

/-- Whatever the cuts are, after every chunk the session has been handed
exactly the messages whose frames have completely arrived, and its input
buffer holds exactly the rest. -/
theorem onSessionRead_reassembles
    (messages chunks front back : List (List UInt8)) (session : TcpSocket)
    (framable : ∀ message, message ∈ messages → Framable message)
    (cut : chunks.flatten = sentBytes messages)
    (fresh : session.HasInput [])
    (below : BufferBelow (2 ^ 32) { session, reads := [] } chunks)
    (split : chunks = front ++ back) :
    ∃ final rest enough,
      (∀ fuel, enough ≤ fuel →
        receiveChunks fuel { session, reads := [] } front = some final) ∧
      final.reads.map OnRead.message =
        (arrived tpktFrame messages front.flatten.length).map some ∧
      final.session.HasInput rest ∧
      stream tpktFrame (arrived tpktFrame messages front.flatten.length) ++
          rest = front.flatten := by
  rw [sentBytes_eq_stream framable] at cut
  have isPrefix : front.flatten <+: stream tpktFrame messages := by
    rw [← cut, split, List.flatten_append]
    exact List.prefix_append _ _
  rw [split] at below
  obtain ⟨last, enough, lastInput, result⟩ :=
    receiveChunks_of_receives
      (receives_arrived framable
        (fun message _ => tpktFrame_ne_nil message) isPrefix)
      fresh below.of_append
  refine ⟨_, _, enough, result, ?_, lastInput,
    stream_arrived_append_pending isPrefix⟩
  have framableArrived : ∀ message,
      message ∈ arrived tpktFrame messages front.flatten.length →
        (onReadOf message).message = some message := by
    intro message member
    exact (framable message
      ((arrived_isPrefix messages _).subset member)).message_onReadOf
  simpa using framableArrived

/-- Two messages, the first one empty, cut inside the second header. -/
theorem onSessionRead_reassembles_twoMessages :
    ∃ final rest enough,
      (∀ fuel, enough ≤ fuel →
        receiveChunks fuel { session := openSocket, reads := [] }
          [[1, 0], [0, 4, 1]] = some final) ∧
      final.reads.map OnRead.message = [some []] ∧
      final.session.HasInput rest ∧
      stream tpktFrame [[]] ++ rest = [1, 0, 0, 4, 1] :=
  onSessionRead_reassembles [[], [7]] [[1, 0], [0, 4, 1], [0, 0, 5, 7]]
    [[1, 0], [0, 4, 1]] [[0, 0, 5, 7]] openSocket
    (by decide) (by decide) ⟨_, rfl, rfl⟩
    (bufferBelow_of_length_lt ⟨_, rfl, rfl⟩ (by decide)) rfl

end Translib

end DBWrapper
