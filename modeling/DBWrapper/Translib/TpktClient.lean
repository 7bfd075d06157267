import DBWrapper.Translib.TpktTermination

/-!
# The TPKT receiver of the client

`TcpClientTPKT::onRead` is a copy of the loop of the server with two
differences: it does not test the view of the header for `NULL`, and it
allocates `sizeof(packet_length)` bytes for a frame instead of
`packet_length`.  Where it commits neither fault it does what the server does.
It commits none exactly if every message is empty and no cut falls into a
frame.
-/

namespace DBWrapper

namespace Translib

open Foundation

/-- What an illegal access of the client is. -/
inductive ClientFault where
  | nullDereference
  | heapOverflow
  deriving DecidableEq, Repr

namespace TcpClientTPKT

/-- `sizeof(packet_length)`, the size of the receive buffer. -/
def receiveBufferSize : Nat := 4

/-- One pass through the loop of `TcpClientTPKT::onRead`. -/
def onReadPass (state : Reception) : Except ClientFault (Pass Reception) :=
  let length := state.session.getInputBufferLength
  if length < 1 then
    .ok (.leave state)
  else
    match state.session.viewInputBuffer tpkt1Length with
    | none => .error .nullDereference
    | some buf =>
        let session :=
          if buf.getD 0 0 ≠ tpktVersion1LowByte then
            -- the magic number is lost: read one byte and try again
            (state.session.readInputBuffer 1).2.2
          else
            state.session
        let packetLength :=
          tpktPacketLength (buf.getD 1 0) (buf.getD 2 0) (buf.getD 3 0)
        if packetLength > length then
          -- some message is still in the air
          .ok (.leave { state with session })
        else
          let (_, filled, session) := session.readInputBuffer packetLength
          if receiveBufferSize < filled.length then
            .error .heapOverflow
          else
            .ok (.again
              { session
                reads := state.reads ++
                  [{ packetLength, filled,
                     len := packetLength - tpkt1Length }] })

/-- `TcpClientTPKT::onRead`, with a bound on the passes of its loop. -/
def onRead : Nat → Reception → Except ClientFault (Option Reception)
  | 0, _ => .ok none
  | fuel + 1, state =>
      match onReadPass state with
      | .error fault => .error fault
      | .ok (.leave final) => .ok (some final)
      | .ok (.again next) => onRead fuel next

/-- Each chunk is appended to the input buffer, and `onRead` runs once. -/
def receiveChunks (fuel : Nat) :
    Reception → List (List UInt8) → Except ClientFault (Option Reception)
  | state, [] => .ok (some state)
  | state, chunk :: chunks =>
      match onRead fuel
          { state with session := state.session.deliver chunk } with
      | .error fault => .error fault
      | .ok none => .ok none
      | .ok (some next) => receiveChunks fuel next chunks

/-! ### Passes without a fault -/

/-- When the server leaves the loop the client does so too, unless it looks
at a header that has not arrived. -/
theorem onReadPass_of_leave
    {state final : Reception} {bytes : List UInt8}
    (input : state.session.HasInput bytes)
    (left : onSessionReadPass state = .leave final) :
    onReadPass state =
      if ¬ state.session.getInputBufferLength < 1 ∧ bytes.length < 4 then
        .error .nullDereference
      else
        .ok (.leave final) := by
  simp only [onReadPass]
  simp only [onSessionReadPass] at left
  by_cases noData : state.session.getInputBufferLength < 1
  · rw [if_pos noData] at left
    cases left
    simp [noData]
  · rw [if_neg noData] at left
    rw [if_neg noData, input.viewInputBuffer]
    rw [input.viewInputBuffer] at left
    by_cases short : bytes.length < 4
    · simp [evbufferPullup, tpkt1Length, noData, short, Nat.not_le.mpr short]
    · rw [if_neg (fun both => short both.2)]
      have view : evbufferPullup bytes tpkt1Length.toNat =
          some (bytes.take 4) := by
        simp [evbufferPullup, tpkt1Length, Nat.not_lt.mp short]
      simp only [view] at left ⊢
      obtain ⟨session, chosen, after⟩ :=
        input.afterMagic ((bytes.take 4).getD 0 0)
      rw [chosen] at left ⊢
      split at left
      · rename_i inTheAir
        cases left
        rw [if_pos inTheAir]
      · obtain ⟨last, _, read⟩ := after.readInputBuffer
          (tpktPacketLength ((bytes.take 4).getD 1 0)
            ((bytes.take 4).getD 2 0) ((bytes.take 4).getD 3 0))
        rw [read] at left
        cases left

/-- When the server takes a frame the client does so too, unless the frame is
longer than its receive buffer. -/
theorem onReadPass_of_again
    {state next : Reception} {call : OnRead}
    (passed : onSessionReadPass state = .again next)
    (reads : next.reads = state.reads ++ [call]) :
    onReadPass state =
      if receiveBufferSize < call.filled.length then .error .heapOverflow
      else .ok (.again next) := by
  obtain ⟨bytes, input⟩ := hasInput_of_again passed
  simp only [onReadPass]
  simp only [onSessionReadPass] at passed
  by_cases noData : state.session.getInputBufferLength < 1
  · rw [if_pos noData] at passed
    cases passed
  · rw [if_neg noData] at passed ⊢
    cases view : state.session.viewInputBuffer tpkt1Length with
    | none =>
        rw [view] at passed
        cases passed
    | some buf =>
        simp only [view] at passed
        obtain ⟨session, chosen, after⟩ := input.afterMagic (buf.getD 0 0)
        simp only [chosen] at passed ⊢
        split at passed
        · cases passed
        · rename_i complete
          obtain ⟨last, _, read⟩ := after.readInputBuffer
            (tpktPacketLength (buf.getD 1 0) (buf.getD 2 0) (buf.getD 3 0))
          rw [read] at passed
          cases passed
          have sameCall := List.append_cancel_left reads
          obtain ⟨rfl⟩ := List.singleton_inj.mp sameCall
          rw [if_neg complete, read]

/-- What the client does without a fault is what the server does. -/
theorem onSessionReadPass_of_ok
    {state : Reception} {bytes : List UInt8}
    (input : state.session.HasInput bytes) {pass : Pass Reception}
    (legal : onReadPass state = .ok pass) : onSessionReadPass state = pass := by
  cases outcome : onSessionReadPass state with
  | leave final =>
      rw [onReadPass_of_leave input outcome] at legal
      split at legal
      · cases legal
      · cases legal
        rfl
  | again next =>
      obtain ⟨first, high, middle, low, rest, _, _, _, reads⟩ :=
        onSessionReadPass_again input outcome
      rw [onReadPass_of_again outcome reads] at legal
      split at legal
      · cases legal
      · cases legal
        rfl

/-! ### Empty messages -/

/-- The frames of `count` empty messages. -/
def emptyFrames (count : Nat) : List UInt8 :=
  stream tpktFrame (List.replicate count [])

theorem emptyFrames_succ (count : Nat) :
    emptyFrames (count + 1) = 1 :: 0 :: 0 :: 4 :: emptyFrames count := rfl

theorem emptyFrames_add (left right : Nat) :
    emptyFrames (left + right) = emptyFrames left ++ emptyFrames right := by
  simp only [emptyFrames, stream]
  rw [List.replicate_add, List.flatMap_append]

@[simp] theorem length_emptyFrames (count : Nat) :
    (emptyFrames count).length = 4 * count := by
  induction count with
  | zero => rfl
  | succ count induction =>
      simp only [emptyFrames_succ, List.length_cons, induction]
      omega

theorem stream_of_empty
    {messages : List (List UInt8)} (empty : ∀ message ∈ messages, message = []) :
    stream tpktFrame messages = emptyFrames messages.length := by
  rw [emptyFrames, ← List.eq_replicate_of_mem empty]

/-- Cutting empty frames at multiples of 4 gives empty frames. -/
theorem emptyFrames_of_append
    {count : Nat} {front back : List UInt8}
    (whole : emptyFrames count = front ++ back)
    (aligned : front.length % 4 = 0) :
    (∃ left, front = emptyFrames left) ∧ ∃ right, back = emptyFrames right := by
  have lengths := congrArg List.length whole
  rw [length_emptyFrames, List.length_append] at lengths
  obtain ⟨left, isLeft⟩ := Nat.dvd_of_mod_eq_zero aligned
  obtain ⟨right, rfl⟩ : ∃ right, count = left + right :=
    ⟨count - left, by omega⟩
  rw [emptyFrames_add] at whole
  obtain ⟨sameFront, sameBack⟩ := List.append_inj whole (by
    rw [length_emptyFrames, isLeft])
  exact ⟨⟨left, sameFront.symm⟩, right, sameBack.symm⟩

/-- Before empty frames both loops leave, or both take one of them. -/
theorem pass_emptyFrames
    {state : Reception} {count : Nat}
    (input : state.session.HasInput (emptyFrames count)) :
    (onReadPass state = .ok (.leave state) ∧
        onSessionReadPass state = .leave state) ∨
      ∃ less next, count = less + 1 ∧
        next.session.HasInput (emptyFrames less) ∧
        onReadPass state = .ok (.again next) ∧
        onSessionReadPass state = .again next := by
  by_cases noData : state.session.getInputBufferLength < 1
  · simp [onReadPass, onSessionReadPass, noData]
  · right
    have bytesLength := input.getInputBufferLength
    rw [length_emptyFrames] at bytesLength
    cases count with
    | zero =>
        rw [bytesLength] at noData
        exact (noData (by decide)).elim
    | succ less =>
        have view : evbufferPullup (emptyFrames (less + 1))
            tpkt1Length.toNat = some [1, 0, 0, 4] := by
          simp [evbufferPullup, tpkt1Length, emptyFrames_succ]
        -- a positive multiple of 4 is at least 4, also modulo `2 ^ 32`
        have complete : ¬ tpktPacketLength 0 0 4 >
            state.session.getInputBufferLength := by
          rw [UInt32.lt_iff_toNat_lt, bytesLength] at noData
          rw [gt_iff_lt, UInt32.lt_iff_toNat_lt, bytesLength,
            tpktPacketLength_toNat]
          simp only [UInt32.toNat_ofNat'] at noData ⊢
          simp at noData ⊢
          omega
        obtain ⟨session, after, read⟩ :=
          input.readInputBuffer (tpktPacketLength 0 0 4)
        have passed : onSessionReadPass state =
            .again
              { session
                reads := state.reads ++
                  [{ packetLength := tpktPacketLength 0 0 4
                     filled := [1, 0, 0, 4]
                     len := tpktPacketLength 0 0 4 - tpkt1Length }] } := by
          simp only [onSessionReadPass, if_neg noData, input.viewInputBuffer,
            view, List.getD_cons_zero, List.getD_cons_succ,
            tpktVersion1LowByte, ne_eq, not_true, if_false, if_neg complete,
            read]
          rfl
        refine ⟨less, _, rfl, ?_, ?_, passed⟩
        · exact after
        · rw [onReadPass_of_again passed rfl]
          rfl

theorem reads_emptyFrames
    {count : Nat} {state : Reception}
    (input : state.session.HasInput (emptyFrames count)) :
    ∃ rest final, final.session.HasInput (emptyFrames rest) ∧
      ∀ fuel, count + 1 ≤ fuel →
        onRead fuel state = .ok (some final) ∧
          onSessionRead fuel state = some final := by
  induction count generalizing state with
  | zero =>
      rcases pass_emptyFrames input with ⟨left, leftToo⟩ | ⟨_, _, impossible, _⟩
      · refine ⟨0, state, input, ?_⟩
        intro fuel bound
        obtain ⟨fuel, rfl⟩ := Nat.exists_eq_add_of_le' bound
        simp [onRead, onSessionRead, iterate, left, leftToo]
      · cases impossible
  | succ count induction =>
      rcases pass_emptyFrames input with
        ⟨left, leftToo⟩ | ⟨less, next, same, nextInput, passed, passedToo⟩
      · refine ⟨count + 1, state, input, ?_⟩
        intro fuel bound
        obtain ⟨fuel, rfl⟩ := Nat.exists_eq_add_of_le' bound
        simp [onRead, onSessionRead, iterate, left, leftToo]
      · cases same
        obtain ⟨rest, final, finalInput, result⟩ := induction nextInput
        refine ⟨rest, final, finalInput, ?_⟩
        intro fuel bound
        obtain ⟨fuel, rfl⟩ := Nat.exists_eq_add_of_le' bound
        obtain ⟨client, server⟩ := result (fuel + (count + 1)) (by omega)
        simp only [onSessionRead] at server
        constructor
        · simp only [onRead, passed]
          exact client
        · simp only [onSessionRead, iterate, passedToo]
          exact server

theorem receives_emptyFrames
    {count : Nat} {state : Reception} {chunks : List (List UInt8)}
    (input : state.session.HasInput (emptyFrames count))
    (aligned : ∀ chunk ∈ chunks, ∃ frames, chunk = emptyFrames frames) :
    ∃ final enough, ∀ fuel, enough ≤ fuel →
      receiveChunks fuel state chunks = .ok (some final) ∧
        Translib.receiveChunks fuel state chunks = some final := by
  induction chunks generalizing count state with
  | nil => exact ⟨state, 0, fun _ _ => ⟨rfl, rfl⟩⟩
  | cons chunk chunks induction =>
      obtain ⟨frames, rfl⟩ := aligned chunk List.mem_cons_self
      have delivered := input.deliver (emptyFrames frames)
      rw [← emptyFrames_add] at delivered
      obtain ⟨rest, middle, middleInput, first⟩ :=
        @reads_emptyFrames _
          { state with session := state.session.deliver (emptyFrames frames) }
          delivered
      obtain ⟨final, enough, later⟩ := induction middleInput
        (fun other listed => aligned other (List.mem_cons_of_mem _ listed))
      refine ⟨final, max (count + frames + 1) enough, ?_⟩
      intro fuel bound
      obtain ⟨client, server⟩ := first fuel (by omega)
      simp only [receiveChunks, Translib.receiveChunks, client, server]
      exact later fuel (by omega)

/-! ### What a run without a fault has received -/

theorem incomplete_mono
    {Valid : List UInt8 → Prop}
    (framable : ∀ message, Valid message → Framable message)
    {buffer : List UInt8} (incomplete : Incomplete tpktFrame Valid buffer) :
    Incomplete tpktFrame Framable buffer := by
  rcases incomplete with empty | ⟨message, valid, isPrefix, short⟩
  · exact .inl empty
  · exact .inr ⟨message, framable message valid, isPrefix, short⟩

/-- The whole loop without a fault is the loop of the server. -/
theorem onSessionRead_of_ok
    {fuel : Nat} {state result : Reception} {bytes : List UInt8}
    (input : state.session.HasInput bytes)
    (legal : onRead fuel state = .ok (some result)) :
    onSessionRead fuel state = some result := by
  induction fuel generalizing state bytes with
  | zero => cases legal
  | succ fuel induction =>
      simp only [onRead] at legal
      simp only [onSessionRead, iterate]
      split at legal
      · cases legal
      · rename_i final passed
        rw [onSessionReadPass_of_ok input passed]
        cases legal
        rfl
      · rename_i next passed
        have passedToo := onSessionReadPass_of_ok input passed
        obtain ⟨_, _, _, _, _, _, _, nextInput, _⟩ :=
          onSessionReadPass_again input passedToo
        rw [passedToo]
        exact induction nextInput legal

/-- If draining the buffer commits no fault, the frames taken off were empty,
and no beginning of a header is left. -/
theorem drains_of_ok
    {Valid : List UInt8 → Prop}
    (framable : ∀ message, Valid message → Framable message)
    {buffer final : List UInt8} {messages : List (List UInt8)}
    (drained : Drains tpktFrame Valid buffer messages final)
    {fuel : Nat} {state result : Reception}
    (input : state.session.HasInput buffer)
    (below : buffer.length < 2 ^ 32)
    (legal : onRead fuel state = .ok (some result)) :
    (∀ message ∈ messages, message = []) ∧
      (final = [] ∨ 4 ≤ final.length) ∧ result.session.HasInput final := by
  induction drained generalizing fuel state with
  | @stop buffer incomplete =>
      have left := onSessionReadPass_incomplete
        (incomplete_mono framable incomplete) input
      have lengthEq : state.session.getInputBufferLength.toNat =
          buffer.length := by
        rw [input.getInputBufferLength]
        exact UInt32.toNat_ofNat_of_lt' below
      cases fuel with
      | zero => cases legal
      | succ fuel =>
          simp only [onRead, onReadPass_of_leave input left] at legal
          split at legal
          · rename_i fault
            split at fault
            · cases legal
            · cases fault
          · rename_i last outcome
            split at outcome
            · cases outcome
            · rename_i noFault
              cases outcome
              cases legal
              refine ⟨by simp, ?_, input⟩
              by_contra partialHeader
              rw [not_or, not_le] at partialHeader
              apply noFault
              refine ⟨?_, partialHeader.2⟩
              rw [UInt32.lt_iff_toNat_lt, lengthEq]
              have positive := List.length_pos_iff.mpr partialHeader.1
              simp only [UInt32.reduceToNat]
              omega
          · rename_i next outcome
            split at outcome <;> cases outcome
  | @frame message rest final messages valid _ induction =>
      obtain ⟨session, after, passed⟩ :=
        onSessionReadPass_frame (framable message valid) input
          (whole_of_below below)
      have restBelow : rest.length < 2 ^ 32 := by
        rw [List.length_append] at below
        omega
      cases fuel with
      | zero => cases legal
      | succ fuel =>
          simp only [onRead, onReadPass_of_again passed rfl] at legal
          by_cases fits : receiveBufferSize < (onReadOf message).filled.length
          · rw [if_pos fits] at legal
            cases legal
          · rw [if_neg fits] at legal
            obtain ⟨others, rest, resultInput⟩ :=
              induction after restBelow legal
            refine ⟨?_, rest, resultInput⟩
            intro other listed
            rcases List.mem_cons.mp listed with rfl | later
            · simp only [onReadOf, length_tpktFrame, receiveBufferSize]
                at fits
              exact List.length_eq_zero_iff.mp (by omega)
            · exact others other later

/-- If all chunks are received without a fault, the messages were empty.  If
only empty messages can occur, the cuts fell between their frames. -/
theorem receives_of_ok
    {Valid : List UInt8 → Prop}
    (framable : ∀ message, Valid message → Framable message)
    {buffer final : List UInt8} {chunks messages : List (List UInt8)}
    (received : Receives tpktFrame Valid buffer chunks messages final)
    {fuel : Nat} {state result : Reception}
    (input : state.session.HasInput buffer)
    (below : BufferBelow (2 ^ 32) state chunks)
    (legal : receiveChunks fuel state chunks = .ok (some result)) :
    (∀ message ∈ messages, message = []) ∧
      ((∀ message, Valid message → message = []) → buffer = [] →
        ∀ chunk ∈ chunks, chunk.length % 4 = 0) := by
  induction received generalizing state with
  | done => simp
  | @chunk buffer chunk middle final chunks first later drained _ induction =>
      have delivered := input.deliver chunk
      have chunkBelow := below.1 _ delivered
      simp only [receiveChunks] at legal
      split at legal
      · cases legal
      · cases legal
      · rename_i next chunkLegal
        obtain ⟨firstEmpty, aligned, nextInput⟩ :=
          drains_of_ok framable drained delivered chunkBelow chunkLegal
        have ran := onSessionRead_of_ok delivered chunkLegal
        obtain ⟨laterEmpty, laterAligned⟩ :=
          induction nextInput (below.2 fuel next ran) legal
        constructor
        · intro message listed
          rcases List.mem_append.mp listed with inFirst | inLater
          · exact firstEmpty message inFirst
          · exact laterEmpty message inLater
        · intro onlyEmpty noRest
          have noMiddle : middle = [] := by
            rcases drained.incomplete with empty | ⟨message, valid, _, short⟩
            · exact empty
            · rw [onlyEmpty message valid, length_tpktFrame,
                List.length_nil] at short
              rcases aligned with empty | header
              · exact empty
              · omega
          have whole := drained.stream_append
          rw [noRest, noMiddle, List.append_nil, List.nil_append,
            stream_of_empty firstEmpty] at whole
          intro other listed
          rcases List.mem_cons.mp listed with rfl | inLater
          · rw [← whole, length_emptyFrames]
            exact Nat.mul_mod_right 4 _
          · exact laterAligned onlyEmpty noMiddle other inLater

/-- After every chunk the client has committed no fault, and the client and
the server have handed over the same payloads. -/
def Agrees (session : TcpSocket) (chunks : List (List UInt8)) : Prop :=
  ∀ front back, chunks = front ++ back →
    ∃ client server enough, ∀ fuel, enough ≤ fuel →
      receiveChunks fuel { session, reads := [] } front = .ok (some client) ∧
        Translib.receiveChunks fuel { session, reads := [] } front =
          some server ∧
        client.reads.map OnRead.message = server.reads.map OnRead.message

/-- No message has a payload, and every chunk ends at the end of a frame. -/
def HeadersOnly (messages chunks : List (List UInt8)) : Prop :=
  (∀ message ∈ messages, message = []) ∧
    ∀ chunk ∈ chunks, chunk.length % 4 = 0

theorem chunks_emptyFrames
    {count : Nat} {chunks : List (List UInt8)}
    (whole : chunks.flatten = emptyFrames count)
    (aligned : ∀ chunk ∈ chunks, chunk.length % 4 = 0) :
    ∀ chunk ∈ chunks, ∃ frames, chunk = emptyFrames frames := by
  induction chunks generalizing count with
  | nil => simp
  | cons first chunks induction =>
      rw [List.flatten_cons] at whole
      obtain ⟨isEmpty, rest, restEmpty⟩ :=
        emptyFrames_of_append whole.symm (aligned first List.mem_cons_self)
      have later := induction restEmpty
        (fun other listed => aligned other (List.mem_cons_of_mem _ listed))
      intro chunk listed
      rcases List.mem_cons.mp listed with rfl | inLater
      · exact isEmpty
      · exact later chunk inLater

/-- Messages without payload, cut between their frames, are received alike;
and as long as fewer than `2 ^ 32` bytes are buffered nothing else is. -/
theorem onRead_agrees_iff
    (messages chunks : List (List UInt8)) (session : TcpSocket)
    (framable : ∀ message, message ∈ messages → Framable message)
    (cut : chunks.flatten = sentBytes messages)
    (fresh : session.HasInput []) :
    (HeadersOnly messages chunks → Agrees session chunks) ∧
      (BufferBelow (2 ^ 32) { session, reads := [] } chunks →
        Agrees session chunks → HeadersOnly messages chunks) := by
  rw [sentBytes_eq_stream framable] at cut
  constructor
  · intro headersOnly front back split
    obtain ⟨noPayload, aligned⟩ := headersOnly
    rw [stream_of_empty noPayload] at cut
    have frames := chunks_emptyFrames cut aligned
    obtain ⟨final, enough, result⟩ :=
      @receives_emptyFrames 0 { session, reads := [] } front fresh
        (fun chunk listed => frames chunk (by
          rw [split]
          exact List.mem_append_left _ listed))
    exact ⟨final, final, enough, fun fuel bound =>
      ⟨(result fuel bound).1, (result fuel bound).2, rfl⟩⟩
  · intro below agrees
    obtain ⟨client, server, enough, result⟩ :=
      agrees chunks [] (List.append_nil chunks).symm
    have legal := (result enough (Nat.le_refl enough)).1
    have isPrefix : chunks.flatten <+: stream tpktFrame messages := by
      rw [cut]
    have received :=
      @receives_arrived _ _ tpktFrame
        (fun message => Framable message ∧ message ∈ messages)
        messages chunks (fun message listed => ⟨framable message listed, listed⟩)
        (fun message _ => tpktFrame_ne_nil message) isPrefix
    obtain ⟨arrivedEmpty, aligned⟩ :=
      receives_of_ok (fun message valid => valid.1) received fresh below legal
    have allArrived : arrived tpktFrame messages chunks.flatten.length =
        messages := by
      rw [cut]
      exact arrived_length_stream messages
    rw [allArrived] at arrivedEmpty
    exact ⟨arrivedEmpty,
      aligned (fun message valid => arrivedEmpty message valid.2) rfl⟩

/-- Two empty messages in two chunks. -/
theorem onRead_agrees_iff_empty :
    Agrees openSocket [[1, 0, 0, 4], [1, 0, 0, 4]] :=
  (onRead_agrees_iff [[], []] [[1, 0, 0, 4], [1, 0, 0, 4]] openSocket
    (by decide) (by decide) ⟨_, rfl, rfl⟩).1 ⟨by decide, by decide⟩

/-- A message of one byte overflows the receive buffer, and a header that
arrives in two chunks is read through a null pointer. -/
theorem onRead_faults :
    [[1, 0, 0, 5, 7]].flatten = sentBytes [[7]] ∧
      ¬ Agrees openSocket [[1, 0, 0, 5, 7]] ∧
      receiveChunks 1 { session := openSocket, reads := [] }
          [[1, 0, 0, 5, 7]] = .error .heapOverflow ∧
      [[1, 0], [0, 5, 7]].flatten = sentBytes [[7]] ∧
      receiveChunks 1 { session := openSocket, reads := [] }
          [[1, 0], [0, 5, 7]] = .error .nullDereference := by
  refine ⟨by decide, ?_, rfl, by decide, rfl⟩
  intro agrees
  obtain ⟨client, server, enough, result⟩ :=
    agrees [[1, 0, 0, 5, 7]] [] rfl
  have legal := (result (enough + 1) (Nat.le_add_right _ _)).1
  cases legal

end TcpClientTPKT

end Translib

end DBWrapper
