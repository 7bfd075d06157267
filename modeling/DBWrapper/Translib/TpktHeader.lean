import DBWrapper.Translib.TpktSending

/-!
# What the header says

The length field has 24 bits, the sum that is written into it 32, and the
length of a message is not compared with either: `TPKT1_MAX_MSG_LENGTH` is not
used anywhere.  So the header is right for the messages that fit into the
field, and a longer one is sent with the length of another frame.
-/

namespace DBWrapper

namespace Translib

/-- The client is a socket itself, and its copy of the function is the one of
the server. -/
def TcpClientTPKT.sendWithTPKT (client : TcpSocket) (data : List UInt8)
    (length : UInt32) (headerAccepted dataAccepted : Bool) :
    Bool × TcpSocket :=
  Translib.sendWithTPKT client data length headerAccepted dataAccepted

/-- The number in the three bytes behind the version, in network order. -/
def lengthField (frame : List UInt8) : Nat :=
  ((frame.drop 1).take 3).foldl (fun value byte => 256 * value + byte.toNat) 0

namespace TcpSocket

/-- What has been written and not yet been taken by the network. -/
def output (socket : TcpSocket) : List UInt8 :=
  match socket.bev with
  | none => []
  | some bev => bev.output

theorem send_of_not_takes
    {socket : TcpSocket} {accepted : Bool}
    (refused : socket.takes accepted = false) (data : List UInt8) :
    socket.send accepted data = (false, socket) := by
  simp only [takes] at refused
  simp only [send]
  cases attached : socket.bev with
  | none => rfl
  | some bev =>
      cases closing : socket.isClosing with
      | true => simp
      | false =>
          simp only [attached, closing, Option.isSome_some, Bool.not_false,
            Bool.and_self, Bool.true_and] at refused
          simp [refused]

theorem send_of_takes
    {socket : TcpSocket} {accepted : Bool}
    (taken : socket.takes accepted = true) (data : List UInt8) :
    ∃ next, socket.send accepted data = (true, next) ∧
      next.output = socket.output ++ data := by
  simp only [takes, Bool.and_eq_true, Bool.not_eq_true'] at taken
  obtain ⟨⟨isAttached, notClosing⟩, isAccepted⟩ := taken
  obtain ⟨bev, attached⟩ := Option.isSome_iff_exists.mp isAttached
  refine ⟨{ socket with bev := some { bev with output := bev.output ++ data } },
    ?_, ?_⟩
  · simp [send, attached, notClosing, isAccepted]
  · simp [output, attached]

end TcpSocket

/-- A call that succeeds has written a frame whose header says how long the
frame is, and a call with a message too long for the length field fails before
anything is written. -/
def TellsTruth (session : TcpSocket) (length : UInt32)
    (sent : Bool × TcpSocket) : Prop :=
  (sent.1 = true → ∃ frame,
    sent.2.output = session.output ++ frame ∧
      frame.length = length.toNat + 4 ∧
      lengthField frame = length.toNat + 4) ∧
    (2 ^ 24 ≤ length.toNat + 4 → sent.1 = false ∧ sent.2 = session)

theorem lengthField_tpktHeader_append (length : UInt32) (data : List UInt8) :
    lengthField (tpktHeader length ++ data) =
      (length.toNat + 4) % 2 ^ 24 := by
  obtain ⟨high, middle, low, header, value⟩ := tpktHeader_eq length
  rw [tpktPacketLength_toNat] at value
  simp only [lengthField, header, List.cons_append, List.nil_append,
    List.drop_succ_cons, List.drop_zero, List.take_succ_cons, List.take_zero,
    List.foldl_cons, List.foldl_nil]
  omega

/-- The data goes out behind the header, if the header does. -/
theorem sendWithTPKT_of_takes
    {session : TcpSocket} {headerAccepted : Bool}
    (taken : session.takes headerAccepted = true) {data : List UInt8}
    {length : UInt32} (sized : data.length = length.toNat)
    (dataAccepted : Bool) :
    ∃ next : TcpSocket,
      next.output = session.output ++ tpktHeader length ∧
        sendWithTPKT session data length headerAccepted dataAccepted =
          next.send dataAccepted data := by
  obtain ⟨next, sent, written⟩ :=
    TcpSocket.send_of_takes taken (tpktHeader length)
  refine ⟨next, written, ?_⟩
  rw [sendWithTPKT, sent, ← sized, List.take_length]

/-- What a call with an accepted header has written. -/
theorem output_sendWithTPKT
    {session : TcpSocket} {headerAccepted : Bool}
    (taken : session.takes headerAccepted = true) {data : List UInt8}
    {length : UInt32} (sized : data.length = length.toNat)
    (dataAccepted : Bool) :
    (sendWithTPKT session data length headerAccepted dataAccepted).2.output =
      session.output ++ tpktHeader length ++
        if (sendWithTPKT session data length headerAccepted
          dataAccepted).1 = true then data else [] := by
  obtain ⟨next, written, sent⟩ :=
    sendWithTPKT_of_takes taken sized dataAccepted
  rw [sent]
  cases takesData : next.takes dataAccepted with
  | false =>
      rw [TcpSocket.send_of_not_takes takesData, written]
      simp
  | true =>
      obtain ⟨last, sentData, writtenData⟩ :=
        TcpSocket.send_of_takes takesData data
      rw [sentData, writtenData, written]
      simp

theorem tellsTruth_iff
    (session : TcpSocket) {data : List UInt8} {length : UInt32}
    (sized : data.length = length.toNat) (headerAccepted dataAccepted : Bool) :
    TellsTruth session length
        (sendWithTPKT session data length headerAccepted dataAccepted) ↔
      length.toNat + 4 < 2 ^ 24 ∨ session.takes headerAccepted = false := by
  cases taken : session.takes headerAccepted with
  | false =>
      have refused : sendWithTPKT session data length headerAccepted
          dataAccepted = (false, session) := by
        rw [sendWithTPKT, TcpSocket.send_of_not_takes taken]
      rw [refused]
      simp [TellsTruth]
  | true =>
      have written := output_sendWithTPKT taken sized dataAccepted
      have headerLength : (tpktHeader length).length = 4 := rfl
      simp only [Bool.true_eq_false, or_false]
      constructor
      · intro truth
        by_contra long
        obtain ⟨_, unchanged⟩ := truth.2 (Nat.not_lt.mp long)
        have lengths := congrArg List.length written
        rw [unchanged] at lengths
        simp only [List.length_append, headerLength] at lengths
        omega
      · intro short
        constructor
        · intro succeeded
          refine ⟨tpktHeader length ++ data, ?_, ?_, ?_⟩
          · rw [written, if_pos succeeded, List.append_assoc]
          · rw [List.length_append, headerLength, sized, Nat.add_comm]
          · rw [lengthField_tpktHeader_append, Nat.mod_eq_of_lt short]
        · intro long
          exact absurd short (Nat.not_lt.mpr long)

/-- The header tells the truth exactly about the messages that fit, and about
none when the socket takes no header. -/
theorem sendWithTPKT_tellsTruth_iff
    (session : TcpSocket) {data : List UInt8} {length : UInt32}
    (sized : data.length = length.toNat) (headerAccepted dataAccepted : Bool) :
    (TellsTruth session length
        (sendWithTPKT session data length headerAccepted dataAccepted) ↔
      length.toNat + 4 < 2 ^ 24 ∨ session.takes headerAccepted = false) ∧
    (TellsTruth session length
        (TcpClientTPKT.sendWithTPKT session data length headerAccepted
          dataAccepted) ↔
      length.toNat + 4 < 2 ^ 24 ∨ session.takes headerAccepted = false) :=
  ⟨tellsTruth_iff session sized headerAccepted dataAccepted,
    tellsTruth_iff session sized headerAccepted dataAccepted⟩

/-- A message that just fits into the length field, with an arbitrary byte. -/
theorem sendWithTPKT_tellsTruth_iff_longest :
    TellsTruth openSocket 0xfffffb
      (sendWithTPKT openSocket (List.replicate 0xfffffb 7) 0xfffffb true
        true) := by
  have sized : (List.replicate 0xfffffb (7 : UInt8)).length =
      (0xfffffb : UInt32).toNat := List.length_replicate
  apply (sendWithTPKT_tellsTruth_iff openSocket sized true true).1.mpr
  exact .inl (by decide)

/-- One byte more: both calls write a header with a length of 0. -/
theorem sendWithTPKT_lies :
    lengthField (tpktHeader 0xfffffc) = 0 ∧
    ¬ TellsTruth openSocket 0xfffffc
      (sendWithTPKT openSocket (List.replicate 0xfffffc 7) 0xfffffc true
        true) ∧
    ¬ TellsTruth openSocket 0xfffffc
      (TcpClientTPKT.sendWithTPKT openSocket (List.replicate 0xfffffc 7)
        0xfffffc true true) := by
  have sized : (List.replicate 0xfffffc (7 : UInt8)).length =
      (0xfffffc : UInt32).toNat := List.length_replicate
  have lies : ¬ TellsTruth openSocket 0xfffffc
      (sendWithTPKT openSocket (List.replicate 0xfffffc 7) 0xfffffc true
        true) := by
    rw [tellsTruth_iff openSocket sized]
    decide
  exact ⟨by decide, lies, lies⟩

end Translib

end DBWrapper
