import Mathlib.Algebra.Group.Nat.Defs
import Mathlib.Data.List.Rotate
import DBWrapper.Foundation.DoWhile
import DBWrapper.Translib.TcpSocket

/-!
# TPKT frames on a TCP session

A frame is a version byte, the length of the whole frame as 24 bits in network
order, and the data.  `sendWithTPKT` writes one; `TcpServerTPKT::onSessionRead`
takes frames off the input buffer of a session and hands their data to
`onRead`.
-/

namespace DBWrapper

namespace Translib

open Foundation

def tpkt1Length : UInt32 := 4

def tpkt1MaxMsgLength : Nat := 0xffffff

def tpktVersion1LowByte : UInt8 := 0x1

/-- The header that `sendWithTPKT` builds in `tpkt_header`. -/
def tpktHeader (length : UInt32) : List UInt8 :=
  [tpktVersion1LowByte,
    (((length + tpkt1Length) &&& 0xffffff) >>> 16).toUInt8,
    (((length + tpkt1Length) &&& 0xffff) >>> 8).toUInt8,
    ((length + tpkt1Length) &&& 0xff).toUInt8]

/-- The two flags are the outcomes of the two buffer event writes. -/
def sendWithTPKT (session : TcpSocket) (data : List UInt8) (length : UInt32)
    (headerAccepted dataAccepted : Bool) : Bool × TcpSocket :=
  match session.send headerAccepted (tpktHeader length) with
  | (false, session) => (false, session)
  | (true, session) =>
      session.send dataAccepted (data.take length.toNat)

/-- `packet_length` as `onSessionRead` computes it from the header bytes. -/
def tpktPacketLength (high middle low : UInt8) : UInt32 :=
  ((high.toUInt32 &&& 0xff) <<< 16) |||
    ((middle.toUInt32 &&& 0xff) <<< 8) |||
    (low.toUInt32 &&& 0xff)

/-- One call `onRead(session, msg, len)`.  `msg` points `TPKT1_LENGTH` bytes
behind the beginning of a receive buffer of `packetLength` bytes, of which
`filled` have been written. -/
structure OnRead where
  packetLength : UInt32
  filled : List UInt8
  len : UInt32
  deriving DecidableEq, Repr

/-- The bytes `[msg, msg + len)`, when they lie inside the bytes that have
been written. -/
def OnRead.message (call : OnRead) : Option (List UInt8) :=
  if tpkt1Length.toNat + call.len.toNat ≤ call.filled.length then
    some ((call.filled.drop tpkt1Length.toNat).take call.len.toNat)
  else
    none

/-- A session together with the calls of `onRead` made for it so far. -/
structure Reception where
  session : TcpSocket
  reads : List OnRead
  deriving DecidableEq, Repr

/-- One pass through the loop of `TcpServerTPKT::onSessionRead`.  The view
`buf` stays readable when the byte in front of it is removed, since
`evbuffer_remove` only moves the start of a chain that is not yet empty. -/
def onSessionReadPass (state : Reception) : Pass Reception :=
  let length := state.session.getInputBufferLength
  if length < 1 then
    .leave state
  else
    match state.session.viewInputBuffer tpkt1Length with
    | none => .leave state
    | some buf =>
        let session :=
          if buf.getD 0 0 ≠ tpktVersion1LowByte then
            -- the magic number is lost: read one byte and try again
            (state.session.readInputBuffer 1).2.2
          else
            state.session
        let packetLength :=
          tpktPacketLength (buf.getD 1 0) (buf.getD 2 0) (buf.getD 3 0)
        if packetLength > length then
          -- some message is still in the air
          .leave { state with session }
        else
          match session.readInputBuffer packetLength with
          | (true, filled, session) =>
              .again
                { session
                  reads := state.reads ++
                    [{ packetLength, filled,
                       len := packetLength - tpkt1Length }] }
          | (false, _, session) => .again { state with session }

/-- `TcpServerTPKT::onSessionRead`, with a bound on the passes of its loop. -/
def onSessionRead (fuel : Nat) (state : Reception) : Option Reception :=
  iterate onSessionReadPass fuel state

/-- Each chunk is appended to the input buffer, and `onSessionRead` runs
once. -/
def receiveChunks (fuel : Nat) :
    Reception → List (List UInt8) → Option Reception
  | state, [] => some state
  | state, chunk :: chunks =>
      match onSessionRead fuel
          { state with session := state.session.deliver chunk } with
      | none => none
      | some next => receiveChunks fuel next chunks

section LengthField

private theorem and_lowBits (value bits : Nat) :
    value &&& (2 ^ bits - 1) = value % 2 ^ bits :=
  Nat.and_two_pow_sub_one_eq_mod value bits

theorem tpktPacketLength_toNat (high middle low : UInt8) :
    (tpktPacketLength high middle low).toNat =
      high.toNat * 2 ^ 16 + middle.toNat * 2 ^ 8 + low.toNat := by
  have highBound := high.toNat_lt
  have middleBound := middle.toNat_lt
  have lowBound := low.toNat_lt
  have masked : ∀ byte : UInt8, byte.toNat &&& 255 = byte.toNat := by
    intro byte
    exact (and_lowBits byte.toNat 8).trans (Nat.mod_eq_of_lt byte.toNat_lt)
  have highFits : high.toNat <<< 16 % 2 ^ 32 = high.toNat * 2 ^ 16 := by
    rw [Nat.shiftLeft_eq]
    omega
  have middleFits : middle.toNat <<< 8 % 2 ^ 32 = middle.toNat <<< 8 := by
    rw [Nat.shiftLeft_eq]
    omega
  have joined :
      high.toNat * 2 ^ 16 ||| middle.toNat <<< 8 =
        (high.toNat * 2 ^ 8 + middle.toNat) <<< 8 := by
    rw [← Nat.shiftLeft_eq, show (16 : Nat) = 8 + 8 from rfl,
      Nat.shiftLeft_add, ← Nat.shiftLeft_or_distrib,
      ← Nat.shiftLeft_add_eq_or_of_lt middleBound]
    simp only [Nat.shiftLeft_eq]
  simp only [tpktPacketLength, UInt32.toNat_or, UInt32.toNat_shiftLeft,
    UInt32.toNat_and, UInt8.toNat_toUInt32, UInt32.reduceToNat, masked,
    Nat.reduceMod]
  rw [highFits, middleFits, joined, ← Nat.shiftLeft_add_eq_or_of_lt lowBound,
    Nat.shiftLeft_eq]
  omega

/-- The header carries the length of the whole frame up to the 24 bits of the
length field. -/
theorem tpktHeader_eq (length : UInt32) :
    ∃ high middle low,
      tpktHeader length = [tpktVersion1LowByte, high, middle, low] ∧
        (tpktPacketLength high middle low).toNat =
          (length.toNat + 4) % 2 ^ 24 := by
  have total :
      (length + tpkt1Length).toNat = (length.toNat + 4) % 2 ^ 32 :=
    UInt32.toNat_add length tpkt1Length
  refine ⟨_, _, _, rfl, ?_⟩
  rw [tpktPacketLength_toNat]
  simp only [UInt32.toNat_toUInt8, UInt32.toNat_shiftRight,
    UInt32.toNat_and, total, UInt32.reduceToNat, Nat.reduceMod]
  rw [show 16777215 = 2 ^ 24 - 1 from rfl, show 65535 = 2 ^ 16 - 1 from rfl,
    show 255 = 2 ^ 8 - 1 from rfl]
  simp only [and_lowBits, Nat.shiftRight_eq_div_pow]
  omega

theorem tpktPacketLength_tpktHeader
    {length : UInt32} (short : length.toNat + 4 < 2 ^ 24) :
    ∃ high middle low,
      tpktHeader length = [tpktVersion1LowByte, high, middle, low] ∧
        (tpktPacketLength high middle low).toNat = length.toNat + 4 := by
  obtain ⟨high, middle, low, header, value⟩ := tpktHeader_eq length
  rw [Nat.mod_eq_of_lt short] at value
  exact ⟨high, middle, low, header, value⟩

end LengthField

end Translib

end DBWrapper
