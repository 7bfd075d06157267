/-!
# The TCP socket on top of a libevent buffer event

`TcpSocket` owns a `bufferevent` with an input and an output buffer.  The
outcome of a write is libevent's to decide and is therefore an argument; what
is read is a function of the input buffer alone.
-/

namespace DBWrapper

namespace Translib

/-- The part of a `bufferevent` that `TcpSocket` looks at or changes. -/
structure Bufferevent where
  input : List UInt8
  output : List UInt8
  writeEnabled : Bool
  shutDown : Bool
  deriving DecidableEq, Repr

/-- `evbuffer_pullup`: the first `size` bytes, or `NULL` when fewer are
buffered. -/
def evbufferPullup (buffer : List UInt8) (size : Nat) :
    Option (List UInt8) :=
  if size ≤ buffer.length then some (buffer.take size) else none

/-- `evbuffer_remove`: at most `size` bytes move from the front of the buffer
to the destination. -/
def evbufferRemove (buffer : List UInt8) (size : Nat) :
    List UInt8 × List UInt8 :=
  (buffer.take size, buffer.drop size)

structure TcpSocket where
  bev : Option Bufferevent
  isClosing : Bool
  deriving DecidableEq, Repr

namespace TcpSocket

/-- `accepted` is whether `bufferevent_write` took the bytes. -/
def send (socket : TcpSocket) (accepted : Bool) (data : List UInt8) :
    Bool × TcpSocket :=
  match socket.bev with
  | none => (false, socket)
  | some bev =>
      if socket.isClosing then
        (false, socket)
      else if accepted then
        (true,
          { socket with bev := some { bev with output := bev.output ++ data } })
      else
        (false, socket)

def getInputBufferLength (socket : TcpSocket) : UInt32 :=
  match socket.bev with
  | none => 0
  | some bev => UInt32.ofNat bev.input.length

def viewInputBuffer (socket : TcpSocket) (size : UInt32) :
    Option (List UInt8) :=
  match socket.bev with
  | none => none
  | some bev => evbufferPullup bev.input size.toNat

/-- The result of `readInputBuffer`: whether it succeeded, the bytes written
to `dest`, and the socket afterwards. -/
def readInputBuffer (socket : TcpSocket) (size : UInt32) :
    Bool × List UInt8 × TcpSocket :=
  match socket.bev with
  | none => (false, [], socket)
  | some bev =>
      let (dest, input) := evbufferRemove bev.input size.toNat
      (true, dest, { socket with bev := some { bev with input } })

/-- `evbuffer_drain` with `UINT32_MAX`. -/
def clearInputBuffer (socket : TcpSocket) : TcpSocket :=
  match socket.bev with
  | none => socket
  | some bev =>
      { socket with
        bev := some { bev with input := bev.input.drop 0xffffffff } }

def closeImpl (socket : TcpSocket) : TcpSocket :=
  let socket := { socket with isClosing := false }.clearInputBuffer
  match socket.bev with
  | none => socket
  | some bev =>
      { socket with
        bev := some { bev with writeEnabled := false, shutDown := true } }

def close (socket : TcpSocket) (waiting : Bool) : TcpSocket :=
  match socket.bev with
  | none => socket
  | some bev =>
      if waiting && (0 < bev.output.length) then
        { socket with isClosing := true }
      else
        socket.closeImpl

def checkClosing (socket : TcpSocket) : TcpSocket :=
  match socket.bev with
  | none => socket
  | some bev =>
      if socket.isClosing && (bev.output.length == 0) then
        { socket with isClosing := false }.closeImpl
      else
        socket

/-- A socket whose input buffer is `bytes`. -/
def HasInput (socket : TcpSocket) (bytes : List UInt8) : Prop :=
  ∃ bev, socket.bev = some bev ∧ bev.input = bytes

/-- The network delivers `chunk`: libevent appends it to the input buffer. -/
def deliver (socket : TcpSocket) (chunk : List UInt8) : TcpSocket :=
  { socket with
    bev := socket.bev.map fun bev =>
      { bev with input := bev.input ++ chunk } }

theorem HasInput.unique {socket : TcpSocket} {left right : List UInt8}
    (first : socket.HasInput left) (second : socket.HasInput right) :
    left = right := by
  obtain ⟨bev, attached, rfl⟩ := first
  obtain ⟨other, otherAttached, rfl⟩ := second
  have same : bev = other := Option.some.inj (attached.symm.trans otherAttached)
  rw [same]

theorem HasInput.deliver {socket : TcpSocket} {bytes : List UInt8}
    (input : socket.HasInput bytes) (chunk : List UInt8) :
    (socket.deliver chunk).HasInput (bytes ++ chunk) := by
  obtain ⟨bev, attached, rfl⟩ := input
  exact ⟨{ bev with input := bev.input ++ chunk },
    by simp [TcpSocket.deliver, attached], rfl⟩

theorem HasInput.getInputBufferLength
    {socket : TcpSocket} {bytes : List UInt8}
    (input : socket.HasInput bytes) :
    socket.getInputBufferLength = UInt32.ofNat bytes.length := by
  obtain ⟨bev, attached, rfl⟩ := input
  simp [TcpSocket.getInputBufferLength, attached]

theorem HasInput.viewInputBuffer
    {socket : TcpSocket} {bytes : List UInt8}
    (input : socket.HasInput bytes) (size : UInt32) :
    socket.viewInputBuffer size = evbufferPullup bytes size.toNat := by
  obtain ⟨bev, attached, rfl⟩ := input
  simp [TcpSocket.viewInputBuffer, attached]

theorem HasInput.readInputBuffer
    {socket : TcpSocket} {bytes : List UInt8}
    (input : socket.HasInput bytes) (size : UInt32) :
    ∃ next, next.HasInput (bytes.drop size.toNat) ∧
      socket.readInputBuffer size =
        (true, bytes.take size.toNat, next) := by
  obtain ⟨bev, attached, rfl⟩ := input
  refine ⟨{ socket with
    bev := some { bev with input := bev.input.drop size.toNat } }, ?_, ?_⟩
  · exact ⟨_, rfl, rfl⟩
  · simp [TcpSocket.readInputBuffer, evbufferRemove, attached]

end TcpSocket

end Translib

end DBWrapper
