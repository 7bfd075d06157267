import DBWrapper.Foundation.Latch
import DBWrapper.Translib.TcpSocket

/-!
# Sending on a closed socket

`close(true)` is deferred while output is pending; `_isClosing` is set from
then on until the write callback finds the output empty and carries the close
out.  The flag is a latch: it is set if the last close or completion was a
deferred close.  A socket whose close has been carried out is not closing any
more, and `send` accepts data again, which is never written out.
-/

namespace DBWrapper

namespace Translib

open Foundation

inductive SocketAction where
  | send (accepted : Bool) (data : List UInt8)
  | close (waiting : Bool)
  /-- The event loop writes bytes of the output buffer to the network. -/
  | drain (count : Nat)
  /-- The write callback. -/
  | checkClosing
  deriving DecidableEq, Repr

namespace TcpSocket

/-- A socket after `attach` or `connect`. -/
def attached (bev : Bufferevent) : TcpSocket :=
  { bev := some bev, isClosing := false }

/-- Nothing is written once `EV_WRITE` is disabled. -/
def drain (socket : TcpSocket) (count : Nat) : TcpSocket :=
  { socket with
    bev := socket.bev.map fun bev =>
      if bev.writeEnabled then { bev with output := bev.output.drop count }
      else bev }

def step (socket : TcpSocket) : SocketAction → Option TcpSocket
  | .send accepted data => some (socket.send accepted data).2
  | .close waiting => some (socket.close waiting)
  | .drain count => some (socket.drain count)
  | .checkClosing => some socket.checkClosing

/-- After a call of `close`, every `send` returns false and changes nothing. -/
def RefusesClosed (start : TcpSocket) (actions : List SocketAction) : Prop :=
  ∀ front accepted data back socket,
    actions = front ++ .send accepted data :: back →
      run step start front = some socket →
        (∃ waiting, .close waiting ∈ front) →
          socket.send accepted data = (false, socket)

/-- The close has to wait for output that is pending. -/
def Defers (position : TcpSocket × SocketAction) : Prop :=
  position.2 = .close true ∧
    ∃ bev, position.1.bev = some bev ∧ bev.output ≠ []

/-- The socket is closed now: by a close that need not wait, or by the write
callback that finds the output empty. -/
def Completes (position : TcpSocket × SocketAction) : Prop :=
  ∃ bev, position.1.bev = some bev ∧
    (position.2 = .close false ∨
      bev.output = [] ∧
        (position.2 = .close true ∨ position.2 = .checkClosing))

/-! ### The flag -/

@[simp] theorem isClosing_closeImpl (socket : TcpSocket) :
    socket.closeImpl.isClosing = false := by
  cases attached : socket.bev <;>
    simp [closeImpl, clearInputBuffer, attached]

theorem isClosing_send
    (socket : TcpSocket) (accepted : Bool) (data : List UInt8) :
    (socket.send accepted data).2.isClosing = socket.isClosing := by
  simp only [send]
  split
  · rfl
  · split
    · rfl
    · split <;> rfl

/-- An attached socket refuses data while it is closing, or when
`bufferevent_write` does. -/
theorem send_refuses_iff
    {socket : TcpSocket} {bev : Bufferevent} (attached : socket.bev = some bev)
    (accepted : Bool) (data : List UInt8) :
    socket.send accepted data = (false, socket) ↔
      (accepted = true → socket.isClosing = true) := by
  simp only [send, attached]
  cases socket.isClosing with
  | true => simp
  | false => cases accepted <;> simp

theorem isClosing_close
    {socket : TcpSocket} {bev : Bufferevent} (attached : socket.bev = some bev)
    (waiting : Bool) :
    (socket.close waiting).isClosing =
      (waiting && decide (bev.output ≠ [])) := by
  simp only [close, attached]
  cases waiting with
  | false => simp
  | true =>
      cases bev.output with
      | nil => simp
      | cons byte output => simp

theorem isClosing_checkClosing
    {socket : TcpSocket} {bev : Bufferevent}
    (attached : socket.bev = some bev) :
    socket.checkClosing.isClosing =
      (socket.isClosing && decide (bev.output ≠ [])) := by
  simp only [checkClosing, attached]
  cases closing : socket.isClosing with
  | false => simp [closing]
  | true =>
      cases bev.output with
      | nil => simp
      | cons byte output => simp [closing]

theorem isSome_bev_step
    {socket next : TcpSocket} {action : SocketAction}
    (stepped : step socket action = some next) :
    next.bev.isSome = socket.bev.isSome := by
  have closes : socket.closeImpl.bev.isSome = socket.bev.isSome := by
    cases attached : socket.bev <;>
      simp [closeImpl, clearInputBuffer, attached]
  cases action with
  | send accepted data =>
      cases stepped
      cases attached : socket.bev with
      | none => simp [send, attached]
      | some bev =>
          simp only [send, attached]
          split
          · simp [attached]
          · split <;> simp [attached]
  | close waiting =>
      cases stepped
      cases attached : socket.bev with
      | none => simp [close, attached]
      | some bev =>
          simp only [close, attached]
          split
          · simp
          · rw [closes, attached]
  | drain count =>
      cases stepped
      simp [drain]
  | checkClosing =>
      cases stepped
      cases attached : socket.bev with
      | none => simp [checkClosing, attached]
      | some bev =>
          simp only [checkClosing, attached]
          split
          · simp [closeImpl, clearInputBuffer]
          · simp [attached]

/-- Every action sets the flag, resets it or leaves it alone. -/
theorem isClosing_step
    {socket next : TcpSocket} {action : SocketAction}
    (stepped : step socket action = some next) :
    next.isClosing = true ↔
      Defers (socket, action) ∨
        socket.isClosing = true ∧ ¬ Completes (socket, action) := by
  cases action with
  | send accepted data =>
      cases stepped
      simp [isClosing_send, Defers, Completes]
  | drain count =>
      cases stepped
      simp [drain, Defers, Completes]
  | close waiting =>
      cases stepped
      cases attached : socket.bev with
      | none => simp [close, attached, Defers, Completes]
      | some bev =>
          rw [isClosing_close attached]
          cases waiting <;> simp [attached, Defers, Completes]
  | checkClosing =>
      cases stepped
      cases attached : socket.bev with
      | none => simp [checkClosing, attached, Defers, Completes]
      | some bev =>
          rw [isClosing_checkClosing attached]
          simp [attached, Defers, Completes]

/-- A socket is closing exactly if the last of these events is a close that
has been deferred. -/
theorem isClosing_iff_latched
    {bev : Bufferevent} {actions : List SocketAction} {socket : TcpSocket}
    (ran : run step (attached bev) actions = some socket) :
    socket.isClosing = true ↔
      Latched Defers Completes (trace step (attached bev) actions) := by
  have initial : ¬ (attached bev).isClosing = true := by
    simp [attached]
  exact flag_iff_latched (fun _ _ _ stepped => isClosing_step stepped)
    initial ran

theorem run_total (start : TcpSocket) (actions : List SocketAction) :
    ∃ socket, run step start actions = some socket := by
  induction actions generalizing start with
  | nil => exact ⟨start, rfl⟩
  | cons action actions induction =>
      cases action with
      | send accepted data => exact induction _
      | close waiting => exact induction _
      | drain count => exact induction _
      | checkClosing => exact induction _

/-- `send` refuses everything after a `close` exactly if every data that
`bufferevent_write` would take comes while a deferred close is still to be
carried out. -/
theorem refusesClosed_iff
    (bev : Bufferevent) (actions : List SocketAction) :
    RefusesClosed (attached bev) actions ↔
      ∀ front data back, actions = front ++ .send true data :: back →
        (∃ waiting, .close waiting ∈ front) →
          Latched Defers Completes (trace step (attached bev) front) := by
  have stays : ∀ {front socket},
      run step (attached bev) front = some socket →
        ∃ other, socket.bev = some other := by
    intro front socket reached
    have isSome := run_invariant
      (fun _ _ _ before stepped => (isSome_bev_step stepped).trans before)
      (rfl : (attached bev).bev.isSome = true) reached
    exact Option.isSome_iff_exists.mp isSome
  constructor
  · intro refuses front data back whole closed
    obtain ⟨socket, reached⟩ := run_total (attached bev) front
    obtain ⟨other, isAttached⟩ := stays reached
    have refused := refuses front true data back socket whole reached closed
    rw [← isClosing_iff_latched reached]
    exact (send_refuses_iff isAttached true data).mp refused rfl
  · intro deferred front accepted data back socket whole reached closed
    obtain ⟨other, isAttached⟩ := stays reached
    apply (send_refuses_iff isAttached accepted data).mpr
    intro taken
    subst taken
    rw [isClosing_iff_latched reached]
    exact deferred front data back whole closed

/-- A close with nothing to wait for, and a deferred close that the write
callback has carried out: in both cases `send` takes data again. -/
theorem refusesClosed_fails :
    ∃ bev : Bufferevent,
      ¬ RefusesClosed (attached bev) [.close true, .send true [7]] ∧
        ¬ RefusesClosed (attached bev)
          [.send true [1], .close true, .drain 1, .checkClosing,
            .send true [7]] := by
  let bev : Bufferevent :=
    { input := [], output := [], writeEnabled := true, shutDown := false }
  refine ⟨bev, ?_, ?_⟩
  · intro refuses
    have refused := refuses [.close true] true [7] [] _ rfl rfl
      ⟨true, List.mem_singleton_self _⟩
    exact absurd (congrArg Prod.fst refused) (by decide)
  · intro refuses
    have refused := refuses
      [.send true [1], .close true, .drain 1, .checkClosing] true [7] [] _
      rfl rfl ⟨true, by decide⟩
    exact absurd (congrArg Prod.fst refused) (by decide)

end TcpSocket

end Translib

end DBWrapper
