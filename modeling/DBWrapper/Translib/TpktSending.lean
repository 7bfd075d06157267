import DBWrapper.Foundation.Runs
import DBWrapper.Translib.TpktReassembly

/-!
# Concurrent senders on one socket

`sendWithTPKT`, the same in the server and in the client, sends the header and
the data one after the other.  Any number of callers may be inside it, each
`send` is one step, and in between the socket may be closed or its buffer
written out.  The output stays a sequence of whole frames as long as every
header is followed by its own data: no other caller is between its two sends
when a header goes out, and the data after a header is not refused.
-/

namespace DBWrapper

namespace Translib

open Foundation

namespace TcpSocket

/-- Whether `send` appends what it is given. -/
def takes (socket : TcpSocket) (accepted : Bool) : Bool :=
  socket.bev.isSome && !socket.isClosing && accepted

theorem fst_send (socket : TcpSocket) (accepted : Bool) (data : List UInt8) :
    (socket.send accepted data).1 = socket.takes accepted := by
  simp only [send, takes]
  cases socket.bev with
  | none => rfl
  | some bev =>
      cases socket.isClosing with
      | true => simp
      | false => cases accepted <;> simp

end TcpSocket

/-- Where a caller is in `sendWithTPKT`. -/
inductive SendPhase where
  | outside
  | beforeHeader (data : List UInt8)
  | beforeData (data : List UInt8)
  deriving DecidableEq, Repr

/-- The socket and its callers.  `written` records all bytes ever appended to
the output, `returned` the calls that have returned with their results. -/
structure SendSystem where
  socket : TcpSocket
  phase : Nat → SendPhase
  written : List UInt8
  returned : List (List UInt8 × Bool)

inductive SendAction where
  | call (caller : Nat) (data : List UInt8)
  | sendHeader (caller : Nat) (accepted : Bool)
  | sendData (caller : Nat) (accepted : Bool)
  | close (waiting : Bool)
  | checkClosing
  /-- libevent writes bytes of the output buffer to the network. -/
  | flush (count : Nat)
  deriving DecidableEq, Repr

namespace SendSystem

def start (socket : TcpSocket) : SendSystem :=
  { socket, phase := fun _ => .outside, written := [], returned := [] }

def setPhase (system : SendSystem) (caller : Nat) (phase : SendPhase) :
    SendSystem :=
  { system with phase := Function.update system.phase caller phase }

/-- `TcpSocket::send` with the bytes that it appends. -/
def send (system : SendSystem) (accepted : Bool) (data : List UInt8) :
    Bool × SendSystem :=
  match system.socket.send accepted data with
  | (false, socket) => (false, { system with socket })
  | (true, socket) =>
      (true, { system with socket, written := system.written ++ data })

/-- The caller leaves `sendWithTPKT`. -/
def leave (system : SendSystem) (caller : Nat) (data : List UInt8)
    (result : Bool) : SendSystem :=
  { system.setPhase caller .outside with
    returned := system.returned ++ [(data, result)] }

def flush (system : SendSystem) (count : Nat) : SendSystem :=
  { system with
    socket :=
      { system.socket with
        bev := system.socket.bev.map fun bev =>
          { bev with output := bev.output.drop count } } }

def step (system : SendSystem) : SendAction → Option SendSystem
  | .call caller data =>
      match system.phase caller with
      | .outside => some (system.setPhase caller (.beforeHeader data))
      | _ => none
  | .sendHeader caller accepted =>
      match system.phase caller with
      | .beforeHeader data =>
          match system.send accepted
              (tpktHeader (UInt32.ofNat data.length)) with
          | (false, system) => some (system.leave caller data false)
          | (true, system) => some (system.setPhase caller (.beforeData data))
      | _ => none
  | .sendData caller accepted =>
      match system.phase caller with
      | .beforeData data =>
          let (ret, system) := system.send accepted
            (data.take (UInt32.ofNat data.length).toNat)
          some (system.leave caller data ret)
      | _ => none
  | .close waiting =>
      some { system with socket := system.socket.close waiting }
  | .checkClosing =>
      some { system with socket := system.socket.checkClosing }
  | .flush count => some (system.flush count)

/-- The messages of the calls that returned true, in the order of the
returns. -/
def succeeded (system : SendSystem) : List (List UInt8) :=
  (system.returned.filter Prod.snd).map Prod.fst

/-- When no call is in progress, the bytes written are the frames of the
successful calls in some order. -/
def WholeFrames (system : SendSystem) : Prop :=
  (∀ caller, system.phase caller = .outside) →
    ∃ messages, messages.Perm system.succeeded ∧
      system.written = stream tpktFrame messages

/-- A header is appended only while no other caller is between its header and
its data, and data is not refused when its header has been appended. -/
def KeepsFramesWhole (system : SendSystem) : SendAction → Prop
  | .sendHeader _ accepted =>
      system.socket.takes accepted = true →
        ∀ other data, system.phase other ≠ .beforeData data
  | .sendData _ accepted => system.socket.takes accepted = true
  | _ => True

/-! ### Single steps -/

theorem send_eq (system : SendSystem) (accepted : Bool) (data : List UInt8) :
    system.send accepted data =
      (system.socket.takes accepted,
        { system with
          socket := (system.socket.send accepted data).2
          written :=
            if system.socket.takes accepted then system.written ++ data
            else system.written }) := by
  simp only [send]
  rw [← system.socket.fst_send accepted data]
  cases system.socket.send accepted data with
  | mk ret socket => cases ret <;> rfl

/-- The steps of one caller with nothing in between are `sendWithTPKT`. -/
theorem sendWithTPKT_of_steps
    {system called sent : SendSystem} {caller : Nat} {data : List UInt8}
    {headerAccepted dataAccepted : Bool}
    (calls : step system (.call caller data) = some called)
    (sendsHeader : step called (.sendHeader caller headerAccepted) = some sent) :
    (system.socket.takes headerAccepted = false →
      (sent.returned, sent.socket) =
        (system.returned ++ [(data, (sendWithTPKT system.socket data
            (UInt32.ofNat data.length) headerAccepted dataAccepted).1)],
          (sendWithTPKT system.socket data (UInt32.ofNat data.length)
            headerAccepted dataAccepted).2)) ∧
      (system.socket.takes headerAccepted = true →
        ∀ next, step sent (.sendData caller dataAccepted) = some next →
          (next.returned, next.socket) =
            (system.returned ++ [(data, (sendWithTPKT system.socket data
                (UInt32.ofNat data.length) headerAccepted dataAccepted).1)],
              (sendWithTPKT system.socket data (UInt32.ofNat data.length)
                headerAccepted dataAccepted).2)) := by
  simp only [step] at calls
  split at calls
  · cases calls
    simp only [step, setPhase, Function.update_self, send_eq] at sendsHeader
    have header := system.socket.fst_send headerAccepted
      (tpktHeader (UInt32.ofNat data.length))
    simp only [sendWithTPKT]
    cases result : system.socket.send headerAccepted
      (tpktHeader (UInt32.ofNat data.length)) with
    | mk ret socket =>
        rw [result] at header sendsHeader
        constructor
        · intro refused
          rw [refused] at header sendsHeader
          subst header
          cases sendsHeader
          rfl
        · intro taken next sendsData
          rw [taken] at header sendsHeader
          subst header
          cases sendsHeader
          simp only [step, Function.update_self, send_eq,
            Option.some.injEq] at sendsData
          subst sendsData
          simp only [leave, setPhase]
          rw [← TcpSocket.fst_send]
  · cases calls

/-- What an action does to the calls and to the output. -/
inductive Moves (system : SendSystem) : SendAction → SendSystem → Prop where
  | call {caller : Nat} {data : List UInt8}
      (outside : system.phase caller = .outside) :
      Moves system (.call caller data)
        (system.setPhase caller (.beforeHeader data))
  | headerRefused {caller : Nat} {data : List UInt8} {accepted : Bool}
      {socket : TcpSocket}
      (inCall : system.phase caller = .beforeHeader data)
      (refused : system.socket.takes accepted = false) :
      Moves system (.sendHeader caller accepted)
        ({ system with socket }.leave caller data false)
  | headerTaken {caller : Nat} {data : List UInt8} {accepted : Bool}
      {socket : TcpSocket}
      (inCall : system.phase caller = .beforeHeader data)
      (taken : system.socket.takes accepted = true) :
      Moves system (.sendHeader caller accepted)
        ({ system with
            socket
            written := system.written ++
              tpktHeader (UInt32.ofNat data.length) }.setPhase caller
          (.beforeData data))
  | dataRefused {caller : Nat} {data : List UInt8} {accepted : Bool}
      {socket : TcpSocket}
      (inCall : system.phase caller = .beforeData data)
      (refused : system.socket.takes accepted = false) :
      Moves system (.sendData caller accepted)
        ({ system with socket }.leave caller data false)
  | dataTaken {caller : Nat} {data : List UInt8} {accepted : Bool}
      {socket : TcpSocket}
      (inCall : system.phase caller = .beforeData data)
      (taken : system.socket.takes accepted = true) :
      Moves system (.sendData caller accepted)
        ({ system with
            socket
            written := system.written ++
              data.take (UInt32.ofNat data.length).toNat }.leave caller data
          true)
  | close {waiting : Bool} {socket : TcpSocket} :
      Moves system (.close waiting) { system with socket }
  | checkClosing {socket : TcpSocket} :
      Moves system .checkClosing { system with socket }
  | flush {count : Nat} {socket : TcpSocket} :
      Moves system (.flush count) { system with socket }

theorem moves_of_step
    {system next : SendSystem} {action : SendAction}
    (stepped : step system action = some next) : Moves system action next := by
  cases action with
  | call caller data =>
      simp only [step] at stepped
      split at stepped
      · rename_i outside
        cases stepped
        exact .call outside
      · cases stepped
  | sendHeader caller accepted =>
      simp only [step, send_eq] at stepped
      split at stepped
      · rename_i data inCall
        cases taken : system.socket.takes accepted with
        | false =>
            simp only [taken, Bool.false_eq_true, if_false] at stepped
            cases stepped
            exact .headerRefused inCall taken
        | true =>
            simp only [taken, if_true] at stepped
            cases stepped
            exact .headerTaken inCall taken
      · cases stepped
  | sendData caller accepted =>
      simp only [step, send_eq] at stepped
      split at stepped
      · rename_i data inCall
        cases taken : system.socket.takes accepted with
        | false =>
            simp only [taken, Bool.false_eq_true, if_false] at stepped
            cases stepped
            exact .dataRefused inCall taken
        | true =>
            simp only [taken, if_true] at stepped
            cases stepped
            exact .dataTaken inCall taken
      · cases stepped
  | close waiting =>
      cases stepped
      exact .close
  | checkClosing =>
      cases stepped
      exact .checkClosing
  | flush count =>
      cases stepped
      exact .flush

/-! ### The invariant -/

/-- The bytes written are the frames of the successful calls and, while a
caller is between its two sends, the header of this caller. -/
def InFrame (system : SendSystem) : Prop :=
  ((∀ caller data, system.phase caller ≠ .beforeData data) ∧
      system.written = stream tpktFrame system.succeeded) ∨
    ∃ caller data, system.phase caller = .beforeData data ∧
      (∀ other otherData, system.phase other = .beforeData otherData →
        other = caller) ∧
      system.written = stream tpktFrame system.succeeded ++
        tpktHeader (UInt32.ofNat data.length)

/-- The messages of the calls in progress fit into a frame. -/
def CallsFramable (system : SendSystem) : Prop :=
  ∀ caller data,
    system.phase caller = .beforeHeader data ∨
      system.phase caller = .beforeData data → Framable data

theorem succeeded_leave
    (system : SendSystem) (caller : Nat) (data : List UInt8) (result : Bool) :
    (system.leave caller data result).succeeded =
      system.succeeded ++ if result then [data] else [] := by
  cases result <;> simp [leave, succeeded, setPhase, List.filter_append]

theorem CallsFramable.setPhase
    {system : SendSystem} (framable : CallsFramable system) (caller : Nat)
    {phase : SendPhase}
    (new : ∀ data, phase = .beforeHeader data ∨ phase = .beforeData data →
      Framable data) :
    CallsFramable (system.setPhase caller phase) := by
  intro other data inside
  simp only [SendSystem.setPhase, Function.update_apply] at inside
  split at inside
  · exact new data inside
  · exact framable other data inside

theorem CallsFramable.step
    {system next : SendSystem} {action : SendAction}
    (framable : CallsFramable system)
    (called : ∀ caller data, action = .call caller data → Framable data)
    (stepped : SendSystem.step system action = some next) :
    CallsFramable next := by
  cases moves_of_step stepped with
  | @call caller data _ =>
      apply framable.setPhase
      intro other inside
      rcases inside with same | impossible
      · cases same
        exact called caller data rfl
      · cases impossible
  | @headerTaken caller data _ socket inCall _ =>
      have fits := framable caller data (.inl inCall)
      apply @CallsFramable.setPhase
        { system with
          socket
          written := system.written ++
            tpktHeader (UInt32.ofNat data.length) } framable
      intro other inside
      rcases inside with impossible | same
      · cases impossible
      · cases same
        exact fits
  | @headerRefused caller data _ socket _ _ =>
      apply @CallsFramable.setPhase { system with socket } framable
      simp
  | @dataRefused caller data _ socket _ _ =>
      apply @CallsFramable.setPhase { system with socket } framable
      simp
  | @dataTaken caller data _ socket _ _ =>
      apply @CallsFramable.setPhase { system with socket } framable
      simp
  | _ => exact framable

theorem InFrame.congr
    {system other : SendSystem} (inFrame : InFrame system)
    (phase : other.phase = system.phase)
    (written : other.written = system.written)
    (succeeded : other.succeeded = system.succeeded) : InFrame other := by
  simp only [InFrame]
  rw [phase, written, succeeded]
  exact inFrame

/-- A caller that is not between its two sends changes its phase. -/
theorem InFrame.setPhase
    {system : SendSystem} (inFrame : InFrame system) {caller : Nat}
    {phase : SendPhase}
    (before : ∀ data, system.phase caller ≠ .beforeData data)
    (after : ∀ data, phase ≠ .beforeData data) :
    InFrame (system.setPhase caller phase) := by
  rcases inFrame with ⟨none_, written⟩ | ⟨owner, data, owns, only, written⟩
  · left
    refine ⟨?_, written⟩
    intro other data inside
    simp only [SendSystem.setPhase, Function.update_apply] at inside
    split at inside
    · exact after data inside
    · exact none_ other data inside
  · right
    have different : owner ≠ caller := by
      intro equal
      subst equal
      exact before data owns
    refine ⟨owner, data, ?_, ?_, written⟩
    · simpa [SendSystem.setPhase, different] using owns
    · intro other otherData inside
      simp only [SendSystem.setPhase, Function.update_apply] at inside
      split at inside
      · exact (after otherData inside).elim
      · exact only other otherData inside

theorem InFrame.step
    {system next : SendSystem} {action : SendAction}
    (inFrame : InFrame system) (framable : CallsFramable system)
    (keeps : KeepsFramesWhole system action)
    (stepped : SendSystem.step system action = some next) : InFrame next := by
  cases moves_of_step stepped with
  | @call caller data outside =>
      apply inFrame.setPhase
      · simp [outside]
      · simp
  | @headerRefused caller data accepted socket inCall refused =>
      have moved := @InFrame.setPhase { system with socket } inFrame caller
        .outside (by simp [inCall]) (by simp)
      apply moved.congr
      · rfl
      · rfl
      · rw [succeeded_leave]
        exact List.append_nil _
  | @headerTaken caller data accepted socket inCall taken =>
      have alone := keeps taken
      have written : system.written = stream tpktFrame system.succeeded := by
        rcases inFrame with ⟨_, written⟩ | ⟨owner, other, owns, _⟩
        · exact written
        · exact (alone owner other owns).elim
      right
      refine ⟨caller, data, ?_, ?_, ?_⟩
      · simp [SendSystem.setPhase]
      · intro other otherData inside
        simp only [SendSystem.setPhase, Function.update_apply] at inside
        split at inside
        · assumption
        · exact (alone other otherData inside).elim
      · exact congrArg (· ++ _) written
  | @dataRefused caller data accepted socket inCall refused =>
      simp only [KeepsFramesWhole, refused] at keeps
      cases keeps
  | @dataTaken caller data accepted socket inCall taken =>
      have fits := (framable caller data (.inr inCall)).toNat_length
      rcases inFrame with ⟨none_, _⟩ | ⟨owner, other, owns, only, written⟩
      · exact (none_ caller data inCall).elim
      · have same := only caller data inCall
        subst same
        rw [inCall] at owns
        cases owns
        left
        constructor
        · intro other otherData inside
          simp only [leave, SendSystem.setPhase, Function.update_apply]
            at inside
          split at inside
          · cases inside
          · rename_i different
            exact different (only other otherData inside)
        · rw [succeeded_leave]
          simp only [leave, SendSystem.setPhase, written, fits, List.take_length,
            succeeded, stream, List.flatMap_append]
          simp [tpktFrame]
  | _ => exact inFrame

/-- If every header that goes out is followed by its own data, the output is a
sequence of whole frames in every state of the run. -/
theorem sendWithTPKT_wholeFrames
    {socket : TcpSocket} {actions : List SendAction} {system : SendSystem}
    (ran : run step (start socket) actions = some system)
    (framable : ∀ caller data, .call caller data ∈ actions → Framable data)
    (keeps : AllSteps step KeepsFramesWhole (start socket) actions) :
    ∀ state, Visits step (start socket) actions state →
      WholeFrames state := by
  intro state visits
  have both : CallsFramable state ∧ InFrame state := by
    apply visits_invariant_of_allSteps _ _
      (keeps.and (allSteps_mem step (start socket) actions)) ran visits
    · intro before action next _ holds here stepped
      constructor
      · apply holds.1.step _ stepped
        intro caller data called
        rw [called] at here
        exact framable caller data here.2
      · exact holds.2.step holds.1 here.1 stepped
    · constructor
      · intro caller data inside
        simp [start] at inside
      · left
        simp [start, succeeded]
  intro outside
  rcases both.2 with ⟨_, written⟩ | ⟨caller, data, inside, _⟩
  · exact ⟨state.succeeded, .refl _, written⟩
  · rw [outside caller] at inside
    cases inside

/-- Two callers, one after the other. -/
theorem sendWithTPKT_wholeFrames_inTurn :
    ∃ system,
      run step (start openSocket)
          [.call 0 [7], .call 1 [8], .sendHeader 0 true, .sendData 0 true,
            .sendHeader 1 true, .sendData 1 true] = some system ∧
        WholeFrames system := by
  refine ⟨_, rfl, ?_⟩
  apply @sendWithTPKT_wholeFrames openSocket
    [.call 0 [7], .call 1 [8], .sendHeader 0 true, .sendData 0 true,
      .sendHeader 1 true, .sendData 1 true] _ rfl _ _ _ (visits_of_run rfl)
  · intro caller data called
    simp only [List.mem_cons, SendAction.call.injEq, reduceCtorEq, or_false,
      List.not_mem_nil] at called
    rcases called with ⟨_, rfl⟩ | ⟨_, rfl⟩ <;> decide
  · apply allSteps_cons trivial rfl
    apply allSteps_cons trivial rfl
    apply allSteps_cons _ rfl
    · apply allSteps_cons _ rfl
      · apply allSteps_cons _ rfl
        · exact ⟨rfl, fun _ _ => trivial⟩
        · intro _ other data inside
          rcases other with _ | _ | other <;> cases inside
      · rfl
    · intro _ other data inside
      rcases other with _ | _ | other <;> cases inside

/-- Two callers interleave, and a call fails between its two sends: neither
output is a sequence of whole frames. -/
theorem sendWithTPKT_tornFrames :
    (∃ system,
      run step (start openSocket)
          [.call 0 [7], .call 1 [8], .sendHeader 0 true, .sendHeader 1 true,
            .sendData 0 true, .sendData 1 true] = some system ∧
        ¬ WholeFrames system) ∧
    ∃ system,
      run step (start openSocket)
          [.call 0 [7], .sendHeader 0 true, .close true, .sendData 0 true] =
        some system ∧ system.returned = [([7], false)] ∧
        ¬ WholeFrames system := by
  constructor
  · refine ⟨_, rfl, ?_⟩
    intro whole
    obtain ⟨messages, permuted, written⟩ := whole (by
      intro caller
      rcases caller with _ | _ | caller <;> rfl)
    change messages.Perm [[7], [8]] at permuted
    have sent : ∀ message ∈ messages, message = [7] ∨ message = [8] := by
      intro message isIn
      simpa using permuted.mem_iff.mp isIn
    obtain ⟨first, second, rfl⟩ := List.length_eq_two.mp permuted.length_eq
    rcases sent first (by simp) with rfl | rfl <;>
      rcases sent second (by simp) with rfl | rfl <;> cases written
  · refine ⟨_, rfl, rfl, ?_⟩
    intro whole
    obtain ⟨messages, permuted, written⟩ := whole (by
      intro caller
      rcases caller with _ | caller <;> rfl)
    have none_ := List.Perm.eq_nil permuted
    subst none_
    cases written

end SendSystem

end Translib

end DBWrapper
