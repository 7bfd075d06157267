import DBWrapper.Foundation.Runs
import DBWrapper.Translib.TpktTermination

/-!
# What `onRead` is told

`onRead` gets a pointer four bytes into the receive buffer, and a length that
is four below `packet_length`.  Nothing else is asked of `packet_length` than
that so many bytes were in the input buffer before the byte with the wrong
magic number was removed.  So the range is the received one for a frame of at
least four bytes that is there as a whole, and for no other.
-/

namespace DBWrapper

namespace Translib

open Foundation

/-- The range that is handed over is the part behind the header of a frame
that has been filled as a whole. -/
structure OnRead.Sound (call : OnRead) : Prop where
  filled : call.filled.length = call.packetLength.toNat
  len : call.len.toNat + tpkt1Length.toNat = call.filled.length

theorem OnRead.Sound.message {call : OnRead} (sound : call.Sound) :
    call.message = some (call.filled.drop tpkt1Length.toNat) := by
  have exact_ := sound.len
  rw [OnRead.message, if_pos (by omega)]
  congr 1
  apply List.take_of_length_le
  rw [List.length_drop]
  omega

/-- Bytes that arrive, and the passes of the loop in `onSessionRead`. -/
inductive ReadAction where
  | chunk (bytes : List UInt8)
  | pass
  deriving DecidableEq, Repr

/-- The chunk that an action delivers. -/
def ReadAction.delivered : ReadAction → Option (List UInt8)
  | .chunk bytes => some bytes
  | .pass => none

/-- `looping` tells whether `onSessionRead` is running. -/
structure Receiver where
  reception : Reception
  looping : Bool

namespace Receiver

def idle (session : TcpSocket) : Receiver :=
  { reception := { session, reads := [] }, looping := false }

/-- The callback comes with every chunk, and nothing is delivered while it is
running. -/
def step (receiver : Receiver) : ReadAction → Option Receiver
  | .chunk bytes =>
      if receiver.looping then
        none
      else
        let session := receiver.reception.session.deliver bytes
        some
          { reception := { receiver.reception with session }
            looping := true }
  | .pass =>
      if receiver.looping then
        match onSessionReadPass receiver.reception with
        | .again reception => some { reception, looping := true }
        | .leave reception => some { reception, looping := false }
      else
        none

/-- The loop from some pass on is a run of passes. -/
theorem run_of_ends
    {reception final : Reception}
    (ends : Ends onSessionReadPass reception final) :
    ∃ passes : List ReadAction,
      passes.filterMap ReadAction.delivered = [] ∧
        run step { reception, looping := true } passes =
          some { reception := final, looping := false } := by
  induction ends with
  | leave left =>
      refine ⟨[.pass], rfl, ?_⟩
      simp [run, step, left]
  | again continued _ induction =>
      obtain ⟨passes, silent, ran⟩ := induction
      refine ⟨.pass :: passes, silent, ?_⟩
      rw [run_cons_eq_some_iff]
      exact ⟨_, by simp [step, continued], ran⟩

/-- Chunks that are received one after the other are such a run. -/
theorem run_of_receiveChunks
    {fuel : Nat} {reception final : Reception} {chunks : List (List UInt8)}
    (received : receiveChunks fuel reception chunks = some final) :
    ∃ actions : List ReadAction,
      actions.filterMap ReadAction.delivered = chunks ∧
        run step { reception, looping := false } actions =
          some { reception := final, looping := false } := by
  induction chunks generalizing reception with
  | nil =>
      cases received
      exact ⟨[], rfl, rfl⟩
  | cons chunk chunks induction =>
      rw [receiveChunks] at received
      split at received
      · cases received
      · rename_i next returned
        obtain ⟨passes, silent, looped⟩ :=
          run_of_ends (ends_of_iterate returned)
        obtain ⟨actions, delivered, ran⟩ := induction received
        refine ⟨.chunk chunk :: (passes ++ actions), ?_, ?_⟩
        · rw [List.filterMap_cons, List.filterMap_append, silent, delivered]
          rfl
        · rw [run_cons_eq_some_iff]
          refine ⟨_, rfl, ?_⟩
          rw [run_append_eq_some_iff]
          exact ⟨_, looped, ran⟩

end Receiver

/-- If the pass takes what it finds at the front of the input buffer for a
frame, then the length in the header is at least that of the header, and so
many bytes are there behind the one that is removed. -/
def WholeFrame (state : Reception) : Prop :=
  ∀ first high middle low rest,
    state.session.HasInput (first :: high :: middle :: low :: rest) →
    ¬ state.session.getInputBufferLength < 1 →
    ¬ tpktPacketLength high middle low > state.session.getInputBufferLength →
      4 ≤ (tpktPacketLength high middle low).toNat ∧
        skipped first + (tpktPacketLength high middle low).toNat ≤
          rest.length + 4

/-- With a header in view, the pass stays in the loop exactly if the frame is
not found to be in the air. -/
theorem onSessionReadPass_of_header
    {state : Reception} {first high middle low : UInt8} {rest : List UInt8}
    (input : state.session.HasInput (first :: high :: middle :: low :: rest))
    (hasData : ¬ state.session.getInputBufferLength < 1) :
    (∃ next, onSessionReadPass state = .again next) ↔
      ¬ tpktPacketLength high middle low >
        state.session.getInputBufferLength := by
  obtain ⟨_, _, _, _, _, passed⟩ := onSessionReadPass_header input hasData
  rw [passed]
  by_cases inTheAir : tpktPacketLength high middle low >
      state.session.getInputBufferLength
  · simp [inTheAir]
  · simp [inTheAir]

theorem reads_of_leave
    {state final : Reception} (left : onSessionReadPass state = .leave final) :
    final.reads = state.reads := by
  simp only [onSessionReadPass] at left
  split at left
  · cases left
    rfl
  · split at left
    · cases left
      rfl
    · split at left
      · cases left
        rfl
      · split at left
        · cases left
        · cases left

theorem wholeFrame_of_leave
    {state final : Reception} (left : onSessionReadPass state = .leave final) :
    WholeFrame state := by
  intro first high middle low rest input hasData complete
  obtain ⟨next, passed⟩ :=
    (onSessionReadPass_of_header input hasData).mpr complete
  rw [left] at passed
  cases passed

/-- A pass that stays in the loop has made one call. -/
theorem sound_iff_of_again
    {state next : Reception} (passed : onSessionReadPass state = .again next) :
    ∃ call, next.reads = state.reads ++ [call] ∧
      (call.Sound ↔ WholeFrame state) := by
  obtain ⟨bytes, input⟩ := hasInput_of_again passed
  obtain ⟨first, high, middle, low, rest, rfl, hasData, _, reads⟩ :=
    onSessionReadPass_again input passed
  have complete :=
    (onSessionReadPass_of_header input hasData).mp ⟨next, passed⟩
  have bounded := (tpktPacketLength high middle low).toNat_lt
  have oneByte : skipped first ≤ 1 := by
    simp only [skipped]
    split <;> omega
  refine ⟨_, reads, ?_⟩
  constructor
  · intro sound other otherHigh otherMiddle otherLow otherRest otherInput _ _
    have same := input.unique otherInput
    simp only [List.cons.injEq] at same
    obtain ⟨rfl, rfl, rfl, rfl, rfl⟩ := same
    have filled := sound.filled
    have len := sound.len
    simp only [List.length_take, List.length_drop, List.length_cons,
      UInt32.toNat_sub, tpkt1Length, UInt32.reduceToNat] at filled len
    omega
  · intro whole
    obtain ⟨long, there⟩ := whole _ _ _ _ _ input hasData complete
    constructor
    · simp only [List.length_take, List.length_drop, List.length_cons]
      omega
    · simp only [List.length_take, List.length_drop, List.length_cons,
        UInt32.toNat_sub, tpkt1Length, UInt32.reduceToNat]
      omega

namespace Receiver

/-- All calls so far were right. -/
def ReadsSound (receiver : Receiver) : Prop :=
  ∀ call ∈ receiver.reception.reads, call.Sound

/-- The condition on a pass. -/
def TakesWholeFrames (receiver : Receiver) : ReadAction → Prop
  | .chunk _ => True
  | .pass => WholeFrame receiver.reception

theorem readsSound_step
    {receiver next : Receiver} {action : ReadAction}
    (stepped : receiver.step action = some next) :
    next.ReadsSound ↔
      receiver.ReadsSound ∧ receiver.TakesWholeFrames action := by
  cases action with
  | chunk bytes =>
      simp only [step] at stepped
      split at stepped
      · cases stepped
      · cases stepped
        exact (and_iff_left trivial).symm
  | pass =>
      simp only [step] at stepped
      split at stepped
      · split at stepped
        · rename_i passed
          cases stepped
          obtain ⟨call, reads, sound⟩ := sound_iff_of_again passed
          simp only [ReadsSound, reads, List.forall_mem_append,
            List.forall_mem_singleton, sound, TakesWholeFrames]
        · rename_i left
          cases stepped
          have whole := wholeFrame_of_leave left
          simp only [ReadsSound, reads_of_leave left, TakesWholeFrames, whole,
            and_true]
      · cases stepped

/-- Whatever arrives, and however often the loop is run: all calls of `onRead`
were right exactly if every pass that took a frame found one of at least four
bytes, and all of it. -/
theorem onRead_sound_iff
    {session : TcpSocket} {actions : List ReadAction} {final : Receiver}
    (ran : run step (idle session) actions = some final) :
    (∀ call ∈ final.reception.reads, call.Sound) ↔
      AllSteps step TakesWholeFrames (idle session) actions := by
  have whole := @run_iff_allSteps _ _ step TakesWholeFrames (fun _ => True)
    ReadsSound (fun _ _ _ _ _ => trivial)
    (fun _ _ _ _ stepped => readsSound_step stepped) _ _ _ trivial ran
  have fresh : (idle session).ReadsSound := by
    intro call listed
    cases listed
  rw [and_iff_right fresh] at whole
  exact whole

/-- A frame arrives in two pieces. -/
theorem onRead_sound_iff_twoChunks :
    ∃ final,
      run step (idle openSocket)
          [.chunk [1, 0], .pass, .chunk [0, 5, 7], .pass, .pass] =
        some final ∧
      final.reception.reads.length = 1 ∧
      ∀ call ∈ final.reception.reads, call.Sound := by
  obtain ⟨final, ran, reads⟩ : ∃ final,
      run step (idle openSocket)
          [.chunk [1, 0], .pass, .chunk [0, 5, 7], .pass, .pass] =
        some final ∧
      final.reception.reads.length = 1 := ⟨_, rfl, rfl⟩
  refine ⟨final, ran, reads, (onRead_sound_iff ran).mpr ?_⟩
  apply allSteps_cons trivial rfl
  apply allSteps_cons (wholeFrame_of_leave rfl) rfl
  apply allSteps_cons trivial rfl
  apply allSteps_cons _ rfl
  · exact ⟨wholeFrame_of_leave rfl, fun _ _ => trivial⟩
  · intro first high middle low rest input _ _
    obtain ⟨bev, attached, bytes⟩ := input
    cases attached
    cases bytes
    decide

/-- A length of 3 makes `len` wrap around.  And of 7 0 0 5 9 the first byte is
dropped, so that the last byte of the buffer is not filled: the message that
is reported is that byte. -/
theorem onRead_unsound :
    (∃ final, run step (idle openSocket) [.chunk [1, 0, 0, 3], .pass] =
        some final ∧
      final.reception.reads =
        [{ packetLength := 3, filled := [1, 0, 0], len := 0xffffffff }] ∧
      ¬ ∀ call ∈ final.reception.reads, call.Sound) ∧
    ∃ final, run step (idle openSocket) [.chunk [7, 0, 0, 5, 9], .pass] =
        some final ∧
      final.reception.reads =
        [{ packetLength := 5, filled := [0, 0, 5, 9], len := 1 }] ∧
      ¬ ∀ call ∈ final.reception.reads, call.Sound := by
  refine ⟨⟨_, rfl, rfl, ?_⟩, ⟨_, rfl, rfl, ?_⟩⟩
  · intro sound
    have len := (sound _ List.mem_cons_self).len
    revert len
    decide
  · intro sound
    have filled := (sound _ List.mem_cons_self).filled
    revert filled
    decide

end Receiver

end Translib

end DBWrapper
