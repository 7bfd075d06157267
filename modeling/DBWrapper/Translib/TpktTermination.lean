import DBWrapper.Translib.TpktReassembly

/-!
# When the receive loop ends

A pass of `onSessionRead` removes as many bytes as the header says, and one
more if the magic number is lost.  So it makes progress on every input but
one: a header with the right version and a length of 0.  There the loop stays
where it is for ever.
-/

namespace DBWrapper

namespace Translib

open Foundation

/-- The input buffer begins with the version and a frame length of 0, and
`getInputBufferLength` does not report it to be empty. -/
def AtZeroLength (state : Reception) : Prop :=
  ¬ state.session.getInputBufferLength < 1 ∧
    ∃ rest, state.session.HasInput (tpktVersion1LowByte :: 0 :: 0 :: 0 :: rest)

/-- The number of buffered bytes. -/
def buffered (state : Reception) : Nat :=
  match state.session.bev with
  | none => 0
  | some bev => bev.input.length

theorem TcpSocket.HasInput.buffered
    {state : Reception} {bytes : List UInt8}
    (input : state.session.HasInput bytes) :
    Translib.buffered state = bytes.length := by
  obtain ⟨bev, attached, rfl⟩ := input
  simp [Translib.buffered, attached]

/-- With no buffer event there is no second pass. -/
theorem hasInput_of_again
    {state next : Reception} (passed : onSessionReadPass state = .again next) :
    ∃ bytes, state.session.HasInput bytes := by
  cases attached : state.session.bev with
  | none =>
      have empty : state.session.getInputBufferLength < 1 := by
        simp [TcpSocket.getInputBufferLength, attached]
      simp [onSessionReadPass, empty] at passed
  | some bev => exact ⟨bev.input, bev, attached, rfl⟩

/-- A pass that asks for another one has seen a header, and has removed what
the header says. -/
theorem onSessionReadPass_again
    {state next : Reception} {bytes : List UInt8}
    (input : state.session.HasInput bytes)
    (passed : onSessionReadPass state = .again next) :
    ∃ first high middle low rest,
      bytes = first :: high :: middle :: low :: rest ∧
        ¬ state.session.getInputBufferLength < 1 ∧
        next.session.HasInput
          (bytes.drop
            (skipped first + (tpktPacketLength high middle low).toNat)) ∧
        next.reads = state.reads ++
          [{ packetLength := tpktPacketLength high middle low
             filled :=
              (bytes.drop (skipped first)).take
                (tpktPacketLength high middle low).toNat
             len := tpktPacketLength high middle low - tpkt1Length }] := by
  by_cases idle : state.session.getInputBufferLength < 1 ∨ bytes.length < 4
  · rw [onSessionReadPass_idle input idle] at passed
    cases passed
  · obtain ⟨hasData, long⟩ := not_or.mp idle
    obtain ⟨first, high, middle, low, rest, rfl⟩ :=
      exists_header_of_length (Nat.not_lt.mp long)
    obtain ⟨_, _, _, _, after, result⟩ :=
      onSessionReadPass_header input hasData
    rw [result] at passed
    split at passed
    · cases passed
    · cases passed
      exact ⟨first, high, middle, low, rest, rfl, hasData, after, rfl⟩

theorem tpktPacketLength_eq_zero
    {high middle low : UInt8}
    (zero : (tpktPacketLength high middle low).toNat = 0) :
    high = 0 ∧ middle = 0 ∧ low = 0 := by
  rw [tpktPacketLength_toNat] at zero
  refine ⟨UInt8.toNat_inj.mp ?_, UInt8.toNat_inj.mp ?_, UInt8.toNat_inj.mp ?_⟩
  · rw [UInt8.toNat_zero]
    omega
  · rw [UInt8.toNat_zero]
    omega
  · rw [UInt8.toNat_zero]
    omega

/-- A pass makes progress, or it is at a header with a length of 0. -/
theorem onSessionReadPass_progress
    {state next : Reception} (passed : onSessionReadPass state = .again next) :
    AtZeroLength state ∨ buffered next < buffered state := by
  obtain ⟨bytes, input⟩ := hasInput_of_again passed
  obtain ⟨first, high, middle, low, rest, rfl, hasData, after, _⟩ :=
    onSessionReadPass_again input passed
  rw [input.buffered, after.buffered, List.length_drop]
  by_cases removes : skipped first + (tpktPacketLength high middle low).toNat = 0
  · left
    obtain ⟨noSkip, zero⟩ := Nat.add_eq_zero_iff.mp removes
    obtain ⟨rfl, rfl, rfl⟩ := tpktPacketLength_eq_zero zero
    have version : first = tpktVersion1LowByte := by
      by_contra lost
      simp [skipped, lost] at noSkip
    rw [version] at input
    exact ⟨hasData, rest, input⟩
  · right
    simp only [List.length_cons]
    omega

/-- At a header with a length of 0 the pass removes nothing. -/
theorem AtZeroLength.again
    {state : Reception} (atZero : AtZeroLength state) :
    ∃ next, onSessionReadPass state = .again next ∧ AtZeroLength next ∧
      buffered next = buffered state := by
  obtain ⟨hasData, rest, input⟩ := atZero
  have complete : ¬ tpktPacketLength 0 0 0 >
      state.session.getInputBufferLength := by
    rw [gt_iff_lt, UInt32.lt_iff_toNat_lt]
    exact Nat.not_lt_zero _
  obtain ⟨_, session, _, _, after, passed⟩ :=
    onSessionReadPass_header input hasData
  rw [if_neg complete] at passed
  have unchanged : session.HasInput
      (tpktVersion1LowByte :: 0 :: 0 :: 0 :: rest) := after
  have sameLength :
      session.getInputBufferLength = state.session.getInputBufferLength := by
    rw [unchanged.getInputBufferLength, input.getInputBufferLength]
  refine ⟨_, passed, ?_, ?_⟩
  · exact ⟨by rw [sameLength]; exact hasData, rest, unchanged⟩
  · rw [input.buffered]
    exact TcpSocket.HasInput.buffered unchanged

theorem ends_iff_not_atZeroLength (state : Reception) :
    (∃ final, Ends onSessionReadPass state final) ↔
      ∀ reached, Passes onSessionReadPass state reached →
        ¬ AtZeroLength reached := by
  apply ends_iff_not_trapped buffered
  · intro stuck atZero
    obtain ⟨next, passed, stillAtZero, _⟩ := atZero.again
    exact ⟨next, passed, stillAtZero⟩
  · intro before next passed
    exact onSessionReadPass_progress passed

/-- It is enough that the bytes 1, 0, 0, 0 do not follow each other anywhere
in the input. -/
theorem ends_of_not_infix
    {state : Reception} {bytes : List UInt8}
    (input : state.session.HasInput bytes)
    (absent : ¬ [tpktVersion1LowByte, 0, 0, 0] <:+: bytes) :
    ∃ final, Ends onSessionReadPass state final := by
  rw [ends_iff_not_atZeroLength]
  intro reached passes atZero
  have suffix : ∃ rest, reached.session.HasInput rest ∧ rest <:+ bytes := by
    clear atZero
    induction passes with
    | refl => exact ⟨bytes, input, List.suffix_refl bytes⟩
    | tail _ passed induction =>
        obtain ⟨middle, middleInput, middleSuffix⟩ := induction
        obtain ⟨rest, restInput, restSuffix⟩ :=
          onSessionReadPass_suffix middleInput (.inl passed)
        exact ⟨rest, restInput, restSuffix.trans middleSuffix⟩
  obtain ⟨rest, restInput, restSuffix⟩ := suffix
  obtain ⟨_, after, stuckInput⟩ := atZero
  rw [restInput.unique stuckInput] at restSuffix
  apply absent
  exact (List.prefix_append [tpktVersion1LowByte, 0, 0, 0] after).isInfix.trans
    restSuffix.isInfix

/-- The loop ends on exactly the inputs on which no pass begins at a header
with the right version and a length of 0; and exactly at such a header a pass
stays in the loop without removing a byte. -/
theorem onSessionRead_terminates_iff (state : Reception) :
    ((∃ final enough, ∀ fuel, enough ≤ fuel →
        onSessionRead fuel state = some final) ↔
      ∀ reached, Passes onSessionReadPass state reached →
        ¬ AtZeroLength reached) ∧
    ∀ next, onSessionReadPass state = .again next →
      (buffered next < buffered state ↔ ¬ AtZeroLength state) := by
  constructor
  · rw [← ends_iff_not_atZeroLength]
    constructor
    · intro returns
      obtain ⟨final, enough, result⟩ := returns
      exact ⟨final, ends_of_iterate (result enough (Nat.le_refl enough))⟩
    · intro ends
      obtain ⟨final, ends⟩ := ends
      obtain ⟨enough, result⟩ := iterate_of_ends ends
      exact ⟨final, enough, result⟩
  · intro next passed
    constructor
    · intro fewer atZero
      obtain ⟨same, again, _, unchanged⟩ := atZero.again
      rw [passed] at again
      cases again
      omega
    · intro notAtZero
      exact (onSessionReadPass_progress passed).resolve_left notAtZero

/-- On the four bytes 1, 0, 0, 0 the loop never returns. -/
theorem onSessionRead_hangs :
    ¬ ∃ fuel final, onSessionRead fuel
      { session :=
          { bev :=
              some { input := [1, 0, 0, 0], output := []
                     writeEnabled := true, shutDown := false }
            isClosing := false }
        reads := [] } = some final := by
  intro returns
  obtain ⟨fuel, final, returned⟩ := returns
  apply (ends_iff_not_atZeroLength _).mp ⟨final, ends_of_iterate returned⟩ _
    .refl
  exact ⟨by decide, [], _, rfl, rfl⟩

end Translib

end DBWrapper
