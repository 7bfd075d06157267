import DBWrapper.Redis.Reply

/-!
# A place in the middle of a reply

The reader of hiredis does not recurse.  It keeps the arrays around the next
item on a stack, each with the elements that are complete, and goes on from
there when more bytes have arrived.  The cursor of this module is that stack
without the objects and the buffer.

A cursor that is moved as far as the bytes go yields the replies that the
recursive parser reads from the same bytes.
-/

namespace DBWrapper

open Foundation

namespace Hiredis

/-- An array some of whose elements are complete. -/
structure Frame where
  elements : Nat
  done : List Reply
  deriving Repr

/-- The innermost array is in front.  `type` is the type of the next item, if
it has been read. -/
structure ReplyCursor where
  failure : Option ReplyFailure
  frames : List Frame
  type : Option ReplyType
  deriving Repr

/-- An item is complete, and so are the arrays that it is the last element
of. -/
def complete : List Frame → Reply → List Frame × Option Reply
  | [], reply => ([], some reply)
  | frame :: frames, reply =>
      if frame.done.length + 1 = frame.elements then
        complete frames (.array (frame.done ++ [reply]))
      else
        ({ frame with done := frame.done ++ [reply] } :: frames, none)

namespace ReplyCursor

/-- In front of an item inside the arrays. -/
def inside (frames : List Frame) : ReplyCursor :=
  { failure := none, frames, type := none }

/-- Behind the type byte of an item. -/
def inItem (frames : List Frame) (type : ReplyType) : ReplyCursor :=
  { failure := none, frames, type := some type }

/-- The effect of a complete item: the next place, and a reply if this was the
whole of it. -/
def finish (frames : List Frame) (reply : Reply) :
    ReplyCursor × Option Reply :=
  (inside (complete frames reply).1, (complete frames reply).2)

/-- The effect of an array header. -/
def enter (frames : List Frame) : Option Nat → ReplyCursor × Option Reply
  | none => finish frames .nil
  | some 0 => finish frames (.array [])
  | some elements => (inside ({ elements, done := [] } :: frames), none)

def fail (cursor : ReplyCursor) (failure : ReplyFailure) : ReplyCursor :=
  { cursor with failure := some failure }

/-- Go on with what has been read, if it has been read. -/
def advance {Value : Type} (cursor : ReplyCursor) (input : ByteString)
    (parsed : Parsed UInt8 ReplyFailure Value)
    (next : Value → ReplyCursor × Option Reply) :
    Option (ReplyCursor × ByteString × List Reply) :=
  match parsed with
  | .done value rest =>
      some ((next value).1, rest, (next value).2.toList)
  | .more => none
  | .fail failure => some (cursor.fail failure, input, [])

/-- The type byte and the rest of an item are two steps. -/
def step : Transducer ReplyCursor UInt8 Reply :=
  fun cursor input =>
    if cursor.failure.isSome then
      none
    else
      match cursor.type with
      | none =>
          match input with
          | [] => none
          | byte :: rest =>
              match replyType? byte with
              | none =>
                  some (cursor.fail (.error (protocolByteError byte)), input, [])
              | some type => some ({ cursor with type := some type }, rest, [])
      | some type =>
          if type = .array then
            if cursor.frames.length = maxLevels then
              some (cursor.fail (.error nestingError), input, [])
            else
              cursor.advance input (arrayHeader input) (enter cursor.frames)
          else
            cursor.advance input (scalar type input) (finish cursor.frames)

theorem step_of_failure
    {cursor : ReplyCursor} {failure : ReplyFailure}
    (failed : cursor.failure = some failure) (input : ByteString) :
    step cursor input = none := by
  simp [step, failed]

theorem advance_append
    {Value : Type} {parser : ReplyParser Value}
    (stable : Parser.Stable parser) (cursor : ReplyCursor)
    (next : Value → ReplyCursor × Option Reply) {input rest : ByteString}
    {after : ReplyCursor} {outputs : List Reply}
    (advanced : cursor.advance input (parser input) next =
      some (after, rest, outputs)) (back : ByteString) :
    cursor.advance (input ++ back) (parser (input ++ back)) next =
      some (after, rest ++ back, outputs) := by
  have extended := stable input back
  cases outcome : parser input with
  | done value behind =>
      rw [outcome] at advanced extended
      cases advanced
      rw [extended (by simp)]
      rfl
  | more =>
      rw [outcome] at advanced
      cases advanced
  | fail failure =>
      rw [outcome] at advanced extended
      cases advanced
      rw [extended (by simp)]
      rfl

theorem stable_step : Transducer.Stable step := by
  intro cursor input after rest outputs back stepped
  simp only [step] at stepped ⊢
  split at stepped
  · cases stepped
  · rename_i going
    rw [if_neg going]
    cases kind : cursor.type with
    | none =>
        rw [kind] at stepped
        cases input with
        | nil => cases stepped
        | cons byte input =>
            simp only [List.cons_append] at stepped ⊢
            cases type : replyType? byte with
            | none =>
                rw [type] at stepped
                cases stepped
                rfl
            | some type =>
                rw [type] at stepped
                cases stepped
                rfl
    | some type =>
        rw [kind] at stepped
        simp only at stepped ⊢
        split
        · rename_i isArray
          rw [if_pos isArray] at stepped
          split
          · rename_i full
            rw [if_pos full] at stepped
            cases stepped
            rfl
          · rename_i room
            rw [if_neg room] at stepped
            exact advance_append stable_arrayHeader cursor _ stepped back
        · rename_i notArray
          rw [if_neg notArray] at stepped
          exact advance_append (stable_scalar type) cursor _ stepped back

/-! ### One reply -/

/-- From a place on, the cursor makes of the input what a parser makes of it;
`next` is the effect of the value. -/
def Follows {Value : Type} (start : ReplyCursor)
    (next : Value → ReplyCursor × Option Reply) (input : ByteString) :
    Parsed UInt8 ReplyFailure Value → Prop
  | .done value rest =>
      Transducer.Steps step start input (next value).2.toList (next value).1 rest
  | .more =>
      ∃ cursor left, Transducer.Steps step start input [] cursor left ∧
        cursor.failure = none ∧ step cursor left = none
  | .fail failure =>
      ∃ cursor left, Transducer.Steps step start input [] cursor left ∧
        cursor.failure = some failure

section Following

variable {Value Result : Type} {start : ReplyCursor}
  {next : Value → ReplyCursor × Option Reply} {input : ByteString}
  {parsed : Parsed UInt8 ReplyFailure Value}

theorem follows_of_advance
    (going : start.failure = none)
    (advances : step start input = start.advance input parsed next) :
    Follows start next input parsed := by
  cases parsed with
  | done value rest => exact .single advances
  | more => exact ⟨start, input, .refl, going, advances⟩
  | fail failure => exact ⟨_, input, .single advances, rfl⟩

theorem Follows.after
    {before : ReplyCursor} {whole : ByteString}
    (steps : Transducer.Steps step before whole [] start input)
    (follows : Follows start next input parsed) :
    Follows before next whole parsed := by
  cases parsed with
  | done value rest => exact steps.trans follows
  | more =>
      obtain ⟨cursor, left, later, going, waits⟩ := follows
      exact ⟨cursor, left, steps.trans later, going, waits⟩
  | fail failure =>
      obtain ⟨cursor, left, later, failed⟩ := follows
      exact ⟨cursor, left, steps.trans later, failed⟩

/-- Two parts of a reply, the first of which yields nothing yet. -/
theorem Follows.bind
    {parser : Value → ReplyParser Result}
    {last : Result → ReplyCursor × Option Reply}
    (first : Follows start next input parsed)
    (second : ∀ value rest, parsed = .done value rest →
      (next value).2 = none ∧
        Follows (next value).1 last rest (parser value rest)) :
    Follows start last input (parsed.bind parser) := by
  cases parsed with
  | done value rest =>
      obtain ⟨noOutput, later⟩ := second value rest rfl
      rw [Parsed.bind_done]
      apply later.after
      rw [← Option.toList_none, ← noOutput]
      exact first
  | more => exact first
  | fail failure => exact first

theorem Follows.map
    {effect : Result → ReplyCursor × Option Reply} {wrap : Value → Result}
    (follows : Follows start (fun value => effect (wrap value)) input parsed) :
    Follows start effect input
      (parsed.bind fun value => .done (wrap value)) := by
  cases parsed with
  | done value rest => exact follows
  | more => exact follows
  | fail failure => exact follows

end Following

theorem finish_cons_of_missing
    {frame : Frame} (missing : frame.done.length + 1 ≠ frame.elements)
    (frames : List Frame) (reply : Reply) :
    finish (frame :: frames) reply =
      (inside ({ frame with done := frame.done ++ [reply] } :: frames),
        none) := by
  simp [finish, complete, missing]

theorem finish_cons_of_last
    {frame : Frame} (last : frame.done.length + 1 = frame.elements)
    (frames : List Frame) (reply : Reply) :
    finish (frame :: frames) reply =
      finish frames (.array (frame.done ++ [reply])) := by
  simp [finish, complete, last]

/-- The elements of an array one after the other.  The induction is on how many
are missing; each of them is followed in the frame that holds those before
it. -/
theorem follows_replicate
    {nested : ReplyParser Reply} {frames : List Frame}
    (follows : ∀ (frame : Frame) (input : ByteString),
      Follows (inside (frame :: frames)) (finish (frame :: frames)) input
        (nested input))
    (count : Nat) (done : List Reply) (input : ByteString) :
    Follows
      (inside ({ elements := done.length + (count + 1), done } :: frames))
      (fun replies => finish frames (.array (done ++ replies))) input
      (nested.replicate (count + 1) input) := by
  induction count generalizing done input with
  | zero =>
      let frame : Frame := { elements := done.length + (0 + 1), done }
      have wraps : finish (frame :: frames) =
          fun reply => finish frames (.array (done ++ [reply])) :=
        funext (finish_cons_of_last rfl frames)
      have last := follows frame input
      rw [wraps] at last
      have single : Follows (inside (frame :: frames))
          (fun replies => finish frames (.array (done ++ replies))) input
          ((nested input).bind fun reply => .done [reply]) :=
        @Follows.map _ _ _ _ _
          (fun replies => finish frames (.array (done ++ replies)))
          (fun reply => [reply]) last
      exact single
  | succ count induction =>
      let frame : Frame :=
        { elements := done.length + (count + 1 + 1), done }
      have missing : frame.done.length + 1 ≠ frame.elements := by
        simp only [frame]
        omega
      rw [Parser.replicate]
      apply (follows frame input).bind
      intro reply rest _
      rw [finish_cons_of_missing missing]
      refine ⟨rfl, Follows.map ?_⟩
      have later := induction (done ++ [reply]) rest
      have sameCount : (done ++ [reply]).length + (count + 1) =
          frame.elements := by
        simp only [List.length_append, List.length_singleton, frame]
        omega
      simp only [sameCount, List.append_assoc, List.singleton_append] at later
      exact later

/-- The first step of an item, up to its type. -/
theorem steps_typeByte
    {byte : UInt8} {type : ReplyType} (kind : replyType? byte = some type)
    (frames : List Frame) (input : ByteString) :
    Transducer.Steps step (inside frames) (byte :: input) []
      (inItem frames type) input := by
  apply Transducer.Steps.single
  simp [step, inside, inItem, kind]

/-- An item of any type.  There is room for the elements of an array exactly if
they have a parser. -/
theorem follows_replyWith
    {nested : Option (ReplyParser Reply)} {frames : List Frame}
    (room : frames.length = maxLevels ↔ nested = none)
    (follows : ∀ parser ∈ nested, ∀ (frame : Frame) (input : ByteString),
      Follows (inside (frame :: frames)) (finish (frame :: frames)) input
        (parser input))
    (input : ByteString) :
    Follows (inside frames) (finish frames) input (replyWith nested input) := by
  cases input with
  | nil => exact ⟨_, [], .refl, rfl, rfl⟩
  | cons byte input =>
      rw [replyWith]
      cases kind : replyType? byte with
      | none =>
          refine ⟨(inside frames).fail (.error (protocolByteError byte)),
            byte :: input, .single ?_, rfl⟩
          simp [step, inside, kind]
      | some type =>
          apply Follows.after (steps_typeByte kind frames input)
          simp only [typed]
          split
          · rename_i isArray
            subst isArray
            cases nested with
            | none =>
                refine ⟨(inItem frames .array).fail (.error nestingError),
                  input, .single ?_, rfl⟩
                simp [step, inItem, room.mpr rfl]
            | some nested =>
                have notFull : frames.length ≠ maxLevels := by
                  intro full
                  cases room.mp full
                have header : Follows (inItem frames .array) (enter frames)
                    input (arrayHeader input) := by
                  apply follows_of_advance rfl
                  simp [step, inItem, notFull]
                simp only [arrayWith]
                cases outcome : arrayHeader input with
                | more =>
                    rw [outcome] at header
                    exact header
                | fail failure =>
                    rw [outcome] at header
                    exact header
                | done elements rest =>
                    rw [outcome] at header
                    cases elements with
                    | none => exact header
                    | some elements =>
                        cases elements with
                        | zero => exact header
                        | succ elements =>
                            have items := follows_replicate
                              (follows nested rfl) elements [] rest
                            rw [List.length_nil, Nat.zero_add] at items
                            exact items.map.after header
          · rename_i notArray
            apply follows_of_advance rfl
            simp [step, inItem, notArray]

/-- The induction is on the nesting that is left; the arrays around the reply
take up the rest. -/
theorem follows_reply
    {levels : Nat} {frames : List Frame}
    (room : frames.length + levels = maxLevels) (input : ByteString) :
    Follows (inside frames) (finish frames) input (reply levels input) := by
  induction levels generalizing frames input with
  | zero =>
      apply follows_replyWith
      · simpa using room
      · intro parser nested
        cases nested
  | succ levels induction =>
      apply follows_replyWith
      · simp only [reduceCtorEq, iff_false]
        omega
      · intro parser nested frame input
        cases nested
        apply induction
        rw [List.length_cons]
        omega

/-! ### The whole stream -/

/-- The cursor yields the replies that the parser reads, and fails as it
does. -/
theorem settles_of_transducer
    {input left : ByteString} {replies : List Reply}
    {failure : Option ReplyFailure}
    (settles : Transducer.Settles (reply maxLevels).transducer none input replies
      failure left) :
    ∃ cursor rest, Transducer.Settles step (inside []) input replies cursor rest ∧
      cursor.failure = failure := by
  generalize start : (none : Option ReplyFailure) = state at settles
  induction settles with
  | @wait state input waits =>
      subst start
      have follows : Follows (inside []) (finish []) input
          (reply maxLevels input) := follows_reply rfl input
      cases outcome : reply maxLevels input with
      | more =>
          rw [outcome] at follows
          obtain ⟨cursor, rest, steps, going, stuck⟩ := follows
          have stopped := steps.settles (.wait stuck)
          exact ⟨cursor, rest, stopped, going⟩
      | done value rest => simp [Parser.transducer, outcome] at waits
      | fail failure => simp [Parser.transducer, outcome] at waits
  | @step state next final input rest left outputs later stepped settles
      induction =>
      subst start
      have follows : Follows (inside []) (finish []) input
          (reply maxLevels input) := follows_reply rfl input
      cases outcome : reply maxLevels input with
      | more => simp [Parser.transducer, outcome] at stepped
      | done value behind =>
          rw [outcome] at follows
          simp only [Parser.transducer, outcome, Option.some.injEq,
            Prod.mk.injEq] at stepped
          obtain ⟨rfl, rfl, rfl⟩ := stepped
          obtain ⟨cursor, rest, settled, same⟩ := induction rfl
          exact ⟨cursor, rest, follows.settles settled, same⟩
      | fail failure =>
          rw [outcome] at follows
          simp only [Parser.transducer, outcome, Option.some.injEq,
            Prod.mk.injEq] at stepped
          obtain ⟨rfl, rfl, rfl⟩ := stepped
          obtain ⟨cursor, rest, steps, failed⟩ := follows
          have stopped := steps.settles (.wait (step_of_failure failed rest))
          cases settles with
          | wait _ => exact ⟨cursor, rest, stopped, failed⟩
          | step impossible _ => cases impossible

end ReplyCursor

end Hiredis

end DBWrapper
