import Mathlib.Logic.Relation

/-!
# A queue that is swapped and drained

Producers append to the `incoming` queue at any time.  The consumer swaps it
with its own `working` queue, then takes the messages off one by one, and
goes back to waiting when the working queue is empty.  A message is taken off
either before it is handled or only afterwards; until then it is still at the
front of the queue while the consumer holds it.

Whatever the interleaving, the messages handled so far, the one being handled,
the rest of the working queue and the incoming queue are together the
messages posted so far, in the order in which they were posted.
-/

namespace Foundation

universe u
variable {Message : Type u}

/-- What the consumer is doing. -/
inductive Consumer (Message : Type u) where
  | waiting
  | draining
  | holding (message : Message) (removed : Bool)
  deriving DecidableEq, Repr

/-- The two queues and the consumer, with the messages posted and handled so
far. -/
structure DoubleBuffer (Message : Type u) where
  incoming : List Message
  working : List Message
  consumer : Consumer Message
  posted : List Message
  handled : List Message

namespace DoubleBuffer

inductive Step : DoubleBuffer Message → DoubleBuffer Message → Prop where
  | post {buffer : DoubleBuffer Message} (message : Message) :
      Step buffer
        { buffer with
          incoming := buffer.incoming ++ [message]
          posted := buffer.posted ++ [message] }
  | swap {buffer : DoubleBuffer Message} :
      buffer.consumer = .waiting →
      Step buffer
        { buffer with
          incoming := buffer.working
          working := buffer.incoming
          consumer := .draining }
  | take {buffer : DoubleBuffer Message} {message : Message}
      {rest : List Message} :
      buffer.consumer = .draining → buffer.working = message :: rest →
      Step buffer
        { buffer with working := rest, consumer := .holding message true }
  | peek {buffer : DoubleBuffer Message} {message : Message}
      {rest : List Message} :
      buffer.consumer = .draining → buffer.working = message :: rest →
      Step buffer { buffer with consumer := .holding message false }
  | release {buffer : DoubleBuffer Message} {message : Message}
      {removed : Bool} :
      buffer.consumer = .holding message removed →
      Step buffer
        { buffer with
          working := if removed then buffer.working else buffer.working.tail
          consumer := .draining
          handled := buffer.handled ++ [message] }
  | rest {buffer : DoubleBuffer Message} :
      buffer.consumer = .draining → buffer.working = [] →
      Step buffer { buffer with consumer := .waiting }

/-- The message being handled, if there is one. -/
def held (buffer : DoubleBuffer Message) : List Message :=
  match buffer.consumer with
  | .holding message _ => [message]
  | _ => []

/-- The working queue without the message being handled. -/
def remaining (buffer : DoubleBuffer Message) : List Message :=
  match buffer.consumer with
  | .holding _ false => buffer.working.tail
  | _ => buffer.working

/-- No message is lost, duplicated or reordered. -/
structure InOrder (buffer : DoubleBuffer Message) : Prop where
  account :
    buffer.handled ++ buffer.held ++ buffer.remaining ++ buffer.incoming =
      buffer.posted
  emptyWhileWaiting : buffer.consumer = .waiting → buffer.working = []
  heldAtFront : ∀ message, buffer.consumer = .holding message false →
    ∃ rest, buffer.working = message :: rest

theorem InOrder.step {buffer next : DoubleBuffer Message}
    (inOrder : InOrder buffer) (stepped : Step buffer next) :
    InOrder next := by
  have account := inOrder.account
  cases stepped with
  | post message =>
      refine ⟨?_, inOrder.emptyWhileWaiting, inOrder.heldAtFront⟩
      rw [← account]
      simp [held, remaining]
  | swap waiting =>
      have empty := inOrder.emptyWhileWaiting waiting
      refine ⟨?_, ?_, ?_⟩
      · simpa [held, remaining, waiting, empty] using account
      · intro stillWaiting
        cases stillWaiting
      · intro message holding
        cases holding
  | take draining front =>
      refine ⟨?_, ?_, ?_⟩
      · simpa [held, remaining, draining, front] using account
      · intro waiting
        cases waiting
      · intro message holding
        cases holding
  | peek draining front =>
      refine ⟨?_, ?_, ?_⟩
      · simpa [held, remaining, draining, front] using account
      · intro waiting
        cases waiting
      · intro message holding
        cases holding
        exact ⟨_, front⟩
  | @release message removed holding =>
      refine ⟨?_, ?_, ?_⟩
      · cases removed with
        | false => simpa [held, remaining, holding] using account
        | true => simpa [held, remaining, holding] using account
      · intro waiting
        cases waiting
      · intro other stillHolding
        cases stillHolding
  | rest draining empty =>
      refine ⟨?_, ?_, ?_⟩
      · simpa [held, remaining, draining, empty] using account
      · intro _
        exact empty
      · intro message holding
        cases holding

theorem InOrder.steps {buffer next : DoubleBuffer Message}
    (inOrder : InOrder buffer)
    (steps : Relation.ReflTransGen Step buffer next) :
    InOrder next := by
  induction steps with
  | refl => exact inOrder
  | tail _ stepped induction => exact induction.step stepped

end DoubleBuffer

end Foundation
