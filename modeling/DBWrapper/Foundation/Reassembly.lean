/-!
# Reassembling a chunked stream of frames

A sender writes one frame after the other; the receiver sees the same symbols
cut at arbitrary places.  `arrived` names the messages whose frames lie
entirely inside the part received so far, `pending` the symbols behind them.
`Drains` is what a receiver does with its buffer when a chunk has been
appended: it takes complete frames off the front until an incomplete one is
left.  The chunk lemma says that this keeps a receiver in step with `arrived`
and `pending`, whatever the cuts are.
-/

namespace Foundation

universe u v
variable {Message : Type u} {Symbol : Type v}

/-- The frames of the messages, one behind the other. -/
def stream (encode : Message → List Symbol) (messages : List Message) :
    List Symbol :=
  messages.flatMap encode

@[simp] theorem stream_nil (encode : Message → List Symbol) :
    stream encode [] = [] := rfl

@[simp] theorem stream_cons (encode : Message → List Symbol)
    (message : Message) (messages : List Message) :
    stream encode (message :: messages) =
      encode message ++ stream encode messages := rfl

theorem stream_append (encode : Message → List Symbol)
    (front back : List Message) :
    stream encode (front ++ back) =
      stream encode front ++ stream encode back :=
  List.flatMap_append

/-- The messages whose frames are complete once `count` symbols of the stream
have been received. -/
def arrived (encode : Message → List Symbol) :
    List Message → Nat → List Message
  | [], _ => []
  | message :: messages, count =>
      if (encode message).length ≤ count then
        message ::
          arrived encode messages (count - (encode message).length)
      else
        []

/-- The received symbols that belong to no complete frame. -/
def pending (encode : Message → List Symbol)
    (messages : List Message) (received : List Symbol) : List Symbol :=
  received.drop (stream encode (arrived encode messages received.length)).length

/-- A proper beginning of some valid frame; the empty buffer counts as one. -/
def Incomplete (encode : Message → List Symbol) (Valid : Message → Prop)
    (buffer : List Symbol) : Prop :=
  buffer = [] ∨
    ∃ message, Valid message ∧ buffer <+: encode message ∧
      buffer.length < (encode message).length

/-- Taking complete frames off the front of a buffer until none is left. -/
inductive Drains (encode : Message → List Symbol) (Valid : Message → Prop) :
    List Symbol → List Message → List Symbol → Prop where
  | stop {buffer : List Symbol} :
      Incomplete encode Valid buffer → Drains encode Valid buffer [] buffer
  | frame {message : Message} {rest final : List Symbol}
      {messages : List Message} :
      Valid message → Drains encode Valid rest messages final →
      Drains encode Valid (encode message ++ rest) (message :: messages) final

/-- A buffer that is drained after each chunk, from the first chunk on. -/
inductive Receives (encode : Message → List Symbol) (Valid : Message → Prop) :
    List Symbol → List (List Symbol) → List Message → List Symbol → Prop where
  | done {buffer : List Symbol} : Receives encode Valid buffer [] [] buffer
  | chunk {buffer chunk middle final : List Symbol}
      {chunks : List (List Symbol)} {first later : List Message} :
      Drains encode Valid (buffer ++ chunk) first middle →
      Receives encode Valid middle chunks later final →
      Receives encode Valid buffer (chunk :: chunks) (first ++ later) final

section Prefixes

variable {encode : Message → List Symbol}

theorem arrived_cons_of_complete
    {message : Message} {messages : List Message} {received : List Symbol} :
    arrived encode (message :: messages)
        (encode message ++ received).length =
      message :: arrived encode messages received.length := by
  simp [arrived]

theorem pending_cons_of_complete
    {message : Message} {messages : List Message} {received : List Symbol} :
    pending encode (message :: messages) (encode message ++ received) =
      pending encode messages received := by
  simp only [pending]
  rw [arrived_cons_of_complete, stream_cons, List.length_append,
    List.drop_append]
  simp

theorem arrived_cons_of_short
    {message : Message} {messages : List Message} {count : Nat}
    (short : count < (encode message).length) :
    arrived encode (message :: messages) count = [] := by
  simp [arrived, Nat.not_le.mpr short]

theorem pending_cons_of_short
    {message : Message} {messages : List Message} {received : List Symbol}
    (short : received.length < (encode message).length) :
    pending encode (message :: messages) received = received := by
  simp [pending, arrived_cons_of_short short]

/-- Messages that have arrived do not matter to what is pending. -/
theorem pending_append
    (front back : List Message) (received : List Symbol) :
    pending encode (front ++ back) (stream encode front ++ received) =
      pending encode back received := by
  induction front with
  | nil => rfl
  | cons message front induction =>
      rw [List.cons_append, stream_cons, List.append_assoc,
        pending_cons_of_complete, induction]

/-- A beginning of the stream either contains the whole first frame or ends
inside it. -/
theorem prefix_stream_cons_cases
    {message : Message} {messages : List Message} {received : List Symbol}
    (isPrefix : received <+: stream encode (message :: messages)) :
    (∃ back, received = encode message ++ back ∧
        back <+: stream encode messages) ∨
      (received <+: encode message ∧
        received.length < (encode message).length) := by
  rw [stream_cons] at isPrefix
  by_cases short : received.length < (encode message).length
  · right
    exact ⟨List.prefix_of_prefix_length_le isPrefix
      (List.prefix_append _ _) (Nat.le_of_lt short), short⟩
  · left
    have whole : encode message <+: received :=
      List.prefix_of_prefix_length_le (List.prefix_append _ _) isPrefix
        (Nat.le_of_not_gt short)
    obtain ⟨back, rfl⟩ := whole
    exact ⟨back, rfl, (List.prefix_append_right_inj _).mp isPrefix⟩

/-- What has arrived is a beginning of the messages, in order. -/
theorem arrived_isPrefix (messages : List Message) (count : Nat) :
    arrived encode messages count <+: messages := by
  induction messages generalizing count with
  | nil => exact List.prefix_refl []
  | cons message messages induction =>
      simp only [arrived]
      split
      · exact List.cons_prefix_cons.mpr ⟨rfl, induction _⟩
      · exact List.nil_prefix

/-- With the whole stream all messages have arrived. -/
theorem arrived_length_stream (messages : List Message) :
    arrived encode messages (stream encode messages).length = messages := by
  induction messages with
  | nil => rfl
  | cons message messages induction =>
      rw [stream_cons, arrived_cons_of_complete, induction]

/-- The complete frames and the pending symbols make up what was received. -/
theorem stream_arrived_append_pending
    {messages : List Message} {received : List Symbol}
    (isPrefix : received <+: stream encode messages) :
    stream encode (arrived encode messages received.length) ++
        pending encode messages received = received := by
  induction messages generalizing received with
  | nil =>
      have empty : received = [] := by simpa using isPrefix
      simp [empty, arrived, pending]
  | cons message messages induction =>
      rcases prefix_stream_cons_cases isPrefix with
        ⟨back, rfl, backPrefix⟩ | ⟨_, short⟩
      · rw [arrived_cons_of_complete, pending_cons_of_complete, stream_cons,
          List.append_assoc, induction backPrefix]
      · simp [arrived_cons_of_short short, pending_cons_of_short short]

end Prefixes

section Draining

variable {encode : Message → List Symbol} {Valid : Message → Prop}

theorem Drains.incomplete
    {buffer final : List Symbol} {messages : List Message}
    (drained : Drains encode Valid buffer messages final) :
    Incomplete encode Valid final := by
  induction drained with
  | stop incomplete => exact incomplete
  | frame _ _ induction => exact induction

/-- The frames taken off and what is left make up the buffer. -/
theorem Drains.stream_append
    {buffer final : List Symbol} {messages : List Message}
    (drained : Drains encode Valid buffer messages final) :
    stream encode messages ++ final = buffer := by
  induction drained with
  | stop _ => rfl
  | frame _ _ induction => rw [stream_cons, List.append_assoc, induction]

/-- Draining a beginning of the stream takes off exactly the messages that
have arrived. -/
theorem drains_arrived
    {messages : List Message} {received : List Symbol}
    (valid : ∀ message, message ∈ messages → Valid message)
    (isPrefix : received <+: stream encode messages) :
    Drains encode Valid received
      (arrived encode messages received.length)
      (pending encode messages received) := by
  induction messages generalizing received with
  | nil =>
      have empty : received = [] := by simpa using isPrefix
      subst empty
      exact .stop (.inl rfl)
  | cons message messages induction =>
      have headValid : Valid message := valid message List.mem_cons_self
      rcases prefix_stream_cons_cases isPrefix with
        ⟨back, rfl, backPrefix⟩ | ⟨inFrame, short⟩
      · rw [arrived_cons_of_complete, pending_cons_of_complete]
        refine .frame headValid (induction ?_ backPrefix)
        intro other member
        exact valid other (List.mem_cons_of_mem _ member)
      · rw [arrived_cons_of_short short, pending_cons_of_short short]
        exact .stop (.inr ⟨message, headValid, inFrame, short⟩)

/-- One more chunk: draining the pending symbols together with the chunk
takes off the messages that the chunk completes. -/
theorem drains_chunk
    {messages : List Message} {received chunk : List Symbol}
    (valid : ∀ message, message ∈ messages → Valid message)
    (isPrefix : received ++ chunk <+: stream encode messages) :
    ∃ completed,
      arrived encode messages (received ++ chunk).length =
          arrived encode messages received.length ++ completed ∧
        Drains encode Valid (pending encode messages received ++ chunk)
          completed (pending encode messages (received ++ chunk)) := by
  induction messages generalizing received with
  | nil =>
      have empty : received = [] ∧ chunk = [] := by simpa using isPrefix
      obtain ⟨rfl, rfl⟩ := empty
      exact ⟨[], rfl, .stop (.inl rfl)⟩
  | cons message messages induction =>
      have receivedPrefix :
          received <+: stream encode (message :: messages) :=
        (List.prefix_append received chunk).trans isPrefix
      rcases prefix_stream_cons_cases receivedPrefix with
        ⟨back, rfl, _⟩ | ⟨_, short⟩
      · have backPrefix : back ++ chunk <+: stream encode messages := by
          rw [stream_cons, List.append_assoc] at isPrefix
          exact (List.prefix_append_right_inj _).mp isPrefix
        have tailValid : ∀ other, other ∈ messages → Valid other := by
          intro other member
          exact valid other (List.mem_cons_of_mem _ member)
        obtain ⟨completed, arrivedEq, drained⟩ :=
          induction tailValid backPrefix
        refine ⟨completed, ?_, ?_⟩
        · rw [List.append_assoc, arrived_cons_of_complete,
            arrived_cons_of_complete, arrivedEq, List.cons_append]
        · rw [List.append_assoc, pending_cons_of_complete,
            pending_cons_of_complete]
          exact drained
      · refine ⟨arrived encode (message :: messages)
          (received ++ chunk).length, ?_, ?_⟩
        · rw [arrived_cons_of_short short, List.nil_append]
        · rw [pending_cons_of_short short]
          exact drains_arrived valid isPrefix

/-- Any number of chunks, from any point of the stream on. -/
theorem receives_chunks
    {messages : List Message} (received : List Symbol)
    {chunks : List (List Symbol)}
    (valid : ∀ message, message ∈ messages → Valid message)
    (isPrefix : received ++ chunks.flatten <+: stream encode messages) :
    ∃ completed,
      arrived encode messages (received ++ chunks.flatten).length =
          arrived encode messages received.length ++ completed ∧
        Receives encode Valid (pending encode messages received) chunks
          completed (pending encode messages (received ++ chunks.flatten)) := by
  induction chunks generalizing received with
  | nil =>
      refine ⟨[], by simp, ?_⟩
      simpa using Receives.done
  | cons chunk chunks induction =>
      rw [List.flatten_cons, ← List.append_assoc] at isPrefix ⊢
      have chunkPrefix :
          received ++ chunk <+: stream encode messages :=
        (List.prefix_append _ _).trans isPrefix
      obtain ⟨first, firstEq, drained⟩ := drains_chunk valid chunkPrefix
      obtain ⟨later, laterEq, receivedLater⟩ := induction _ isPrefix
      refine ⟨first ++ later, ?_, .chunk drained receivedLater⟩
      rw [laterEq, firstEq, List.append_assoc]

theorem arrived_zero
    {messages : List Message}
    (nonempty : ∀ message, message ∈ messages → encode message ≠ []) :
    arrived encode messages 0 = [] := by
  cases messages with
  | nil => rfl
  | cons message messages =>
      have positive : 0 < (encode message).length :=
        List.length_pos_iff.mpr (nonempty message List.mem_cons_self)
      exact arrived_cons_of_short positive

/-- Messages that are written later do not matter to what has arrived. -/
theorem arrived_append
    {messages more : List Message} {count : Nat}
    (nonempty : ∀ message, message ∈ more → encode message ≠ [])
    (short : count ≤ (stream encode messages).length) :
    arrived encode (messages ++ more) count = arrived encode messages count := by
  induction messages generalizing count with
  | nil =>
      have zero : count = 0 := Nat.le_zero.mp short
      rw [zero]
      exact arrived_zero nonempty
  | cons message messages induction =>
      rw [stream_cons, List.length_append] at short
      simp only [List.cons_append, arrived]
      rw [induction (by omega)]

/-- From the beginning of the stream: every way of cutting a beginning of it
delivers exactly the messages that have arrived and keeps the rest. -/
theorem receives_arrived
    {messages : List Message} {chunks : List (List Symbol)}
    (valid : ∀ message, message ∈ messages → Valid message)
    (nonempty : ∀ message, message ∈ messages → encode message ≠ [])
    (isPrefix : chunks.flatten <+: stream encode messages) :
    Receives encode Valid [] chunks
      (arrived encode messages chunks.flatten.length)
      (pending encode messages chunks.flatten) := by
  obtain ⟨completed, completedEq, received⟩ :=
    receives_chunks [] valid (by simpa using isPrefix)
  have start : pending encode messages ([] : List Symbol) = [] := by
    simp [pending]
  simp only [List.nil_append, List.length_nil, arrived_zero nonempty]
    at completedEq received
  rw [start] at received
  rw [completedEq]
  exact received

end Draining

end Foundation
