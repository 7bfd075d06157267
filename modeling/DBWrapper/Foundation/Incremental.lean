import Mathlib.Data.List.Basic

/-!
# Transducers of a stream

A transducer takes symbols off the front of a buffer, step by step, and puts
something out now and then.  It waits when it has no step; more symbols may
give it one.

A transducer is stable if a step that it can make does not depend on what is
still to come.  Its output is then a function of the stream: it does not matter
where the stream is cut, nor that the buffer is worked off behind every chunk.
-/

namespace Foundation

universe u v w
variable {State : Type u} {Symbol : Type v} {Output : Type w}

/-- One step: the next state, what is left of the buffer, and what is put
out. -/
abbrev Transducer (State : Type u) (Symbol : Type v) (Output : Type w) :=
  State → List Symbol → Option (State × List Symbol × List Output)

namespace Transducer

def Stable (transducer : Transducer State Symbol Output) : Prop :=
  ∀ state input next rest outputs more,
    transducer state input = some (next, rest, outputs) →
      transducer state (input ++ more) = some (next, rest ++ more, outputs)

/-- Steps are made until there is none. -/
inductive Settles (transducer : Transducer State Symbol Output) :
    State → List Symbol → List Output → State → List Symbol → Prop where
  | wait {state : State} {input : List Symbol} :
      transducer state input = none →
      Settles transducer state input [] state input
  | step {state next final : State} {input rest left : List Symbol}
      {outputs later : List Output} :
      transducer state input = some (next, rest, outputs) →
      Settles transducer next rest later final left →
      Settles transducer state input (outputs ++ later) final left

/-- Any number of steps. -/
inductive Steps (transducer : Transducer State Symbol Output) :
    State → List Symbol → List Output → State → List Symbol → Prop where
  | refl {state : State} {input : List Symbol} :
      Steps transducer state input [] state input
  | step {state next final : State} {input rest left : List Symbol}
      {outputs later : List Output} :
      transducer state input = some (next, rest, outputs) →
      Steps transducer next rest later final left →
      Steps transducer state input (outputs ++ later) final left

/-- Each chunk is appended to what is left, and the buffer is worked off. -/
inductive Feeds (transducer : Transducer State Symbol Output) :
    State → List Symbol → List (List Symbol) → List Output → State →
      List Symbol → Prop where
  | done {state : State} {left : List Symbol} :
      Feeds transducer state left [] [] state left
  | chunk {state middle final : State} {left between rest chunk : List Symbol}
      {chunks : List (List Symbol)} {outputs later : List Output} :
      Settles transducer state (left ++ chunk) outputs middle between →
      Feeds transducer middle between chunks later final rest →
      Feeds transducer state left (chunk :: chunks) (outputs ++ later) final rest

variable {transducer : Transducer State Symbol Output}

theorem Steps.single
    {state next : State} {input rest : List Symbol} {outputs : List Output}
    (stepped : transducer state input = some (next, rest, outputs)) :
    Steps transducer state input outputs next rest := by
  have steps := Steps.step stepped .refl
  rw [List.append_nil] at steps
  exact steps

theorem Steps.trans
    {state middle final : State} {input between left : List Symbol}
    {outputs later : List Output}
    (first : Steps transducer state input outputs middle between)
    (second : Steps transducer middle between later final left) :
    Steps transducer state input (outputs ++ later) final left := by
  induction first with
  | refl => exact second
  | step stepped _ induction =>
      rw [List.append_assoc]
      exact .step stepped (induction second)

theorem Steps.settles
    {state middle final : State} {input between left : List Symbol}
    {outputs later : List Output}
    (first : Steps transducer state input outputs middle between)
    (second : Settles transducer middle between later final left) :
    Settles transducer state input (outputs ++ later) final left := by
  induction first with
  | refl => exact second
  | step stepped _ induction =>
      rw [List.append_assoc]
      exact .step stepped (induction second)

/-- Steps that have been made stand when more symbols arrive. -/
theorem Steps.append
    (stable : Stable transducer) {state final : State}
    {input left : List Symbol} {outputs : List Output}
    (steps : Steps transducer state input outputs final left)
    (more : List Symbol) :
    Steps transducer state (input ++ more) outputs final (left ++ more) := by
  induction steps with
  | refl => exact .refl
  | step stepped _ induction =>
      exact .step (stable _ _ _ _ _ more stepped) induction

/-- There is only one way to go on. -/
theorem Steps.extends
    {state middle final : State} {input between left : List Symbol}
    {outputs whole : List Output}
    (first : Steps transducer state input outputs middle between)
    (settles : Settles transducer state input whole final left) :
    ∃ later, whole = outputs ++ later ∧
      Settles transducer middle between later final left := by
  induction first generalizing whole with
  | refl => exact ⟨whole, rfl, settles⟩
  | step stepped _ induction =>
      cases settles with
      | wait waits =>
          rw [stepped] at waits
          cases waits
      | step steppedToo rest =>
          rw [stepped] at steppedToo
          cases steppedToo
          obtain ⟨later, whole, settled⟩ := induction rest
          exact ⟨later, by rw [whole, List.append_assoc], settled⟩

theorem Settles.waits
    {state final : State} {input left : List Symbol} {outputs : List Output}
    (settles : Settles transducer state input outputs final left) :
    transducer final left = none := by
  induction settles with
  | wait waits => exact waits
  | step _ _ induction => exact induction

theorem Settles.unique
    {state final other : State} {input left otherLeft : List Symbol}
    {outputs otherOutputs : List Output}
    (first : Settles transducer state input outputs final left)
    (second : Settles transducer state input otherOutputs other otherLeft) :
    outputs = otherOutputs ∧ final = other ∧ left = otherLeft := by
  induction first generalizing otherOutputs other otherLeft with
  | wait waits =>
      cases second with
      | wait _ => exact ⟨rfl, rfl, rfl⟩
      | step stepped _ =>
          rw [waits] at stepped
          cases stepped
  | step stepped _ induction =>
      cases second with
      | wait waits =>
          rw [stepped] at waits
          cases waits
      | step steppedToo rest =>
          rw [stepped] at steppedToo
          cases steppedToo
          obtain ⟨sameOutputs, sameFinal, sameLeft⟩ := induction rest
          exact ⟨by rw [sameOutputs], sameFinal, sameLeft⟩

/-- Symbols that arrive only when the transducer waits make no difference. -/
theorem Settles.append
    (stable : Stable transducer) {state middle final : State}
    {front left back rest : List Symbol} {outputs later : List Output}
    (first : Settles transducer state front outputs middle left)
    (second : Settles transducer middle (left ++ back) later final rest) :
    Settles transducer state (front ++ back) (outputs ++ later) final rest := by
  induction first with
  | wait _ => exact second
  | step stepped _ induction =>
      rw [List.append_assoc]
      exact .step (stable _ _ _ _ _ back stepped) (induction second)

/-- Worked off chunk by chunk, a stream gives what it gives in one piece. -/
theorem Feeds.settles
    (stable : Stable transducer) {state final : State}
    {left rest : List Symbol} {chunks : List (List Symbol)}
    {outputs : List Output} (waits : transducer state left = none)
    (feeds : Feeds transducer state left chunks outputs final rest) :
    Settles transducer state (left ++ chunks.flatten) outputs final rest := by
  induction feeds with
  | done =>
      rw [List.flatten_nil, List.append_nil]
      exact .wait waits
  | chunk here _ induction =>
      rw [List.flatten_cons, ← List.append_assoc]
      exact here.append stable (induction here.waits)

end Transducer

end Foundation
