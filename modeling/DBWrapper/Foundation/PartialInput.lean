import DBWrapper.Foundation.Incremental
import DBWrapper.Foundation.Reassembly

/-!
# Parsers of unfinished input

A parser of this kind looks at the part of the input that is there.  It has a
value and hands back what is behind it, or asks for more input, or fails.  It
is stable if a value or a failure stands whatever else arrives.

A stable parser that reads what a writer has written asks for more input in
front of every unfinished value.  Values that are written one after the other
are then delivered as soon as they are complete.
-/

namespace Foundation

universe u v w x
variable {Symbol : Type u} {Failure : Type v} {Value : Type w}
  {Result : Type x}

inductive Parsed (Symbol : Type u) (Failure : Type v) (Value : Type w) where
  | done (value : Value) (rest : List Symbol)
  | more
  | fail (failure : Failure)
  deriving DecidableEq, Repr

abbrev Parser (Symbol : Type u) (Failure : Type v) (Value : Type w) :=
  List Symbol → Parsed Symbol Failure Value

namespace Parsed

def bind (parsed : Parsed Symbol Failure Value)
    (next : Value → Parser Symbol Failure Result) :
    Parsed Symbol Failure Result :=
  match parsed with
  | done value rest => next value rest
  | more => more
  | fail failure => fail failure

/-- The same outcome with more input behind it. -/
def append (parsed : Parsed Symbol Failure Value) (back : List Symbol) :
    Parsed Symbol Failure Value :=
  match parsed with
  | done value rest => done value (rest ++ back)
  | more => more
  | fail failure => fail failure

@[simp] theorem bind_done
    (value : Value) (rest : List Symbol)
    (next : Value → Parser Symbol Failure Result) :
    (done value rest).bind next = next value rest := rfl

@[simp] theorem bind_more (next : Value → Parser Symbol Failure Result) :
    (more : Parsed Symbol Failure Value).bind next = more := rfl

@[simp] theorem bind_fail
    (failure : Failure) (next : Value → Parser Symbol Failure Result) :
    (fail failure : Parsed Symbol Failure Value).bind next = fail failure := rfl

end Parsed

namespace Parser

/-- `count` values, one after the other. -/
def replicate (parser : Parser Symbol Failure Value) :
    Nat → Parser Symbol Failure (List Value)
  | 0, input => .done [] input
  | count + 1, input =>
      (parser input).bind fun value rest =>
        (replicate parser count rest).bind fun values rest =>
          .done (value :: values) rest

def Stable (parser : Parser Symbol Failure Value) : Prop :=
  ∀ input back, parser input ≠ .more →
    parser (input ++ back) = (parser input).append back

/-- What is left is a part of the input. -/
def Leaves (parser : Parser Symbol Failure Value) : Prop :=
  ∀ input value rest, parser input = .done value rest → rest <:+ input

/-- A value takes at least one symbol. -/
def Progresses (parser : Parser Symbol Failure Value) : Prop :=
  ∀ input value rest, parser input = .done value rest →
    rest.length < input.length

/-- Every valid value is got back, whatever follows its written form. -/
def Reads (parser : Parser Symbol Failure Value) (Valid : Value → Prop)
    (write : Value → List Symbol) : Prop :=
  ∀ value, Valid value → ∀ rest,
    parser (write value ++ rest) = .done value rest

/-- One value after the other, until the input ends or one fails. -/
def transducer (parser : Parser Symbol Failure Value) :
    Transducer (Option Failure) Symbol Value :=
  fun state input =>
    match state, parser input with
    | none, .done value rest => some (none, rest, [value])
    | none, .fail failure => some (some failure, input, [])
    | _, _ => none

/-- At most `fuel` values, and the failure behind them. -/
def valuesWithin (parser : Parser Symbol Failure Value) :
    Nat → List Symbol → List Value × Option Failure
  | 0, _ => ([], none)
  | fuel + 1, input =>
      match parser input with
      | .done value rest =>
          let later := valuesWithin parser fuel rest
          (value :: later.1, later.2)
      | .more => ([], none)
      | .fail failure => ([], some failure)

/-- All values of a stream.  A value that takes at least one symbol leaves
enough fuel for the rest. -/
def values (parser : Parser Symbol Failure Value) (input : List Symbol) :
    List Value × Option Failure :=
  valuesWithin parser (input.length + 1) input

section Stability

variable {parser : Parser Symbol Failure Value}

theorem Stable.bind
    (stable : Stable parser) {next : Value → Parser Symbol Failure Result}
    (stableNext : ∀ value, Stable (next value)) :
    Stable fun input => (parser input).bind next := by
  intro input back finished
  change (parser input).bind next ≠ .more at finished
  change (parser (input ++ back)).bind next =
    ((parser input).bind next).append back
  have here := stable input back
  cases outcome : parser input with
  | done value rest =>
      rw [outcome] at here
      have extended := here (by simp)
      simp only [outcome, extended, Parsed.append, Parsed.bind_done]
        at finished ⊢
      exact stableNext value rest back finished
  | more =>
      rw [outcome] at finished
      exact (finished rfl).elim
  | fail failure =>
      rw [outcome] at here
      have extended := here (by simp)
      simp only [extended, Parsed.append, Parsed.bind_fail]

theorem stable_done (value : Value) :
    Stable (Parsed.done value : Parser Symbol Failure Value) := by
  intro input back _
  rfl

theorem stable_fail (failure : Failure) :
    Stable (fun _ => .fail failure : Parser Symbol Failure Value) := by
  intro input back _
  rfl

theorem Stable.replicate (stable : Stable parser) (count : Nat) :
    Stable (parser.replicate count) := by
  induction count with
  | zero => exact stable_done []
  | succ count induction =>
      exact stable.bind fun value =>
        induction.bind fun values => stable_done (value :: values)

/-- In front of an unfinished value there is nothing to be had. -/
theorem Reads.more_of_isPrefix
    (stable : Stable parser) {Valid : Value → Prop}
    {write : Value → List Symbol} (reads : parser.Reads Valid write)
    {value : Value} (valid : Valid value) {front : List Symbol}
    (isPrefix : front <+: write value)
    (short : front.length < (write value).length) :
    parser front = .more := by
  obtain ⟨back, whole⟩ := isPrefix
  have result := reads value valid []
  rw [List.append_nil, ← whole] at result
  have nonempty : back ≠ [] := by
    intro empty
    rw [← whole, empty, List.append_nil] at short
    exact Nat.lt_irrefl _ short
  cases outcome : parser front with
  | more => rfl
  | done other rest =>
      have extended := stable front back (by simp [outcome])
      rw [result, outcome] at extended
      obtain ⟨_, empty⟩ := Parsed.done.inj extended
      have atEnd := List.append_eq_nil_iff.mp empty.symm
      exact (nonempty atEnd.2).elim
  | fail failure =>
      have extended := stable front back (by simp [outcome])
      rw [result, outcome] at extended
      cases extended

end Stability

section Remainders

variable {parser : Parser Symbol Failure Value}

theorem leaves_done (value : Value) :
    Leaves (Parsed.done value : Parser Symbol Failure Value) := by
  intro input other rest finished
  cases finished
  exact List.suffix_refl _

theorem leaves_fail (failure : Failure) :
    Leaves (fun _ => .fail failure : Parser Symbol Failure Value) := by
  intro input value rest finished
  cases finished

theorem Leaves.bind
    (leaves : Leaves parser) {next : Value → Parser Symbol Failure Result}
    (leavesNext : ∀ value, Leaves (next value)) :
    Leaves fun input => (parser input).bind next := by
  intro input result left finished
  change (parser input).bind next = .done result left at finished
  cases outcome : parser input with
  | done value rest =>
      rw [outcome] at finished
      exact (leavesNext value rest result left finished).trans
        (leaves input value rest outcome)
  | more =>
      rw [outcome] at finished
      cases finished
  | fail failure =>
      rw [outcome] at finished
      cases finished

theorem Leaves.replicate (leaves : Leaves parser) (count : Nat) :
    Leaves (parser.replicate count) := by
  induction count with
  | zero => exact leaves_done []
  | succ count induction =>
      exact leaves.bind fun value =>
        induction.bind fun values => leaves_done (value :: values)

end Remainders

section Writing

variable {parser : Parser Symbol Failure Value} {Valid : Value → Prop}
  {write : Value → List Symbol}

theorem Reads.replicate
    (reads : parser.Reads Valid write) {values : List Value}
    (valid : ∀ value ∈ values, Valid value) (rest : List Symbol) :
    parser.replicate values.length (stream write values ++ rest) =
      .done values rest := by
  induction values with
  | nil => rfl
  | cons value values induction =>
      have later := induction fun other listed =>
        valid other (List.mem_cons_of_mem _ listed)
      rw [stream_cons, List.append_assoc, List.length_cons, Parser.replicate,
        reads value (valid value List.mem_cons_self), Parsed.bind_done, later,
        Parsed.bind_done]

/-- The first value that fails makes all of them fail. -/
theorem Reads.replicate_fail
    (reads : parser.Reads Valid write) {front back : List Value}
    {value : Value} {failure : Failure}
    (valid : ∀ other ∈ front, Valid other)
    (fails : ∀ rest, parser (write value ++ rest) = .fail failure)
    (rest : List Symbol) :
    parser.replicate (front ++ value :: back).length
        (stream write (front ++ value :: back) ++ rest) =
      .fail failure := by
  induction front with
  | nil =>
      rw [List.nil_append, stream_cons, List.append_assoc, List.length_cons,
        Parser.replicate, fails, Parsed.bind_fail]
  | cons first front induction =>
      have later := induction fun other listed =>
        valid other (List.mem_cons_of_mem _ listed)
      rw [List.cons_append, stream_cons, List.append_assoc, List.length_cons,
        Parser.replicate, reads first (valid first List.mem_cons_self),
        Parsed.bind_done, later, Parsed.bind_fail]

/-- A beginning of the stream gives the values that have arrived with it. -/
theorem Reads.settles_arrived
    (reads : parser.Reads Valid write) (stable : Stable parser)
    (atEnd : parser [] = .more) {values : List Value}
    {received : List Symbol} (valid : ∀ value ∈ values, Valid value)
    (isPrefix : received <+: stream write values) :
    Transducer.Settles parser.transducer none received
      (arrived write values received.length) none
      (pending write values received) := by
  induction values generalizing received with
  | nil =>
      have empty : received = [] := by simpa using isPrefix
      subst empty
      exact .wait (by simp [transducer, atEnd])
  | cons value values induction =>
      have headValid := valid value List.mem_cons_self
      rcases prefix_stream_cons_cases isPrefix with
        ⟨back, rfl, backPrefix⟩ | ⟨inside, short⟩
      · rw [arrived_cons_of_complete, pending_cons_of_complete]
        have stepped : parser.transducer none (write value ++ back) =
            some (none, back, [value]) := by
          simp [transducer, reads value headValid back]
        exact .step stepped (induction
          (fun other listed => valid other (List.mem_cons_of_mem _ listed))
          backPrefix)
      · rw [arrived_cons_of_short short, pending_cons_of_short short]
        have unfinished := reads.more_of_isPrefix stable headValid inside short
        exact .wait (by simp [transducer, unfinished])

/-- Behind the values of a stream, a failure ends it. -/
theorem Reads.settles_failure
    (reads : parser.Reads Valid write) {values : List Value}
    (valid : ∀ value ∈ values, Valid value) {rest : List Symbol}
    {failure : Failure} (fails : parser rest = .fail failure) :
    Transducer.Settles parser.transducer none (stream write values ++ rest)
      values (some failure) rest := by
  induction values with
  | nil =>
      have stopped : Transducer.Settles parser.transducer (some failure) rest
          [] (some failure) rest := .wait (by simp [transducer])
      have stepped : parser.transducer none rest =
          some (some failure, rest, []) := by
        simp [transducer, fails]
      exact .step stepped stopped
  | cons value values induction =>
      have later := induction fun other listed =>
        valid other (List.mem_cons_of_mem _ listed)
      have stepped : parser.transducer none
          (stream write (value :: values) ++ rest) =
            some (none, stream write values ++ rest, [value]) := by
        rw [stream_cons, List.append_assoc]
        simp [transducer, reads value (valid value List.mem_cons_self)]
      exact .step stepped later

end Writing

section Streams

variable {parser : Parser Symbol Failure Value}

theorem settles_valuesWithin
    (progresses : Progresses parser) {fuel : Nat} {input : List Symbol}
    (enough : input.length < fuel) :
    ∃ left, Transducer.Settles parser.transducer none input
      (valuesWithin parser fuel input).1 (valuesWithin parser fuel input).2
        left := by
  induction fuel generalizing input with
  | zero => exact (Nat.not_lt_zero _ enough).elim
  | succ fuel induction =>
      cases outcome : parser input with
      | done value rest =>
          have shorter := progresses input value rest outcome
          obtain ⟨left, settles⟩ := @induction rest (by omega)
          refine ⟨left, ?_⟩
          simp only [valuesWithin, outcome]
          have stepped : parser.transducer none input =
              some (none, rest, [value]) := by
            simp [transducer, outcome]
          exact .step stepped settles
      | more =>
          refine ⟨input, ?_⟩
          simp only [valuesWithin, outcome]
          exact .wait (by simp [transducer, outcome])
      | fail failure =>
          refine ⟨input, ?_⟩
          simp only [valuesWithin, outcome]
          have stopped : Transducer.Settles parser.transducer (some failure) input
              [] (some failure) input := .wait (by simp [transducer])
          have stepped : parser.transducer none input =
              some (some failure, input, []) := by
            simp [transducer, outcome]
          exact .step stepped stopped

theorem settles_values
    (progresses : Progresses parser) (input : List Symbol) :
    ∃ left, Transducer.Settles parser.transducer none input
      (parser.values input).1 (parser.values input).2 left :=
  settles_valuesWithin progresses (Nat.lt_succ_self _)

end Streams

end Parser

end Foundation
