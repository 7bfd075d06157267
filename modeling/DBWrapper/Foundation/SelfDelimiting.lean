import DBWrapper.Foundation.Bytes
import Mathlib.Data.List.TakeWhile
import Mathlib.Logic.Function.Basic

/-!
# Self-delimiting encodings

A reader takes a value off the front of its input and hands back what is
left.  It undoes a writer if it gets every value back whatever follows the
written form.  Such a writer is injective, and a concatenation of written
values falls apart in exactly one way.

The last part is the decimal notation, which is not self-delimiting: it is
undone only in front of something that is not a digit.
-/

namespace Foundation

universe u v
variable {Symbol : Type u} {Value : Type v}

abbrev Reader (Symbol : Type u) (Value : Type v) :=
  List Symbol → Option (Value × List Symbol)

/-- `read` gets back what `write` has written, and nothing behind it. -/
def Undoes (read : Reader Symbol Value) (write : Value → List Symbol) : Prop :=
  ∀ value rest, read (write value ++ rest) = some (value, rest)

namespace Reader

/-- Accept exactly `expected`. -/
def literal [DecidableEq Symbol] (expected : List Symbol) :
    Reader Symbol Unit :=
  fun input =>
    if expected.isPrefixOf input then
      some ((), input.drop expected.length)
    else
      none

/-- The next `count` symbols, whatever they are. -/
def take (count : Nat) : Reader Symbol (List Symbol) :=
  fun input =>
    if count ≤ input.length then
      some (input.take count, input.drop count)
    else
      none

/-- `count` values, one after the other. -/
def replicate (read : Reader Symbol Value) : Nat → Reader Symbol (List Value)
  | 0, input => some ([], input)
  | count + 1, input =>
      match read input with
      | none => none
      | some (value, input) =>
          (replicate read count input).map
            (Prod.map (value :: ·) id)

/-- Values until the input is used up, at most `fuel` of them. -/
def untilEmpty (read : Reader Symbol Value) :
    Nat → List Symbol → Option (List Value)
  | _, [] => some []
  | 0, _ :: _ => none
  | fuel + 1, symbol :: input =>
      match read (symbol :: input) with
      | none => none
      | some (value, input) =>
          (untilEmpty read fuel input).map (value :: ·)

/-- The whole input as a sequence of values.  A value that takes up at least
one symbol leaves enough fuel for the rest. -/
def all (read : Reader Symbol Value) (input : List Symbol) :
    Option (List Value) :=
  untilEmpty read input.length input

@[simp] theorem literal_append [DecidableEq Symbol]
    (expected rest : List Symbol) :
    literal expected (expected ++ rest) = some ((), rest) := by
  simp [literal]

@[simp] theorem take_append (front rest : List Symbol) :
    take front.length (front ++ rest) = some (front, rest) := by
  simp [take]

end Reader

namespace Undoes

variable {read : Reader Symbol Value} {write : Value → List Symbol}

/-- One written value is never the beginning of another one. -/
theorem append_cancel
    (undoes : Undoes read write) {left right : Value}
    {leftRest rightRest : List Symbol}
    (same : write left ++ leftRest = write right ++ rightRest) :
    left = right ∧ leftRest = rightRest := by
  have results : some (left, leftRest) = some (right, rightRest) :=
    calc
      some (left, leftRest) = read (write left ++ leftRest) :=
        (undoes left leftRest).symm
      _ = read (write right ++ rightRest) := by rw [same]
      _ = some (right, rightRest) := undoes right rightRest
  cases results
  exact ⟨rfl, rfl⟩

theorem injective (undoes : Undoes read write) : Function.Injective write := by
  intro left right same
  have extended : write left ++ [] = write right ++ [] := by rw [same]
  exact (undoes.append_cancel extended).1

theorem replicate
    (undoes : Undoes read write) (values : List Value) (rest : List Symbol) :
    read.replicate values.length (values.flatMap write ++ rest) =
      some (values, rest) := by
  induction values with
  | nil => rfl
  | cons value values induction =>
      simp only [List.length_cons, List.flatMap_cons, List.append_assoc,
        Reader.replicate]
      rw [undoes]
      simp [induction]

theorem untilEmpty
    (undoes : Undoes read write) (progress : ∀ value, write value ≠ [])
    {values : List Value} {fuel : Nat}
    (enough : (values.flatMap write).length ≤ fuel) :
    read.untilEmpty fuel (values.flatMap write) = some values := by
  induction values generalizing fuel with
  | nil => cases fuel <;> rfl
  | cons value values induction =>
      rw [List.flatMap_cons, List.length_append] at enough
      obtain ⟨symbol, front, written⟩ :=
        List.exists_cons_of_ne_nil (progress value)
      have here : read (write value ++ values.flatMap write) =
          some (value, values.flatMap write) :=
        undoes value _
      rw [List.flatMap_cons]
      rw [written] at enough here ⊢
      rw [List.length_cons] at enough
      cases fuel with
      | zero => omega
      | succ fuel =>
          rw [List.cons_append] at here ⊢
          have later := @induction fuel (by omega)
          simp [Reader.untilEmpty, here, later]

/-- A concatenation of written values splits into exactly these values. -/
theorem all
    (undoes : Undoes read write) (progress : ∀ value, write value ≠ [])
    (values : List Value) :
    read.all (values.flatMap write) = some values :=
  undoes.untilEmpty progress (Nat.le_refl _)

/-- The value that is written next is the next one of those that are written. -/
theorem isPrefix_append_singleton
    (undoes : Undoes read write) {done whole : List Value} {value : Value}
    {rest : List Symbol} (progress : write value ≠ [])
    (isPrefix : done <+: whole)
    (next : whole.flatMap write = done.flatMap write ++ (write value ++ rest)) :
    done ++ [value] <+: whole := by
  obtain ⟨others, rfl⟩ := isPrefix
  rw [List.flatMap_append] at next
  have written := List.append_cancel_left next
  cases others with
  | nil =>
      obtain ⟨empty, _⟩ := List.append_eq_nil_iff.mp written.symm
      exact (progress empty).elim
  | cons other others =>
      rw [List.flatMap_cons] at written
      obtain ⟨rfl, _⟩ := undoes.append_cancel written
      exact ⟨others, by rw [List.append_assoc, List.singleton_append]⟩

/-- What is written names the values. -/
theorem flatMap_injective
    (undoes : Undoes read write) (progress : ∀ value, write value ≠ []) :
    Function.Injective (List.flatMap write) := by
  intro left right same
  have leftRead := undoes.all progress left
  have rightRead := undoes.all progress right
  rw [same, rightRead] at leftRead
  exact (Option.some.inj leftRead).symm

end Undoes

/-! ### Decimal notation -/

namespace Reader

/-- All digits in front of the input, of which there is at least one. -/
def number : Reader UInt8 Nat :=
  fun input =>
    match input.takeWhile isDigit with
    | [] => none
    | digit :: digits =>
        some (decimalValue (digit :: digits), input.dropWhile isDigit)

end Reader

/-- Reading undoes printing in front of anything but a further digit. -/
theorem Reader.number_decimal_append
    (value : Nat) {next : UInt8} (ends : isDigit next = false)
    (rest : List UInt8) :
    Reader.number (decimal value ++ next :: rest) =
      some (value, next :: rest) := by
  have digits : ∀ byte ∈ decimal value, isDigit byte = true :=
    fun byte => isDigit_of_mem_decimal
  have front : (decimal value ++ next :: rest).takeWhile isDigit =
      decimal value := by
    rw [List.takeWhile_append_of_pos digits]
    simp [ends]
  have back : (decimal value ++ next :: rest).dropWhile isDigit =
      next :: rest := by
    rw [List.dropWhile_append_of_pos digits]
    simp [ends]
  have nonempty : decimal value ≠ [] := by
    simp [decimal]
  obtain ⟨digit, others, printed⟩ := List.exists_cons_of_ne_nil nonempty
  simp only [Reader.number, front, back]
  rw [printed]
  simp only
  rw [← printed, decimalValue_decimal]

end Foundation
