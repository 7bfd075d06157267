import DBWrapper.Foundation.PartialInput
import DBWrapper.Redis.Reader

/-!
# Replies

A reply is a tree: an array has replies as its elements.  A server writes it
from left to right, and the parser of this module reads it by recursion over
its arrays, as far as the nesting goes that the reader of hiredis supports.

What the parser makes of a line, of a number that is none, and of the bytes
behind a string is what the reader makes of them.  Numbers that overflow, and
array lengths that are none, are outside of what the two have in common.
-/

namespace DBWrapper

open Foundation

namespace Hiredis

inductive Reply where
  | string (str : ByteString)
  | array (element : List Reply)
  | integer (integer : Int)
  | nil
  | status (str : ByteString)
  | error (str : ByteString)
  deriving Repr

inductive ReplyFailure where
  | error (err : RedisError)
  | outside
  deriving DecidableEq, Repr

abbrev ReplyParser (Value : Type) := Parser UInt8 ReplyFailure Value

/-! ### Reading -/

/-- What is in front of the first `\r\n`. -/
def lineLength : ByteString → Option Nat
  | [] => none
  | byte :: rest =>
      if crlf.isPrefixOf (byte :: rest) then
        some 0
      else
        (lineLength rest).map (· + 1)

def line : ReplyParser ByteString :=
  fun input =>
    match lineLength input with
    | none => .more
    | some len => .done (input.take len) (input.drop (len + 2))

/-- The number that a line stands for. -/
def numberOf (text : ByteString) : ReplyParser Int :=
  match readLongLong (text ++ crlf) with
  | none => fun _ => .fail .outside
  | some value => .done value

def number : ReplyParser Int :=
  fun input => (line input).bind numberOf

/-- What follows the length of a string. -/
def bulkOf (len : Int) : ReplyParser Reply :=
  fun input =>
    if len < 0 then
      .done .nil input
    else if longLongMax < len.toNat + 2 then
      .fail .outside
    else if len.toNat + 2 ≤ input.length then
      .done (.string (input.take len.toNat)) (input.drop (len.toNat + 2))
    else
      .more

/-- `none` is the array that stands for nil. -/
def arrayLength (elements : Int) : ReplyParser (Option Nat) :=
  if elements = -1 then
    .done none
  else if elements < 0 ∨ intMax < elements then
    fun _ => .fail .outside
  else
    .done (some elements.toNat)

/-- The number of elements of an array. -/
def arrayHeader : ReplyParser (Option Nat) :=
  fun input => (number input).bind arrayLength

def elementsOf (nested : ReplyParser Reply) : Option Nat → ReplyParser Reply
  | none => .done .nil
  | some elements => fun input =>
      (nested.replicate elements input).bind fun replies =>
        .done (.array replies)

/-- What follows the type byte, except for arrays. -/
def scalar : ReplyType → ReplyParser Reply
  | .error => fun input => (line input).bind fun str => .done (.error str)
  | .status => fun input => (line input).bind fun str => .done (.status str)
  | .integer => fun input => (number input).bind fun value =>
      .done (.integer value)
  | .string => fun input => (number input).bind bulkOf
  | .array | .nil => fun _ => .fail .outside

def arrayWith (nested : Option (ReplyParser Reply)) : ReplyParser Reply :=
  match nested with
  | none => fun _ => .fail (.error nestingError)
  | some nested => fun input => (arrayHeader input).bind (elementsOf nested)

/-- What follows the type byte. -/
def typed (nested : Option (ReplyParser Reply)) (type : ReplyType) :
    ReplyParser Reply :=
  if type = .array then arrayWith nested else scalar type

/-- A reply whose elements are read by `nested`. -/
def replyWith (nested : Option (ReplyParser Reply)) : ReplyParser Reply
  | [] => .more
  | byte :: input =>
      match replyType? byte with
      | none => .fail (.error (protocolByteError byte))
      | some type => typed nested type input

/-- A reply with at most `levels` arrays inside each other. -/
def reply : Nat → ReplyParser Reply
  | 0 => replyWith none
  | levels + 1 => replyWith (some (reply levels))

/-- The stack of the reader has a place for every array around an element, and
one for the element. -/
def maxLevels : Nat := 8

/-! ### Writing -/

/-- A number as the server prints it. -/
def integerText (value : Int) : ByteString :=
  if value < 0 then ascii "-" ++ decimal value.natAbs else decimal value.natAbs

mutual

def Reply.encode : Reply → ByteString
  | .string str => ascii "$" ++ decimal str.length ++ crlf ++ str ++ crlf
  | .array element =>
      ascii "*" ++ decimal element.length ++ crlf ++ Reply.encodeAll element
  | .integer value => ascii ":" ++ integerText value ++ crlf
  | .nil => ascii "$" ++ integerText (-1) ++ crlf
  | .status str => ascii "+" ++ str ++ crlf
  | .error str => ascii "-" ++ str ++ crlf

def Reply.encodeAll : List Reply → ByteString
  | [] => []
  | reply :: replies => reply.encode ++ Reply.encodeAll replies

end

/-- At most `levels` arrays inside each other, no line that contains its own
end, and no number beyond the types of the reader. -/
inductive Sendable : Nat → Reply → Prop where
  | string {levels : Nat} {str : ByteString} :
      str.length + 2 ≤ longLongMax → Sendable levels (.string str)
  | array {levels : Nat} {element : List Reply} :
      element.length ≤ intMax →
      (∀ reply ∈ element, Sendable levels reply) →
      Sendable (levels + 1) (.array element)
  | integer {levels : Nat} {value : Int} :
      value.natAbs ≤ longLongMax → Sendable levels (.integer value)
  | nil {levels : Nat} : Sendable levels .nil
  | status {levels : Nat} {str : ByteString} :
      ¬ crlf <:+: str → Sendable levels (.status str)
  | error {levels : Nat} {str : ByteString} :
      ¬ crlf <:+: str → Sendable levels (.error str)

theorem encodeAll_eq_stream (replies : List Reply) :
    Reply.encodeAll replies = stream Reply.encode replies := by
  induction replies with
  | nil => rfl
  | cons reply replies induction =>
      rw [Reply.encodeAll, stream_cons, induction]

/-! ### Lines -/

theorem crlf_eq : crlf = [13, 10] := rfl

theorem lineLength_cons_here {byte : UInt8} {rest : ByteString}
    (isPrefix : crlf <+: byte :: rest) :
    lineLength (byte :: rest) = some 0 := by
  simp [lineLength, isPrefix]

theorem lineLength_cons_there {byte : UInt8} {rest : ByteString}
    (notPrefix : ¬ crlf <+: byte :: rest) :
    lineLength (byte :: rest) = (lineLength rest).map (· + 1) := by
  simp [lineLength, notPrefix]

/-- A line that has been found stays the first one. -/
theorem lineLength_append
    {front : ByteString} {len : Nat} (found : lineLength front = some len)
    (back : ByteString) : lineLength (front ++ back) = some len := by
  induction front generalizing len with
  | nil => cases found
  | cons byte front induction =>
      by_cases isPrefix : crlf <+: byte :: front
      · rw [lineLength_cons_here isPrefix] at found
        rw [List.cons_append, lineLength_cons_here, found]
        exact isPrefix.trans (List.prefix_append (byte :: front) back)
      · rw [lineLength_cons_there isPrefix] at found
        obtain ⟨later, foundLater, rfl⟩ := Option.map_eq_some_iff.mp found
        have stillNot : ¬ crlf <+: byte :: (front ++ back) := by
          intro longer
          cases front with
          | nil => cases foundLater
          | cons next front =>
              apply isPrefix
              rw [← List.cons_append] at longer
              exact List.prefix_of_prefix_length_le longer
                (List.prefix_append _ back) (by simp [crlf_eq])
        rw [List.cons_append, lineLength_cons_there stillNot,
          induction foundLater]
        rfl

/-- What is found is a line with its end. -/
theorem lineLength_spec
    {input : ByteString} {len : Nat} (found : lineLength input = some len) :
    input.take len ++ crlf ++ input.drop (len + 2) = input := by
  induction input generalizing len with
  | nil => cases found
  | cons byte input induction =>
      by_cases isPrefix : crlf <+: byte :: input
      · rw [lineLength_cons_here isPrefix] at found
        cases found
        obtain ⟨rest, whole⟩ := isPrefix
        rw [← whole]
        simp [crlf_eq]
      · rw [lineLength_cons_there isPrefix] at found
        obtain ⟨later, foundLater, rfl⟩ := Option.map_eq_some_iff.mp found
        have rest := induction foundLater
        simp only [List.take_succ_cons, List.cons_append, List.drop_succ_cons]
        rw [rest]

theorem lineLength_line
    {text : ByteString} (noNewline : ¬ crlf <:+: text) (rest : ByteString) :
    lineLength (text ++ crlf ++ rest) = some text.length := by
  induction text with
  | nil => exact lineLength_cons_here (List.prefix_append crlf rest)
  | cons byte text induction =>
      have notInText : ¬ crlf <:+: text := fun inText =>
        noNewline (List.infix_cons inText)
      have notPrefix : ¬ crlf <+: byte :: (text ++ crlf ++ rest) := by
        intro isPrefix
        cases text with
        | nil => simp [crlf_eq] at isPrefix
        | cons next text =>
            apply noNewline
            apply List.IsPrefix.isInfix
            simp only [crlf_eq, List.cons_append, List.cons_prefix_cons]
              at isPrefix ⊢
            exact ⟨isPrefix.1, isPrefix.2.1, List.nil_prefix⟩
      rw [List.cons_append, List.cons_append,
        lineLength_cons_there notPrefix, induction notInText]
      rfl

theorem lineLength_le
    {input : ByteString} {len : Nat} (found : lineLength input = some len) :
    len + 2 ≤ input.length := by
  have whole := congrArg List.length (lineLength_spec found)
  simp only [List.length_append, List.length_take, List.length_drop,
    crlf_eq, List.length_cons, List.length_nil] at whole
  omega

theorem crlf_isPrefix_iff (byte : UInt8) (rest : ByteString) :
    crlf <+: byte :: rest ↔ byte = cr ∧ rest.head? = some lf := by
  cases rest with
  | nil => simp [crlf_eq]
  | cons next rest =>
      rw [crlf_eq, List.cons_prefix_cons, List.cons_prefix_cons]
      simp [cr, lf, eq_comm]

/-- The loops of `seekNewline` find the first line as long as they can count to
the end. -/
theorem seekNewlineFrom_eq
    {len : Int} {pos : Nat} {s : ByteString}
    (toEnd : len = pos + s.length - 1) :
    seekNewlineFrom len pos s = (lineLength s).map (pos + ·) := by
  induction s generalizing pos with
  | nil => rfl
  | cons byte s induction =>
      rw [List.length_cons] at toEnd
      have later := @induction (pos + 1) (by omega)
      rw [seekNewlineFrom]
      by_cases isPrefix : crlf <+: byte :: s
      · have here := (crlf_isPrefix_iff byte s).mp isPrefix
        have another : s.length ≠ 0 := by
          intro none_left
          rw [List.length_eq_zero_iff.mp none_left] at here
          cases here.2
        rw [if_pos (by omega), if_pos here, lineLength_cons_here isPrefix]
        rfl
      · have there := mt (crlf_isPrefix_iff byte s).mpr isPrefix
        rw [if_neg there, lineLength_cons_there isPrefix, later]
        split
        · rw [Option.map_map]
          congr 1
          funext more
          simp only [Function.comp_apply]
          omega
        · have atEnd : s = [] := List.length_eq_zero_iff.mp (by omega)
          rw [atEnd]
          rfl

theorem seekNewline_eq_lineLength
    {s : ByteString} (short : s.length ≤ intMax) :
    seekNewline s = lineLength s := by
  have toEnd : toInt ((s.length : Int) - 1) = ((0 : Nat) : Int) + s.length - 1 := by
    cases s with
    | nil => rfl
    | cons byte s =>
        rw [List.length_cons] at short ⊢
        rw [show ((s.length + 1 : Nat) : Int) - 1 = s.length by omega,
          toInt_of_le (by omega)]
        omega
  rw [seekNewline, seekNewlineFrom_eq toEnd]
  simp

theorem line_append
    {text : ByteString} (noNewline : ¬ crlf <:+: text) (rest : ByteString) :
    line (text ++ crlf ++ rest) = .done text rest := by
  simp only [line, lineLength_line noNewline rest]
  rw [List.append_assoc, List.take_left, List.drop_append,
    List.drop_of_length_le (by simp)]
  simp [crlf_eq]

theorem stable_line : Parser.Stable line := by
  intro input back finished
  simp only [line] at finished ⊢
  cases found : lineLength input with
  | none =>
      rw [found] at finished
      exact (finished rfl).elim
  | some len =>
      have whole := congrArg List.length (lineLength_spec found)
      simp only [List.length_append, List.length_take, List.length_drop,
        crlf_eq, List.length_cons, List.length_nil] at whole
      simp only [lineLength_append found back, Parsed.append]
      rw [List.take_append_of_le_length (by omega),
        List.drop_append_of_le_length (by omega)]

theorem leaves_line : Parser.Leaves line := by
  intro input text rest finished
  simp only [line] at finished
  split at finished
  · cases finished
  · cases finished
    exact List.drop_suffix _ input

/-! ### Numbers -/

/-- Nothing behind the end of the line is read. -/
theorem readDigits_append
    (v : Nat) (text : ByteString) (rest other : ByteString) :
    readDigits v (text ++ cr :: rest) = readDigits v (text ++ cr :: other) := by
  induction text generalizing v with
  | nil => simp [readDigits]
  | cons byte text induction => simp only [List.cons_append, readDigits, induction]

theorem readSign_append (text : ByteString) :
    ∃ mult digits, ∀ rest,
      readSign (text ++ cr :: rest) = (mult, digits ++ cr :: rest) := by
  cases text with
  | nil => exact ⟨1, [], fun rest => rfl⟩
  | cons byte text =>
      simp only [List.cons_append, readSign]
      by_cases isMinus : byte = minus
      · exact ⟨-1, text, fun rest => if_pos isMinus⟩
      · by_cases isPlus : byte = plus
        · exact ⟨1, text, fun rest => by rw [if_neg isMinus, if_pos isPlus]⟩
        · exact ⟨1, byte :: text, fun rest => by
            rw [if_neg isMinus, if_neg isPlus, List.cons_append]⟩

theorem readLongLong_append (text rest : ByteString) :
    readLongLong (text ++ crlf ++ rest) = readLongLong (text ++ crlf) := by
  obtain ⟨mult, digits, sign⟩ := readSign_append text
  have long := sign (10 :: rest)
  have short := sign [10]
  have same := readDigits_append 0 digits (10 :: rest) [10]
  have longEnd : text ++ crlf ++ rest = text ++ cr :: 10 :: rest := by
    simp [crlf_eq, cr]
  have shortEnd : text ++ crlf = text ++ cr :: [10] := rfl
  rw [longEnd, shortEnd]
  simp only [readLongLong, long, short, same]

theorem stable_numberOf (text : ByteString) :
    Parser.Stable (numberOf text) := by
  cases value : readLongLong (text ++ crlf) with
  | none => simpa [numberOf, value] using Parser.stable_fail _
  | some value => simpa [numberOf, value] using Parser.stable_done _

theorem leaves_numberOf (text : ByteString) :
    Parser.Leaves (numberOf text) := by
  cases value : readLongLong (text ++ crlf) with
  | none => simpa [numberOf, value] using Parser.leaves_fail _
  | some value => simpa [numberOf, value] using Parser.leaves_done _

theorem stable_number : Parser.Stable number :=
  stable_line.bind stable_numberOf

theorem leaves_number : Parser.Leaves number :=
  leaves_line.bind leaves_numberOf

/-- The value only grows from digit to digit, so no digit overflows if the last
one does not. -/
theorem readDigits_digits
    {digits : ByteString} (areDigits : ∀ byte ∈ digits, isDigit byte = true)
    (v : Nat) (rest : ByteString)
    (fits : digits.foldl (fun v digit => 10 * v + (digit.toNat - 48)) v ≤
      longLongMax) :
    readDigits v (digits ++ cr :: rest) =
      .ok (digits.foldl (fun v digit => 10 * v + (digit.toNat - 48)) v) := by
  have grows : ∀ (digits : ByteString) (v : Nat),
      v ≤ digits.foldl (fun v digit => 10 * v + (digit.toNat - 48)) v := by
    intro digits
    induction digits with
    | nil => exact fun v => Nat.le_refl v
    | cons digit digits induction =>
        intro v
        exact (by omega : v ≤ 10 * v + (digit.toNat - 48)).trans (induction _)
  induction digits generalizing v with
  | nil => simp [readDigits]
  | cons digit digits induction =>
      have isDigitHere := areDigits digit List.mem_cons_self
      have notEnd : digit ≠ cr := by
        intro same
        rw [same] at isDigitHere
        cases isDigitHere
      rw [List.foldl_cons] at fits ⊢
      have fitsHere := (grows digits _).trans fits
      rw [Nat.mul_comm] at fitsHere fits ⊢
      rw [List.cons_append, readDigits, if_neg notEnd, if_pos isDigitHere,
        if_pos fitsHere]
      apply induction _ _ fits
      intro byte listed
      exact areDigits byte (List.mem_cons_of_mem _ listed)

theorem readDigits_decimal
    {value : Nat} (fits : value ≤ longLongMax) (rest : ByteString) :
    readDigits 0 (decimal value ++ cr :: rest) = .ok value := by
  have same := decimalValue_decimal value
  rw [decimalValue] at same
  have digits := readDigits_digits
    (fun byte listed => isDigit_of_mem_decimal listed) 0 rest
    (by rw [same]; exact fits)
  rw [digits, same]

/-- A printed number does not start with a sign of its own. -/
theorem readSign_decimal (value : Nat) (rest : ByteString) :
    readSign (decimal value ++ rest) = (1, decimal value ++ rest) := by
  have nonempty : decimal value ≠ [] := by simp [decimal]
  obtain ⟨digit, others, printed⟩ := List.exists_cons_of_ne_nil nonempty
  have isDigitHere : isDigit digit = true :=
    isDigit_of_mem_decimal (printed ▸ List.mem_cons_self)
  have notMinus : digit ≠ minus := by
    intro same
    rw [same] at isDigitHere
    cases isDigitHere
  have notPlus : digit ≠ plus := by
    intro same
    rw [same] at isDigitHere
    cases isDigitHere
  rw [printed, List.cons_append, readSign, if_neg notMinus, if_neg notPlus]

theorem readLongLong_integerText
    {value : Int} (fits : value.natAbs ≤ longLongMax) (rest : ByteString) :
    readLongLong (integerText value ++ cr :: rest) = some value := by
  rw [integerText]
  split
  · rename_i negative
    have sign : readSign (ascii "-" ++ decimal value.natAbs ++ cr :: rest) =
        (-1, decimal value.natAbs ++ cr :: rest) := rfl
    simp only [readLongLong, sign, readDigits_decimal fits]
    congr 1
    omega
  · rename_i positive
    simp only [readLongLong, readSign_decimal, readDigits_decimal fits]
    congr 1
    omega

theorem not_crlf_infix_of_not_mem
    {text : ByteString} (absent : cr ∉ text) : ¬ crlf <:+: text := by
  intro inText
  exact absent (inText.subset (by simp [crlf_eq, cr]))

theorem cr_not_mem_decimal (value : Nat) : cr ∉ decimal value := by
  intro listed
  have isDigitHere := isDigit_of_mem_decimal listed
  cases isDigitHere

theorem number_integerText
    {value : Int} (fits : value.natAbs ≤ longLongMax) (rest : ByteString) :
    number (integerText value ++ crlf ++ rest) = .done value rest := by
  have absent : cr ∉ integerText value := by
    rw [integerText]
    split
    · intro listed
      rcases List.mem_append.mp listed with sign | digit
      · have notSign : cr ∉ ascii "-" := by decide
        exact notSign sign
      · exact cr_not_mem_decimal _ digit
    · exact cr_not_mem_decimal _
  have here := line_append (not_crlf_infix_of_not_mem absent) rest
  have read : readLongLong (integerText value ++ crlf) = some value :=
    readLongLong_integerText fits [10]
  rw [number, here, Parsed.bind_done, numberOf, read]

theorem number_decimal
    {value : Nat} (fits : value ≤ longLongMax) (rest : ByteString) :
    number (decimal value ++ crlf ++ rest) = .done (value : Int) rest := by
  have text : integerText value = decimal value := by
    rw [integerText, if_neg (by omega), Int.natAbs_natCast]
  rw [← text]
  exact number_integerText (by rw [Int.natAbs_natCast]; exact fits) rest

/-! ### Stability -/

theorem stable_bulkOf (len : Int) : Parser.Stable (bulkOf len) := by
  intro input back finished
  simp only [bulkOf] at finished ⊢
  split
  · rfl
  · rename_i notNil
    rw [if_neg notNil] at finished
    split
    · rfl
    · rename_i fits
      rw [if_neg fits] at finished
      split at finished
      · rename_i complete
        rw [if_pos (by rw [List.length_append]; omega), if_pos complete]
        simp only [Parsed.append]
        rw [List.take_append_of_le_length (by omega),
          List.drop_append_of_le_length complete]
      · exact (finished rfl).elim

theorem leaves_bulkOf (len : Int) : Parser.Leaves (bulkOf len) := by
  intro input value rest finished
  simp only [bulkOf] at finished
  split at finished
  · cases finished
    exact List.suffix_refl _
  · split at finished
    · cases finished
    · split at finished
      · cases finished
        exact List.drop_suffix _ input
      · cases finished

theorem stable_arrayLength (elements : Int) :
    Parser.Stable (arrayLength elements) := by
  rw [arrayLength]
  split
  · exact Parser.stable_done _
  · split
    · exact Parser.stable_fail _
    · exact Parser.stable_done _

theorem leaves_arrayLength (elements : Int) :
    Parser.Leaves (arrayLength elements) := by
  rw [arrayLength]
  split
  · exact Parser.leaves_done _
  · split
    · exact Parser.leaves_fail _
    · exact Parser.leaves_done _

theorem stable_arrayHeader : Parser.Stable arrayHeader :=
  stable_number.bind stable_arrayLength

theorem leaves_arrayHeader : Parser.Leaves arrayHeader :=
  leaves_number.bind leaves_arrayLength

theorem stable_elementsOf
    {nested : ReplyParser Reply} (stable : Parser.Stable nested)
    (elements : Option Nat) : Parser.Stable (elementsOf nested elements) := by
  cases elements with
  | none => exact Parser.stable_done _
  | some elements =>
      exact (stable.replicate elements).bind fun replies =>
        Parser.stable_done _

theorem leaves_elementsOf
    {nested : ReplyParser Reply} (leaves : Parser.Leaves nested)
    (elements : Option Nat) : Parser.Leaves (elementsOf nested elements) := by
  cases elements with
  | none => exact Parser.leaves_done _
  | some elements =>
      exact (leaves.replicate elements).bind fun replies =>
        Parser.leaves_done _

theorem stable_scalar (type : ReplyType) : Parser.Stable (scalar type) := by
  cases type with
  | error => exact stable_line.bind fun str => Parser.stable_done _
  | status => exact stable_line.bind fun str => Parser.stable_done _
  | integer => exact stable_number.bind fun value => Parser.stable_done _
  | string => exact stable_number.bind stable_bulkOf
  | array => exact Parser.stable_fail _
  | nil => exact Parser.stable_fail _

theorem leaves_scalar (type : ReplyType) : Parser.Leaves (scalar type) := by
  cases type with
  | error => exact leaves_line.bind fun str => Parser.leaves_done _
  | status => exact leaves_line.bind fun str => Parser.leaves_done _
  | integer => exact leaves_number.bind fun value => Parser.leaves_done _
  | string => exact leaves_number.bind leaves_bulkOf
  | array => exact Parser.leaves_fail _
  | nil => exact Parser.leaves_fail _

theorem stable_arrayWith
    {nested : Option (ReplyParser Reply)}
    (stable : ∀ parser ∈ nested, Parser.Stable parser) :
    Parser.Stable (arrayWith nested) := by
  cases nested with
  | none => exact Parser.stable_fail _
  | some nested =>
      exact stable_arrayHeader.bind (stable_elementsOf (stable nested rfl))

theorem leaves_arrayWith
    {nested : Option (ReplyParser Reply)}
    (leaves : ∀ parser ∈ nested, Parser.Leaves parser) :
    Parser.Leaves (arrayWith nested) := by
  cases nested with
  | none => exact Parser.leaves_fail _
  | some nested =>
      exact leaves_arrayHeader.bind (leaves_elementsOf (leaves nested rfl))

theorem stable_replyWith
    {nested : Option (ReplyParser Reply)}
    (stable : ∀ parser ∈ nested, Parser.Stable parser) :
    Parser.Stable (replyWith nested) := by
  intro input back finished
  cases input with
  | nil => exact (finished rfl).elim
  | cons byte input =>
      rw [List.cons_append]
      rw [replyWith] at finished ⊢
      rw [replyWith]
      cases kind : replyType? byte with
      | none => rfl
      | some type =>
          rw [kind] at finished
          simp only [typed] at finished ⊢
          split
          · rename_i isArray
            rw [if_pos isArray] at finished
            exact stable_arrayWith stable input back finished
          · rename_i notArray
            rw [if_neg notArray] at finished
            exact stable_scalar type input back finished

theorem leaves_replyWith
    {nested : Option (ReplyParser Reply)}
    (leaves : ∀ parser ∈ nested, Parser.Leaves parser) {byte : UInt8}
    {input rest : ByteString} {value : Reply}
    (finished : replyWith nested (byte :: input) = .done value rest) :
    rest <:+ input := by
  rw [replyWith] at finished
  cases kind : replyType? byte with
  | none =>
      rw [kind] at finished
      cases finished
  | some type =>
      rw [kind] at finished
      simp only [typed] at finished
      split at finished
      · exact leaves_arrayWith leaves input value rest finished
      · exact leaves_scalar type input value rest finished

theorem stable_reply (levels : Nat) : Parser.Stable (reply levels) := by
  induction levels with
  | zero => exact stable_replyWith (by simp)
  | succ levels induction =>
      apply stable_replyWith
      intro parser nested
      cases nested
      exact induction

/-- At least the type byte is taken. -/
theorem leaves_and_progresses_reply (levels : Nat) :
    Parser.Leaves (reply levels) ∧ Parser.Progresses (reply levels) := by
  have step : ∀ nested : Option (ReplyParser Reply),
      (∀ parser ∈ nested, Parser.Leaves parser) →
        Parser.Leaves (replyWith nested) ∧
          Parser.Progresses (replyWith nested) := by
    intro nested leaves
    constructor
    · intro input value rest finished
      cases input with
      | nil => cases finished
      | cons byte input =>
          exact (leaves_replyWith leaves finished).trans
            (List.suffix_cons byte input)
    · intro input value rest finished
      cases input with
      | nil => cases finished
      | cons byte input =>
          have shorter := (leaves_replyWith leaves finished).length_le
          rw [List.length_cons]
          omega
  induction levels with
  | zero => exact step none (by simp)
  | succ levels induction =>
      apply step
      intro parser nested
      cases nested
      exact induction.1

/-! ### Round trip -/

theorem Sendable.mono
    {levels more : Nat} {reply : Reply} (sendable : Sendable levels reply)
    (le : levels ≤ more) : Sendable more reply := by
  induction sendable generalizing more with
  | string fits => exact .string fits
  | array fits _ induction =>
      cases more with
      | zero => omega
      | succ more =>
          exact .array fits fun reply listed =>
            induction reply listed (Nat.le_of_succ_le_succ le)
  | integer fits => exact .integer fits
  | nil => exact .nil
  | status oneLine => exact .status oneLine
  | error oneLine => exact .error oneLine

theorem replyWith_cons
    {byte : UInt8} {type : ReplyType} (kind : replyType? byte = some type)
    (nested : Option (ReplyParser Reply)) (input : ByteString) :
    replyWith nested (byte :: input) = typed nested type input := by
  simp only [replyWith, kind]

theorem replyWith_array
    (nested : ReplyParser Reply) {element : List Reply}
    (fits : element.length ≤ intMax) (rest : ByteString) :
    replyWith (some nested) (Reply.encode (.array element) ++ rest) =
      (nested.replicate element.length
        (stream Reply.encode element ++ rest)).bind fun replies =>
          .done (.array replies) := by
  have written : Reply.encode (.array element) ++ rest =
      42 :: (decimal element.length ++ crlf ++
        (stream Reply.encode element ++ rest)) := by
    have marker : ascii "*" = [42] := rfl
    simp [Reply.encode, marker, encodeAll_eq_stream]
  have count := number_decimal
    (fits.trans (by decide : intMax ≤ longLongMax))
    (stream Reply.encode element ++ rest)
  have inRange : ¬ ((element.length : Int) < 0 ∨
      (intMax : Int) < element.length) := by omega
  have length : arrayLength element.length = .done (some element.length) := by
    rw [arrayLength, if_neg (by omega), if_neg inRange, Int.toNat_natCast]
  rw [written, replyWith_cons rfl]
  simp only [typed, if_true, arrayWith, arrayHeader, count, Parsed.bind_done,
    length, elementsOf]

/-- What is no array is read in every context. -/
theorem replyWith_scalar
    (nested : Option (ReplyParser Reply)) {reply : Reply}
    (sendable : Sendable 0 reply) (rest : ByteString) :
    replyWith nested (reply.encode ++ rest) = .done reply rest := by
  cases sendable with
  | @string _ str fits =>
      have written : Reply.encode (.string str) ++ rest =
          36 :: (decimal str.length ++ crlf ++ (str ++ (crlf ++ rest))) := by
        have marker : ascii "$" = [36] := rfl
        simp [Reply.encode, marker]
      have header := number_decimal
        ((Nat.le_add_right str.length 2).trans fits) (str ++ (crlf ++ rest))
      have bulk : bulkOf str.length (str ++ (crlf ++ rest)) =
          .done (.string str) rest := by
        have room : (str.length : Int).toNat + 2 ≤
            (str ++ (crlf ++ rest)).length := by
          simp [crlf_eq]
        rw [bulkOf, if_neg (by omega), if_neg (by omega), if_pos room,
          Int.toNat_natCast, List.take_left, List.drop_append,
          List.drop_of_length_le (by omega)]
        simp [crlf_eq]
      rw [written, replyWith_cons rfl]
      simp only [typed, reduceCtorEq, if_false, scalar, header,
        Parsed.bind_done, bulk]
  | @integer _ value fits =>
      have written : Reply.encode (.integer value) ++ rest =
          58 :: (integerText value ++ crlf ++ rest) := by
        have marker : ascii ":" = [58] := rfl
        simp [Reply.encode, marker]
      have header := number_integerText fits rest
      rw [written, replyWith_cons rfl]
      simp only [typed, reduceCtorEq, if_false, scalar, header,
        Parsed.bind_done]
  | nil =>
      have written : Reply.encode .nil ++ rest =
          36 :: (integerText (-1) ++ crlf ++ rest) := by
        have marker : ascii "$" = [36] := rfl
        simp [Reply.encode, marker]
      have header := number_integerText
        (by decide : (-1 : Int).natAbs ≤ longLongMax) rest
      have bulk : bulkOf (-1) rest = .done .nil rest := rfl
      rw [written, replyWith_cons rfl]
      simp only [typed, reduceCtorEq, if_false, scalar, header,
        Parsed.bind_done, bulk]
  | @status _ str oneLine =>
      have written : Reply.encode (.status str) ++ rest =
          43 :: (str ++ crlf ++ rest) := by
        have marker : ascii "+" = [43] := rfl
        simp [Reply.encode, marker]
      have text := line_append oneLine rest
      rw [written, replyWith_cons rfl]
      simp only [typed, reduceCtorEq, if_false, scalar, text,
        Parsed.bind_done]
  | @error _ str oneLine =>
      have written : Reply.encode (.error str) ++ rest =
          45 :: (str ++ crlf ++ rest) := by
        have marker : ascii "-" = [45] := rfl
        simp [Reply.encode, marker]
      have text := line_append oneLine rest
      rw [written, replyWith_cons rfl]
      simp only [typed, reduceCtorEq, if_false, scalar, text,
        Parsed.bind_done]

/-- The induction is on the nesting that is left. -/
theorem reads_reply (levels : Nat) :
    (reply levels).Reads (Sendable levels) Reply.encode := by
  induction levels with
  | zero =>
      intro value sendable rest
      exact replyWith_scalar none sendable rest
  | succ levels induction =>
      intro value sendable rest
      cases value with
      | array element =>
          cases sendable with
          | array fits sendable =>
              have elements := Parser.Reads.replicate induction sendable rest
              rw [reply, replyWith_array (reply levels) fits, elements,
                Parsed.bind_done]
      | string str =>
          cases sendable with
          | string fits => exact replyWith_scalar _ (.string fits) rest
      | integer value =>
          cases sendable with
          | integer fits => exact replyWith_scalar _ (.integer fits) rest
      | nil => exact replyWith_scalar _ .nil rest
      | status str =>
          cases sendable with
          | status oneLine => exact replyWith_scalar _ (.status oneLine) rest
      | error str =>
          cases sendable with
          | error oneLine => exact replyWith_scalar _ (.error oneLine) rest

/-- An array that stands too deep is the only thing that keeps a reply from
being read. -/
theorem reply_nestingError
    {more levels : Nat} {value : Reply} (sendable : Sendable more value)
    (tooDeep : ¬ Sendable levels value) (rest : ByteString) :
    reply levels (value.encode ++ rest) = .fail (.error nestingError) := by
  classical
  induction levels generalizing more value rest with
  | zero =>
      cases sendable with
      | array _ _ => rfl
      | string fits => exact (tooDeep (.string fits)).elim
      | integer fits => exact (tooDeep (.integer fits)).elim
      | nil => exact (tooDeep .nil).elim
      | status oneLine => exact (tooDeep (.status oneLine)).elim
      | error oneLine => exact (tooDeep (.error oneLine)).elim
  | succ levels induction =>
      cases sendable with
      | @array more element fits sendable =>
          have notAll : ¬ ∀ reply ∈ element, Sendable levels reply :=
            fun all => tooDeep (.array fits all)
          obtain ⟨bad, found⟩ : ∃ bad, element.find?
              (fun reply => decide (¬ Sendable levels reply)) = some bad := by
            rw [← Option.isSome_iff_exists, List.find?_isSome]
            simpa using notAll
          obtain ⟨deeper, front, back, rfl, good⟩ :=
            List.find?_eq_some_iff_append.mp found
          simp only [decide_not, Bool.not_eq_true', Bool.not_not,
            decide_eq_false_iff_not, decide_eq_true_iff] at deeper good
          have fails := fun rest =>
            induction (sendable bad (by simp)) deeper rest
          have failed : (reply levels).replicate (front ++ bad :: back).length
              (stream Reply.encode (front ++ bad :: back) ++ rest) =
                .fail (.error nestingError) :=
            (reads_reply levels).replicate_fail good fails rest
          rw [reply, replyWith_array (reply levels) fits, failed,
            Parsed.bind_fail]
      | string fits => exact (tooDeep (.string fits)).elim
      | integer fits => exact (tooDeep (.integer fits)).elim
      | nil => exact (tooDeep .nil).elim
      | status oneLine => exact (tooDeep (.status oneLine)).elim
      | error oneLine => exact (tooDeep (.error oneLine)).elim

end Hiredis

end DBWrapper
