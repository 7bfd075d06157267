import DBWrapper.Redis.RawCommand
import DBWrapper.Redis.Reply

/-!
# The arguments of a formatted command

`__redisAsyncCommand` gets the bytes of a command and finds out which one it is,
since the callbacks of subscriptions are kept apart.  It walks over the bytes
with `nextArgument`, from one length to the next.

A pointer into the command is the rest of the bytes from there; behind the last
of them is a zero.  `none` is a failed assertion, or a pointer that leaves the
command.
-/

namespace DBWrapper

open Foundation

namespace Hiredis

namespace Arguments

/-- `strchr`, which stops at a zero. -/
def strchr (byte : UInt8) : ByteString → Option ByteString
  | [] => none
  | c :: s =>
      if c = byte then some (c :: s) else if c = 0 then none else strchr byte s

/-- `isspace` in the C locale. -/
def isBlank (byte : UInt8) : Bool :=
  byte = 32 || (9 ≤ byte.toNat && byte.toNat ≤ 13)

/-- `strtol` for base 10.  A number out of range is clamped. -/
def strtol (s : ByteString) : Int :=
  let (mult, s) := readSign (s.dropWhile isBlank)
  let value := mult * decimalValue (s.takeWhile isDigit)
  max (-(longLongMax : Int) - 1) (min longLongMax value)

/-- `str` and `next` are pointers. -/
structure Argument where
  str : ByteString
  len : Nat
  next : ByteString
  deriving DecidableEq, Repr

/-- `nextArgument`; the inner `none` is a null pointer. -/
def nextArgument (start : ByteString) : Option (Option Argument) :=
  match if start.head? = some dollar then some start else strchr dollar start with
  | none => some none
  | some p =>
      let len := toInt (strtol p.tail)
      match strchr carriageReturn p with
      | none => none
      | some p =>
          if 0 ≤ len ∧ len.toNat + 4 ≤ p.length then
            some (some
              { str := p.drop 2
                len := len.toNat
                next := p.drop (2 + (len.toNat + 2)) })
          else
            none

/-- The loop over the channels of a subscription.  Each of them takes at least
four bytes. -/
def names : Nat → ByteString → Option (List ByteString)
  | 0, _ => none
  | fuel + 1, p =>
      match nextArgument p with
      | none => none
      | some none => some []
      | some (some argument) =>
          (names fuel argument.next).map (argument.str.take argument.len :: ·)

def toLower (byte : UInt8) : UInt8 :=
  if 65 ≤ byte.toNat ∧ byte.toNat ≤ 90 then byte + 32 else byte

/-- `strncasecmp` with all of a literal in small letters. -/
def startsWith (s literal : ByteString) : Bool :=
  (s.take literal.length).map toLower = literal

/-- What `__redisAsyncCommand` tells apart.  `pvariant` is true for the
commands with patterns. -/
inductive CommandKind where
  | subscribe (pvariant : Bool) (names : List ByteString)
  | unsubscribe
  | monitor
  | regular
  deriving DecidableEq, Repr

def letterP : UInt8 := 112

/-- The kind of a command whose name is read from `cstr` on; `next` is behind
the name. -/
def kindAt (pvariant : Bool) (cstr next : ByteString) : Option CommandKind :=
  let hasnext := next.head? = some dollar
  if hasnext ∧ startsWith cstr (ascii "subscribe\r\n") then
    (names (next.length + 1) next).map (.subscribe pvariant)
  else if startsWith cstr (ascii "unsubscribe\r\n") then
    some .unsubscribe
  else if startsWith cstr (ascii "monitor\r\n") then
    some .monitor
  else
    some .regular

/-- A first letter that is a `p` is skipped, whichever command it belongs
to. -/
def commandKind (cmd : ByteString) : Option CommandKind := do
  let found ← nextArgument cmd
  let argument ← found
  if argument.str.head?.map toLower = some letterP then
    kindAt true argument.str.tail argument.next
  else
    kindAt false argument.str argument.next

/-! ### Formatted commands -/

theorem strchr_append
    {byte : UInt8} {front : ByteString} (absent : byte ∉ front)
    (noNul : 0 ∉ front) (rest : ByteString) :
    strchr byte (front ++ byte :: rest) = some (byte :: rest) := by
  induction front with
  | nil => simp [strchr]
  | cons c front induction =>
      have notByte : c ≠ byte := by
        intro same
        exact absent (same ▸ List.mem_cons_self)
      have notNul : c ≠ 0 := by
        intro same
        exact noNul (same ▸ List.mem_cons_self)
      rw [List.cons_append, strchr, if_neg notByte, if_neg notNul]
      apply induction
      · exact fun listed => absent (List.mem_cons_of_mem _ listed)
      · exact fun listed => noNul (List.mem_cons_of_mem _ listed)

theorem isBlank_of_isDigit {byte : UInt8} (digit : isDigit byte = true) :
    isBlank byte = false := by
  have bounds : 48 ≤ byte.toNat ∧ byte.toNat ≤ 57 := by
    simpa [isDigit] using digit
  have notSpace : byte ≠ 32 := by
    intro same
    rw [same] at bounds
    exact absurd bounds.1 (by decide)
  have notRange : ¬ (9 ≤ byte.toNat ∧ byte.toNat ≤ 13) := by omega
  simpa [isBlank, notSpace] using notRange

theorem decimal_ne_nil (number : Nat) : decimal number ≠ [] := by
  simp [decimal]

/-- A number is read as far as the end of its line. -/
theorem strtol_decimal
    {number : Nat} (fits : number ≤ intMax) (rest : ByteString) :
    strtol (decimal number ++ carriageReturn :: rest) = number := by
  obtain ⟨digit, others, printed⟩ :=
    List.exists_cons_of_ne_nil (decimal_ne_nil number)
  have isDigitHere : isDigit digit = true := by
    apply isDigit_of_mem_decimal
    rw [printed]
    exact List.mem_cons_self
  have noBlanks : (decimal number ++ carriageReturn :: rest).dropWhile
      isBlank = decimal number ++ carriageReturn :: rest := by
    rw [printed, List.cons_append, List.dropWhile_cons_of_neg]
    rw [isBlank_of_isDigit isDigitHere]
    exact Bool.false_ne_true
  have digits : (decimal number ++ carriageReturn :: rest).takeWhile isDigit =
      decimal number := by
    rw [List.takeWhile_append_of_pos fun byte => isDigit_of_mem_decimal]
    simp [isDigit, carriageReturn]
  rw [intMax] at fits
  simp only [strtol, noBlanks, readSign_decimal, digits, decimalValue_decimal,
    longLongMax]
  omega

theorem crlf_append (rest : ByteString) :
    crlf ++ rest = carriageReturn :: 10 :: rest := rfl

/-- From a length on, the walk takes the argument, whatever its bytes are. -/
theorem nextArgument_formatArgument
    {argument : ByteString} (fits : argument.length ≤ intMax)
    (rest : ByteString) :
    nextArgument (RedisCommand.formatArgument argument ++ rest) =
      some (some
        { str := argument ++ (crlf ++ rest)
          len := argument.length
          next := rest }) := by
  have marker : ascii "$" = [dollar] := rfl
  have written : RedisCommand.formatArgument argument ++ rest =
      dollar :: (decimal argument.length ++ (crlf ++
        (argument ++ (crlf ++ rest)))) := by
    simp [RedisCommand.formatArgument, marker]
  have noReturn : carriageReturn ∉ dollar :: decimal argument.length := by
    intro listed
    rcases List.mem_cons.mp listed with same | printed
    · cases same
    · have digit := isDigit_of_mem_decimal printed
      cases digit
  have noNul : 0 ∉ dollar :: decimal argument.length := by
    intro listed
    rcases List.mem_cons.mp listed with same | printed
    · cases same
    · have digit := isDigit_of_mem_decimal printed
      cases digit
  have found := strchr_append noReturn noNul
    (10 :: (argument ++ (crlf ++ rest)))
  rw [← crlf_append, List.cons_append] at found
  have value := strtol_decimal fits (10 :: (argument ++ (crlf ++ rest)))
  rw [← crlf_append] at value
  have enough : argument.length + 4 ≤
      (crlf ++ (argument ++ (crlf ++ rest))).length := by
    simp [crlf_eq]
  have lineEnd : ∀ input : ByteString, (crlf ++ input).drop 2 = input :=
    fun input => rfl
  have behind : (crlf ++ (argument ++ (crlf ++ rest))).drop
      (2 + (argument.length + 2)) = rest := by
    rw [← List.drop_drop, lineEnd, ← List.drop_drop, List.drop_left, lineEnd]
  have positive : (0 : Int) ≤ argument.length := by omega
  simp only [nextArgument, written, List.head?_cons, if_true, List.tail_cons,
    value, toInt_of_le fits, found, positive, Int.toNat_natCast, behind,
    lineEnd]
  rw [if_pos ⟨trivial, enough⟩]

/-- In front of the first length there is no `$`. -/
theorem nextArgument_redisFormatCommand
    {name : ByteString} (fits : name.length ≤ intMax)
    (arguments : List ByteString) :
    nextArgument (RedisCommand.redisFormatCommand (name :: arguments)) =
      some (some
        { str := name ++ (crlf ++ arguments.flatMap RedisCommand.formatArgument)
          len := name.length
          next := arguments.flatMap RedisCommand.formatArgument }) := by
  let count : ByteString :=
    ascii "*" ++ decimal (name :: arguments).length ++ crlf
  let first : ByteString := RedisCommand.formatArgument name ++
    arguments.flatMap RedisCommand.formatArgument
  have written : RedisCommand.redisFormatCommand (name :: arguments) =
      count ++ first := by
    simp [RedisCommand.redisFormatCommand, count, first]
  have countBytes : ∀ byte ∈ count, byte ≠ 0 ∧ byte ≠ dollar := by
    intro byte listed
    rcases List.mem_append.mp listed with header | lineEnd
    · rcases List.mem_append.mp header with star | digits
      · rw [List.mem_singleton.mp (star : byte ∈ [42])]
        decide
      · exact ne_of_mem_decimal digits
    · rcases List.mem_pair.mp (lineEnd : byte ∈ [13, 10]) with rfl | rfl <;>
        decide
  obtain ⟨rest, marked⟩ : ∃ rest, first = dollar :: rest := by
    refine ⟨decimal name.length ++ (crlf ++ (name ++ (crlf ++
      arguments.flatMap RedisCommand.formatArgument))), ?_⟩
    have marker : ascii "$" = [dollar] := rfl
    simp [first, RedisCommand.formatArgument, marker]
  have head : (count ++ first).head? ≠ some dollar := by
    rw [show (count ++ first).head? = some 42 from rfl]
    decide
  have found : strchr dollar (count ++ first) = some first := by
    rw [marked]
    apply strchr_append
    · exact fun listed => (countBytes dollar listed).2 rfl
    · exact fun listed => (countBytes 0 listed).1 rfl
  have there : first.head? = some dollar := by rw [marked, List.head?_cons]
  have walked := nextArgument_formatArgument fits
    (arguments.flatMap RedisCommand.formatArgument)
  rw [nextArgument, if_pos there] at walked
  rw [written, nextArgument, if_neg head, found]
  exact walked

/-- The walk ends at the end of the command. -/
theorem names_flatMap
    {arguments : List ByteString}
    (fits : ∀ argument ∈ arguments, argument.length ≤ intMax) {fuel : Nat}
    (enough : (arguments.flatMap RedisCommand.formatArgument).length < fuel) :
    names fuel (arguments.flatMap RedisCommand.formatArgument) =
      some arguments := by
  induction arguments generalizing fuel with
  | nil =>
      cases fuel with
      | zero => exact (Nat.not_lt_zero _ enough).elim
      | succ fuel => rfl
  | cons argument arguments induction =>
      cases fuel with
      | zero => exact (Nat.not_lt_zero _ enough).elim
      | succ fuel =>
          have walked := nextArgument_formatArgument
            (fits argument List.mem_cons_self)
            (arguments.flatMap RedisCommand.formatArgument)
          have shorter :
              (arguments.flatMap RedisCommand.formatArgument).length < fuel := by
            rw [List.flatMap_cons, List.length_append] at enough
            have positive :
                0 < (RedisCommand.formatArgument argument).length := by
              simp [RedisCommand.formatArgument, ascii]
            omega
          have later := induction
            (fun other listed => fits other (List.mem_cons_of_mem _ listed))
            shorter
          simp only [names, List.flatMap_cons, walked, later, Option.map_some,
            List.take_left]

/-! ### Kinds -/

/-- What a command is by its name, but for a first letter. -/
def plainKind (pvariant : Bool) (lower : ByteString)
    (arguments : List ByteString) : CommandKind :=
  if lower = ascii "subscribe" ∧ arguments ≠ [] then
    .subscribe pvariant arguments
  else if lower = ascii "unsubscribe" then
    .unsubscribe
  else if lower = ascii "monitor" then
    .monitor
  else
    .regular

def kindOf (name : ByteString) (arguments : List ByteString) : CommandKind :=
  match name.map toLower with
  | [] => .regular
  | first :: others =>
      if first = letterP then
        plainKind true others arguments
      else
        plainKind false (first :: others) arguments

theorem toLower_ne_carriageReturn
    {byte : UInt8} (other : byte ≠ carriageReturn) :
    toLower byte ≠ carriageReturn := by
  rw [toLower]
  split
  · rename_i capital
    intro same
    have value := congrArg UInt8.toNat same
    rw [UInt8.toNat_add] at value
    change (byte.toNat + 32) % 256 = 13 at value
    omega
  · exact other

theorem takeWhile_line
    {text : ByteString} (oneLine : carriageReturn ∉ text) (rest : ByteString) :
    (text ++ (crlf ++ rest)).takeWhile (· ≠ carriageReturn) = text := by
  rw [List.takeWhile_append_of_pos]
  · exact List.append_nil text
  · intro byte listed
    have other : byte ≠ carriageReturn := fun same => oneLine (same ▸ listed)
    simpa using other

/-- The end of the line is the end of the name. -/
theorem startsWith_iff
    {name literal : ByteString} (oneLine : carriageReturn ∉ name)
    (plain : carriageReturn ∉ literal) (rest : ByteString) :
    startsWith (name ++ (crlf ++ rest)) (literal ++ crlf) ↔
      name.map toLower = literal := by
  have lowerLine : carriageReturn ∉ name.map toLower := by
    intro listed
    obtain ⟨byte, inName, same⟩ := List.mem_map.mp listed
    have other : byte ≠ carriageReturn := fun same => oneLine (same ▸ inName)
    exact toLower_ne_carriageReturn other same
  have lowered : (name ++ (crlf ++ rest)).map toLower =
      name.map toLower ++ (crlf ++ rest.map toLower) := by
    rw [List.map_append, List.map_append]
    rfl
  rw [startsWith, decide_eq_true_iff, List.map_take, lowered]
  constructor
  · intro same
    have whole := List.take_append_drop (literal ++ crlf).length
      (name.map toLower ++ (crlf ++ rest.map toLower))
    rw [same, List.append_assoc] at whole
    have front := congrArg (List.takeWhile (· ≠ carriageReturn)) whole
    rw [takeWhile_line plain, takeWhile_line lowerLine] at front
    exact front.symm
  · intro same
    rw [same, ← List.append_assoc, List.take_left]

theorem head_flatMap_formatArgument (arguments : List ByteString) :
    (arguments.flatMap RedisCommand.formatArgument).head? = some dollar ↔
      arguments ≠ [] := by
  cases arguments with
  | nil => simp
  | cons argument arguments =>
      have marker : ascii "$" = [dollar] := rfl
      simp [RedisCommand.formatArgument, marker]

theorem kindAt_line
    {text : ByteString} (oneLine : carriageReturn ∉ text)
    {arguments : List ByteString}
    (fits : ∀ argument ∈ arguments, argument.length ≤ intMax)
    (pvariant : Bool) :
    kindAt pvariant
        (text ++ (crlf ++ arguments.flatMap RedisCommand.formatArgument))
        (arguments.flatMap RedisCommand.formatArgument) =
      some (plainKind pvariant (text.map toLower) arguments) := by
  have channels := names_flatMap fits (Nat.lt_succ_self _)
  have subscribe := startsWith_iff oneLine
    (by decide : carriageReturn ∉ ascii "subscribe")
    (arguments.flatMap RedisCommand.formatArgument)
  have unsubscribe := startsWith_iff oneLine
    (by decide : carriageReturn ∉ ascii "unsubscribe")
    (arguments.flatMap RedisCommand.formatArgument)
  have monitor := startsWith_iff oneLine
    (by decide : carriageReturn ∉ ascii "monitor")
    (arguments.flatMap RedisCommand.formatArgument)
  have lines : ascii "subscribe\r\n" = ascii "subscribe" ++ crlf ∧
      ascii "unsubscribe\r\n" = ascii "unsubscribe" ++ crlf ∧
      ascii "monitor\r\n" = ascii "monitor" ++ crlf := ⟨rfl, rfl, rfl⟩
  simp only [kindAt, plainKind, lines, subscribe, unsubscribe, monitor,
    head_flatMap_formatArgument, and_comm]
  split
  · rw [channels]
    rfl
  · split
    · rfl
    · split <;> rfl

/-- A command is taken for what its name says, whatever bytes its arguments
consist of, and a subscription is one to exactly its arguments. -/
theorem commandKind_redisFormatCommand
    {name : ByteString} {arguments : List ByteString}
    (oneLine : carriageReturn ∉ name)
    (fits : ∀ argument ∈ name :: arguments, argument.length ≤ intMax) :
    commandKind (RedisCommand.redisFormatCommand (name :: arguments)) =
      some (kindOf name arguments) := by
  have found := nextArgument_redisFormatCommand
    (fits name List.mem_cons_self) arguments
  have argumentsFit : ∀ argument ∈ arguments, argument.length ≤ intMax :=
    fun argument listed => fits argument (List.mem_cons_of_mem _ listed)
  simp only [commandKind, found, Option.bind_eq_bind, Option.bind_some]
  cases name with
  | nil =>
      have notP : toLower carriageReturn ≠ letterP := by decide
      have head : ([] ++ (crlf ++ arguments.flatMap
          RedisCommand.formatArgument)).head?.map toLower ≠ some letterP :=
        fun same => notP (Option.some.inj same)
      rw [if_neg head]
      exact kindAt_line oneLine argumentsFit false
  | cons first text =>
      have textLine : carriageReturn ∉ text :=
        fun listed => oneLine (List.mem_cons_of_mem _ listed)
      simp only [List.cons_append, List.head?_cons, Option.map_some,
        Option.some.injEq, List.tail_cons, kindOf, List.map_cons]
      by_cases isP : toLower first = letterP
      · rw [if_pos isP, if_pos isP]
        exact kindAt_line textLine argumentsFit true
      · rw [if_neg isP, if_neg isP]
        exact kindAt_line oneLine argumentsFit false

/-- The channels contain a line end and a `$`. -/
theorem commandKind_redisFormatCommand_channels :
    commandKind (RedisCommand.redisFormatCommand
        [ascii "PSUBSCRIBE", ascii "a\r\n$1", ascii "b"]) =
      some (kindOf (ascii "PSUBSCRIBE") [ascii "a\r\n$1", ascii "b"]) :=
  commandKind_redisFormatCommand (by decide) (by decide)

end Arguments

end Hiredis

end DBWrapper
