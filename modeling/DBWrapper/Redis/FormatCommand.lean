import DBWrapper.Foundation.Words
import DBWrapper.Redis.Command

/-!
# The formatter of hiredis

`redisvFormatCommand` reads a format string, splits it at its spaces and
writes the pieces as a command.  The model is of a call without arguments
after the format, as the worker makes it.  A conversion that asks for an
argument is undefined behaviour then.

Memory is never short, except for a request that no allocation can meet.
-/

namespace DBWrapper

open Foundation

namespace Hiredis

def percent : UInt8 := 37

def space : UInt8 := 32

def isSpace (byte : UInt8) : Bool :=
  byte == space

/-- `INT_MAX`. -/
def intMax : Nat := 2147483647

/-- The conversion to `int`. -/
def toInt (value : Int) : Int :=
  value.bmod 4294967296

/-- Why there is no command: an allocation has failed (`-1`), the format is
wrong (`-2`), the behaviour is undefined, or an assertion has failed. -/
inductive FormatFailure where
  | memory | format | undefined | aborted
  deriving DecidableEq, Repr

def countDigits (v : Nat) : Nat :=
  if v < 10 then 1
  else if v < 100 then 2
  else if v < 1000 then 3
  else if v < 10000 then 4
  else countDigits (v / 10000) + 4
termination_by v

def bulklen (len : Nat) : Nat :=
  1 + countDigits len + 2 + len + 2

/-- The local variables of the loop.  `argc` is the length of `argv`. -/
structure FormatState where
  argv : List ByteString
  totlen : Int
  curarg : ByteString
  touched : Bool
  deriving DecidableEq, Repr

namespace FormatState

def start : FormatState :=
  { argv := [], totlen := 0, curarg := [], touched := false }

def append (state : FormatState) (byte : UInt8) : FormatState :=
  { state with curarg := state.curarg ++ [byte], touched := true }

/-- The current argument goes to the others, if it has been touched. -/
def closeArgument (state : FormatState) : FormatState :=
  if state.touched then
    { argv := state.argv ++ [state.curarg]
      totlen := toInt (state.totlen + bulklen state.curarg.length)
      curarg := []
      touched := false }
  else
    state

/-- A byte that does not start a conversion. -/
def literal (state : FormatState) (byte : UInt8) : FormatState :=
  if byte = space then state.closeArgument else state.append byte

end FormatState

/-! ### Conversions -/

def intfmts : ByteString := ascii "diouxX"

def flags : ByteString := ascii "#0-+ "

/-- `strchr(set, *p) != NULL`.  At the end of the string it finds the zero
that terminates the set. -/
def strchr (set p : ByteString) : Bool :=
  match p with
  | [] => true
  | byte :: _ => set.contains byte

/-- An integer conversion after a size, where the end is tested for. -/
def sizedConversion (p : ByteString) : FormatFailure :=
  if !p.isEmpty && strchr intfmts p then .undefined else .format

/-- The default branch of the switch, from the byte after the `%` on.  A valid
conversion takes an argument. -/
def printfFormat (p : ByteString) : FormatFailure :=
  let p := p.dropWhile flags.contains
  let p := p.dropWhile isDigit
  let p :=
    if (ascii ".").isPrefixOf p then (p.drop 1).dropWhile isDigit else p
  if strchr intfmts p then .undefined
  else if strchr (ascii "eEfFgGaA") p then .undefined
  else if (ascii "hh").isPrefixOf p then sizedConversion (p.drop 2)
  else if (ascii "h").isPrefixOf p then sizedConversion (p.drop 1)
  else if (ascii "ll").isPrefixOf p then sizedConversion (p.drop 2)
  else if (ascii "l").isPrefixOf p then sizedConversion (p.drop 1)
  else .format

/-- The loop over the format. -/
def formatLoop (state : FormatState) :
    ByteString → Except FormatFailure FormatState
  | [] => .ok state
  | [last] => .ok (state.literal last)
  | byte :: next :: rest =>
      if byte ≠ percent then
        formatLoop (state.literal byte) (next :: rest)
      else if (ascii "sb").contains next then
        .error .undefined
      else if next = percent then
        formatLoop (state.append percent) rest
      else
        .error (printfFormat (next :: rest))

/-! ### The command -/

/-- `cmd` as the loop of `sprintf` and `memcpy` fills it. -/
def fillCommand (argv : List ByteString) : ByteString :=
  argv.foldl
    (fun cmd arg => cmd ++ (ascii "$" ++ decimal arg.length ++ crlf) ++
      arg ++ crlf)
    (ascii "*" ++ decimal argv.length ++ crlf)

/-- After the last argument.  `argc` or `totlen + 1` may be beyond an `int`, and
`malloc` gets a negative `totlen + 1` as a size beyond all memory. -/
def buildCommand (argv : List ByteString) (totlen : Int) :
    Except FormatFailure ByteString :=
  let totlen := toInt (totlen + (1 + countDigits argv.length + 2 : Nat))
  if intMax < argv.length ∨ totlen = intMax then
    .error .undefined
  else if totlen + 1 < 0 then
    .error .memory
  else
    let cmd := fillCommand argv
    -- behind the end of the allocated block
    if totlen + 1 < cmd.length then
      .error .undefined
    else if cmd.length ≠ totlen then
      .error .aborted
    else
      .ok cmd

def redisvFormatCommand (format : ByteString) :
    Except FormatFailure ByteString := do
  let state ← formatLoop FormatState.start format
  let state := state.closeArgument
  buildCommand state.argv state.totlen

/-! ### Lengths -/

theorem length_decimal (v : Nat) : (decimal v).length = countDigits v := by
  induction v using countDigits.induct with
  | case1 v small =>
      rw [countDigits, if_pos small, length_decimal_of_lt small]
  | case2 v large small =>
      rw [countDigits, if_neg large, if_pos small,
        length_decimal_of_le (by omega), length_decimal_of_lt (by omega)]
  | case3 v tens large small =>
      rw [countDigits, if_neg tens, if_neg large, if_pos small,
        length_decimal_of_le (by omega), length_decimal_of_le (by omega),
        length_decimal_of_lt (by omega)]
  | case4 v tens hundreds large small =>
      rw [countDigits, if_neg tens, if_neg hundreds, if_neg large,
        if_pos small, length_decimal_of_le (by omega),
        length_decimal_of_le (by omega), length_decimal_of_le (by omega),
        length_decimal_of_lt (by omega)]
  | case5 v tens hundreds thousands large induction =>
      have shorter : v / 10 / 10 / 10 / 10 = v / 10000 := by omega
      rw [countDigits, if_neg tens, if_neg hundreds, if_neg thousands,
        if_neg large, ← induction, length_decimal_of_le (by omega),
        length_decimal_of_le (by omega), length_decimal_of_le (by omega),
        length_decimal_of_le (by omega), shorter]

def bulkLengths : List ByteString → Nat
  | [] => 0
  | arg :: argv => bulklen arg.length + bulkLengths argv

/-- The number of bytes that the formatter counts for a command. -/
def commandLength (argv : List ByteString) : Nat :=
  bulkLengths argv + (1 + countDigits argv.length + 2)

theorem bulkLengths_append_singleton
    (argv : List ByteString) (arg : ByteString) :
    bulkLengths (argv ++ [arg]) = bulkLengths argv + bulklen arg.length := by
  induction argv with
  | nil => simp [bulkLengths]
  | cons first argv induction =>
      rw [List.cons_append, bulkLengths, induction, bulkLengths,
        Nat.add_assoc]

theorem length_formatArgument (argument : ByteString) :
    (RedisCommand.formatArgument argument).length = bulklen argument.length := by
  have dollar : (ascii "$").length = 1 := rfl
  have lineEnd : crlf.length = 2 := rfl
  simp only [RedisCommand.formatArgument, List.length_append, length_decimal,
    bulklen, dollar, lineEnd]

theorem length_redisFormatCommand (argv : List ByteString) :
    (RedisCommand.redisFormatCommand argv).length = commandLength argv := by
  have star : (ascii "*").length = 1 := rfl
  have lineEnd : crlf.length = 2 := rfl
  have arguments :
      (argv.flatMap RedisCommand.formatArgument).length =
        bulkLengths argv := by
    induction argv with
    | nil => rfl
    | cons arg argv induction =>
        rw [List.flatMap_cons, List.length_append, length_formatArgument,
          induction, bulkLengths]
  simp only [RedisCommand.redisFormatCommand, List.length_append,
    length_decimal, arguments, star, lineEnd, commandLength]
  omega

/-- Both formatters write the same bytes. -/
theorem fillCommand_eq (argv : List ByteString) :
    fillCommand argv = RedisCommand.redisFormatCommand argv := by
  have step : (fun (cmd arg : ByteString) =>
      cmd ++ (ascii "$" ++ decimal arg.length ++ crlf) ++ arg ++ crlf) =
        fun cmd arg => cmd ++ RedisCommand.formatArgument arg := by
    funext cmd arg
    simp [RedisCommand.formatArgument]
  rw [fillCommand, step, List.foldl_append_eq_append]
  rfl

theorem toInt_add_toInt (first second : Int) :
    toInt (toInt first + second) = toInt (first + second) := by
  simp [toInt]

theorem toInt_of_mem
    {value : Int} (low : -2147483648 ≤ value) (high : value ≤ intMax) :
    toInt value = value := by
  rw [intMax] at high
  apply Int.bmod_eq_of_le
  · omega
  · omega

theorem toInt_of_le {value : Nat} (fits : value ≤ intMax) :
    toInt value = value :=
  toInt_of_mem (by omega) (by omega)

theorem toInt_natCast_le (value : Nat) : toInt value ≤ value := by
  rw [toInt, Int.bmod_def]
  split <;> omega

theorem toInt_le (value : Int) : toInt value ≤ intMax := by
  have bound : toInt value < (4294967296 + 1) / 2 :=
    Int.bmod_lt (by decide)
  rw [intMax]
  omega

theorem length_le_commandLength (argv : List ByteString) :
    argv.length ≤ commandLength argv := by
  have each : argv.length ≤ bulkLengths argv := by
    induction argv with
    | nil => simp
    | cons arg argv induction =>
        rw [List.length_cons, bulkLengths, bulklen]
        omega
  rw [commandLength]
  omega

/-- The assertion never fails: what does not fit an `int` goes wrong
before. -/
theorem buildCommand_eq_ok_iff
    {argv : List ByteString} {totlen : Int} {command : ByteString}
    (counted : totlen = toInt (bulkLengths argv)) :
    buildCommand argv totlen = .ok command ↔
      commandLength argv < intMax ∧
        RedisCommand.redisFormatCommand argv = command := by
  have total :
      toInt (totlen + (1 + countDigits argv.length + 2 : Nat)) =
        toInt (commandLength argv : Nat) := by
    rw [counted, toInt_add_toInt, commandLength]
    simp
  have few := length_le_commandLength argv
  have bound := toInt_le (commandLength argv)
  simp only [buildCommand, total, fillCommand_eq, length_redisFormatCommand]
  by_cases fits : commandLength argv ≤ intMax
  · rw [toInt_of_le fits]
    by_cases below : commandLength argv < intMax
    · rw [if_neg (by omega), if_neg (by omega), if_neg (by omega),
        if_neg (by simp)]
      simp [below]
    · rw [if_pos (by omega)]
      simp [below]
  · have tooLong : ¬ commandLength argv < intMax := by omega
    simp only [tooLong, false_and, iff_false]
    split
    · simp
    · rename_i inRange
      split
      · simp
      · rw [if_pos (by omega)]
        simp

/-! ### The arguments -/

namespace FormatState

/-- Only the touched argument is not empty, and it has no spaces. -/
structure Good (state : FormatState) : Prop where
  touched : state.touched = !state.curarg.isEmpty
  inWord : ∀ byte ∈ state.curarg, isSpace byte = false
  counted : state.totlen = toInt (bulkLengths state.argv)

theorem good_start : start.Good := by
  constructor
  · rfl
  · intro byte listed
    cases listed
  · simp [start, toInt, bulkLengths]

namespace Good

variable {state : FormatState}

theorem append
    (good : state.Good) {byte : UInt8} (solid : isSpace byte = false) :
    (state.append byte).Good := by
  constructor
  · simp [FormatState.append]
  · intro other listed
    rcases List.mem_append.mp listed with earlier | last
    · exact good.inWord other earlier
    · rw [List.mem_singleton.mp last]
      exact solid
  · exact good.counted

theorem curarg_closeArgument (good : state.Good) :
    state.closeArgument.curarg = [] := by
  rw [closeArgument]
  split
  · rfl
  · rename_i untouched
    simpa [good.touched] using untouched

theorem closeArgument (good : state.Good) : state.closeArgument.Good := by
  have empty := good.curarg_closeArgument
  constructor
  · rw [empty]
    rw [FormatState.closeArgument]
    split
    · rfl
    · rename_i untouched
      simpa using untouched
  · rw [empty]
    intro byte listed
    cases listed
  · rw [FormatState.closeArgument]
    split
    · simp [good.counted, toInt_add_toInt, bulkLengths_append_singleton]
    · exact good.counted

theorem literal (good : state.Good) (byte : UInt8) :
    (state.literal byte).Good := by
  rw [FormatState.literal]
  split
  · exact good.closeArgument
  · rename_i solid
    apply good.append
    simpa [isSpace] using solid

end Good

end FormatState

/-! ### What a format stands for

A format without conversions stands for a text: two `%` are one, and a `%`
that ends the format is itself.
-/

def unescape : ByteString → Option ByteString
  | [] => some []
  | [last] => some [last]
  | byte :: next :: rest =>
      if byte ≠ percent then (unescape (next :: rest)).map (byte :: ·)
      else if next = percent then (unescape rest).map (percent :: ·)
      else none

end Hiredis

end DBWrapper
