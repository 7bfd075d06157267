import DBWrapper.Foundation.SelfDelimiting
import DBWrapper.TaskBase.Task

/-!
# Redis commands on the wire

A command is written as an array of bulk strings, which are any bytes, also a
carriage return or a zero.  The functions of `redis_command` print it; the reader
below them is the grammar of such an array, read from left to right.
-/

namespace DBWrapper

open Foundation

def crlf : ByteString := ascii "\r\n"

/-- A key or a value of the template; `other` is any type but
`std::string`. -/
inductive CommandArg where
  | string (value : ByteString)
  | other
  deriving DecidableEq, Repr

namespace RedisCommand

/-- What one turn of the loop in `redis_formatCommand` prints. -/
def formatArgument (argument : ByteString) : ByteString :=
  ascii "$" ++ decimal argument.length ++ crlf ++ argument ++ crlf

def redisFormatCommand (argv : List ByteString) : ByteString :=
  ascii "*" ++ decimal argv.length ++ crlf ++ argv.flatMap formatArgument

/-- The third argument of the template is not looked at. -/
def getFormatCommand (type : MsgType) (key value : CommandArg) : ByteString :=
  match type with
  | .taskRedisPut =>
      match key, value with
      | .string key, .string value =>
          redisFormatCommand [ascii "SET", key, value]
      | _, _ => []
  | _ => []

end RedisCommand

/-! ### The grammar -/

namespace Resp

/-- `marker`, a decimal number, and the end of the line. -/
def header (marker : ByteString) : Reader UInt8 Nat :=
  fun input => do
    let ((), input) ← Reader.literal marker input
    let (count, input) ← Reader.number input
    let ((), input) ← Reader.literal crlf input
    return (count, input)

/-- A bulk string.  Its bytes are counted, not looked at. -/
def bulkString : Reader UInt8 ByteString :=
  fun input => do
    let (length, input) ← header (ascii "$") input
    let (value, input) ← Reader.take length input
    let ((), input) ← Reader.literal crlf input
    return (value, input)

/-- An array of bulk strings. -/
def parse : Reader UInt8 (List ByteString) :=
  fun input => do
    let (count, input) ← header (ascii "*") input
    bulkString.replicate count input

/-- All the commands of a pipeline. -/
def parsePipeline (input : ByteString) : Option (List (List ByteString)) :=
  parse.all input

theorem header_append (marker : ByteString) (count : Nat) (rest : ByteString) :
    header marker (marker ++ decimal count ++ crlf ++ rest) =
      some (count, rest) := by
  have endsNumber : crlf ++ rest = 13 :: 10 :: rest := rfl
  have number : Reader.number (decimal count ++ (crlf ++ rest)) =
      some (count, crlf ++ rest) := by
    rw [endsNumber]
    exact Reader.number_decimal_append count rfl _
  simp [header, number]

theorem bulkString_undoes :
    Undoes bulkString RedisCommand.formatArgument := by
  intro argument rest
  have line := header_append (ascii "$") argument.length
    (argument ++ (crlf ++ rest))
  simp only [List.append_assoc] at line
  simp [bulkString, RedisCommand.formatArgument, line]

/-- The induction over the arguments is the one of `Undoes.replicate`. -/
theorem parse_undoes : Undoes parse RedisCommand.redisFormatCommand := by
  intro argv rest
  have line := header_append (ascii "*") argv.length
    (argv.flatMap RedisCommand.formatArgument ++ rest)
  have arguments := bulkString_undoes.replicate argv rest
  simp only [List.append_assoc] at line
  simp [parse, RedisCommand.redisFormatCommand, line, arguments]

theorem redisFormatCommand_ne_nil (argv : List ByteString) :
    RedisCommand.redisFormatCommand argv ≠ [] := by
  have marker : ascii "*" = [42] := rfl
  simp [RedisCommand.redisFormatCommand, marker]

/-- Commands written one after the other are read back one by one. -/
theorem parsePipeline_flatMap (commands : List (List ByteString)) :
    parsePipeline (commands.flatMap RedisCommand.redisFormatCommand) =
      some commands :=
  parse_undoes.all redisFormatCommand_ne_nil commands

end Resp

end DBWrapper
