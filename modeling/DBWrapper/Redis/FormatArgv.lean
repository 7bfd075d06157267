import DBWrapper.Redis.FormatCommand
import DBWrapper.Redis.SdsRefinement

/-!
# Formatting a vector of arguments

`redisFormatCommandArgv` writes a command with `sprintf` and `memcpy` into a block
of the length that it has counted; `redisFormatSdsCommandArgv` appends the parts
to a string in which it has reserved room.  Both write what the formatter of the
client writes.  The string is written without asking for memory again, so that
the pointers that are not tested are never null.
-/

namespace DBWrapper

open Foundation

namespace Hiredis

/-! ### Into a block -/

/-- `totlen` is an `int` from the start. -/
def redisFormatCommandArgv (argv : List ByteString) :
    Except FormatFailure ByteString :=
  let totlen := argv.foldl
    (fun totlen arg => toInt (totlen + bulklen arg.length))
    (toInt (1 + countDigits argv.length + 2 : Nat))
  if intMax < argv.length ∨ totlen = intMax then
    .error .undefined
  else if totlen + 1 < 0 then
    .error .memory
  else
    let cmd := fillCommand argv
    if totlen + 1 < cmd.length then
      .error .undefined
    else if cmd.length ≠ totlen then
      .error .aborted
    else
      .ok cmd

/-! ### Into a string -/

/-- The digits as they are produced, the last one first. -/
def digitsFrom (v : Nat) : ByteString :=
  UInt8.ofNat (48 + v % 10) :: if v < 10 then [] else digitsFrom (v / 10)
  termination_by v
  decreasing_by omega

/-- `sdsull2str`. -/
def sdsull2str (v : Nat) : ByteString :=
  (digitsFrom v).reverse

/-- `sdsll2str`. -/
def sdsll2str (value : Int) : ByteString :=
  (digitsFrom value.natAbs ++ if value < 0 then [minus] else []).reverse

/-- An argument of `sdscatfmt`; an integer is what the register holds. -/
inductive FmtArg where
  | integer (value : Int)
  | string (str : ByteString)
  deriving DecidableEq, Repr

/-- The local variables of `sdscatfmt`, and the answers that the allocator will
give. -/
structure Formatting where
  memory : List Fresh
  string : SdsString
  position : Nat

namespace Formatting

/-- `sdsMakeRoomFor`, called only if there is less room.  The pointer that it
returns is not tested. -/
def room (state : Formatting) (addlen : Nat) : Option Formatting :=
  if addlen ≤ state.string.sdsavail then
    some state
  else
    match state.memory with
    | [] => none
    | fresh :: memory =>
        match state.string.sdsMakeRoomFor fresh addlen with
        | some (some string) => some { state with memory, string }
        | _ => none

/-- Write at the position; the length grows in the field of the header. -/
def write (state : Formatting) (bytes : ByteString) : Option Formatting := do
  let buf ← store state.string.buf state.position bytes
  if intMax < state.position + bytes.length then
    none
  else
    let string :=
      { state.string with buf }.sdssetlen (state.string.len + bytes.length)
    some { state with string, position := state.position + bytes.length }

def convert (state : Formatting) (bytes : ByteString) : Option Formatting := do
  let state ← state.room bytes.length
  state.write bytes

/-- The conversion behind a percent sign, with the arguments that it leaves. -/
def conversion (state : Formatting) (next : UInt8) (args : List FmtArg) :
    Option (Formatting × List FmtArg) :=
  if [next] = ascii "s" ∨ [next] = ascii "S" then
    match args with
    | .string str :: args => do some (← state.convert str, args)
    | _ => none
  else if [next] = ascii "i" then
    match args with
    | .integer value :: args => do
        some (← state.convert (sdsll2str (toInt value)), args)
    | _ => none
  else if [next] = ascii "I" then
    match args with
    | .integer value :: args => do
        some (← state.convert (sdsll2str (value.bmod 18446744073709551616)),
          args)
    | _ => none
  else if [next] = ascii "u" then
    match args with
    | .integer value :: args => do
        some (← state.convert (sdsull2str (value % 4294967296).toNat), args)
    | _ => none
  else if [next] = ascii "U" then
    match args with
    | .integer value :: args => do
        some (← state.convert (sdsull2str (toSizeT value)), args)
    | _ => none
  else do
    some (← state.write [next], args)

/-- The loop of `sdscatfmt`. -/
def formatFrom : ByteString → List FmtArg → Formatting → Option Formatting
  | [], _, state => some state
  | byte :: rest, args, state => do
      let state ← state.room 1
      if byte = percent then
        match rest with
        | [] => none
        | next :: rest => do
            let (state, args) ← state.conversion next args
            formatFrom rest args state
      else do
        formatFrom rest args (← state.write [byte])

end Formatting

def sdscatfmt (memory : List Fresh) (s : SdsString) (fmt : ByteString)
    (args : List FmtArg) : Option (List Fresh × SdsString) := do
  let state ← Formatting.formatFrom fmt args
    { memory, string := s, position := s.sdslen }
  let buf ← store state.string.buf state.position [0]
  some (state.memory, { state.string with buf })

/-- `sdscatlen`, the result of which is not tested. -/
def sdscatlenUntested (memory : List Fresh) (s : SdsString) (t : ByteString) :
    Option (List Fresh × SdsString) := do
  let state ← Formatting.room { memory, string := s, position := 0 } t.length
  match ← state.string.sdscatlen none t with
  | none => none
  | some string => some (state.memory, string)

/-- One argument. -/
def appendArgument (state : List Fresh × SdsString) (arg : ByteString) :
    Option (List Fresh × SdsString) := do
  let (memory, cmd) ←
    sdscatfmt state.1 state.2 (ascii "$%u\r\n") [.integer arg.length]
  let (memory, cmd) ← sdscatlenUntested memory cmd arg
  sdscatlenUntested memory cmd crlf

/-- `redisFormatSdsCommandArgv`; `none` is undefined behaviour or the failed
assertion, and a null result the return value -1. -/
def redisFormatSdsCommandArgv (memory : List Fresh) (argv : List ByteString) :
    Option (Option (Int × SdsString) × List Fresh) :=
  if intMax < argv.length then
    none
  else
    let totlen := toSizeT (commandLength argv)
    match memory with
    | first :: second :: memory => do
        match ← SdsString.sdsnewlen first (some []) 0 with
        | none => some (none, second :: memory)
        | some cmd =>
            match ← cmd.sdsMakeRoomFor second totlen with
            | none => some (none, memory)
            | some cmd => do
                let start ←
                  sdscatfmt memory cmd (ascii "*%i\r\n") [.integer argv.length]
                let (memory, cmd) ← argv.foldlM appendArgument start
                if cmd.sdslen ≠ totlen then
                  none
                else
                  some (some (toInt totlen, cmd), memory)
    | _ => none

/-! ### The counted length -/

theorem foldl_totlen (argv : List ByteString) (totlen : Int) :
    argv.foldl (fun totlen arg => toInt (totlen + bulklen arg.length))
        (toInt totlen) =
      toInt (totlen + bulkLengths argv) := by
  induction argv generalizing totlen with
  | nil =>
      rw [bulkLengths]
      exact congrArg toInt (Int.add_zero totlen).symm
  | cons arg argv induction =>
      rw [List.foldl_cons, toInt_add_toInt, induction, bulkLengths,
        Int.natCast_add, Int.add_assoc]

/-- What is counted first makes no difference. -/
theorem redisFormatCommandArgv_eq (argv : List ByteString) :
    redisFormatCommandArgv argv = buildCommand argv (toInt (bulkLengths argv)) := by
  have total : argv.foldl
      (fun totlen arg => toInt (totlen + bulklen arg.length))
      (toInt (1 + countDigits argv.length + 2 : Nat)) =
      toInt (toInt (bulkLengths argv) +
        (1 + countDigits argv.length + 2 : Nat)) := by
    rw [foldl_totlen, toInt_add_toInt, Int.add_comm]
  unfold redisFormatCommandArgv buildCommand
  rw [total]

/-! ### Digits -/

theorem toUInt8_digitChar :
    ∀ digit : Fin 10,
      (Nat.digitChar digit).toUInt8 = UInt8.ofNat (48 + digit) := by
  decide

theorem sdsull2str_eq (v : Nat) : sdsull2str v = decimal v := by
  unfold sdsull2str
  induction v using digitsFrom.induct with
  | case1 v induction =>
      rw [digitsFrom]
      have last : (Nat.digitChar (v % 10)).toUInt8 = UInt8.ofNat (48 + v % 10) :=
        toUInt8_digitChar ⟨v % 10, Nat.mod_lt _ (by decide)⟩
      by_cases small : v < 10
      · have same : v % 10 = v := Nat.mod_eq_of_lt small
        rw [if_pos small, decimal, Nat.toDigits_of_lt_base small, same]
        rw [same] at last
        rw [List.map_singleton, last]
        rfl
      · rw [if_neg small, List.reverse_cons, induction small, decimal, decimal,
          Nat.toDigits_of_base_le (by decide) (Nat.le_of_not_lt small),
          List.map_append, List.map_singleton, last]

theorem sdsll2str_natCast (v : Nat) : sdsll2str v = decimal v := by
  rw [sdsll2str, if_neg (by omega), List.append_nil, Int.natAbs_natCast]
  exact sdsull2str_eq v

/-! ### Room -/

namespace SdsString

/-- There is room for some more bytes.  What is behind the bytes does not
matter. -/
structure Filled (s : SdsString) (content : ByteString) (free : Nat) : Prop where
  wide : s.type ≠ .type5
  len : s.len = content.length
  whole : ∃ rest, s.buf = content ++ rest
  room : content.length + free ≤ s.alloc
  inside : s.alloc < s.buf.length
  bound : s.alloc < s.type.bound

namespace Filled

variable {s : SdsString} {content : ByteString} {free : Nat}

theorem le_sdsavail (filled : Filled s content free) : free ≤ s.sdsavail := by
  have room := filled.room
  have bound := filled.bound
  have fields := bound_le s.type
  rw [sdsavail_other filled.wide, filled.len, toSizeT]
  omega

theorem of_le (filled : Filled s content free) {less : Nat} (fewer : less ≤ free) :
    Filled s content less :=
  { filled with room := Nat.le_trans (by omega) filled.room }

/-- The bytes are written, and then counted. -/
theorem store
    {bytes : ByteString} (filled : Filled s content (bytes.length + free)) :
    ∃ buf, Foundation.store s.buf content.length bytes = some buf ∧
      Filled ({ s with buf }.sdssetlen (content.length + bytes.length))
        (content ++ bytes) free := by
  obtain ⟨rest, whole⟩ := filled.whole
  have room := filled.room
  have inside := filled.inside
  have bound := filled.bound
  have fits : bytes.length ≤ rest.length := by
    rw [whole, List.length_append] at inside
    omega
  have written := store_append content fits
  rw [← whole] at written
  have same := length_of_store written
  have counted : (content.length + bytes.length) % s.type.bound =
      content.length + bytes.length := Nat.mod_eq_of_lt (by omega)
  refine ⟨_, written, ?_⟩
  exact
    { wide := filled.wide
      len := counted.trans List.length_append.symm
      whole := ⟨_, (List.append_assoc ..).symm⟩
      room := by
        rw [List.length_append, Nat.add_assoc]
        exact room
      inside := Nat.lt_of_lt_of_eq inside same.symm
      bound }

theorem terminate (filled : Filled s content free) :
    ∃ buf, Foundation.store s.buf content.length [0] = some buf ∧
      Filled { s with buf } content free ∧ Holds { s with buf } content := by
  obtain ⟨rest, whole⟩ := filled.whole
  have room := filled.room
  have inside := filled.inside
  have some : rest ≠ [] := by
    intro nothing
    rw [whole, nothing, List.append_nil] at inside
    omega
  have written := store_terminator content some
  rw [← whole] at written
  have same := length_of_store written
  have alloc := @sdsalloc_other { s with buf := content ++ 0 :: rest.drop 1 }
    filled.wide
  refine ⟨_, written, ?_, ?_⟩
  · exact
      { filled with
        whole := ⟨_, rfl⟩
        inside := Nat.lt_of_lt_of_eq inside same.symm }
  · exact
      { len := filled.len
        whole := ⟨_, rfl⟩
        fits := by
          rw [alloc]
          change content.length ≤ s.alloc
          omega
        inside := by
          rw [alloc]
          exact Nat.lt_of_lt_of_eq inside same.symm
        bound := by
          rw [alloc]
          exact filled.bound }

end Filled

/-- A string with room of its own, which a header of type 5 never has. -/
theorem Holds.filled
    {s : SdsString} {content : ByteString} (holds : Holds s content)
    {free : Nat} (some : 0 < free)
    (room : content.length + free ≤ s.sdsalloc) : Filled s content free := by
  have wide : s.type ≠ .type5 := by
    intro type5
    rw [sdsalloc_type5 type5, holds.len] at room
    omega
  have alloc := sdsalloc_other wide
  obtain ⟨spare, whole⟩ := holds.whole
  exact
    { wide
      len := holds.len
      whole := ⟨_, whole⟩
      room := alloc ▸ room
      inside := alloc ▸ holds.inside
      bound := alloc ▸ holds.bound }

end SdsString

namespace Formatting

/-- The position is behind the bytes, and there is room for some more. -/
structure At (state : Formatting) (memory : List Fresh) (content : ByteString)
    (free : Nat) : Prop where
  memory : state.memory = memory
  position : state.position = content.length
  filled : state.string.Filled content free

variable {state : Formatting} {memory : List Fresh} {content : ByteString}
  {free : Nat}

theorem At.room
    (here : state.At memory content free) {addlen : Nat}
    (enough : addlen ≤ free) : state.room addlen = some state := by
  unfold Formatting.room
  exact if_pos (Nat.le_trans enough here.filled.le_sdsavail)

theorem At.write
    {bytes : ByteString} (here : state.At memory content (bytes.length + free))
    (short : content.length + bytes.length ≤ intMax) :
    ∃ next, state.write bytes = some next ∧
      next.At memory (content ++ bytes) free := by
  obtain ⟨buf, written, filled⟩ := here.filled.store
  unfold Formatting.write
  rw [here.position, here.filled.len, written]
  simp only [Option.bind_eq_bind, Option.bind_some]
  rw [if_neg (Nat.not_lt.mpr short)]
  refine ⟨_, rfl, ?_⟩
  exact
    { memory := here.memory
      position := (List.length_append).symm
      filled }

theorem At.convert
    {bytes : ByteString} (here : state.At memory content (bytes.length + free))
    (short : content.length + bytes.length ≤ intMax) :
    ∃ next, state.convert bytes = some next ∧
      next.At memory (content ++ bytes) free := by
  unfold Formatting.convert
  rw [here.room (Nat.le_add_right _ _)]
  exact here.write short

/-- A byte of the format that stands for itself. -/
theorem At.formatFrom_byte
    {byte : UInt8} (plain : byte ≠ percent) (rest : ByteString)
    (args : List FmtArg) (here : state.At memory content (1 + free))
    (short : content.length + 1 ≤ intMax) :
    ∃ next, formatFrom (byte :: rest) args state = formatFrom rest args next ∧
      next.At memory (content ++ [byte]) free := by
  obtain ⟨next, written, there⟩ := @At.write _ _ _ _ [byte] here short
  refine ⟨next, ?_, there⟩
  rw [formatFrom, here.room (Nat.le_add_right _ _)]
  simp only [Option.bind_eq_bind, Option.bind_some]
  rw [if_neg plain, written]
  rfl

/-- A conversion that writes something. -/
theorem At.formatFrom_conversion
    {mark : UInt8} {args left : List FmtArg} {text : ByteString}
    (converts : state.conversion mark args =
      (state.convert text).map fun next => (next, left))
    (some : text ≠ []) (rest : ByteString)
    (here : state.At memory content (text.length + free))
    (short : content.length + text.length ≤ intMax) :
    ∃ next,
      formatFrom (percent :: mark :: rest) args state =
          formatFrom rest left next ∧
        next.At memory (content ++ text) free := by
  obtain ⟨next, written, there⟩ := here.convert short
  have one := List.length_pos_iff.mpr some
  refine ⟨next, ?_, there⟩
  rw [formatFrom, here.room (by omega)]
  simp only [Option.bind_eq_bind, Option.bind_some, if_true]
  rw [converts, written]
  rfl

end Formatting

/-! ### Appending -/

section Appending

variable {s : SdsString} {memory : List Fresh} {content : ByteString} {free : Nat}

/-- A mark, a number and the end of the line. -/
theorem sdscatfmt_number
    {mark letter : UInt8} (plain : mark ≠ percent) {value : Int}
    {text : ByteString} (some : text ≠ [])
    (converts : ∀ state : Formatting,
      state.conversion letter [.integer value] =
        (state.convert text).map fun next => (next, []))
    (filled : s.Filled content (1 + (text.length + (1 + (1 + free)))))
    (short : content.length + (1 + (text.length + 2)) ≤ intMax) :
    ∃ next,
      sdscatfmt memory s (mark :: percent :: letter :: crlf) [.integer value] =
          Option.some (memory, next) ∧
        next.Filled (content ++ ([mark] ++ text ++ crlf)) free ∧
        next.Holds (content ++ ([mark] ++ text ++ crlf)) := by
  have start : Formatting.At { memory, string := s, position := s.sdslen } memory
      content (1 + (text.length + (1 + (1 + free)))) :=
    { memory := rfl, position := filled.len, filled }
  have lineEnd : crlf = [13, 10] := rfl
  obtain ⟨marked, markedEq, atMark⟩ := start.formatFrom_byte plain
    (percent :: letter :: crlf) [.integer value] (by omega)
  have one : (content ++ [mark]).length = content.length + 1 :=
    List.length_append
  obtain ⟨number, numberEq, atNumber⟩ := atMark.formatFrom_conversion
    (converts marked) some crlf (by omega)
  have two : (content ++ [mark] ++ text).length =
      content.length + 1 + text.length := by
    rw [List.length_append, one]
  rw [lineEnd] at numberEq
  obtain ⟨returned, returnedEq, atReturn⟩ := @Formatting.At.formatFrom_byte _ _ _
    _ 13 (by decide) [10] [] atNumber (by omega)
  have three : (content ++ [mark] ++ text ++ [13]).length =
      content.length + 1 + text.length + 1 := by
    rw [List.length_append, two]
    rfl
  obtain ⟨final, finalEq, atEnd⟩ := @Formatting.At.formatFrom_byte _ _ _ _ 10
    (by decide) [] [] atReturn (by omega)
  obtain ⟨buf, written, stillFilled, holds⟩ := atEnd.filled.terminate
  have same : content ++ [mark] ++ text ++ [13] ++ [10] =
      content ++ ([mark] ++ text ++ crlf) := by
    rw [lineEnd]
    simp only [List.append_assoc]
    rfl
  rw [same] at stillFilled holds
  refine ⟨_, ?_, stillFilled, holds⟩
  unfold sdscatfmt
  rw [markedEq, lineEnd, numberEq, returnedEq, finalEq, Formatting.formatFrom]
  simp only [Option.bind_eq_bind, Option.bind_some]
  rw [atEnd.position, written, atEnd.memory]
  rfl

theorem sdscatlenUntested_spec
    {t : ByteString} (filled : s.Filled content (t.length + free))
    (short : content.length + t.length ≤ intMax) :
    ∃ next, sdscatlenUntested memory s t = some (memory, next) ∧
      next.Filled (content ++ t) free ∧ next.Holds (content ++ t) := by
  have avail := (filled.of_le (Nat.le_add_right _ _)).le_sdsavail
  obtain ⟨buf, written, counted⟩ := filled.store
  obtain ⟨ended, terminated, stillFilled, holds⟩ := counted.terminate
  have newlen : toSizeT ((content.length : Int) + t.length) =
      (content ++ t).length := by
    rw [intMax] at short
    rw [toSizeT, List.length_append]
    omega
  have room : Formatting.room { memory, string := s, position := 0 } t.length =
      some { memory, string := s, position := 0 } := by
    unfold Formatting.room
    exact if_pos avail
  have enough : s.sdsMakeRoomFor none t.length = some (some s) := by
    unfold SdsString.sdsMakeRoomFor
    exact if_pos avail
  refine ⟨_, ?_, stillFilled, holds⟩
  unfold sdscatlenUntested SdsString.sdscatlen
  rw [room]
  simp only [Option.bind_eq_bind, Option.bind_some]
  rw [enough]
  simp only [Option.bind_some, SdsString.sdslen]
  rw [filled.len, written]
  simp only [Option.bind_some]
  rw [newlen]
  change Foundation.store buf (content ++ t).length [0] = _ at terminated
  rw [terminated, List.length_append]
  rfl

theorem appendArgument_spec
    {arg : ByteString} (filled : s.Filled content (bulklen arg.length + free))
    (short : content.length + bulklen arg.length ≤ intMax) :
    ∃ next, appendArgument (memory, s) arg = some (memory, next) ∧
      next.Filled (content ++ RedisCommand.formatArgument arg) free ∧
      next.Holds (content ++ RedisCommand.formatArgument arg) := by
  have digits := length_decimal arg.length
  have lineEnd : crlf.length = 2 := rfl
  rw [bulklen] at filled short
  have notNil : decimal arg.length ≠ [] := by
    simp [decimal]
  have small : arg.length ≤ intMax := by omega
  have converts : ∀ state : Formatting,
      state.conversion 117 [.integer arg.length] =
        (state.convert (decimal arg.length)).map fun next => (next, []) := by
    intro state
    have low : ((arg.length : Int) % 4294967296).toNat = arg.length := by
      rw [intMax] at small
      omega
    rw [← sdsull2str_eq, Option.map_eq_bind]
    nth_rewrite 2 [← low]
    rfl
  obtain ⟨headed, headedEq, headedFilled, _⟩ := @sdscatfmt_number s memory content
    (arg.length + 2 + free) 36 117 (by decide) arg.length _ notNil converts
    (filled.of_le (by omega)) (by omega)
  have head : (content ++ ([36] ++ decimal arg.length ++ crlf)).length =
      content.length + (1 + countDigits arg.length + 2) := by
    rw [List.length_append, List.length_append, List.length_append, digits,
      lineEnd]
    rfl
  obtain ⟨body, bodyEq, bodyFilled, _⟩ := @sdscatlenUntested_spec headed memory _
    (2 + free) arg (headedFilled.of_le (by omega)) (by omega)
  obtain ⟨next, nextEq, nextFilled, holds⟩ := @sdscatlenUntested_spec body memory _
    free crlf (bodyFilled.of_le (by omega))
    (by rw [List.length_append, head, lineEnd]; omega)
  have same : content ++ ([36] ++ decimal arg.length ++ crlf) ++ arg ++ crlf =
      content ++ RedisCommand.formatArgument arg := by
    have mark : ascii "$" = [36] := rfl
    simp only [RedisCommand.formatArgument, mark, List.append_assoc]
  rw [same] at nextFilled holds
  refine ⟨next, ?_, nextFilled, holds⟩
  have format : ascii "$%u\r\n" = 36 :: percent :: 117 :: crlf := rfl
  unfold appendArgument
  rw [format, headedEq]
  simp only [Option.bind_eq_bind, Option.bind_some]
  rw [bodyEq]
  simp only [Option.bind_some]
  exact nextEq

theorem foldlM_appendArgument
    {argv : List ByteString} (filled : s.Filled content (bulkLengths argv + free))
    (holds : s.Holds content)
    (short : content.length + bulkLengths argv ≤ intMax) :
    ∃ next, argv.foldlM appendArgument (memory, s) = some (memory, next) ∧
      next.Holds (content ++ argv.flatMap RedisCommand.formatArgument) := by
  induction argv generalizing s content with
  | nil =>
      rw [List.flatMap_nil, List.append_nil]
      exact ⟨s, rfl, holds⟩
  | cons arg argv induction =>
      rw [bulkLengths] at filled short
      obtain ⟨middle, appended, middleFilled, middleHolds⟩ :=
        @appendArgument_spec s memory content (bulkLengths argv + free) arg
          (filled.of_le (by omega)) (by omega)
      have length : (content ++ RedisCommand.formatArgument arg).length =
          content.length + bulklen arg.length := by
        rw [List.length_append, length_formatArgument]
      obtain ⟨next, ran, kept⟩ :=
        induction middleFilled middleHolds (by omega)
      rw [List.foldlM_cons, appended, List.flatMap_cons, ← List.append_assoc]
      exact ⟨next, ran, kept⟩

end Appending

/-- All formatters write the same bytes.  The one that writes into a string asks
for memory twice, before it writes, and never again. -/
theorem formatters_agree
    {argv : List ByteString} (short : commandLength argv < intMax)
    (first second : Nat → UInt8) (memory : List Fresh) :
    redisFormatCommandArgv argv = .ok (RedisCommand.redisFormatCommand argv) ∧
      ∃ cmd,
        redisFormatSdsCommandArgv (some first :: some second :: memory) argv =
            some (some ((commandLength argv : Int), cmd), memory) ∧
          cmd.Holds (RedisCommand.redisFormatCommand argv) := by
  constructor
  · rw [redisFormatCommandArgv_eq, buildCommand_eq_ok_iff rfl]
    exact ⟨short, rfl⟩
  · have total : commandLength argv =
        bulkLengths argv + (1 + countDigits argv.length + 2) := rfl
    have count := length_le_commandLength argv
    have bound : commandLength argv < 2147483647 := short
    have totlen : toSizeT (commandLength argv) = commandLength argv := by
      rw [toSizeT]
      omega
    have noBytes : ([] : ByteString).length ≤ sdsMaxLength := Nat.zero_le _
    obtain ⟨empty, made, emptyHolds⟩ :=
      SdsString.holds_sdsnewlen first noBytes
    obtain ⟨reserved, roomy, reservedHolds, room⟩ :=
      (@SdsString.Holds.sdsMakeRoomFor _ _ emptyHolds (some second)
        (commandLength argv) (by
          rw [List.length_nil, sdsMaxLength]
          omega)).resolve_left (fun null => Option.some_ne_none _ null.1)
    have filled := reservedHolds.filled (by omega) room
    have notNil : decimal argv.length ≠ [] := by
      simp [decimal]
    have digits := length_decimal argv.length
    have converts : ∀ state : Formatting,
        state.conversion 105 [.integer argv.length] =
          (state.convert (decimal argv.length)).map fun next => (next, []) := by
      intro state
      have same : toInt (argv.length : Nat) = argv.length :=
        toInt_of_le (by omega)
      rw [← sdsll2str_natCast, Option.map_eq_bind]
      nth_rewrite 2 [← same]
      rfl
    obtain ⟨headed, headedEq, headedFilled, headedHolds⟩ := @sdscatfmt_number
      reserved memory [] (bulkLengths argv) 42 105 (by decide) argv.length _ notNil
      converts (filled.of_le (by omega)) (by rw [List.length_nil]; omega)
    have head : ([] ++ ([42] ++ decimal argv.length ++ crlf)).length =
        1 + countDigits argv.length + 2 := by
      rw [List.nil_append, List.length_append, List.length_append, digits]
      rfl
    obtain ⟨cmd, appended, holds⟩ := @foldlM_appendArgument headed memory _ 0 argv
      headedFilled headedHolds (by omega)
    have same : [] ++ ([42] ++ decimal argv.length ++ crlf) ++
          argv.flatMap RedisCommand.formatArgument =
        RedisCommand.redisFormatCommand argv := rfl
    rw [same] at holds
    refine ⟨cmd, ?_, holds⟩
    have format : ascii "*%i\r\n" = 42 :: percent :: 105 :: crlf := rfl
    have length : cmd.sdslen = commandLength argv :=
      holds.len.trans (length_redisFormatCommand argv)
    unfold redisFormatSdsCommandArgv
    rw [if_neg (by omega), totlen, format]
    simp only
    rw [List.length_nil] at made
    rw [made]
    simp only [Option.bind_eq_bind, Option.bind_some]
    rw [roomy]
    simp only [Option.bind_some]
    rw [headedEq]
    simp only [Option.bind_some]
    rw [appended]
    simp only [Option.bind_some]
    rw [if_neg (fun different => different length), toInt_of_le (by omega)]

/-- The third request for memory would fail. -/
theorem formatters_agree_twoRequests :
    redisFormatCommandArgv [ascii "GET", [0, 255]] =
        .ok (RedisCommand.redisFormatCommand [ascii "GET", [0, 255]]) ∧
      ∃ cmd,
        redisFormatSdsCommandArgv
            [some SdsRun.junk, some SdsRun.junk, none] [ascii "GET", [0, 255]] =
          some
            (some ((commandLength [ascii "GET", [0, 255]] : Int), cmd), [none]) ∧
          cmd.Holds (RedisCommand.redisFormatCommand [ascii "GET", [0, 255]]) :=
  formatters_agree (by decide +kernel) SdsRun.junk SdsRun.junk [none]

end Hiredis

end DBWrapper
