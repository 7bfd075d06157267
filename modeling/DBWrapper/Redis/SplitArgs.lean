import DBWrapper.Redis.Arguments
import DBWrapper.Redis.Reader

/-!
# Quoted strings

`sdscatrepr` writes a string in quotes, with escapes for the bytes that cannot
be shown; `sdssplitargs` splits a line into strings, which may be quoted.  What
the one writes, the other one reads back, whatever bytes the strings consist of
and whatever blanks are put between them.
-/

namespace DBWrapper

open Foundation

namespace Hiredis

open Arguments

namespace Sds

/-! ### Writing -/

def backslash : UInt8 := 92

def doubleQuote : UInt8 := 34

def singleQuote : UInt8 := 39

def letterX : UInt8 := 120

/-- A digit of `%02x`. -/
def hexDigit (value : Nat) : UInt8 :=
  (Nat.digitChar value).toUInt8

/-- What `sdscatrepr` prints for a byte. -/
def reprByte (byte : UInt8) : ByteString :=
  match byte.toNat with
  | 92 | 34 => [backslash, byte]
  | 10 => ascii "\\n"
  | 13 => ascii "\\r"
  | 9 => ascii "\\t"
  | 7 => ascii "\\a"
  | 8 => ascii "\\b"
  | code =>
      if isPrint byte then
        [byte]
      else
        [backslash, letterX, hexDigit (code / 16), hexDigit (code % 16)]

def sdscatrepr (s p : ByteString) : ByteString :=
  s ++ [doubleQuote] ++ p.flatMap reprByte ++ [doubleQuote]

/-! ### Splitting -/

def isHexDigit (c : UInt8) : Bool :=
  (48 ≤ c.toNat && c.toNat ≤ 57) || (97 ≤ c.toNat && c.toNat ≤ 102) ||
    (65 ≤ c.toNat && c.toNat ≤ 70)

def hexDigitToInt (c : UInt8) : Nat :=
  if 48 ≤ c.toNat ∧ c.toNat ≤ 57 then c.toNat - 48
  else if 97 ≤ c.toNat ∧ c.toNat ≤ 102 then c.toNat - 87
  else if 65 ≤ c.toNat ∧ c.toNat ≤ 70 then c.toNat - 55
  else 0

/-- The byte behind a backslash. -/
def unescape (c : UInt8) : UInt8 :=
  match c.toNat with
  | 110 => 10
  | 114 => 13
  | 116 => 9
  | 98 => 8
  | 97 => 7
  | _ => c

/-- A closing quote must be followed by a blank or nothing at all. -/
def closeQuote (current rest : ByteString) : Option (ByteString × ByteString) :=
  match rest with
  | [] => some (current, rest)
  | byte :: _ => if isBlank byte then some (current, rest) else none

/-- The inner loop of `sdssplitargs` while `inq` is set; the end of the list is
the zero behind the string.  It returns the token and what is behind it. -/
def inDoubleQuotes (current : ByteString) :
    ByteString → Option (ByteString × ByteString)
  | [] => none
  | byte :: rest =>
      if byte = backslash then
        match rest with
        | [] => inDoubleQuotes (current ++ [byte]) []
        | [c] => inDoubleQuotes (current ++ [unescape c]) []
        | [c, first] => inDoubleQuotes (current ++ [unescape c]) [first]
        | c :: first :: second :: rest =>
            if c = letterX ∧ isHexDigit first ∧ isHexDigit second then
              inDoubleQuotes
                (current ++
                  [(hexDigitToInt first * 16 + hexDigitToInt second).toUInt8])
                rest
            else
              inDoubleQuotes (current ++ [unescape c]) (first :: second :: rest)
      else if byte = doubleQuote then
        closeQuote current rest
      else
        inDoubleQuotes (current ++ [byte]) rest

/-- While `insq` is set. -/
def inSingleQuotes (current : ByteString) :
    ByteString → Option (ByteString × ByteString)
  | [] => none
  | byte :: rest =>
      match rest with
      | [] =>
          if byte = singleQuote then
            closeQuote current []
          else
            inSingleQuotes (current ++ [byte]) []
      | next :: rest =>
          if byte = backslash ∧ next = singleQuote then
            inSingleQuotes (current ++ [singleQuote]) rest
          else if byte = singleQuote then
            closeQuote current (next :: rest)
          else
            inSingleQuotes (current ++ [byte]) (next :: rest)

/-- Outside of quotes. -/
def unquoted (current : ByteString) :
    ByteString → Option (ByteString × ByteString)
  | [] => some (current, [])
  | byte :: rest =>
      if byte = 32 ∨ byte = 10 ∨ byte = 13 ∨ byte = 9 then
        some (current, rest)
      else if byte = doubleQuote then
        inDoubleQuotes current rest
      else if byte = singleQuote then
        inSingleQuotes current rest
      else
        unquoted (current ++ [byte]) rest

theorem closeQuote_length
    {current rest token behind : ByteString}
    (closed : closeQuote current rest = some (token, behind)) :
    behind.length ≤ rest.length := by
  cases rest with
  | nil =>
      cases closed
      exact Nat.le_refl _
  | cons byte rest =>
      rw [closeQuote] at closed
      split at closed
      · cases closed
        exact Nat.le_refl _
      · cases closed

theorem inDoubleQuotes_length
    {current line token behind : ByteString}
    (read : inDoubleQuotes current line = some (token, behind)) :
    behind.length ≤ line.length := by
  fun_induction inDoubleQuotes current line with
  | case7 => exact Nat.le_succ_of_le (closeQuote_length read)
  | _ => grind

theorem inSingleQuotes_length
    {current line token behind : ByteString}
    (read : inSingleQuotes current line = some (token, behind)) :
    behind.length ≤ line.length := by
  fun_induction inSingleQuotes current line with
  | case2 | case5 => exact Nat.le_succ_of_le (closeQuote_length read)
  | _ => grind

theorem unquoted_length
    {current line token behind : ByteString}
    (read : unquoted current line = some (token, behind)) :
    behind.length ≤ line.length := by
  fun_induction unquoted current line with
  | case3 => exact Nat.le_succ_of_le (inDoubleQuotes_length read)
  | case4 => exact Nat.le_succ_of_le (inSingleQuotes_length read)
  | _ => grind

/-- A token has at least one byte. -/
theorem unquoted_cons_length
    {current rest token behind : ByteString} {byte : UInt8}
    (read : unquoted current (byte :: rest) = some (token, behind)) :
    behind.length ≤ rest.length := by
  rw [unquoted] at read
  split at read
  · cases read
    exact Nat.le_refl _
  · split at read
    · exact inDoubleQuotes_length read
    · split at read
      · exact inSingleQuotes_length read
      · exact unquoted_length read

theorem length_dropWhile_le (line : ByteString) :
    (line.dropWhile isBlank).length ≤ line.length :=
  (List.dropWhile_suffix isBlank).length_le

/-- The outer loop of `sdssplitargs`. -/
def splitFrom (line : ByteString) : Option (List ByteString) :=
  match _blank : line.dropWhile isBlank with
  | [] => some []
  | byte :: rest =>
      match _read : unquoted [] (byte :: rest) with
      | none => none
      | some (token, behind) => (splitFrom behind).map (token :: ·)
  termination_by line.length
  decreasing_by
    have shorter := unquoted_cons_length _read
    have noLonger := length_dropWhile_le line
    rw [_blank, List.length_cons] at noLonger
    omega

/-- `none` is a null pointer. -/
def sdssplitargs (line : ByteString) : Option (List ByteString) :=
  splitFrom (cStr line)

/-! ### Reading what is written -/

/-- A blank, or nothing at all. -/
def EndsToken (rest : ByteString) : Prop :=
  ∀ byte ∈ rest.head?, isBlank byte = true

theorem closeQuote_of_endsToken
    {rest : ByteString} (ends : EndsToken rest) (current : ByteString) :
    closeQuote current rest = some (current, rest) := by
  cases rest with
  | nil => rfl
  | cons byte rest => rw [closeQuote, if_pos (ends byte rfl)]

/-- Two digits say what a byte is. -/
theorem hexDigits_eq (byte : UInt8) :
    isHexDigit (hexDigit (byte.toNat / 16)) = true ∧
      isHexDigit (hexDigit (byte.toNat % 16)) = true ∧
      (hexDigitToInt (hexDigit (byte.toNat / 16)) * 16 +
        hexDigitToInt (hexDigit (byte.toNat % 16))).toUInt8 = byte := by
  have each : ∀ digit : Fin 16,
      isHexDigit (hexDigit digit) = true ∧
        hexDigitToInt (hexDigit digit) = digit := by decide
  have bound := byte.toNat_lt
  have high := each ⟨byte.toNat / 16, by omega⟩
  have low := each ⟨byte.toNat % 16, Nat.mod_lt _ (by decide)⟩
  refine ⟨high.1, low.1, ?_⟩
  rw [high.2, low.2]
  have whole : byte.toNat / 16 * 16 + byte.toNat % 16 = byte.toNat := by omega
  simp only [whole]
  exact UInt8.ofNat_toNat

/-- `code` is the byte behind the backslash. -/
theorem inDoubleQuotes_escape
    {code : UInt8} (notX : code ≠ letterX) (current rest : ByteString) :
    inDoubleQuotes current (backslash :: code :: rest) =
      inDoubleQuotes (current ++ [unescape code]) rest := by
  rw [inDoubleQuotes.eq_def]
  simp only [if_true]
  match rest with
  | [] => rfl
  | [first] => rfl
  | first :: second :: rest => exact if_neg fun isX => notX isX.1

theorem inDoubleQuotes_hex
    {first second : UInt8} (firstDigit : isHexDigit first = true)
    (secondDigit : isHexDigit second = true) (current rest : ByteString) :
    inDoubleQuotes current (backslash :: letterX :: first :: second :: rest) =
      inDoubleQuotes
        (current ++
          [(hexDigitToInt first * 16 + hexDigitToInt second).toUInt8]) rest := by
  rw [inDoubleQuotes.eq_def]
  simp [firstDigit, secondDigit]

theorem inDoubleQuotes_reprByte
    (current rest : ByteString) (byte : UInt8) :
    inDoubleQuotes current (reprByte byte ++ rest) =
      inDoubleQuotes (current ++ [byte]) rest := by
  have named : ∀ code : Nat, byte.toNat = code → byte = UInt8.ofNat code := by
    rintro code rfl
    exact UInt8.ofNat_toNat.symm
  unfold reprByte
  split
  · rename_i code
    rw [named 92 code]
    exact inDoubleQuotes_escape (by decide) current rest
  · rename_i code
    rw [named 34 code]
    exact inDoubleQuotes_escape (by decide) current rest
  · rename_i code
    rw [named 10 code]
    exact @inDoubleQuotes_escape 110 (by decide) current rest
  · rename_i code
    rw [named 13 code]
    exact @inDoubleQuotes_escape 114 (by decide) current rest
  · rename_i code
    rw [named 9 code]
    exact @inDoubleQuotes_escape 116 (by decide) current rest
  · rename_i code
    rw [named 7 code]
    exact @inDoubleQuotes_escape 97 (by decide) current rest
  · rename_i code
    rw [named 8 code]
    exact @inDoubleQuotes_escape 98 (by decide) current rest
  · rename_i notBackslash notQuote _ _ _ _ _
    split
    · have plain : byte ≠ backslash ∧ byte ≠ doubleQuote :=
        ⟨fun same => notBackslash (congrArg UInt8.toNat same),
          fun same => notQuote (congrArg UInt8.toNat same)⟩
      rw [List.singleton_append, inDoubleQuotes.eq_def]
      simp only [plain.1, plain.2, if_false]
    · obtain ⟨high, low, same⟩ := hexDigits_eq byte
      have read := inDoubleQuotes_hex high low current rest
      rw [same] at read
      exact read

theorem inDoubleQuotes_repr
    (text current : ByteString) {rest : ByteString} (ends : EndsToken rest) :
    inDoubleQuotes current (text.flatMap reprByte ++ doubleQuote :: rest) =
      some (current ++ text, rest) := by
  induction text generalizing current with
  | nil =>
      rw [List.flatMap_nil, List.nil_append, inDoubleQuotes.eq_def,
        List.append_nil]
      exact closeQuote_of_endsToken ends current
  | cons byte text induction =>
      rw [List.flatMap_cons, List.append_assoc, inDoubleQuotes_reprByte,
        induction, List.append_assoc, List.singleton_append]

/-- Strings, each with the blanks behind it. -/
def quoted (args : List (ByteString × ByteString)) : ByteString :=
  args.flatMap fun arg => sdscatrepr [] arg.1 ++ arg.2

/-- Only the last string may be without blanks behind it. -/
def Separated (args : List (ByteString × ByteString)) : Prop :=
  (∀ arg ∈ args, ∀ byte ∈ arg.2, isBlank byte = true) ∧
    ∀ arg ∈ args.dropLast, arg.2 ≠ []

theorem Separated.tail
    {arg : ByteString × ByteString} {args : List (ByteString × ByteString)}
    (separated : Separated (arg :: args)) : Separated args := by
  refine ⟨fun other listed => separated.1 other (List.mem_cons_of_mem _ listed), ?_⟩
  intro other listed
  apply separated.2
  cases args with
  | nil => cases listed
  | cons next args => exact List.mem_cons_of_mem _ listed

theorem Separated.endsToken
    {arg : ByteString × ByteString} {args : List (ByteString × ByteString)}
    (separated : Separated (arg :: args)) : EndsToken (arg.2 ++ quoted args) := by
  intro byte first
  cases gap : arg.2 with
  | nil =>
      cases args with
      | nil =>
          rw [gap] at first
          cases first
      | cons next args =>
          exact (separated.2 arg List.mem_cons_self gap).elim
  | cons blank blanks =>
      rw [gap] at first
      cases first
      apply separated.1 arg List.mem_cons_self
      rw [gap]
      exact List.mem_cons_self

theorem splitFrom_quoted
    {blanks : ByteString} (areBlank : ∀ byte ∈ blanks, isBlank byte = true)
    {args : List (ByteString × ByteString)} (separated : Separated args) :
    splitFrom (blanks ++ quoted args) = some (args.map Prod.fst) := by
  induction args generalizing blanks with
  | nil =>
      have nothing : (blanks ++ quoted []).dropWhile isBlank = [] := by
        simpa [quoted] using areBlank
      rw [splitFrom]
      split
      · rfl
      · rename_i found
        rw [nothing] at found
        cases found
  | cons arg args induction =>
      have line : quoted (arg :: args) =
          doubleQuote ::
            (arg.1.flatMap reprByte ++
              doubleQuote :: (arg.2 ++ quoted args)) := by
        simp [quoted, sdscatrepr]
      have start : (blanks ++ quoted (arg :: args)).dropWhile isBlank =
          quoted (arg :: args) := by
        rw [List.dropWhile_append_of_pos areBlank, line]
        rfl
      have token : unquoted [] (quoted (arg :: args)) =
          some (arg.1, arg.2 ++ quoted args) := by
        rw [line, unquoted]
        exact inDoubleQuotes_repr arg.1 [] separated.endsToken
      have later := induction (separated.1 arg List.mem_cons_self) separated.tail
      rw [splitFrom]
      split
      · rename_i found
        rw [start, line] at found
        cases found
      · rename_i byte rest found
        rw [start] at found
        split
        · rename_i failed
          rw [← found, token] at failed
          cases failed
        · rename_i read behind readToken
          rw [← found, token] at readToken
          cases readToken
          rw [later]
          rfl

theorem ne_zero_of_isBlank {byte : UInt8} (blank : isBlank byte = true) :
    byte ≠ 0 := by
  rintro rfl
  cases blank

theorem ne_zero_of_mem_reprByte
    {byte code : UInt8} (listed : code ∈ reprByte byte) : code ≠ 0 := by
  have digits : ∀ digit : Fin 16, hexDigit digit ≠ 0 := by decide
  have bound := byte.toNat_lt
  unfold reprByte at listed
  split at listed
  · rename_i isBackslash
    rcases List.mem_pair.mp listed with rfl | rfl
    · decide
    · rintro rfl
      cases isBackslash
  · rename_i isQuote
    rcases List.mem_pair.mp listed with rfl | rfl
    · decide
    · rintro rfl
      cases isQuote
  · rcases List.mem_pair.mp listed with rfl | rfl <;> decide
  · rcases List.mem_pair.mp listed with rfl | rfl <;> decide
  · rcases List.mem_pair.mp listed with rfl | rfl <;> decide
  · rcases List.mem_pair.mp listed with rfl | rfl <;> decide
  · rcases List.mem_pair.mp listed with rfl | rfl <;> decide
  · split at listed
    · rename_i printed
      cases List.mem_singleton.mp listed
      rintro rfl
      cases printed
    · simp only [List.mem_cons, List.not_mem_nil, or_false] at listed
      rcases listed with rfl | rfl | rfl | rfl
      · decide
      · decide
      · exact digits ⟨byte.toNat / 16, by omega⟩
      · exact digits ⟨byte.toNat % 16, Nat.mod_lt _ (by decide)⟩

/-- There is no zero in what is written. -/
theorem cStr_quoted
    {blanks : ByteString} (areBlank : ∀ byte ∈ blanks, isBlank byte = true)
    {args : List (ByteString × ByteString)} (separated : Separated args) :
    cStr (blanks ++ quoted args) = blanks ++ quoted args := by
  apply List.takeWhile_eq_self_iff.mpr
  intro byte listed
  apply decide_eq_true
  rcases List.mem_append.mp listed with inBlanks | inQuoted
  · exact ne_zero_of_isBlank (areBlank byte inBlanks)
  · obtain ⟨arg, argListed, inArg⟩ := List.mem_flatMap.mp inQuoted
    simp only [sdscatrepr, List.nil_append, List.mem_append,
      List.mem_singleton] at inArg
    rcases inArg with ((rfl | inText) | rfl) | inGap
    · decide
    · obtain ⟨shown, _, inRepr⟩ := List.mem_flatMap.mp inText
      exact ne_zero_of_mem_reprByte inRepr
    · decide
    · exact ne_zero_of_isBlank (separated.1 arg argListed byte inGap)

/-- Whatever bytes the strings consist of, they are read back as they were, in
their order. -/
theorem sdssplitargs_quoted
    {blanks : ByteString} (areBlank : ∀ byte ∈ blanks, isBlank byte = true)
    {args : List (ByteString × ByteString)} (separated : Separated args) :
    sdssplitargs (blanks ++ quoted args) = some (args.map Prod.fst) := by
  rw [sdssplitargs, cStr_quoted areBlank separated,
    splitFrom_quoted areBlank separated]

/-- A quote, a zero and a byte above 127. -/
theorem sdssplitargs_quoted_bytes :
    sdssplitargs ([9] ++ quoted [(ascii "a\"b", [32, 11]), ([0, 255], [])]) =
      some [ascii "a\"b", [0, 255]] :=
  sdssplitargs_quoted (by decide +kernel) ⟨by decide +kernel, by decide⟩

end Sds

end Hiredis

end DBWrapper
