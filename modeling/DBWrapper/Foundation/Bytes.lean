import Mathlib.Data.List.Basic

/-!
# Strings of bytes

A string is a list of bytes, of any values.  Numbers are printed in decimal
notation; the value of the digits is the number again.
-/

namespace Foundation

abbrev ByteString := List UInt8

/-- The bytes of a string literal. -/
def ascii (literal : String) : ByteString :=
  literal.toList.map Char.toUInt8

/-! ### Decimal notation -/

/-- The ASCII decimal digits of a number, the most significant one first. -/
def decimal (number : Nat) : List UInt8 :=
  (Nat.toDigits 10 number).map Char.toUInt8

def isDigit (byte : UInt8) : Bool :=
  48 ≤ byte.toNat && byte.toNat ≤ 57

def decimalValue (digits : List UInt8) : Nat :=
  digits.foldl (fun value digit => 10 * value + (digit.toNat - 48)) 0

theorem toNat_toUInt8_of_isDigit {char : Char} (digit : char.isDigit) :
    char.toUInt8.toNat = char.toNat := by
  have bounds : 48 ≤ char.toNat ∧ char.toNat ≤ 57 :=
    Char.isDigit_iff_toNat.mp digit
  calc
    char.toUInt8.toNat = char.toNat % 256 := rfl
    _ = char.toNat := Nat.mod_eq_of_lt (by omega)

theorem isDigit_of_mem_decimal
    {number : Nat} {byte : UInt8} (printed : byte ∈ decimal number) :
    isDigit byte = true := by
  obtain ⟨char, listed, same⟩ := List.mem_map.mp printed
  subst same
  have digit : char.isDigit :=
    Nat.isDigit_of_mem_toDigits (by decide) (by decide) listed
  have bounds : 48 ≤ char.toNat ∧ char.toNat ≤ 57 :=
    Char.isDigit_iff_toNat.mp digit
  simp [isDigit, toNat_toUInt8_of_isDigit digit, bounds]

theorem decimalValue_map
    {chars : List Char} (digits : ∀ char ∈ chars, char.isDigit) :
    decimalValue (chars.map Char.toUInt8) = Nat.ofDigitChars 10 chars 0 := by
  rw [decimalValue, Nat.ofDigitChars_eq_foldl, List.foldl_map]
  apply List.foldl_ext
  intro value char listed
  rw [toNat_toUInt8_of_isDigit (digits char listed)]
  rfl

theorem decimalValue_decimal (number : Nat) :
    decimalValue (decimal number) = number := by
  rw [decimal, decimalValue_map, Nat.ofDigitChars_ten_toDigits]
  intro char listed
  exact Nat.isDigit_of_mem_toDigits (by decide) (by decide) listed

theorem length_decimal_of_lt {number : Nat} (small : number < 10) :
    (decimal number).length = 1 := by
  rw [decimal, List.length_map, Nat.toDigits_of_lt_base small]
  rfl

theorem length_decimal_of_le {number : Nat} (large : 10 ≤ number) :
    (decimal number).length = (decimal (number / 10)).length + 1 := by
  rw [decimal, List.length_map, Nat.toDigits_of_base_le (by decide) large,
    List.length_append, List.length_singleton, decimal, List.length_map]

end Foundation
