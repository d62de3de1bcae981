import Mathlib.Data.Nat.Digits.Defs

/-!
# Decimal numerals

A numeral is a list of ASCII digits with the most significant one first.  Numbers
are written without leading zeros, or in a fixed number of digits.
-/

namespace MatchingEngine
namespace Decimal

/-- The character is an ASCII digit. -/
def isDigit (character : UInt8) : Bool :=
  48 ≤ character && character ≤ 57

/-- The number that a numeral stands for. -/
def value (numeral : List UInt8) : Nat :=
  numeral.foldl (fun number character => 10 * number + (character.toNat - 48)) 0

/-- The last digit of a number. -/
def digit (number : Nat) : UInt8 := UInt8.ofNat (48 + number % 10)

/-- A number without leading zeros. -/
def write (number : Nat) : List UInt8 :=
  if number = 0 then [digit 0] else (Nat.digits 10 number).reverse.map digit

/-- The last digits of a number, so many of them. -/
def writeDigits : Nat → Nat → List UInt8
  | 0, _ => []
  | width + 1, number => writeDigits width (number / 10) ++ [digit number]

end Decimal
end MatchingEngine
