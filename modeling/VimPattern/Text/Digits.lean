/-
Module: VimPattern.Text.Digits
Purpose: Numbers written with digits in some radix.
Main exports:
  Digits.valueOf?, Digits.isDigitIn, Digits.number, Digits.upperHex,
  Digits.twoHex
-/

namespace VimPattern.Digits

/-- The value of one digit; letters count from ten on, in either case. -/
def valueOf? (digit : Char) : Option Nat :=
  if '0' ≤ digit ∧ digit ≤ '9' then some (digit.toNat - 48)
  else if 'a' ≤ digit ∧ digit ≤ 'f' then some (digit.toNat - 87)
  else if 'A' ≤ digit ∧ digit ≤ 'F' then some (digit.toNat - 55)
  else none

/-- The character is a digit of this radix, at most sixteen. -/
def isDigitIn (radix : Nat) (char : Char) : Bool :=
  match valueOf? char with
  | some value => value < radix
  | none => false

/-- The number that a row of digits stands for, most significant digit first. -/
def number (radix : Nat) (digits : List Char) : Nat :=
  digits.foldl (fun value digit => value * radix + (valueOf? digit).getD 0) 0

/-- The number in capital hexadecimal digits without leading zeros. -/
def upperHex (value : Nat) : String :=
  String.ofList ((Nat.toDigits 16 value).map Char.toUpper)

/-- The last two hexadecimal digits of the number, in small letters. -/
def twoHex (value : Nat) : String :=
  String.ofList [Nat.digitChar (value / 16 % 16), Nat.digitChar (value % 16)]

end VimPattern.Digits
