/-
Module: VimPattern.CodePoint
Purpose: Characters given by their number.
Main exports:
  CodeNotation, CodeNotation.ofLetter?, CodeNotation.digits, CodePoint.read?,
  CodePoint.text
-/
import VimPattern.Text.Digits

namespace VimPattern

/-!
A numeric character is a letter and digits, such as `d65` or `x41`.  The letter
fixes the radix and how many digits may follow; as many as possible are taken.
-/

/-- The ways to write a character by its number. -/
inductive CodeNotation where
  /-- Letter `d`: decimal digits, any number of them. -/
  | decimal
  /-- Letter `o`: at most four octal digits. -/
  | octal
  /-- Letter `x`: at most two hexadecimal digits. -/
  | hexByte
  /-- Letter `u`: at most four hexadecimal digits. -/
  | hexShort
  /-- Letter `U`: at most eight hexadecimal digits. -/
  | hexLong
deriving Repr, Inhabited, DecidableEq

namespace CodeNotation

/-- The notation that a letter announces. -/
def ofLetter? : Char → Option CodeNotation
  | 'd' => some .decimal
  | 'o' => some .octal
  | 'x' => some .hexByte
  | 'u' => some .hexShort
  | 'U' => some .hexLong
  | _ => none

/-- The radix of the digits. -/
def radix : CodeNotation → Nat
  | .decimal => 10
  | .octal => 8
  | .hexByte | .hexShort | .hexLong => 16

/-- How many digits may follow, if there is a limit. -/
def limit? : CodeNotation → Option Nat
  | .decimal => none
  | .octal => some 4
  | .hexByte => some 2
  | .hexShort => some 4
  | .hexLong => some 8

/-- The digits at the start of a text that belong to a number in this
notation. -/
def digits (codeNotation : CodeNotation) (text : List Char) : List Char :=
  let available := text.takeWhile (Digits.isDigitIn codeNotation.radix)
  match codeNotation.limit? with
  | some most => available.take most
  | none => available

end CodeNotation

namespace CodePoint

/-- The character with this number, if there is one: surrogates and numbers
beyond the last plane have none. -/
def ofNumber? (number : Nat) : Option Char :=
  if number.isValidChar then some (Char.ofNat number) else none

/-- A numeric character at the start of a text, with the number of characters
it takes.  The character is missing when the digits name none. -/
def read? : List Char → Option (Option Char × Nat)
  | letter :: text =>
      match CodeNotation.ofLetter? letter with
      | some codeNotation =>
          let digits := codeNotation.digits text
          if digits.isEmpty then none
          else
            some (ofNumber? (Digits.number codeNotation.radix digits),
              digits.length + 1)
      | none => none
  | [] => none

/-- The target text of a character given by its number. -/
def text (char : Char) : String :=
  "\\x\x7b" ++ Digits.upperHex char.toNat ++ "\x7d"

end CodePoint

end VimPattern
