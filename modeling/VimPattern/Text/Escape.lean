/-
Module: VimPattern.Text.Escape
Purpose: Target texts that stand for one character.
Main exports:
  Escape.metacharacters, Escape.quotable, Escape.quoted, Escape.plain,
  Escape.backslashed, Escape.member, Escape.backslashedMember
-/
import VimPattern.Text.Digits

namespace VimPattern.Escape

/-!
In the target dialect a character that would act as an operator stands for
itself after a backslash.  A character written bare in a pattern needs that only
if it is an operator of the target; a character that a pattern escapes is quoted
on the safe side, so that it keeps its backslash wherever one is harmless.
-/

/-- The characters that are operators of the target outside brackets, except the
backslash. -/
def metacharacters : List Char :=
  ['.', '*', '(', ')', '\x7b', '\x7d', '|', '$', '^', '+', '?', '[', ']']

/-- The characters that may be an operator of the target anywhere. -/
def quotable : List Char :=
  ['\\', '.', '+', '*', '?', '(', ')', '|', '[', ']', '\x7b', '\x7d', '^', '$',
    '#', '&', '-', '~']

/-- A backslash and the character. -/
def afterBackslash (char : Char) : String :=
  String.ofList ['\\', char]

/-- The character as an atom that matches it and nothing else. -/
def quoted (char : Char) : String :=
  if char ∈ quotable then afterBackslash char else String.singleton char

/-- A character that a pattern writes without a backslash.  Control characters
are written by their code. -/
def plain (char : Char) : String :=
  if char.toNat < 32 then "\\x" ++ Digits.twoHex char.toNat
  else if char ∈ metacharacters then afterBackslash char
  else String.singleton char

/-- A character that a pattern writes after a backslash and that has no other
meaning there. -/
def backslashed : Char → String
  | 't' => "\\t"
  | 'r' => "\\r"
  | 'e' => "\\x1B"
  | 'b' => "\\x08"
  | char => quoted char

/-- A bare member of a collection.  A bracket would open a nested set, and two
ampersands or tildes would be set operators. -/
def member (char : Char) : String :=
  if char ∈ ['[', '&', '~'] then afterBackslash char else String.singleton char

/-- A member of a collection that is written after a backslash. -/
def backslashedMember : Char → String
  | 'e' => "\\x1B"
  | 'b' => "\\x08"
  | char => afterBackslash char

end VimPattern.Escape
