/-
Module: VimPattern.Quantifier
Purpose: Repetition operators and their target text.
Main exports:
  Braces, Braces.read?, Braces.ofText?, Braces.text, Quantifier,
  Quantifier.text, MalformedQuantifier, quantifierText
-/
import VimPattern.Text.Digits

namespace VimPattern

/-!
A counted repetition is written between braces: a minus sign for the shortest
match, a lower bound, a comma and an upper bound, each of which may be missing.
Bounds may come in either order.  Digits are kept as they are written, so a bound
may be larger than any machine number.
-/

/-- A counted repetition, `{-low,high}`. -/
structure Braces where
  /-- A minus sign asks for as few repetitions as possible. -/
  lazy : Bool
  /-- The digits before the comma. -/
  low : List Char
  /-- There is a comma, so the bounds are written separately. -/
  hasComma : Bool
  /-- The digits after the comma. -/
  high : List Char
deriving Repr, Inhabited, DecidableEq

namespace Braces

/-- The counted repetition that a text starts with, and the number of characters
it takes up to its closing brace.  The text begins after the opening brace.  The
closing brace may have a backslash before it where `closingEscape` allows it. -/
def read? (closingEscape : Bool) (text : List Char) : Option (Braces × Nat) :=
  let lazy := text.head? == some '-'
  let bounds := if lazy then text.drop 1 else text
  let low := bounds.takeWhile Char.isDigit
  let afterLow := bounds.dropWhile Char.isDigit
  let hasComma := afterLow.head? == some ','
  let upper := if hasComma then afterLow.drop 1 else afterLow
  let high := upper.takeWhile Char.isDigit
  let braces : Braces :=
    { lazy := lazy
      low := low
      hasComma := hasComma
      high := high }
  let read :=
    (if lazy then 1 else 0) + low.length + (if hasComma then 1 else 0) + high.length
  match upper.dropWhile Char.isDigit with
  | '\x7d' :: _ => some (braces, read + 1)
  | '\\' :: '\x7d' :: _ => if closingEscape then some (braces, read + 2) else none
  | _ => none

/-- The value of a bound, where one is written that fits into 64 bits. -/
def bound? (digits : List Char) : Option Nat :=
  if digits.isEmpty then none
  else
    let value := Digits.number 10 digits
    if value < UInt64.size then some value else none

/-- Target text in braces. -/
def enclosed (text : String) : String :=
  "\x7b" ++ text ++ "\x7d"

/-- The repetition without its laziness.  Empty braces repeat any number of
times, a missing lower bound is zero, and bounds in the wrong order are
exchanged where both are written and small enough to compare. -/
def intervalText (braces : Braces) : String :=
  if braces.hasComma then
    let low := if braces.low.isEmpty then ['0'] else braces.low
    match bound? low, bound? braces.high with
    | some lower, some upper =>
        if upper < lower then enclosed (toString upper ++ "," ++ toString lower)
        else enclosed (String.ofList low ++ "," ++ String.ofList braces.high)
    | _, _ => enclosed (String.ofList low ++ "," ++ String.ofList braces.high)
  else if braces.low.isEmpty then "*"
  else enclosed (String.ofList braces.low)

/-- The target text of a counted repetition. -/
def text (braces : Braces) : String :=
  braces.intervalText ++ (if braces.lazy then "?" else "")

/-- The counted repetition that the whole text is.  The opening brace may have a
backslash before it, and so may the closing one. -/
def ofText? (text : List Char) : Option Braces :=
  let afterEscape := if text.head? == some '\\' then text.drop 1 else text
  match afterEscape with
  | '\x7b' :: body =>
      match read? true body with
      | some (braces, taken) => if taken = body.length then some braces else none
      | none => none
  | _ => none

end Braces

/-- A repetition operator. -/
inductive Quantifier where
  /-- Any number of times. -/
  | star
  /-- At least once. -/
  | plus
  /-- At most once. -/
  | optional
  /-- As often as the braces say. -/
  | counted (braces : Braces)
deriving Repr, Inhabited, DecidableEq

/-- The target text of a repetition operator. -/
def Quantifier.text : Quantifier → String
  | .star => "*"
  | .plus => "+"
  | .optional => "?"
  | .counted braces => braces.text

/-- A text that is no counted repetition. -/
structure MalformedQuantifier where
  text : String
deriving Repr, Inhabited, DecidableEq

/-- The wording of the error. -/
def MalformedQuantifier.message (malformed : MalformedQuantifier) : String :=
  "malformed quantifier '" ++ malformed.text ++ "'"

/-- The target text of a counted repetition given as text. -/
def quantifierText (text : String) : Except MalformedQuantifier String :=
  match Braces.ofText? text.toList with
  | some braces => .ok braces.text
  | none => .error { text := text }

end VimPattern
