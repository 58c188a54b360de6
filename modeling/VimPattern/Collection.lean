/-
Module: VimPattern.Collection
Purpose: How a collection opens and closes in the target text.
Main exports:
  Collection.Opening, Collection.Opening.text, Collection.closingText
-/
import VimPattern.Options

namespace VimPattern.Collection

/-!
A collection is emitted as one bracket expression.  A negated one excludes line
breaks as well, since it never matches one.  A collection that also accepts a
line break becomes a group with two branches, so its end closes that group.
-/

/-- What stands between the start of a collection and its first member. -/
structure Opening where
  /-- The collection also accepts a line break. -/
  withBreak : Bool := false
  /-- The collection accepts what it does not list. -/
  negated : Bool := false
  /-- A `]` comes first and is a member. -/
  leadingBracket : Bool := false
deriving Repr, Inhabited, DecidableEq

/-- The text that opens the bracket expression. -/
def Opening.text (opening : Opening) (newLine : String) : String :=
  (if opening.withBreak then "(?:" ++ newLine ++ "|" else "") ++
    (if opening.negated then "[^" else "[") ++
    (if opening.leadingBracket then "\\]" else "") ++
    (if opening.negated then "\\r\\n" else "")

/-- The text that closes what `Opening.text` opened. -/
def closingText (withBreak : Bool) : String :=
  if withBreak then "])" else "]"

end VimPattern.Collection
