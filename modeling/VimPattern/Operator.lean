/-
Module: VimPattern.Operator
Purpose: The operators whose spelling, bare or after a backslash, depends on the level.
Main exports:
  Operator, Operator.char, Operator.ofChar?, Operator.isBareAt,
  Operator.isActive, Operator.spelling
-/
import VimPattern.Magicness

namespace VimPattern

/-!
An operator character has two spellings, `x` and `\x`.  At every level exactly
one of them is the operator and the other one stands for the character itself;
`Operator.isBareAt` says which.  So "active" is a single comparison between the
spelling found and the spelling the level asks for.
-/

/-- The characters that are an operator in exactly one of their two spellings. -/
inductive Operator where
  /-- Dot `.` matches any character but a line break. -/
  | anyChar
  /-- Star `*` repeats what precedes it. -/
  | star
  /-- Tilde `~` recalls the last substitute string of the editor. -/
  | lastSubstitute
  /-- Bracket `[` opens a collection. -/
  | collection
  /-- Dollar `$` may be a line end. -/
  | dollar
  /-- Caret `^` may be a line start. -/
  | caret
  /-- Parenthesis `(` opens a capturing group. -/
  | groupOpen
  /-- Parenthesis `)` closes a group. -/
  | groupClose
  /-- Bar `|` separates alternatives. -/
  | alternative
  /-- Ampersand `&` separates operands that must match at the same place. -/
  | conjunction
  /-- Plus `+` repeats what precedes it at least once. -/
  | plus
  /-- Question mark `?` makes what precedes it optional. -/
  | question
  /-- Equals `=` makes what precedes it optional. -/
  | equals
  /-- Brace `{` opens a counted repetition. -/
  | braces
  /-- At sign `@` opens an assertion about what precedes it. -/
  | assertion
  /-- Less `<` is the start of a word. -/
  | wordStart
  /-- Greater `>` is the end of a word. -/
  | wordEnd
deriving Repr, Inhabited, DecidableEq

namespace Operator

/-- The character an operator is written with. -/
def char : Operator → Char
  | .anyChar => '.'
  | .star => '*'
  | .lastSubstitute => '~'
  | .collection => '['
  | .dollar => '$'
  | .caret => '^'
  | .groupOpen => '('
  | .groupClose => ')'
  | .alternative => '|'
  | .conjunction => '&'
  | .plus => '+'
  | .question => '?'
  | .equals => '='
  | .braces => '\x7b'
  | .assertion => '@'
  | .wordStart => '<'
  | .wordEnd => '>'

/-- The operator that a character may stand for. -/
def ofChar? : Char → Option Operator
  | '.' => some .anyChar
  | '*' => some .star
  | '~' => some .lastSubstitute
  | '[' => some .collection
  | '$' => some .dollar
  | '^' => some .caret
  | '(' => some .groupOpen
  | ')' => some .groupClose
  | '|' => some .alternative
  | '&' => some .conjunction
  | '+' => some .plus
  | '?' => some .question
  | '=' => some .equals
  | '\x7b' => some .braces
  | '@' => some .assertion
  | '<' => some .wordStart
  | '>' => some .wordEnd
  | _ => none

/-- The operator is written without a backslash at this level.  Very magic
spells all operators bare, magic the older ones, nomagic the anchors, and very
nomagic none. -/
def isBareAt (operator : Operator) : Magicness → Bool
  | .veryMagic => true
  | .magic =>
      operator ∈ [.anyChar, .star, .lastSubstitute, .collection, .dollar, .caret]
  | .nonMagic => operator ∈ [.dollar, .caret]
  | .veryNonMagic => false

/-- The spelling found, escaped or bare, is the one that makes the character
an operator at this level. -/
def isActive (operator : Operator) (level : Magicness) (escaped : Bool) : Bool :=
  operator.isBareAt level != escaped

/-- The spelling of an operator at a level. -/
def spelling (operator : Operator) (level : Magicness) : List Char :=
  if operator.isBareAt level then [operator.char] else ['\\', operator.char]

@[simp] theorem ofChar?_char (operator : Operator) :
    ofChar? operator.char = some operator := by
  cases operator <;> rfl

/-- An operator is found by its own character only. -/
theorem char_of_ofChar? {char : Char} {operator : Operator}
    (found : ofChar? char = some operator) : operator.char = char := by
  unfold ofChar? at found
  split at found <;> cases found <;> rfl

/-- The spelling at a level is the one that is active there. -/
theorem spelling_of_isActive {operator : Operator} {level : Magicness} {escaped : Bool}
    (active : operator.isActive level escaped) :
    operator.spelling level = if escaped then ['\\', operator.char] else [operator.char] := by
  unfold isActive at active
  unfold spelling
  cases bare : operator.isBareAt level <;> cases escaped <;> simp_all

end Operator

end VimPattern
