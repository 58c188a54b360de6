/-
Module: VimPattern.Lexeme
Purpose: What one item of a pattern means, and its target text.
Main exports:
  Style, Literal, Member, GroupSort, Assertion, Lexeme, Lexeme.kind,
  Literal.text, Member.text, GroupSort.text, Assertion.text
-/
import VimPattern.CharClass
import VimPattern.CodePoint
import VimPattern.Collection
import VimPattern.NamedClass
import VimPattern.Quantifier
import VimPattern.Text.Escape

namespace VimPattern

/-!
A lexeme is the meaning of an item, free of the level it was spelled at and of
the settings it is going to be rendered with.  The settings only enter when a
lexeme is turned into text, so that two conversions of one pattern under
different settings see the same lexemes.
-/

/-- What decides the text of a lexeme besides the lexeme itself. -/
structure Style where
  options : Options
  /-- Case is folded, which widens the named classes of letters. -/
  foldCase : Bool := false
  /-- Capturing groups get the names `g1`, `g2`, ... and are referred to by
  name.  The target refuses numbered references beside named groups. -/
  namedGroups : Bool := false
deriving Repr, Inhabited, DecidableEq

/-- An atom that is one item, outside collections. -/
inductive Literal where
  /-- A character that stands for itself. -/
  | plain (char : Char)
  /-- A character after a backslash, without a meaning of its own. -/
  | escaped (char : Char)
  /-- Any character but a line break. -/
  | anyChar
  /-- A line break. -/
  | lineBreak
  /-- Any character, line breaks included. -/
  | anyOrBreak
  /-- The start of a line. -/
  | lineStart
  /-- The end of a line. -/
  | lineEnd
  /-- The start of a word. -/
  | wordStart
  /-- The end of a word. -/
  | wordEnd
  /-- The start of the input. -/
  | textStart
  /-- The end of the input. -/
  | textEnd
  /-- The place where the match is made to start; only the first such item of a
  pattern counts. -/
  | matchStart (first : Bool)
  /-- The place where the match is made to end; only the first such item of a
  pattern counts. -/
  | matchEnd (first : Bool)
  /-- A character class, perhaps with a line break. -/
  | charClass (charClass : CharClass) (withBreak : Bool)
  /-- A character given by its number. -/
  | codePoint (char : Char)
  /-- What the capturing group with this number matched. -/
  | backReference (number : Nat)
  /-- What the external group with this number matched in another pattern. -/
  | externalReference (number : Nat)
deriving Repr, DecidableEq

/-- One item inside a collection. -/
inductive Member where
  /-- A character that stands for itself. -/
  | plain (char : Char)
  /-- One of the escapes that a collection knows. -/
  | escaped (char : Char)
  /-- A backslash that escapes nothing. -/
  | backslash
  /-- Two dashes in a row, the second of which is a member. -/
  | dashPair
  /-- A character given by its number. -/
  | codePoint (char : Char)
  /-- A class by its name. -/
  | named (namedClass : NamedClass)
  /-- An equivalence class or collating element, which stands for its
  character. -/
  | equivalent (char : Char)
deriving Repr, DecidableEq

/-- The sorts of groups. -/
inductive GroupSort where
  /-- A group with a number of its own, counted from one. -/
  | capturing (number : Nat)
  /-- A group that only groups. -/
  | nonCapturing
  /-- A group that other patterns may refer to, counted from one. -/
  | external (number : Nat)
deriving Repr, DecidableEq

/-- What a following assertion makes of the piece before it. -/
inductive Assertion where
  /-- The piece matches here. -/
  | ahead
  /-- The piece does not match here. -/
  | notAhead
  /-- The piece matches just before here. -/
  | behind
  /-- The piece does not match just before here. -/
  | notBehind
  /-- The piece matches as a whole, without going back into it. -/
  | atomic
deriving Repr, Inhabited, DecidableEq

/-- The meaning of one item of a pattern. -/
inductive Lexeme where
  | literal (literal : Literal)
  | member (member : Member)
  /-- An unescaped caret, whose place decides whether it anchors. -/
  | caret
  /-- An unescaped dollar, whose place decides whether it anchors. -/
  | dollar
  | conjunction
  | alternative
  | groupOpen (sort : GroupSort)
  | groupClose
  | collectionOpen (opening : Collection.Opening)
  | collectionClose (withBreak : Bool)
  | optionalOpen
  | optionalClose
  | quantifier (quantifier : Quantifier)
  | assertion (assertion : Assertion)
deriving Repr, DecidableEq

/-- The terminal symbols of the grammar of patterns. -/
inductive Kind where
  | literal
  | caret
  | dollar
  | conjunction
  | alternative
  | groupOpen
  | groupClose
  | collectionOpen
  | collectionClose
  | optionalOpen
  | optionalClose
  | quantifier
  | assertion
deriving Repr, Inhabited, DecidableEq

/-- The terminal symbol of a lexeme.  An item inside a collection counts as a
literal. -/
def Lexeme.kind : Lexeme → Kind
  | .literal _ | .member _ => .literal
  | .caret => .caret
  | .dollar => .dollar
  | .conjunction => .conjunction
  | .alternative => .alternative
  | .groupOpen _ => .groupOpen
  | .groupClose => .groupClose
  | .collectionOpen _ => .collectionOpen
  | .collectionClose _ => .collectionClose
  | .optionalOpen => .optionalOpen
  | .optionalClose => .optionalClose
  | .quantifier _ => .quantifier
  | .assertion _ => .assertion

/-! ### Texts -/

/-- The name of a capturing group, where groups are named. -/
def captureName (number : Nat) : String :=
  "g" ++ toString number

/-- The target text of an atom. -/
def Literal.text (style : Style) : Literal → String
  | .plain char => Escape.plain char
  | .escaped char => Escape.backslashed char
  | .anyChar => "."
  | .lineBreak => style.options.lineBreakText
  | .anyOrBreak => style.options.anyOrBreakText
  | .lineStart => style.options.lineStartText
  | .lineEnd => style.options.lineEndText
  | .wordStart => "(?<!\\w)(?=\\w)"
  | .wordEnd => "(?<=\\w)(?!\\w)"
  | .textStart => "\\A"
  | .textEnd => "\\z"
  | .matchStart first => if first then "(?<zs>)" else "(?:)"
  | .matchEnd first => if first then "(?<ze>)" else "(?:)"
  | .charClass letterClass withBreak => letterClass.text style.options withBreak
  | .codePoint char => CodePoint.text char
  | .backReference number =>
      if style.namedGroups then "\\k<" ++ captureName number ++ ">"
      else "\\" ++ toString number
  | .externalReference number => "\\z" ++ toString number

/-- The target text of an item inside a collection. -/
def Member.text (style : Style) : Member → String
  | .plain char => Escape.member char
  | .escaped char => Escape.backslashedMember char
  | .backslash => "\\\\"
  | .dashPair => "-\\-"
  | .codePoint char => CodePoint.text char
  | .named namedClass => namedClass.body style.options style.foldCase
  | .equivalent char => Escape.quoted char

/-- The target text that opens a group. -/
def GroupSort.text (style : Style) : GroupSort → String
  | .capturing number =>
      if style.namedGroups then "(?<" ++ captureName number ++ ">" else "("
  | .nonCapturing => "(?:"
  | .external number => "(?<z" ++ toString number ++ ">"

/-- The target text that opens an assertion; a parenthesis closes it. -/
def Assertion.text : Assertion → String
  | .ahead => "(?="
  | .notAhead => "(?!"
  | .behind => "(?<="
  | .notBehind => "(?<!"
  | .atomic => "(?>"

end VimPattern
