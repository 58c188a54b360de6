/-
Module: VimPattern.Token
Purpose: Lexemes together with the place they were read at.
Main exports:
  Token, Token.kind, Token.isLineBreak, Token.text, Token.textOf
-/
import VimPattern.Lexeme

namespace VimPattern

/-- One meaningful item of a pattern. -/
structure Token where
  lexeme : Lexeme
  /-- The text of the item as the pattern spells it. -/
  raw : String
  /-- The offset of the item in the pattern, in bytes. -/
  position : Nat
  /-- The level the item was read at. -/
  magicness : Magicness
deriving Repr, DecidableEq

namespace Token

/-- The terminal symbol of the grammar that the token is. -/
def kind (token : Token) : Kind :=
  token.lexeme.kind

/-- The token is spelled as a line break, so that `^` after it and `$` before it
are implied. -/
def isLineBreak (token : Token) : Bool :=
  token.raw == "\\n" || token.raw == "\n"

/-- The target text of one token.  The operators that only act through the way
their operands are assembled keep their spelling. -/
def text (style : Style) (token : Token) : String :=
  match token.lexeme with
  | .literal literal => literal.text style
  | .member member => member.text style
  | .caret => style.options.caretText
  | .dollar => style.options.dollarText
  | .conjunction | .optionalOpen | .optionalClose => token.raw
  | .alternative => "|"
  | .groupOpen sort => sort.text style
  | .groupClose => ")"
  | .collectionOpen opening => opening.text style.options.newLine
  | .collectionClose withBreak => Collection.closingText withBreak
  | .quantifier quantifier => quantifier.text
  | .assertion assertion => assertion.text

/-- The texts of several tokens in a row. -/
def textOf (style : Style) (tokens : List Token) : String :=
  String.join (tokens.map (text style))

@[simp] theorem textOf_nil (style : Style) : textOf style [] = "" := by
  simp [textOf]

@[simp] theorem textOf_cons (style : Style) (token : Token)
    (others : List Token) :
    textOf style (token :: others) = token.text style ++ textOf style others := by
  simp [textOf]

@[simp] theorem textOf_append (style : Style) (front back : List Token) :
    textOf style (front ++ back) = textOf style front ++ textOf style back := by
  simp [textOf]

end Token

end VimPattern
