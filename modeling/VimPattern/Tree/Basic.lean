/-
Module: VimPattern.Tree.Basic
Purpose: Patterns as trees, and the target text of a tree.
Main exports:
  Rank, Place, Tree, Tree.tokens, Tree.startsWithBreak, Tree.parts, Tree.text
-/
import VimPattern.Compound
import VimPattern.Token

namespace VimPattern

/-!
A pattern is a list of alternatives, an alternative a list of operands that must
all match, an operand a list of pieces, and a piece an atom with what follows
it.  The five ranks of trees are one family, so that one recursion defines each
function on all of them.

```
pattern := branch (ALTERNATIVE branch)*
branch  := concat (CONJUNCTION concat)*
concat  := piece*
piece   := atom QUANTIFIER? ASSERTION*
atom    := LITERAL | CARET | DOLLAR
         | GROUPOPEN pattern GROUPCLOSE
         | COLLECTIONOPEN LITERAL* COLLECTIONCLOSE
         | OPTIONALOPEN piece+ OPTIONALCLOSE
```
-/

/-- The ranks of the grammar. -/
inductive Rank where
  | pattern
  | branch
  | concat
  | piece
  | atom
deriving Repr, Inhabited, DecidableEq

/-- Where a `^` or a `$` stands among its neighbours. -/
inductive Place where
  /-- Where it can anchor: before or after everything else of its operand. -/
  | edge
  /-- Next to a line break, which says the same already. -/
  | besideBreak
  /-- Between other items. -/
  | inside
deriving Repr, Inhabited, DecidableEq

/-- A stretch of a pattern of some rank.  Lists grow at their end. -/
inductive Tree : Rank → Type where
  /-- An item that matches by itself. -/
  | literal (token : Token) : Tree .atom
  /-- A caret or a dollar. -/
  | anchor (token : Token) (place : Place) : Tree .atom
  | group (opener : Token) (body : Tree .pattern) (closer : Token) : Tree .atom
  | collection (opener : Token) (members : List Token) (closer : Token) :
      Tree .atom
  | optional (opener : Token) (pieces : Tree .concat) (closer : Token) :
      Tree .atom
  /-- An atom with nothing behind it. -/
  | bare (atom : Tree .atom) : Tree .piece
  | quantified (atom : Tree .atom) (quantifier : Token) : Tree .piece
  | asserted (piece : Tree .piece) (assertion : Token) : Tree .piece
  /-- No pieces. -/
  | empty : Tree .concat
  | snoc (pieces : Tree .concat) (piece : Tree .piece) : Tree .concat
  /-- A single operand. -/
  | operand (concat : Tree .concat) : Tree .branch
  | both (operands : Tree .branch) (separator : Token) (concat : Tree .concat) :
      Tree .branch
  /-- A single alternative. -/
  | single (branch : Tree .branch) : Tree .pattern
  | either (alternatives : Tree .pattern) (separator : Token)
      (branch : Tree .branch) : Tree .pattern

namespace Tree

/-- The tokens of a tree in the order in which the pattern has them. -/
def tokens : {rank : Rank} → Tree rank → List Token
  | _, .literal token => [token]
  | _, .anchor token _ => [token]
  | _, .group opener body closer => opener :: (body.tokens ++ [closer])
  | _, .collection opener members closer => opener :: (members ++ [closer])
  | _, .optional opener pieces closer => opener :: (pieces.tokens ++ [closer])
  | _, .bare atom => atom.tokens
  | _, .quantified atom quantifier => atom.tokens ++ [quantifier]
  | _, .asserted piece assertion => piece.tokens ++ [assertion]
  | _, .empty => []
  | _, .snoc pieces piece => pieces.tokens ++ piece.tokens
  | _, .operand concat => concat.tokens
  | _, .both operands separator concat =>
      operands.tokens ++ separator :: concat.tokens
  | _, .single branch => branch.tokens
  | _, .either alternatives separator branch =>
      alternatives.tokens ++ separator :: branch.tokens

/-- The tree starts with a line break. -/
def startsWithBreak {rank : Rank} (tree : Tree rank) : Bool :=
  match tree.tokens.head? with
  | some token => token.isLineBreak
  | none => false

/-- What an anchor leaves in the target.  An inner caret or dollar is still an
anchor where the level makes every operator one; elsewhere it stands for
itself. -/
def anchorText (style : Style) (token : Token) : Place → String
  | .edge => token.text style
  | .besideBreak => ""
  | .inside =>
      if token.magicness = .veryMagic then token.text style
      else if token.kind = .caret then "\\^"
      else "\\$"

/-- The texts that a tree is assembled from: of a pattern its alternatives, of a
branch its operands, of a concatenation its pieces, and of a piece or an atom
its whole text. -/
def parts (style : Style) : {rank : Rank} → Tree rank → List String
  | _, .literal token => [token.text style]
  | _, .anchor token place => [anchorText style token place]
  | _, .group opener body closer =>
      [opener.text style ++ "|".intercalate (body.parts style) ++
        closer.text style]
  | _, .collection opener members closer =>
      [opener.text style ++ Token.textOf style members ++ closer.text style]
  | _, .optional _ pieces _ => [chainText (pieces.parts style)]
  | _, .bare atom => atom.parts style
  | _, .quantified atom quantifier =>
      [String.join (atom.parts style) ++ quantifier.text style]
  | _, .asserted piece assertion =>
      [assertion.text style ++ String.join (piece.parts style) ++ ")"]
  | _, .empty => []
  | _, .snoc pieces piece => pieces.parts style ++ piece.parts style
  | _, .operand concat => [String.join (concat.parts style)]
  | _, .both operands _ concat =>
      operands.parts style ++ [String.join (concat.parts style)]
  | _, .single branch => [conjunctionText (branch.parts style)]
  | _, .either alternatives _ branch =>
      alternatives.parts style ++ [conjunctionText (branch.parts style)]

/-- The target text of a tree. -/
def text (style : Style) : {rank : Rank} → Tree rank → String
  | .pattern, tree => "|".intercalate (tree.parts style)
  | .branch, tree => conjunctionText (tree.parts style)
  | .concat, tree => String.join (tree.parts style)
  | .piece, tree => String.join (tree.parts style)
  | .atom, tree => String.join (tree.parts style)

end Tree

end VimPattern
