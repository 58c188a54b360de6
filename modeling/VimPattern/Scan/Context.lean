/-
Module: VimPattern.Scan.Context
Purpose: What has to be remembered between two items of a pattern.
Main exports:
  Mark, Content, Tally, Tally.record, Construct, Enclosure, Context,
  Context.start, Context.region, Context.afterMark, Context.afterToken
-/
import VimPattern.Region
import VimPattern.Token

namespace VimPattern

/-!
The reading of an item depends on what came before it in four ways: the level,
the constructs that are still open, whether a star would have anything to
repeat, and how many numbered items there have been.  `Context` holds these and
nothing else.  The settings are not part of it.
-/

/-- An item that leaves no token. -/
inductive Mark where
  /-- A change of level. -/
  | switch (level : Magicness)
  /-- The last substitute string, unknown outside the editor. -/
  | lastSubstitute
  /-- A position in the editor: cursor, selection, mark, line or column. -/
  | editorPosition
  /-- A remark about combining characters. -/
  | combining
  /-- A remark about case, which is settled before reading starts. -/
  | caseMarker (fold : Bool)
deriving Repr, DecidableEq

/-- What one item is. -/
inductive Content where
  | mark (mark : Mark)
  | lexeme (lexeme : Lexeme)
deriving Repr, DecidableEq

/-- How often the numbered items occur, and which of the rarer ones do. -/
structure Tally where
  /-- Capturing groups opened. -/
  plainGroups : Nat := 0
  /-- External groups opened. -/
  externalGroups : Nat := 0
  /-- The highest external group of another pattern that is referred to. -/
  highestExternal : Nat := 0
  /-- The start of the match has been set. -/
  matchStart : Bool := false
  /-- The end of the match has been set. -/
  matchEnd : Bool := false
  /-- A capturing group is referred to. -/
  backReference : Bool := false
deriving Repr, Inhabited, DecidableEq

/-- Take note of one lexeme. -/
def Tally.record (tally : Tally) : Lexeme → Tally
  | .groupOpen (.capturing number) => { tally with plainGroups := number }
  | .groupOpen (.external number) => { tally with externalGroups := number }
  | .literal (.matchStart _) => { tally with matchStart := true }
  | .literal (.matchEnd _) => { tally with matchEnd := true }
  | .literal (.backReference _) => { tally with backReference := true }
  | .literal (.externalReference number) =>
      { tally with highestExternal := max tally.highestExternal number }
  | _ => tally

/-- A construct with rules of its own for what stands inside. -/
inductive Construct where
  | collection (withBreak : Bool)
  | optionalMatch
deriving Repr, DecidableEq

/-- The region inside a construct. -/
def Construct.region : Construct → Region
  | .collection _ => .collection
  | .optionalMatch => .optionalMatch

/-- An open construct and the place it was opened at. -/
structure Enclosure where
  construct : Construct
  position : Nat
deriving Repr, DecidableEq

/-- Everything that the items read so far leave behind for the next one. -/
structure Context where
  /-- The level in effect. -/
  magicness : Magicness
  /-- The constructs that are still open, the innermost first. -/
  enclosing : List Enclosure := []
  /-- A star has nothing to repeat here and stands for itself. -/
  starIsLiteral : Bool := true
  /-- A caret here is at the start of a line. -/
  atLineStart : Bool := true
  tally : Tally := {}
deriving Repr, DecidableEq

namespace Context

/-- The context at the start of a pattern. -/
def start (level : Magicness) : Context :=
  { magicness := level }

/-- The region that the next item stands in. -/
def region (context : Context) : Region :=
  match context.enclosing with
  | [] => .initial
  | enclosure :: _ => enclosure.construct.region

/-- The context after an item that leaves no token. -/
def afterMark (context : Context) : Mark → Context
  | .switch level => { context with magicness := level }
  | _ => context

/-- The constructs that are open after a lexeme that stands at this position. -/
def enclosingAfter (context : Context) (position : Nat) :
    Lexeme → List Enclosure
  | .collectionOpen opening =>
      { construct := .collection opening.withBreak
        position := position } :: context.enclosing
  | .optionalOpen =>
      { construct := .optionalMatch
        position := position } :: context.enclosing
  | .collectionClose _ | .optionalClose => context.enclosing.drop 1
  | _ => context.enclosing

/-- The context after a token. -/
def afterToken (context : Context) (token : Token) : Context :=
  { magicness := context.magicness
    enclosing := context.enclosingAfter token.position token.lexeme
    starIsLiteral := token.kind == .caret && context.atLineStart
    atLineStart :=
      token.isLineBreak || token.kind == .alternative ||
        token.kind == .conjunction || token.kind == .groupOpen
    tally := context.tally.record token.lexeme }

end Context

end VimPattern
