/-
Module: VimPattern.Scan.Basic
Purpose: A pattern read from its start to its end, item by item.
Main exports:
  Item, Item.token?, Terminus, Ending, Scan, Scan.readFrom, Scan.ofPattern,
  Scan.tokens, Scan.covered, ScanError, ScanError.message, Scan.result
-/
import VimPattern.Scan.Verdict
import VimPattern.Text.Grapheme

namespace VimPattern

/-!
Reading walks over the characters of the pattern once.  At the first character
of an item it asks for a verdict, and then passes over as many characters as the
item takes.  So the items tile the part of the pattern that could be read, and
each of them takes at least one character.
-/

/-- One item of a pattern with the place it was read at. -/
structure Item where
  content : Content
  /-- The text of the item as the pattern spells it. -/
  raw : String
  /-- The offset of the item in the pattern, in bytes. -/
  position : Nat
  /-- The level in effect at the end of the item. -/
  magicness : Magicness
deriving Repr, DecidableEq

/-- The token an item is, unless it leaves none. -/
def Item.token? (item : Item) : Option Token :=
  match item.content with
  | .mark _ => none
  | .lexeme lexeme =>
      some
        { lexeme := lexeme
          raw := item.raw
          position := item.position
          magicness := item.magicness }

/-- The state at the end of a pattern that has been read. -/
structure Terminus where
  /-- The length of the pattern in bytes. -/
  position : Nat
  context : Context
deriving Repr, DecidableEq

/-- Where reading stopped, and why. -/
inductive Ending where
  /-- The whole pattern has been read. -/
  | finished (terminus : Terminus)
  /-- The pattern is over, but a construct is still open. -/
  | unterminated (enclosure : Enclosure)
  /-- No rule reads the rest of the pattern. -/
  | noRule (position : Nat) (rest : String)
  /-- An item cannot be used. -/
  | fault (fault : Fault) (raw : String) (position : Nat)
deriving Repr, DecidableEq

/-- The items of a pattern up to the place where reading stopped. -/
structure Scan where
  items : List Item
  ending : Ending
deriving Repr, DecidableEq

namespace Scan

/-- The scan with one more item in front. -/
def cons (item : Item) (scan : Scan) : Scan :=
  { scan with items := item :: scan.items }

/-- The context after an item with this content. -/
def contextAfter (context : Context) (content : Content) (raw : String)
    (position : Nat) : Context :=
  match content with
  | .mark mark => context.afterMark mark
  | .lexeme lexeme =>
      context.afterToken
        { lexeme := lexeme
          raw := raw
          position := position
          magicness := context.magicness }

/-- What becomes of a pattern that is over. -/
def endingOf (context : Context) (position : Nat) : Ending :=
  match context.enclosing with
  | [] =>
      .finished
        { position := position
          context := context }
  | enclosure :: _ => .unterminated enclosure

/-- Read the items of a text that starts at this offset.  `passed` characters at
the start of the text belong to the item before it. -/
def readFrom (context : Context) (position passed : Nat) : List Char → Scan
  | [] =>
      { items := []
        ending := endingOf context position }
  | char :: text =>
      match passed with
      | more + 1 => readFrom context (position + char.utf8Size) more text
      | 0 =>
          match context.verdict char text with
          | .item content extra =>
              let raw := String.ofList (char :: text.take extra)
              let after := contextAfter context content raw position
              let item : Item :=
                { content := content
                  raw := raw
                  position := position
                  magicness := after.magicness }
              (readFrom after (position + char.utf8Size) extra text).cons item
          | .fault fault extra =>
              { items := []
                ending :=
                  .fault fault (String.ofList (char :: text.take extra)) position }
          | .noRule =>
              { items := []
                ending := .noRule position (String.ofList (char :: text)) }

/-- Read a whole pattern, starting at this level. -/
def ofPattern (level : Magicness) (pattern : String) : Scan :=
  readFrom (Context.start level) 0 0 pattern.toList

/-- The meaningful items. -/
def tokens (scan : Scan) : List Token :=
  scan.items.filterMap Item.token?

/-- The part of the pattern that the items cover. -/
def covered (scan : Scan) : String :=
  String.join (scan.items.map Item.raw)

end Scan

/-- Why a pattern cannot be read. -/
inductive ScanError where
  /-- No rule reads the rest of the pattern.  The column counts the characters a
  reader sees, from one on. -/
  | noRuleMatches (position column : Nat) (rest : String)
  /-- The pattern ends inside a construct. -/
  | unterminated (region : Region) (position : Nat)
  /-- A named class has a name that is not known. -/
  | unknownCollectionClass (name : String) (position : Nat)
  /-- A number has no character. -/
  | invalidCodePoint (escape : String) (position : Nat)
deriving Repr, DecidableEq

namespace ScanError

/-- The wording of the error. -/
def message : ScanError → String
  | .noRuleMatches position column rest =>
      "no rule matches at byte " ++ toString position ++ " (column " ++
        toString column ++ "): '" ++ rest ++ "'"
  | .unterminated region position =>
      "pattern ends inside " ++ region.name ++ " opened at byte " ++
        toString position
  | .unknownCollectionClass name position =>
      "unknown collection class '[:" ++ name ++ ":]' at byte " ++ toString position
  | .invalidCodePoint escape position =>
      "'" ++ escape ++ "' at byte " ++ toString position ++
        " is not a valid character"

end ScanError

namespace Scan

/-- The state at the end of a pattern that could be read, or the error that
stopped the reading. -/
def result (scan : Scan) : Except ScanError Terminus :=
  match scan.ending with
  | .finished terminus => .ok terminus
  | .unterminated enclosure =>
      .error (.unterminated enclosure.construct.region enclosure.position)
  | .noRule position rest =>
      let column := Grapheme.count scan.covered.toList + 1
      .error (.noRuleMatches position column rest)
  | .fault (.unknownClass name) _ position =>
      .error (.unknownCollectionClass name position)
  | .fault .invalidCodePoint raw position =>
      .error (.invalidCodePoint raw position)

end Scan

end VimPattern
