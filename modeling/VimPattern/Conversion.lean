/-
Module: VimPattern.Conversion
Purpose: Patterns converted to the target dialect.
Main exports:
  caseMarker?, Metadata, Metadata.needsNamedGroups, Conversion,
  ConversionError, ConversionError.display, convert, convertText
-/
import VimPattern.Tree.Growth

namespace VimPattern

/-!
A conversion reads the pattern, grows its tree, and renders the tree.  Only the
rendering looks at the settings, the starting level apart.  Whether capturing
groups are named follows from what the pattern contains, so that it is known
before anything is rendered.
-/

/-- What the first case marker of a pattern says: fold case after `\c`, keep it
after `\C`.  A backslash takes the character after it with it. -/
def caseMarker? : List Char → Option Bool
  | [] => none
  | '\\' :: 'c' :: _ => some true
  | '\\' :: 'C' :: _ => some false
  | '\\' :: _ :: text => caseMarker? text
  | _ :: text => caseMarker? text

/-- Facts about a pattern that its text in the target does not show directly. -/
structure Metadata where
  /-- The number of external groups. -/
  externalGroups : Nat := 0
  /-- The highest external group of another pattern that is referred to, or
  zero. -/
  lastExternalMatch : Nat := 0
  hasMatchStart : Bool := false
  hasMatchEnd : Bool := false
  hasBackReference : Bool := false
  /-- A dollar anchors at the end of an alternative outside all groups. -/
  matchesMagicDollar : Bool := false
deriving Repr, Inhabited, DecidableEq

/-- The facts that a tally and the dollars of a pattern give. -/
def Metadata.ofTally (tally : Tally) (dollarEnds : Bool) : Metadata :=
  { externalGroups := tally.externalGroups
    lastExternalMatch := tally.highestExternal
    hasMatchStart := tally.matchStart
    hasMatchEnd := tally.matchEnd
    hasBackReference := tally.backReference
    matchesMagicDollar := dollarEnds }

/-- A back reference and a named group occur together, so that the capturing
groups need names as well. -/
def Metadata.needsNamedGroups (metadata : Metadata) : Bool :=
  metadata.hasBackReference &&
    (0 < metadata.externalGroups || metadata.hasMatchStart || metadata.hasMatchEnd)

/-- A converted pattern. -/
structure Conversion where
  /-- The pattern in the target dialect. -/
  converted : String
  /-- Case is folded. -/
  ignoreCase : Bool
  /-- The level in effect at the end of the pattern. -/
  magicness : Magicness
  metadata : Metadata
deriving Repr, Inhabited, DecidableEq

/-- A pattern that could not be converted. -/
structure ConversionError where
  pattern : String
  /-- The text of the tokens read so far, unless there is none. -/
  partialText : Option String
  cause : Cause
deriving Repr, DecidableEq

/-- The wording of the error, without its cause. -/
def ConversionError.display (error : ConversionError) : String :=
  "error converting vim regex '" ++ error.pattern ++ "'"

/-- Case is folded for this pattern: a marker in the pattern decides, and the
options where there is none. -/
def foldsCase (options : Options) (pattern : String) : Bool :=
  (caseMarker? pattern.toList).getD options.ignoreCase

/-- The text of the first tokens of a pattern, unless it is empty. -/
def partialText (options : Options) (foldCase : Bool) (tokens : List Token) :
    Option String :=
  let style : Style :=
    { options := options
      foldCase := foldCase }
  let text := Token.textOf style tokens
  if text.isEmpty then none else some text

/-- Put the case folding of a whole pattern into its text. -/
def withCase (foldCase : Bool) (body : String) : String :=
  if foldCase then "(?i:" ++ body ++ ")" else body

/-- The conversion that a grown tree gives. -/
def Conversion.ofGrown (options : Options) (foldCase : Bool) (grown : Grown) :
    Conversion :=
  let metadata := Metadata.ofTally grown.context.tally grown.dollarEnds
  let style : Style :=
    { options := options
      foldCase := foldCase
      namedGroups := metadata.needsNamedGroups }
  { converted := withCase foldCase (grown.tree.text style)
    ignoreCase := foldCase
    magicness := grown.context.magicness
    metadata := metadata }

/-- Convert a pattern.  The empty pattern is left alone, without a wrapper for
folded case. -/
def convert (options : Options) (pattern : String) :
    Except ConversionError Conversion :=
  if pattern.isEmpty then
    .ok
      { converted := ""
        ignoreCase := options.ignoreCase
        magicness := options.magicness
        metadata := {} }
  else
    let foldCase := foldsCase options pattern
    let scan := Scan.ofPattern options.magicness pattern
    match Tree.ofScan scan with
    | .ok grown => .ok (Conversion.ofGrown options foldCase grown)
    | .error failure =>
        .error
          { pattern := pattern
            partialText :=
              partialText options foldCase (scan.tokens.take failure.read)
            cause := failure.cause }

/-- Convert a pattern and keep only the text. -/
def convertText (options : Options) (pattern : String) :
    Except ConversionError String :=
  (convert options pattern).map Conversion.converted

end VimPattern
