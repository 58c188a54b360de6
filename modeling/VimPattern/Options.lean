/-
Module: VimPattern.Options
Purpose: The settings a pattern is converted under.
Main exports:
  Options, Options.multiline, Options.foldedMultiline, Setting, Options.apply,
  Options.lineStartText, Options.lineEndText, Options.caretText,
  Options.dollarText, Options.lineBreakText, Options.anyOrBreakText
-/
import VimPattern.Magicness

namespace VimPattern

/-!
Four settings are bodies of bracket expressions, written without the brackets;
they give the classes `\i`, `\k`, `\f` and `\p` their members.  Digits are left
out of them.  `newLine` is itself a piece of target text.  None of the texts is
checked: a malformed one only shows in the converted pattern.
-/

/-- The settings a pattern is converted under. -/
structure Options where
  /-- Members of `\i` and `\I`. -/
  identChars : String := "A-Za-z_\\xC0-\\xFF"
  /-- Members of `\k` and `\K`. -/
  keywordChars : String := "A-Za-z_\\xC0-\\xFF"
  /-- Members of `\f` and `\F`. -/
  fileNameChars : String := "A-Za-z/.\\-_+,#$%~="
  /-- Members of `\p` and `\P`. -/
  printableChars : String := "\\x20-\\x7E\\xA1-\\xFF"
  /-- The level at the start of the pattern. -/
  magicness : Magicness := .magic
  /-- Fold case, unless the pattern itself says `\c` or `\C`. -/
  ignoreCase : Bool := false
  /-- Let `^` and `$` match around every line break. -/
  forceMultiline : Bool := false
  /-- Target text that matches a line break. -/
  newLine : String := "\\n"
deriving Repr, Inhabited, DecidableEq

/-- A change to one of the settings. -/
inductive Setting where
  | identChars (members : String)
  | keywordChars (members : String)
  | fileNameChars (members : String)
  | printableChars (members : String)
  | magicness (level : Magicness)
  | ignoreCase (fold : Bool)
  | forceMultiline (force : Bool)
  | newLine (text : String)
deriving Repr, Inhabited, DecidableEq

namespace Options

/-- The usual settings, with `^` and `$` matching around every line break. -/
def multiline : Options := { forceMultiline := true }

/-- The multi-line settings, folding case as well. -/
def foldedMultiline : Options := { multiline with ignoreCase := true }

/-- Change one setting and keep the others. -/
def apply (options : Options) : Setting → Options
  | .identChars members => { options with identChars := members }
  | .keywordChars members => { options with keywordChars := members }
  | .fileNameChars members => { options with fileNameChars := members }
  | .printableChars members => { options with printableChars := members }
  | .magicness level => { options with magicness := level }
  | .ignoreCase fold => { options with ignoreCase := fold }
  | .forceMultiline force => { options with forceMultiline := force }
  | .newLine text => { options with newLine := text }

/-! ### Texts that the line-break setting decides -/

/-- The start of the input, or the place after a line break. -/
def lineStartText (options : Options) : String :=
  "(?:^|(?<=" ++ options.newLine ++ "))"

/-- The place before a line break, or the end of the input. -/
def lineEndText (options : Options) : String :=
  "(?=" ++ options.newLine ++ "|$)"

/-- The text of an anchoring `^`. -/
def caretText (options : Options) : String :=
  if options.forceMultiline then options.lineStartText else "^"

/-- The text of an anchoring `$`. -/
def dollarText (options : Options) : String :=
  if options.forceMultiline then options.lineEndText else "$"

/-- One line break as an atom.  A setting of at most two characters is taken for
an atom already, a longer one is put into a group so that a quantifier takes all
of it. -/
def lineBreakText (options : Options) : String :=
  if options.newLine.length ≤ 2 then options.newLine
  else "(?:" ++ options.newLine ++ ")"

/-- Any character, line breaks included. -/
def anyOrBreakText (options : Options) : String :=
  "(?:" ++ options.newLine ++ "|.)"

end Options

end VimPattern
