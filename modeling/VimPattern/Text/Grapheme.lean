/-
Module: VimPattern.Text.Grapheme
Purpose: The number of user-perceived characters in a text.
Main exports:
  Grapheme.BreakClass, Grapheme.classOf, Grapheme.Progress, Grapheme.joins,
  Grapheme.count
-/
import VimPattern.Text.GraphemeTable

namespace VimPattern.Grapheme

/-!
A reader sees an extended grapheme cluster as one character.  Whether a
character joins the one before it depends on the classes of the two and, for
pictographs, flags and stacked consonants, on what the cluster holds so far.
`Progress` keeps just that much, so that one walk over the text counts its
clusters.
-/

/-- The part a character plays in the division into clusters. -/
inductive BreakClass where
  | carriageReturn
  | lineFeed
  /-- A control character, which is a cluster by itself. -/
  | control
  /-- A mark that belongs to the character before it. -/
  | extender
  /-- A mark that belongs to the character before it and stacks consonants. -/
  | linker
  /-- The character that keeps marks and letters from joining visibly. -/
  | nonJoiner
  /-- The character that joins pictographs. -/
  | joiner
  /-- A mark with a width of its own that belongs to the character before it. -/
  | spacingMark
  /-- A mark that belongs to the character after it. -/
  | prepended
  /-- One half of a flag. -/
  | regionalIndicator
  | leadingJamo
  | vowelJamo
  | trailingJamo
  /-- A Hangul syllable without a final letter. -/
  | openSyllable
  /-- A Hangul syllable with a final letter. -/
  | closedSyllable
  | pictograph
  /-- A consonant of a script that stacks them. -/
  | consonant
  | other
deriving Repr, Inhabited, DecidableEq

/-- A number lies in one of the ranges. -/
def inRanges (ranges : List (Nat × Nat)) (number : Nat) : Bool :=
  ranges.any fun range => range.1 ≤ number && number ≤ range.2

/-- The class of a precomposed Hangul syllable.  The syllables are numbered so
that every twenty-eighth one has no final letter. -/
def syllableClass (number : Nat) : BreakClass :=
  if (number - 0xAC00) % 28 = 0 then .openSyllable else .closedSyllable

/-- The class of a character. -/
def classOf (char : Char) : BreakClass :=
  let number := char.toNat
  if number = 0x0D then .carriageReturn
  else if number = 0x0A then .lineFeed
  else if number = 0x200C then .nonJoiner
  else if number = 0x200D then .joiner
  else if 0xAC00 ≤ number ∧ number ≤ 0xD7A3 then syllableClass number
  else if 0x1F1E6 ≤ number ∧ number ≤ 0x1F1FF then .regionalIndicator
  else if inRanges GraphemeTable.controls number then .control
  else if number ∈ GraphemeTable.linkers then .linker
  else if inRanges GraphemeTable.extenders number then .extender
  else if inRanges GraphemeTable.spacingMarks number then .spacingMark
  else if inRanges GraphemeTable.prepended number then .prepended
  else if inRanges GraphemeTable.leadingJamo number then .leadingJamo
  else if inRanges GraphemeTable.vowelJamo number then .vowelJamo
  else if inRanges GraphemeTable.trailingJamo number then .trailingJamo
  else if inRanges GraphemeTable.pictographs number then .pictograph
  else if inRanges GraphemeTable.consonants number then .consonant
  else .other

/-- How far a cluster has come that may end in a pictograph. -/
inductive Pictograph where
  | absent
  /-- A pictograph and its marks. -/
  | complete
  /-- A pictograph, its marks and a joiner. -/
  | joined
deriving Repr, Inhabited, DecidableEq

/-- How far a cluster has come that may end in a stacked consonant. -/
inductive Stack where
  | absent
  /-- A consonant and its marks. -/
  | consonant
  /-- A consonant and its marks, a linker among them. -/
  | linked
deriving Repr, Inhabited, DecidableEq

/-- What the characters so far mean for the next one. -/
structure Progress where
  /-- The class of the last character. -/
  last : BreakClass
  pictograph : Pictograph := .absent
  stack : Stack := .absent
  /-- The last character is the first half of a flag. -/
  halfFlag : Bool := false
deriving Repr, Inhabited, DecidableEq

/-- The character belongs to the one before it whatever that is. -/
def BreakClass.attaches : BreakClass → Bool
  | .extender | .linker | .nonJoiner | .joiner | .spacingMark => true
  | _ => false

/-- The character is a cluster by itself, a line break of two characters
apart. -/
def BreakClass.isolates : BreakClass → Bool
  | .carriageReturn | .lineFeed | .control => true
  | _ => false

/-- Two Hangul letters or syllables belong to one syllable. -/
def continuesSyllable (last current : BreakClass) : Bool :=
  match last with
  | .leadingJamo =>
      current ∈ [.leadingJamo, .vowelJamo, .openSyllable, .closedSyllable]
  | .vowelJamo | .openSyllable => current ∈ [.vowelJamo, .trailingJamo]
  | .trailingJamo | .closedSyllable => current = .trailingJamo
  | _ => false

/-- A character of this class joins the cluster before it. -/
def joins (progress : Progress) (current : BreakClass) : Bool :=
  if progress.last = .carriageReturn ∧ current = .lineFeed then true
  else if progress.last.isolates || current.isolates then false
  else
    continuesSyllable progress.last current ||
      current.attaches ||
      progress.last = .prepended ||
      (progress.stack = .linked && current = .consonant) ||
      (progress.pictograph = .joined && current = .pictograph) ||
      (progress.halfFlag && current = .regionalIndicator)

/-- What a character of this class adds to a pictograph. -/
def Pictograph.advance (pictograph : Pictograph) : BreakClass → Pictograph
  | .pictograph => .complete
  | .extender | .linker | .nonJoiner =>
      if pictograph = .complete then .complete else .absent
  | .joiner => if pictograph = .complete then .joined else .absent
  | _ => .absent

/-- What a character of this class adds to a stack of consonants. -/
def Stack.advance (stack : Stack) : BreakClass → Stack
  | .consonant => .consonant
  | .linker => if stack = .absent then .absent else .linked
  | .extender | .joiner => stack
  | _ => .absent

/-- The progress after a character of this class. -/
def Progress.advance (progress : Progress) (current : BreakClass) : Progress :=
  { last := current
    pictograph := progress.pictograph.advance current
    stack := progress.stack.advance current
    halfFlag := current = .regionalIndicator && !progress.halfFlag }

/-- The number of clusters that begin in a text which follows other
characters. -/
def countFrom (progress : Progress) : List Char → Nat
  | [] => 0
  | char :: text =>
      let current := classOf char
      (if joins progress current then 0 else 1) +
        countFrom (progress.advance current) text

/-- The number of clusters in a text.  Nothing joins a control character, so a
text may be counted as if it followed one. -/
def count (text : List Char) : Nat :=
  countFrom { last := .control } text

end VimPattern.Grapheme
