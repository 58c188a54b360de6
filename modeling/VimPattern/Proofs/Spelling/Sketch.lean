/-
Module: VimPattern.Proofs.Spelling.Sketch
Purpose: Patterns before they are written down at some level.
Main exports:
  AlphaNumeric, Repetition, Sketch, Sketch.spelling, Sketch.print, Sketch.text
-/
import VimPattern.Tree.Basic

namespace VimPattern

/-!
A sketch says what a pattern is made of and nothing about its spelling.  It can be
written at each of the four levels, and it has one translation, which is read off
its structure: no rule of the scanner and no token takes part in it.
-/

/-- A letter or a digit of ASCII. -/
abbrev AlphaNumeric : Type :=
  { char : Char // char.isAlphanum = true }

/-- How often an atom is repeated. -/
inductive Repetition where
  /-- Any number of times. -/
  | star
  /-- At least once. -/
  | plus
  /-- At most once. -/
  | optional
  /-- At least `low` and at most `high` times. -/
  | between (low high : Nat) (ordered : low ≤ high)

/-- A stretch of a pattern of some rank, without a spelling. -/
inductive Sketch : Rank → Type where
  /-- A character that stands for itself. -/
  | literal (char : AlphaNumeric) : Sketch .atom
  /-- Any character. -/
  | anyChar : Sketch .atom
  /-- A character class by its letter. -/
  | charClass (charClass : CharClass) : Sketch .atom
  /-- A collection of at least one character. -/
  | collection (first : AlphaNumeric) (others : List AlphaNumeric) : Sketch .atom
  /-- A capturing group. -/
  | group (body : Sketch .pattern) : Sketch .atom
  /-- A group that only groups. -/
  | cluster (body : Sketch .pattern) : Sketch .atom
  /-- An optional sequence of at least one piece. -/
  | optional (front : Sketch .concat) (last : Sketch .piece) : Sketch .atom
  | bare (atom : Sketch .atom) : Sketch .piece
  | repeated (atom : Sketch .atom) (repetition : Repetition) : Sketch .piece
  | asserted (piece : Sketch .piece) (assertion : Assertion) : Sketch .piece
  | empty : Sketch .concat
  | snoc (pieces : Sketch .concat) (piece : Sketch .piece) : Sketch .concat
  | operand (concat : Sketch .concat) : Sketch .branch
  | both (operands : Sketch .branch) (concat : Sketch .concat) : Sketch .branch
  | single (branch : Sketch .branch) : Sketch .pattern
  | either (alternatives : Sketch .pattern) (branch : Sketch .branch) :
      Sketch .pattern

/-! ### Spelling -/

namespace Magicness

/-- An operator that only the two lower levels write after a backslash. -/
def older (level : Magicness) (char : Char) : List Char :=
  if level.isNoMagic then ['\\', char] else [char]

/-- An operator that only the highest level writes without a backslash. -/
def newer (level : Magicness) (operator : List Char) : List Char :=
  if level = .veryMagic then operator else '\\' :: operator

end Magicness

/-- A repetition written at a level. -/
def Repetition.spelling (level : Magicness) : Repetition → List Char
  | .star => level.older '*'
  | .plus => level.newer ['+']
  | .optional => level.newer ['=']
  | .between low high _ =>
      level.newer
        ('\x7b' :: ((toString low).toList ++ ',' :: ((toString high).toList ++ ['\x7d'])))

/-- An assertion written at a level. -/
def Assertion.spelling (level : Magicness) : Assertion → List Char
  | .ahead => level.newer ['@', '=']
  | .notAhead => level.newer ['@', '!']
  | .behind => level.newer ['@', '<', '=']
  | .notBehind => level.newer ['@', '<', '!']
  | .atomic => level.newer ['@', '>']

namespace Sketch

/-- The sketch written at a level. -/
@[simp] def spelling (level : Magicness) : {rank : Rank} → Sketch rank → List Char
  | _, .literal char => [char.val]
  | _, .anyChar => level.older '.'
  | _, .charClass letterClass => ['\\', letterClass.letter]
  | _, .collection first others =>
      level.older '[' ++ (first :: others).map Subtype.val ++ [']']
  | _, .group body => level.newer ['('] ++ body.spelling level ++ level.newer [')']
  | _, .cluster body =>
      level.newer ['%', '('] ++ body.spelling level ++ level.newer [')']
  | _, .optional front last =>
      level.newer ['%', '['] ++ front.spelling level ++ last.spelling level ++ [']']
  | _, .bare atom => atom.spelling level
  | _, .repeated atom repetition => atom.spelling level ++ repetition.spelling level
  | _, .asserted piece assertion => piece.spelling level ++ assertion.spelling level
  | _, .empty => []
  | _, .snoc pieces piece => pieces.spelling level ++ piece.spelling level
  | _, .operand concat => concat.spelling level
  | _, .both operands concat =>
      operands.spelling level ++ level.newer ['&'] ++ concat.spelling level
  | _, .single branch => branch.spelling level
  | _, .either alternatives branch =>
      alternatives.spelling level ++ level.newer ['|'] ++ branch.spelling level

/-- The text of a pattern that the sketch gives at a level. -/
def print (level : Magicness) (sketch : Sketch .pattern) : String :=
  String.ofList (sketch.spelling level)

end Sketch

/-! ### Translation -/

/-- A repetition in the target. -/
def Repetition.text : Repetition → String
  | .star => "*"
  | .plus => "+"
  | .optional => "?"
  | .between low high _ => "\x7b" ++ toString low ++ "," ++ toString high ++ "\x7d"

/-- What an assertion puts before its piece in the target. -/
def Assertion.openingText : Assertion → String
  | .ahead => "(?="
  | .notAhead => "(?!"
  | .behind => "(?<="
  | .notBehind => "(?<!"
  | .atomic => "(?>"

namespace Sketch

mutual

/-- The translation of a sketch. -/
def text (options : Options) : {rank : Rank} → Sketch rank → String
  | _, .literal char => String.singleton char.val
  | _, .anyChar => "."
  | _, .charClass letterClass => letterClass.text options false
  | _, .collection first others =>
      "[" ++ String.ofList ((first :: others).map Subtype.val) ++ "]"
  | _, .group body => "(" ++ body.text options ++ ")"
  | _, .cluster body => "(?:" ++ body.text options ++ ")"
  | _, .optional front last =>
      "(?:" ++ front.text options ++ last.text options ++ "|" ++
        front.stretches options ++ ")"
  | _, .bare atom => atom.text options
  | _, .repeated atom repetition => atom.text options ++ repetition.text
  | _, .asserted piece assertion =>
      assertion.openingText ++ piece.text options ++ ")"
  | _, .empty => ""
  | _, .snoc pieces piece => pieces.text options ++ piece.text options
  | _, .operand concat => concat.text options
  | _, .both operands concat => operands.lookaheads options ++ concat.text options
  | _, .single branch => branch.text options
  | _, .either alternatives branch =>
      alternatives.text options ++ "|" ++ branch.text options

/-- Every operand of a branch as something that is only looked at. -/
def lookaheads (options : Options) : {rank : Rank} → Sketch rank → String
  | _, .operand concat => "(?=" ++ concat.text options ++ ")"
  | _, .both operands concat =>
      operands.lookaheads options ++ "(?=" ++ concat.text options ++ ")"
  | _, _ => ""

/-- The leading stretches of a concatenation, the longest first and the empty one
last. -/
def stretches (options : Options) : {rank : Rank} → Sketch rank → String
  | _, .snoc pieces piece =>
      pieces.text options ++ piece.text options ++ "|" ++ pieces.stretches options
  | _, _ => ""

end

/-- A sketch that is written in four ways and has one translation. -/
example :
    let digits : Sketch .piece := .repeated (.charClass ⟨.digit, false⟩) .plus
    let sketch : Sketch .pattern :=
      .single (.operand (.snoc .empty (.asserted digits .ahead)))
    [Magicness.veryMagic, .magic, .nonMagic, .veryNonMagic].map (sketch.print ·) =
        ["\\d+@=", "\\d\\+\\@=", "\\d\\+\\@=", "\\d\\+\\@="] ∧
      sketch.text {} = "(?=[0-9]+)" := by
  decide +kernel

end Sketch

end VimPattern
