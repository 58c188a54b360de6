/-
Module: VimPattern.CharClass
Purpose: The one-letter character classes and their target text.
Main exports:
  ClassSet, CharClass, CharClass.ofLetter?, CharClass.letter, CharClass.body,
  CharClass.text, UnknownClass, classText
-/
import VimPattern.Options

namespace VimPattern

/-!
A class letter names a set of characters; its upper-case form names a related
set.  For the nine fixed sets the upper-case form is the complement, which still
refuses line breaks.  For the four sets the options describe it is the same set
without the digits.
-/

/-- The set of characters a class letter is about, whichever case it has. -/
inductive ClassSet where
  /-- Blanks: the letter `s`. -/
  | blank
  /-- Decimal digits: the letter `d`. -/
  | digit
  /-- Hexadecimal digits: the letter `x`. -/
  | hexDigit
  /-- Octal digits: the letter `o`. -/
  | octalDigit
  /-- Word characters: the letter `w`. -/
  | word
  /-- First characters of a word: the letter `h`. -/
  | headOfWord
  /-- Letters: the letter `a`. -/
  | alphabetic
  /-- Small letters: the letter `l`. -/
  | lowercase
  /-- Capital letters: the letter `u`. -/
  | uppercase
  /-- Identifier characters, set by the options: the letter `i`. -/
  | identifier
  /-- Keyword characters, set by the options: the letter `k`. -/
  | keyword
  /-- File name characters, set by the options: the letter `f`. -/
  | fileName
  /-- Printable characters, set by the options: the letter `p`. -/
  | printable
deriving Repr, Inhabited, DecidableEq

namespace ClassSet

/-- Every set, in the order of declaration. -/
def all : List ClassSet :=
  [.blank, .digit, .hexDigit, .octalDigit, .word, .headOfWord, .alphabetic,
    .lowercase, .uppercase, .identifier, .keyword, .fileName, .printable]

/-- The small letter of a set. -/
def letter : ClassSet → Char
  | .blank => 's'
  | .digit => 'd'
  | .hexDigit => 'x'
  | .octalDigit => 'o'
  | .word => 'w'
  | .headOfWord => 'h'
  | .alphabetic => 'a'
  | .lowercase => 'l'
  | .uppercase => 'u'
  | .identifier => 'i'
  | .keyword => 'k'
  | .fileName => 'f'
  | .printable => 'p'

/-- The members as the body of a bracket expression; the sets that the options
describe come without their digits. -/
def members (options : Options) : ClassSet → String
  | .blank => " \\t"
  | .digit => "0-9"
  | .hexDigit => "0-9A-Fa-f"
  | .octalDigit => "0-7"
  | .word => "0-9A-Za-z_"
  | .headOfWord => "A-Za-z_"
  | .alphabetic => "A-Za-z"
  | .lowercase => "a-z"
  | .uppercase => "A-Z"
  | .identifier => options.identChars
  | .keyword => options.keywordChars
  | .fileName => options.fileNameChars
  | .printable => options.printableChars

/-- The options say which characters are members. -/
def isConfigured : ClassSet → Bool
  | .identifier | .keyword | .fileName | .printable => true
  | _ => false

end ClassSet

/-- A class letter: a set of characters and the case the letter is written in. -/
structure CharClass where
  set : ClassSet
  /-- The letter is a capital one. -/
  capital : Bool
deriving Repr, Inhabited, DecidableEq

namespace CharClass

/-- The letter a class is written with. -/
def letter (charClass : CharClass) : Char :=
  if charClass.capital then charClass.set.letter.toUpper else charClass.set.letter

/-- The class a letter stands for. -/
def ofLetter? (letter : Char) : Option CharClass :=
  match ClassSet.all.find? fun set => set.letter == letter.toLower with
  | some set => some { set := set, capital := letter.isUpper }
  | none => none

/-- The class as the body of a bracket expression. -/
def body (options : Options) (charClass : CharClass) : String :=
  let members := charClass.set.members options
  match charClass.set.isConfigured, charClass.capital with
  | true, true => members
  | true, false => members ++ "0-9"
  | false, true => "^\\r\\n" ++ members
  | false, false => members

/-- The class as an atom, with a line break as an alternative if it is asked
for. -/
def text (options : Options) (charClass : CharClass) (withBreak : Bool) : String :=
  let brackets := "[" ++ charClass.body options ++ "]"
  if withBreak then "(?:" ++ brackets ++ "|" ++ options.newLine ++ ")" else brackets

@[simp] theorem ofLetter?_letter (charClass : CharClass) :
    ofLetter? charClass.letter = some charClass := by
  rcases charClass with ⟨set, capital⟩
  cases set <;> cases capital <;> decide

end CharClass

/-- A letter that names no character class. -/
structure UnknownClass where
  letter : Char
deriving Repr, Inhabited, DecidableEq

/-- The wording of the error. -/
def UnknownClass.message (unknown : UnknownClass) : String :=
  "unknown character class '\\" ++ String.singleton unknown.letter ++ "'"

/-- The target text of the class with this letter. -/
def classText (options : Options) (letter : Char) (withBreak : Bool) :
    Except UnknownClass String :=
  match CharClass.ofLetter? letter with
  | some charClass => .ok (charClass.text options withBreak)
  | none => .error { letter := letter }

end VimPattern
