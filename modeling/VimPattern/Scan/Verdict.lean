/-
Module: VimPattern.Scan.Verdict
Purpose: The rules that read one item of a pattern.
Main exports:
  Fault, Verdict, Operator.read?, Verdict.inCollection, Verdict.outside,
  Context.verdict
-/
import VimPattern.Operator
import VimPattern.Scan.Context

namespace VimPattern

/-!
A verdict is about the character at one place and the text after it.  Outside a
collection the rules come in two families.  Operators are read the same way in
both of their spellings, and only the level decides which spelling it is.
Everything else that a backslash introduces is independent of the level.  A
character that no rule claims stands for itself.
-/

/-- Why an item that is complete cannot be used. -/
inductive Fault where
  /-- A named class with a name that is not known. -/
  | unknownClass (name : String)
  /-- A number that no character has. -/
  | invalidCodePoint
deriving Repr, DecidableEq

/-- What the rules say about the text at one place.  `extra` counts the
characters of the item after its first one. -/
inductive Verdict where
  /-- The item has this content. -/
  | item (content : Content) (extra : Nat)
  /-- The item is complete but cannot be used. -/
  | fault (fault : Fault) (extra : Nat)
  /-- No rule reads an item here. -/
  | noRule
deriving Repr, DecidableEq

namespace Verdict

/-- An item that is a token. -/
def lexeme (lexeme : Lexeme) (extra : Nat) : Verdict :=
  .item (.lexeme lexeme) extra

/-- An item that leaves no token. -/
def mark (mark : Mark) (extra : Nat) : Verdict :=
  .item (.mark mark) extra

/-- An atom outside collections. -/
def literal (literal : Literal) (extra : Nat) : Verdict :=
  lexeme (.literal literal) extra

/-- An item inside a collection. -/
def member (member : Member) (extra : Nat) : Verdict :=
  lexeme (.member member) extra

end Verdict

/-! ### Openings, assertions and positions -/

/-- What follows the bracket that opens a collection, and how many characters
it takes: a caret, and then a closing bracket that is a member. -/
def Collection.readOpening (withBreak : Bool) (text : List Char) :
    Collection.Opening × Nat :=
  let negated := text.head? == some '^'
  let afterCaret := if negated then text.drop 1 else text
  let leadingBracket := afterCaret.head? == some ']'
  ({ withBreak := withBreak
     negated := negated
     leadingBracket := leadingBracket },
    (if negated then 1 else 0) + (if leadingBracket then 1 else 0))

/-- The assertion that a text after the at sign starts with, and how many
characters it takes.  A look behind may say how far to look; the number is of
no use in the target. -/
def Assertion.read? (text : List Char) : Option (Assertion × Nat) :=
  match text with
  | '=' :: _ => some (.ahead, 1)
  | '!' :: _ => some (.notAhead, 1)
  | '>' :: _ => some (.atomic, 1)
  | _ =>
      let distance := text.takeWhile Char.isDigit
      match text.dropWhile Char.isDigit with
      | '<' :: '=' :: _ => some (.behind, distance.length + 2)
      | '<' :: '!' :: _ => some (.notBehind, distance.length + 2)
      | _ => none

/-- The length of a mark name, or of a line or column number, that a text starts
with. -/
def markOrColumnLength? (text : List Char) : Option Nat :=
  match text with
  | '\x27' :: markName :: _ => if markName = '\n' then none else some 2
  | _ =>
      let digits := text.takeWhile Char.isDigit
      match text.dropWhile Char.isDigit with
      | unit :: _ =>
          if !digits.isEmpty && unit ∈ ['l', 'c', 'v'] then some (digits.length + 1)
          else none
      | [] => none

/-- The length of an editor position that a text starts with: the selection, the
cursor, or a mark, line or column, which may be asked to lie before or
behind. -/
def editorPositionLength? (text : List Char) : Option Nat :=
  match text with
  | 'V' :: _ => some 1
  | '#' :: _ => some 1
  | '<' :: place => (markOrColumnLength? place).map (· + 1)
  | '>' :: place => (markOrColumnLength? place).map (· + 1)
  | place => markOrColumnLength? place

/-! ### Operators -/

/-- Read an operator, given the text after its character, with the number of
characters that it takes from that text.  Braces and assertions may turn out not
to be complete.  A bare star stands for itself where it has nothing to
repeat. -/
def Operator.read? (context : Context) (escaped : Bool) (text : List Char) :
    Operator → Option (Content × Nat)
  | .anyChar => some (.lexeme (.literal .anyChar), 0)
  | .star =>
      if context.starIsLiteral && !escaped then
        some (.lexeme (.literal (.plain '*')), 0)
      else some (.lexeme (.quantifier .star), 0)
  | .lastSubstitute => some (.mark .lastSubstitute, 0)
  | .collection =>
      let (opening, taken) := Collection.readOpening false text
      some (.lexeme (.collectionOpen opening), taken)
  | .dollar => some (.lexeme .dollar, 0)
  | .caret => some (.lexeme .caret, 0)
  | .groupOpen =>
      let number := context.tally.plainGroups + 1
      some (.lexeme (.groupOpen (.capturing number)), 0)
  | .groupClose => some (.lexeme .groupClose, 0)
  | .alternative => some (.lexeme .alternative, 0)
  | .conjunction => some (.lexeme .conjunction, 0)
  | .plus => some (.lexeme (.quantifier .plus), 0)
  | .question | .equals => some (.lexeme (.quantifier .optional), 0)
  | .braces =>
      (Braces.read? escaped text).map fun (count, taken) =>
        (.lexeme (.quantifier (.counted count)), taken)
  | .assertion =>
      (Assertion.read? text).map fun (test, taken) =>
        (.lexeme (.assertion test), taken)
  | .wordStart => some (.lexeme (.literal .wordStart), 0)
  | .wordEnd => some (.lexeme (.literal .wordEnd), 0)

namespace Verdict

/-! ### Items after a backslash -/

/-- A numeric character with the number of characters after its first one. -/
def numeric (found : Option Char) (extra : Nat) (wrap : Char → Lexeme) : Verdict :=
  match found with
  | some char => lexeme (wrap char) extra
  | none => .fault .invalidCodePoint extra

/-- The item that starts with a backslash and an underscore: a class, an anchor
or a collection that also knows about line breaks. -/
def afterUnderscore : List Char → Verdict
  | '^' :: _ => literal .lineStart 2
  | '$' :: _ => literal .lineEnd 2
  | '.' :: _ => literal .anyOrBreak 2
  | '[' :: text =>
      let (opening, taken) := Collection.readOpening true text
      lexeme (.collectionOpen opening) (taken + 2)
  | letter :: _ =>
      match CharClass.ofLetter? letter with
      | some charClass => literal (.charClass charClass true) 2
      | none => literal (.escaped '_') 1
  | [] => literal (.escaped '_') 1

/-- The item that starts with a backslash and the letter `z`: a limit of the
match, or an external group or reference. -/
def afterZ (context : Context) : List Char → Verdict
  | 's' :: _ => literal (.matchStart !context.tally.matchStart) 2
  | 'e' :: _ => literal (.matchEnd !context.tally.matchEnd) 2
  | '(' :: _ =>
      lexeme (.groupOpen (.external (context.tally.externalGroups + 1))) 2
  | digit :: _ =>
      if '1' ≤ digit ∧ digit ≤ '9' then
        literal (.externalReference (digit.toNat - 48)) 2
      else literal (.escaped 'z') 1
  | [] => literal (.escaped 'z') 1

/-- The item that starts with a backslash and a percent sign. -/
def afterPercent (text : List Char) : Verdict :=
  match text with
  | '^' :: _ => literal .textStart 2
  | '$' :: _ => literal .textEnd 2
  | '(' :: _ => lexeme (.groupOpen .nonCapturing) 2
  | '[' :: _ => lexeme .optionalOpen 2
  | _ =>
      match editorPositionLength? text with
      | some taken => mark .editorPosition (taken + 1)
      | none =>
          match CodePoint.read? text with
          | some (found, taken) =>
              numeric found (taken + 1) fun char => .literal (.codePoint char)
          | none => literal (.escaped '%') 1

/-- The item that starts with a backslash and a character that is no operator
here. -/
def afterBackslash (context : Context) (char : Char) (text : List Char) :
    Verdict :=
  match Magicness.ofSwitch? char with
  | some level => mark (.switch level) 1
  | none =>
      match CharClass.ofLetter? char with
      | some charClass => literal (.charClass charClass false) 1
      | none =>
          match char with
          | 'n' => literal .lineBreak 1
          | '_' => afterUnderscore text
          | 'z' => afterZ context text
          | '%' => afterPercent text
          | 'Z' => mark .combining 1
          | 'c' => mark (.caseMarker true) 1
          | 'C' => mark (.caseMarker false) 1
          | _ =>
              if '1' ≤ char ∧ char ≤ '9' then
                literal (.backReference (char.toNat - 48)) 1
              else literal (.escaped char) 1

/-- The item that starts with a backslash.  An operator that is not complete, or
that this level spells bare, is an escaped character. -/
def escaped (context : Context) : List Char → Verdict
  | [] => .noRule
  | char :: text =>
      match Operator.ofChar? char with
      | some operator =>
          if operator.isActive context.magicness true then
            match operator.read? context true text with
            | some (content, taken) => .item content (taken + 1)
            | none => literal (.escaped char) 1
          else literal (.escaped char) 1
      | none => afterBackslash context char text

/-! ### Items without a backslash -/

/-- The item that starts with a bare character.  An operator that is not
complete cannot be read at all. -/
def bare (context : Context) (char : Char) (text : List Char) : Verdict :=
  match Operator.ofChar? char with
  | some operator =>
      if operator.isActive context.magicness false then
        match operator.read? context false text with
        | some (content, taken) => .item content taken
        | none => .noRule
      else literal (.plain char) 0
  | none =>
      match char, text with
      | '%', '(' :: _ =>
          if context.magicness = .veryMagic then
            lexeme (.groupOpen .nonCapturing) 1
          else literal (.plain '%') 0
      | '%', '[' :: _ =>
          if context.magicness = .veryMagic then lexeme .optionalOpen 1
          else literal (.plain '%') 0
      | ']', _ =>
          if context.region = .optionalMatch then lexeme .optionalClose 0
          else literal (.plain ']') 0
      | _, _ => literal (.plain char) 0

/-- The item outside collections that starts with this character. -/
def outside (context : Context) (char : Char) (text : List Char) : Verdict :=
  if char = '\\' then escaped context text else bare context char text

/-! ### Items inside a collection -/

/-- The item inside a collection that starts with a backslash.  Numbers may be
written with or without a percent sign. -/
def backslashMember (text : List Char) : Verdict :=
  let number := if text.head? == some '%' then text.drop 1 else text
  let percent := if text.head? == some '%' then 1 else 0
  match CodePoint.read? number with
  | some (found, taken) =>
      numeric found (percent + taken) fun char => .member (.codePoint char)
  | none =>
      match text with
      | char :: _ =>
          if char ∈ ['r', 't', 'n', '\\', ']', '^', '-', 'e', 'b'] then
            member (.escaped char) 1
          else member .backslash 0
      | [] => member .backslash 0

/-- The name that stands between `[:` and `:]` in a text after the bracket. -/
def className? : List Char → Option (List Char)
  | ':' :: text =>
      let name := text.takeWhile Char.isLower
      match text.dropWhile Char.isLower with
      | ':' :: ']' :: _ => if name.isEmpty then none else some name
      | _ => none
  | _ => none

/-- The item inside a collection that starts with an opening bracket. -/
def bracketMember (text : List Char) : Verdict :=
  match className? text with
  | some name =>
      match NamedClass.ofName? (String.ofList name) with
      | some namedClass => member (.named namedClass) (name.length + 3)
      | none => .fault (.unknownClass (String.ofList name)) (name.length + 3)
  | none =>
      match text with
      | opening :: char :: closing :: ']' :: _ =>
          if opening ∈ ['=', '.'] ∧ closing ∈ ['=', '.'] ∧ char ≠ ']' then
            member (.equivalent char) 4
          else member (.plain '[') 0
      | _ => member (.plain '[') 0

/-- The item inside a collection that starts with this character. -/
def inCollection (withBreak : Bool) (char : Char) (text : List Char) : Verdict :=
  match char with
  | ']' => lexeme (.collectionClose withBreak) 0
  | '[' => bracketMember text
  | '\\' => backslashMember text
  | '-' =>
      if text.head? == some '-' then member .dashPair 1 else member (.plain '-') 0
  | _ => member (.plain char) 0

end Verdict

/-- The verdict on the character at one place and the text after it. -/
def Context.verdict (context : Context) (char : Char) (text : List Char) :
    Verdict :=
  match context.enclosing with
  | { construct := .collection withBreak, position := _ } :: _ =>
      Verdict.inCollection withBreak char text
  | _ => Verdict.outside context char text

end VimPattern
