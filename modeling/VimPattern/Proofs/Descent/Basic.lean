/-
Module: VimPattern.Proofs.Descent.Basic
Purpose: Trees grown by recursive descent, with one token of lookahead.
Main exports:
  Loop, Loop.Carry, Loop.goesOn, Ledger, Parser, Descent, Descent.advance, Descent.pattern,
  Descent.piece, Descent.round, Descent.iterate, Descent.parse
-/
import VimPattern.Proofs.Scan.Calls
import VimPattern.Tree.Growth

namespace VimPattern

/-!
The other way to a tree is one function for each rank of the grammar.  Each of them goes down to
the ranks below, and takes the token that is ahead when it is its own.  It asks a reader for the
next one then, so that tokens are read as they are taken.

```
pattern := branch (ALTERNATIVE branch)*
branch  := concat (CONJUNCTION concat)*
concat  := piece*
piece   := atom (QUANTIFIER | ASSERTION)*
```

Nothing in this shape says that the descent comes to an end: a branch may take no token at all,
and a loop goes on for as long as it likes what is ahead.  So a descent is followed up to a limit
on how deep calls are nested, where a loop calls itself for the rounds that are left.  `none`
stands for a descent that goes beyond the limit, as one that went on forever would do with every
limit.  What the functions took on the way is kept in a ledger.
-/

/-- The loops of the descent. -/
inductive Loop where
  /-- The alternatives of a pattern behind the first one. -/
  | alternatives
  /-- The operands of a branch behind the first one. -/
  | operands
  /-- The pieces of a concatenation. -/
  | pieces
  /-- What follows the atom of a piece. -/
  | suffixes
  /-- The members of a collection. -/
  | members
  /-- The pieces of an optional sequence. -/
  | sequence
deriving Repr, DecidableEq

namespace Loop

/-- What a round of a loop hands on to the next one. -/
@[reducible] def Carry : Loop → Type
  | .alternatives => Tree .pattern
  | .operands => Tree .branch
  | .pieces => Tree .concat × Place
  | .suffixes => Tree .piece
  | .members => List Token
  | .sequence => Tree .concat

/-- There is another round with this token ahead, or at the end of the pattern. -/
def goesOn : Loop → Option Token → Bool
  | .alternatives, some token => token.kind == .alternative
  | .operands, some token => token.kind == .conjunction
  | .pieces, ahead => !Growth.endsOperand ahead
  | .suffixes, some token => token.kind == .quantifier || token.kind == .assertion
  | .members, some token => token.kind == .literal
  | .sequence, some token => token.kind != .optionalClose
  | _, none => false

end Loop

/-- What a descent has taken down about itself. -/
structure Ledger where
  /-- What was ahead at each advance, the first one first. -/
  advances : List (Option Token) := []
  /-- How many advances there were in each call for a piece that was successful. -/
  pieces : List Nat := []
  /-- How many advances there were in each round of a loop that was completed. -/
  rounds : List (Loop × Nat) := []
deriving Repr, DecidableEq

/-- The state of a descent. -/
structure Parser where
  reader : Reader
  /-- The token ahead.  At the end there is none, nor is there before the first advance. -/
  lookahead : Option Token := none
  /-- The number of open groups. -/
  depth : Nat := 0
  /-- A dollar anchors at the end of an alternative outside all groups. -/
  dollarEnds : Bool := false
  /-- The tokens that the reader has answered with. -/
  read : List Token := []
  ledger : Ledger := {}
deriving Repr, DecidableEq

/-- The state before anything of the pattern has been read. -/
def Parser.start (level : Magicness) (pattern : String) : Parser :=
  { reader := .start level pattern }

/-- The reader has been asked for another token, which is taken down with what was ahead. -/
def Parser.asked (parser : Parser) : Parser :=
  { parser with
    reader := parser.reader.next.after
    ledger.advances := parser.ledger.advances ++ [parser.lookahead] }

/-- A descent changes the state, and comes to a value or to the cause of a failure, or has no
result. -/
abbrev Descent := ExceptT Cause (StateT Parser Option)

namespace Descent

/-- What a descent comes to from a state. -/
def run {α : Type} (descent : Descent α) (parser : Parser) :
    Option (Except Cause α × Parser) :=
  descent parser

/-- Let the reader answer with the next token.  The one that has been ahead is handed over. -/
def advance : Descent (Option Token) := fun parser =>
  match parser.reader.next.answer with
  | .token token =>
      some (.ok parser.lookahead,
        { parser.asked with
          lookahead := some token
          read := parser.read ++ [token] })
  | .ended _ _ => some (.ok parser.lookahead, { parser.asked with lookahead := none })
  | .error error => some (.error (.scan error), parser.asked)
  | .torn => none

/-- Fail with this error. -/
def refuse {α : Type} (error : ParseError) : Descent α :=
  throw (.parse error)

/-- Fail over what is ahead. -/
def unexpected {α : Type} : Option Token → Descent α
  | some token => refuse (.unexpectedToken token.raw token.position)
  | none => do refuse (.unexpectedEnd (← get).reader.position)

/-- Take the token ahead.  At the end there is none to be taken. -/
def take : Descent Token := do
  match ← advance with
  | some token => return token
  | none => unexpected none

/-- Take the token ahead if it is of this kind, and fail if it is not. -/
def expect (kind : Kind) (fail : Option Token → Descent Token) : Descent Token := do
  let ahead := (← get).lookahead
  if ahead.map Token.kind = some kind then take else fail ahead

/-- Whether a dollar anchors depends on what is ahead. -/
def dollar (token : Token) : Descent (Tree .atom) := do
  let parser ← get
  let ends := parser.depth == 0 && Growth.endsAlternative parser.lookahead
  set { parser with dollarEnds := parser.dollarEnds || ends }
  return .anchor token (Growth.dollarPlace parser.lookahead)

/-- How many advances there have been. -/
def advances : Descent Nat := do
  return (← get).ledger.advances.length

/-- Take down how many advances there were in a call for a piece. -/
def noteWhole (count : Nat) : Descent Unit :=
  modify fun parser =>
    { parser with ledger.pieces := parser.ledger.pieces ++ [count] }

/-- Take down how many advances there were in a round of a loop. -/
def noteRound (loop : Loop) (count : Nat) : Descent Unit :=
  modify fun parser =>
    { parser with ledger.rounds := parser.ledger.rounds ++ [(loop, count)] }

/-- The calls are nested deeper than the limit. -/
def beyond {α : Type} : Descent α := fun _ => none

mutual

/-- One alternative, and more of them behind separators. -/
def pattern : Nat → Descent (Tree .pattern)
  | 0 => beyond
  | limit + 1 => do
      let first ← branch limit
      iterate limit .alternatives (.single first)

/-- One operand, and more of them behind separators. -/
def branch : Nat → Descent (Tree .branch)
  | 0 => beyond
  | limit + 1 => do
      let first ← concat limit
      iterate limit .operands (.operand first)

/-- As many pieces as there are. -/
def concat : Nat → Descent (Tree .concat)
  | 0 => beyond
  | limit + 1 => do
      let (pieces, _) ← iterate limit .pieces (.empty, .edge)
      return pieces

/-- An atom with what follows it.  A caret at its start would be at this place. -/
def piece : Nat → Place → Descent (Tree .piece)
  | 0, _ => beyond
  | limit + 1, place => do
      let before ← advances
      let core ← atom limit place
      let piece ← iterate limit .suffixes (.bare core)
      noteWhole ((← advances) - before)
      return piece

/-- What a piece starts with. -/
def atom : Nat → Place → Descent (Tree .atom)
  | 0, _ => beyond
  | limit + 1, place => do
      let token ← take
      match token.kind with
      | .literal => return .literal token
      | .caret => return .anchor token place
      | .dollar => dollar token
      | .groupOpen => group limit token
      | .collectionOpen => collection limit token
      | .optionalOpen => optional limit token
      | .quantifier | .assertion => refuse (.missingOperand token.raw token.position)
      | .groupClose => refuse (.unexpectedGroupEnd token.position)
      | .conjunction | .alternative | .collectionClose | .optionalClose =>
          unexpected (some token)

/-- A group behind its opening. -/
def group : Nat → Token → Descent (Tree .atom)
  | 0, _ => beyond
  | limit + 1, opener => do
      modify fun parser => { parser with depth := parser.depth + 1 }
      let body ← pattern limit
      let closer ← expect .groupClose fun _ => refuse (.unclosedGroup opener.position)
      modify fun parser => { parser with depth := parser.depth - 1 }
      return .group opener body closer

/-- A collection behind its opening. -/
def collection : Nat → Token → Descent (Tree .atom)
  | 0, _ => beyond
  | limit + 1, opener => do
      let members ← iterate limit .members []
      let closer ← expect .collectionClose unexpected
      return .collection opener members closer

/-- An optional sequence behind its opening. -/
def optional : Nat → Token → Descent (Tree .atom)
  | 0, _ => beyond
  | limit + 1, opener => do
      let pieces ← iterate limit .sequence .empty
      let closer ← expect .optionalClose unexpected
      match pieces with
      | .empty => refuse (.emptyOptionalMatch opener.position)
      | pieces => return .optional opener pieces closer

/-- One round of a loop. -/
def round : Nat → (loop : Loop) → loop.Carry → Descent loop.Carry
  | 0, _, _ => beyond
  | limit + 1, .alternatives, alternatives => do
      let separator ← take
      return .either alternatives separator (← branch limit)
  | limit + 1, .operands, operands => do
      let separator ← take
      return .both operands separator (← concat limit)
  | limit + 1, .pieces, (pieces, place) => do
      let ahead := (← get).lookahead
      let piece ← piece limit place
      return (.snoc pieces piece,
        if ahead.any Token.isLineBreak then .besideBreak else .inside)
  | _ + 1, .suffixes, piece => do
      let suffix ← take
      match suffix.kind, piece with
      | .assertion, piece => return .asserted piece suffix
      | _, .bare atom => return .quantified atom suffix
      | _, _ => refuse (.nestedQuantifier suffix.raw suffix.position)
  | _ + 1, .members, members => do
      let member ← take
      return members ++ [member]
  | limit + 1, .sequence, pieces => do
      let piece ← piece limit .inside
      return .snoc pieces piece

/-- Rounds of a loop for as long as it goes on. -/
def iterate : Nat → (loop : Loop) → loop.Carry → Descent loop.Carry
  | 0, _, _ => beyond
  | limit + 1, loop, carry => do
      if loop.goesOn (← get).lookahead then
        let before ← advances
        let next ← round limit loop carry
        noteRound loop ((← advances) - before)
        iterate limit loop next
      else return carry

end

/-- A whole pattern.  The first advance brings its first token ahead.  Calls are nested up to the
limit. -/
def parse (limit : Nat) : Descent (Tree .pattern) := do
  let _ ← advance
  let tree ← pattern limit
  match (← get).lookahead with
  | none => return tree
  | some token =>
      match token.kind with
      | .groupClose => refuse (.unexpectedGroupEnd token.position)
      | _ => unexpected (some token)

end Descent

end VimPattern
