/-
Module: VimPattern.Tree.Growth
Purpose: Trees grown from the tokens of a pattern, one token at a time.
Main exports:
  ParseError, ParseError.message, Draft, Scope, Growth, Growth.step,
  Growth.finish, Grown, Cause, Failure, Growth.run, Tree.ofScan
-/
import VimPattern.Scan.Basic
import VimPattern.Tree.Basic

namespace VimPattern

/-!
The open constructs form a stack, and every token acts on the innermost of them:
it adds a piece, changes the last piece, separates operands or alternatives, or
opens or closes a construct.  Whether a `$` anchors depends on the token after
it, so that a step knows one token more than the one it takes.

A pattern can be wrong in two ways at once, and the order in which errors are
reported follows from that extra token.  It has to be read before the step is
taken, so an unreadable item right after a misplaced token is reported first.
A token that cannot go on at all where a construct has to end is the exception:
it is refused before anything after it is read.
-/

/-- Why the tokens of a pattern are no pattern. -/
inductive ParseError where
  /-- A group is still open where it would have to end. -/
  | unclosedGroup (position : Nat)
  /-- A group is closed that was not opened. -/
  | unexpectedGroupEnd (position : Nat)
  /-- A quantifier or an assertion has no piece before it. -/
  | missingOperand (token : String) (position : Nat)
  /-- A quantifier follows a piece that is quantified or asserted already. -/
  | nestedQuantifier (token : String) (position : Nat)
  /-- An optional sequence has no pieces. -/
  | emptyOptionalMatch (position : Nat)
  /-- A token cannot stand where it is. -/
  | unexpectedToken (token : String) (position : Nat)
  /-- The pattern is over inside a construct. -/
  | unexpectedEnd (position : Nat)
deriving Repr, DecidableEq

namespace ParseError

/-- The wording of the error. -/
def message : ParseError → String
  | .unclosedGroup position =>
      "group opened at byte " ++ toString position ++ " is never closed"
  | .unexpectedGroupEnd position =>
      "group close at byte " ++ toString position ++ " has no matching open"
  | .missingOperand token position =>
      "'" ++ token ++ "' at byte " ++ toString position ++
        " has nothing to apply to"
  | .nestedQuantifier token position =>
      "quantifier '" ++ token ++ "' at byte " ++ toString position ++
        " follows another quantifier"
  | .emptyOptionalMatch position =>
      "empty optional sequence at byte " ++ toString position
  | .unexpectedToken token position =>
      "unexpected '" ++ token ++ "' at byte " ++ toString position
  | .unexpectedEnd position =>
      "unexpected 'end of pattern' at byte " ++ toString position

end ParseError

/-! ### Drafts -/

/-- A pattern whose last operand is still growing. -/
structure Draft where
  /-- The alternatives before the current one, and the separator behind them. -/
  alternatives : Option (Tree .pattern × Token) := none
  /-- The operands of the current alternative before the current one, and the
  separator behind them. -/
  operands : Option (Tree .branch × Token) := none
  /-- The current operand. -/
  pieces : Tree .concat := .empty

namespace Draft

/-- The current alternative, as far as it goes. -/
def branch (draft : Draft) : Tree .branch :=
  match draft.operands with
  | none => .operand draft.pieces
  | some (operands, separator) => .both operands separator draft.pieces

/-- The pattern, as far as it goes. -/
def pattern (draft : Draft) : Tree .pattern :=
  match draft.alternatives with
  | none => .single draft.branch
  | some (alternatives, separator) => .either alternatives separator draft.branch

/-- Begin another operand of the current alternative. -/
def conjoin (draft : Draft) (separator : Token) : Draft :=
  { draft with
    operands := some (draft.branch, separator)
    pieces := .empty }

/-- Begin another alternative. -/
def alternate (draft : Draft) (separator : Token) : Draft :=
  { alternatives := some (draft.pattern, separator) }

end Draft

/-- A group or an optional sequence that is still open. -/
inductive Scope where
  | group (opener : Token) (draft : Draft)
  | optional (opener : Token) (pieces : Tree .concat)

/-- A pattern of which some tokens have been taken. -/
structure Growth where
  /-- What stands outside all groups and optional sequences. -/
  base : Draft := {}
  /-- The open groups and optional sequences, the innermost first. -/
  scopes : List Scope := []
  /-- The opening and the members of a collection that is still open. -/
  collection : Option (Token × List Token) := none
  /-- A dollar anchors at the end of an alternative outside all groups. -/
  dollarEnds : Bool := false

/-- A step that cannot be taken. -/
structure Refusal where
  cause : ParseError
  /-- The token is refused before the one after it is read. -/
  early : Bool := false

namespace Growth

/-- The pieces that the next one is going to join. -/
def pieces (growth : Growth) : Tree .concat :=
  match growth.scopes with
  | [] => growth.base.pieces
  | .group _ draft :: _ => draft.pieces
  | .optional _ pieces :: _ => pieces

/-- Replace the pieces of the innermost construct. -/
def withPieces (growth : Growth) (pieces : Tree .concat) : Growth :=
  match growth.scopes with
  | [] => { growth with base := { growth.base with pieces := pieces } }
  | .group opener draft :: outer =>
      { growth with scopes := .group opener { draft with pieces := pieces } :: outer }
  | .optional opener _ :: outer =>
      { growth with scopes := .optional opener pieces :: outer }

/-- Add an atom as a new piece. -/
def add (growth : Growth) (atom : Tree .atom) : Growth :=
  growth.withPieces (.snoc growth.pieces (.bare atom))

/-- No group is open. -/
def outsideGroups (growth : Growth) : Bool :=
  growth.scopes.all fun
    | .group _ _ => false
    | .optional _ _ => true

/-! ### Anchors -/

/-- The place of a caret, given the pieces before it.  In an optional sequence
nothing is at the edge. -/
def caretPlace (growth : Growth) : Place :=
  match growth.scopes, growth.pieces with
  | .optional _ _ :: _, _ => .inside
  | _, .empty => .edge
  | _, .snoc _ piece => if piece.startsWithBreak then .besideBreak else .inside

/-- The token ends the operand before it; so does the end of the pattern. -/
def endsOperand : Option Token → Bool
  | none => true
  | some token =>
      token.kind ∈
        [.alternative, .conjunction, .groupClose, .optionalClose]

/-- The place of a dollar, given the token after it. -/
def dollarPlace (following : Option Token) : Place :=
  match following with
  | none => .edge
  | some token =>
      if endsOperand (some token) then .edge
      else if token.isLineBreak then .besideBreak
      else .inside

/-- The token ends the alternative before it; so does the end of the pattern. -/
def endsAlternative : Option Token → Bool
  | none => true
  | some token => token.kind == .alternative

/-- Add a dollar. -/
def addDollar (growth : Growth) (token : Token) (following : Option Token) :
    Growth :=
  let ends := growth.outsideGroups && endsAlternative following
  { growth.add (.anchor token (dollarPlace following)) with
    dollarEnds := growth.dollarEnds || ends }

/-! ### Steps -/

/-- Put a quantifier behind the last piece. -/
def quantify (growth : Growth) (token : Token) : Except Refusal Growth :=
  match growth.pieces with
  | .empty =>
      .error { cause := .missingOperand token.raw token.position }
  | .snoc pieces (.bare atom) =>
      .ok (growth.withPieces (.snoc pieces (.quantified atom token)))
  | .snoc _ _ =>
      .error { cause := .nestedQuantifier token.raw token.position }

/-- Put an assertion behind the last piece. -/
def assert (growth : Growth) (token : Token) : Except Refusal Growth :=
  match growth.pieces with
  | .empty =>
      .error { cause := .missingOperand token.raw token.position }
  | .snoc pieces piece =>
      .ok (growth.withPieces (.snoc pieces (.asserted piece token)))

/-- Let a separator begin another operand or alternative of the innermost
construct.  An optional sequence has neither. -/
def separate (growth : Growth) (token : Token) (renew : Draft → Draft) :
    Except Refusal Growth :=
  match growth.scopes with
  | [] => .ok { growth with base := renew growth.base }
  | .group opener draft :: outer =>
      .ok { growth with scopes := .group opener (renew draft) :: outer }
  | .optional _ _ :: _ =>
      .error { cause := .unexpectedToken token.raw token.position }

/-- Close the innermost group.  Outside all constructs the token is refused at
once, since nothing may follow the pattern. -/
def closeGroup (growth : Growth) (token : Token) : Except Refusal Growth :=
  match growth.scopes with
  | .group opener draft :: outer =>
      .ok ({ growth with scopes := outer }.add (.group opener draft.pattern token))
  | .optional _ _ :: _ =>
      .error { cause := .unexpectedGroupEnd token.position }
  | [] =>
      .error
        { cause := .unexpectedGroupEnd token.position
          early := true }

/-- Close the innermost optional sequence, which must not be empty. -/
def closeOptional (growth : Growth) (token : Token) : Except Refusal Growth :=
  match growth.scopes with
  | .optional opener .empty :: _ =>
      .error { cause := .emptyOptionalMatch opener.position }
  | .optional opener pieces :: outer =>
      .ok ({ growth with scopes := outer }.add (.optional opener pieces token))
  | .group opener _ :: _ =>
      .error
        { cause := .unclosedGroup opener.position
          early := true }
  | [] =>
      .error
        { cause := .unexpectedToken token.raw token.position
          early := true }

/-- Take a token inside a collection. -/
def stepInCollection (growth : Growth) (opener : Token) (members : List Token)
    (token : Token) : Except Refusal Growth :=
  match token.kind with
  | .literal => .ok { growth with collection := some (opener, members ++ [token]) }
  | .collectionClose =>
      .ok
        ({ growth with collection := none }.add (.collection opener members token))
  | _ =>
      .error
        { cause := .unexpectedToken token.raw token.position
          early := true }

/-- Take a token outside collections. -/
def stepOutside (growth : Growth) (token : Token) (following : Option Token) :
    Except Refusal Growth :=
  match token.kind with
  | .literal => .ok (growth.add (.literal token))
  | .caret => .ok (growth.add (.anchor token growth.caretPlace))
  | .dollar => .ok (growth.addDollar token following)
  | .quantifier => growth.quantify token
  | .assertion => growth.assert token
  | .conjunction => growth.separate token fun draft => draft.conjoin token
  | .alternative => growth.separate token fun draft => draft.alternate token
  | .groupOpen => .ok { growth with scopes := .group token {} :: growth.scopes }
  | .groupClose => growth.closeGroup token
  | .collectionOpen => .ok { growth with collection := some (token, []) }
  | .collectionClose =>
      .error { cause := .unexpectedToken token.raw token.position }
  | .optionalOpen =>
      .ok { growth with scopes := .optional token .empty :: growth.scopes }
  | .optionalClose => growth.closeOptional token

/-- Take one token, given the one after it. -/
def step (growth : Growth) (token : Token) (following : Option Token) :
    Except Refusal Growth :=
  match growth.collection with
  | some (opener, members) => growth.stepInCollection opener members token
  | none => growth.stepOutside token following

/-- The tree of a pattern whose tokens have all been taken, if nothing is still
open. -/
def finish (growth : Growth) (position : Nat) :
    Except ParseError (Tree .pattern) :=
  match growth.collection, growth.scopes with
  | none, [] => .ok growth.base.pattern
  | none, .group opener _ :: _ => .error (.unclosedGroup opener.position)
  | _, _ => .error (.unexpectedEnd position)

end Growth

/-! ### Whole patterns -/

/-- Why a pattern cannot be converted. -/
inductive Cause where
  | scan (error : ScanError)
  | parse (error : ParseError)
deriving Repr, DecidableEq

/-- The wording of the cause. -/
def Cause.message : Cause → String
  | .scan error => error.message
  | .parse error => error.message

/-- A cause, and how many tokens had been read when it came up. -/
structure Failure where
  cause : Cause
  read : Nat
deriving Repr, DecidableEq

/-- The tree of a pattern with what else its tokens say. -/
structure Grown where
  tree : Tree .pattern
  /-- A dollar anchors at the end of an alternative outside all groups. -/
  dollarEnds : Bool
  /-- What reading the pattern has left behind. -/
  context : Context

namespace Growth

/-- Take all tokens that are left, having read this many before them.  `stop` is
the state at the end of the pattern, or the error that stopped the reading. -/
def run (stop : Except ScanError Terminus) (growth : Growth) (read : Nat) :
    List Token → Except Failure Grown
  | [] =>
      match stop with
      | .error error =>
          .error
            { cause := .scan error
              read := read }
      | .ok terminus =>
          match growth.finish terminus.position with
          | .ok tree =>
              .ok
                { tree := tree
                  dollarEnds := growth.dollarEnds
                  context := terminus.context }
          | .error error =>
              .error
                { cause := .parse error
                  read := read }
  | token :: others =>
      match growth.step token others.head? with
      | .ok after => run stop after (read + 1) others
      | .error refusal =>
          match refusal.early, others, stop with
          | true, _, _ =>
              .error
                { cause := .parse refusal.cause
                  read := read + 1 }
          | false, [], .error error =>
              .error
                { cause := .scan error
                  read := read + 1 }
          | false, others, _ =>
              .error
                { cause := .parse refusal.cause
                  read := read + 1 + (others.take 1).length }

end Growth

/-- The tree of a scanned pattern. -/
def Tree.ofScan (scan : Scan) : Except Failure Grown :=
  Growth.run scan.result {} 0 scan.tokens

end VimPattern
