/-
Module: VimPattern.Proofs.Wording.Assembly
Purpose: The target text of a pattern put together while its tokens are read.
Main exports:
  Rendered, Token.rendered, TextPiece, TextDraft, TextScope, TextGrowth,
  TextGrowth.step, TextGrowth.run, Translation, Pass, translate, convertInPasses
-/
import VimPattern.Conversion

namespace VimPattern

/-!
`convert` grows a tree that knows what every token means, and renders it when it is
complete.  A pattern can also be translated without a tree: each token brings its target
text with it, and the texts are put together as the tokens come.  Then it has to be known
beforehand whether groups are named, so that a pattern that turns out to need names is
translated once more from its start.

Here is that second way.  A step sees of a token its kind, its spelling, its place and its
level; what it keeps are texts, and besides them no more than the two facts about the last
piece that the rest of the grammar asks for.
-/

/-- A token that brings its target text along in place of its meaning. -/
structure Rendered where
  kind : Kind
  /-- The text of the token in the target. -/
  text : String
  /-- The text of the token as the pattern spells it. -/
  raw : String
  /-- The offset of the token in the pattern, in bytes. -/
  position : Nat
  /-- The level the token was read at. -/
  magicness : Magicness
deriving Repr, DecidableEq

/-- The token with its text in place of its meaning. -/
def Token.rendered (style : Style) (token : Token) : Rendered :=
  { kind := token.kind
    text := token.text style
    raw := token.raw
    position := token.position
    magicness := token.magicness }

namespace Rendered

/-- The token is spelled as a line break. -/
def isLineBreak (token : Rendered) : Bool :=
  token.raw == "\\n" || token.raw == "\n"

/-- The texts of several tokens in a row. -/
def textOf (tokens : List Rendered) : String :=
  String.join (tokens.map text)

/-- The texts of several tokens in a row, unless they are empty. -/
def partialText (tokens : List Rendered) : Option String :=
  let text := textOf tokens
  if text.isEmpty then none else some text

/-- What an anchor leaves in the target. -/
def anchorText (token : Rendered) : Place → String
  | .edge => token.text
  | .besideBreak => ""
  | .inside =>
      if token.magicness = .veryMagic then token.text
      else if token.kind = .caret then "\\^"
      else "\\$"

end Rendered

/-! ### Drafts -/

/-- The text of a piece, and what its neighbours may ask about it. -/
structure TextPiece where
  text : String
  /-- A quantifier or an assertion stands behind the atom. -/
  quantified : Bool := false
  /-- The first token of the piece is a line break. -/
  startsWithBreak : Bool

namespace TextPiece

/-- The text of pieces that stand in a row, the last of them first. -/
def joined : List TextPiece → String
  | [] => ""
  | piece :: before => joined before ++ piece.text

/-- Pieces as the atoms of an optional sequence, the last of them first. -/
def chain : List TextPiece → Compound
  | [] => .optionalChain []
  | piece :: before => (chain before).push piece.text

end TextPiece

/-- A pattern whose last operand is still growing, as texts. -/
structure TextDraft where
  /-- The alternatives before the current one. -/
  alternatives : List String := []
  /-- The operands of the current alternative before the current one. -/
  operands : Option Compound := none
  /-- The pieces of the current operand, the last of them first. -/
  pieces : List TextPiece := []

namespace TextDraft

/-- The current alternative, as far as it goes. -/
def branch (draft : TextDraft) : Compound :=
  match draft.operands with
  | none => .single (TextPiece.joined draft.pieces)
  | some operands => operands.push (TextPiece.joined draft.pieces)

/-- The pattern, as far as it goes. -/
def pattern (draft : TextDraft) : List String :=
  draft.alternatives ++ [draft.branch.render]

/-- The text of the pattern, as far as it goes. -/
def body (draft : TextDraft) : String :=
  "|".intercalate draft.pattern

/-- Begin another operand of the current alternative. -/
def conjoin (draft : TextDraft) : TextDraft :=
  { draft with
    operands := some draft.branch
    pieces := [] }

/-- Begin another alternative. -/
def alternate (draft : TextDraft) : TextDraft :=
  { alternatives := draft.pattern }

end TextDraft

/-- A group or an optional sequence that is still open, as texts. -/
inductive TextScope where
  | group (opener : Rendered) (draft : TextDraft)
  | optional (opener : Rendered) (pieces : List TextPiece)

/-- A pattern of which some tokens have been taken, as texts. -/
structure TextGrowth where
  /-- What stands outside all groups and optional sequences. -/
  base : TextDraft := {}
  /-- The open groups and optional sequences, the innermost first. -/
  scopes : List TextScope := []
  /-- The opening of a collection that is still open, and the text from there on. -/
  collection : Option (Rendered × String) := none
  /-- A dollar anchors at the end of an alternative outside all groups. -/
  dollarEnds : Bool := false

namespace TextGrowth

/-- The pieces that the next one is going to join. -/
def pieces (growth : TextGrowth) : List TextPiece :=
  match growth.scopes with
  | [] => growth.base.pieces
  | .group _ draft :: _ => draft.pieces
  | .optional _ pieces :: _ => pieces

/-- Replace the pieces of the innermost construct. -/
def withPieces (growth : TextGrowth) (pieces : List TextPiece) : TextGrowth :=
  match growth.scopes with
  | [] => { growth with base := { growth.base with pieces := pieces } }
  | .group opener draft :: outer =>
      { growth with scopes := .group opener { draft with pieces := pieces } :: outer }
  | .optional opener _ :: outer =>
      { growth with scopes := .optional opener pieces :: outer }

/-- Add the text of an atom as a new piece.  `first` is the token the atom starts with. -/
def add (growth : TextGrowth) (first : Rendered) (text : String) : TextGrowth :=
  growth.withPieces
    ({ text := text
       startsWithBreak := first.isLineBreak } :: growth.pieces)

/-- No group is open. -/
def outsideGroups (growth : TextGrowth) : Bool :=
  growth.scopes.all fun
    | .group _ _ => false
    | .optional _ _ => true

/-! ### Anchors -/

/-- The place of a caret, given the pieces before it. -/
def caretPlace (growth : TextGrowth) : Place :=
  match growth.scopes, growth.pieces with
  | .optional _ _ :: _, _ => .inside
  | _, [] => .edge
  | _, piece :: _ => if piece.startsWithBreak then .besideBreak else .inside

/-- The token ends the operand before it; so does the end of the pattern. -/
def endsOperand : Option Rendered → Bool
  | none => true
  | some token =>
      token.kind ∈
        [.alternative, .conjunction, .groupClose, .optionalClose]

/-- The place of a dollar, given the token after it. -/
def dollarPlace (following : Option Rendered) : Place :=
  match following with
  | none => .edge
  | some token =>
      if endsOperand (some token) then .edge
      else if token.isLineBreak then .besideBreak
      else .inside

/-- The token ends the alternative before it; so does the end of the pattern. -/
def endsAlternative : Option Rendered → Bool
  | none => true
  | some token => token.kind == .alternative

/-- Add a dollar. -/
def addDollar (growth : TextGrowth) (token : Rendered) (following : Option Rendered) :
    TextGrowth :=
  let ends := growth.outsideGroups && endsAlternative following
  { growth.add token (token.anchorText (dollarPlace following)) with
    dollarEnds := growth.dollarEnds || ends }

/-! ### Steps -/

/-- Put a quantifier behind the last piece. -/
def quantify (growth : TextGrowth) (token : Rendered) : Except Refusal TextGrowth :=
  match growth.pieces with
  | [] =>
      .error { cause := .missingOperand token.raw token.position }
  | piece :: before =>
      if piece.quantified then
        .error { cause := .nestedQuantifier token.raw token.position }
      else
        .ok
          (growth.withPieces
            ({ piece with
               text := piece.text ++ token.text
               quantified := true } :: before))

/-- Put an assertion around the last piece. -/
def assert (growth : TextGrowth) (token : Rendered) : Except Refusal TextGrowth :=
  match growth.pieces with
  | [] =>
      .error { cause := .missingOperand token.raw token.position }
  | piece :: before =>
      .ok
        (growth.withPieces
          ({ piece with
             text := token.text ++ piece.text ++ ")"
             quantified := true } :: before))

/-- Let a separator begin another operand or alternative of the innermost construct. -/
def separate (growth : TextGrowth) (token : Rendered) (renew : TextDraft → TextDraft) :
    Except Refusal TextGrowth :=
  match growth.scopes with
  | [] => .ok { growth with base := renew growth.base }
  | .group opener draft :: outer =>
      .ok { growth with scopes := .group opener (renew draft) :: outer }
  | .optional _ _ :: _ =>
      .error { cause := .unexpectedToken token.raw token.position }

/-- Close the innermost group. -/
def closeGroup (growth : TextGrowth) (token : Rendered) : Except Refusal TextGrowth :=
  match growth.scopes with
  | .group opener draft :: outer =>
      .ok
        ({ growth with scopes := outer }.add opener
          (opener.text ++ draft.body ++ token.text))
  | .optional _ _ :: _ =>
      .error { cause := .unexpectedGroupEnd token.position }
  | [] =>
      .error
        { cause := .unexpectedGroupEnd token.position
          early := true }

/-- Close the innermost optional sequence, which must not be empty. -/
def closeOptional (growth : TextGrowth) (token : Rendered) :
    Except Refusal TextGrowth :=
  match growth.scopes with
  | .optional opener pieces :: outer =>
      let chain := TextPiece.chain pieces
      if chain.isEmpty then
        .error { cause := .emptyOptionalMatch opener.position }
      else .ok ({ growth with scopes := outer }.add opener chain.render)
  | .group opener _ :: _ =>
      .error
        { cause := .unclosedGroup opener.position
          early := true }
  | [] =>
      .error
        { cause := .unexpectedToken token.raw token.position
          early := true }

/-- Take a token inside a collection whose text so far is this one. -/
def stepInCollection (growth : TextGrowth) (opener : Rendered) (text : String)
    (token : Rendered) : Except Refusal TextGrowth :=
  match token.kind with
  | .literal => .ok { growth with collection := some (opener, text ++ token.text) }
  | .collectionClose =>
      .ok ({ growth with collection := none }.add opener (text ++ token.text))
  | _ =>
      .error
        { cause := .unexpectedToken token.raw token.position
          early := true }

/-- Take a token outside collections. -/
def stepOutside (growth : TextGrowth) (token : Rendered)
    (following : Option Rendered) : Except Refusal TextGrowth :=
  match token.kind with
  | .literal => .ok (growth.add token token.text)
  | .caret => .ok (growth.add token (token.anchorText growth.caretPlace))
  | .dollar => .ok (growth.addDollar token following)
  | .quantifier => growth.quantify token
  | .assertion => growth.assert token
  | .conjunction => growth.separate token TextDraft.conjoin
  | .alternative => growth.separate token TextDraft.alternate
  | .groupOpen => .ok { growth with scopes := .group token {} :: growth.scopes }
  | .groupClose => growth.closeGroup token
  | .collectionOpen => .ok { growth with collection := some (token, token.text) }
  | .collectionClose =>
      .error { cause := .unexpectedToken token.raw token.position }
  | .optionalOpen =>
      .ok { growth with scopes := .optional token [] :: growth.scopes }
  | .optionalClose => growth.closeOptional token

/-- Take one token, given the one after it. -/
def step (growth : TextGrowth) (token : Rendered) (following : Option Rendered) :
    Except Refusal TextGrowth :=
  match growth.collection with
  | some (opener, text) => growth.stepInCollection opener text token
  | none => growth.stepOutside token following

/-- The text of a pattern whose tokens have all been taken, if nothing is still open. -/
def finish (growth : TextGrowth) (position : Nat) : Except ParseError String :=
  match growth.collection, growth.scopes with
  | none, [] => .ok growth.base.body
  | none, .group opener _ :: _ => .error (.unclosedGroup opener.position)
  | _, _ => .error (.unexpectedEnd position)

end TextGrowth

/-- The text of a pattern with what else its tokens say. -/
structure Worded where
  body : String
  /-- A dollar anchors at the end of an alternative outside all groups. -/
  dollarEnds : Bool
  /-- What reading the pattern has left behind. -/
  context : Context

/-- Take all tokens that are left, having read this many before them.  `stop` is the state
at the end of the pattern, or the error that stopped the reading. -/
def TextGrowth.run (stop : Except ScanError Terminus) (growth : TextGrowth)
    (read : Nat) : List Rendered → Except Failure Worded
  | [] =>
      match stop with
      | .error error =>
          .error
            { cause := .scan error
              read := read }
      | .ok terminus =>
          match growth.finish terminus.position with
          | .ok body =>
              .ok
                { body := body
                  dollarEnds := growth.dollarEnds
                  context := terminus.context }
          | .error error =>
              .error
                { cause := .parse error
                  read := read }
  | token :: others =>
      match growth.step token others.head? with
      | .ok after => run stop after (read + 1) others
      | .error refusal =>
          match refusal.early, others, stop with
          | true, _, _ =>
              .error
                { cause := .parse refusal.cause
                  read := read + 1 }
          | false, [], .error error =>
              .error
                { cause := .scan error
                  read := read + 1 }
          | false, others, _ =>
              .error
                { cause := .parse refusal.cause
                  read := read + 1 + (others.take 1).length }

/-! ### Whole patterns -/

/-- What going through a pattern once gives. -/
structure Translation where
  /-- The text of the pattern, before its case folding is put in. -/
  body : String
  /-- The level in effect at the end of the pattern. -/
  magicness : Magicness
  metadata : Metadata
deriving Repr, DecidableEq

/-- The style of a translation with the groups named or not. -/
def Style.ofPass (options : Options) (foldCase namedGroups : Bool) : Style :=
  { options := options
    foldCase := foldCase
    namedGroups := namedGroups }

/-- The tokens of a pattern with their texts. -/
def renderedTokens (options : Options) (foldCase namedGroups : Bool)
    (pattern : String) : List Rendered :=
  (Scan.ofPattern options.magicness pattern).tokens.map
    (Token.rendered (.ofPass options foldCase namedGroups))

/-- A pattern gone through once. -/
structure Pass where
  /-- The tokens that have been read. -/
  tokens : List Rendered
  outcome : Except ConversionError Translation

/-- Go through a pattern once, with the groups named or not. -/
def translate (options : Options) (foldCase namedGroups : Bool) (pattern : String) :
    Pass :=
  let tokens := renderedTokens options foldCase namedGroups pattern
  let stop := (Scan.ofPattern options.magicness pattern).result
  match TextGrowth.run stop {} 0 tokens with
  | .ok worded =>
      { tokens := tokens
        outcome :=
          .ok
            { body := worded.body
              magicness := worded.context.magicness
              metadata := .ofTally worded.context.tally worded.dollarEnds } }
  | .error failure =>
      let read := tokens.take failure.read
      { tokens := read
        outcome :=
          .error
            { pattern := pattern
              partialText := Rendered.partialText read
              cause := failure.cause } }

/-- The conversion that going through a pattern for the last time gives. -/
def Translation.conversion (foldCase : Bool) (translation : Translation) : Conversion :=
  { converted := withCase foldCase translation.body
    ignoreCase := foldCase
    magicness := translation.magicness
    metadata := translation.metadata }

/-- Convert a pattern by going through it once, and a second time with the groups named if
the first time shows that they have to be. -/
def convertInPasses (options : Options) (pattern : String) :
    Except ConversionError Conversion :=
  if pattern.isEmpty then
    .ok
      { converted := ""
        ignoreCase := options.ignoreCase
        magicness := options.magicness
        metadata := {} }
  else do
    let foldCase := foldsCase options pattern
    let first ← (translate options foldCase false pattern).outcome
    if first.metadata.needsNamedGroups then
      let second ← (translate options foldCase true pattern).outcome
      return second.conversion foldCase
    else
      return first.conversion foldCase

end VimPattern
