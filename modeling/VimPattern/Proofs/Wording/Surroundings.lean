/-
Module: VimPattern.Proofs.Wording.Surroundings
Purpose: The texts of tokens are put together in the same way among other tokens.
Main exports:
  Surroundings, Rendered.moved, TextGrowth.amid, TextGrowth.step_amid, TextGrowth.run_amid
-/
import VimPattern.Proofs.Wording.Assembly

namespace VimPattern

/-!
A token brings along where it stands in the pattern, so that an error can name the place, and
nothing else asks for it.  Nor does a step ask for the alternatives before the current one, or
whether a dollar among them has been noted.  Tokens that stand somewhere else, or behind other
alternatives, are therefore put together to the same text, and if they are refused, then for
the same reason; the error names the other place.  Nothing is assumed of how the places have
changed, so that they may also be forgotten.
-/

/-- What is different around a row of tokens. -/
structure Surroundings where
  /-- The place of a token that was at this one. -/
  move : Nat → Nat
  /-- The tokens before. -/
  read : Nat := 0
  /-- The alternatives before the first one of the row. -/
  alternatives : List String := []
  /-- A dollar anchors at the end of one of them. -/
  dollarEnds : Bool := false

/-- The text of the alternatives before, with their separators. -/
def Surroundings.text (around : Surroundings) : String :=
  String.join (around.alternatives.map (· ++ "|"))

/-- Alternatives before others are their texts, each with its separator. -/
theorem intercalate_append_eq_join (before : List String) {alternatives : List String}
    (nonempty : alternatives ≠ []) :
    "|".intercalate (before ++ alternatives) =
      String.join (before.map (· ++ "|")) ++ "|".intercalate alternatives := by
  induction before with
  | nil => simp
  | cons alternative before inductionHypothesis =>
      have more : before ++ alternatives ≠ [] := by simp [nonempty]
      rw [List.cons_append, String.intercalate_cons_of_ne_nil more, inductionHypothesis,
        List.map_cons, String.join_cons, ← String.append_assoc]

/-- The token at another place. -/
def Rendered.moved (move : Nat → Nat) (token : Rendered) : Rendered :=
  { token with position := move token.position }

def TextDraft.amid (around : Surroundings) (draft : TextDraft) : TextDraft :=
  { draft with alternatives := around.alternatives ++ draft.alternatives }

def TextScope.moved (move : Nat → Nat) : TextScope → TextScope
  | .group opener draft => .group (opener.moved move) draft
  | .optional opener pieces => .optional (opener.moved move) pieces

def TextGrowth.amid (around : Surroundings) (growth : TextGrowth) : TextGrowth :=
  { base := growth.base.amid around
    scopes := growth.scopes.map (TextScope.moved around.move)
    collection :=
      growth.collection.map fun (opener, text) => (opener.moved around.move, text)
    dollarEnds := around.dollarEnds || growth.dollarEnds }

def ParseError.moved (move : Nat → Nat) : ParseError → ParseError
  | .unclosedGroup position => .unclosedGroup (move position)
  | .unexpectedGroupEnd position => .unexpectedGroupEnd (move position)
  | .missingOperand token position => .missingOperand token (move position)
  | .nestedQuantifier token position => .nestedQuantifier token (move position)
  | .emptyOptionalMatch position => .emptyOptionalMatch (move position)
  | .unexpectedToken token position => .unexpectedToken token (move position)
  | .unexpectedEnd position => .unexpectedEnd (move position)

def Refusal.moved (move : Nat → Nat) (refusal : Refusal) : Refusal :=
  { refusal with cause := refusal.cause.moved move }

namespace TextGrowth

variable (around : Surroundings)

/-- The outcome of a step among other tokens. -/
def stepAmid (outcome : Except Refusal TextGrowth) : Except Refusal TextGrowth :=
  (outcome.map (amid around)).mapError (Refusal.moved around.move)

theorem pieces_amid (growth : TextGrowth) : (growth.amid around).pieces = growth.pieces := by
  rcases growth with ⟨base, _ | ⟨_ | _, outer⟩, collection, ends⟩ <;> rfl

theorem withPieces_amid (growth : TextGrowth) (pieces : List TextPiece) :
    (growth.amid around).withPieces pieces = (growth.withPieces pieces).amid around := by
  rcases growth with ⟨base, _ | ⟨_ | _, outer⟩, collection, ends⟩ <;> rfl

theorem add_amid (growth : TextGrowth) (first : Rendered) (text : String) :
    (growth.amid around).add (first.moved around.move) text =
      (growth.add first text).amid around := by
  rw [add, pieces_amid, withPieces_amid]
  rfl

theorem outsideGroups_amid (growth : TextGrowth) :
    (growth.amid around).outsideGroups = growth.outsideGroups := by
  rw [outsideGroups, outsideGroups, amid, List.all_map]
  congr 1
  funext scope
  cases scope <;> rfl

theorem caretPlace_amid (growth : TextGrowth) :
    (growth.amid around).caretPlace = growth.caretPlace := by
  rcases growth with
    ⟨base, _ | ⟨⟨opener, ⟨before, operands, _ | ⟨piece, pieces⟩⟩⟩ | _, outer⟩, inside, ends⟩ <;>
      rfl

theorem dollarPlace_amid (following : Option Rendered) :
    dollarPlace (following.map (Rendered.moved around.move)) = dollarPlace following := by
  cases following <;> rfl

theorem addDollar_amid (growth : TextGrowth) (token : Rendered)
    (following : Option Rendered) :
    (growth.amid around).addDollar (token.moved around.move)
        (following.map (Rendered.moved around.move)) =
      (growth.addDollar token following).amid around := by
  have ends : endsAlternative (following.map (Rendered.moved around.move)) =
      endsAlternative following := by
    cases following <;> rfl
  rw [addDollar, addDollar, outsideGroups_amid, dollarPlace_amid, ends, add_amid]
  simp only [amid, Bool.or_assoc]
  rfl

theorem quantify_amid (growth : TextGrowth) (token : Rendered) :
    (growth.amid around).quantify (token.moved around.move) =
      stepAmid around (growth.quantify token) := by
  rw [quantify, quantify, pieces_amid]
  cases growth.pieces with
  | nil => rfl
  | cons piece before =>
      dsimp only
      rw [withPieces_amid]
      split <;> rfl

theorem assert_amid (growth : TextGrowth) (token : Rendered) :
    (growth.amid around).assert (token.moved around.move) =
      stepAmid around (growth.assert token) := by
  rw [assert, assert, pieces_amid]
  cases growth.pieces with
  | nil => rfl
  | cons piece before =>
      dsimp only
      rw [withPieces_amid]
      rfl

/-- A separator may look at the draft it renews, but not at the alternatives before. -/
theorem separate_amid (growth : TextGrowth) (token : Rendered)
    {renew : TextDraft → TextDraft}
    (renewed : ∀ draft, renew (draft.amid around) = (renew draft).amid around) :
    (growth.amid around).separate (token.moved around.move) renew =
      stepAmid around (growth.separate token renew) := by
  rcases growth with ⟨base, _ | ⟨_ | _, outer⟩, collection, ends⟩
  · rw [separate, separate, amid]
    dsimp only [List.map_nil]
    rw [renewed]
    rfl
  all_goals rfl

theorem closeGroup_amid (growth : TextGrowth) (token : Rendered) :
    (growth.amid around).closeGroup (token.moved around.move) =
      stepAmid around (growth.closeGroup token) := by
  rcases growth with ⟨base, _ | ⟨⟨opener, draft⟩ | ⟨opener, pieces⟩, outer⟩, collection, ends⟩
  · rfl
  · have added := add_amid around ⟨base, outer, collection, ends⟩ opener
      (opener.text ++ draft.body ++ token.text)
    exact congrArg Except.ok added
  · rfl

theorem closeOptional_amid (growth : TextGrowth) (token : Rendered) :
    (growth.amid around).closeOptional (token.moved around.move) =
      stepAmid around (growth.closeOptional token) := by
  rcases growth with ⟨base, _ | ⟨⟨opener, draft⟩ | ⟨opener, pieces⟩, outer⟩, collection, ends⟩
  · rfl
  · rfl
  · have added := add_amid around ⟨base, outer, collection, ends⟩ opener
      (TextPiece.chain pieces).render
    simp only [closeOptional, amid, List.map_cons, TextScope.moved]
    split
    · rfl
    · exact congrArg Except.ok added

theorem stepInCollection_amid (growth : TextGrowth) (opener : Rendered) (text : String)
    (token : Rendered) :
    (growth.amid around).stepInCollection (opener.moved around.move) text
        (token.moved around.move) =
      stepAmid around (growth.stepInCollection opener text token) := by
  have kind : (token.moved around.move).kind = token.kind := rfl
  rw [stepInCollection, stepInCollection, kind]
  cases token.kind with
  | collectionClose =>
      have added := add_amid around { growth with collection := none } opener
        (text ++ token.text)
      exact congrArg Except.ok added
  | _ => rfl

theorem stepOutside_amid (growth : TextGrowth) (token : Rendered)
    (following : Option Rendered) :
    (growth.amid around).stepOutside (token.moved around.move)
        (following.map (Rendered.moved around.move)) =
      stepAmid around (growth.stepOutside token following) := by
  have kind : (token.moved around.move).kind = token.kind := rfl
  rw [stepOutside, stepOutside, kind]
  cases token.kind with
  | literal => exact congrArg Except.ok (add_amid around growth token _)
  | caret =>
      rw [caretPlace_amid]
      exact congrArg Except.ok (add_amid around growth token _)
  | dollar => exact congrArg Except.ok (addDollar_amid around growth token following)
  | quantifier => exact quantify_amid around growth token
  | assertion => exact assert_amid around growth token
  | conjunction => exact separate_amid around growth token fun _ => rfl
  | alternative =>
      apply separate_amid around growth token
      intro draft
      simp only [TextDraft.alternate, TextDraft.amid, TextDraft.pattern,
        List.append_assoc]
      rfl
  | groupClose => exact closeGroup_amid around growth token
  | optionalClose => exact closeOptional_amid around growth token
  | _ => rfl

/-- A step among other tokens is the step without them. -/
theorem step_amid (growth : TextGrowth) (token : Rendered) (following : Option Rendered) :
    (growth.amid around).step (token.moved around.move)
        (following.map (Rendered.moved around.move)) =
      stepAmid around (growth.step token following) := by
  rcases growth with ⟨base, scopes, _ | ⟨opener, text⟩, ends⟩
  · exact stepOutside_amid around ⟨base, scopes, none, ends⟩ token following
  · exact stepInCollection_amid around ⟨base, scopes, some (opener, text), ends⟩
      opener text token

/-! ### Whole texts -/

theorem body_amid (draft : TextDraft) :
    (draft.amid around).body = around.text ++ draft.body := by
  have branch : (draft.amid around).branch = draft.branch := rfl
  rw [TextDraft.body, TextDraft.body, TextDraft.pattern, TextDraft.pattern, branch,
    TextDraft.amid, List.append_assoc]
  exact intercalate_append_eq_join _ (List.concat_ne_nil _ _)

/-- The end of a text among other tokens is the end without them. -/
theorem finish_amid (growth : TextGrowth) (position : Nat) :
    (growth.amid around).finish (around.move position) =
      ((growth.finish position).map (around.text ++ ·)).mapError
        (ParseError.moved around.move) := by
  rcases growth with
    ⟨base, _ | ⟨⟨opener, draft⟩ | ⟨opener, pieces⟩, outer⟩, _ | inside, ends⟩
  · exact congrArg Except.ok (body_amid around base)
  all_goals rfl

end TextGrowth

/-- The end of a pattern at another place, where the context is put there by this function. -/
def Terminus.amid (place : Context → Context) (around : Surroundings) (terminus : Terminus) :
    Terminus :=
  { position := around.move terminus.position
    context := place terminus.context }

/-- A worded text among other tokens. -/
def Worded.amid (place : Context → Context) (around : Surroundings) (worded : Worded) : Worded :=
  { body := around.text ++ worded.body
    dollarEnds := around.dollarEnds || worded.dollarEnds
    context := place worded.context }

/-- A failure among other tokens, where an error of reading is put there by this function. -/
def Failure.amid (displace : ScanError → ScanError) (around : Surroundings)
    (failure : Failure) : Failure :=
  { cause :=
      match failure.cause with
      | .scan error => .scan (displace error)
      | .parse error => .parse (error.moved around.move)
    read := around.read + failure.read }

/-- Tokens are put together among others as they are on their own, or fail in the same way. -/
theorem TextGrowth.run_amid (place : Context → Context) (displace : ScanError → ScanError)
    (around : Surroundings) (stop : Except ScanError Terminus) (growth : TextGrowth)
    (read : Nat) (tokens : List Rendered) :
    (growth.amid around).run ((stop.map (Terminus.amid place around)).mapError displace)
        (around.read + read) (tokens.map (Rendered.moved around.move)) =
      ((growth.run stop read tokens).map (Worded.amid place around)).mapError
        (Failure.amid displace around) := by
  induction tokens generalizing growth read with
  | nil =>
      simp only [List.map_nil, TextGrowth.run]
      cases stop with
      | error error => rfl
      | ok terminus =>
          have finished := finish_amid around growth terminus.position
          have stopped :
              ((Except.ok terminus : Except ScanError Terminus).map
                (Terminus.amid place around)).mapError displace =
                  .ok (terminus.amid place around) := by
            rfl
          simp only [stopped, Terminus.amid, finished]
          cases growth.finish terminus.position <;> rfl
  | cons token others inductionHypothesis =>
      have stepped := step_amid around growth token others.head?
      simp only [List.map_cons, TextGrowth.run, List.head?_map, stepped, stepAmid]
      cases growth.step token others.head? with
      | ok after => exact inductionHypothesis after (read + 1)
      | error refusal =>
          rcases refusal with ⟨cause, _ | _⟩ <;> cases others <;> cases stop <;> rfl

end VimPattern
