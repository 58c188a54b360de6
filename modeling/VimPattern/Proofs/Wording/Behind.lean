/-
Module: VimPattern.Proofs.Wording.Behind
Purpose: The texts of tokens that stand behind other tokens.
Main exports:
  Rendered.behind, Preceding, Preceding.text_pattern, TextGrowth.behind, TextGrowth.run_behind
-/
import VimPattern.Proofs.Wording.Surroundings

namespace VimPattern

/-!
Tokens are put together behind other tokens as they are on their own, as long as they start
an alternative outside all groups.  What differs is where they stand: openings lie at later
offsets, there are alternatives before the first one, and a dollar among those may have been
noted.  These are surroundings like any other, and a refusal names the later offset.
-/

/-- The token at an offset that is so many bytes larger. -/
def Rendered.behind (offset : Nat) (token : Rendered) : Rendered :=
  { token with position := offset + token.position }

/-- What stands before the tokens of a text. -/
structure Preceding where
  /-- The bytes before the text. -/
  offset : Nat
  /-- The tokens before the text. -/
  read : Nat := 0
  /-- The alternatives before the first one of the text. -/
  alternatives : List String := []
  /-- A dollar anchors at the end of one of them. -/
  dollarEnds : Bool := false

/-- The text of the alternatives before, with their separators. -/
def Preceding.text (front : Preceding) : String :=
  String.join (front.alternatives.map (· ++ "|"))

/-- What is different for the tokens of the text. -/
def Preceding.surroundings (front : Preceding) : Surroundings :=
  { move := (front.offset + ·)
    read := front.read
    alternatives := front.alternatives
    dollarEnds := front.dollarEnds }

/-- Alternatives that are a draft are its text and one more separator. -/
theorem Preceding.text_pattern (front : Preceding) {draft : TextDraft}
    (alternatives : front.alternatives = draft.pattern) : front.text = draft.body ++ "|" := by
  have nonempty : draft.pattern ≠ [] := List.concat_ne_nil _ _
  have joined := intercalate_append_eq_join draft.pattern (List.cons_ne_nil "" [])
  rw [String.intercalate_append_of_ne_nil nonempty (List.cons_ne_nil "" []),
    String.intercalate_singleton, String.append_empty, String.append_empty] at joined
  rw [Preceding.text, alternatives, ← joined]
  rfl

def TextDraft.behind (front : Preceding) (draft : TextDraft) : TextDraft :=
  { draft with alternatives := front.alternatives ++ draft.alternatives }

def TextScope.behind (front : Preceding) : TextScope → TextScope
  | .group opener draft => .group (opener.behind front.offset) draft
  | .optional opener pieces => .optional (opener.behind front.offset) pieces

def TextGrowth.behind (front : Preceding) (growth : TextGrowth) : TextGrowth :=
  { base := growth.base.behind front
    scopes := growth.scopes.map (TextScope.behind front)
    collection :=
      growth.collection.map fun (opener, text) => (opener.behind front.offset, text)
    dollarEnds := front.dollarEnds || growth.dollarEnds }

def ParseError.behind (offset : Nat) : ParseError → ParseError
  | .unclosedGroup position => .unclosedGroup (offset + position)
  | .unexpectedGroupEnd position => .unexpectedGroupEnd (offset + position)
  | .missingOperand token position => .missingOperand token (offset + position)
  | .nestedQuantifier token position => .nestedQuantifier token (offset + position)
  | .emptyOptionalMatch position => .emptyOptionalMatch (offset + position)
  | .unexpectedToken token position => .unexpectedToken token (offset + position)
  | .unexpectedEnd position => .unexpectedEnd (offset + position)

/-- The end of a text that is read behind another one, where the context is put there by
this function. -/
def Terminus.read (place : Context → Context) (front : Preceding) (terminus : Terminus) :
    Terminus :=
  { position := front.offset + terminus.position
    context := place terminus.context }

/-- A worded text behind other alternatives. -/
def Worded.behind (place : Context → Context) (front : Preceding) (worded : Worded) : Worded :=
  { body := front.text ++ worded.body
    dollarEnds := front.dollarEnds || worded.dollarEnds
    context := place worded.context }

/-- A failure behind other tokens, where an error of reading is put there by this
function. -/
def Failure.behind (displace : ScanError → ScanError) (front : Preceding)
    (failure : Failure) : Failure :=
  { cause :=
      match failure.cause with
      | .scan error => .scan (displace error)
      | .parse error => .parse (error.behind front.offset)
    read := front.read + failure.read }

/-- Tokens are worded behind others as they are worded on their own. -/
theorem TextGrowth.run_behind (place : Context → Context)
    (displace : ScanError → ScanError) (front : Preceding)
    (stop : Except ScanError Terminus) (growth : TextGrowth) (read : Nat)
    (tokens : List Rendered) :
    (growth.behind front).run ((stop.map (Terminus.read place front)).mapError displace)
        (front.read + read) (tokens.map (Rendered.behind front.offset)) =
      ((growth.run stop read tokens).map (Worded.behind place front)).mapError
        (Failure.behind displace front) := by
  -- The definitions above are those of tokens amid these surroundings, so no rewriting is due.
  exact TextGrowth.run_amid place displace front.surroundings stop growth read tokens

end VimPattern
