/-
Module: VimPattern.Proofs.Capture.Sources
Purpose: The groups that the capturing parentheses of a tree's text were written for.
Main exports:
  Token.opensCapture, Target.Led, Tree.captured, Trace.Hears, Tree.Lexed.hears
-/
import VimPattern.Proofs.Grammar.Lexemes
import VimPattern.Proofs.Target.Texts
import VimPattern.Proofs.Tree.Heard

namespace VimPattern

open Target

/-!
Only the opening of a capturing group is written as a parenthesis that captures, and
it is no such parenthesis where the text of the group begins with a question mark.
An optional sequence writes its pieces once for each leading stretch they are part
of, with all the groups in them.  `Tree.captured` collects the openings accordingly,
and the parentheses found in the text are those.
-/

/-- The token opens a group with a number. -/
def Token.opensCapture (token : Token) : Bool :=
  match token.lexeme with
  | .groupOpen (.capturing _) => true
  | _ => false

/-- The text begins with a question mark, so that a parenthesis before it does not
capture. -/
def Target.Led (text : String) : Prop :=
  text.toList.head? = some '?'

instance (text : String) : Decidable (Led text) :=
  inferInstanceAs (Decidable (_ = _))

/-- The openings of capturing groups that the parts of a tree are written with. -/
def Tree.captured (style : Style) : {rank : Rank} → Tree rank → List (List Token)
  | _, .literal _ => [[]]
  | _, .anchor _ _ => [[]]
  | _, .group opener body _ =>
      [(if opener.opensCapture ∧ ¬Led (body.text style) then [opener] else []) ++
        (body.captured style).flatten]
  | _, .collection _ _ _ => [[]]
  | _, .optional _ pieces _ => [copies (pieces.captured style)]
  | _, .bare atom => atom.captured style
  | _, .quantified atom _ => [(atom.captured style).flatten]
  | _, .asserted piece _ => [(piece.captured style).flatten]
  | _, .empty => []
  | _, .snoc pieces piece => pieces.captured style ++ piece.captured style
  | _, .operand concat => [(concat.captured style).flatten]
  | _, .both operands _ concat =>
      operands.captured style ++ [(concat.captured style).flatten]
  | _, .single branch => [(branch.captured style).flatten]
  | _, .either alternatives _ branch =>
      alternatives.captured style ++ [(branch.captured style).flatten]

/-! ### Traces that are put together -/

namespace Trace

/-- The parentheses of the trace that capture were written for these tokens,
whatever follows the trace. -/
def Hears (trace : Trace) (found : List Token) : Prop :=
  Yields capturing .outside trace (found.map some)

theorem Hears.append {front back : Trace} {early late : List Token}
    (first : Hears front early) (second : Hears back late) :
    Hears (front ++ back) (early ++ late) :=
  Tells.append first second

/-- The texts in which no parenthesis captures. -/
def quiet : Family :=
  silence (capturing : Listener (Option Token) (Option Token)) deaf_capturing

/-- A quiet text adds nothing, whatever it is written for. -/
theorem hears_spell {text : String} (silent : quiet.whole text)
    (source : Option Token) : Hears (spell source text) [] :=
  tells_spell silent source

/-- A parenthesis without a mark captures, unless what follows looks like one. -/
theorem Hears.captured {body : Trace} {found : List Token} (hears : Hears body found)
    (opener : Token) (last : Option Token) :
    Hears (spell (some opener) "(" ++ body ++ spell last ")")
      ((if Led body.text then [] else [opener]) ++ found) := by
  intro others
  have behind := (hears.append (hears_spell silent_closing last)) others
  have head :
      (letters (body ++ spell last ")" ++ others)).head? = some '?' ↔ Led body.text := by
    rw [Led, text, String.toList_ofList, letters_append, letters_append, letters_spell]
    cases letters body with
    | nil => simp
    | cons char text => simp
  have heard :
      openings capturing .outside
          (({ char := '(', source := some opener } : Glyph (Option Token)) ::
            (body ++ spell last ")" ++ others)) = _ :=
    openings_parenthesis rfl _
  rw [behind, List.append_nil] at heard
  by_cases led : Led body.text
  · rw [capturing, if_pos (head.2 led)] at heard
    rw [if_pos led, List.nil_append]
    simpa [spell] using heard
  · rw [capturing, if_neg (mt head.1 led)] at heard
    rw [if_neg led]
    simpa [spell] using heard

end Trace

/-! ### Trees -/

open Trace

/-- A parenthesis with a question mark behind it is quiet. -/
theorem Trace.quiet_question {text : String} {rest : List Char}
    (split : text.toList = '(' :: '?' :: rest) (plain : isPlain rest) :
    quiet.whole text := by
  apply silent_parenthesis split
  · have question : Inert '?' := by decide
    simp [isPlain, question, plain]
  · intro source following
    rfl

/-- No parenthesis of an atom captures. -/
theorem Literal.quiet_text {style : Style} (accepts : quiet.Accepts style.options)
    {literal : Literal} (readable : (Lexeme.literal literal).Readable) :
    quiet.whole (literal.text style) := by
  have named {opening : String} {rest : List Char}
      (split : opening.toList = '(' :: '?' :: rest) (plain : isPlain rest) :
      quiet.whole (opening ++ ")") :=
    quiet.whole_append (quiet_question split plain) silent_closing
  apply Literal.whole_text accepts readable
  intro names
  cases literal with
  | matchStart first =>
      cases names
      have empty : quiet.whole ("(?<zs>" ++ ")") := named rfl rfl
      exact empty
  | matchEnd first =>
      cases names
      have empty : quiet.whole ("(?<ze>" ++ ")") := named rfl rfl
      exact empty
  | _ => cases names

/-- An opening that does not capture is quiet. -/
theorem GroupSort.quiet_text (style : Style) {sort : GroupSort}
    (other : ∀ number, sort ≠ .capturing number) : quiet.whole (sort.text style) := by
  cases sort with
  | capturing number => exact absurd rfl (other number)
  | nonCapturing => exact deaf_capturing.silent (.head _)
  | external number =>
      have split :
          ("(?<z" ++ toString number ++ ">").toList =
            '(' :: '?' :: (['<', 'z'] ++ (toString number).toList ++ ['>']) := by
        rw [String.toList_append, String.toList_append]
        rfl
      have less : Inert '<' := by decide
      have letter : Inert 'z' := by decide
      have greater : Inert '>' := by decide
      apply quiet_question split
      apply isPlain_of_inert
      rw [List.forall_mem_append, List.forall_mem_append, List.forall_mem_cons,
        List.forall_mem_singleton, List.forall_mem_singleton]
      exact ⟨⟨⟨less, letter⟩, inert_toString number⟩, greater⟩

namespace Tree

variable {style : Style}

/-- A group is heard if it captures and its text does not hide that. -/
theorem hears_group (unnamed : style.namedGroups = false) {opener closer : Token}
    {body : Tree .pattern} (opens : ∃ sort, opener.lexeme = .groupOpen sort)
    (closes : closer.lexeme = .groupClose) {found : List Token}
    (hears : Hears (body.trace style) found) :
    Hears (opener.trace style ++ body.trace style ++ closer.trace style)
      ((if opener.opensCapture ∧ ¬Led (body.text style) then [opener] else []) ++
        found) := by
  have closing : closer.trace style = spell (some closer) ")" := by
    rw [Token.trace, Token.text, closes]
  obtain ⟨sort, opens⟩ := opens
  by_cases captures : opener.opensCapture
  · have opening : opener.trace style = spell (some opener) "(" := by
      rw [Token.opensCapture, opens] at captures
      rw [Token.trace, Token.text, opens]
      cases sort with
      | capturing number => simp [GroupSort.text, unnamed]
      | nonCapturing | external number => cases captures
    have whole := hears.captured opener (some closer)
    rw [text_trace] at whole
    rw [opening, closing]
    by_cases led : Led (body.text style)
    · simpa [led] using whole
    · simpa [led, captures] using whole
  · have other : ∀ number, sort ≠ .capturing number := by
      rintro number rfl
      exact captures (by rw [Token.opensCapture, opens])
    have opening : Hears (opener.trace style) [] := by
      rw [Token.trace, Token.text, opens]
      exact hears_spell (GroupSort.quiet_text style other) _
    have whole := (opening.append hears).append (hears_spell silent_closing (some closer))
    rw [closing]
    simpa [captures] using whole

/-- The capturing parentheses of the text of a lexed tree were written for the
openings that `captured` collects, unless groups have names. -/
theorem Lexed.hears (accepts : quiet.Accepts style.options)
    (unnamed : style.namedGroups = false) {rank : Rank} {tree : Tree rank}
    (lexed : tree.Lexed) :
    List.Forall₂ Hears (tree.traces style) (tree.captured style) := by
  have only {trace : Trace} {found : List Token} (hears : Hears trace found) :
      List.Forall₂ Hears [trace] [found] := .cons hears .nil
  induction tree with
  | literal token =>
      obtain ⟨literal, same, readable⟩ := lexed
      apply only
      rw [Token.trace, Token.text, same]
      exact hears_spell (literal.quiet_text accepts readable) _
  | anchor token place =>
      exact only (hears_spell (whole_anchorText accepts lexed place) _)
  | group opener body closer bodyHears =>
      obtain ⟨sort, inside, closes⟩ := lexed
      exact only (hears_group unnamed sort closes (tells_separated (bodyHears inside)))
  | collection opener members closer =>
      obtain ⟨⟨opening, opens, closes⟩, inside⟩ := lexed
      exact only (tells_collection accepts opens closes inside)
  | optional opener pieces closer piecesHears =>
      exact only (tells_chain deaf_capturing (piecesHears lexed.2.1))
  | bare atom atomHears => exact atomHears lexed
  | quantified atom quantifier atomHears =>
      obtain ⟨core, count, same, readable⟩ := lexed
      have repeated : Hears (quantifier.trace style) [] := by
        rw [Token.trace, Token.text, same]
        exact hears_spell (Quantifier.whole_text quiet readable) _
      have whole := Hears.append (tells_flatten (atomHears core)) repeated
      rw [List.append_nil] at whole
      exact only whole
  | asserted piece assertion pieceHears =>
      obtain ⟨core, test, same⟩ := lexed
      have body := tells_flatten (pieceHears core)
      have opening : assertion.trace style = spell (some assertion) test.text := by
        rw [Token.trace, Token.text, same]
      apply only
      rw [opening]
      exact body.enclosed deaf_capturing test.text_mem_marks (some assertion) none
  | empty => exact .nil
  | snoc pieces piece piecesHears pieceHears =>
      exact List.rel_append (piecesHears lexed.1) (pieceHears lexed.2)
  | operand concat concatHears => exact only (tells_flatten (concatHears lexed))
  | both operands separator concat operandsHears concatHears =>
      exact
        List.rel_append (operandsHears lexed.1)
          (only (tells_flatten (concatHears lexed.2.2)))
  | single branch branchHears => exact only (tells_conjunction deaf_capturing (branchHears lexed))
  | either alternatives separator branch alternativesHears branchHears =>
      exact
        List.rel_append (alternativesHears lexed.1)
          (only (tells_conjunction deaf_capturing (branchHears lexed.2.2)))

end Tree

end VimPattern
