/-
Module: VimPattern.Proofs.Capture.Leading
Purpose: No group begins with a question mark unless the setting for line breaks does.
Main exports:
  Target.Fronted, Literal.fronted_text, Tree.Begins, Tree.Lexed.begins,
  Tree.unled_ofScan
-/
import VimPattern.Proofs.Capture.Once
import VimPattern.Proofs.Grammar.Anchors

namespace VimPattern

open Target

/-!
A question mark of a pattern that is not an operator keeps a backslash in the target,
and one that is an operator stands behind the text of what it repeats.  So the text
of a group begins with one only where something without text is repeated at its
start, which the places of anchors exclude, or where the text of a line break begins
with one.
-/

/-- The text is not empty and does not begin with a question mark. -/
def Target.Fronted (text : String) : Prop :=
  ∃ first rest, text.toList = first :: rest ∧ first ≠ '?'

namespace Target

/-- Text that is known up to its first character. -/
theorem fronted_of_eq_cons {text : String} {first : Char} {rest : List Char}
    (same : text.toList = first :: rest) (other : first != '?') : Fronted text :=
  ⟨first, rest, same, bne_iff_ne.1 other⟩

theorem Fronted.append {front : String} (fronted : Fronted front) (back : String) :
    Fronted (front ++ back) := by
  obtain ⟨first, rest, same, other⟩ := fronted
  refine ⟨first, rest ++ back.toList, ?_, other⟩
  rw [String.toList_append, same, List.cons_append]

theorem Fronted.not_led {text : String} (fronted : Fronted text) : ¬Led text := by
  obtain ⟨first, rest, same, other⟩ := fronted
  intro led
  rw [Led, same] at led
  exact other (Option.some.inj led)

/-- Text that may be empty, in front of text that is not. -/
theorem fronted_append {front back : String} (notLed : ¬Led front)
    (fronted : Fronted back) : Fronted (front ++ back) := by
  cases written : front.toList with
  | nil =>
      obtain ⟨first, rest, same, other⟩ := fronted
      exact ⟨first, rest, by rw [String.toList_append, written, same, List.nil_append], other⟩
  | cons first rest =>
      have other : first ≠ '?' := by
        rintro rfl
        exact notLed (by rw [Led, written]; rfl)
      have begun : Fronted front := ⟨first, rest, written, other⟩
      exact begun.append back

theorem fronted_afterBackslash (char : Char) : Fronted (Escape.afterBackslash char) := by
  have written : (Escape.afterBackslash char).toList = ['\\', char] := by
    rw [Escape.afterBackslash, String.toList_ofList]
  exact fronted_of_eq_cons written rfl

theorem fronted_singleton {char : Char} (other : char ≠ '?') :
    Fronted (String.singleton char) :=
  ⟨char, [], String.toList_singleton char, other⟩

/-- A mark begins with its parenthesis. -/
theorem fronted_of_mem_marks {mark : String} (among : mark ∈ marks) : Fronted mark := by
  obtain ⟨rest, same, _⟩ := exists_plain_of_mem_marks among
  exact fronted_of_eq_cons same rfl

end Target

/-! ### Atoms -/

namespace Escape

theorem fronted_quoted (char : Char) : Fronted (quoted char) := by
  unfold quoted
  split
  · exact fronted_afterBackslash char
  · next free =>
      apply fronted_singleton
      rintro rfl
      exact free (by decide)

theorem fronted_plain (char : Char) : Fronted (plain char) := by
  unfold plain
  split
  · have front : Fronted "\\x" := fronted_of_eq_cons rfl rfl
    exact front.append _
  · split
    · exact fronted_afterBackslash char
    · next free =>
        apply fronted_singleton
        rintro rfl
        exact free (by decide)

theorem fronted_backslashed (char : Char) : Fronted (backslashed char) := by
  unfold backslashed
  split
  · exact fronted_of_eq_cons rfl rfl
  · exact fronted_of_eq_cons rfl rfl
  · exact fronted_of_eq_cons rfl rfl
  · exact fronted_of_eq_cons rfl rfl
  · exact fronted_quoted _

end Escape

namespace Options

variable (options : Options)

theorem fronted_lineStartText : Fronted options.lineStartText := by
  have front : Fronted "(?:^|(?<=" := fronted_of_eq_cons rfl rfl
  exact (front.append _).append _

theorem fronted_lineEndText : Fronted options.lineEndText := by
  have front : Fronted "(?=" := fronted_of_eq_cons rfl rfl
  exact (front.append _).append _

theorem fronted_caretText : Fronted options.caretText := by
  unfold caretText
  split
  · exact options.fronted_lineStartText
  · exact fronted_of_eq_cons rfl rfl

theorem fronted_dollarText : Fronted options.dollarText := by
  unfold dollarText
  split
  · exact options.fronted_lineEndText
  · exact fronted_of_eq_cons rfl rfl

end Options

variable {style : Style}

/-- The text of an atom begins with something else than a question mark if that of a
line break does. -/
theorem Literal.fronted_text (lineBreak : Fronted style.options.newLine)
    (literal : Literal) : Fronted (literal.text style) := by
  have cluster : Fronted "(?:" := fronted_of_eq_cons rfl rfl
  have escape : Fronted "\\" := fronted_of_eq_cons rfl rfl
  cases literal with
  | plain char => exact Escape.fronted_plain char
  | escaped char => exact Escape.fronted_backslashed char
  | lineBreak =>
      rw [text, Options.lineBreakText]
      split
      · exact lineBreak
      · exact (cluster.append _).append _
  | anyOrBreak => exact (cluster.append _).append _
  | lineStart => exact style.options.fronted_lineStartText
  | lineEnd => exact style.options.fronted_lineEndText
  | matchStart first | matchEnd first =>
      rw [text]
      split <;> exact fronted_of_eq_cons rfl rfl
  | charClass letterClass withBreak =>
      have bracket : Fronted "[" := fronted_of_eq_cons rfl rfl
      rw [text, CharClass.text]
      split
      · exact (((cluster.append _).append _).append _).append _
      · exact (bracket.append _).append _
  | codePoint char =>
      have code : Fronted "\\x\x7b" := fronted_of_eq_cons rfl rfl
      exact (code.append _).append _
  | backReference number =>
      have name : Fronted "\\k<" := fronted_of_eq_cons rfl rfl
      rw [text]
      split
      · exact (name.append _).append _
      · exact escape.append _
  | externalReference number =>
      have external : Fronted "\\z" := fronted_of_eq_cons rfl rfl
      exact external.append _
  | _ =>
      rw [text]
      exact fronted_of_eq_cons rfl rfl

/-- The text that opens a group or a collection begins with what opens it. -/
theorem GroupSort.fronted_text (sort : GroupSort) : Fronted (sort.text style) := by
  cases sort with
  | capturing number =>
      have name : Fronted "(?<" := fronted_of_eq_cons rfl rfl
      rw [text]
      split
      · exact (name.append _).append _
      · exact fronted_of_eq_cons rfl rfl
  | nonCapturing =>
      rw [text]
      exact fronted_of_eq_cons rfl rfl
  | external number =>
      have name : Fronted "(?<z" := fronted_of_eq_cons rfl rfl
      exact (name.append _).append _

theorem Collection.Opening.fronted_text (opening : Opening) (newLine : String) :
    Fronted (opening.text newLine) := by
  have bracket : Fronted (if opening.negated then "[^" else "[") := by
    split <;> exact fronted_of_eq_cons rfl rfl
  have cluster : Fronted "(?:" := fronted_of_eq_cons rfl rfl
  unfold text
  by_cases withBreak : opening.withBreak
  · rw [if_pos withBreak]
    exact ((((cluster.append _).append _).append _).append _).append _
  · rw [if_neg withBreak, String.empty_append]
    exact (bracket.append _).append _

/-! ### Trees -/

namespace Tree

/-- How the texts that a tree of this rank lends to the trees around it begin. -/
def Begins (style : Style) : {rank : Rank} → Tree rank → Prop
  | .pattern, tree => ¬Led (tree.text style)
  | .branch, tree => ¬Led (tree.text style) ∧ Fronted (tree.lookaheads style)
  | .concat, tree =>
      ¬Led (tree.text style) ∧ (tree.endsWithBreak → Fronted (tree.text style))
  | .piece, tree =>
      Fronted (tree.text style) ∨
        ∃ atom : Tree .atom, atom.isHollow ∧
          (tree = .bare atom ∨ ∃ quantifier, tree = .quantified atom quantifier)
  | .atom, tree => Fronted (tree.text style) ∨ tree.isHollow

/-- An anchor that leaves text begins with what anchors, or with a backslash. -/
theorem fronted_anchorText {token : Token}
    (anchors : token.lexeme = .caret ∨ token.lexeme = .dollar) {place : Place}
    (solid : place ≠ .besideBreak) : Fronted (anchorText style token place) := by
  have anchoring : Fronted (token.text style) := by
    rcases anchors with same | same
    · rw [Token.text, same]
      exact style.options.fronted_caretText
    · rw [Token.text, same]
      exact style.options.fronted_dollarText
  cases place with
  | edge => exact anchoring
  | besideBreak => exact absurd rfl solid
  | inside =>
      rw [anchorText]
      split
      · exact anchoring
      · split <;> exact fronted_of_eq_cons rfl rfl

/-- A tree that starts with an anchor without text does not start with a line
break. -/
theorem startsWithBreak_of_isHollow {atom : Tree .atom} (hollow : atom.isHollow)
    (lexed : atom.Lexed)
    (breaks : ∀ token ∈ atom.tokens, token.LiteralBreak) :
    (bare atom).startsWithBreak = false := by
  cases atom with
  | anchor token place =>
      have kind : token.kind = .caret ∨ token.kind = .dollar := by
        rcases lexed with same | same
        · exact .inl (by rw [Token.kind, same]; rfl)
        · exact .inr (by rw [Token.kind, same]; rfl)
      change token.isLineBreak = false
      by_contra spelled
      have literal := breaks token (.head _) (by simpa using spelled)
      rcases kind with kind | kind
      · rw [kind] at literal
        cases literal
      · rw [kind] at literal
        cases literal
  | _ => cases hollow

/-- Pieces begin with something else than a question mark, and with something at all
where the last of them starts with a line break, if they do without the last one. -/
theorem begins_snoc {pieces : Tree .concat} {piece : Tree .piece}
    (fitting : BehindBreak pieces piece) (lexed : piece.Lexed)
    (breaks : ∀ token ∈ piece.tokens, token.LiteralBreak)
    (front : pieces.Begins style) (last : piece.Begins style) :
    (snoc pieces piece).Begins style := by
  obtain ⟨notLed, behind⟩ := front
  rw [Begins, text_snoc]
  rcases last with solid | ⟨atom, hollow, rfl | ⟨quantifier, rfl⟩⟩
  · have begun := fronted_append notLed solid
    exact ⟨begun.not_led, fun _ => begun⟩
  · have nothing : (bare atom).text style = "" := by
      cases atom with
      | anchor token place =>
          rw [text_bare, text_anchor, place_of_isHollow hollow]
          rfl
      | _ => cases hollow
    rw [nothing, String.append_empty]
    refine ⟨notLed, ?_⟩
    intro spelled
    rw [endsWithBreak, startsWithBreak_of_isHollow hollow lexed breaks] at spelled
    cases spelled
  · have begun := (behind (fitting atom quantifier rfl hollow)).append
      ((quantified atom quantifier).text style)
    exact ⟨begun.not_led, fun _ => begun⟩

/-- An operand that is only looked at begins with a parenthesis. -/
theorem fronted_lookaheadText (operand : String) : Fronted (lookaheadText operand) := by
  have mark : Fronted "(?=" := fronted_of_eq_cons rfl rfl
  exact (mark.append _).append _

/-- If the text of a line break does not begin with a question mark, no text of a
group does. -/
theorem Lexed.begins (lineBreak : Fronted style.options.newLine) {rank : Rank}
    {tree : Tree rank} (lexed : tree.Lexed) (all : tree.Everywhere BehindBreak)
    (breaks : ∀ token ∈ tree.tokens, token.LiteralBreak) :
    tree.Begins style ∧ tree.Unled style := by
  induction tree with
  | literal token =>
      obtain ⟨literal, same, _⟩ := lexed
      refine ⟨.inl ?_, trivial⟩
      rw [text_literal, Token.text, same]
      exact literal.fronted_text lineBreak
  | anchor token place =>
      refine ⟨?_, trivial⟩
      by_cases beside : place = .besideBreak
      · rw [beside]
        exact .inr rfl
      · apply Or.inl
        rw [text_anchor]
        exact fronted_anchorText lexed beside
  | group opener body closer bodyBegins =>
      obtain ⟨⟨sort, opens⟩, inside, _⟩ := lexed
      obtain ⟨_, inner⟩ := List.forall_mem_cons.1 breaks
      obtain ⟨within, _⟩ := List.forall_mem_append.1 inner
      obtain ⟨notLed, unled⟩ := bodyBegins inside all within
      refine ⟨.inl ?_, fun _ => notLed, unled⟩
      rw [text_group, Token.text, opens]
      exact (sort.fronted_text.append _).append _
  | collection opener members closer =>
      obtain ⟨⟨opening, opens, _⟩, _⟩ := lexed
      refine ⟨.inl ?_, trivial⟩
      rw [text_collection, Token.text, opens]
      exact ((opening.fronted_text _).append _).append _
  | optional opener pieces closer piecesBegins =>
      obtain ⟨_, inner⟩ := List.forall_mem_cons.1 breaks
      obtain ⟨within, _⟩ := List.forall_mem_append.1 inner
      obtain ⟨_, unled⟩ := piecesBegins lexed.2.1 all within
      refine ⟨.inl ?_, unled⟩
      have cluster : Fronted "(?:" := fronted_of_eq_cons rfl rfl
      rw [text_optional]
      exact (cluster.append _).append _
  | bare atom atomBegins =>
      obtain ⟨begins, unled⟩ := atomBegins lexed all breaks
      refine ⟨?_, unled⟩
      rcases begins with solid | hollow
      · apply Or.inl
        rw [text_bare]
        exact solid
      · exact .inr ⟨atom, hollow, .inl rfl⟩
  | quantified atom quantifier atomBegins =>
      obtain ⟨within, _⟩ := List.forall_mem_append.1 breaks
      obtain ⟨begins, unled⟩ := atomBegins lexed.1 all within
      refine ⟨?_, unled⟩
      rcases begins with solid | hollow
      · apply Or.inl
        rw [text_quantified]
        exact solid.append _
      · exact .inr ⟨atom, hollow, .inr ⟨quantifier, rfl⟩⟩
  | asserted piece assertion pieceBegins =>
      obtain ⟨core, test, same⟩ := lexed
      obtain ⟨within, _⟩ := List.forall_mem_append.1 breaks
      refine ⟨.inl ?_, (pieceBegins core all within).2⟩
      rw [text_asserted, Token.text, same]
      exact ((fronted_of_mem_marks test.text_mem_marks).append _).append _
  | empty =>
      refine ⟨⟨?_, ?_⟩, trivial⟩
      · rw [text_empty]
        intro led
        cases led
      · intro ends
        cases ends
  | snoc pieces piece piecesBegins pieceBegins =>
      obtain ⟨piecesAll, pieceAll, fitting⟩ := all
      obtain ⟨early, late⟩ := List.forall_mem_append.1 breaks
      obtain ⟨front, frontUnled⟩ := piecesBegins lexed.1 piecesAll early
      obtain ⟨last, lastUnled⟩ := pieceBegins lexed.2 pieceAll late
      exact ⟨begins_snoc fitting lexed.2 late front last, frontUnled, lastUnled⟩
  | operand concat concatBegins =>
      obtain ⟨⟨notLed, _⟩, unled⟩ := concatBegins lexed all breaks
      rw [Begins, text_operand, lookaheads_operand]
      exact ⟨⟨notLed, fronted_lookaheadText _⟩, unled⟩
  | both operands separator concat operandsBegins concatBegins =>
      obtain ⟨early, rest⟩ := List.forall_mem_append.1 breaks
      obtain ⟨_, late⟩ := List.forall_mem_cons.1 rest
      obtain ⟨⟨_, lookaheads⟩, operandsUnled⟩ := operandsBegins lexed.1 all.1 early
      obtain ⟨_, concatUnled⟩ := concatBegins lexed.2.2 all.2 late
      rw [Begins, text_both, lookaheads_both]
      exact
        ⟨⟨(lookaheads.append _).not_led, lookaheads.append _⟩, operandsUnled, concatUnled⟩
  | single branch branchBegins =>
      obtain ⟨⟨notLed, _⟩, unled⟩ := branchBegins lexed all breaks
      refine ⟨?_, unled⟩
      rw [Begins, text_single]
      exact notLed
  | either alternatives separator branch alternativesBegins branchBegins =>
      obtain ⟨early, rest⟩ := List.forall_mem_append.1 breaks
      obtain ⟨_, late⟩ := List.forall_mem_cons.1 rest
      obtain ⟨notLed, alternativesUnled⟩ := alternativesBegins lexed.1 all.1 early
      obtain ⟨_, branchUnled⟩ := branchBegins lexed.2.2 all.2 late
      have bar : Fronted "|" := fronted_of_eq_cons rfl rfl
      rw [Begins, text_either]
      exact
        ⟨((fronted_append notLed bar).append _).not_led, alternativesUnled, branchUnled⟩

/-- In the tree of a pattern no text of a capturing group begins with a question mark,
if the text of a line break does not. -/
theorem unled_ofScan (lineBreak : Fronted style.options.newLine) {level : Magicness}
    {pattern : String} {grown : Grown}
    (complete : Tree.ofScan (Scan.ofPattern level pattern) = .ok grown) :
    grown.tree.Unled style := by
  have breaks : ∀ token ∈ grown.tree.tokens, token.LiteralBreak := by
    rw [Tree.tokens_ofScan complete]
    exact (Scan.reads_ofPattern level pattern).literalBreak
  exact
    ((Tree.lexed_ofScan complete).begins lineBreak (Tree.behindBreak_ofScan complete)
      breaks).2

end Tree

end VimPattern
