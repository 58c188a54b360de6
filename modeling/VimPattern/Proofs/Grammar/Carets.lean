/-
Module: VimPattern.Proofs.Grammar.Carets
Purpose: What a caret leaves in the target, by the token before it.
Main exports:
  Token.caretText, Growth.Trail.anchorText_eq_ite, caret_text_iff, caret_text_differs
-/
import VimPattern.Proofs.Grammar.Lexemes
import VimPattern.Proofs.Grammar.LineStart
import VimPattern.Proofs.Tree.Contributions

namespace VimPattern

/-!
A caret next to a line break says what the break says already and leaves nothing; at the start
of an operand it anchors, and elsewhere it does so only at the highest level.  Stated like
this, what a caret leaves depends on the token directly before it.  The growth goes by the
piece before it instead, and a piece keeps its first token when it is repeated: so a caret also
leaves nothing behind a line break with repetitions between the two.  Everywhere else outside
optional sequences both accounts give the same text.
-/

/-- The text that the token directly before a caret calls for. -/
def Token.caretText (style : Style) (before : List Token) (caret : Token) : String :=
  if before.getLast?.any isLineBreak then ""
  else if before.getLast?.all beginsOperand || caret.magicness = .veryMagic then caret.text style
  else "\\^"

/-- An anchoring caret leaves some text. -/
theorem Options.caretText_ne_empty (options : Options) : options.caretText ≠ "" := by
  unfold caretText lineStartText
  split <;> simp

/-- Behind contested tokens some text is called for, since what comes last is a repetition. -/
theorem Token.caretText_ne_empty_of_contested {before : List Token}
    (outside : inOptional before = false) (breaks : ∀ token ∈ before, token.LiteralBreak)
    {caret : Token} (lexeme : caret.lexeme = .caret) (contested : contested before = true)
    (style : Style) : caretText style before caret ≠ "" := by
  rw [Token.contested, outside] at contested
  obtain ⟨repeated, _⟩ := Bool.and_eq_true_iff.1 contested
  obtain ⟨last, ends, repeats⟩ := (Option.any_eq_true _ _).1 repeated
  have unspelled :=
    (breaks last (List.mem_of_getLast? ends)).isLineBreak_of_isRepetition repeats
  have text : caret.text style = style.options.caretText := by rw [Token.text, lexeme]
  rw [caretText, ends, Option.any_some, unspelled, if_neg Bool.false_ne_true, text]
  split
  · exact Options.caretText_ne_empty _
  · decide

namespace Growth

/-- Outside optional sequences the place of a caret calls for the same text as the token before
it, unless the tokens before it are contested: then it calls for nothing. -/
theorem Trail.anchorText_eq_ite {growth : Growth} {tokens : List Token}
    (trail : Trail growth tokens) (sequence : growth.inOptional = Token.inOptional tokens)
    (outside : Token.inOptional tokens = false)
    (breaks : ∀ token ∈ tokens, token.LiteralBreak) {caret : Token}
    (kind : caret.kind = .caret) (style : Style) :
    Tree.anchorText style caret growth.caretPlace =
      if Token.contested tokens then "" else Token.caretText style tokens caret := by
  rw [outside] at sequence
  rw [caretPlace_eq_ite, Token.contested, Token.caretText, sequence, outside]
  cases trail with
  | start nothing _ =>
      rw [nothing]
      simp [Tree.anchorText]
  | @operand front last begins nothing _ =>
      have spelled : last.isLineBreak = false := by
        apply (breaks last (by simp)).isLineBreak_eq_false
        intro literal
        rw [Token.beginsOperand, literal] at begins
        cases begins
      rw [nothing]
      simp [Tree.anchorText, begins, spelled, Token.isRepetition_of_beginsOperand begins]
  | sequence _ _ inside => cases inside.symm.trans sequence
  | @piece front last operand pieces piece goesOn ends operates within starts =>
      rw [ends, operates]
      cases repeats : last.isRepetition with
      | false =>
          -- The last token is the operand itself.
          rw [Token.operand?_concat, repeats] at operates
          cases operates
          cases spelled : last.isLineBreak <;>
            simp [Tree.anchorText, starts, spelled, goesOn, repeats, kind]
      | true =>
          have unspelled := (breaks last (by simp)).isLineBreak_of_isRepetition repeats
          cases spelled : operand.isLineBreak <;>
            simp [Tree.anchorText, starts, spelled, unspelled, goesOn, repeats, kind]

end Growth

/-- In a pattern that converts, take a caret that stands in no optional sequence, or in a group
within one.  To the target it contributes the text that the token directly before it calls for,
unless a line break comes before it with repetitions between the two: there it contributes
nothing, though some text is called for. -/
theorem caret_text_iff {options : Options} {pattern : String} {conversion : Conversion}
    (converted : convert options pattern = .ok conversion) {before others : List Token}
    {caret : Token}
    (tokens : (Scan.ofPattern options.magicness pattern).tokens = before ++ caret :: others)
    (kind : caret.kind = .caret) (outside : Token.inOptional before = false) :
    (Trace.ofPattern options pattern).text = conversion.converted ∧
      (Token.contested before = true → (Trace.ofPattern options pattern).Spares caret) ∧
        ∀ style : Style, style.options = options →
          ((Trace.ofPattern options pattern).Contributes before caret
              (Token.caretText style before caret) ↔
            Token.contested before = false) := by
  obtain ⟨grown, complete, _⟩ := exists_grown_of_convert converted
  obtain ⟨growth, front, back, takes, free, placed, rfl, rfl⟩ :=
    Tree.exists_placed_caret complete tokens kind
  have breaks : ∀ token ∈ front.map Prod.fst, token.LiteralBreak := by
    intro token member
    apply (Scan.reads_ofPattern options.magicness pattern).literalBreak token
    rw [tokens]
    exact List.mem_append_left _ member
  have lexeme : caret.lexeme = .caret := Lexeme.eq_of_kind kind (by simp)
  have leaves := (takes.trail free breaks).anchorText_eq_ite (takes.inOptional_eq free) outside
    breaks kind
  have contributes (style : Style) (same : style.options = options) :=
    Trace.contributes_ofPattern complete placed tokens (.inl kind) same
  have spares (contested : Token.contested (front.map Prod.fst) = true) :
      (Trace.ofPattern options pattern).Spares caret := by
    obtain ⟨times, bears, _⟩ := contributes { options := options } rfl
    rw [leaves, if_pos contested] at bears
    exact bears.spares
  refine ⟨Trace.text_ofPattern converted, spares, ?_⟩
  intro style same
  cases contested : Token.contested (front.map Prod.fst) with
  | false =>
      have text := contributes style same
      rw [leaves, contested] at text
      exact iff_of_true text rfl
  | true =>
      have called :=
        Token.caretText_ne_empty_of_contested outside breaks lexeme contested style
      exact
        iff_of_false (Trace.not_contributes called (spares contested)) Bool.false_ne_true.symm

/-- In a group within an optional sequence a caret between two characters stands for
itself. -/
theorem caret_text_group :
    let caret : Token := { lexeme := .caret, raw := "^", position := 6, magicness := .magic }
    let before : List Token :=
      [{ lexeme := .optionalOpen, raw := "\\%[", position := 0, magicness := .magic },
        { lexeme := .groupOpen (.capturing 1), raw := "\\(", position := 3, magicness := .magic },
        { lexeme := .literal (.plain 'a'), raw := "a", position := 5, magicness := .magic }]
    let others : List Token :=
      [{ lexeme := .literal (.plain 'b'), raw := "b", position := 7, magicness := .magic },
        { lexeme := .groupClose, raw := "\\)", position := 8, magicness := .magic },
        { lexeme := .optionalClose, raw := "]", position := 10, magicness := .magic }]
    convert {} "\\%[\\(a^b\\)]" =
        .ok
          { converted := "(?:(a\\^b)|)"
            ignoreCase := false
            magicness := .magic
            metadata := {} } ∧
      (Scan.ofPattern .magic "\\%[\\(a^b\\)]").tokens = before ++ caret :: others ∧
        Token.inOptional before = false ∧
          (Trace.ofPattern {} "\\%[\\(a^b\\)]").text = "(?:(a\\^b)|)" ∧
            (Trace.ofPattern {} "\\%[\\(a^b\\)]").Contributes before caret "\\^" := by
  intro caret before others
  have converted :
      convert {} "\\%[\\(a^b\\)]" =
        .ok
          { converted := "(?:(a\\^b)|)"
            ignoreCase := false
            magicness := .magic
            metadata := {} } := by
    rfl
  have tokens : (Scan.ofPattern .magic "\\%[\\(a^b\\)]").tokens = before ++ caret :: others := by
    decide +kernel
  have outside : Token.inOptional before = false := by decide
  obtain ⟨text, _, leaves⟩ := caret_text_iff converted tokens rfl outside
  exact ⟨converted, tokens, outside, text, (leaves { options := {} } rfl).2 (by decide)⟩

/-- With a repetition between the line break and the caret the caret leaves nothing either,
though what comes directly before it is no line break and it would have to stand for itself,
or anchor at the highest level. -/
theorem caret_text_differs :
    let caret : Token := { lexeme := .caret, raw := "^", position := 4, magicness := .magic }
    let before : List Token :=
      [{ lexeme := .literal .lineBreak, raw := "\\n", position := 0, magicness := .magic },
        { lexeme := .quantifier .plus, raw := "\\+", position := 2, magicness := .magic }]
    let others : List Token :=
      [{ lexeme := .literal (.plain 'a'), raw := "a", position := 5, magicness := .magic }]
    (convert {} "\\n\\+^a" =
        .ok
          { converted := "\\n+a"
            ignoreCase := false
            magicness := .magic
            metadata := {} } ∧
      (Scan.ofPattern .magic "\\n\\+^a").tokens = before ++ caret :: others ∧
        Token.inOptional before = false ∧
          Token.caretText { options := {} } before caret = "\\^") ∧
      (Trace.ofPattern {} "\\n\\+^a").text = "\\n+a" ∧
        ¬(Trace.ofPattern {} "\\n\\+^a").Contributes before caret "\\^" := by
  intro caret before others
  have spares : (Trace.ofPattern {} "\\n\\+^a").Spares caret := by decide +kernel
  refine ⟨by decide +kernel, by decide +kernel, Trace.not_contributes (by decide) spares⟩

end VimPattern
