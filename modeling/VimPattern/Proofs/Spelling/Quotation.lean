/-
Module: VimPattern.Proofs.Spelling.Quotation
Purpose: A text that is quoted for a pattern is converted to text that matches just it.
Main exports:
  quoted, Quotes, quotes_veryNonMagic, quotes_magic, Scan.passes_quoted,
  Growth.run_literals, standsFor_textOf, exists_convert_verbatimPattern,
  verbatim?_convert_quoted
-/
import VimPattern.Proofs.Spelling.Translation
import VimPattern.Proofs.Target.Verbatim

namespace VimPattern

/-!
To search for a text, a pattern has to say it without meaning anything else.  It is
enough to put a backslash before the characters that are operators at the level of the
pattern, and before the backslash itself: every other character is an atom of its own,
whatever stands next to it, and what a backslash makes of the rest is an atom as well.
-/

/-! ### Quotation -/

/-- The text with a backslash before each of the special characters. -/
def quoted (special : List Char) (text : List Char) : List Char :=
  text.flatMap fun char => if char ∈ special then ['\\', char] else [char]

@[simp] theorem quoted_nil (special : List Char) : quoted special [] = [] := rfl

@[simp] theorem quoted_cons (special : List Char) (char : Char) (text : List Char) :
    quoted special (char :: text) =
      (if char ∈ special then ['\\', char] else [char]) ++ quoted special text :=
  List.flatMap_cons

/-- The atom that a quoted character is. -/
def quotedAtom (special : List Char) (char : Char) : Literal :=
  if char ∈ special then .escaped char else .plain char

/-- At this level the special characters are those that need a backslash, and a
backslash makes each of them stand for itself. -/
structure Quotes (special : List Char) (level : Magicness) : Prop where
  notHighest : level ≠ .veryMagic
  backslash : '\\' ∈ special
  operators : ∀ operator : Operator, operator.isBareAt level → operator.char ∈ special
  escaped :
    ∀ char ∈ special, ∀ context : Context, context.magicness = level → ∀ text,
      Verdict.escaped context (char :: text) = Verdict.literal (.escaped char) 1
  quotable : ∀ char ∈ special, Escape.backslashed char = Escape.quoted char
  unmarking : ∀ char ∈ special, char ≠ 'c' ∧ char ≠ 'C'

/-- At the level where no operator is bare, only the backslash is special. -/
theorem quotes_veryNonMagic : Quotes ['\\'] .veryNonMagic where
  notHighest := by decide
  backslash := .head _
  operators := by
    intro operator bare
    cases bare
  escaped := by
    intro char among context here text
    rw [List.mem_singleton.1 among]
    rfl
  quotable := by
    intro char among
    rw [List.mem_singleton.1 among]
    rfl
  unmarking := by
    intro char among
    rw [List.mem_singleton.1 among]
    decide

/-- At the usual level the older operators and the closing bracket are special. -/
theorem quotes_magic : Quotes ['\\', '.', '*', '[', ']', '^', '$', '~'] .magic where
  notHighest := by decide
  backslash := .head _
  operators := by
    intro operator bare
    cases operator <;> first | decide | cases bare
  escaped := by
    intro char among context here text
    simp only [List.mem_cons, List.not_mem_nil, or_false] at among
    rcases among with rfl | rfl | rfl | rfl | rfl | rfl | rfl | rfl <;>
      simp only [Verdict.escaped, Operator.ofChar?, here] <;> rfl
  quotable := by
    intro char among
    simp only [List.mem_cons, List.not_mem_nil, or_false] at among
    rcases among with rfl | rfl | rfl | rfl | rfl | rfl | rfl | rfl <;> rfl
  unmarking := by
    intro char among
    simp only [List.mem_cons, List.not_mem_nil, or_false] at among
    rcases among with rfl | rfl | rfl | rfl | rfl | rfl | rfl | rfl <;> decide

/-! ### Reading -/

namespace Scan

variable {special : List Char} {level : Magicness}

/-- Outside all constructs a quoted character is an atom. -/
theorem passes_quotedChar (quotes : Quotes special level) (char : Char)
    {context : Context} (here : context.magicness = level)
    (initial : context.enclosing = []) (position : Nat) (rest : List Char) :
    ∃ token place, token.lexeme = .literal (quotedAtom special char) ∧
      Passes context position
        ((if char ∈ special then ['\\', char] else [char]) ++ rest) [token]
        (context.afterToken token) place rest := by
  have outside : context.collection? = none := by rw [Context.collection?, initial]
  by_cases among : char ∈ special
  · have verdict :
        context.verdict '\\' (char :: rest) =
          .item (.lexeme (.literal (.escaped char))) 1 := by
      rw [Context.verdict_outside outside, Verdict.outside, if_pos rfl,
        quotes.escaped char among context here rest]
      rfl
    rw [if_pos among, quotedAtom, if_pos among]
    exact Passes.token verdict position
  · have verdict :
        context.verdict char rest = .item (.lexeme (.literal (.plain char))) 0 := by
      have notEscape : char ≠ '\\' := fun same => among (same ▸ quotes.backslash)
      rw [Context.verdict_outside outside, Verdict.outside, if_neg notEscape]
      unfold Verdict.bare
      split
      · next operator found =>
          have inactive : ¬operator.isActive context.magicness false := by
            intro active
            have bare : operator.isBareAt level := by
              simpa [Operator.isActive, here] using active
            exact among (Operator.char_of_ofChar? found ▸ quotes.operators operator bare)
          rw [if_neg inactive]
          rfl
      · have lower : context.magicness ≠ .veryMagic := here ▸ quotes.notHighest
        have region : context.region ≠ .optionalMatch := by
          rw [Context.region, initial]
          decide
        split
        · rw [if_neg lower]
          rfl
        · rw [if_neg lower]
          rfl
        · rw [if_neg region]
          rfl
        · rfl
    rw [if_neg among, quotedAtom, if_neg among]
    exact Passes.token verdict position

/-- An atom that is a character changes nothing but what a star would be. -/
theorem afterToken_quotedAtom (context : Context) {token : Token} {char : Char}
    (same : token.lexeme = .literal (quotedAtom special char)) :
    ∃ star start,
      context.afterToken token =
        { context with starIsLiteral := star, atLineStart := start } := by
  rcases token with ⟨lexeme, raw, place, level⟩
  obtain rfl := same
  unfold quotedAtom
  split <;> exact ⟨_, _, rfl⟩

/-- Quoted text is read character by character. -/
theorem passes_quoted (quotes : Quotes special level) (text : List Char)
    {context : Context} (here : context.magicness = level)
    (initial : context.enclosing = []) (position : Nat) (rest : List Char) :
    ∃ tokens star start place,
      tokens.map Token.lexeme =
          text.map (fun char => .literal (quotedAtom special char)) ∧
        Passes context position (quoted special text ++ rest) tokens
          { context with starIsLiteral := star, atLineStart := start } place rest := by
  induction text generalizing context position with
  | nil => exact ⟨[], _, _, position, rfl, .nothing _ _ _⟩
  | cons char text inductionHypothesis =>
      obtain ⟨token, halfway, same, first⟩ :=
        passes_quotedChar quotes char here initial position (quoted special text ++ rest)
      obtain ⟨star, start, after⟩ := afterToken_quotedAtom context same
      rw [after] at first
      have between :
          ({ context with starIsLiteral := star, atLineStart := start } : Context).magicness =
            level := here
      obtain ⟨tokens, lastStar, lastStart, place, lexemes, others⟩ :=
        inductionHypothesis between initial halfway
      refine ⟨token :: tokens, lastStar, lastStart, place, ?_, ?_⟩
      · rw [List.map_cons, List.map_cons, same, lexemes]
      · rw [quoted_cons, List.append_assoc]
        exact first.append others

end Scan

/-! ### Growing -/

/-- Atoms outside all constructs become pieces, one after the other. -/
theorem Growth.run_literals (terminus : Terminus) {tokens : List Token}
    (literals : ∀ token ∈ tokens, token.kind = .literal) (base : Draft)
    (ends : Bool) (read : Nat) :
    ∃ pieces : Tree .concat,
      Growth.run (.ok terminus) { base := base, dollarEnds := ends } read tokens =
          .ok
            { tree := ({ base with pieces := pieces } : Draft).pattern
              dollarEnds := ends
              context := terminus.context } ∧
        ∀ style,
          pieces.text style = base.pieces.text style ++ Token.textOf style tokens := by
  induction tokens generalizing base read with
  | nil => exact ⟨base.pieces, rfl, by simp⟩
  | cons token others inductionHypothesis =>
      obtain ⟨first, rest⟩ := List.forall_mem_cons.1 literals
      obtain ⟨pieces, ran, texts⟩ :=
        inductionHypothesis rest
          { base with pieces := .snoc base.pieces (.bare (.literal token)) } (read + 1)
      refine ⟨pieces, ?_, ?_⟩
      · rw [← ran, Growth.run]
        simp only [step, stepOutside, first]
        rfl
      · intro style
        rw [texts style, Tree.text_snoc, Tree.text_bare, Tree.text_literal,
          Token.textOf_cons, String.append_assoc]

/-! ### Converting -/

section

variable {special : List Char} {level : Magicness}

/-- The atoms of a quoted text stand for the text. -/
theorem standsFor_textOf (quotes : Quotes special level) (style : Style)
    {tokens : List Token} {text : List Char}
    (lexemes :
      tokens.map Token.lexeme =
        text.map fun char => .literal (quotedAtom special char)) :
    Target.StandsFor (Token.textOf style tokens) text := by
  induction tokens generalizing text with
  | nil =>
      obtain rfl : text = [] := List.map_eq_nil_iff.1 lexemes.symm
      rw [Token.textOf_nil]
      exact Target.standsFor_empty
  | cons token others inductionHypothesis =>
      cases text with
      | nil => cases lexemes
      | cons char text =>
          rw [List.map_cons, List.map_cons, List.cons.injEq] at lexemes
          have first : Target.StandsFor (token.text style) [char] := by
            rw [Token.text, lexemes.1, quotedAtom]
            by_cases among : char ∈ special
            · rw [if_pos among]
              change Target.StandsFor (Escape.backslashed char) [char]
              rw [quotes.quotable char among]
              exact Escape.standsFor_quoted char
            · have notEscape : char ≠ '\\' := fun same => among (same ▸ quotes.backslash)
              rw [if_neg among]
              exact Escape.standsFor_plain notEscape
          rw [Token.textOf_cons]
          exact first.append (inductionHypothesis lexemes.2)

/-- Quoted text says nothing about the case of letters: the backslash before a special
character takes it along, and there is no other one. -/
theorem unmarked_quoted (quotes : Quotes special level) (text : List Char) :
    Sketch.Unmarked (quoted special text) := by
  induction text with
  | nil => exact Sketch.unmarked_nil
  | cons char text inductionHypothesis =>
      rw [quoted_cons]
      apply Sketch.Unmarked.append _ inductionHypothesis
      by_cases among : char ∈ special
      · obtain ⟨notSmall, notCapital⟩ := quotes.unmarking char among
        rw [if_pos among]
        intro rest
        change caseMarker? ('\\' :: char :: rest) = _
        rw [caseMarker?]
        · exact notSmall
        · exact notCapital
      · have notEscape : char ≠ '\\' := fun same => among (same ▸ quotes.backslash)
        rw [if_neg among]
        apply Sketch.unmarked_of_forall
        intro other only
        rwa [List.mem_singleton.1 only]

/-- The pattern that selects a level and says a text at it. -/
def verbatimPattern (special : List Char) (level : Magicness) (text : String) : String :=
  String.ofList ('\\' :: level.switchChar :: quoted special text.toList)

/-- A pattern that says a text is scanned to its end: it has one atom for each
character and nothing else. -/
theorem scan_verbatimPattern (quotes : Quotes special level) (start : Magicness)
    (text : String) :
    ∃ tokens terminus,
      (Scan.ofPattern start (verbatimPattern special level text)).tokens = tokens ∧
        (Scan.ofPattern start (verbatimPattern special level text)).result =
            .ok terminus ∧
          tokens.map Token.lexeme =
              text.toList.map (fun char => .literal (quotedAtom special char)) ∧
            terminus.context.tally = {} := by
  let context : Context := { Context.start start with magicness := level }
  have verdict :
      (Context.start start).verdict '\\' (level.switchChar :: quoted special text.toList) =
        .item (.mark (.switch level)) 1 := by
    cases level <;> rfl
  obtain ⟨tokens, star, atStart, place, lexemes, passes⟩ :=
    Scan.passes_quoted quotes text.toList (rfl : context.magicness = level) rfl 2 []
  rw [List.append_nil] at passes
  have switched :
      Scan.ofPattern start (verbatimPattern special level text) =
        (Scan.readFrom context 2 0 (quoted special text.toList)).cons
          { content := .mark (.switch level)
            raw := String.ofList ['\\', level.switchChar]
            position := 0
            magicness := level } := by
    rw [Scan.ofPattern, verbatimPattern, String.toList_ofList, Scan.readFrom_item verdict]
    have size : Scan.byteLength ['\\', level.switchChar] = 2 := by cases level <;> rfl
    change
      (Scan.readFrom context (0 + Scan.byteLength ['\\', level.switchChar]) 0
        (quoted special text.toList)).cons _ = _
    rw [size]
    rfl
  let last : Context := { context with starIsLiteral := star, atLineStart := atStart }
  refine ⟨tokens, { position := place, context := last }, ?_, ?_, lexemes, rfl⟩
  · rw [switched]
    exact passes.tokens_eq.trans (List.append_nil tokens)
  · rw [switched, Scan.result]
    have ending := passes.ending_eq
    change (Scan.readFrom context 2 0 (quoted special text.toList)).ending = _ at ending
    simp only [Scan.cons, ending]
    rfl

/-- A pattern that says a text grows to a single operand, whose pieces are the atoms of
the text, and there is nothing to report about it. -/
theorem ofScan_verbatimPattern (quotes : Quotes special level) (start : Magicness)
    (text : String) :
    ∃ grown tokens,
      Tree.ofScan (Scan.ofPattern start (verbatimPattern special level text)) = .ok grown ∧
        tokens.map Token.lexeme =
            text.toList.map (fun char => .literal (quotedAtom special char)) ∧
          (∀ style, grown.tree.text style = Token.textOf style tokens) ∧
            Metadata.ofTally grown.context.tally grown.dollarEnds = {} := by
  obtain ⟨tokens, terminus, scanned, whole, lexemes, tally⟩ :=
    scan_verbatimPattern quotes start text
  have literals : ∀ token ∈ tokens, token.kind = .literal := by
    intro token among
    have lexeme := List.mem_map_of_mem (f := Token.lexeme) among
    rw [lexemes] at lexeme
    obtain ⟨char, _, same⟩ := List.mem_map.1 lexeme
    rw [Token.kind, ← same]
    rfl
  obtain ⟨pieces, grows, texts⟩ := Growth.run_literals terminus literals {} false 0
  let grown : Grown :=
    { tree := .single (.operand pieces)
      dollarEnds := false
      context := terminus.context }
  refine ⟨grown, tokens, ?_, lexemes, ?_, ?_⟩
  · rw [Tree.ofScan, whole, scanned]
    exact grows
  · intro style
    change Tree.text style (.single (.operand pieces)) = _
    rw [Tree.text_single, Tree.text_operand, texts style, Tree.text_empty]
    exact String.empty_append
  · change Metadata.ofTally terminus.context.tally false = {}
    rw [tally]
    rfl

/-- A pattern that says a text leaves the folding of case to the options. -/
theorem foldsCase_verbatimPattern (quotes : Quotes special level) (options : Options)
    (text : String) :
    foldsCase options (verbatimPattern special level text) = options.ignoreCase := by
  have unmarked := unmarked_quoted quotes text.toList []
  rw [List.append_nil] at unmarked
  have switch :
      caseMarker? ('\\' :: level.switchChar :: quoted special text.toList) =
        caseMarker? (quoted special text.toList) := by
    cases level <;> rfl
  rw [foldsCase, verbatimPattern, String.toList_ofList, switch, unmarked]
  rfl

/-- A text that is said by a pattern is what the converted pattern matches. -/
theorem exists_convert_verbatimPattern (quotes : Quotes special level)
    (options : Options) (text : String) :
    ∃ conversion,
      convert { options with ignoreCase := false } (verbatimPattern special level text) =
          .ok conversion ∧
        Target.verbatim? conversion.converted.toList = some text.toList ∧
          conversion.metadata = {} := by
  let settings : Options := { options with ignoreCase := false }
  obtain ⟨grown, tokens, complete, lexemes, texts, metadata⟩ :=
    ofScan_verbatimPattern quotes settings.magicness text
  have nonempty : ¬(verbatimPattern special level text).isEmpty := by
    rw [verbatimPattern]
    simp
  have keepsCase : foldsCase settings (verbatimPattern special level text) = false :=
    foldsCase_verbatimPattern quotes settings text
  refine ⟨Conversion.ofGrown settings false grown, ?_, ?_, metadata⟩
  · change convert settings _ = _
    rw [convert, if_neg nonempty]
    simp only [keepsCase, complete]
  · change Target.verbatim? (grown.tree.text _).toList = _
    rw [texts]
    exact (standsFor_textOf quotes _ lexemes).verbatim?_eq

end

/-- Text that a pattern quotes is matched as it stands: where no operator is bare it is
enough to double the backslashes, and at the usual level to put one before each of the
characters that are operators there. -/
theorem verbatim?_convert_quoted (options : Options) (text : String) :
    (∃ conversion,
      convert { options with ignoreCase := false }
            ("\\V" ++ String.ofList (quoted ['\\'] text.toList)) =
          .ok conversion ∧
        Target.verbatim? conversion.converted.toList = some text.toList ∧
          conversion.metadata = {}) ∧
      ∃ conversion,
        convert { options with ignoreCase := false }
              ("\\m" ++
                String.ofList
                  (quoted ['\\', '.', '*', '[', ']', '^', '$', '~'] text.toList)) =
            .ok conversion ∧
          Target.verbatim? conversion.converted.toList = some text.toList ∧
            conversion.metadata = {} := by
  have spelled (special : List Char) (level : Magicness) :
      verbatimPattern special level text =
        String.ofList ['\\', level.switchChar] ++
          String.ofList (quoted special text.toList) := by
    rw [verbatimPattern, ← String.ofList_append]
    rfl
  have atLowest := exists_convert_verbatimPattern quotes_veryNonMagic options text
  have usually := exists_convert_verbatimPattern quotes_magic options text
  rw [spelled] at atLowest usually
  exact ⟨atLowest, usually⟩

end VimPattern
