/-
Module: VimPattern.Proofs.Failure.Checked
Purpose: The converters that can fail accept every text the scanner gives them.
Main exports:
  quantifierText_of_matches, classText_of_mem_letters, Inconsistency, Token.checkedText,
  Token.Located.checkedText_eq, Scan.checkedTexts, Scan.checkedTexts_ofPattern
-/
import VimPattern.Proofs.Scan.Sites
import VimPattern.Proofs.Spelling.Braces

namespace VimPattern

/-!
Two sorts of tokens have a second way to their target text, which starts from the spelling:
counted repetitions are read again by a pattern for the whole text, and class letters are
looked up again in a table.  Either could refuse what the scanner has let through.  It does
not: what a brace rule matches is written down without any reader, and both readers read it.
-/

/-! ### Counted repetitions -/

/-- The converter for counted repetitions accepts whatever the rules for them match. -/
theorem quantifierText_of_matches {escaped : Bool} {text : List Char}
    (written : Braces.Matches escaped text) :
    ∃ braces : Braces, quantifierText (String.ofList text) = .ok braces.text := by
  cases written with
  | @written braces closingEscape digital allowed =>
      have read := Braces.ofText?_written digital.settled braces.high_settled escaped closingEscape
      rw [Braces.body_settled] at read
      refine ⟨braces.settled, ?_⟩
      rw [quantifierText, String.toList_ofList, read]

/-! ### Class letters -/

/-- The letters that the rule for character classes matches. -/
def CharClass.letters : List Char :=
  "iIkKfFpPsSdDxXoOwWhHaAlLuU".toList

/-- The converter for character classes knows all of these letters. -/
theorem classText_of_mem_letters {letter : Char} (member : letter ∈ CharClass.letters)
    (options : Options) (withBreak : Bool) :
    ∃ charClass : CharClass,
      classText options letter withBreak = .ok (charClass.text options withBreak) := by
  have known : CharClass.letters.all fun letter => (CharClass.ofLetter? letter).isSome := rfl
  obtain ⟨charClass, found⟩ := Option.isSome_iff_exists.1 (List.all_eq_true.1 known _ member)
  exact ⟨charClass, by rw [classText, found]⟩

/-! ### Tokens -/

/-- A token that the scanner has read and its own converter refuses. -/
inductive Inconsistency where
  | malformedQuantifier (malformed : MalformedQuantifier)
  | unknownClass (unknown : UnknownClass)
deriving Repr, DecidableEq

/-- The target text of a token, where the converters that can fail look at the spelling. -/
def Token.checkedText (style : Style) (token : Token) : Except Inconsistency String :=
  match token.lexeme with
  | .quantifier (.counted _) =>
      (quantifierText token.raw).mapError .malformedQuantifier
  | .literal (.charClass _ _) =>
      -- The letter comes last, and an underscore between it and the backslash asks for a break.
      let spelled := token.raw.toList.drop 1
      (classText style.options (spelled.getLastD 's') (spelled.head? == some '_')).mapError
        .unknownClass
  | _ => .ok (token.text style)

/-- A counted repetition is spelled as its rule says, and its converter gives the text of what
the scanner has read. -/
theorem Context.Spells.counted {context : Context} {raw : List Char} {count : Braces}
    (spells : context.Spells raw (.lexeme (.quantifier (.counted count)))) :
    (∃ escaped, Braces.Matches escaped raw) ∧
      quantifierText (String.ofList raw) = .ok count.text := by
  cases spells with
  | inside inside spells => cases spells
  | outside outside spells =>
      cases spells with
      | @operator operator escaped text content taken active means =>
          cases means with
          | braces read =>
              obtain ⟨digital, settled, closingEscape, allowed, same⟩ :=
                Braces.exists_body_of_read? read
              have spelling : Operator.braces.spelling context.magicness ++ text.take taken =
                  (if escaped then ['\\'] else []) ++ '\x7b' :: count.body closingEscape := by
                rw [Operator.spelling_of_isActive active, same]
                cases escaped <;> rfl
              have whole := Braces.ofText?_written digital settled escaped closingEscape
              rw [spelling]
              refine ⟨⟨escaped, .written digital allowed⟩, ?_⟩
              rw [quantifierText, String.toList_ofList, whole]

/-- A class letter is looked up as it has been read. -/
theorem Context.Spells.charClass {context : Context} {raw : List Char}
    {letterClass : CharClass} {withBreak : Bool}
    (spells : context.Spells raw (.lexeme (.literal (.charClass letterClass withBreak)))) :
    ∃ letter, CharClass.ofLetter? letter = some letterClass ∧
      (raw.drop 1).getLastD 's' = letter ∧ ((raw.drop 1).head? == some '_') = withBreak := by
  cases spells with
  | inside inside spells => cases spells
  | outside outside spells =>
      cases spells with
      | operator active means => cases means
      | @charClass letter letterClass names =>
          refine ⟨letter, names, rfl, ?_⟩
          rw [List.drop_succ_cons, List.drop_zero, List.head?_cons, beq_eq_false_iff_ne]
          rintro ⟨⟩
          cases names
      | @classOrBreak letter letterClass names => exact ⟨letter, names, rfl, rfl⟩

/-- A token that stands in a pattern has the checked text, and it is the plain one. -/
theorem Token.Located.checkedText_eq {pattern : String} {token : Token}
    (located : token.Located pattern) (style : Style) :
    token.checkedText style = .ok (token.text style) := by
  obtain ⟨context, _, spells⟩ := located.spelled
  rcases token with ⟨lexeme, raw, position, level⟩
  unfold checkedText
  dsimp only
  split
  · next count =>
      have converted := spells.counted.2
      rw [String.ofList_toList] at converted
      rw [converted]
      rfl
  · next letterClass withBreak =>
      obtain ⟨letter, found, last, first⟩ := spells.charClass
      rw [last, first, classText, found]
      rfl
  · rfl

/-- The checked texts of the tokens of a scan, up to the first that is refused. -/
def Scan.checkedTexts (style : Style) (scan : Scan) : Except Inconsistency (List String) :=
  scan.tokens.mapM (Token.checkedText style)

/-- No token of a pattern is refused by the converters, and they give the same texts. -/
theorem Scan.checkedTexts_ofPattern (style : Style) (level : Magicness) (pattern : String) :
    (ofPattern level pattern).checkedTexts style =
      .ok ((ofPattern level pattern).tokens.map (Token.text style)) := by
  have located := located_ofPattern level pattern
  unfold checkedTexts
  generalize (ofPattern level pattern).tokens = tokens at located
  induction tokens with
  | nil => rfl
  | cons token others inductionHypothesis =>
      obtain ⟨first, rest⟩ := List.forall_mem_cons.1 located
      rw [List.mapM_cons, first.checkedText_eq style, inductionHypothesis rest]
      rfl

end VimPattern
