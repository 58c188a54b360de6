/-
Module: VimPattern.Proofs.Failure.Consistency
Purpose: The errors by which two stages would contradict each other do not come up.
Main exports:
  Token.separatorRaw, Token.Located.raw_eq, consistent_convert
-/
import VimPattern.Proofs.Failure.Blame
import VimPattern.Proofs.Failure.Checked

namespace VimPattern

/-!
A token that the scanner has read could still be refused by its own converter, and a closing
that it admits could find nothing to close.  Neither happens.  What is left of the error for a
token that cannot stand where it is are the two separators directly inside an optional
sequence.
-/

/-! ### Separators -/

/-- The spelling of a separator: the character alone in very magic, and behind a backslash at
the other levels. -/
def Token.separatorRaw (token : Token) : String :=
  match token.kind, token.magicness with
  | .conjunction, .veryMagic => "&"
  | .conjunction, _ => "\\&"
  | _, .veryMagic => "|"
  | _, _ => "\\|"

/-- A separator is spelled like one. -/
theorem Token.Located.raw_eq {pattern : String} {token : Token}
    (located : token.Located pattern)
    (kind : token.kind = .conjunction ∨ token.kind = .alternative) :
    token.raw = token.separatorRaw := by
  obtain ⟨context, level, spells⟩ := located.spelled
  rcases token with ⟨lexeme, raw, position, magicness⟩
  dsimp only at level spells ⊢
  subst level
  have same {operator : Operator} {separator : String}
      (spelled : raw.toList = operator.spelling context.magicness ++ [])
      (written : String.ofList (operator.spelling context.magicness) = separator) :
      raw = separator := by
    rw [← written, ← List.append_nil (operator.spelling _), ← spelled, String.ofList_toList]
  generalize written : raw.toList = characters at spells
  cases spells with
  | inside inside spells =>
      cases spells <;> rcases kind with kind | kind <;> cases kind
  | outside outside spells =>
      cases spells with
      | operator active means =>
          cases means with
          | conjunction =>
              refine same written ?_
              cases context.magicness <;> rfl
          | alternative =>
              refine same written ?_
              cases context.magicness <;> rfl
          | _ => rcases kind with kind | kind <;> cases kind
      | _ => rcases kind with kind | kind <;> cases kind

/-! ### Whole patterns -/

/-- The converters that can fail accept every token of every pattern, since they accept
whatever the rules for these tokens match.  A conversion never fails because the pattern is
over inside a collection or an optional sequence, and if a token is reported that cannot stand
where it is, then it is a separator and the innermost construct that is open before it is an
optional sequence. -/
theorem consistent_convert (options : Options) (pattern : String) :
    (∀ style, (Scan.ofPattern options.magicness pattern).checkedTexts style =
      .ok ((Scan.ofPattern options.magicness pattern).tokens.map (Token.text style))) ∧
    (∀ escaped text, Braces.Matches escaped text →
      ∃ braces : Braces, quantifierText (String.ofList text) = .ok braces.text) ∧
    (∀ letter ∈ CharClass.letters, ∀ withBreak, ∃ charClass : CharClass,
      classText options letter withBreak = .ok (charClass.text options withBreak)) ∧
    ∀ error, convert options pattern = .error error →
      (∀ position, error.cause ≠ .parse (.unexpectedEnd position)) ∧
      ∀ name position, error.cause = .parse (.unexpectedToken name position) →
        ∃ before token others opener outer,
          (Scan.ofPattern options.magicness pattern).tokens = before ++ token :: others ∧
            Token.unclosed before = opener :: outer ∧ opener.kind = .optionalOpen ∧
              (token.kind = .conjunction ∨ token.kind = .alternative) ∧
                token.position = position ∧ token.raw = name ∧ name = token.separatorRaw := by
  refine ⟨fun style => Scan.checkedTexts_ofPattern style _ _,
    fun escaped text => quantifierText_of_matches,
    fun letter member withBreak => classText_of_mem_letters member options withBreak, ?_⟩
  intro error failed
  have blames := blames_of_convert failed
  refine ⟨?_, ?_⟩
  · rintro position cause
    rcases blames with ⟨_, _, other⟩ | ⟨_, same, blames⟩
    · cases cause.symm.trans other
    · cases cause.symm.trans same
      cases blames
  · rintro name position cause
    rcases blames with ⟨_, _, other⟩ | ⟨_, same, blames⟩
    · cases cause.symm.trans other
    · cases cause.symm.trans same
      cases blames with
      | @separator before outer token opener halts kind unclosed opens =>
          obtain ⟨_ | ⟨first, others⟩, split, next⟩ := halts.split
          · cases next
          · cases next
            have among : token ∈ (Scan.ofPattern options.magicness pattern).tokens := by
              rw [split]
              exact List.mem_append_right _ (.head _)
            have located := Scan.located_ofPattern _ _ token among
            exact ⟨before, token, others, opener, outer, split, unclosed, opens, kind, rfl, rfl,
              located.raw_eq kind⟩

/-- A bar is reported that stands directly inside an optional sequence, behind a counted
repetition and a class. -/
theorem consistent_convert_bar :
    convert {} "a\\\x7b-2,\\\x7d\\s\\%[b\\|c]" =
        .error
          { pattern := "a\\\x7b-2,\\\x7d\\s\\%[b\\|c]"
            partialText := some "a\x7b2,\x7d?[ \\t]\\%[b|c"
            cause := .parse (.unexpectedToken "\\|" 14) } ∧
      (∃ braces : Braces,
        quantifierText (String.ofList "\\\x7b-2,\\\x7d".toList) = .ok braces.text) ∧
        (∃ charClass : CharClass, classText {} 's' false = .ok (charClass.text {} false)) ∧
          ∃ before token others opener outer,
            (Scan.ofPattern .magic "a\\\x7b-2,\\\x7d\\s\\%[b\\|c]").tokens =
                before ++ token :: others ∧
              Token.unclosed before = opener :: outer ∧ opener.kind = .optionalOpen ∧
                (token.kind = .conjunction ∨ token.kind = .alternative) ∧
                  token.position = 14 ∧ token.raw = "\\|" ∧ "\\|" = token.separatorRaw := by
  have failed :
      convert {} "a\\\x7b-2,\\\x7d\\s\\%[b\\|c]" =
        .error
          { pattern := "a\\\x7b-2,\\\x7d\\s\\%[b\\|c]"
            partialText := some "a\x7b2,\x7d?[ \\t]\\%[b|c"
            cause := .parse (.unexpectedToken "\\|" 14) } := by
    rfl
  obtain ⟨_, quantifiers, classes, errors⟩ :=
    consistent_convert {} "a\\\x7b-2,\\\x7d\\s\\%[b\\|c]"
  refine ⟨failed, quantifiers true _ ?_, classes 's' (by decide) false,
    (errors _ failed).2 _ _ rfl⟩
  let braces : Braces :=
    { lazy := true
      low := ['2']
      hasComma := true
      high := [] }
  have digital : braces.Digital := ⟨List.all_eq_true.1 rfl, List.all_eq_true.1 rfl⟩
  exact @Braces.Matches.written true braces true digital (fun _ => rfl)

end VimPattern
