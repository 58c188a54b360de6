/-
Module: VimPattern.Proofs.Scan.Joints
Purpose: The items of a text stay what they are when another text follows.
Main exports:
  Detached, markPrefixes, Context.verdict_append, Scan.Reads.readFrom_append
-/
import VimPattern.Proofs.Scan.Extent
import VimPattern.Proofs.Scan.Reach

namespace VimPattern

/-!
Many rules take as much text as they can: digits, the bounds between braces, the name of a
class.  What follows a pattern could therefore become a part of its last item.  An item that
starts with a backslash cannot, since the rules look for other characters; three texts apart
that are no items before the next character is known, because they wait for the name of a
mark.
-/

/-- A text that no rule takes into the item before it. -/
def Detached (text : List Char) : Prop :=
  ∃ char more, text = '\\' :: char :: more ∧ char ≠ '\x7d' ∧ char ≠ '=' ∧ char ≠ '.'

section Readers

variable {rest : List Char} (detached : Detached rest)
include detached

theorem Detached.takeWhile_append {belongs : Char → Bool} (stops : belongs '\\' = false)
    (text : List Char) : (text ++ rest).takeWhile belongs = text.takeWhile belongs := by
  obtain ⟨char, more, rfl, _⟩ := detached
  induction text with
  | nil => simp [stops]
  | cons first text inductionHypothesis =>
      rw [List.cons_append, List.takeWhile_cons, List.takeWhile_cons, inductionHypothesis]

theorem Detached.dropWhile_append {belongs : Char → Bool} (stops : belongs '\\' = false)
    (text : List Char) :
    (text ++ rest).dropWhile belongs = text.dropWhile belongs ++ rest := by
  obtain ⟨char, more, rfl, _⟩ := detached
  induction text with
  | nil => simp [stops]
  | cons first text inductionHypothesis =>
      rw [List.cons_append, List.dropWhile_cons, List.dropWhile_cons, inductionHypothesis]
      split <;> rfl

/-- Another character than a backslash at the start is one of the text before. -/
theorem Detached.head?_append {char : Char} (other : char ≠ '\\') (text : List Char) :
    ((text ++ rest).head? == some char) = (text.head? == some char) := by
  obtain ⟨first, more, rfl, _⟩ := detached
  cases text with
  | nil => exact (beq_eq_false_iff_ne.2 fun same => other (Option.some.inj same).symm)
  | cons first text => rfl

/-- A closing brace, escaped or not, is one of the text before. -/
theorem Detached.match_brace {α : Type} {bare escaped missing : α} (text : List Char) :
    (match text ++ rest with
      | '\x7d' :: _ => bare
      | '\\' :: '\x7d' :: _ => escaped
      | _ => missing) =
      match text with
      | '\x7d' :: _ => bare
      | '\\' :: '\x7d' :: _ => escaped
      | _ => missing := by
  obtain ⟨first, more, rfl, notBrace, _⟩ := detached
  rcases text with _ | ⟨one, _ | ⟨two, text⟩⟩
  · simp [notBrace]
  · by_cases brace : one = '\x7d' <;> simp [brace]
  · by_cases brace : one = '\x7d'
    · simp [brace]
    · by_cases backslash : one = '\\' <;> by_cases closing : two = '\x7d' <;>
        simp [brace, backslash, closing]

end Readers

/-- Passing over a character at the start of a text leaves what follows the text. -/
theorem drop_head?_append (char : Char) (text rest : List Char) :
    (if text.head? == some char then (text ++ rest).drop 1 else text ++ rest) =
      (if text.head? == some char then text.drop 1 else text) ++ rest := by
  cases text with
  | nil => rfl
  | cons first text => exact (apply_ite (· ++ rest) _ _ _).symm

section Rules

variable {rest : List Char} (detached : Detached rest)
include detached

theorem Collection.readOpening_append (withBreak : Bool) (text : List Char) :
    readOpening withBreak (text ++ rest) = readOpening withBreak text := by
  have bracket : ']' ≠ '\\' := by decide
  have caret : '^' ≠ '\\' := by decide
  simp only [readOpening, detached.head?_append caret, drop_head?_append,
    detached.head?_append bracket]

theorem Braces.read?_append (closingEscape : Bool) (text : List Char) :
    Braces.read? closingEscape (text ++ rest) = Braces.read? closingEscape text := by
  have dash : '-' ≠ '\\' := by decide
  have comma : ',' ≠ '\\' := by decide
  have stops : Char.isDigit '\\' = false := by decide
  simp only [read?, detached.head?_append dash, drop_head?_append,
    detached.head?_append comma, detached.takeWhile_append stops,
    detached.dropWhile_append stops]
  -- The closing brace is looked for behind the digits, at most two characters deep.
  generalize List.dropWhile Char.isDigit _ = closing
  exact detached.match_brace closing

/-- The sign of a look behind is one of the text before. -/
theorem Detached.match_behind {α : Type} {behind notBehind missing : α} (text : List Char) :
    (match text ++ rest with
      | '<' :: '=' :: _ => behind
      | '<' :: '!' :: _ => notBehind
      | _ => missing) =
      match text with
      | '<' :: '=' :: _ => behind
      | '<' :: '!' :: _ => notBehind
      | _ => missing := by
  obtain ⟨first, more, rfl, _⟩ := detached
  rcases text with _ | ⟨one, _ | ⟨two, text⟩⟩
  · rfl
  · by_cases less : one = '<' <;> simp [less]
  · by_cases less : one = '<'
    · subst less
      by_cases equals : two = '=' <;> by_cases bang : two = '!' <;> simp [equals, bang]
    · simp [less]

theorem Assertion.read?_append (text : List Char) :
    Assertion.read? (text ++ rest) = Assertion.read? text := by
  have stops : Char.isDigit '\\' = false := by decide
  rcases text with _ | ⟨one, text⟩
  · obtain ⟨first, more, rfl, _⟩ := detached
    rfl
  · by_cases ahead : one = '='
    · subst ahead
      rfl
    by_cases notAhead : one = '!'
    · subst notAhead
      rfl
    by_cases atomic : one = '>'
    · subst atomic
      rfl
    rw [List.cons_append, read?, read?, ← List.cons_append]
    · simp only [detached.takeWhile_append stops, detached.dropWhile_append stops]
      exact detached.match_behind _
    all_goals simp [ahead, notAhead, atomic]

theorem CodeNotation.digits_append (codeNotation : CodeNotation) (text : List Char) :
    codeNotation.digits (text ++ rest) = codeNotation.digits text := by
  have stops : Digits.isDigitIn codeNotation.radix '\\' = false := rfl
  rw [digits, digits, detached.takeWhile_append stops]

theorem CodePoint.read?_append (text : List Char) :
    CodePoint.read? (text ++ rest) = CodePoint.read? text := by
  cases text with
  | nil =>
      obtain ⟨first, more, rfl, _⟩ := detached
      rfl
  | cons letter text =>
      rw [List.cons_append, read?, read?]
      cases CodeNotation.ofLetter? letter with
      | none => rfl
      | some codeNotation =>
          dsimp only
          rw [CodeNotation.digits_append detached]

/-- The name of a mark is the only character of an item that may be any character. -/
theorem markOrColumnLength?_append {text : List Char} (named : text ≠ ['\x27']) :
    markOrColumnLength? (text ++ rest) = markOrColumnLength? text := by
  have stops : Char.isDigit '\\' = false := by decide
  rcases text with _ | ⟨one, text⟩
  · obtain ⟨first, more, rfl, _⟩ := detached
    rfl
  · by_cases quote : one = '\x27'
    · subst quote
      cases text with
      | nil => exact absurd rfl named
      | cons markName text => rfl
    · rw [List.cons_append, markOrColumnLength?, markOrColumnLength?, ← List.cons_append]
      · rw [detached.takeWhile_append stops, detached.dropWhile_append stops]
        cases (one :: text).dropWhile Char.isDigit with
        | nil =>
            obtain ⟨first, more, rfl, _⟩ := detached
            exact if_neg (by simp)
        | cons unit text => rfl
      all_goals simp [quote]

/-- The texts that are waiting for the name of a mark. -/
def markPrefixes : List (List Char) :=
  [['\\', '%', '\x27'], ['\\', '%', '<', '\x27'], ['\\', '%', '>', '\x27']]

theorem editorPositionLength?_append {text : List Char}
    (named : '\\' :: '%' :: text ∉ markPrefixes) :
    editorPositionLength? (text ++ rest) = editorPositionLength? text := by
  have place (text : List Char) (sign : Char) (behind : sign ∈ ['<', '>'])
      (named : '\\' :: '%' :: sign :: text ∉ markPrefixes) :
      markOrColumnLength? (text ++ rest) = markOrColumnLength? text := by
    apply markOrColumnLength?_append detached
    rintro rfl
    apply named
    simp only [List.mem_cons, List.not_mem_nil, or_false] at behind
    rcases behind with rfl | rfl <;> simp [markPrefixes]
  have alone : text ≠ ['\x27'] := by
    rintro rfl
    exact named (.head _)
  rcases text with _ | ⟨one, text⟩
  · obtain ⟨first, more, rfl, _⟩ := detached
    rfl
  · by_cases visual : one = 'V'
    · subst visual
      rfl
    by_cases cursor : one = '#'
    · subst cursor
      rfl
    by_cases less : one = '<'
    · subst less
      exact congrArg (Option.map _) (place text _ (by simp) named)
    by_cases greater : one = '>'
    · subst greater
      exact congrArg (Option.map _) (place text _ (by simp) named)
    rw [List.cons_append, editorPositionLength?, editorPositionLength?, ← List.cons_append]
    · exact markOrColumnLength?_append detached alone
    all_goals simp [visual, cursor, less, greater]

end Rules

namespace Verdict

section

variable {rest : List Char} (detached : Detached rest)
include detached

theorem afterUnderscore_append (text : List Char) :
    afterUnderscore (text ++ rest) = afterUnderscore text := by
  rcases text with _ | ⟨one, text⟩
  · obtain ⟨first, more, rfl, _⟩ := detached
    rfl
  · by_cases bracket : one = '['
    · subst bracket
      rw [List.cons_append, afterUnderscore, afterUnderscore,
        Collection.readOpening_append detached]
    · unfold afterUnderscore
      split <;> simp_all

theorem afterZ_append (context : Context) (text : List Char) :
    afterZ context (text ++ rest) = afterZ context text := by
  rcases text with _ | ⟨one, text⟩
  · obtain ⟨first, more, rfl, _⟩ := detached
    rfl
  · unfold afterZ
    split <;> simp_all

theorem afterPercent_append {text : List Char}
    (named : '\\' :: '%' :: text ∉ markPrefixes) :
    afterPercent (text ++ rest) = afterPercent text := by
  rcases text with _ | ⟨one, text⟩
  · obtain ⟨first, more, rfl, _⟩ := detached
    rfl
  · by_cases anchored : one ∈ ['^', '$', '(', '[']
    · simp only [List.mem_cons, List.not_mem_nil, or_false] at anchored
      rcases anchored with rfl | rfl | rfl | rfl <;> rfl
    · simp only [List.mem_cons, List.not_mem_nil, or_false, not_or] at anchored
      obtain ⟨caret, dollar, group, bracket⟩ := anchored
      rw [List.cons_append, afterPercent, afterPercent, ← List.cons_append]
      · rw [editorPositionLength?_append detached named, CodePoint.read?_append detached]
      all_goals simp [caret, dollar, group, bracket]

theorem afterBackslash_append (context : Context) (char : Char) {text : List Char}
    (named : '\\' :: char :: text ∉ markPrefixes) :
    afterBackslash context char (text ++ rest) = afterBackslash context char text := by
  unfold afterBackslash
  cases Magicness.ofSwitch? char with
  | some level => rfl
  | none =>
      cases CharClass.ofLetter? char with
      | some charClass => rfl
      | none =>
          dsimp only
          split
          · rfl
          · exact afterUnderscore_append detached text
          · exact afterZ_append detached context text
          · exact afterPercent_append detached named
          all_goals rfl

end

end Verdict

theorem Operator.read?_append {rest : List Char} (detached : Detached rest)
    (context : Context) (escaped : Bool) (text : List Char) (operator : Operator) :
    operator.read? context escaped (text ++ rest) = operator.read? context escaped text := by
  cases operator with
  | collection => rw [read?, read?, Collection.readOpening_append detached]
  | braces => rw [read?, read?, Braces.read?_append detached]
  | assertion => rw [read?, read?, Assertion.read?_append detached]
  | _ => rfl

namespace Verdict

section

variable {rest : List Char} (detached : Detached rest)
include detached

theorem escaped_append (context : Context) {text : List Char} (complete : text ≠ [])
    (named : '\\' :: text ∉ markPrefixes) :
    escaped context (text ++ rest) = escaped context text := by
  cases text with
  | nil => exact absurd rfl complete
  | cons char text =>
      rw [List.cons_append, escaped, escaped]
      cases Operator.ofChar? char with
      | some operator =>
          dsimp only
          rw [Operator.read?_append detached]
      | none => exact afterBackslash_append detached context char named

theorem bare_append (context : Context) (char : Char) (text : List Char) :
    bare context char (text ++ rest) = bare context char text := by
  unfold bare
  cases Operator.ofChar? char with
  | some operator =>
      dsimp only
      rw [Operator.read?_append detached]
  | none =>
      dsimp only
      by_cases percent : char = '%'
      · subst percent
        cases text with
        | nil =>
            obtain ⟨first, more, rfl, _⟩ := detached
            rfl
        | cons one text =>
            by_cases group : one = '('
            · subst group
              rfl
            · by_cases bracket : one = '['
              · subst bracket
                rfl
              · simp [group, bracket]
      · by_cases closing : char = ']'
        · subst closing
          rfl
        · simp [percent]

/-! ### Inside collections -/

theorem backslashMember_append {text : List Char} (complete : text ≠ []) :
    backslashMember (text ++ rest) = backslashMember text := by
  have percent : '%' ≠ '\\' := by decide
  simp only [backslashMember, detached.head?_append percent, drop_head?_append,
    CodePoint.read?_append detached]
  cases text with
  | nil => exact absurd rfl complete
  | cons char text => rfl

theorem className?_append (text : List Char) :
    className? (text ++ rest) = className? text := by
  have stops : Char.isLower '\\' = false := by decide
  rcases text with _ | ⟨one, text⟩
  · obtain ⟨first, more, rfl, _⟩ := detached
    rfl
  · by_cases colon : one = ':'
    · subst colon
      rw [List.cons_append, className?, className?, detached.takeWhile_append stops,
        detached.dropWhile_append stops]
      -- The name ends with two characters, neither of which is a backslash.
      obtain ⟨first, more, rfl, _⟩ := detached
      rcases text.dropWhile Char.isLower with _ | ⟨colon, _ | ⟨bracket, text⟩⟩
      · rfl
      · by_cases same : colon = ':' <;> simp [same]
      · by_cases same : colon = ':'
        · by_cases closing : bracket = ']' <;> simp [same, closing]
        · simp [same]
    · simp [className?, colon]

theorem bracketMember_append (text : List Char) :
    bracketMember (text ++ rest) = bracketMember text := by
  unfold bracketMember
  rw [className?_append detached]
  cases className? text with
  | some name => rfl
  | none =>
      -- An equivalence class has a sign on either side of its character; neither the
      -- backslash nor what follows it is one.
      obtain ⟨first, more, rfl, _, notEquals, notDot⟩ := detached
      dsimp only
      rcases text with _ | ⟨opening, _ | ⟨char, _ | ⟨closing, _ | ⟨bracket, text⟩⟩⟩⟩
      · split
        · next same =>
            cases same
            exact if_neg (by simp)
        · rfl
      · split
        · next same =>
            cases same
            exact if_neg (by simp [notEquals, notDot])
        · rfl
      · split
        · next same =>
            cases same
            exact if_neg (by simp)
        · rfl
      · rfl
      · by_cases same : bracket = ']' <;> simp [same]

theorem inCollection_append (withBreak : Bool) (char : Char) {text : List Char}
    (complete : char = '\\' → text ≠ []) :
    inCollection withBreak char (text ++ rest) = inCollection withBreak char text := by
  have dash : '-' ≠ '\\' := by decide
  unfold inCollection
  split
  · rfl
  · exact bracketMember_append detached text
  · exact backslashMember_append detached (complete rfl)
  · rw [detached.head?_append dash]
  · rfl

end

end Verdict

/-- What follows a text that no rule takes into the item before it leaves the first item of
the text as it is.  The item must not be waiting for a character. -/
theorem Context.verdict_append {rest : List Char} (detached : Detached rest)
    (context : Context) {char : Char} {text : List Char}
    (complete : char = '\\' → text ≠ []) (named : char :: text ∉ markPrefixes) :
    context.verdict char (text ++ rest) = context.verdict char text := by
  have outside : Verdict.outside context char (text ++ rest) =
      Verdict.outside context char text := by
    rw [Verdict.outside, Verdict.outside, Verdict.bare_append detached]
    split
    · next backslash =>
        subst backslash
        exact Verdict.escaped_append detached context (complete rfl) named
    · rfl
  rcases context with ⟨level, _ | ⟨⟨_ | _, place⟩, outer⟩, star, line, tally⟩
  · exact outside
  · exact Verdict.inCollection_append detached _ char complete
  · exact outside

/-! ### Whole texts -/

namespace Scan

variable {rest : List Char} (detached : Detached rest)
include detached

/-- The first item of a text is read as if nothing followed the text. -/
theorem readFrom_item_append {context : Context} {char : Char} {text : List Char}
    {content : Content} {extra : Nat}
    (verdict : context.verdict char text = .item content extra)
    (complete : char = '\\' → text ≠ []) (named : char :: text ∉ markPrefixes)
    (position : Nat) :
    let raw := String.ofList (char :: text.take extra)
    let after := contextAfter context content raw position
    readFrom context position 0 (char :: text ++ rest) =
      (readFrom after (position + byteLength (char :: text.take extra)) 0
        (text.drop extra ++ rest)).cons
        { content := content
          raw := raw
          position := position
          magicness := after.magicness } := by
  have bound := context.within_verdict char text
  rw [verdict] at bound
  have longer := context.verdict_append detached complete named
  rw [verdict] at longer
  have whole := readFrom_item longer position
  rw [List.take_append_of_le_length bound, List.drop_append_of_le_length bound] at whole
  exact whole

omit detached in
/-- A text that is only a backslash cannot be read to its end: it is an item only inside a
collection, which is then still open. -/
theorem Reads.ending_ne_finished {context : Context} {position : Nat} {scan : Scan}
    (reads : Reads context position ['\\'] scan) (terminus : Terminus) :
    scan.ending ≠ .finished terminus := by
  rw [← reads.readFrom_eq]
  rcases context with ⟨level, _ | ⟨⟨_ | _, place⟩, outer⟩, star, line, tally⟩ <;>
    intro finished <;> cases finished

/-- A text that can be read to its end is read in the same way when another text follows,
and the other one is read on from there. -/
theorem Reads.readFrom_append {context : Context} {position : Nat} {text : List Char}
    {scan : Scan} {terminus : Terminus} (reads : Reads context position text scan)
    (finished : scan.ending = .finished terminus)
    (named : ∀ waiting ∈ markPrefixes, ¬waiting <:+ text) :
    readFrom context position 0 (text ++ rest) =
      (readFrom terminus.context terminus.position 0 rest).follow scan.items := by
  induction reads with
  | ended context position =>
      rcases context with ⟨level, _ | ⟨enclosure, outer⟩, star, line, tally⟩
      · cases finished
        rfl
      · cases finished
  | @mark context position char text mark extra scan verdict reads inductionHypothesis =>
      have complete : char = '\\' → text ≠ [] := by
        rintro rfl rfl
        exact (Reads.mark verdict reads).ending_ne_finished terminus finished
      have later (waiting) (among : waiting ∈ markPrefixes) :
          ¬waiting <:+ text.drop extra := fun ends =>
        named waiting among ((ends.trans (List.drop_suffix _ _)).trans (List.suffix_cons _ _))
      rw [readFrom_item_append detached verdict complete fun among =>
        named _ among (List.suffix_refl _), contextAfter, inductionHypothesis finished later]
      rfl
  | @token context position char text token extra scan verdict raw place level reads
      inductionHypothesis =>
      have complete : char = '\\' → text ≠ [] := by
        rintro rfl rfl
        exact (Reads.token verdict raw place level reads).ending_ne_finished terminus finished
      have later (waiting) (among : waiting ∈ markPrefixes) :
          ¬waiting <:+ text.drop extra := fun ends =>
        named waiting among ((ends.trans (List.drop_suffix _ _)).trans (List.suffix_cons _ _))
      have whole := readFrom_item_append detached verdict complete (fun among =>
        named _ among (List.suffix_refl _)) position
      rcases token with ⟨lexeme, _, _, _⟩
      subst raw place level
      rw [whole, contextAfter, inductionHypothesis finished later]
      rfl
  | fault => cases finished
  | noRule => cases finished

end Scan

end VimPattern
