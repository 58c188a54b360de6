/-
Module: VimPattern.Proofs.Scan.Extent
Purpose: An item ends in the text that it is read from.
Main exports:
  Verdict.Within, length_takeWhile_add_dropWhile, Operator.length_read?,
  Context.within_verdict
-/
import VimPattern.Proofs.Scan.Rules

namespace VimPattern

/-!
A verdict says how many characters an item takes after its first one.  Each reader counts
only characters that it has seen, so that no item is longer than the text.
-/

/-- The item ends in the text after its first character, which has this length. -/
def Verdict.Within (length : Nat) : Verdict → Prop
  | .item _ extra | .fault _ extra => extra ≤ length
  | .noRule => True

/-- The characters at the start that belong together, and the others. -/
theorem length_takeWhile_add_dropWhile (belongs : Char → Bool) (text : List Char) :
    (text.takeWhile belongs).length + (text.dropWhile belongs).length = text.length := by
  rw [← List.length_append, List.takeWhile_append_dropWhile]

/-- Passing over a character at the start of a text takes it from the text. -/
theorem length_skip (char : Char) (text : List Char) :
    (if text.head? == some char then 1 else 0) +
      (if text.head? == some char then text.drop 1 else text).length = text.length := by
  cases text with
  | nil => rfl
  | cons first text => 
    by_cases same : first = char <;> simp [same]; omega

theorem Collection.length_readOpening (withBreak : Bool) (text : List Char) :
    (readOpening withBreak text).2 ≤ text.length := by
  have caret := length_skip '^' text
  have bracket := length_skip ']' (if text.head? == some '^' then text.drop 1 else text)
  simp only [readOpening]
  omega

theorem Braces.length_read? {closingEscape : Bool} {text : List Char} {braces : Braces}
    {taken : Nat} (read : Braces.read? closingEscape text = some (braces, taken)) :
    taken ≤ text.length := by
  unfold read? at read
  dsimp only at read
  have dash := length_skip '-' text
  generalize (if text.head? == some '-' then text.drop 1 else text) = bounds at read dash
  have low := length_takeWhile_add_dropWhile Char.isDigit bounds
  have comma := length_skip ',' (bounds.dropWhile Char.isDigit)
  generalize (if (bounds.dropWhile Char.isDigit).head? == some ',' then
    (bounds.dropWhile Char.isDigit).drop 1 else bounds.dropWhile Char.isDigit) = upper
    at read comma
  have high := length_takeWhile_add_dropWhile Char.isDigit upper
  split at read
  · next closing =>
      cases read
      rw [closing, List.length_cons] at high
      omega
  · next closing =>
      rw [closing, List.length_cons, List.length_cons] at high
      split at read
      · cases read
        omega
      · cases read
  · cases read

theorem Assertion.length_read? {text : List Char} {assertion : Assertion} {taken : Nat}
    (read : Assertion.read? text = some (assertion, taken)) : taken ≤ text.length := by
  have distance := length_takeWhile_add_dropWhile Char.isDigit text
  unfold read? at read
  split at read
  · cases read
    simp
  · cases read
    simp
  · cases read
    simp
  · dsimp only at read
    split at read
    · next sign =>
        cases read
        rw [sign, List.length_cons, List.length_cons] at distance
        omega
    · next sign =>
        cases read
        rw [sign, List.length_cons, List.length_cons] at distance
        omega
    · cases read

theorem CodePoint.length_read? {text : List Char} {found : Option Char} {taken : Nat}
    (read : CodePoint.read? text = some (found, taken)) : taken ≤ text.length := by
  cases text with
  | nil => cases read
  | cons letter text =>
      rw [read?] at read
      split at read
      · next codeNotation _ =>
          dsimp only at read
          split at read
          · cases read
          · cases read
            have available := length_takeWhile_add_dropWhile
              (Digits.isDigitIn codeNotation.radix) text
            have digits : (codeNotation.digits text).length ≤ text.length := by
              unfold CodeNotation.digits
              dsimp only
              split
              · rw [List.length_take]
                omega
              · omega
            rw [List.length_cons]
            omega
      · cases read

theorem length_markOrColumnLength? {text : List Char} {taken : Nat}
    (read : markOrColumnLength? text = some taken) : taken ≤ text.length := by
  have digits := length_takeWhile_add_dropWhile Char.isDigit text
  unfold markOrColumnLength? at read
  split at read
  · split at read <;> cases read
    simp
  · dsimp only at read
    split at read
    · next unit =>
        rw [unit, List.length_cons] at digits
        split at read <;> cases read
        omega
    · cases read

theorem length_editorPositionLength? {text : List Char} {taken : Nat}
    (read : editorPositionLength? text = some taken) : taken ≤ text.length := by
  unfold editorPositionLength? at read
  split at read
  · cases read
    simp
  · cases read
    simp
  · obtain ⟨size, place, rfl⟩ := Option.map_eq_some_iff.1 read
    exact Nat.succ_le_succ (length_markOrColumnLength? place)
  · obtain ⟨size, place, rfl⟩ := Option.map_eq_some_iff.1 read
    exact Nat.succ_le_succ (length_markOrColumnLength? place)
  · exact length_markOrColumnLength? read

theorem Operator.length_read? {context : Context} {escaped : Bool} {text : List Char}
    {operator : Operator} {content : Content} {taken : Nat}
    (read : operator.read? context escaped text = some (content, taken)) :
    taken ≤ text.length := by
  cases Operator.means_of_read? read with
  | collection => exact Collection.length_readOpening false text
  | braces found => exact Braces.length_read? found
  | assertion found => exact Assertion.length_read? found
  | _ => exact Nat.zero_le _

namespace Verdict

theorem within_numeric {found : Option Char} {extra length : Nat} {wrap : Char → Lexeme}
    (bound : extra ≤ length) : (numeric found extra wrap).Within length := by
  cases found <;> exact bound

theorem within_afterUnderscore (text : List Char) :
    (afterUnderscore text).Within (text.length + 1) := by
  unfold afterUnderscore
  split
  · exact Nat.le_add_left 2 _
  · exact Nat.le_add_left 2 _
  · exact Nat.le_add_left 2 _
  · exact Nat.add_le_add_right (Collection.length_readOpening true _) 2
  · split
    · exact Nat.le_add_left 2 _
    · exact Nat.le_add_left 1 _
  · exact Nat.le_add_left 1 _

theorem within_afterZ (context : Context) (text : List Char) :
    (afterZ context text).Within (text.length + 1) := by
  unfold afterZ
  split
  · exact Nat.le_add_left 2 _
  · exact Nat.le_add_left 2 _
  · exact Nat.le_add_left 2 _
  · split
    · exact Nat.le_add_left 2 _
    · exact Nat.le_add_left 1 _
  · exact Nat.le_add_left 1 _

theorem within_afterPercent (text : List Char) :
    (afterPercent text).Within (text.length + 1) := by
  unfold afterPercent
  split
  · exact Nat.le_add_left 2 _
  · exact Nat.le_add_left 2 _
  · exact Nat.le_add_left 2 _
  · exact Nat.le_add_left 2 _
  · split
    · next position =>
        exact Nat.succ_le_succ (length_editorPositionLength? position)
    · split
      · next read => exact within_numeric (Nat.succ_le_succ (CodePoint.length_read? read))
      · exact Nat.le_add_left 1 _

theorem within_afterBackslash (context : Context) (char : Char) (text : List Char) :
    (afterBackslash context char text).Within (text.length + 1) := by
  unfold afterBackslash
  split
  · exact Nat.le_add_left 1 _
  · split
    · exact Nat.le_add_left 1 _
    · split
      · exact Nat.le_add_left 1 _
      · exact within_afterUnderscore text
      · exact within_afterZ context text
      · exact within_afterPercent text
      · exact Nat.le_add_left 1 _
      · exact Nat.le_add_left 1 _
      · exact Nat.le_add_left 1 _
      · split <;> exact Nat.le_add_left 1 _

theorem within_escaped (context : Context) (text : List Char) :
    (escaped context text).Within text.length := by
  cases text with
  | nil => trivial
  | cons char text =>
      rw [escaped]
      split
      · split
        · split
          · next read => exact Nat.succ_le_succ (Operator.length_read? read)
          · exact Nat.le_add_left 1 _
        · exact Nat.le_add_left 1 _
      · exact within_afterBackslash context char text

theorem within_bare (context : Context) (char : Char) (text : List Char) :
    (bare context char text).Within text.length := by
  unfold bare
  split
  · split
    · split
      · next read => exact Operator.length_read? read
      · trivial
    · exact Nat.zero_le _
  · split
    · split
      · exact Nat.le_add_left 1 _
      · exact Nat.zero_le _
    · split
      · exact Nat.le_add_left 1 _
      · exact Nat.zero_le _
    · split <;> exact Nat.zero_le _
    · exact Nat.zero_le _

theorem within_backslashMember (text : List Char) :
    (backslashMember text).Within text.length := by
  have percent := length_skip '%' text
  unfold backslashMember
  dsimp only
  split
  · next read =>
      have number := CodePoint.length_read? read
      exact within_numeric (by omega)
  · split
    · split
      · exact Nat.le_add_left 1 _
      · exact Nat.zero_le _
    · exact Nat.zero_le _

theorem length_className? {text name : List Char} (found : className? text = some name) :
    name.length + 3 ≤ text.length := by
  unfold className? at found
  split at found
  · next text =>
      dsimp only at found
      have letters := length_takeWhile_add_dropWhile Char.isLower text
      split at found
      · next closing =>
          rw [closing, List.length_cons, List.length_cons] at letters
          split at found <;> cases found
          rw [List.length_cons]
          omega
      · cases found
  · cases found

theorem within_bracketMember (text : List Char) :
    (bracketMember text).Within text.length := by
  unfold bracketMember
  split
  · next found =>
      split <;> exact length_className? found
  · split
    · split
      · exact Nat.le_add_left 4 _
      · exact Nat.zero_le _
    · exact Nat.zero_le _

theorem within_inCollection (withBreak : Bool) (char : Char) (text : List Char) :
    (inCollection withBreak char text).Within text.length := by
  unfold inCollection
  split
  · exact Nat.zero_le _
  · exact within_bracketMember text
  · exact within_backslashMember text
  · split
    · next dash =>
        cases text with
        | nil => cases dash
        | cons first text => exact Nat.le_add_left 1 _
    · exact Nat.zero_le _
  · exact Nat.zero_le _

end Verdict

/-- An item ends in the text that it is read from. -/
theorem Context.within_verdict (context : Context) (char : Char) (text : List Char) :
    (context.verdict char text).Within text.length := by
  have outside : (Verdict.outside context char text).Within text.length := by
    rw [Verdict.outside]
    split
    · exact Verdict.within_escaped context text
    · exact Verdict.within_bare context char text
  rcases context with ⟨level, _ | ⟨⟨_ | _, place⟩, outer⟩, star, line, tally⟩
  · exact outside
  · exact Verdict.within_inCollection _ char text
  · exact outside

end VimPattern
