/-
Module: VimPattern.Proofs.Target.Verbatim
Purpose: Target text that matches one text only, and which text that is.
Main exports:
  Target.isPunctuation, Target.operators, Target.controlChar?, Target.verbatim?,
  Target.StandsFor, Escape.standsFor_plain, Escape.standsFor_quoted
-/
import VimPattern.Text.Escape

namespace VimPattern

/-!
Some target texts match exactly one text: they are made of characters that stand for
themselves, escaped punctuation and control characters by their code.  `verbatim?`
reads such a text back and refuses every other one.  What stands for a text does so
wherever it is written, so that a longer text is read part by part.
-/

namespace Target

/-- ASCII punctuation, the characters that a backslash makes stand for themselves. -/
def isPunctuation (char : Char) : Bool :=
  (33 ≤ char.toNat && char.toNat ≤ 47) || (58 ≤ char.toNat && char.toNat ≤ 64) ||
    (91 ≤ char.toNat && char.toNat ≤ 96) || (123 ≤ char.toNat && char.toNat ≤ 126)

/-- The characters that match something else than themselves. -/
def operators : List Char :=
  ['.', '^', '$', '*', '+', '?', '(', ')', '[', ']', '\x7b', '\x7d', '|']

/-- The control character with this code in two hexadecimal digits. -/
def controlChar? (high low : Char) : Option Char :=
  match Digits.valueOf? high, Digits.valueOf? low with
  | some first, some second =>
      if first * 16 + second < 32 then some (Char.ofNat (first * 16 + second)) else none
  | _, _ => none

/-- The only text that a target text matches, if it is written so plainly. -/
def verbatim? : List Char → Option (List Char)
  | [] => some []
  | '\\' :: 'x' :: high :: low :: text =>
      match controlChar? high low with
      | some char => (verbatim? text).map (char :: ·)
      | none => none
  | '\\' :: char :: text =>
      if isPunctuation char then (verbatim? text).map (char :: ·) else none
  | char :: text =>
      if char = '\\' ∨ char ∈ operators then none
      else (verbatim? text).map (char :: ·)

/-- Wherever the target text is written, it stands for this text. -/
def StandsFor (written : String) (text : List Char) : Prop :=
  ∀ rest, verbatim? (written.toList ++ rest) = (verbatim? rest).map (text ++ ·)

theorem standsFor_empty : StandsFor "" [] := by
  intro rest
  simp

theorem StandsFor.append {front back : String} {early late : List Char}
    (first : StandsFor front early) (second : StandsFor back late) :
    StandsFor (front ++ back) (early ++ late) := by
  intro rest
  rw [String.toList_append, List.append_assoc, first, second, Option.map_map]
  simp [Function.comp_def]

/-- Text that stands for another one is read as that one. -/
theorem StandsFor.verbatim?_eq {written : String} {text : List Char}
    (standsFor : StandsFor written text) : verbatim? written.toList = some text := by
  have whole := standsFor []
  rwa [List.append_nil, verbatim?, Option.map_some, List.append_nil] at whole

end Target

open Target

namespace Escape

/-- A backslash makes punctuation stand for itself. -/
theorem standsFor_afterBackslash {char : Char} (punctuation : isPunctuation char) :
    StandsFor (afterBackslash char) [char] := by
  have notCode : char ≠ 'x' := by
    rintro rfl
    cases punctuation
  intro rest
  rw [afterBackslash, String.toList_ofList]
  change verbatim? ('\\' :: char :: rest) = _
  rw [verbatim?]
  · rw [if_pos punctuation]
    rfl
  · rintro high low others same
    exact absurd same notCode

/-- A character that is no operator stands for itself. -/
theorem standsFor_singleton {char : Char} (notEscape : char ≠ '\\')
    (free : char ∉ operators) : StandsFor (String.singleton char) [char] := by
  intro rest
  rw [String.toList_singleton]
  change verbatim? (char :: rest) = _
  rw [verbatim?]
  · rw [if_neg (not_or.2 ⟨notEscape, free⟩)]
    rfl
  · rintro high low others same
    exact absurd same notEscape
  · rintro other others same
    exact absurd same notEscape

/-- The code of a control character stands for it. -/
theorem standsFor_code {char : Char} (control : char.toNat < 32) :
    StandsFor ("\\x" ++ Digits.twoHex char.toNat) [char] := by
  have digits : ∀ number < 32,
      controlChar? (Nat.digitChar (number / 16 % 16)) (Nat.digitChar (number % 16)) =
        some (Char.ofNat number) := by
    decide
  have read := digits char.toNat control
  rw [Char.ofNat_toNat] at read
  intro rest
  rw [String.toList_append, Digits.twoHex, String.toList_ofList, String.toList_ofList]
  change
    verbatim?
        ('\\' :: 'x' :: Nat.digitChar (char.toNat / 16 % 16) ::
          Nat.digitChar (char.toNat % 16) :: rest) = _
  rw [verbatim?, read]
  rfl

/-- A character that a pattern writes bare is written so that it stands for itself. -/
theorem standsFor_plain {char : Char} (notEscape : char ≠ '\\') :
    StandsFor (plain char) [char] := by
  unfold plain
  split
  · next control => exact standsFor_code control
  · split
    · next among =>
        have punctuation : metacharacters.all isPunctuation := by decide
        exact standsFor_afterBackslash (List.all_eq_true.1 punctuation char among)
    · next free =>
        have included : operators.all fun char => metacharacters.contains char := by decide
        apply standsFor_singleton notEscape
        intro among
        exact free (List.contains_iff_mem.1 (List.all_eq_true.1 included char among))

/-- A character that is quoted on the safe side stands for itself. -/
theorem standsFor_quoted (char : Char) : StandsFor (quoted char) [char] := by
  unfold quoted
  split
  · next among =>
      have punctuation : quotable.all isPunctuation := by decide
      exact standsFor_afterBackslash (List.all_eq_true.1 punctuation char among)
  · next free =>
      have included : ('\\' :: operators).all fun char => quotable.contains char := by
        decide
      have differs {other : Char} (among : other ∈ '\\' :: operators) : char ≠ other := by
        rintro rfl
        exact free (List.contains_iff_mem.1 (List.all_eq_true.1 included char among))
      apply standsFor_singleton (differs (.head _))
      intro among
      exact differs (List.mem_cons_of_mem _ among) rfl

end Escape

end VimPattern
