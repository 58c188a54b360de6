/-
Module: VimPattern.Proofs.Spelling.Written
Purpose: Letters, digits and numbers of a sketch as they are read and rendered.
Main exports:
  Escape.plain_of_isAlphanum, Escape.member_of_isAlphanum, Repetition.quantifier,
  Repetition.text_quantifier, Repetition.read?_between
-/
import VimPattern.Proofs.Spelling.Braces
import VimPattern.Proofs.Spelling.Sketch
import VimPattern.Scan.Verdict

namespace VimPattern

/-!
The smallest parts of a sketch are characters and numbers.  A letter or a digit is
no operator and needs no escape, and a number that is written in decimal digits is
read as the same digits.
-/

/-! ### Characters -/

/-- A letter or a digit is no other character. -/
theorem ne_of_isAlphanum {char other : Char} (alphaNumeric : char.isAlphanum = true)
    (differs : other.isAlphanum = false) : char ≠ other := by
  rintro rfl
  rw [alphaNumeric] at differs
  cases differs

/-- No letter or digit is among other characters. -/
theorem not_mem_of_isAlphanum {char : Char} {others : List Char}
    (alphaNumeric : char.isAlphanum = true)
    (differ : others.all fun other => !other.isAlphanum) : char ∉ others := by
  intro among
  have differs := List.all_eq_true.1 differ char among
  rw [alphaNumeric] at differs
  cases differs

namespace Escape

/-- Letters and digits are no control characters. -/
theorem le_toNat_of_isAlphanum {char : Char} (alphaNumeric : char.isAlphanum = true) :
    32 ≤ char.toNat := by
  have control : ∀ number < 32, (Char.ofNat number).isAlphanum = false := by decide
  apply Nat.le_of_not_lt
  intro below
  have none := control char.toNat below
  rw [Char.ofNat_toNat, alphaNumeric] at none
  cases none

theorem plain_of_isAlphanum {char : Char} (alphaNumeric : char.isAlphanum = true) :
    plain char = String.singleton char := by
  rw [plain, if_neg (Nat.not_lt.2 (le_toNat_of_isAlphanum alphaNumeric)),
    if_neg (not_mem_of_isAlphanum alphaNumeric (by decide))]

theorem member_of_isAlphanum {char : Char} (alphaNumeric : char.isAlphanum = true) :
    member char = String.singleton char := by
  rw [member, if_neg (not_mem_of_isAlphanum alphaNumeric (by decide))]

end Escape

/-! ### Counted repetitions -/

namespace Repetition

/-- A counted repetition with both bounds. -/
def braces (low high : Nat) : Braces where
  lazy := false
  low := (toString low).toList
  hasComma := true
  high := (toString high).toList

/-- The operator of a repetition. -/
def quantifier : Repetition → Quantifier
  | .star => .star
  | .plus => .plus
  | .optional => .optional
  | .between low high _ => .counted (braces low high)

end Repetition

/-- Decimal digits are digits. -/
theorem isDigit_of_mem_toString {number : Nat} {char : Char}
    (member : char ∈ (toString number).toList) : char.isDigit := by
  rw [Nat.toString_eq_ofList_toDigits, String.toList_ofList] at member
  exact Nat.isDigit_of_mem_toDigits (by decide) (by decide) member

theorem toList_toString_ne_nil (number : Nat) : (toString number).toList ≠ [] := by
  rw [Nat.toString_eq_ofList_toDigits, String.toList_ofList]
  exact Nat.toDigits_ne_nil

/-- The value of a decimal digit. -/
theorem Digits.valueOf?_of_isDigit {char : Char} (digit : char.isDigit) :
    Digits.valueOf? char = some (char.toNat - 48) := by
  rw [Char.isDigit, Bool.and_eq_true, decide_eq_true_eq, decide_eq_true_eq] at digit
  rw [Digits.valueOf?, if_pos]
  exact digit

/-- Decimal digits stand for the same number wherever digits are read. -/
theorem Digits.number_eq_ofDigitChars {digits : List Char}
    (decimal : ∀ char ∈ digits, char.isDigit) :
    Digits.number 10 digits = Nat.ofDigitChars 10 digits 0 := by
  have same (start : Nat) :
      digits.foldl (fun value digit => value * 10 + (valueOf? digit).getD 0) start =
        Nat.ofDigitChars 10 digits start := by
    induction digits generalizing start with
    | nil => rfl
    | cons char others inductionHypothesis =>
        obtain ⟨digit, digits⟩ := List.forall_mem_cons.1 decimal
        rw [List.foldl_cons, inductionHypothesis digits, Nat.ofDigitChars_cons,
          valueOf?_of_isDigit digit, Nat.mul_comm]
        rfl
  exact same 0

/-- The digits of a number stand for it. -/
theorem ofDigitChars_toString (value : Nat) :
    Nat.ofDigitChars 10 (toString value).toList 0 = value := by
  rw [Nat.toString_eq_ofList_toDigits, String.toList_ofList, Nat.ofDigitChars_ten_toDigits]

theorem Digits.number_toString (value : Nat) :
    Digits.number 10 (toString value).toList = value := by
  rw [number_eq_ofDigitChars fun char => isDigit_of_mem_toString, ofDigitChars_toString]

namespace Braces

/-- A bound that is small enough to compare has its own value. -/
theorem bound?_toString {value bound : Nat}
    (small : bound? (toString value).toList = some bound) : bound = value := by
  simp only [bound?, Digits.number_toString] at small
  split at small
  · cases small
  · split at small <;> cases small
    rfl

/-- The lower bound as it is emitted. -/
def emittedLow (braces : Braces) : List Char :=
  if braces.low.isEmpty then ['0'] else braces.low

/-- With a comma the bounds are compared if both are known. -/
theorem intervalText_eq {braces : Braces} (hasComma : braces.hasComma = true) :
    braces.intervalText =
      match bound? braces.emittedLow, bound? braces.high with
      | some lower, some upper =>
          if upper < lower then enclosed (toString upper ++ "," ++ toString lower)
          else enclosed (String.ofList braces.emittedLow ++ "," ++ String.ofList braces.high)
      | _, _ => enclosed (String.ofList braces.emittedLow ++ "," ++ String.ofList braces.high) := by
  rw [intervalText, if_pos hasComma]
  rfl

/-- Bounds that are in order, as far as they can be compared, are kept as they
are. -/
theorem intervalText_of_ordered {braces : Braces} (hasComma : braces.hasComma = true)
    (ordered : ∀ lower upper, bound? braces.emittedLow = some lower →
      bound? braces.high = some upper → lower ≤ upper) :
    braces.intervalText =
      enclosed (String.ofList braces.emittedLow ++ "," ++ String.ofList braces.high) := by
  rw [intervalText_eq hasComma]
  split
  · next lower upper lowBound highBound =>
      exact if_neg (Nat.not_lt.2 (ordered lower upper lowBound highBound))
  · rfl

end Braces

namespace Repetition

/-- The operator of a repetition has the text of the repetition. -/
theorem text_quantifier (repetition : Repetition) :
    repetition.quantifier.text = repetition.text := by
  cases repetition with
  | between low high ordered =>
      have written : (braces low high).emittedLow = (toString low).toList :=
        if_neg fun missing => toList_toString_ne_nil low (List.isEmpty_iff.1 missing)
      have interval :
          (braces low high).intervalText =
            Braces.enclosed (toString low ++ "," ++ toString high) := by
        rw [Braces.intervalText_of_ordered rfl, written]
        · simp only [braces, String.ofList_toList]
        · rw [written]
          intro lower upper lowBound highBound
          rw [Braces.bound?_toString lowBound, Braces.bound?_toString highBound]
          exact ordered
      change (braces low high).intervalText ++ "" = _
      rw [interval, String.append_empty, Braces.enclosed, text]
      simp only [String.append_assoc]
  | _ => rfl

/-- The bounds of a counted repetition are digits. -/
theorem digital_braces (low high : Nat) : (braces low high).Digital where
  low _ := isDigit_of_mem_toString
  high _ := isDigit_of_mem_toString

/-- A counted repetition is read with the digits of its bounds. -/
theorem read?_between (low high : Nat) (closingEscape : Bool) (rest : List Char) :
    Braces.read? closingEscape
        ((toString low).toList ++ ',' :: ((toString high).toList ++ '\x7d' :: rest)) =
      some
        (braces low high,
          (toString low).toList.length + 1 + (toString high).toList.length + 1) := by
  have read :=
    @Braces.read?_body (braces low high) (digital_braces low high) nofun closingEscape false
      nofun rest
  rw [Braces.length_body] at read
  simpa [Braces.body, braces] using read

end Repetition

end VimPattern
