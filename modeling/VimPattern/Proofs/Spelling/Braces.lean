/-
Module: VimPattern.Proofs.Spelling.Braces
Purpose: The texts of counted repetitions, and that the readers read them.
Main exports:
  Braces.body, Braces.Digital, Braces.Matches, Braces.settled, Braces.takeWhile_digits,
  Braces.read?_body, Braces.exists_body_of_read?, Braces.ofText?_written
-/
import VimPattern.Quantifier

namespace VimPattern

/-!
Between the braces stand a sign for a lazy repetition, digits, a comma and more digits, and each
of these may be missing.  What such a text is, is written down here without any reader.  There
are two readers, one for what stands behind the opening brace and one for the whole text, and
both read it.
-/

namespace Braces

/-- What stands behind the opening brace, with or without a backslash before the closing
one. -/
def body (braces : Braces) (closingEscape : Bool) : List Char :=
  (if braces.lazy then ['-'] else []) ++
    (braces.low ++
      ((if braces.hasComma then [','] else []) ++
        (braces.high ++ ((if closingEscape then ['\\'] else []) ++ ['\x7d']))))

/-- Both bounds are digits, or nothing. -/
structure Digital (braces : Braces) : Prop where
  low : ∀ digit ∈ braces.low, digit.isDigit
  high : ∀ digit ∈ braces.high, digit.isDigit

/-- The texts that the rules for counted repetitions match.  The rule with a backslash before
the opening brace also allows one before the closing brace. -/
inductive Matches (escaped : Bool) : List Char → Prop
  | written {braces : Braces} {closingEscape : Bool} (digital : braces.Digital)
      (allowed : closingEscape = true → escaped = true) :
      Matches escaped
        ((if escaped then ['\\'] else []) ++ '\x7b' :: braces.body closingEscape)

/-- The bounds as they are read: without a comma all digits are those of the lower one. -/
def settled (braces : Braces) : Braces :=
  if braces.hasComma then braces
  else
    { braces with
      low := braces.low ++ braces.high
      high := [] }

theorem Digital.settled {braces : Braces} (digital : braces.Digital) :
    braces.settled.Digital := by
  unfold Braces.settled
  split
  · exact digital
  · exact ⟨List.forall_mem_append.2 ⟨digital.low, digital.high⟩, List.forall_mem_nil _⟩

/-- Without a comma the settled braces have no upper bound. -/
theorem high_settled (braces : Braces) (noComma : braces.settled.hasComma = false) :
    braces.settled.high = [] := by
  unfold settled at noComma ⊢
  split at noComma
  · next comma => rw [comma] at noComma; cases noComma
  · next absent => rw [if_neg absent]

theorem body_settled (braces : Braces) (closingEscape : Bool) :
    braces.settled.body closingEscape = braces.body closingEscape := by
  unfold settled
  split
  · rfl
  · next noComma => simp [body, noComma]

theorem length_body (braces : Braces) (escape : Bool) :
    (braces.body escape).length =
      (if braces.lazy then 1 else 0) + braces.low.length + (if braces.hasComma then 1 else 0) +
        braces.high.length + (if escape then 2 else 1) := by
  rcases braces with ⟨_ | _, low, _ | _, high⟩ <;> cases escape <;> simp [body] <;> omega

/-- A text that consists of these parts starts with the body. -/
theorem take_eq_body (braces : Braces) (escape : Bool) (rest : List Char) {text : List Char}
    (parts : (if braces.lazy then ['-'] else []) ++
      (braces.low ++
        ((if braces.hasComma then [','] else []) ++
          (braces.high ++ ((if escape then ['\\'] else []) ++ '\x7d' :: rest)))) = text) :
    text.take
        ((if braces.lazy then 1 else 0) + braces.low.length + (if braces.hasComma then 1 else 0) +
          braces.high.length + (if escape then 2 else 1)) = braces.body escape := by
  have whole : text = braces.body escape ++ rest := by
    rw [← parts]
    simp [body]
  rw [whole]
  exact List.take_left' (length_body _ _)

/-- Digits are taken from a text up to the first character that is none. -/
theorem takeWhile_digits {digits : List Char} (digital : ∀ digit ∈ digits, digit.isDigit)
    {stop : Char} (stops : stop.isDigit = false) (rest : List Char) :
    (digits ++ stop :: rest).takeWhile Char.isDigit = digits ∧
      (digits ++ stop :: rest).dropWhile Char.isDigit = stop :: rest := by
  rw [List.takeWhile_append_of_pos digital, List.dropWhile_append_of_pos digital]
  simp [stops]

/-- Digits and a character behind them do not start with another character. -/
theorem head?_digits {digits : List Char} (digital : ∀ digit ∈ digits, digit.isDigit)
    {sign stop : Char} (noDigit : sign.isDigit = false) (other : stop ≠ sign)
    (rest : List Char) : ((digits ++ stop :: rest).head? == some sign) = false := by
  rw [beq_eq_false_iff_ne]
  rcases digits with _ | ⟨first, digits⟩
  · rintro ⟨⟩
    exact other rfl
  · rintro ⟨⟩
    rw [digital _ (.head _)] at noDigit
    cases noDigit

/-- A sign that may be missing is found exactly if it is there. -/
theorem head?_sign {sign : Char} {rest : List Char}
    (absent : (rest.head? == some sign) = false) (present : Bool) :
    (((if present then [sign] else []) ++ rest).head? == some sign) = present ∧
      (if present then ((if present then [sign] else []) ++ rest).drop 1
        else (if present then [sign] else []) ++ rest) = rest := by
  cases present
  · exact ⟨absent, rfl⟩
  · exact ⟨beq_self_eq_true _, rfl⟩

/-- The reader of counted repetitions reads what the braces say, and stops behind the closing
brace. -/
theorem read?_body {braces : Braces} (digital : braces.Digital)
    (settled : braces.hasComma = false → braces.high = []) {closingEscape escape : Bool}
    (allowed : escape = true → closingEscape = true) (rest : List Char) :
    read? closingEscape (braces.body escape ++ rest) =
      some (braces, (braces.body escape).length) := by
  rcases braces with ⟨lazy, low, hasComma, high⟩
  obtain ⟨lowDigits, highDigits⟩ := digital
  -- Behind the bounds there is a character that is no digit, no sign and no comma.
  obtain ⟨stop, others, closing, stops, notMinus, notComma⟩ :
      ∃ stop others, (if escape then ['\\'] else []) ++ ['\x7d'] ++ rest = stop :: others ∧
        stop.isDigit = false ∧ stop ≠ '-' ∧ stop ≠ ',' := by
    cases escape
    · exact ⟨_, _, rfl, rfl, by decide, by decide⟩
    · exact ⟨_, _, rfl, rfl, by decide, by decide⟩
  obtain ⟨highTaken, highLeft⟩ := takeWhile_digits highDigits stops others
  have noComma := head?_digits highDigits (by decide) notComma others
  obtain ⟨commaFound, commaLeft⟩ := head?_sign noComma hasComma
  -- The lower bound ends at the comma, or at the closing if there is none.
  obtain ⟨next, later, upper, ends, other⟩ :
      ∃ next later, (if hasComma then [','] else []) ++ (high ++ stop :: others) =
        next :: later ∧ next.isDigit = false ∧ next ≠ '-' := by
    cases hasComma
    · obtain rfl : high = [] := settled rfl
      exact ⟨_, _, rfl, stops, notMinus⟩
    · exact ⟨_, _, rfl, rfl, by decide⟩
  obtain ⟨lowTaken, lowLeft⟩ := takeWhile_digits lowDigits ends later
  have noMinus := head?_digits lowDigits (by decide) other later
  obtain ⟨minusFound, minusLeft⟩ := head?_sign noMinus lazy
  have text : ({ lazy := lazy, low := low, hasComma := hasComma, high := high } : Braces).body
      escape ++ rest = (if lazy then ['-'] else []) ++ (low ++ next :: later) := by
    rw [← upper, ← closing]
    simp [body]
  rw [text, read?]
  simp only [minusFound, minusLeft, lowTaken, lowLeft]
  simp only [← upper, commaFound, commaLeft, highTaken, highLeft]
  rw [← closing]
  rw [length_body]
  cases escape with
  | false => rfl
  | true =>
      rw [allowed rfl]
      rfl

/-- A sign that has been looked for stands before what is left. -/
theorem sign_append (sign : Char) (text : List Char) :
    (if text.head? == some sign then [sign] else []) ++
      (if text.head? == some sign then text.drop 1 else text) = text := by
  rcases text with _ | ⟨first, text⟩
  · rfl
  · by_cases same : first = sign <;> simp [same]

/-- Behind all digits there are no more digits. -/
theorem takeWhile_dropWhile_digits (text : List Char) :
    (text.dropWhile Char.isDigit).takeWhile Char.isDigit = [] := by
  induction text with
  | nil => rfl
  | cons char text inductionHypothesis =>
      cases digit : char.isDigit
      · simp [digit]
      · rwa [List.dropWhile_cons_of_pos digit]

/-- Whatever the reader reads is written as the braces say. -/
theorem exists_body_of_read? {closingEscape : Bool} {text : List Char} {braces : Braces}
    {taken : Nat} (read : read? closingEscape text = some (braces, taken)) :
    braces.Digital ∧ (braces.hasComma = false → braces.high = []) ∧
      ∃ escape, (escape = true → closingEscape = true) ∧
        text.take taken = braces.body escape := by
  have digits (written : List Char) :
      ∀ digit ∈ written.takeWhile Char.isDigit, digit.isDigit :=
    List.all_eq_true.1 List.all_takeWhile
  unfold read? at read
  dsimp only at read
  have minus := sign_append '-' text
  generalize (if text.head? == some '-' then text.drop 1 else text) = bounds at read minus
  have low := List.takeWhile_append_dropWhile (p := Char.isDigit) (l := bounds)
  have comma := sign_append ',' (bounds.dropWhile Char.isDigit)
  have settled : ((bounds.dropWhile Char.isDigit).head? == some ',') = false →
      (if (bounds.dropWhile Char.isDigit).head? == some ',' then
        (bounds.dropWhile Char.isDigit).drop 1 else bounds.dropWhile Char.isDigit).takeWhile
          Char.isDigit = [] := by
    intro noComma
    rw [noComma]
    exact takeWhile_dropWhile_digits bounds
  generalize (if (bounds.dropWhile Char.isDigit).head? == some ',' then
    (bounds.dropWhile Char.isDigit).drop 1 else bounds.dropWhile Char.isDigit) = upper
    at read comma settled
  have high := List.takeWhile_append_dropWhile (p := Char.isDigit) (l := upper)
  have whole := minus
  rw [← low, ← comma, ← high] at whole
  split at read
  · next others closing =>
      cases read
      refine ⟨⟨digits _, digits _⟩, settled, false, nofun, ?_⟩
      rw [closing] at whole
      exact take_eq_body (.mk _ _ _ _) false others whole
  · next others closing =>
      split at read
      · next allowed =>
          cases read
          refine ⟨⟨digits _, digits _⟩, settled, true, fun _ => allowed, ?_⟩
          rw [closing] at whole
          exact take_eq_body (.mk _ _ _ _) true others whole
      · cases read
  · cases read

/-- A written repetition is read as a whole, whichever of the braces have a backslash. -/
theorem ofText?_written {braces : Braces} (digital : braces.Digital)
    (settled : braces.hasComma = false → braces.high = []) (escaped closingEscape : Bool) :
    ofText? ((if escaped then ['\\'] else []) ++ '\x7b' :: braces.body closingEscape) =
      some braces := by
  have read : read? true (braces.body closingEscape ++ []) =
      some (braces, (braces.body closingEscape).length) :=
    read?_body digital settled (fun _ => rfl) []
  rw [List.append_nil] at read
  cases escaped <;> simp [ofText?, read]

end Braces

end VimPattern
