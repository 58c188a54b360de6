/-
Module: VimPattern.Proofs.Scan.Lookahead
Purpose: What a reader finds is settled by the characters that it takes.
Main exports:
  Settles, Settles.cut, Braces.settles_read?, Assertion.Spelled, Assertion.settles_read?,
  settles_editorPositionLength?, Verdict.settles_className?, CodePoint.read?_cut,
  Collection.readOpening_cut
-/
import VimPattern.Proofs.Failure.Checked
import VimPattern.Proofs.Scan.Joints

namespace VimPattern

/-!
Many rules look ahead, and some look ahead in vain: a brace that is not closed is an escaped
character, and the digits behind it are items of their own.  What a reader finds is still
settled by the characters it takes, and a reader that finds nothing in a text finds in a
longer one only what goes beyond the text.  So a text is read as if it were all there is,
unless what is found takes characters from behind it.
-/

/-! ### Readers that look for a closing character -/

/-- What the reader finds is settled by the characters it takes. -/
def Settles {α : Type} (read? : List Char → Option α) (taken : α → Nat) : Prop :=
  ∀ {text others : List Char} {found : α}, read? text = some found →
    text.take (taken found) <+: others → read? others = some found

/-- Such a reader reads a text in front of another one as the text alone, unless it takes
characters of the other one. -/
theorem Settles.cut {α : Type} {read? : List Char → Option α} {taken : α → Nat}
    (settles : Settles read? taken) {text rest : List Char}
    (within : ∀ found, read? (text ++ rest) = some found → taken found ≤ text.length) :
    read? (text ++ rest) = read? text := by
  cases alone : read? text with
  | some found =>
      exact settles alone ((List.take_prefix _ _).trans (List.prefix_append _ _))
  | none =>
      cases joined : read? (text ++ rest) with
      | none => rfl
      | some found =>
          have short : (text ++ rest).take (taken found) <+: text := by
            rw [List.take_append_of_le_length (within found joined)]
            exact List.take_prefix _ _
          exact (settles joined short).symm.trans alone

theorem Braces.settles_read? (closingEscape : Bool) :
    Settles (read? closingEscape) Prod.snd := by
  rintro text others ⟨braces, taken⟩ read leads
  obtain ⟨digital, settled, escape, allowed, same⟩ := exists_body_of_read? read
  have length : taken = (braces.body escape).length := by
    rw [← same, List.length_take, Nat.min_eq_left (length_read? read)]
  dsimp only at leads
  rw [same] at leads
  obtain ⟨rest, rfl⟩ := leads
  rw [read?_body digital settled allowed, length]

/-- Characters that are taken up to others stand before these. -/
theorem take_takeWhile_append {belongs : Char → Bool} {text front rest : List Char}
    (closing : text.dropWhile belongs = front ++ rest) :
    text.take ((text.takeWhile belongs).length + front.length) =
      text.takeWhile belongs ++ front := by
  have parts : (text.takeWhile belongs ++ text.dropWhile belongs).take
      ((text.takeWhile belongs).length + front.length) = _ :=
    List.take_length_add_append front.length
  rw [List.takeWhile_append_dropWhile] at parts
  rw [parts, closing, List.take_left]

/-- A look behind is read with the digits before its sign. -/
theorem Assertion.read?_behind {digits : List Char} (digital : ∀ digit ∈ digits, digit.isDigit)
    (rest : List Char) :
    read? (digits ++ '<' :: '=' :: rest) = some (.behind, digits.length + 2) ∧
      read? (digits ++ '<' :: '!' :: rest) = some (.notBehind, digits.length + 2) := by
  have sign : '<'.isDigit = false := rfl
  cases digits with
  | nil => exact ⟨rfl, rfl⟩
  | cons first others =>
      have digit := digital first (.head _)
      have taken (more : List Char) := Braces.takeWhile_digits digital sign more
      constructor
      all_goals
        rw [List.cons_append, read?, ← List.cons_append]
        · rw [(taken _).1, (taken _).2]
          rfl
        all_goals
          rintro _ ⟨⟩
          cases digit

/-- The texts behind an at sign that are assertions. -/
inductive Assertion.Spelled : Assertion → List Char → Prop
  | ahead : Spelled .ahead ['=']
  | notAhead : Spelled .notAhead ['!']
  | atomic : Spelled .atomic ['>']
  | behind {digits : List Char} (digital : ∀ digit ∈ digits, digit.isDigit) :
      Spelled .behind (digits ++ ['<', '='])
  | notBehind {digits : List Char} (digital : ∀ digit ∈ digits, digit.isDigit) :
      Spelled .notBehind (digits ++ ['<', '!'])

/-- A text that starts with an assertion is read as that. -/
theorem Assertion.Spelled.read?_append {assertion : Assertion} {characters : List Char}
    (spelled : assertion.Spelled characters) (rest : List Char) :
    read? (characters ++ rest) = some (assertion, characters.length) := by
  cases spelled with
  | ahead | notAhead | atomic => rfl
  | behind digital =>
      rw [List.append_assoc, List.length_append]
      exact (read?_behind digital rest).1
  | notBehind digital =>
      rw [List.append_assoc, List.length_append]
      exact (read?_behind digital rest).2

/-- Whatever is read as an assertion is spelled as that. -/
theorem Assertion.spelled_of_read? {text : List Char} {assertion : Assertion} {taken : Nat}
    (read : read? text = some (assertion, taken)) : assertion.Spelled (text.take taken) := by
  unfold read? at read
  split at read
  · cases read
    exact .ahead
  · cases read
    exact .notAhead
  · cases read
    exact .atomic
  · have digital : ∀ digit ∈ text.takeWhile Char.isDigit, digit.isDigit :=
      List.all_eq_true.1 List.all_takeWhile
    dsimp only at read
    split at read
    · next sign =>
        cases read
        have parts := @take_takeWhile_append _ _ ['<', '='] _ sign
        exact parts ▸ .behind digital
    · next sign =>
        cases read
        have parts := @take_takeWhile_append _ _ ['<', '!'] _ sign
        exact parts ▸ .notBehind digital
    · cases read

theorem Assertion.settles_read? : Settles read? Prod.snd := by
  rintro text others ⟨assertion, taken⟩ read leads
  obtain ⟨rest, rfl⟩ := leads
  rw [(spelled_of_read? read).read?_append, List.length_take,
    Nat.min_eq_left (length_read? read)]

/-- A line or a column is read as its number with the letter behind it. -/
theorem markOrColumnLength?_column {digits : List Char} {unit : Char}
    (counted : (!digits.isEmpty && unit ∈ ['l', 'c', 'v']) = true)
    (digital : ∀ digit ∈ digits, digit.isDigit) (rest : List Char) :
    markOrColumnLength? (digits ++ unit :: rest) = some (digits.length + 1) := by
  have stops : unit.isDigit = false := by
    have known := (Bool.and_eq_true_iff.1 counted).2
    simp only [List.mem_cons, List.not_mem_nil, or_false, decide_eq_true_eq] at known
    rcases known with rfl | rfl | rfl <;> rfl
  obtain ⟨taken, left⟩ := Braces.takeWhile_digits digital stops rest
  cases digits with
  | nil => cases counted
  | cons first others =>
      have digit := digital first (.head _)
      rw [List.cons_append, markOrColumnLength?, ← List.cons_append]
      · rw [taken, left]
        exact if_pos counted
      · intro _ _ same
        cases (List.cons.inj same).1
        cases digit

theorem settles_markOrColumnLength? : Settles markOrColumnLength? id := by
  intro text others taken read leads
  unfold markOrColumnLength? at read
  split at read
  · next name rest =>
      split at read
      · cases read
      · next notBreak =>
          cases read
          obtain ⟨rest, rfl⟩ := leads
          exact if_neg notBreak
  · dsimp only at read
    split at read
    · next unit rest behind =>
        split at read
        · next counted =>
            cases read
            have digital : ∀ digit ∈ text.takeWhile Char.isDigit, digit.isDigit :=
              List.all_eq_true.1 List.all_takeWhile
            have parts := @take_takeWhile_append _ _ [unit] _ behind
            obtain ⟨rest, rfl⟩ := parts ▸ leads
            rw [List.append_assoc]
            exact markOrColumnLength?_column counted digital rest
        · cases read
    · cases read

theorem settles_editorPositionLength? : Settles editorPositionLength? id := by
  have place {text others : List Char} {taken : Nat} (sign : Char)
      (read : (markOrColumnLength? text).map (· + 1) = some taken)
      (leads : (sign :: text).take taken <+: others) :
      ∃ rest, others = sign :: rest ∧ (markOrColumnLength? rest).map (· + 1) = some taken := by
    obtain ⟨size, found, rfl⟩ := Option.map_eq_some_iff.1 read
    obtain ⟨rest, rfl⟩ := leads
    refine ⟨text.take size ++ rest, rfl, ?_⟩
    have same := settles_markOrColumnLength? found (List.prefix_append (text.take size) rest)
    rw [same]
    rfl
  intro text others taken read leads
  unfold editorPositionLength? at read
  split at read
  · cases read
    obtain ⟨rest, rfl⟩ := leads
    rfl
  · cases read
    obtain ⟨rest, rfl⟩ := leads
    rfl
  · obtain ⟨rest, rfl, found⟩ := place '<' read leads
    exact found
  · obtain ⟨rest, rfl, found⟩ := place '>' read leads
    exact found
  · -- Neither a mark nor a number starts with one of the other signs.
    have same := settles_markOrColumnLength? read leads
    unfold editorPositionLength?
    split
    · cases same
    · cases same
    · cases same
    · cases same
    · exact same

theorem Verdict.settles_className? : Settles className? fun name => name.length + 3 := by
  intro text others name read leads
  unfold className? at read
  split at read
  · next text =>
      dsimp only at read
      split at read
      · next closing =>
          split at read
          · cases read
          · next nonempty =>
              cases read
              have letters : ∀ letter ∈ text.takeWhile Char.isLower, letter.isLower :=
                List.all_eq_true.1 List.all_takeWhile
              have stops : ':'.isLower = false := rfl
              have parts := @take_takeWhile_append _ _ [':', ']'] _ closing
              rw [List.take_succ_cons] at leads
              obtain ⟨rest, rfl⟩ := parts ▸ leads
              rw [List.cons_append, List.append_assoc, className?,
                List.takeWhile_append_of_pos letters, List.dropWhile_append_of_pos letters]
              simp [stops, nonempty]
      · cases read
  · cases read

/-- The digits of a number are the same unless there are more of them behind. -/
theorem CodeNotation.digits_cut (codeNotation : CodeNotation) {text rest : List Char}
    (within : (codeNotation.digits (text ++ rest)).length ≤ text.length) :
    codeNotation.digits (text ++ rest) = codeNotation.digits text := by
  unfold digits at within ⊢
  rw [List.takeWhile_append] at within ⊢
  split at within
  · next all =>
      have whole := (List.takeWhile_prefix (Digits.isDigitIn codeNotation.radix)).eq_of_length all
      rw [if_pos all, whole]
      dsimp only at within ⊢
      split
      · next most limit =>
          rw [limit, List.length_take, List.length_append] at within
          rcases Nat.le_total most text.length with short | long
          · exact List.take_append_of_le_length short
          · have none : (rest.takeWhile (Digits.isDigitIn codeNotation.radix)).length = 0 ∨
                most = text.length := by omega
            rcases none with none | exact_
            · rw [List.eq_nil_of_length_eq_zero none, List.append_nil]
            · exact List.take_append_of_le_length (Nat.le_of_eq exact_)
      · next limit =>
          rw [limit, List.length_append] at within
          have none : (rest.takeWhile (Digits.isDigitIn codeNotation.radix)).length = 0 := by
            omega
          rw [List.eq_nil_of_length_eq_zero none, List.append_nil]
  · next more => rw [if_neg more]

theorem CodePoint.read?_cut {text rest : List Char}
    (within : ∀ found, read? (text ++ rest) = some found → found.2 ≤ text.length) :
    read? (text ++ rest) = read? text := by
  rcases text with _ | ⟨letter, text⟩
  · -- A number takes at least the letter of its notation.
    rw [List.nil_append] at within ⊢
    rcases rest with _ | ⟨letter, rest⟩
    · rfl
    · rw [read?] at within ⊢
      split
      · next codeNotation announced =>
          rw [announced] at within
          dsimp only at within ⊢
          split
          · rfl
          · next some_ =>
              rw [if_neg some_] at within
              exact absurd (within _ rfl) (Nat.not_succ_le_zero _)
      · rfl
  · rw [List.cons_append, read?] at within ⊢
    rw [read?]
    cases announced : CodeNotation.ofLetter? letter with
    | none => rfl
    | some codeNotation =>
        rw [announced] at within
        dsimp only at within ⊢
        have length : (codeNotation.digits (text ++ rest)).length ≤ text.length := by
          by_cases empty : (codeNotation.digits (text ++ rest)).isEmpty
          · rw [List.isEmpty_iff.1 empty]
            exact Nat.zero_le _
          · rw [if_neg empty] at within
            exact Nat.le_of_succ_le_succ (within _ rfl)
        rw [codeNotation.digits_cut length]

theorem Collection.readOpening_cut {withBreak : Bool} {text rest : List Char}
    (within : (readOpening withBreak (text ++ rest)).2 ≤ text.length) :
    readOpening withBreak (text ++ rest) = readOpening withBreak text := by
  rcases text with _ | ⟨first, _ | ⟨second, text⟩⟩
  · by_cases caret : rest.head? == some '^'
    · simp [readOpening, caret] at within
    · by_cases bracket : rest.head? == some ']' <;>
        simp_all [readOpening]
  · by_cases caret : first = '^'
    · by_cases bracket : rest.head? == some ']' <;>
        simp_all [readOpening]
    · simp [readOpening, caret]
  · by_cases caret : first = '^' <;> simp [readOpening, caret]

end VimPattern
