/-
Module: VimPattern.Proofs.Spelling.Numbers
Purpose: Characters given by their number, in every notation, inside collections and outside.
Main exports:
  CodeNotation.Numeral, CodeNotation.Numeral.digits_eq, CodePoint.IsScalar, Digits.Capital,
  Digits.capital_upperHex, CodePoint.spelling, Context.verdict_numeral, codePoint_of_reaches
-/
import VimPattern.Proofs.Failure.Progress

namespace VimPattern

/-!
The number of a character is a letter and digits behind a backslash, mostly with a percent sign
between them.  The digits are as many as the letter allows.  Their value is a natural number
without a bound, so a number that is too large is one that no character has, and never another
one.
-/

/-! ### Digits -/

/-- The text starts with these digits of a number in this notation.  They are as many as the
notation allows, or else no digit stands behind them. -/
structure CodeNotation.Numeral (codeNotation : CodeNotation) (digits rest : List Char) : Prop where
  nonempty : digits ≠ []
  digital : ∀ digit ∈ digits, Digits.isDigitIn codeNotation.radix digit = true
  short : ∀ most, codeNotation.limit? = some most → digits.length ≤ most
  longest : codeNotation.limit? = some digits.length ∨
    ∀ next, rest.head? = some next → Digits.isDigitIn codeNotation.radix next = false

/-- The digits of a number are taken together, and nothing else. -/
theorem CodeNotation.Numeral.digits_eq {codeNotation : CodeNotation} {digits rest : List Char}
    (numeral : codeNotation.Numeral digits rest) :
    codeNotation.digits (digits ++ rest) = digits := by
  unfold CodeNotation.digits
  rw [List.takeWhile_append_of_pos numeral.digital]
  rcases numeral.longest with full | stop
  · rw [full]
    exact List.take_left
  · have none : rest.takeWhile (Digits.isDigitIn codeNotation.radix) = [] := by
      cases rest with
      | nil => rfl
      | cons next rest => simp [stop next rfl]
    rw [none, List.append_nil]
    dsimp only
    split
    · next most limit => exact List.take_of_length_le (numeral.short most limit)
    · rfl

/-- A number is a scalar value if it is that of a character. -/
def CodePoint.IsScalar (number : Nat) : Prop :=
  number ≤ 0x10FFFF ∧ ¬(0xD800 ≤ number ∧ number ≤ 0xDFFF)

instance (number : Nat) : Decidable (CodePoint.IsScalar number) :=
  inferInstanceAs (Decidable (_ ∧ _))

/-- The scalar values are the numbers that characters have. -/
theorem CodePoint.isScalar_iff {number : Nat} : IsScalar number ↔ number.isValidChar := by
  unfold IsScalar Nat.isValidChar
  omega

/-! ### Hexadecimal numbers -/

namespace Digits

/-- The digits denote the value, in capital letters and without leading zeros. -/
structure Capital (value : Nat) (digits : List Char) : Prop where
  nonempty : digits ≠ []
  capital : ∀ digit ∈ digits, digit ∈ "0123456789ABCDEF".toList
  leading : digits.head? = some '0' → digits = ['0']
  value : number 16 digits = value

/-- One more digit behind a number. -/
theorem number_append (radix : Nat) (digits : List Char) (digit : Char) :
    number radix (digits ++ [digit]) = number radix digits * radix + (valueOf? digit).getD 0 := by
  simp [number]

/-- One digit below sixteen, in capital letters. -/
theorem capital_digitChar {value : Nat} (small : value < 16) :
    Capital value [value.digitChar.toUpper] where
  nonempty := List.cons_ne_nil _ _
  capital := by
    have all : ∀ value < 16, value.digitChar.toUpper ∈ "0123456789ABCDEF".toList := by decide
    simpa using all value small
  leading := by simp
  value := by
    have all : ∀ value < 16, number 16 [value.digitChar.toUpper] = value := by decide
    exact all value small

/-- More digits are followed by one more.  What comes first is not zero. -/
theorem Capital.append {front last : Nat} {digits : List Char} {digit : Char}
    (capital : Capital front digits) (positive : 0 < front) (one : Capital last [digit]) :
    Capital (front * 16 + last) (digits ++ [digit]) where
  nonempty := by simp
  capital := List.forall_mem_append.2 ⟨capital.capital, one.capital⟩
  leading := by
    intro zero
    obtain ⟨first, others, rfl⟩ := List.exists_cons_of_ne_nil capital.nonempty
    have value := capital.value
    rw [capital.leading zero] at value
    exact absurd value.symm (Nat.ne_of_gt positive)
  value := by
    have value := one.value
    rw [number_append, capital.value]
    simpa [number] using value

/-- The number that is written in capital hexadecimal digits is the value. -/
theorem capital_upperHex (value : Nat) : Capital value (upperHex value).toList := by
  rw [upperHex, String.toList_ofList]
  induction value using Nat.strongRecOn with
  | ind value inductionHypothesis =>
      by_cases small : value < 16
      · rw [Nat.toDigits_of_lt_base small]
        exact capital_digitChar small
      · have smaller : value / 16 < value := by omega
        have split : value / 16 * 16 + value % 16 = value := Nat.div_add_mod' value 16
        rw [Nat.toDigits_of_base_le (by decide) (Nat.not_lt.1 small), List.map_append]
        have front := inductionHypothesis _ smaller
        have last : Capital (value % 16) _ := capital_digitChar (Nat.mod_lt _ (by decide))
        have whole := front.append (by omega) last
        rwa [split] at whole

end Digits

/-! ### Reading a number -/

/-- A number is read together with its letter. -/
theorem CodePoint.read?_numeral {codeNotation : CodeNotation} {letter : Char}
    {digits rest : List Char} (announces : CodeNotation.ofLetter? letter = some codeNotation)
    (numeral : codeNotation.Numeral digits rest) :
    read? (letter :: (digits ++ rest)) =
      some (ofNumber? (Digits.number codeNotation.radix digits), digits.length + 1) := by
  rw [read?, announces]
  dsimp only
  rw [numeral.digits_eq, if_neg]
  simpa using numeral.nonempty

/-- A character given by its number, inside a collection or outside. -/
def CodePoint.lexeme (inside : Bool) (char : Char) : Lexeme :=
  if inside then .member (.codePoint char) else .literal (.codePoint char)

/-- It is a literal, inside a collection as well. -/
theorem CodePoint.kind_lexeme (inside : Bool) (char : Char) :
    (CodePoint.lexeme inside char).kind = .literal := by
  cases inside <;> rfl

/-- Its text is the same inside a collection and outside. -/
theorem CodePoint.text_lexeme (inside : Bool) (char : Char) {token : Token}
    (itself : token.lexeme = CodePoint.lexeme inside char) (style : Style) :
    token.text style = CodePoint.text char := by
  rw [Token.text, itself]
  cases inside <;> rfl

/-- What stands behind the backslash. -/
def CodePoint.spelling (percent : Bool) (letter : Char) (digits : List Char) : List Char :=
  (if percent then ['%'] else []) ++ letter :: digits

/-- No letter of a notation begins anything else behind a percent sign. -/
theorem Verdict.afterPercent_numeral {codeNotation : CodeNotation} {letter : Char}
    {digits rest : List Char} (announces : CodeNotation.ofLetter? letter = some codeNotation)
    (numeral : codeNotation.Numeral digits rest) :
    afterPercent (letter :: (digits ++ rest)) =
      numeric (CodePoint.ofNumber? (Digits.number codeNotation.radix digits))
        (digits.length + 1 + 1) (CodePoint.lexeme false) := by
  have read := CodePoint.read?_numeral announces numeral
  have noPosition : editorPositionLength? (letter :: (digits ++ rest)) = none := by
    unfold CodeNotation.ofLetter? at announces
    split at announces <;> first | rfl | cases announces
  unfold afterPercent
  split
  case h_5 =>
    rw [noPosition, read]
    rfl
  all_goals
    next other =>
      obtain ⟨rfl, _⟩ := List.cons_eq_cons.1 other
      cases announces

/-- The verdict on a number, with or without a percent sign. -/
theorem Context.verdict_numeral {context : Context} {codeNotation : CodeNotation} {letter : Char}
    {digits rest : List Char} {percent : Bool}
    (announces : CodeNotation.ofLetter? letter = some codeNotation)
    (numeral : codeNotation.Numeral digits rest)
    (allowed : context.collection? = none → percent = true) :
    context.verdict '\\' (CodePoint.spelling percent letter digits ++ rest) =
      Verdict.numeric (CodePoint.ofNumber? (Digits.number codeNotation.radix digits))
        (CodePoint.spelling percent letter digits).length
        (CodePoint.lexeme context.collection?.isSome) := by
  cases collection : context.collection? with
  | none =>
      obtain rfl := allowed collection
      rw [verdict_outside collection]
      exact Verdict.afterPercent_numeral announces numeral
  | some withBreak =>
      have read := CodePoint.read?_numeral announces numeral
      have noPercent : letter ≠ '%' := by
        rintro rfl
        cases announces
      rw [verdict_inside collection]
      change Verdict.backslashMember _ = _
      unfold Verdict.backslashMember
      cases percent <;> simp [CodePoint.spelling, noPercent, read, Nat.add_comm 1] <;> rfl

/-! ### Whole patterns -/

section

variable {level : Magicness} {pattern : String} {items : List Item} {context : Context}
  {position : Nat} {codeNotation : CodeNotation} {letter : Char} {digits rest : List Char}
  {percent : Bool}

/-- A number that a character has is read as one item, and reading goes on right behind it. -/
theorem Scan.Reaches.numeral
    (reaches : Reaches level pattern items context position
      ('\\' :: (CodePoint.spelling percent letter digits ++ rest)))
    (announces : CodeNotation.ofLetter? letter = some codeNotation)
    (numeral : codeNotation.Numeral digits rest)
    (allowed : context.collection? = none → percent = true) {char : Char}
    (found : CodePoint.ofNumber? (Digits.number codeNotation.radix digits) = some char) :
    ∃ after, Reaches level pattern
      (items ++
        [itemAt context (.lexeme (CodePoint.lexeme context.collection?.isSome char))
          ('\\' :: CodePoint.spelling percent letter digits) position]) after
      (position + byteLength ('\\' :: CodePoint.spelling percent letter digits)) rest := by
  have verdict := context.verdict_numeral announces numeral allowed
  rw [found] at verdict
  have next := reaches.item verdict
  rw [List.take_left, List.drop_left] at next
  exact ⟨_, next⟩

/-- At a number that no character has reading stops. -/
theorem Scan.Reaches.ofPattern_eq_numeral
    (reaches : Reaches level pattern items context position
      ('\\' :: (CodePoint.spelling percent letter digits ++ rest)))
    (announces : CodeNotation.ofLetter? letter = some codeNotation)
    (numeral : codeNotation.Numeral digits rest)
    (allowed : context.collection? = none → percent = true)
    (missing : CodePoint.ofNumber? (Digits.number codeNotation.radix digits) = none) :
    ofPattern level pattern =
      { items := items
        ending :=
          .fault .invalidCodePoint
            (String.ofList ('\\' :: CodePoint.spelling percent letter digits)) position } := by
  have verdict := context.verdict_numeral announces numeral allowed
  rw [missing] at verdict
  rw [reaches.ofPattern_eq, readFrom, verdict]
  simp [Verdict.numeric, follow]

end

/-- A character by its number.  If the number is a scalar value, then the item is one literal
whose text is the number in capital hexadecimal digits between braces.  If it is not, however
large it may be, then the conversion fails with the spelling of the item and the offset that it
stands at, unless the tokens in front of it fail by themselves, so that it is never read. -/
theorem codePoint_of_reaches {options : Options} {pattern : String} {items : List Item}
    {context : Context} {position : Nat} {codeNotation : CodeNotation} {letter : Char}
    {digits rest : List Char} {percent : Bool}
    (reaches : Scan.Reaches options.magicness pattern items context position
      ('\\' :: (CodePoint.spelling percent letter digits ++ rest)))
    (announces : CodeNotation.ofLetter? letter = some codeNotation)
    (numeral : codeNotation.Numeral digits rest)
    (allowed : context.collection? = none → percent = true) :
    let spelled := '\\' :: CodePoint.spelling percent letter digits
    let number := Digits.number codeNotation.radix digits
    let before := items.filterMap Item.token?
    (CodePoint.IsScalar number →
      ∃ item after token hex,
        Scan.Reaches options.magicness pattern (items ++ [item]) after
            (position + Scan.byteLength spelled) rest ∧
          item.token? = some token ∧ token.kind = .literal ∧
            token.raw = String.ofList spelled ∧ token.position = position ∧
              Digits.Capital number hex ∧
                ∀ style, token.text style = "\\x\x7b" ++ String.ofList hex ++ "\x7d") ∧
      (¬CodePoint.IsScalar number →
        ∃ error, convert options pattern = .error error ∧
          ((∀ failure, ¬Growth.FailsAlone before failure) →
            error.cause = .scan (.invalidCodePoint (String.ofList spelled) position)) ∧
            ∀ failure, Growth.FailsAlone before failure → error.cause = failure.cause) := by
  intro spelled number before
  refine ⟨?_, ?_⟩
  · intro scalar
    have valid := CodePoint.isScalar_iff.1 scalar
    obtain ⟨after, next⟩ := reaches.numeral announces numeral allowed (if_pos valid)
    refine ⟨_, after, _, (Digits.upperHex number).toList, next, rfl, ?_, rfl, rfl,
      Digits.capital_upperHex number, ?_⟩
    · exact CodePoint.kind_lexeme _ _
    · intro style
      have same : (Char.ofNat number).toNat = number := by
        rw [Char.ofNat, dif_pos valid]
        rfl
      rw [String.ofList_toList, ← same]
      exact CodePoint.text_lexeme _ _ rfl style
  · intro notScalar
    have invalid : ¬number.isValidChar := notScalar ∘ CodePoint.isScalar_iff.2
    have scan := reaches.ofPattern_eq_numeral announces numeral allowed (if_neg invalid)
    have stopped : (Scan.ofPattern options.magicness pattern).result =
        .error (.invalidCodePoint (String.ofList spelled) position) := by
      rw [scan]
      rfl
    have failed := exists_error_of_result stopped
    rw [scan] at failed
    exact failed

/-- A decimal number beyond four bytes in a collection, and the greatest scalar value with as
many digits as there can be, and a letter behind them that is no digit of it any more. -/
theorem codePoint_of_reaches_limits :
    (∃ error, convert {} "[\\d4294967361]" = .error error ∧
      error.cause = .scan (.invalidCodePoint "\\d4294967361" 1)) ∧
      ∃ item after token hex,
        Scan.Reaches .magic "\\%U0010FFFFF" [item] after 11 ['F'] ∧
          item.token? = some token ∧ token.raw = "\\%U0010FFFF" ∧ Digits.Capital 0x10FFFF hex ∧
            ∀ style, token.text style = "\\x\x7b" ++ String.ofList hex ++ "\x7d" := by
  constructor
  · let digits := "4294967361".toList
    let number := '\\' :: (CodePoint.spelling false 'd' digits ++ [']'])
    have first : Scan.Reaches .magic "[\\d4294967361]" [] (.start .magic) 0 ('[' :: number) :=
      .start
    have opening : (Context.start .magic).verdict '[' number =
        .item (.lexeme (.collectionOpen {})) 0 := rfl
    have numeral : CodeNotation.decimal.Numeral digits [']'] :=
      ⟨nofun, List.all_eq_true.1 rfl, nofun, .inr (by rintro _ ⟨⟩; rfl)⟩
    obtain ⟨_, invalid⟩ := @codePoint_of_reaches {} _ _ _ _ _ 'd' digits _ false
      (first.item opening) rfl numeral nofun
    obtain ⟨error, failed, reported, _⟩ := invalid (by decide)
    refine ⟨error, failed, reported ?_⟩
    -- A bracket alone does not fail: how it goes on is up to what comes behind it.
    intro failure alone
    have one := alone (.error (.invalidCodePoint "" 0))
    have other := alone (.error (.invalidCodePoint "" 1))
    cases one.trans other.symm
  · let digits := "0010FFFF".toList
    have first : Scan.Reaches .magic "\\%U0010FFFFF" [] (.start .magic) 0
        ('\\' :: (CodePoint.spelling true 'U' digits ++ ['F'])) := .start
    have numeral : CodeNotation.hexLong.Numeral digits ['F'] :=
      ⟨nofun, List.all_eq_true.1 rfl, by rintro _ ⟨⟩; exact Nat.le_refl 8, .inl rfl⟩
    obtain ⟨valid, _⟩ := @codePoint_of_reaches {} _ _ _ _ _ 'U' digits _ true first rfl numeral
      fun _ => rfl
    obtain ⟨item, after, token, hex, reaches, itself, _, raw, _, capital, text⟩ := valid (by decide)
    exact ⟨item, after, token, hex, reaches, itself, raw, capital, text⟩

end VimPattern
