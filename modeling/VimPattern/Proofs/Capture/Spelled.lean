/-
Module: VimPattern.Proofs.Capture.Spelled
Purpose: How a pattern spells back references and the openings of groups.
Main exports:
  Kind.reference?, Kind.isPlainOpening, Lexeme.reference?, Lexeme.SpelledAs,
  Token.Spelled, Scan.spelled_ofPattern
-/
import VimPattern.Proofs.Capture.Sources

namespace VimPattern

/-!
Whether a token is a back reference or opens a capturing group is a question of what
it means.  It could be answered from the spelling just as well: a literal is a back
reference when it is a backslash and a digit but zero, and the opening of a group is
a capturing one when it is a parenthesis, with a backslash or without.
-/

/-- The number of the group that a token of this kind and spelling refers back to. -/
def Kind.reference? (kind : Kind) (raw : String) : Option Nat :=
  match kind, raw.toList with
  | .literal, ['\\', digit] =>
      if '1' ≤ digit ∧ digit ≤ '9' then some (digit.toNat - 48) else none
  | _, _ => none

/-- A token of this kind and spelling opens a group by a parenthesis and nothing else. -/
def Kind.isPlainOpening (kind : Kind) (raw : String) : Bool :=
  kind == .groupOpen && (raw == "\\(" || raw == "(")

/-- The number of the group that a token refers back to, from its spelling. -/
def Token.reference? (token : Token) : Option Nat :=
  token.kind.reference? token.raw

/-- The token opens a group by a parenthesis and nothing else, from its spelling. -/
def Token.isPlainOpening (token : Token) : Bool :=
  token.kind.isPlainOpening token.raw

/-- The spelling of the lexeme tells whether it refers back or opens a plain group. -/
def Lexeme.SpelledAs (raw : List Char) : Lexeme → Prop
  | .literal (.backReference number) =>
      ∃ digit, raw = ['\\', digit] ∧ ('1' ≤ digit ∧ digit ≤ '9') ∧
        number = digit.toNat - 48
  | .groupOpen (.capturing _) => raw = ['\\', '('] ∨ raw = ['(']
  | .groupOpen _ => raw ≠ ['\\', '('] ∧ raw ≠ ['(']
  | _ => True

/-- Only the parenthesis is read as the opening of a plain group. -/
theorem Context.SpellsOutside.spelledAs {context : Context} {raw : List Char}
    {lexeme : Lexeme} (spells : context.SpellsOutside raw (.lexeme lexeme)) :
    lexeme.SpelledAs raw := by
  cases spells with
  | operator active means =>
      cases means with
      | groupOpen =>
          rw [Operator.spelling]
          split
          · exact .inr rfl
          · exact .inl rfl
      | _ => trivial
  | backReference range => exact ⟨_, rfl, range, rfl⟩
  | externalGroup | cluster | bareCluster => exact ⟨by simp, by simp⟩
  | _ => trivial

/-- What is read tells by the spelling what it is; inside a collection nothing refers back or
opens a group. -/
theorem Context.spelledAs_of_verdict {context : Context} {char : Char} {text : List Char}
    {lexeme : Lexeme} {extra : Nat}
    (verdict : context.verdict char text = .item (.lexeme lexeme) extra) :
    lexeme.SpelledAs (char :: text.take extra) := by
  have spells := spells_of_verdict verdict
  generalize char :: text.take extra = raw at spells
  cases spells with
  | outside _ spells => exact spells.spelledAs
  | inside _ spells => cases spells <;> trivial

/-- The digits but zero. -/
theorem mem_digits_of_range {digit : Char} (range : '1' ≤ digit ∧ digit ≤ '9') :
    digit ∈ ['1', '2', '3', '4', '5', '6', '7', '8', '9'] := by
  have digits : ∀ number < 58, 49 ≤ number →
      Char.ofNat number ∈ ['1', '2', '3', '4', '5', '6', '7', '8', '9'] := by decide
  have low : 49 ≤ digit.toNat := range.1
  have high : digit.toNat ≤ 57 := range.2
  have among := digits digit.toNat (Nat.lt_succ_of_le high) low
  rwa [Char.ofNat_toNat] at among

/-- An item of a backslash and a digit but zero is a back reference. -/
theorem Context.lexeme_of_digit {context : Context} {digit : Char} {text : List Char}
    {lexeme : Lexeme} {extra : Nat} (range : '1' ≤ digit ∧ digit ≤ '9')
    (verdict : context.verdict '\\' (digit :: text) = .item (.lexeme lexeme) extra)
    (taken : extra ≠ 0) :
    lexeme = .literal (.backReference (digit.toNat - 48)) := by
  have digits := mem_digits_of_range range
  simp only [List.mem_cons, List.not_mem_nil, or_false] at digits
  unfold Context.verdict at verdict
  split at verdict
  · -- Inside a collection the backslash is an item of its own.
    rcases digits with rfl | rfl | rfl | rfl | rfl | rfl | rfl | rfl | rfl <;>
      cases verdict <;> exact absurd rfl taken
  · rcases digits with rfl | rfl | rfl | rfl | rfl | rfl | rfl | rfl | rfl <;>
      cases verdict <;> rfl

/-! ### Tokens -/

/-- The number of the group that the lexeme refers back to. -/
def Lexeme.reference? : Lexeme → Option Nat
  | .literal (.backReference number) => some number
  | _ => none

/-- What a token is by its spelling is what it means. -/
structure Token.Spelled (token : Token) : Prop where
  reference : token.reference? = token.lexeme.reference?
  opening : token.isPlainOpening = token.opensCapture

namespace Token

variable {context : Context} {char : Char} {text : List Char} {token : Token} {extra : Nat}

/-- A token refers back by its meaning if it does so by its spelling. -/
theorem reference?_of_verdict
    (verdict : context.verdict char text = .item (.lexeme token.lexeme) extra)
    (raw : token.raw.toList = char :: text.take extra) :
    token.reference? = token.lexeme.reference? := by
  have spelled := Context.spelledAs_of_verdict verdict
  by_cases refers : ∃ number, token.lexeme = .literal (.backReference number)
  · obtain ⟨number, same⟩ := refers
    rw [same] at spelled
    obtain ⟨digit, written, range, value⟩ := spelled
    have digits : token.raw.toList = ['\\', digit] := raw.trans written
    rw [reference?, kind, same, value]
    unfold Kind.reference?
    rw [digits]
    exact if_pos range
  · have other : token.lexeme.reference? = none := by
      unfold Lexeme.reference?
      split
      · next number same => exact absurd ⟨number, same⟩ refers
      · rfl
    rw [other]
    unfold reference? Kind.reference?
    split
    · next digit literal written =>
        apply if_neg
        intro range
        apply refers
        rw [written] at raw
        obtain ⟨rfl, taken⟩ := List.cons_eq_cons.1 raw
        cases text with
        | nil => simp at taken
        | cons first rest =>
            have positive : extra ≠ 0 := by
              rintro rfl
              cases taken
            obtain ⟨more, rfl⟩ := Nat.exists_eq_succ_of_ne_zero positive
            obtain ⟨rfl, _⟩ := List.cons_eq_cons.1 taken
            exact ⟨_, Context.lexeme_of_digit range verdict positive⟩
    · rfl

/-- A token opens a plain group by its meaning if it does so by its spelling. -/
theorem isPlainOpening_of_verdict
    (verdict : context.verdict char text = .item (.lexeme token.lexeme) extra)
    (raw : token.raw.toList = char :: text.take extra) :
    token.isPlainOpening = token.opensCapture := by
  have spelled := Context.spelledAs_of_verdict verdict
  rw [isPlainOpening, opensCapture, kind, Kind.isPlainOpening]
  cases same : token.lexeme with
  | groupOpen sort =>
      rw [same] at spelled
      cases sort with
      | capturing number =>
          have parenthesis : token.raw.toList = ['\\', '('] ∨ token.raw.toList = ['('] := by
            rw [raw]
            exact spelled
          have among : token.raw = "\\(" ∨ token.raw = "(" :=
            parenthesis.imp String.toList_inj.1 String.toList_inj.1
          rcases among with same | same <;> rw [same] <;> rfl
      | nonCapturing | external number =>
          have other : token.raw.toList ≠ ['\\', '('] ∧ token.raw.toList ≠ ['('] := by
            rw [raw]
            exact spelled
          have escaped : token.raw ≠ "\\(" := fun same => other.1 (by rw [same]; rfl)
          have bare : token.raw ≠ "(" := fun same => other.2 (by rw [same]; rfl)
          simp [escaped, bare]
  | _ => rfl

end Token

namespace Scan

/-- The tokens of a text are spelled as what they are. -/
theorem Reads.spelled {context : Context} {position : Nat} {text : List Char}
    {scan : Scan} (reads : Reads context position text scan) :
    ∀ token ∈ scan.tokens, token.Spelled := by
  induction reads with
  | ended => simp [tokens]
  | mark verdict rest inductionHypothesis => exact inductionHypothesis
  | token verdict raw place level rest inductionHypothesis =>
      have characters := congrArg String.toList raw
      rw [String.toList_ofList] at characters
      rw [tokens_cons_lexeme]
      refine List.forall_mem_cons.2 ⟨⟨?_, ?_⟩, inductionHypothesis⟩
      · exact Token.reference?_of_verdict verdict characters
      · exact Token.isPlainOpening_of_verdict verdict characters
  | fault => simp [tokens]
  | noRule => simp [tokens]

/-- The tokens of a pattern are spelled as what they are. -/
theorem spelled_ofPattern (level : Magicness) (pattern : String) :
    ∀ token ∈ (ofPattern level pattern).tokens, token.Spelled :=
  (reads_ofPattern level pattern).spelled

end Scan

end VimPattern
