/-
Module: VimPattern.Proofs.Target.Texts
Purpose: The target text of every lexeme belongs to any family that has the options.
Main exports:
  Options.Sound, Target.Family.Accepts, Options.Sound.accepts,
  Literal.whole_text, Member.member_text, Quantifier.whole_text,
  Collection.whole_text, GroupSort.opens_text
-/
import VimPattern.Lexeme
import VimPattern.Proofs.Scan.Admission
import VimPattern.Proofs.Target.Family
import VimPattern.Tree.Basic

namespace VimPattern

open Target

/-!
The texts that the options hold are copied into the output as they are, so they
have to be well formed themselves.  Apart from that each lexeme answers for its
own text: a literal can stand anywhere outside brackets, a member of a collection
inside them, and a group or an assertion opens one parenthesis.  This is said once
for every family of texts.
-/

/-- The classes that the options describe are bodies of bracket expressions. -/
structure Options.Bodied (options : Options) : Prop where
  identChars : isBody options.identChars.toList
  keywordChars : isBody options.keywordChars.toList
  fileNameChars : isBody options.fileNameChars.toList
  printableChars : isBody options.printableChars.toList

/-- The texts of the options are well formed: the line break is balanced, without a
bar outside parentheses, and the classes are bodies of bracket expressions. -/
structure Options.Sound (options : Options) : Prop extends options.Bodied where
  newLine : Target.read options.newLine = some {}

/-- The texts of the options belong to the family. -/
structure Target.Family.Accepts (family : Family) (options : Options) : Prop
    extends options.Bodied where
  newLine : family.whole options.newLine

/-- Sound options have balanced texts. -/
theorem Options.Sound.accepts {options : Options} (sound : options.Sound) :
    balance.Accepts options where
  toBodied := sound.toBodied
  newLine := closes_of_read sound.newLine

/-! ### Digits -/

/-- A digit of a number is the character of its value. -/
theorem exists_digitChar_of_mem_toDigits {base number : Nat} (big : 1 < base)
    {char : Char} (among : char ∈ Nat.toDigits base number) :
    ∃ value < base, char = value.digitChar := by
  induction number using Nat.strongRecOn with
  | ind number inductionHypothesis =>
      by_cases small : number < base
      · rw [Nat.toDigits_of_lt_base small, List.mem_singleton] at among
        exact ⟨number, small, among⟩
      · have larger : base ≤ number := Nat.not_lt.1 small
        rw [Nat.toDigits_of_base_le big larger, List.mem_append, List.mem_singleton]
          at among
        rcases among with front | last
        · have smaller : number / base < number :=
            Nat.div_lt_self (by omega) big
          exact inductionHypothesis _ smaller front
        · exact ⟨number % base, Nat.mod_lt _ (by omega), last⟩

/-- Decimal digits mean nothing to the reader. -/
theorem inert_of_isDigit {char : Char} (digit : char.isDigit = true) : Inert char := by
  intro special
  simp only [List.mem_cons, List.not_mem_nil, or_false] at special
  rcases special with rfl | rfl | rfl | rfl | rfl | rfl <;> cases digit

theorem inert_toString (number : Nat) : ∀ char ∈ (toString number).toList, Inert char := by
  intro char among
  rw [Nat.toString_eq_ofList_toDigits, String.toList_ofList] at among
  exact inert_of_isDigit (Nat.isDigit_of_mem_toDigits (by decide) (by decide) among)

/-- A hexadecimal number is written in digits and capital letters. -/
theorem exists_digit_of_mem_upperHex {value : Nat} {char : Char}
    (among : char ∈ (Digits.upperHex value).toList) :
    ∃ number < 16, char = number.digitChar.toUpper := by
  rw [Digits.upperHex, String.toList_ofList] at among
  obtain ⟨digit, member, rfl⟩ := List.mem_map.1 among
  obtain ⟨number, small, rfl⟩ := exists_digitChar_of_mem_toDigits (by decide) member
  exact ⟨number, small, rfl⟩

theorem inert_upperHex (value : Nat) :
    ∀ char ∈ (Digits.upperHex value).toList, Inert char := by
  intro char among
  obtain ⟨number, small, rfl⟩ := exists_digit_of_mem_upperHex among
  have capital : ∀ number < 16, Inert number.digitChar.toUpper := by decide
  exact capital number small

theorem inert_twoHex (value : Nat) :
    ∀ char ∈ (Digits.twoHex value).toList, Inert char := by
  have small : ∀ number < 16, Inert number.digitChar := by decide
  intro char among
  rw [Digits.twoHex, String.toList_ofList] at among
  rcases List.mem_cons.1 among with rfl | last
  · exact small _ (Nat.mod_lt _ (by decide))
  · rw [List.mem_singleton.1 last]
    exact small _ (Nat.mod_lt _ (by decide))

variable (family : Family)

theorem CodePoint.whole_text (char : Char) : family.whole (CodePoint.text char) := by
  have front : family.whole "\\x\x7b" := family.whole_of_isPlain rfl
  have digits := family.whole_of_inert (inert_upperHex char.toNat)
  have back : family.whole "\x7d" := family.whole_of_isPlain rfl
  exact family.whole_append (family.whole_append front digits) back

theorem CodePoint.member_text (char : Char) :
    family.member (CodePoint.text char) := by
  have front : family.member "\\x\x7b" := family.member_of_isBody rfl
  have digits := family.member_of_inert (inert_upperHex char.toNat)
  have back : family.member "\x7d" := family.member_of_isBody rfl
  exact family.member_append (family.member_append front digits) back

/-! ### Characters -/

namespace Escape

/-- A character that needs no backslash means nothing to the reader. -/
theorem inert_of_not_mem_quotable {char : Char} (free : char ∉ quotable) :
    Inert char := by
  intro special
  apply free
  simp only [List.mem_cons, List.not_mem_nil, or_false] at special
  rcases special with rfl | rfl | rfl | rfl | rfl | rfl <;> decide

theorem forall_mem_singleton {char : Char} {property : Char → Prop}
    (holds : property char) : ∀ other ∈ (String.singleton char).toList, property other := by
  intro other among
  rw [String.toList_singleton, List.mem_singleton] at among
  rwa [among]

theorem whole_quoted (char : Char) : family.whole (quoted char) := by
  unfold quoted
  split
  · exact family.whole_afterBackslash char
  · next free =>
      exact family.whole_of_inert (forall_mem_singleton (inert_of_not_mem_quotable free))

theorem member_quoted (char : Char) : family.member (quoted char) := by
  unfold quoted
  split
  · exact family.member_afterBackslash char
  · next free =>
      exact family.member_of_inert (forall_mem_singleton (inert_of_not_mem_quotable free))

theorem whole_plain {char : Char} (notEscape : char ≠ '\\') :
    family.whole (plain char) := by
  unfold plain
  split
  · have front : family.whole "\\x" := family.whole_of_isPlain rfl
    exact family.whole_append front (family.whole_of_inert (inert_twoHex _))
  · split
    · exact family.whole_afterBackslash char
    · next free =>
        apply family.whole_of_inert
        apply forall_mem_singleton
        intro special
        simp only [List.mem_cons, List.not_mem_nil, or_false] at special
        rcases special with escape | rfl | rfl | rfl | rfl | rfl
        · exact notEscape escape
        all_goals exact free (by decide)

theorem whole_backslashed (char : Char) : family.whole (backslashed char) := by
  unfold backslashed
  split
  · exact family.whole_of_isPlain rfl
  · exact family.whole_of_isPlain rfl
  · exact family.whole_of_isPlain rfl
  · exact family.whole_of_isPlain rfl
  · exact whole_quoted family _

theorem member_member {char : Char} (notEscape : char ≠ '\\') (notClosing : char ≠ ']') :
    family.member (member char) := by
  unfold member
  split
  · exact family.member_afterBackslash char
  · next free =>
      have notOpening : char ≠ '[' := fun same => free (by simp [same])
      apply family.member_of_isBody
      rw [String.toList_singleton]
      unfold isBody
      simp [notEscape, notOpening, notClosing, isBody]

theorem member_backslashedMember (char : Char) :
    family.member (backslashedMember char) := by
  unfold backslashedMember
  split
  · exact family.member_of_isBody rfl
  · exact family.member_of_isBody rfl
  · exact family.member_afterBackslash _

end Escape

/-! ### Classes -/

variable {family} {options : Options}

namespace Target.Family.Accepts

theorem whole_lineStartText (accepts : family.Accepts options) :
    family.whole options.lineStartText := by
  have start : family.whole "^" := family.whole_of_isPlain rfl
  have behind : family.whole ("(?<=" ++ options.newLine ++ ")") :=
    family.whole_enclosed (by simp [marks]) (family.inner_of_whole accepts.newLine)
  have grouped :=
    whole_cluster
      (inner_alternatives (family.inner_of_whole start) (family.inner_of_whole behind))
  have opening : "(?:^|(?<=" = "(?:" ++ "^" ++ "|" ++ "(?<=" := rfl
  have closing : "))" = ")" ++ ")" := rfl
  rw [Options.lineStartText, opening, closing]
  simpa only [String.append_assoc] using grouped

theorem whole_lineEndText (accepts : family.Accepts options) :
    family.whole options.lineEndText := by
  have finish : family.whole "$" := family.whole_of_isPlain rfl
  have looked : family.whole ("(?=" ++ (options.newLine ++ "|" ++ "$") ++ ")") :=
    family.whole_enclosed (by simp [marks])
      (inner_alternatives (family.inner_of_whole accepts.newLine)
        (family.inner_of_whole finish))
  have closing : "|$)" = "|" ++ "$" ++ ")" := rfl
  rw [Options.lineEndText, closing]
  simpa only [String.append_assoc] using looked

theorem whole_caretText (accepts : family.Accepts options) :
    family.whole options.caretText := by
  unfold Options.caretText
  split
  · exact accepts.whole_lineStartText
  · exact family.whole_of_isPlain rfl

theorem whole_dollarText (accepts : family.Accepts options) :
    family.whole options.dollarText := by
  unfold Options.dollarText
  split
  · exact accepts.whole_lineEndText
  · exact family.whole_of_isPlain rfl

theorem whole_lineBreakText (accepts : family.Accepts options) :
    family.whole options.lineBreakText := by
  unfold Options.lineBreakText
  split
  · exact accepts.newLine
  · exact whole_cluster (family.inner_of_whole accepts.newLine)

theorem whole_anyOrBreakText (accepts : family.Accepts options) :
    family.whole options.anyOrBreakText := by
  have dot : family.whole "." := family.whole_of_isPlain rfl
  have grouped :=
    whole_cluster
      (inner_alternatives (family.inner_of_whole accepts.newLine)
        (family.inner_of_whole dot))
  have closing : "|.)" = "|" ++ "." ++ ")" := rfl
  rw [Options.anyOrBreakText, closing]
  simpa only [String.append_assoc] using grouped

end Target.Family.Accepts

theorem ClassSet.member_members (accepts : family.Accepts options) (set : ClassSet) :
    family.member (set.members options) := by
  cases set with
  | identifier => exact family.member_of_isBody accepts.identChars
  | keyword => exact family.member_of_isBody accepts.keywordChars
  | fileName => exact family.member_of_isBody accepts.fileNameChars
  | printable => exact family.member_of_isBody accepts.printableChars
  | _ =>
      rw [members]
      exact family.member_of_isBody rfl

theorem CharClass.member_body (accepts : family.Accepts options)
    (letterClass : CharClass) : family.member (letterClass.body options) := by
  have members := letterClass.set.member_members accepts
  have digits : family.member "0-9" := family.member_of_isBody rfl
  have complement : family.member "^\\r\\n" := family.member_of_isBody rfl
  unfold CharClass.body
  split
  · exact members
  · exact family.member_append members digits
  · exact family.member_append complement members
  · exact members

theorem CharClass.whole_text (accepts : family.Accepts options)
    (letterClass : CharClass) (withBreak : Bool) :
    family.whole (letterClass.text options withBreak) := by
  have brackets := family.whole_bracketed (letterClass.member_body accepts)
  unfold CharClass.text
  split
  · have grouped :=
      Family.whole_cluster
        (Family.inner_alternatives (family.inner_of_whole brackets)
          (family.inner_of_whole accepts.newLine))
    simpa only [String.append_assoc] using grouped
  · exact brackets

theorem NamedClass.member_body (accepts : family.Accepts options) (foldCase : Bool)
    (namedClass : NamedClass) : family.member (namedClass.body options foldCase) := by
  have digits : family.member "0-9" := family.member_of_isBody rfl
  cases namedClass with
  | ident =>
      exact family.member_append (family.member_of_isBody accepts.identChars) digits
  | keyword =>
      exact family.member_append (family.member_of_isBody accepts.keywordChars) digits
  | fname =>
      exact family.member_append (family.member_of_isBody accepts.fileNameChars) digits
  | lower | upper =>
      rw [body]
      split <;> exact family.member_of_isBody rfl
  | _ =>
      rw [body]
      exact family.member_of_isBody rfl

/-! ### Lexemes -/

variable {style : Style}

/-- A reference to a group by its number. -/
theorem whole_numbered (family : Family) (number : Nat) :
    family.whole ("\\" ++ toString number) := by
  -- The backslash takes the first digit with it.
  have digits := inert_toString number
  apply family.whole_of_isPlain
  rw [String.toList_append]
  cases written : (toString number).toList with
  | nil => exact absurd written (by simp [Nat.toDigits_ne_nil])
  | cons first others =>
      rw [written] at digits
      have rest : isPlain others := isPlain_of_inert (List.forall_mem_cons.1 digits).2
      exact rest

/-- A number between angle brackets. -/
theorem whole_named {front : String} (plain : family.whole front) (number : Nat) :
    family.whole (front ++ toString number ++ ">") := by
  have digits := family.whole_of_inert (inert_toString number)
  have back : family.whole ">" := family.whole_of_isPlain rfl
  exact family.whole_append (family.whole_append plain digits) back

/-- The name of a group is a letter and its number. -/
theorem append_captureName (front : String) (number : Nat) :
    front ++ captureName number = front ++ "g" ++ toString number := by
  rw [captureName, String.append_assoc]

/-- The literal leaves a named group behind. -/
def Literal.namesGroup : Literal → Bool
  | .matchStart first | .matchEnd first => first
  | _ => false

/-- An atom can stand anywhere, unless it is a group with a name; whether that can,
the family has to say. -/
theorem Literal.whole_text (accepts : family.Accepts style.options) {literal : Literal}
    (readable : (Lexeme.literal literal).Readable)
    (named : literal.namesGroup → family.whole (literal.text style)) :
    family.whole (literal.text style) := by
  cases literal with
  | plain char => exact Escape.whole_plain family readable
  | escaped char => exact Escape.whole_backslashed family char
  | lineBreak => exact accepts.whole_lineBreakText
  | anyOrBreak => exact accepts.whole_anyOrBreakText
  | lineStart => exact accepts.whole_lineStartText
  | lineEnd => exact accepts.whole_lineEndText
  | wordStart =>
      have behind : family.whole ("(?<!" ++ "\\w" ++ ")") :=
        family.whole_enclosed (by simp [marks])
          (family.inner_of_whole (family.whole_of_isPlain rfl))
      have ahead : family.whole ("(?=" ++ "\\w" ++ ")") :=
        family.whole_enclosed (by simp [marks])
          (family.inner_of_whole (family.whole_of_isPlain rfl))
      exact family.whole_append behind ahead
  | wordEnd =>
      have behind : family.whole ("(?<=" ++ "\\w" ++ ")") :=
        family.whole_enclosed (by simp [marks])
          (family.inner_of_whole (family.whole_of_isPlain rfl))
      have ahead : family.whole ("(?!" ++ "\\w" ++ ")") :=
        family.whole_enclosed (by simp [marks])
          (family.inner_of_whole (family.whole_of_isPlain rfl))
      exact family.whole_append behind ahead
  | matchStart first | matchEnd first =>
      cases first with
      | true => exact named rfl
      | false => exact Family.whole_cluster (family.inner_of_whole family.whole_empty)
  | charClass letterClass withBreak => exact letterClass.whole_text accepts withBreak
  | codePoint char => exact CodePoint.whole_text family char
  | backReference number =>
      rw [Literal.text]
      split
      · have front : family.whole "\\k<g" := family.whole_of_isPlain rfl
        rw [append_captureName]
        exact whole_named front number
      · exact whole_numbered family number
  | externalReference number =>
      have front : family.whole "\\z" := family.whole_of_isPlain rfl
      exact family.whole_append front (family.whole_of_inert (inert_toString number))
  | _ =>
      rw [Literal.text]
      exact family.whole_of_isPlain rfl

/-- A member stays inside the brackets. -/
theorem Member.member_text (accepts : family.Accepts style.options) {member : Member}
    (readable : (Lexeme.member member).Readable) :
    family.member (member.text style) := by
  cases member with
  | plain char => exact Escape.member_member family readable.1 readable.2
  | escaped char => exact Escape.member_backslashedMember family char
  | codePoint char => exact CodePoint.member_text family char
  | named namedClass => exact namedClass.member_body accepts style.foldCase
  | equivalent char => exact Escape.member_quoted family char
  | _ =>
      rw [Member.text]
      exact family.member_of_isBody rfl

/-- A group opens one parenthesis. -/
theorem GroupSort.opens_text (style : Style) (sort : GroupSort) :
    Opens (sort.text style) := by
  have named {front : String} (opens : Opens front) (number : Nat) :
      Opens (front ++ toString number ++ ">") := by
    have digits : Closes 0 (toString number) := balance.whole_of_inert (inert_toString number)
    have back : Closes 0 ">" := closes_of_read rfl
    exact (opens.append digits).append back
  cases sort with
  | capturing number =>
      rw [GroupSort.text]
      split
      · have front : Opens "(?<g" := fun _ _ => rfl
        rw [append_captureName]
        exact named front number
      · exact opens_parenthesis
  | nonCapturing =>
      rw [GroupSort.text]
      exact fun _ _ => rfl
  | external number =>
      have front : Opens "(?<z" := fun _ _ => rfl
      exact named front number

/-- An assertion looks at what stands in it. -/
theorem Assertion.text_mem_marks (assertion : Assertion) : assertion.text ∈ marks := by
  cases assertion <;> simp [Assertion.text, marks]

/-- Braces hold digits and a comma. -/
theorem Braces.whole_text (family : Family) {braces : Braces}
    (low : ∀ digit ∈ braces.low, digit.isDigit)
    (high : ∀ digit ∈ braces.high, digit.isDigit) : family.whole braces.text := by
  have comma : family.whole "," := family.whole_of_isPlain rfl
  have digits {written : List Char} (decimal : ∀ digit ∈ written, digit.isDigit) :
      family.whole (String.ofList written) := by
    apply family.whole_of_inert
    rw [String.toList_ofList]
    exact fun digit among => inert_of_isDigit (decimal digit among)
  have bounds {lower upper : String} (first : family.whole lower)
      (second : family.whole upper) : family.whole (lower ++ "," ++ upper) :=
    family.whole_append (family.whole_append first comma) second
  have enclosed {body : String} (whole : family.whole body) :
      family.whole (enclosed body) := by
    have opening : family.whole "\x7b" := family.whole_of_isPlain rfl
    have closing : family.whole "\x7d" := family.whole_of_isPlain rfl
    exact family.whole_append (family.whole_append opening whole) closing
  have number (value : Nat) : family.whole (toString value) :=
    family.whole_of_inert (inert_toString value)
  have interval : family.whole braces.intervalText := by
    have lower : ∀ digit ∈ (if braces.low.isEmpty then ['0'] else braces.low),
        digit.isDigit := by
      split
      · intro digit among
        rw [List.mem_singleton.1 among]
        rfl
      · exact low
    unfold intervalText
    split
    · dsimp only
      split
      · split
        · exact enclosed (bounds (number _) (number _))
        · exact enclosed (bounds (digits lower) (digits high))
      · exact enclosed (bounds (digits lower) (digits high))
    · split
      · exact family.whole_of_isPlain rfl
      · exact enclosed (digits low)
  unfold text
  apply family.whole_append interval
  split <;> exact family.whole_of_isPlain rfl

/-- A repetition operator can stand anywhere. -/
theorem Quantifier.whole_text (family : Family) {quantifier : Quantifier}
    (readable : (Lexeme.quantifier quantifier).Readable) :
    family.whole quantifier.text := by
  cases quantifier with
  | counted braces => exact Braces.whole_text family readable.1 readable.2
  | _ =>
      rw [Quantifier.text]
      exact family.whole_of_isPlain rfl

namespace Collection

/-- What stands between the bracket and the first member. -/
def Opening.prelude (opening : Opening) : String :=
  (if opening.negated then "^" else "") ++
    (if opening.leadingBracket then "\\]" else "") ++
    (if opening.negated then "\\r\\n" else "")

theorem Opening.member_prelude (family : Family) (opening : Opening) :
    family.member opening.prelude := by
  have written (asked : Bool) {text : String} (member : family.member text) :
      family.member (if asked then text else "") := by
    split
    · exact member
    · exact family.member_empty
  have sign : family.member "^" := family.member_of_isBody rfl
  have escaped : family.member "\\]" := family.member_of_isBody rfl
  have breaks : family.member "\\r\\n" := family.member_of_isBody rfl
  have front :=
    family.member_append (written opening.negated sign)
      (written opening.leadingBracket escaped)
  exact family.member_append front (written opening.negated breaks)

/-- The characters between the bracket and the first member. -/
theorem Opening.toList_prelude (opening : Opening) :
    opening.prelude.toList =
      (if opening.negated then ['^'] else []) ++
        (if opening.leadingBracket then ['\\', ']'] else []) ++
          (if opening.negated then ['\\', 'r', '\\', 'n'] else []) := by
  rcases opening with ⟨_, _ | _, _ | _⟩ <;> simp [prelude]

/-- The text of a collection is a bracket expression, in a group with the line break if it
accepts one. -/
theorem text_eq (opening : Opening) (newLine members : String) :
    opening.text newLine ++ members ++ closingText opening.withBreak =
      (if opening.withBreak then "(?:" ++ newLine ++ "|" else "") ++
        ("[" ++ (opening.prelude ++ members) ++ "]") ++
          (if opening.withBreak then ")" else "") := by
  rcases opening with ⟨_ | _, _ | _, _ | _⟩ <;>
    simp [← String.toList_inj, Opening.text, Opening.prelude, closingText]

/-- A collection can stand anywhere, whether it also accepts a line break or not. -/
theorem whole_text (accepts : family.Accepts options) (opening : Opening)
    {members : String} (among : family.member members) :
    family.whole
      (opening.text options.newLine ++ members ++ closingText opening.withBreak) := by
  have brackets :=
    family.whole_bracketed (family.member_append (opening.member_prelude family) among)
  rw [text_eq]
  by_cases withBreak : opening.withBreak
  · have grouped :=
      Family.whole_cluster
        (Family.inner_alternatives (family.inner_of_whole accepts.newLine)
          (family.inner_of_whole brackets))
    simp only [withBreak, if_true]
    simpa only [String.append_assoc] using grouped
  · simp only [withBreak, if_false, Bool.false_eq_true]
    simpa only [String.empty_append, String.append_empty] using brackets

end Collection

/-! ### Tokens -/

/-- Members stay inside the brackets. -/
theorem Token.member_textOf (accepts : family.Accepts style.options)
    {members : List Token}
    (lexed : ∀ token ∈ members, ∃ member,
      token.lexeme = .member member ∧ (Lexeme.member member).Readable) :
    family.member (textOf style members) := by
  induction members with
  | nil =>
      rw [textOf_nil]
      exact family.member_empty
  | cons token others inductionHypothesis =>
      obtain ⟨⟨member, same, readable⟩, rest⟩ := List.forall_mem_cons.1 lexed
      have first : family.member (token.text style) := by
        rw [text, same]
        exact Member.member_text accepts readable
      rw [textOf_cons]
      exact family.member_append first (inductionHypothesis rest)

/-- A caret or a dollar can stand anywhere, whatever its place makes of it. -/
theorem Tree.whole_anchorText (accepts : family.Accepts style.options) {token : Token}
    (anchors : token.lexeme = .caret ∨ token.lexeme = .dollar) (place : Place) :
    family.whole (anchorText style token place) := by
  have anchoring : family.whole (token.text style) := by
    rcases anchors with same | same
    · rw [Token.text, same]
      exact accepts.whole_caretText
    · rw [Token.text, same]
      exact accepts.whole_dollarText
  cases place with
  | edge => exact anchoring
  | besideBreak => exact family.whole_empty
  | inside =>
      rw [anchorText]
      split
      · exact anchoring
      · split
        · exact family.whole_of_isPlain rfl
        · exact family.whole_of_isPlain rfl

end VimPattern
