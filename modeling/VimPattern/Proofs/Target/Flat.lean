/-
Module: VimPattern.Proofs.Target.Flat
Purpose: Bodies of bracket expressions that neither nest nor combine sets.
Main exports:
  Target.setOperators, Target.isUndoubled, Target.Flat, Target.trailing?, Target.Flat.append,
  Options.Joinable, Member.Seamed, Member.seamed_text
-/
import VimPattern.Proofs.Target.Texts

namespace VimPattern

/-!
Between brackets of the target a dash, an ampersand or a tilde that is doubled combines sets,
unless the first of the two is escaped.  The texts of two members may be free of doubled
operators and have one across the seam between them, so that how a text ends matters as well:
with an escape, or with a bare character, which the next text must not start with if it is one
of these.
-/

namespace Target

/-- The characters that combine sets where two of them stand in a row. -/
def setOperators : List Char := ['-', '&', '~']

/-- No bare operator has another one behind it. -/
def isUndoubled : List Char → Bool
  | [] => true
  | '\\' :: _ :: text => isUndoubled text
  | char :: text =>
      !(setOperators.contains char && text.head? == some char) && isUndoubled text

/-- The body of a bracket expression without brackets and operators in it. -/
structure Flat (text : List Char) : Prop where
  isBody : isBody text
  isUndoubled : isUndoubled text

/-- The bare character that a text ends with, if it does not end with an escape. -/
def trailing? : List Char → Option Char
  | [] => none
  | '\\' :: _ :: text => trailing? text
  | [char] => some char
  | _ :: text => trailing? text

theorem isBody_append {front back : List Char} (early : isBody front) (late : isBody back) :
    isBody (front ++ back) := by
  induction front using escape_induction with
  | nil => exact late
  | lone => cases early
  | escape char text inductionHypothesis => exact inductionHypothesis early
  | bare char text bare inductionHypothesis =>
      rw [isBody_bare bare, Bool.and_eq_true] at early
      rw [List.cons_append, isBody_bare bare, Bool.and_eq_true]
      exact ⟨early.1, inductionHypothesis early.2⟩

theorem isUndoubled_bare {char : Char} (bare : char ≠ '\\') (text : List Char) :
    isUndoubled (char :: text) =
      (!(setOperators.contains char && text.head? == some char) && isUndoubled text) := by
  rw [isUndoubled]
  exact fun _ _ same => absurd same bare

theorem trailing?_bare {char : Char} (bare : char ≠ '\\') {text : List Char}
    (nonempty : text ≠ []) : trailing? (char :: text) = trailing? text := by
  rw [trailing?]
  · exact fun _ _ same => absurd same bare
  · exact nonempty

theorem trailing?_singleton (char : Char) : trailing? [char] = some char := by
  rw [trailing?]

/-- Behind complete escapes a text ends with what its last part ends with. -/
theorem trailing?_append {front back : List Char} (complete : isBody front)
    (nonempty : back ≠ []) : trailing? (front ++ back) = trailing? back := by
  induction front using escape_induction with
  | nil => rfl
  | lone => cases complete
  | escape char text inductionHypothesis => exact inductionHypothesis complete
  | bare char text bare inductionHypothesis =>
      rw [isBody_bare bare, Bool.and_eq_true] at complete
      rw [List.cons_append, trailing?_bare bare (by simp [nonempty]),
        inductionHypothesis complete.2]

namespace Flat

theorem nil : Flat [] := ⟨rfl, rfl⟩

/-- Two texts without operators have none across the seam unless one ends with the bare
character that the other one starts with. -/
theorem append {front back : List Char} (first : Flat front) (second : Flat back)
    (seam : ∀ char ∈ setOperators, trailing? front = some char → back.head? ≠ some char) :
    Flat (front ++ back) := by
  obtain ⟨body, undoubled⟩ := first
  refine ⟨isBody_append body second.isBody, ?_⟩
  induction front using escape_induction with
  | nil => exact second.isUndoubled
  | lone => cases body
  | escape char text inductionHypothesis => exact inductionHypothesis seam body undoubled
  | bare char text bare inductionHypothesis =>
      rw [isBody_bare bare, Bool.and_eq_true] at body
      rw [isUndoubled_bare bare, Bool.and_eq_true] at undoubled
      rw [List.cons_append, isUndoubled_bare bare, Bool.and_eq_true]
      cases text with
      | nil =>
          refine ⟨?_, second.isUndoubled⟩
          rw [Bool.not_eq_true', Bool.and_eq_false_iff, beq_eq_false_iff_ne]
          cases operator : setOperators.contains char with
          | false => exact .inl rfl
          | true => exact .inr (seam char (by simpa using operator) (trailing?_singleton char))
      | cons next text =>
          rw [trailing?_bare bare (by simp)] at seam
          exact ⟨undoubled.1, inductionHypothesis seam body.2 undoubled.2⟩

/-- Characters that are neither brackets nor operators nor backslashes are flat. -/
theorem of_free {text : List Char}
    (free : ∀ char ∈ text, char ∉ ['\\', '[', ']', '-', '&', '~']) : Flat text := by
  induction text with
  | nil => exact nil
  | cons char text inductionHypothesis =>
      obtain ⟨first, others⟩ := List.forall_mem_cons.1 free
      have flat := inductionHypothesis others
      simp only [List.mem_cons, List.not_mem_nil, or_false, not_or] at first
      constructor
      · simp [isBody_bare first.1, first, flat.isBody]
      · simp [isUndoubled_bare first.1, first, setOperators, flat.isUndoubled]

/-- An escape is flat. -/
theorem escape (char : Char) : Flat ['\\', char] := ⟨rfl, rfl⟩

end Flat

end Target

open Target

/-! ### Options -/

/-- The text of an option can stand behind any member of a collection, whatever the member
ends with, and also comes first in one that is not negated. -/
structure Target.Joinable (text : List Char) : Prop extends Flat text where
  head? : ∀ char ∈ ['-', '&', '~', '^'], text.head? ≠ some char

/-- A flat text that starts with any other character is joinable. -/
theorem Target.Flat.joinable {text : List Char} (flat : Flat text) {first : Char}
    (head : text.head? = some first) (apart : first ∉ ['-', '&', '~', '^']) :
    Target.Joinable text where
  toFlat := flat
  head? char among same := by
    rw [head] at same
    exact apart (Option.some.inj same ▸ among)

/-- The classes of characters that can stand in a collection are joinable. -/
structure Options.Joinable (options : Options) : Prop where
  identChars : Target.Joinable options.identChars.toList
  keywordChars : Target.Joinable options.keywordChars.toList
  fileNameChars : Target.Joinable options.fileNameChars.toList

/-- The usual classes of characters are joinable. -/
theorem Options.joinable_default : ({} : Options).Joinable where
  identChars := Flat.joinable ⟨rfl, rfl⟩ rfl (by decide)
  keywordChars := Flat.joinable ⟨rfl, rfl⟩ rfl (by decide)
  fileNameChars := Flat.joinable ⟨rfl, rfl⟩ rfl (by decide)

/-! ### Members -/

/-- The text of a member behind other members: it is flat, it never starts with an ampersand or
a tilde, it starts with a dash or a caret only if a character is one that stands for itself,
and it ends with a dash only if it is one. -/
structure Member.Seamed (member : Member) (text : List Char) : Prop where
  flat : Flat text
  nonempty : text ≠ []
  free : ∀ sign ∈ ['&', '~'], text.head? ≠ some sign
  dash : text.head? = some '-' → member = .plain '-' ∨ member = .dashPair
  caret : text.head? = some '^' → member = .plain '^'
  trailing : trailing? text = some '-' → member = .plain '-'

namespace Member

variable {options : Options} {style : Style}

/-- A joinable text can stand behind other members whatever the member is. -/
theorem seamed_of_joinable (member : Member) {text : List Char}
    (joinable : Target.Joinable text) (nonempty : text ≠ [])
    (trailing : trailing? text ≠ some '-') : member.Seamed text where
  flat := joinable.toFlat
  nonempty := nonempty
  free sign among := joinable.head? sign (.tail _ (List.mem_append_left ['^'] among))
  dash starts := absurd starts (joinable.head? '-' (by decide))
  caret starts := absurd starts (joinable.head? '^' (by decide))
  trailing ends := absurd ends trailing

/-- A text that starts and ends with other characters. -/
theorem seamed_of_apart {member : Member} {text : List Char} (flat : Flat text) {first : Char}
    (head : text.head? = some first) (apart : first ∉ ['-', '&', '~', '^'])
    (trailing : trailing? text ≠ some '-') : member.Seamed text := by
  have nonempty : text ≠ [] := by
    rintro rfl
    cases head
  exact member.seamed_of_joinable (flat.joinable head apart) nonempty trailing

theorem seamed_escape (member : Member) (char : Char) : member.Seamed ['\\', char] :=
  seamed_of_apart (.escape char) rfl (by decide) nofun

/-- A character that needs no backslash stands for itself. -/
theorem seamed_singleton {char : Char} (free : char ∉ ['\\', '[', ']', '&', '~']) :
    (Member.plain char).Seamed [char] where
  flat := by
    simp only [List.mem_cons, List.not_mem_nil, or_false, not_or] at free
    constructor
    · simp [isBody_bare free.1, free, isBody]
    · simp [isUndoubled_bare free.1, isUndoubled]
  nonempty := List.cons_ne_nil _ _
  free sign among same := by
    obtain rfl := Option.some.inj same
    simp only [List.mem_cons, List.not_mem_nil, or_false, not_or] at free among
    rcases among with rfl | rfl
    · exact free.2.2.2.1 rfl
    · exact free.2.2.2.2 rfl
  dash same := .inl (congrArg plain (Option.some.inj same))
  caret same := congrArg plain (Option.some.inj same)
  trailing ends := by
    rw [trailing?_singleton] at ends
    rw [Option.some.inj ends]

/-- The text of an option has digits behind it. -/
theorem seamed_digits (member : Member) {text : List Char} (joinable : Target.Joinable text) :
    member.Seamed (text ++ "0-9".toList) := by
  have digits : Flat "0-9".toList := ⟨rfl, rfl⟩
  have flat : Flat (text ++ "0-9".toList) := by
    refine joinable.toFlat.append digits ?_
    rintro char operator _ ⟨⟩
    exact absurd operator (by decide)
  have ends : trailing? (text ++ "0-9".toList) ≠ some '-' := by
    rw [trailing?_append joinable.isBody (by decide)]
    decide
  cases text with
  | nil => exact seamed_of_apart flat rfl (by decide) ends
  | cons first others =>
      exact member.seamed_of_joinable ⟨flat, joinable.head?⟩ (List.cons_ne_nil _ _) ends

theorem seamed_named (joinable : options.Joinable) (foldCase : Bool) (namedClass : NamedClass) :
    (Member.named namedClass).Seamed (namedClass.body options foldCase).toList := by
  cases namedClass with
  | ident =>
      rw [NamedClass.body, String.toList_append]
      exact seamed_digits _ joinable.identChars
  | keyword =>
      rw [NamedClass.body, String.toList_append]
      exact seamed_digits _ joinable.keywordChars
  | fname =>
      rw [NamedClass.body, String.toList_append]
      exact seamed_digits _ joinable.fileNameChars
  | lower | upper =>
      rw [NamedClass.body]
      split <;> exact seamed_of_apart ⟨rfl, rfl⟩ rfl (by decide) (by decide)
  | _ =>
      rw [NamedClass.body]
      exact seamed_of_apart ⟨rfl, rfl⟩ rfl (by decide) (by decide)

theorem seamed_codePoint (member : Member) (char : Char) :
    member.Seamed (CodePoint.text char).toList := by
  have free : ∀ digit ∈ '\x7b' :: (Digits.upperHex char.toNat).toList,
      digit ∉ ['\\', '[', ']', '-', '&', '~'] := by
    refine List.forall_mem_cons.2 ⟨by decide, fun digit among => ?_⟩
    obtain ⟨number, small, rfl⟩ := exists_digit_of_mem_upperHex among
    have all : ∀ number < 16,
        number.digitChar.toUpper ∉ ['\\', '[', ']', '-', '&', '~'] := by decide
    exact all number small
  have digits := Flat.of_free free
  have closing : Flat ['\x7d'] := ⟨rfl, rfl⟩
  have braces : Flat (('\x7b' :: (Digits.upperHex char.toNat).toList) ++ ['\x7d']) := by
    refine digits.append closing ?_
    rintro other operator _ ⟨⟩
    exact absurd operator (by decide)
  have parts : (CodePoint.text char).toList =
      '\\' :: 'x' :: (('\x7b' :: (Digits.upperHex char.toNat).toList) ++ ['\x7d']) := by
    simp [CodePoint.text]
  rw [parts]
  refine seamed_of_apart ⟨braces.isBody, braces.isUndoubled⟩ rfl (by decide) ?_
  change trailing? (_ ++ _) ≠ _
  rw [trailing?_append digits.isBody (by decide)]
  decide

theorem seamed_quoted (member : Member) (char : Char) :
    member.Seamed (Escape.quoted char).toList := by
  unfold Escape.quoted
  split
  · rw [Escape.afterBackslash, String.toList_ofList]
    exact seamed_escape member char
  · next free =>
      have apart : char ∉ ['\\', '[', ']', '-', '&', '~', '^'] := by
        intro among
        apply free
        simp only [List.mem_cons, List.not_mem_nil, or_false] at among
        rcases among with rfl | rfl | rfl | rfl | rfl | rfl | rfl <;> decide
      rw [String.toList_singleton]
      simp only [List.mem_cons, List.not_mem_nil, or_false, not_or] at apart
      refine seamed_of_apart (Flat.of_free ?_) rfl ?_ ?_
      · simp [apart]
      · simp [apart]
      · simp [trailing?_singleton, apart]

/-- The text of a member is seamed. -/
theorem seamed_text (joinable : style.options.Joinable) {member : Member}
    (readable : (Lexeme.member member).Readable) : member.Seamed (member.text style).toList := by
  cases member with
  | plain char =>
      obtain ⟨notEscape, notClosing⟩ := readable
      rw [text, Escape.member]
      split
      · rw [Escape.afterBackslash, String.toList_ofList]
        exact seamed_escape _ char
      · next free =>
          rw [String.toList_singleton]
          refine seamed_singleton ?_
          simp only [List.mem_cons, List.not_mem_nil, or_false, not_or] at free ⊢
          exact ⟨notEscape, free.1, notClosing, free.2⟩
  | escaped char =>
      rw [text]
      unfold Escape.backslashedMember
      split
      · exact seamed_of_apart ⟨rfl, rfl⟩ rfl (by decide) (by decide)
      · exact seamed_of_apart ⟨rfl, rfl⟩ rfl (by decide) (by decide)
      · rw [Escape.afterBackslash, String.toList_ofList]
        exact seamed_escape _ _
  | backslash =>
      have spelled : (text style .backslash).toList = ['\\', '\\'] := by
        rw [text]
        rfl
      rw [spelled]
      exact seamed_escape _ _
  | dashPair =>
      have spelled : (text style .dashPair).toList = ['-', '\\', '-'] := by
        rw [text]
        rfl
      rw [spelled]
      exact
        { flat := ⟨rfl, rfl⟩
          nonempty := List.cons_ne_nil _ _
          free := by
            rintro sign among ⟨⟩
            exact absurd among (by decide)
          dash := fun _ => .inr rfl
          caret := by rintro ⟨⟩
          trailing := by rintro ⟨⟩ }
  | codePoint char => exact seamed_codePoint _ char
  | named namedClass => exact seamed_named joinable style.foldCase namedClass
  | equivalent char => exact seamed_quoted _ char

end Member

end VimPattern
