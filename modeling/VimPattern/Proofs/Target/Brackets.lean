/-
Module: VimPattern.Proofs.Target.Brackets
Purpose: Which characters stand between brackets, in a pattern and in the target.
Main exports:
  Listed, Listed.covers, Listed.covered, CharSet, CharSet.contains, Element, Element.listed?,
  Target.elements?, Target.bracket?
-/
import VimPattern.Proofs.Target.Verbatim

namespace VimPattern

/-!
Both dialects list characters between brackets one by one and in ranges, whose ends have a
dash between them.  A dash makes a range only if it stands between two members, and what is
a member depends on what has been read before: a dash that comes first, or right behind a
range, is one itself.  The target has escapes as well.  An escaped dash is always a member,
and a few characters may not stand there bare, nor may two dashes in a row.
-/

/-! ### Sets of characters -/

/-- What is listed at one place between brackets. -/
inductive Listed where
  | single (char : Char)
  /-- All characters between the two, ends included. -/
  | range (low high : Char)
deriving Repr, DecidableEq

/-- The character is the one that is listed, or in the range that is. -/
def Listed.covers : Listed → Char → Bool
  | .single listed, char => char == listed
  | .range low high, char => low ≤ char && char ≤ high

/-- The character is listed in one of several places. -/
def Listed.covered (items : List Listed) (char : Char) : Bool :=
  items.any fun item => item.covers char

/-- The characters between two brackets, or all others. -/
structure CharSet where
  negated : Bool
  listed : List Listed
deriving Repr, DecidableEq

/-- The character belongs to the set. -/
def CharSet.contains (set : CharSet) (char : Char) : Bool :=
  set.negated != Listed.covered set.listed char

/-! ### Elements -/

/-- What is read as one between brackets. -/
inductive Element where
  /-- A bare dash, which makes a range between two members. -/
  | dash
  /-- A character that can only be a member. -/
  | other (char : Char)
deriving Repr, DecidableEq

namespace Element

/-- The character that an element is as a member. -/
def char : Element → Char
  | .dash => '-'
  | .other char => char

/-- A character as an element, where there are no escapes. -/
def ofChar (char : Char) : Element :=
  if char = '-' then .dash else .other char

@[simp] theorem char_ofChar (char : Char) : (ofChar char).char = char := by
  unfold ofChar
  split
  · next same => exact same.symm
  · rfl

theorem ofChar_of_ne {char : Char} (differs : char ≠ '-') : ofChar char = .other char :=
  if_neg differs

/-- What a row of elements lists, if the ends of its ranges are in order. -/
def listed? : List Element → Option (List Listed)
  | [] => some []
  | first :: .dash :: last :: others =>
      if first.char ≤ last.char then
        (listed? others).map (.range first.char last.char :: ·)
      else none
  | first :: others => (listed? others).map (.single first.char :: ·)

/-- With no dash behind it an element is listed by itself. -/
theorem listed?_cons (first : Element) {others : List Element}
    (single : others.head? ≠ some .dash) :
    listed? (first :: others) = (listed? others).map (.single first.char :: ·) := by
  rw [listed?]
  rintro last rest rfl
  exact single rfl

/-- With a dash and another element behind it an element begins a range. -/
theorem listed?_range {first last : Element} (ordered : first.char ≤ last.char)
    (others : List Element) :
    listed? (first :: .dash :: last :: others) =
      (listed? others).map (.range first.char last.char :: ·) := by
  rw [listed?, if_pos ordered]

/-- A range whose ends are in the wrong order makes the whole row unreadable. -/
theorem listed?_reversed {first last : Element} (reversed : ¬first.char ≤ last.char)
    (others : List Element) : listed? (first :: .dash :: last :: others) = none := by
  rw [listed?, if_neg reversed]

end Element

/-! ### Bracket expressions -/

namespace Target

/-- The character that a backslash and this character are between brackets. -/
def escaped? : Char → Option Char
  | 'r' => some '\r'
  | 'n' => some '\n'
  | char => if isPunctuation char then some char else none

/-- The elements of a bracket expression up to its end, and the text behind it.  A bare
bracket, ampersand or tilde and two dashes in a row say something about sets, and that is not
read here. -/
def elements? : List Char → Option (List Element × List Char)
  | [] => none
  | ']' :: rest => some ([], rest)
  | '\\' :: char :: text =>
      match escaped? char with
      | some char => (elements? text).map fun read => (.other char :: read.1, read.2)
      | none => none
  | '-' :: text =>
      if text.head? = some '-' then none
      else (elements? text).map fun read => (.dash :: read.1, read.2)
  | char :: text =>
      if char ∈ ['\\', '[', '&', '~'] then none
      else (elements? text).map fun read => (.other char :: read.1, read.2)

/-- The set that the elements of a bracket expression list, which must be some. -/
def charSet? (negated : Bool) (elements : List Element) : Option CharSet :=
  match Element.listed? elements with
  | some (item :: items) => some { negated := negated, listed := item :: items }
  | _ => none

/-- The set of characters that a bracket expression matches, and the text behind it. -/
def bracket? (text : List Char) : Option (CharSet × List Char) :=
  match text with
  | '[' :: '^' :: inner =>
      (elements? inner).bind fun read => (charSet? true read.1).map (·, read.2)
  | '[' :: inner =>
      (elements? inner).bind fun read => (charSet? false read.1).map (·, read.2)
  | _ => none

theorem charSet?_eq_some_iff {negated : Bool} {elements : List Element} {set : CharSet} :
    charSet? negated elements = some set ↔
      ∃ listed, Element.listed? elements = some listed ∧ listed ≠ [] ∧
        set = { negated := negated, listed := listed } := by
  unfold charSet?
  cases read : Element.listed? elements with
  | none => simp
  | some listed => cases listed <;> simp [eq_comm]

/-! ### Reading -/

/-- Wherever it stands in a bracket expression, the text is read as these elements. -/
def Spells (written : List Char) (elements : List Element) : Prop :=
  ∀ rest, elements? (written ++ rest) =
    (elements? rest).map fun read => (elements ++ read.1, read.2)

theorem spells_nil : Spells [] [] := by
  intro rest
  simp

theorem Spells.append {front back : List Char} {early late : List Element}
    (first : Spells front early) (second : Spells back late) :
    Spells (front ++ back) (early ++ late) := by
  intro rest
  rw [List.append_assoc, first, second, Option.map_map]
  simp [Function.comp_def]

theorem spells_escaped {char member : Char} (escape : escaped? char = some member) :
    Spells ['\\', char] [.other member] := by
  intro rest
  change elements? ('\\' :: char :: rest) = _
  rw [elements?, escape]
  rfl

/-- A character that means nothing to bracket expressions is a member. -/
theorem spells_bare {char : Char} (free : char ∉ [']', '\\', '-', '[', '&', '~']) :
    Spells [char] [.other char] := by
  simp only [List.mem_cons, List.not_mem_nil, or_false, not_or] at free
  obtain ⟨notClosing, notEscape, notDash, notOpening, notAmpersand, notTilde⟩ := free
  intro rest
  change elements? (char :: rest) = _
  rw [elements?]
  · simp [notEscape, notOpening, notAmpersand, notTilde]
  · exact notClosing
  · rintro _ _ same
    exact absurd same notEscape
  · exact notDash

/-- A bare dash is one unless there is another behind it. -/
theorem elements?_dash {text : List Char} (single : text.head? ≠ some '-') :
    elements? ('-' :: text) =
      (elements? text).map fun read => (.dash :: read.1, read.2) := by
  rw [elements?, if_neg single]

/-- The whole bracket expression, from what stands between the brackets. -/
theorem bracket?_eq {inner rest : List Char} {elements : List Element}
    (read : elements? inner = some (elements, rest)) (negated : Bool)
    (caret : negated = true ∨ inner.head? ≠ some '^') :
    bracket? ('[' :: ((if negated then ['^'] else []) ++ inner)) =
      (charSet? negated elements).map (·, rest) := by
  cases negated with
  | true =>
      change bracket? ('[' :: '^' :: inner) = _
      rw [bracket?, read]
      rfl
  | false =>
      have notCaret : inner.head? ≠ some '^' := by simpa using caret
      change bracket? ('[' :: inner) = _
      rw [bracket?, read]
      · rfl
      · rintro others rfl
        exact notCaret rfl

end Target

end VimPattern
