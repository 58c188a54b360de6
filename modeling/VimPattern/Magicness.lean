/-
Module: VimPattern.Magicness
Purpose: The four levels that decide how the operators of a pattern are spelled.
Main exports:
  Magicness, Magicness.name, Magicness.ofName?, Magicness.isNoMagic,
  Magicness.ofSwitch?, Magicness.switchChar
-/

namespace VimPattern

/-!
A Vim pattern is read at one of four levels.  The level says which punctuation
characters are operators as they stand and which of them become operators only
after a backslash.  A pattern starts at the level its options give and may move
to another one at any point with `\v`, `\m`, `\M` or `\V`.
-/

/-- How many characters of a pattern are operators without a backslash. -/
inductive Magicness where
  /-- Level `\v`: every operator is written bare. -/
  | veryMagic
  /-- Level `\m`: where a pattern starts unless the options say otherwise. -/
  | magic
  /-- Level `\M`: only the anchors `^` and `$` are written bare. -/
  | nonMagic
  /-- Level `\V`: every operator needs its backslash. -/
  | veryNonMagic
deriving Repr, DecidableEq

namespace Magicness

instance : Inhabited Magicness := ⟨.magic⟩

/-- The four levels, from the most to the least magic one. -/
def all : List Magicness := [.veryMagic, .magic, .nonMagic, .veryNonMagic]

/-- The name by which settings refer to a level. -/
def name : Magicness → String
  | .veryMagic => "VeryMagic"
  | .magic => "Magic"
  | .nonMagic => "NonMagic"
  | .veryNonMagic => "VeryNonMagic"

/-- The level that a name stands for. -/
def ofName? (text : String) : Option Magicness :=
  all.find? fun level => level.name == text

/-- The two levels at which `.`, `*`, `~` and `[` need a backslash to be
operators. -/
def isNoMagic : Magicness → Bool
  | .veryMagic | .magic => false
  | .nonMagic | .veryNonMagic => true

/-- The letter that selects a level when it follows a backslash. -/
def switchChar : Magicness → Char
  | .veryMagic => 'v'
  | .magic => 'm'
  | .nonMagic => 'M'
  | .veryNonMagic => 'V'

/-- The level that a backslash and this letter select. -/
def ofSwitch? : Char → Option Magicness
  | 'v' => some .veryMagic
  | 'm' => some .magic
  | 'M' => some .nonMagic
  | 'V' => some .veryNonMagic
  | _ => none

@[simp] theorem ofSwitch?_switchChar (level : Magicness) :
    ofSwitch? level.switchChar = some level := by
  cases level <;> rfl

@[simp] theorem ofName?_name (level : Magicness) :
    ofName? level.name = some level := by
  cases level <;> decide

end Magicness

end VimPattern
