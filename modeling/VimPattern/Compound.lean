/-
Module: VimPattern.Compound
Purpose: Target texts that are assembled from several parts.
Main exports:
  Compound, Compound.push, Compound.parts, Compound.length, Compound.isEmpty,
  Compound.render, conjunctionText, chainText
-/

namespace VimPattern

/-!
Two constructs have no counterpart in the target dialect and are assembled from
their parts once all of them are known.  A conjunction `a\&b\&c` asks every
operand to match at one place and consumes the last; an optional chain
`\%[abc]` matches any leading stretch of its atoms.
-/

/-- A list of operands that must all match: every operand but the last is only
looked at.  `[a, b, c]` gives `(?=a)(?=b)c`. -/
def conjunctionText : List String → String
  | [] => ""
  | [last] => last
  | operand :: others => "(?=" ++ operand ++ ")" ++ conjunctionText others

/-- The leading stretches of a list, the longest first and the empty one last. -/
def leadingStretches {α : Type} : List α → List (List α)
  | [] => [[]]
  | part :: others => (leadingStretches others).map (part :: ·) ++ [[]]

/-- Each part may be missing, but only together with all parts after it.
`[a, b, c]` gives `(?:abc|ab|a|)`. -/
def chainText (parts : List String) : String :=
  "(?:" ++ "|".intercalate ((leadingStretches parts).map String.join) ++ ")"

/-- A piece of target text under construction. -/
inductive Compound where
  /-- Text that is complete as it is. -/
  | single (value : String)
  /-- Operands that must all match at one place. -/
  | conjunction (parts : List String)
  /-- Atoms of an optional sequence. -/
  | optionalChain (parts : List String)
deriving Repr, DecidableEq

namespace Compound

instance : Inhabited Compound := ⟨.single ""⟩

/-- The parts collected so far; complete text is one part. -/
def parts : Compound → List String
  | .single value => [value]
  | .conjunction parts => parts
  | .optionalChain parts => parts

/-- Add a part.  Complete text becomes the first operand of a conjunction. -/
def push (part : String) : Compound → Compound
  | .single value => .conjunction [value, part]
  | .conjunction parts => .conjunction (parts ++ [part])
  | .optionalChain parts => .optionalChain (parts ++ [part])

/-- The number of parts. -/
def length (compound : Compound) : Nat :=
  compound.parts.length

/-- There is nothing to render yet: no parts, or empty text. -/
def isEmpty : Compound → Bool
  | .single value => value.isEmpty
  | .conjunction parts => parts.isEmpty
  | .optionalChain parts => parts.isEmpty

/-- The target text. -/
def render : Compound → String
  | .single value => value
  | .conjunction parts => conjunctionText parts
  | .optionalChain parts => chainText parts

@[simp] theorem parts_push (part : String) (compound : Compound) :
    (compound.push part).parts = compound.parts ++ [part] := by
  cases compound <;> rfl

@[simp] theorem length_push (part : String) (compound : Compound) :
    (compound.push part).length = compound.length + 1 := by
  simp [length]

end Compound

end VimPattern
