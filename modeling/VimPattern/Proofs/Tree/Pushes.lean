/-
Module: VimPattern.Proofs.Tree.Pushes
Purpose: What a compound has become after any number of parts have been added.
Main exports:
  Compound.pushAll, Compound.joined, Compound.pushAll_eq, Shortens,
  shortens_leadingStretches, Compound.Renders, Compound.renders, Compound.renders_pushAll
-/
import Mathlib.Data.List.Chain
import Mathlib.Data.List.Induction
import VimPattern.Proofs.Tree.Parts

namespace VimPattern

/-!
Parts are added to a compound one by one.  The first of them decides what complete text becomes,
and after that nothing but the list of parts grows.  A conjunction only looks at every part but
the last.  An optional chain offers all its parts first and then gives up one part after the
other from its end, so that one more part puts one more offer in front and changes no other.
-/

/-! ### Offers of a chain -/

/-- All parts come first, each of the others is the one before it without its last part, and in
the end no part is left. -/
structure Shortens {α : Type} (parts : List α) (branches : List (List α)) : Prop where
  length : branches.length = parts.length + 1
  first : branches.head? = some parts
  next : branches.IsChain fun longer shorter => shorter = longer.dropLast
  last : branches.getLast? = some []

/-- Without parts there is one branch, and it is empty. -/
theorem Shortens.nil {α : Type} : Shortens ([] : List α) [[]] where
  length := rfl
  first := rfl
  next := .singleton _
  last := rfl

/-- One more part puts one more branch in front. -/
theorem Shortens.concat {α : Type} {parts : List α} {branches : List (List α)}
    (shortens : Shortens parts branches) (part : α) :
    Shortens (parts ++ [part]) ((parts ++ [part]) :: branches) where
  length := by simp [shortens.length]
  first := rfl
  next := by
    refine List.isChain_cons.2 ⟨?_, shortens.next⟩
    intro branch first
    rw [shortens.first] at first
    rw [List.dropLast_concat, Option.some.inj first]
  last := by
    rw [List.getLast?_cons, shortens.last, Option.getD_some]

/-- The leading stretches of a list shorten it. -/
theorem shortens_leadingStretches {α : Type} (parts : List α) :
    Shortens parts (leadingStretches parts) := by
  induction parts using List.reverseRecOn with
  | nil => exact .nil
  | append_singleton parts part inductionHypothesis =>
      rw [leadingStretches_concat]
      exact inductionHypothesis.concat part

/-- The text of a chain with these branches. -/
def offerText (branches : List (List String)) : String :=
  "(?:" ++ "|".intercalate (branches.map String.join) ++ ")"

namespace Compound

/-! ### Parts -/

/-- Add parts one after the other. -/
def pushAll (compound : Compound) (parts : List String) : Compound :=
  parts.foldl (fun grown part => grown.push part) compound

/-- The compound with these parts behind its own.  Complete text stays what it is as long as
nothing joins it. -/
def joined : Compound → List String → Compound
  | .single value, [] => .single value
  | .single value, others => .conjunction (value :: others)
  | .conjunction parts, others => .conjunction (parts ++ others)
  | .optionalChain parts, others => .optionalChain (parts ++ others)

/-- A part that is added joins the parts that have joined before. -/
theorem push_joined (compound : Compound) (others : List String) (part : String) :
    (compound.joined others).push part = compound.joined (others ++ [part]) := by
  rcases compound with value | parts | parts
  · cases others <;> rfl
  · simp [joined, push]
  · simp [joined, push]

theorem joined_nil (compound : Compound) : compound.joined [] = compound := by
  cases compound <;> simp [joined]

/-- Adding parts one after the other is joining them all. -/
theorem pushAll_eq (compound : Compound) (others : List String) :
    compound.pushAll others = compound.joined others := by
  induction others using List.reverseRecOn with
  | nil => exact compound.joined_nil.symm
  | append_singleton others part inductionHypothesis =>
      rw [← push_joined, ← inductionHypothesis, pushAll, pushAll, List.foldl_concat]

theorem parts_joined (compound : Compound) (others : List String) :
    (compound.joined others).parts = compound.parts ++ others := by
  rcases compound with value | parts | parts
  · cases others <;> rfl
  · rfl
  · rfl

/-! ### Texts -/

/-- The text of the compound follows from its parts by the rule for its kind. -/
def Renders (compound : Compound) : Prop :=
  match compound with
  | .single value => compound.render = value
  | .conjunction parts =>
      compound.render =
        String.join (parts.dropLast.map lookaheadText) ++ parts.getLast?.getD ""
  | .optionalChain parts =>
      ∃ branches, Shortens parts branches ∧ compound.render = offerText branches ∧
        ∀ part, Shortens (parts ++ [part]) ((parts ++ [part]) :: branches) ∧
          (compound.push part).render = offerText ((parts ++ [part]) :: branches)

/-- The text of every compound follows from its parts. -/
theorem renders (compound : Compound) : compound.Renders := by
  cases compound with
  | single value => exact rfl
  | conjunction parts =>
      change conjunctionText parts = _
      rcases parts.eq_nil_or_concat with rfl | ⟨operands, last, rfl⟩
      · rfl
      · simp [conjunctionText_concat]
  | optionalChain parts =>
      have shortens := shortens_leadingStretches parts
      refine ⟨leadingStretches parts, shortens, rfl, ?_⟩
      intro part
      refine ⟨shortens.concat part, ?_⟩
      rw [← leadingStretches_concat]
      rfl

/-- Pushes.  A compound to which parts have been added holds them behind its own ones, in their
order, it is of its kind still unless it was complete text, and its text follows from its parts:
of a conjunction by looking at all parts but the last, and of a chain by offering all of them and
then one less each time. -/
theorem renders_pushAll (start : Compound) (pushed : List String) :
    start.pushAll pushed = start.joined pushed ∧
      (start.pushAll pushed).parts = start.parts ++ pushed ∧
        (start.pushAll pushed).length = start.length + pushed.length ∧
          (start.pushAll pushed).Renders := by
  have parts : (start.pushAll pushed).parts = start.parts ++ pushed := by
    rw [pushAll_eq, parts_joined]
  refine ⟨pushAll_eq start pushed, parts, ?_, renders _⟩
  rw [length, parts, List.length_append, length]

example : (single "a").pushAll ["b", "c"] = .conjunction ["a", "b", "c"] := rfl

end Compound

end VimPattern
