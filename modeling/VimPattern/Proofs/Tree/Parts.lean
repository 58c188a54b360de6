/-
Module: VimPattern.Proofs.Tree.Parts
Purpose: The text of a tree in terms of the texts of the trees it consists of.
Main exports:
  lookaheadText, conjunctionText_concat, leadingStretches_concat,
  Tree.parts_atom, Tree.parts_piece, Tree.text_group, Tree.text_both,
  Tree.text_either
-/
import VimPattern.Tree.Basic

namespace VimPattern

/-!
A tree is rendered from its parts.  Each kind of tree gets one equation that says
what its text is made of, so that a fact about texts is an induction on the tree
that never mentions how the parts are collected.
-/

/-! ### Assembled texts that grow at their end -/

/-- An operand that is only looked at. -/
def lookaheadText (operand : String) : String :=
  "(?=" ++ operand ++ ")"

/-- All operands but the last are only looked at. -/
theorem conjunctionText_concat (operands : List String) (last : String) :
    conjunctionText (operands ++ [last]) =
      String.join (operands.map lookaheadText) ++ last := by
  induction operands with
  | nil => simp [conjunctionText]
  | cons operand others inductionHypothesis =>
      have more : others ++ [last] ≠ [] := by simp
      rw [List.cons_append, conjunctionText, inductionHypothesis]
      · simp [lookaheadText, String.append_assoc]
      · exact more

/-- The longest stretch of a longer list is the list, the others are those of the
list before. -/
theorem leadingStretches_concat {α : Type} (parts : List α) (last : α) :
    leadingStretches (parts ++ [last]) = (parts ++ [last]) :: leadingStretches parts := by
  induction parts with
  | nil => rfl
  | cons part others inductionHypothesis =>
      simp [leadingStretches, inductionHypothesis]

namespace Tree

variable (style : Style)

/-! ### Atoms and pieces -/

variable {style} in
/-- An atom that is assembled from one part is that part. -/
theorem text_atom {atom : Tree .atom} {only : String}
    (same : atom.parts style = [only]) : atom.text style = only := by
  change String.join (atom.parts style) = only
  rw [same, String.join_cons, String.join_nil, String.append_empty]

variable {style} in
/-- A piece that is assembled from one part is that part. -/
theorem text_piece {piece : Tree .piece} {only : String}
    (same : piece.parts style = [only]) : piece.text style = only := by
  change String.join (piece.parts style) = only
  rw [same, String.join_cons, String.join_nil, String.append_empty]

/-- An atom is one part. -/
theorem parts_atom (atom : Tree .atom) : atom.parts style = [atom.text style] := by
  have one : ∃ only, atom.parts style = [only] := by
    cases atom <;> exact ⟨_, rfl⟩
  obtain ⟨only, same⟩ := one
  rw [same, text_atom same]

/-- A piece is one part. -/
theorem parts_piece (piece : Tree .piece) :
    piece.parts style = [piece.text style] := by
  have one : ∃ only, piece.parts style = [only] := by
    cases piece with
    | bare atom => exact ⟨_, parts_atom style atom⟩
    | quantified atom quantifier => exact ⟨_, rfl⟩
    | asserted piece assertion => exact ⟨_, rfl⟩
  obtain ⟨only, same⟩ := one
  rw [same, text_piece same]

/-- The leading stretches of a concatenation, as alternatives. -/
def stretches (pieces : Tree .concat) : String :=
  "|".intercalate ((leadingStretches (pieces.parts style)).map String.join)

@[simp] theorem text_literal (token : Token) :
    (literal token).text style = token.text style :=
  text_atom rfl

@[simp] theorem text_anchor (token : Token) (place : Place) :
    (anchor token place).text style = anchorText style token place :=
  text_atom rfl

@[simp] theorem text_group (opener : Token) (body : Tree .pattern) (closer : Token) :
    (group opener body closer).text style =
      opener.text style ++ body.text style ++ closer.text style :=
  text_atom rfl

@[simp] theorem text_collection (opener : Token) (members : List Token)
    (closer : Token) :
    (collection opener members closer).text style =
      opener.text style ++ Token.textOf style members ++ closer.text style :=
  text_atom rfl

@[simp] theorem text_optional (opener : Token) (pieces : Tree .concat)
    (closer : Token) :
    (optional opener pieces closer).text style =
      "(?:" ++ pieces.stretches style ++ ")" :=
  text_atom rfl

@[simp] theorem text_bare (atom : Tree .atom) :
    (bare atom).text style = atom.text style :=
  text_piece (parts_atom style atom)

@[simp] theorem text_quantified (atom : Tree .atom) (quantifier : Token) :
    (quantified atom quantifier).text style =
      atom.text style ++ quantifier.text style :=
  text_piece rfl

@[simp] theorem text_asserted (piece : Tree .piece) (assertion : Token) :
    (asserted piece assertion).text style =
      assertion.text style ++ piece.text style ++ ")" :=
  text_piece rfl

/-! ### Concatenations -/

/-- A longer concatenation has one part more. -/
theorem parts_snoc (pieces : Tree .concat) (piece : Tree .piece) :
    (snoc pieces piece).parts style =
      pieces.parts style ++ [piece.text style] :=
  congrArg (pieces.parts style ++ ·) (parts_piece style piece)

@[simp] theorem text_empty : empty.text style = "" :=
  String.join_nil

@[simp] theorem text_snoc (pieces : Tree .concat) (piece : Tree .piece) :
    (snoc pieces piece).text style = pieces.text style ++ piece.text style :=
  String.join_append

@[simp] theorem stretches_empty : empty.stretches style = "" := by
  change "|".intercalate [String.join []] = ""
  simp

@[simp] theorem stretches_snoc (pieces : Tree .concat) (piece : Tree .piece) :
    (snoc pieces piece).stretches style =
      pieces.text style ++ piece.text style ++ "|" ++ pieces.stretches style := by
  have more : (leadingStretches (pieces.parts style)).map String.join ≠ [] := by
    cases pieces.parts style <;> simp [leadingStretches]
  have longest :
      String.join (pieces.parts style ++ [piece.text style]) =
        pieces.text style ++ piece.text style := by
    rw [String.join_append, String.join_cons, String.join_nil, String.append_empty]
    rfl
  rw [stretches, parts_snoc, leadingStretches_concat, List.map_cons,
    String.intercalate_cons_of_ne_nil more, longest, stretches]

/-! ### Branches and patterns -/

/-- All operands of a branch as something that is only looked at. -/
def lookaheads (branch : Tree .branch) : String :=
  String.join ((branch.parts style).map lookaheadText)

@[simp] theorem text_operand (concat : Tree .concat) :
    (operand concat).text style = concat.text style :=
  rfl

@[simp] theorem lookaheads_operand (concat : Tree .concat) :
    (operand concat).lookaheads style = lookaheadText (concat.text style) := by
  change String.join [lookaheadText (concat.text style)] = _
  rw [String.join_cons, String.join_nil, String.append_empty]

@[simp] theorem text_both (operands : Tree .branch) (separator : Token)
    (concat : Tree .concat) :
    (both operands separator concat).text style =
      operands.lookaheads style ++ concat.text style :=
  conjunctionText_concat (operands.parts style) (concat.text style)

@[simp] theorem lookaheads_both (operands : Tree .branch) (separator : Token)
    (concat : Tree .concat) :
    (both operands separator concat).lookaheads style =
      operands.lookaheads style ++ lookaheadText (concat.text style) := by
  change
    String.join ((operands.parts style ++ [concat.text style]).map lookaheadText) = _
  rw [List.map_append, String.join_append, List.map_cons, List.map_nil,
    String.join_cons, String.join_nil, String.append_empty]
  rfl

@[simp] theorem text_single (branch : Tree .branch) :
    (single branch).text style = branch.text style := by
  change "|".intercalate [branch.text style] = _
  rw [String.intercalate_singleton]

@[simp] theorem text_either (alternatives : Tree .pattern) (separator : Token)
    (branch : Tree .branch) :
    (either alternatives separator branch).text style =
      alternatives.text style ++ "|" ++ branch.text style := by
  have front : alternatives.parts style ≠ [] := by
    cases alternatives with
    | single branch => exact List.cons_ne_nil _ _
    | either alternatives separator branch => exact List.concat_ne_nil _ _
  have joined := String.intercalate_append_of_ne_nil (s := "|") front
    (List.cons_ne_nil (branch.text style) [])
  rw [String.intercalate_singleton] at joined
  exact joined

/-! ### The first token of a piece -/

/-- A piece has a first token. -/
theorem exists_head_piece (piece : Tree .piece) :
    ∃ first, piece.tokens.head? = some first := by
  cases piece with
  | bare atom => cases atom <;> exact ⟨_, rfl⟩
  | quantified atom quantifier => cases atom <;> exact ⟨_, rfl⟩
  | asserted piece assertion =>
      obtain ⟨first, head⟩ := exists_head_piece piece
      exact ⟨first, by rw [tokens, List.head?_append, head, Option.some_or]⟩

/-- A quantifier does not change what a piece starts with. -/
theorem startsWithBreak_quantified (atom : Tree .atom) (quantifier : Token) :
    (quantified atom quantifier).startsWithBreak = (bare atom).startsWithBreak := by
  cases atom <;> rfl

/-- An assertion does not change what a piece starts with. -/
theorem startsWithBreak_asserted (piece : Tree .piece) (assertion : Token) :
    (asserted piece assertion).startsWithBreak = piece.startsWithBreak := by
  obtain ⟨first, head⟩ := exists_head_piece piece
  have same : (asserted piece assertion).tokens.head? = piece.tokens.head? := by
    rw [tokens, List.head?_append, head, Option.some_or]
  rw [startsWithBreak, startsWithBreak, same]

end Tree

end VimPattern
