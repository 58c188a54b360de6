/-
Module: VimPattern.Proofs.Tree.Trace
Purpose: The text of a tree with the token that each character was written for.
Main exports:
  Trace, Trace.text, Token.trace, Trace.conjunction, Trace.chain, Tree.traces,
  Tree.trace, Tree.text_trace, Grown.style, Trace.ofPattern, Trace.ofPattern_eq,
  Trace.text_ofPattern
-/
import Mathlib.Data.List.Forall2
import VimPattern.Conversion
import VimPattern.Proofs.Target.Openings

namespace VimPattern

/-!
The text of a tree says nothing about which tokens it was written for, and a token
can be written for more than once.  A trace is that text with a note on every
character.  It is put together as the text is, part by part, and forgetting the
notes gives the text back.
-/

/-- Target text in which every character has the token it was written for, if it was
written for one. -/
abbrev Trace := List (Target.Glyph (Option Token))

/-- The leading stretches of a list that something is done to. -/
theorem leadingStretches_map {α β : Type} (change : α → β) (parts : List α) :
    leadingStretches (parts.map change) =
      (leadingStretches parts).map (List.map change) := by
  induction parts with
  | nil => rfl
  | cons part others inductionHypothesis =>
      simp [leadingStretches, inductionHypothesis, Function.comp_def]

/-- Lists that are related part by part have leading stretches that are. -/
theorem forall₂_leadingStretches {α β : Type} {related : α → β → Prop} {early : List α}
    {late : List β} (all : List.Forall₂ related early late) :
    List.Forall₂ (List.Forall₂ related) (leadingStretches early) (leadingStretches late) := by
  induction all with
  | nil => exact .cons .nil .nil
  | cons first _ inductionHypothesis =>
      apply List.rel_append
      · rw [List.forall₂_map_left_iff, List.forall₂_map_right_iff]
        exact inductionHypothesis.imp fun _ _ stretch => .cons first stretch
      · exact .cons .nil .nil

namespace Trace

/-- The text without the notes. -/
def text (trace : Trace) : String :=
  String.ofList (Target.letters trace)

/-- Text that belongs to no token. -/
def glue (text : String) : Trace :=
  Target.spell none text

/-- Parts with bars between them. -/
def separated (parts : List Trace) : Trace :=
  (glue "|").intercalate parts

/-- Operands that must all match, as in `conjunctionText`. -/
def conjunction : List Trace → Trace
  | [] => []
  | [last] => last
  | operand :: others => glue "(?=" ++ operand ++ glue ")" ++ conjunction others

/-- Parts that may be missing from the end, as in `chainText`. -/
def chain (parts : List Trace) : Trace :=
  glue "(?:" ++ separated ((leadingStretches parts).map List.flatten) ++ glue ")"

@[simp] theorem text_nil : text [] = "" := rfl

@[simp] theorem text_append (front back : Trace) :
    (front ++ back).text = front.text ++ back.text := by
  simp [text]

@[simp] theorem text_spell (source : Option Token) (written : String) :
    text (Target.spell source written) = written := by
  rw [text, Target.letters_spell, String.ofList_toList]

@[simp] theorem text_glue (written : String) : (glue written).text = written :=
  text_spell none written

theorem text_flatten (parts : List Trace) :
    text parts.flatten = String.join (parts.map text) := by
  induction parts with
  | nil => simp
  | cons part others inductionHypothesis => simp [inductionHypothesis]

theorem text_separated (parts : List Trace) :
    (separated parts).text = "|".intercalate (parts.map text) := by
  unfold separated
  induction parts with
  | nil => simp
  | cons part others inductionHypothesis =>
      cases others with
      | nil => simp
      | cons next others =>
          rw [List.intercalate_cons_cons, text_append, text_append, inductionHypothesis,
            text_glue]
          exact String.intercalate_cons_cons.symm

theorem text_conjunction (parts : List Trace) :
    (conjunction parts).text = conjunctionText (parts.map text) := by
  induction parts with
  | nil => rfl
  | cons operand others inductionHypothesis =>
      cases others with
      | nil => rfl
      | cons next others =>
          rw [conjunction, text_append, text_append, text_append, inductionHypothesis,
            text_glue, text_glue]
          · rfl
          · exact List.cons_ne_nil _ _

theorem text_chain (parts : List Trace) :
    (chain parts).text = chainText (parts.map text) := by
  have joined :
      ((leadingStretches parts).map List.flatten).map text =
        (leadingStretches (parts.map text)).map String.join := by
    rw [leadingStretches_map, List.map_map, List.map_map]
    exact List.map_congr_left fun stretch _ => text_flatten stretch
  rw [chain, text_append, text_append, text_separated, text_glue, text_glue, joined]
  rfl

end Trace

/-- The text of a token, written for that token. -/
def Token.trace (style : Style) (token : Token) : Trace :=
  Target.spell (some token) (token.text style)

namespace Tree

/-- The parts that a tree is assembled from, as in `Tree.parts`. -/
def traces (style : Style) : {rank : Rank} → Tree rank → List Trace
  | _, .literal token => [token.trace style]
  | _, .anchor token place => [Target.spell (some token) (anchorText style token place)]
  | _, .group opener body closer =>
      [opener.trace style ++ Trace.separated (body.traces style) ++ closer.trace style]
  | _, .collection opener members closer =>
      [opener.trace style ++ members.flatMap (Token.trace style) ++ closer.trace style]
  | _, .optional _ pieces _ => [Trace.chain (pieces.traces style)]
  | _, .bare atom => atom.traces style
  | _, .quantified atom quantifier =>
      [(atom.traces style).flatten ++ quantifier.trace style]
  | _, .asserted piece assertion =>
      [assertion.trace style ++ (piece.traces style).flatten ++ Trace.glue ")"]
  | _, .empty => []
  | _, .snoc pieces piece => pieces.traces style ++ piece.traces style
  | _, .operand concat => [(concat.traces style).flatten]
  | _, .both operands _ concat =>
      operands.traces style ++ [(concat.traces style).flatten]
  | _, .single branch => [Trace.conjunction (branch.traces style)]
  | _, .either alternatives _ branch =>
      alternatives.traces style ++ [Trace.conjunction (branch.traces style)]

/-- The text of a pattern with its notes. -/
def trace (style : Style) (tree : Tree .pattern) : Trace :=
  Trace.separated (tree.traces style)

theorem text_members (style : Style) (members : List Token) :
    Trace.text (members.flatMap (Token.trace style)) = Token.textOf style members := by
  induction members with
  | nil => simp
  | cons token others inductionHypothesis =>
      simp [inductionHypothesis, Token.trace]

/-- Without the notes the parts are those of the text. -/
theorem text_traces (style : Style) {rank : Rank} (tree : Tree rank) :
    (tree.traces style).map Trace.text = tree.parts style := by
  induction tree with
  | literal token => simp [traces, parts, Token.trace]
  | anchor token place => simp [traces, parts]
  | group opener body closer bodyText =>
      simp [traces, parts, Trace.text_separated, Token.trace, bodyText,
        String.append_assoc]
  | collection opener members closer =>
      simp [traces, parts, Token.trace, text_members, String.append_assoc]
  | optional opener pieces closer piecesText =>
      simp [traces, parts, Trace.text_chain, piecesText]
  | bare atom atomText => exact atomText
  | quantified atom quantifier atomText =>
      simp [traces, parts, Trace.text_flatten, Token.trace, atomText]
  | asserted piece assertion pieceText =>
      simp [traces, parts, Trace.text_flatten, Token.trace, pieceText,
        String.append_assoc]
  | empty => rfl
  | snoc pieces piece piecesText pieceText =>
      simp [traces, parts, piecesText, pieceText]
  | operand concat concatText =>
      simp [traces, parts, Trace.text_flatten, concatText]
  | both operands separator concat operandsText concatText =>
      simp [traces, parts, Trace.text_flatten, operandsText, concatText]
  | single branch branchText =>
      simp [traces, parts, Trace.text_conjunction, branchText]
  | either alternatives separator branch alternativesText branchText =>
      simp [traces, parts, Trace.text_conjunction, alternativesText, branchText]

/-- Without the notes a trace is the text. -/
theorem text_trace (style : Style) (tree : Tree .pattern) :
    (tree.trace style).text = tree.text style := by
  rw [trace, Trace.text_separated, text_traces]
  rfl

end Tree

/-! ### Converted patterns -/

/-- The style that a grown pattern is rendered with. -/
def Grown.style (options : Options) (foldCase : Bool) (grown : Grown) : Style :=
  { options := options
    foldCase := foldCase
    namedGroups :=
      (Metadata.ofTally grown.context.tally grown.dollarEnds).needsNamedGroups }

/-- Put the case folding of a whole pattern around its trace, as in `withCase`. -/
def Trace.withCase (foldCase : Bool) (body : Trace) : Trace :=
  if foldCase then glue "(?i:" ++ body ++ glue ")" else body

@[simp] theorem Trace.text_withCase (foldCase : Bool) (body : Trace) :
    (withCase foldCase body).text = VimPattern.withCase foldCase body.text := by
  unfold withCase VimPattern.withCase
  split
  · rw [text_append, text_append, text_glue, text_glue]
  · rfl

/-- The text that a pattern is converted to, with its notes. -/
def Trace.ofPattern (options : Options) (pattern : String) : Trace :=
  if pattern.isEmpty then []
  else
    match Tree.ofScan (Scan.ofPattern options.magicness pattern) with
    | .ok grown =>
        let foldCase := foldsCase options pattern
        withCase foldCase (grown.tree.trace (grown.style options foldCase))
    | .error _ => []

/-- The trace of a pattern that has grown to its end is that of its tree. -/
theorem Trace.ofPattern_eq {options : Options} {pattern : String}
    (nonempty : pattern.isEmpty = false) {grown : Grown}
    (complete : Tree.ofScan (Scan.ofPattern options.magicness pattern) = .ok grown) :
    Trace.ofPattern options pattern =
      withCase (foldsCase options pattern)
        (grown.tree.trace (grown.style options (foldsCase options pattern))) := by
  rw [Trace.ofPattern, nonempty, complete]
  rfl

/-- Without the notes the trace of a pattern is what the pattern is converted to. -/
theorem Trace.text_ofPattern {options : Options} {pattern : String}
    {conversion : Conversion} (converted : convert options pattern = .ok conversion) :
    (ofPattern options pattern).text = conversion.converted := by
  unfold convert at converted
  unfold ofPattern
  split at converted
  · next empty =>
      cases converted
      rw [if_pos empty]
      rfl
  · next nonempty =>
      rw [if_neg nonempty]
      dsimp only at converted
      cases complete : Tree.ofScan (Scan.ofPattern options.magicness pattern) with
      | ok grown =>
          rw [complete] at converted
          cases converted
          dsimp only
          rw [text_withCase, Tree.text_trace]
          rfl
      | error failure =>
          rw [complete] at converted
          cases converted

end VimPattern
