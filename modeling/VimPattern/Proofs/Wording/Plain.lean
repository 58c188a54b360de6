/-
Module: VimPattern.Proofs.Wording.Plain
Purpose: Patterns whose text is that of their tokens, in the order of the tokens.
Main exports:
  Kind.rearranged, Tree.text_eq_textOf, lastPass, lastPass_of_complete,
  exists_grown_eq_of_convert, converted_of_plain
-/
import VimPattern.Proofs.Wording.Folding

namespace VimPattern

/-!
Five kinds of tokens do more to the text of a pattern than to add their own.  A conjunction and
an assertion put parentheses around what stands before them, an optional sequence repeats its
atoms, and what an anchor adds depends on its neighbours.  Where none of them occurs, putting a
pattern together is putting the texts of its tokens one behind the other: the bars between
alternatives are those of the separators, and groups, collections and quantifiers stay in their
places.
-/

/-- The kinds of tokens that do more to the text of a pattern than to add their own. -/
def Kind.rearranged : List Kind :=
  [.conjunction, .assertion, .optionalOpen, .caret, .dollar]

/-! ### Trees -/

/-- The text of a separator is the bar between the texts of the alternatives. -/
theorem Token.text_of_alternative {token : Token} (kind : token.kind = .alternative)
    (style : Style) : token.text style = "|" := by
  have same : token.lexeme = .alternative := Lexeme.eq_of_kind kind (by simp)
  rw [text, same]

/-- Without tokens that rearrange it, the text of a tree is that of its tokens: each of them
has its place, and none is lost or repeated. -/
theorem Tree.text_eq_textOf {rank : Rank} {tree : Tree rank} (kinded : tree.Kinded)
    (plain : ∀ token ∈ tree.tokens, token.kind ∉ Kind.rearranged) (style : Style) :
    tree.text style = Token.textOf style tree.tokens := by
  induction tree with
  | literal token => simp [tokens]
  | anchor token place =>
      have absent := plain token (.head _)
      rcases kinded with kind | kind <;> exact absurd (by simp [kind, Kind.rearranged]) absent
  | group opener body closer bodyText =>
      obtain ⟨_, inside, _⟩ := kinded
      simp only [tokens, List.forall_mem_cons, List.forall_mem_append] at plain
      rw [text_group, bodyText inside plain.2.1]
      simp [tokens, String.append_assoc]
  | collection opener members closer => simp [tokens, String.append_assoc]
  | optional opener pieces closer _ =>
      have absent := plain opener (.head _)
      exact absurd (by simp [kinded.1, Kind.rearranged]) absent
  | bare atom atomText =>
      rw [text_bare, atomText kinded plain]
      rfl
  | quantified atom quantifier atomText =>
      simp only [tokens, List.forall_mem_append] at plain
      rw [text_quantified, atomText kinded.1 plain.1]
      simp [tokens]
  | asserted piece assertion _ =>
      have absent := plain assertion (List.mem_append_right _ (.head _))
      exact absurd (by simp [kinded.2, Kind.rearranged]) absent
  | empty => rfl
  | snoc pieces piece piecesText pieceText =>
      simp only [tokens, List.forall_mem_append] at plain
      rw [text_snoc, piecesText kinded.1 plain.1, pieceText kinded.2 plain.2]
      simp [tokens]
  | operand concat concatText => exact concatText kinded plain
  | both operands separator concat _ _ =>
      have absent := plain separator (List.mem_append_right _ (.head _))
      exact absurd (by simp [kinded.2.1, Kind.rearranged]) absent
  | single branch branchText =>
      rw [text_single, branchText kinded plain]
      rfl
  | either alternatives separator branch alternativesText branchText =>
      obtain ⟨front, separates, last⟩ := kinded
      simp only [tokens, List.forall_mem_append, List.forall_mem_cons] at plain
      rw [text_either, alternativesText front plain.1, branchText last plain.2.2,
        ← Token.text_of_alternative separates style]
      simp [tokens, String.append_assoc]

/-! ### Whole patterns -/

/-- The last time that a pattern is gone through: the second one if the first shows that the
groups have to be named. -/
def lastPass (options : Options) (foldCase : Bool) (pattern : String) : Pass :=
  let first := translate options foldCase false pattern
  match first.outcome with
  | .ok translation =>
      if translation.metadata.needsNamedGroups then translate options foldCase true pattern
      else first
  | .error _ => first

/-- Going through a pattern for the last time names the groups exactly if they need names. -/
theorem lastPass_of_complete {options : Options} {pattern : String} {grown : Grown}
    (complete : Tree.ofScan (Scan.ofPattern options.magicness pattern) = .ok grown)
    (foldCase : Bool) :
    lastPass options foldCase pattern =
      translate options foldCase (grown.style options foldCase).namedGroups pattern := by
  have metadata : (grown.style options foldCase).namedGroups =
      (Metadata.ofTally grown.context.tally grown.dollarEnds).needsNamedGroups := rfl
  simp only [lastPass, translate_of_complete complete, metadata]
  cases (Metadata.ofTally grown.context.tally grown.dollarEnds).needsNamedGroups <;> rfl

/-- A pattern that is converted grows to a tree, and the conversion is what the tree gives.  The
empty pattern is no exception, but that the folding of case is not put into its text. -/
theorem exists_grown_eq_of_convert {options : Options} {pattern : String}
    {conversion : Conversion} (converted : convert options pattern = .ok conversion) :
    ∃ grown, Tree.ofScan (Scan.ofPattern options.magicness pattern) = .ok grown ∧
      conversion =
        { Conversion.ofGrown options conversion.ignoreCase grown with
          converted :=
            withCase (conversion.ignoreCase && !pattern.isEmpty)
              (grown.tree.text (grown.style options conversion.ignoreCase)) } := by
  obtain ⟨grown, complete, folds, same⟩ := exists_grown_of_convert converted
  refine ⟨grown, complete, ?_⟩
  cases empty : pattern.isEmpty with
  | false =>
      rw [folds, Bool.not_false, Bool.and_true, same empty]
      rfl
  | true =>
      -- The tree of the empty pattern has no text.
      obtain rfl : pattern = "" := by simpa using empty
      cases converted
      cases complete
      rw [Bool.not_true, Bool.and_false]
      rfl

/-- Plain assembly.  If none of the tokens that the last translation of a pattern has read
rearranges the text, then the body of the text, which is the text without the wrapper for folded
case, is what these tokens bring along, one behind the other. -/
theorem converted_of_plain {options : Options} {pattern : String} {conversion : Conversion}
    (converted : convert options pattern = .ok conversion)
    (plain : ∀ token ∈ (lastPass options conversion.ignoreCase pattern).tokens,
      token.kind ∉ Kind.rearranged) :
    ∃ translation,
      (lastPass options conversion.ignoreCase pattern).outcome = .ok translation ∧
        conversion.converted =
            withCase (conversion.ignoreCase && !pattern.isEmpty) translation.body ∧
          translation.body =
            Rendered.textOf (lastPass options conversion.ignoreCase pattern).tokens := by
  obtain ⟨grown, complete, whole⟩ := exists_grown_eq_of_convert converted
  have written := congrArg Conversion.converted whole
  have same := Tree.tokens_ofScan complete
  rw [lastPass_of_complete complete, translate_of_complete complete] at plain ⊢
  refine ⟨_, rfl, written, ?_⟩
  dsimp only
  have kinds : ∀ token ∈ grown.tree.tokens, token.kind ∉ Kind.rearranged := by
    intro token among
    apply plain (token.rendered _)
    rw [same] at among
    exact List.mem_map_of_mem among
  rw [Tree.text_eq_textOf (Tree.kinded_ofScan complete) kinds, same, renderedTokens,
    Rendered.textOf, List.map_map]
  rfl

/-- A reference into a group with alternatives, in a pattern that needs names for its groups and
folds case. -/
theorem converted_of_plain_named :
    let pattern := "\\(a\\|\\_[^]b]\\+\\)\\zs\\c\\z(\\1\\)"
    ∃ conversion translation,
      convert {} pattern = .ok conversion ∧
        (∀ token ∈ (lastPass {} conversion.ignoreCase pattern).tokens,
          token.kind ∉ Kind.rearranged) ∧
          (lastPass {} conversion.ignoreCase pattern).outcome = .ok translation ∧
            conversion.converted = "(?i:" ++ translation.body ++ ")" ∧
              translation.body =
                  Rendered.textOf (lastPass {} conversion.ignoreCase pattern).tokens ∧
                translation.body = "(?<g1>a|(?:\\n|[^\\]\\r\\nb])+)(?<zs>)(?<z1>\\k<g1>)" := by
  intro pattern
  have converted :
      convert {} pattern =
        .ok
          { converted := "(?i:(?<g1>a|(?:\\n|[^\\]\\r\\nb])+)(?<zs>)(?<z1>\\k<g1>))"
            ignoreCase := true
            magicness := .magic
            metadata :=
              { externalGroups := 1
                hasMatchStart := true
                hasBackReference := true } } := by
    dsimp only [pattern]
    rfl
  have plain : ∀ token ∈ (lastPass {} true pattern).tokens, token.kind ∉ Kind.rearranged := by
    decide +kernel
  obtain ⟨translation, last, written, body⟩ := converted_of_plain converted plain
  refine ⟨_, translation, converted, plain, last, written, body, ?_⟩
  rw [body]
  decide +kernel

end VimPattern
