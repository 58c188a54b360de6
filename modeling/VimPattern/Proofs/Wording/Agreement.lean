/-
Module: VimPattern.Proofs.Wording.Agreement
Purpose: Putting texts together while reading agrees with growing a tree.
Main exports:
  Growth.worded, Growth.worded_step, Grown.worded, Growth.worded_run
-/
import VimPattern.Proofs.Tree.Parts
import VimPattern.Proofs.Wording.Assembly

namespace VimPattern

/-!
Whatever has been grown of a tree can be put into words: every tree in it is replaced by
its text, and every token by the same token with its text.  Each operation on growths then
has the like operation on texts beneath it, refusals included.  So the texts of the tokens
decide nothing: both ways take the same steps, whatever the style is.
-/

/-! ### Operands and atoms -/

namespace Compound

/-- The parts are operands of a conjunction, perhaps of a single one. -/
def Conjoins : Compound → Prop
  | .single _ | .conjunction _ => True
  | .optionalChain _ => False

theorem Conjoins.push {compound : Compound} (conjoins : compound.Conjoins)
    (part : String) : (compound.push part).Conjoins := by
  cases compound with
  | single value => trivial
  | conjunction parts => trivial
  | optionalChain parts => exact conjoins

theorem Conjoins.render_eq {compound : Compound} (conjoins : compound.Conjoins) :
    compound.render = conjunctionText compound.parts := by
  cases compound with
  | single value => rfl
  | conjunction parts => rfl
  | optionalChain parts => exact conjoins.elim

end Compound

/-! ### Trees -/

namespace Tree

variable (style : Style)

/-- The piece has a quantifier or an assertion behind its atom. -/
def isQuantified : Tree .piece → Bool
  | .bare _ => false
  | .quantified _ _ | .asserted _ _ => true

/-- A piece as its text. -/
def textPiece (piece : Tree .piece) : TextPiece :=
  { text := piece.text style
    quantified := piece.isQuantified
    startsWithBreak := piece.startsWithBreak }

/-- The pieces of a concatenation as their texts, the last of them first. -/
def textPieces : {rank : Rank} → Tree rank → List TextPiece
  | _, .snoc pieces piece => piece.textPiece style :: pieces.textPieces
  | _, _ => []

/-- The operands of a branch. -/
def compound : {rank : Rank} → Tree rank → Compound
  | _, .operand concat => .single (concat.text style)
  | _, .both operands _ concat => operands.compound.push (concat.text style)
  | _, _ => .single ""

theorem joined_textPieces (pieces : Tree .concat) :
    TextPiece.joined (pieces.textPieces style) = pieces.text style := by
  cases pieces with
  | empty => exact (text_empty style).symm
  | snoc pieces piece =>
      rw [textPieces, TextPiece.joined, joined_textPieces pieces, text_snoc]
      rfl

/-- The atoms of an optional sequence are its pieces. -/
theorem chain_textPieces (pieces : Tree .concat) :
    TextPiece.chain (pieces.textPieces style) = .optionalChain (pieces.parts style) := by
  cases pieces with
  | empty => rfl
  | snoc pieces piece =>
      rw [textPieces, TextPiece.chain, chain_textPieces pieces, parts_snoc]
      rfl

theorem conjoins_compound {rank : Rank} (tree : Tree rank) :
    (tree.compound style).Conjoins := by
  induction tree with
  | both operands separator concat operandsHypothesis =>
      exact operandsHypothesis.push (concat.text style)
  | _ => trivial

/-- The operands of a branch are the parts that its text is assembled from. -/
theorem parts_compound (branch : Tree .branch) :
    (branch.compound style).parts = branch.parts style := by
  cases branch with
  | operand concat => rfl
  | both operands separator concat =>
      rw [compound, Compound.parts_push, parts_compound operands]
      rfl

theorem render_compound (branch : Tree .branch) :
    (branch.compound style).render = branch.text style := by
  rw [(conjoins_compound style branch).render_eq, parts_compound]
  rfl

end Tree

/-! ### Drafts and growths -/

section Worded

variable (style : Style)

/-- A draft as its texts. -/
def Draft.worded (draft : Draft) : TextDraft :=
  { alternatives :=
      match draft.alternatives with
      | none => []
      | some (alternatives, _) => alternatives.parts style
    operands := draft.operands.map fun before => before.1.compound style
    pieces := draft.pieces.textPieces style }

/-- An open construct as its texts. -/
def Scope.worded : Scope → TextScope
  | .group opener draft => .group (opener.rendered style) (draft.worded style)
  | .optional opener pieces =>
      .optional (opener.rendered style) (pieces.textPieces style)

/-- A growth as its texts. -/
def Growth.worded (growth : Growth) : TextGrowth :=
  { base := growth.base.worded style
    scopes := growth.scopes.map (Scope.worded style)
    collection :=
      growth.collection.map fun inside =>
        (inside.1.rendered style, inside.1.text style ++ Token.textOf style inside.2)
    dollarEnds := growth.dollarEnds }

namespace Draft

theorem branch_worded (draft : Draft) :
    (draft.worded style).branch = draft.branch.compound style := by
  rcases draft with ⟨alternatives, _ | ⟨operands, separator⟩, pieces⟩ <;>
    simp only [worded, TextDraft.branch, branch, Tree.compound, Option.map_none,
      Option.map_some, Tree.joined_textPieces]

theorem pattern_worded (draft : Draft) :
    (draft.worded style).pattern = draft.pattern.parts style := by
  rw [TextDraft.pattern, branch_worded, Tree.render_compound]
  rcases draft with ⟨_ | ⟨alternatives, separator⟩, operands, pieces⟩ <;> rfl

theorem body_worded (draft : Draft) :
    (draft.worded style).body = draft.pattern.text style := by
  rw [TextDraft.body, pattern_worded]
  rfl

theorem worded_conjoin (draft : Draft) (separator : Token) :
    (draft.conjoin separator).worded style = (draft.worded style).conjoin := by
  rw [TextDraft.conjoin, branch_worded]
  rfl

theorem worded_alternate (draft : Draft) (separator : Token) :
    (draft.alternate separator).worded style = (draft.worded style).alternate := by
  rw [TextDraft.alternate, pattern_worded]
  rfl

end Draft

namespace Growth

theorem pieces_worded (growth : Growth) :
    (growth.worded style).pieces = growth.pieces.textPieces style := by
  rcases growth with ⟨base, _ | ⟨_ | _, outer⟩, collection, ends⟩ <;> rfl

theorem worded_withPieces (growth : Growth) (pieces : Tree .concat) :
    (growth.withPieces pieces).worded style =
      (growth.worded style).withPieces (pieces.textPieces style) := by
  rcases growth with ⟨base, _ | ⟨_ | _, outer⟩, collection, ends⟩ <;> rfl

theorem outsideGroups_worded (growth : Growth) :
    (growth.worded style).outsideGroups = growth.outsideGroups := by
  rw [TextGrowth.outsideGroups, worded, List.all_map, outsideGroups]
  congr 1
  funext scope
  cases scope <;> rfl

variable {style} in
/-- The text of an atom joins the pieces where the atom joins the tree. -/
theorem worded_add (growth : Growth) (first : Token) {atom : Tree .atom}
    (head : atom.tokens.head? = some first) {text : String}
    (same : atom.text style = text) :
    (growth.add atom).worded style =
      (growth.worded style).add (first.rendered style) text := by
  have starts : (Tree.bare atom).startsWithBreak = first.isLineBreak := by
    rw [Tree.startsWithBreak, Tree.tokens, head]
  have piece : (Tree.bare atom).textPiece style =
      { text := text
        startsWithBreak := first.isLineBreak } := by
    rw [Tree.textPiece, Tree.text_bare, same, starts]
    rfl
  rw [add, worded_withPieces, TextGrowth.add, pieces_worded, Tree.textPieces, piece]
  rfl

/-! ### Anchors -/

theorem caretPlace_worded (growth : Growth) :
    (growth.worded style).caretPlace = growth.caretPlace := by
  have scope : ∀ base collection ends,
      Growth.caretPlace ⟨base, [], collection, ends⟩ =
        (Growth.worded style ⟨base, [], collection, ends⟩).caretPlace := by
    intro base collection ends
    rcases base with ⟨alternatives, operands, pieces⟩
    cases pieces <;> rfl
  rcases growth with ⟨base, _ | ⟨⟨opener, draft⟩ | _, outer⟩, collection, ends⟩
  · exact (scope base collection ends).symm
  · rcases draft with ⟨alternatives, operands, pieces⟩
    cases pieces <;> rfl
  · rfl

theorem dollarPlace_rendered (following : Option Token) :
    TextGrowth.dollarPlace (following.map (Token.rendered style)) =
      dollarPlace following := by
  cases following <;> rfl

theorem endsAlternative_rendered (following : Option Token) :
    TextGrowth.endsAlternative (following.map (Token.rendered style)) =
      endsAlternative following := by
  cases following <;> rfl

theorem anchorText_rendered (token : Token) (place : Place) :
    (token.rendered style).anchorText place = Tree.anchorText style token place := by
  cases place <;> rfl

theorem worded_addDollar (growth : Growth) (token : Token) (following : Option Token) :
    (growth.addDollar token following).worded style =
      (growth.worded style).addDollar (token.rendered style)
        (following.map (Token.rendered style)) := by
  have text := Tree.text_anchor style token (dollarPlace following)
  have added := growth.worded_add token rfl text
  rw [TextGrowth.addDollar, outsideGroups_worded, dollarPlace_rendered,
    endsAlternative_rendered, anchorText_rendered, ← added]
  rfl

/-! ### Steps -/

theorem worded_quantify (growth : Growth) (token : Token) :
    (growth.worded style).quantify (token.rendered style) =
      (growth.quantify token).map (worded style) := by
  rw [TextGrowth.quantify, quantify, pieces_worded]
  cases growth.pieces with
  | empty => rfl
  | snoc pieces piece =>
      cases piece with
      | bare atom =>
          have piece : (Tree.quantified atom token).textPiece style =
              { (Tree.bare atom).textPiece style with
                text := (Tree.bare atom).text style ++ token.text style
                quantified := true } := by
            rw [Tree.textPiece, Tree.text_quantified, Tree.text_bare,
              Tree.startsWithBreak_quantified]
            rfl
          have after := growth.worded_withPieces style
            (.snoc pieces (.quantified atom token))
          rw [Tree.textPieces, piece] at after
          exact congrArg Except.ok after.symm
      | quantified atom quantifier => rfl
      | asserted piece assertion => rfl

theorem worded_assert (growth : Growth) (token : Token) :
    (growth.worded style).assert (token.rendered style) =
      (growth.assert token).map (worded style) := by
  rw [TextGrowth.assert, assert, pieces_worded]
  cases growth.pieces with
  | empty => rfl
  | snoc pieces piece =>
      have asserted : (Tree.asserted piece token).textPiece style =
          { piece.textPiece style with
            text := token.text style ++ piece.text style ++ ")"
            quantified := true } := by
        rw [Tree.textPiece, Tree.text_asserted, Tree.startsWithBreak_asserted]
        rfl
      have after := growth.worded_withPieces style (.snoc pieces (.asserted piece token))
      rw [Tree.textPieces, asserted] at after
      exact congrArg Except.ok after.symm

variable {style} in
theorem worded_separate (growth : Growth) (token : Token) {renew : Draft → Draft}
    {textRenew : TextDraft → TextDraft}
    (same : ∀ draft, (renew draft).worded style = textRenew (draft.worded style)) :
    (growth.worded style).separate (token.rendered style) textRenew =
      (growth.separate token renew).map (worded style) := by
  rcases growth with ⟨base, _ | ⟨⟨opener, draft⟩ | _, outer⟩, collection, ends⟩
  · simp [TextGrowth.separate, separate, worded, Except.map, same]
  · simp [TextGrowth.separate, separate, worded, Scope.worded, Except.map, same]
  · rfl

theorem worded_closeGroup (growth : Growth) (token : Token) :
    (growth.worded style).closeGroup (token.rendered style) =
      (growth.closeGroup token).map (worded style) := by
  rcases growth with ⟨base, _ | ⟨⟨opener, draft⟩ | _, outer⟩, collection, ends⟩
  · rfl
  · have text : (Tree.group opener draft.pattern token).text style =
        opener.text style ++ (draft.worded style).body ++ token.text style := by
      rw [Tree.text_group, Draft.body_worded]
    exact congrArg Except.ok
      (worded_add ⟨base, outer, collection, ends⟩ opener rfl text).symm
  · rfl

theorem worded_closeOptional (growth : Growth) (token : Token) :
    (growth.worded style).closeOptional (token.rendered style) =
      (growth.closeOptional token).map (worded style) := by
  rcases growth with ⟨base, _ | ⟨_ | ⟨opener, pieces⟩, outer⟩, collection, ends⟩
  · rfl
  · rfl
  · cases pieces with
    | empty => rfl
    | snoc pieces piece =>
        -- Whether the sequence is empty is asked of the list of its atoms: an atom counts
        -- even if its text is empty.
        have chain := Tree.chain_textPieces style (.snoc pieces piece)
        have filled : (TextPiece.chain
            ((Tree.snoc pieces piece).textPieces style)).isEmpty = false := by
          rw [chain, Tree.parts_snoc, Compound.isEmpty]
          exact List.isEmpty_eq_false_iff.2 (List.concat_ne_nil _ _)
        have text : (Tree.optional opener (.snoc pieces piece) token).text style =
            (TextPiece.chain ((Tree.snoc pieces piece).textPieces style)).render := by
          rw [chain]
          exact Tree.text_atom rfl
        have after := worded_add ⟨base, outer, collection, ends⟩ opener rfl text
        refine (if_neg (Bool.eq_false_iff.1 filled)).trans ?_
        exact congrArg Except.ok after.symm

theorem worded_stepInCollection (growth : Growth) (opener : Token)
    (members : List Token) (token : Token) :
    (growth.worded style).stepInCollection (opener.rendered style)
        (opener.text style ++ Token.textOf style members) (token.rendered style) =
      (growth.stepInCollection opener members token).map (worded style) := by
  have longer : Token.textOf style (members ++ [token]) =
      Token.textOf style members ++ token.text style := by
    simp [Token.textOf]
  have kind : (token.rendered style).kind = token.kind := rfl
  rw [TextGrowth.stepInCollection, stepInCollection, kind]
  cases token.kind with
  | literal =>
      simp only [worded, Except.map, Option.map_some, longer, String.append_assoc]
      rfl
  | collectionClose =>
      have text := Tree.text_collection style opener members token
      have after := worded_add { growth with collection := none } opener rfl text
      exact congrArg Except.ok after.symm
  | _ => rfl

theorem worded_stepOutside (growth : Growth) (token : Token)
    (following : Option Token) :
    (growth.worded style).stepOutside (token.rendered style)
        (following.map (Token.rendered style)) =
      (growth.stepOutside token following).map (worded style) := by
  have kind : (token.rendered style).kind = token.kind := rfl
  rw [TextGrowth.stepOutside, stepOutside, kind]
  cases token.kind with
  | literal =>
      have added := growth.worded_add token rfl (Tree.text_literal style token)
      exact congrArg Except.ok added.symm
  | caret =>
      have text := Tree.text_anchor style token growth.caretPlace
      have added := growth.worded_add token rfl text
      rw [caretPlace_worded, anchorText_rendered]
      exact congrArg Except.ok added.symm
  | dollar => exact congrArg Except.ok (worded_addDollar style growth token following).symm
  | quantifier => exact worded_quantify style growth token
  | assertion => exact worded_assert style growth token
  | conjunction =>
      exact growth.worded_separate token fun draft => draft.worded_conjoin style token
  | alternative =>
      exact growth.worded_separate token fun draft => draft.worded_alternate style token
  | groupOpen => rfl
  | groupClose => exact worded_closeGroup style growth token
  | collectionOpen =>
      simp only [worded, Except.map, Option.map_some, Token.textOf_nil, String.append_empty]
      rfl
  | collectionClose => rfl
  | optionalOpen => rfl
  | optionalClose => exact worded_closeOptional style growth token

/-- A step on texts is the step on trees beneath it. -/
theorem worded_step (growth : Growth) (token : Token) (following : Option Token) :
    (growth.worded style).step (token.rendered style)
        (following.map (Token.rendered style)) =
      (growth.step token following).map (worded style) := by
  rcases growth with ⟨base, scopes, _ | ⟨opener, members⟩, ends⟩
  · exact worded_stepOutside style ⟨base, scopes, none, ends⟩ token following
  · exact worded_stepInCollection style ⟨base, scopes, some (opener, members), ends⟩
      opener members token

/-- The end on texts is the end on trees. -/
theorem worded_finish (growth : Growth) (position : Nat) :
    (growth.worded style).finish position =
      (growth.finish position).map (Tree.text style) := by
  rcases growth with
    ⟨base, _ | ⟨⟨opener, draft⟩ | ⟨opener, pieces⟩, outer⟩, _ | inside, ends⟩
  · exact congrArg Except.ok (base.body_worded style)
  all_goals rfl

end Growth

/-- A grown tree as its text. -/
def Grown.worded (grown : Grown) : Worded :=
  { body := grown.tree.text style
    dollarEnds := grown.dollarEnds
    context := grown.context }

/-- Taking all tokens gives the text of the tree that they grow, or fails as the tree
does. -/
theorem Growth.worded_run (stop : Except ScanError Terminus) (growth : Growth)
    (read : Nat) (tokens : List Token) :
    (growth.worded style).run stop read (tokens.map (Token.rendered style)) =
      (growth.run stop read tokens).map (Grown.worded style) := by
  induction tokens generalizing growth read with
  | nil =>
      simp only [List.map_nil, TextGrowth.run, Growth.run]
      cases stop with
      | error error => rfl
      | ok terminus =>
          dsimp only
          rw [worded_finish]
          cases growth.finish terminus.position <;> rfl
  | cons token others inductionHypothesis =>
      have stepped := worded_step style growth token others.head?
      rw [List.map_cons, TextGrowth.run, Growth.run, List.head?_map, stepped]
      cases growth.step token others.head? with
      | ok after => exact inductionHypothesis after (read + 1)
      | error refusal =>
          -- What is reported depends on whether the refusal is early, on whether a token is
          -- left and on how the reading stopped, none of which the texts enter.
          rcases refusal with ⟨cause, _ | _⟩ <;> cases others <;> cases stop <;> rfl

end Worded

end VimPattern
