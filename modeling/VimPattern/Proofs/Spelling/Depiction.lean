/-
Module: VimPattern.Proofs.Spelling.Depiction
Purpose: Trees that have the structure of a sketch.
Main exports:
  Tree.Depicts, Tree.Depicts.kinded,
  Tree.Depicts.eq_of_unplaced, Tree.Depicts.text_eq
-/
import VimPattern.Proofs.Grammar.Regrowth
import VimPattern.Proofs.Spelling.Written
import VimPattern.Proofs.Tree.Parts

namespace VimPattern

/-!
A tree depicts a sketch when both have the same shape and every token of the tree
has the lexeme that the sketch asks for.  Places and spellings play no part.  This
is all that the translation of the tree depends on, since a sketch has no anchors.
-/

/-! ### Depiction -/

namespace Tree

/-- The tree has the structure of the sketch. -/
inductive Depicts : {rank : Rank} → Tree rank → Sketch rank → Prop where
  | literal {token : Token} {char : AlphaNumeric}
      (same : token.lexeme = .literal (.plain char.val)) :
      Depicts (.literal token) (.literal char)
  | anyChar {token : Token} (same : token.lexeme = .literal .anyChar) :
      Depicts (.literal token) .anyChar
  | charClass {token : Token} {letterClass : CharClass}
      (same : token.lexeme = .literal (.charClass letterClass false)) :
      Depicts (.literal token) (.charClass letterClass)
  | collection {opener closer : Token} {members : List Token}
      {first : AlphaNumeric} {others : List AlphaNumeric}
      (opens : opener.lexeme = .collectionOpen {})
      (inside : members.map Token.lexeme =
        (first :: others).map fun char => .member (.plain char.val))
      (closes : closer.lexeme = .collectionClose false) :
      Depicts (.collection opener members closer) (.collection first others)
  | group {opener closer : Token} {number : Nat} {body : Tree .pattern}
      {sketch : Sketch .pattern}
      (opens : opener.lexeme = .groupOpen (.capturing number))
      (inside : Depicts body sketch) (closes : closer.lexeme = .groupClose) :
      Depicts (.group opener body closer) (.group sketch)
  | cluster {opener closer : Token} {body : Tree .pattern} {sketch : Sketch .pattern}
      (opens : opener.lexeme = .groupOpen .nonCapturing)
      (inside : Depicts body sketch) (closes : closer.lexeme = .groupClose) :
      Depicts (.group opener body closer) (.cluster sketch)
  | optional {opener closer : Token} {pieces : Tree .concat} {piece : Tree .piece}
      {front : Sketch .concat} {last : Sketch .piece}
      (opens : opener.lexeme = .optionalOpen) (before : Depicts pieces front)
      (final : Depicts piece last) (closes : closer.lexeme = .optionalClose) :
      Depicts (.optional opener (.snoc pieces piece) closer) (.optional front last)
  | bare {atom : Tree .atom} {sketch : Sketch .atom} (core : Depicts atom sketch) :
      Depicts (.bare atom) (.bare sketch)
  | repeated {atom : Tree .atom} {sketch : Sketch .atom} {quantifier : Token}
      {repetition : Repetition} (core : Depicts atom sketch)
      (same : quantifier.lexeme = .quantifier repetition.quantifier) :
      Depicts (.quantified atom quantifier) (.repeated sketch repetition)
  | asserted {piece : Tree .piece} {sketch : Sketch .piece} {token : Token}
      {assertion : Assertion} (core : Depicts piece sketch)
      (same : token.lexeme = .assertion assertion) :
      Depicts (.asserted piece token) (.asserted sketch assertion)
  | empty : Depicts .empty .empty
  | snoc {pieces : Tree .concat} {piece : Tree .piece} {front : Sketch .concat}
      {last : Sketch .piece} (before : Depicts pieces front)
      (final : Depicts piece last) : Depicts (.snoc pieces piece) (.snoc front last)
  | operand {concat : Tree .concat} {sketch : Sketch .concat}
      (core : Depicts concat sketch) : Depicts (.operand concat) (.operand sketch)
  | both {operands : Tree .branch} {concat : Tree .concat} {separator : Token}
      {front : Sketch .branch} {last : Sketch .concat}
      (before : Depicts operands front) (same : separator.lexeme = .conjunction)
      (final : Depicts concat last) :
      Depicts (.both operands separator concat) (.both front last)
  | single {branch : Tree .branch} {sketch : Sketch .branch}
      (core : Depicts branch sketch) : Depicts (.single branch) (.single sketch)
  | either {alternatives : Tree .pattern} {branch : Tree .branch} {separator : Token}
      {front : Sketch .pattern} {last : Sketch .branch}
      (before : Depicts alternatives front) (same : separator.lexeme = .alternative)
      (final : Depicts branch last) :
      Depicts (.either alternatives separator branch) (.either front last)

namespace Depicts

/-- The kind of a token follows from its lexeme. -/
private theorem kind_eq {token : Token} {lexeme : Lexeme}
    (same : token.lexeme = lexeme) : token.kind = lexeme.kind :=
  congrArg Lexeme.kind same

/-- A tree that depicts a sketch is kinded. -/
theorem kinded {rank : Rank} {tree : Tree rank} {sketch : Sketch rank}
    (depicts : Depicts tree sketch) : tree.Kinded := by
  induction depicts with
  | literal same => exact kind_eq same
  | anyChar same => exact kind_eq same
  | charClass same => exact kind_eq same
  | @collection opener closer members first others opens inside closes =>
      refine ⟨kind_eq opens, ?_, kind_eq closes⟩
      intro token among
      have lexeme : token.lexeme ∈ members.map Token.lexeme :=
        List.mem_map_of_mem among
      rw [inside] at lexeme
      obtain ⟨char, _, same⟩ := List.mem_map.1 lexeme
      exact kind_eq same.symm
  | group opens _ closes body => exact ⟨kind_eq opens, body, kind_eq closes⟩
  | cluster opens _ closes body => exact ⟨kind_eq opens, body, kind_eq closes⟩
  | optional opens _ _ closes front last =>
      exact ⟨kind_eq opens, ⟨front, last⟩, nofun, kind_eq closes⟩
  | bare _ core => exact core
  | repeated _ same core => exact ⟨core, kind_eq same⟩
  | asserted _ same core => exact ⟨core, kind_eq same⟩
  | empty => trivial
  | snoc _ _ front last => exact ⟨front, last⟩
  | operand _ core => exact core
  | both _ same _ front last => exact ⟨front, kind_eq same, last⟩
  | single _ core => exact core
  | either _ same _ front last => exact ⟨front, kind_eq same, last⟩

/-- There is no anchor in a tree that depicts a sketch, so that such a tree is
known from its tokens and its shape. -/
theorem eq_of_unplaced {rank : Rank} {tree other : Tree rank} {sketch : Sketch rank}
    (depicts : Depicts tree sketch) (same : other.unplaced = tree.unplaced) :
    other = tree := by
  induction depicts with
  | literal | anyChar | charClass | collection =>
      cases other <;> simp only [unplaced, reduceCtorEq] at same
      exact same
  | group _ _ _ body | cluster _ _ _ body =>
      cases other <;> simp only [unplaced, reduceCtorEq, group.injEq] at same
      obtain ⟨rfl, inside, rfl⟩ := same
      rw [body inside]
  | optional _ _ _ _ front last =>
      cases other <;> simp only [unplaced, reduceCtorEq, optional.injEq] at same
      rename_i pieces _
      cases pieces <;>
        simp only [unplaced, reduceCtorEq, snoc.injEq, false_and, and_false] at same
      obtain ⟨rfl, ⟨before, final⟩, rfl⟩ := same
      rw [front before, last final]
  | bare _ core =>
      cases other <;> simp only [unplaced, reduceCtorEq, bare.injEq] at same
      rw [core same]
  | repeated _ _ core =>
      cases other <;> simp only [unplaced, reduceCtorEq, quantified.injEq] at same
      rw [core same.1, same.2]
  | asserted _ _ core =>
      cases other <;> simp only [unplaced, reduceCtorEq, asserted.injEq] at same
      rw [core same.1, same.2]
  | empty => exact unplaced_eq_empty_iff.1 same
  | snoc _ _ front last =>
      cases other <;> simp only [unplaced, reduceCtorEq, snoc.injEq] at same
      rw [front same.1, last same.2]
  | operand _ core =>
      cases other <;> simp only [unplaced, reduceCtorEq, operand.injEq] at same
      rw [core same]
  | both _ _ _ front last =>
      cases other <;> simp only [unplaced, reduceCtorEq, both.injEq] at same
      rw [front same.1, same.2.1, last same.2.2]
  | single _ core =>
      cases other <;> simp only [unplaced, reduceCtorEq, single.injEq] at same
      rw [core same]
  | either _ _ _ front last =>
      cases other <;> simp only [unplaced, reduceCtorEq, either.injEq] at same
      rw [front same.1, same.2.1, last same.2.2]

/-! ### Texts -/

/-- Members of a collection that stand for themselves. -/
theorem textOf_members {style : Style} {members : List Token}
    {chars : List AlphaNumeric}
    (same : members.map Token.lexeme =
      chars.map fun char => .member (.plain char.val)) :
    Token.textOf style members = String.ofList (chars.map Subtype.val) := by
  induction members generalizing chars with
  | nil =>
      obtain rfl : chars = [] := List.map_eq_nil_iff.1 same.symm
      simp
  | cons token members inductionHypothesis =>
      cases chars with
      | nil => cases same
      | cons char chars =>
          rw [List.map_cons, List.map_cons, List.cons.injEq] at same
          have first : token.text style = String.singleton char.val := by
            rw [Token.text, same.1]
            exact Escape.member_of_isAlphanum char.property
          rw [Token.textOf_cons, first, inductionHypothesis same.2, List.map_cons,
            String.ofList_cons]

/-- The tree has the text of the sketch.  A branch or a concatenation has the texts
that it lends to constructs around it as well. -/
def Agrees (style : Style) : {rank : Rank} → Tree rank → Sketch rank → Prop
  | .branch, tree, sketch =>
      tree.text style = sketch.text style.options ∧
        tree.lookaheads style = sketch.lookaheads style.options
  | .concat, tree, sketch =>
      tree.text style = sketch.text style.options ∧
        tree.stretches style = sketch.stretches style.options
  | .pattern, tree, sketch => tree.text style = sketch.text style.options
  | .piece, tree, sketch => tree.text style = sketch.text style.options
  | .atom, tree, sketch => tree.text style = sketch.text style.options

/-- A tree that depicts a sketch has its text, where groups have no names. -/
theorem agrees {style : Style} (unnamed : style.namedGroups = false) {rank : Rank}
    {tree : Tree rank} {sketch : Sketch rank} (depicts : Depicts tree sketch) :
    Agrees style tree sketch := by
  induction depicts with
  | @literal token char same =>
      rw [Agrees, text_literal, Token.text, same, Sketch.text]
      exact Escape.plain_of_isAlphanum char.property
  | anyChar same =>
      rw [Agrees, text_literal, Token.text, same, Sketch.text]
      rfl
  | charClass same =>
      rw [Agrees, text_literal, Token.text, same, Sketch.text]
      rfl
  | @collection opener closer members first others opens inside closes =>
      have opening : opener.text style = "[" := by
        rw [Token.text, opens]
        simp [Collection.Opening.text]
      have closing : closer.text style = "]" := by
        rw [Token.text, closes]
        rfl
      rw [Agrees, text_collection, opening, textOf_members inside, closing,
        Sketch.text]
  | @group opener closer number body sketch opens inside closes bodyAgrees =>
      have opening : opener.text style = "(" := by
        rw [Token.text, opens]
        simp [GroupSort.text, unnamed]
      have closing : closer.text style = ")" := by
        rw [Token.text, closes]
      rw [Agrees, text_group, opening, bodyAgrees, closing, Sketch.text]
  | @cluster opener closer body sketch opens inside closes bodyAgrees =>
      have opening : opener.text style = "(?:" := by
        rw [Token.text, opens]
        rfl
      have closing : closer.text style = ")" := by
        rw [Token.text, closes]
      rw [Agrees, text_group, opening, bodyAgrees, closing, Sketch.text]
  | optional opens before final closes front last =>
      rw [Agrees, text_optional, stretches_snoc, front.1, front.2, last, Sketch.text]
      simp only [String.append_assoc]
  | bare core coreAgrees => rw [Agrees, text_bare, coreAgrees, Sketch.text]
  | @repeated atom sketch quantifier repetition core same coreAgrees =>
      have repeats : quantifier.text style = repetition.text := by
        rw [Token.text, same]
        exact repetition.text_quantifier
      rw [Agrees, text_quantified, coreAgrees, repeats, Sketch.text]
  | @asserted piece sketch token assertion core same coreAgrees =>
      have opening : token.text style = assertion.openingText := by
        rw [Token.text, same]
        cases assertion <;> rfl
      rw [Agrees, text_asserted, opening, coreAgrees, Sketch.text]
  | empty => exact ⟨text_empty style, stretches_empty style⟩
  | snoc before final front last =>
      constructor
      · rw [text_snoc, front.1, last, Sketch.text]
      · rw [stretches_snoc, front.1, front.2, last, Sketch.stretches]
  | operand core coreAgrees =>
      constructor
      · rw [text_operand, coreAgrees.1, Sketch.text]
      · rw [lookaheads_operand, coreAgrees.1, Sketch.lookaheads, lookaheadText]
  | both before same final front last =>
      constructor
      · rw [text_both, front.2, last.1, Sketch.text]
      · rw [lookaheads_both, front.2, last.1, Sketch.lookaheads, lookaheadText]
        simp only [String.append_assoc]
  | single core coreAgrees => rw [Agrees, text_single, coreAgrees.1, Sketch.text]
  | either before same final front last =>
      rw [Agrees, text_either, front, last.1, Sketch.text]

/-- A pattern that depicts a sketch has its text, where groups have no names. -/
theorem text_eq {style : Style} (unnamed : style.namedGroups = false)
    {tree : Tree .pattern} {sketch : Sketch .pattern}
    (depicts : Depicts tree sketch) : tree.text style = sketch.text style.options :=
  agrees unnamed depicts

end Depicts

end Tree

end VimPattern
