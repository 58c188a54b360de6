/-
Module: VimPattern.Proofs.Target.Structure
Purpose: Every converted pattern is structurally well formed.
Main exports:
  Tree.separators, Token.separators, Tree.Balanced, Tree.Lexed.balanced,
  read_of_convert
-/
import VimPattern.Conversion
import VimPattern.Proofs.Grammar.Lexemes
import VimPattern.Proofs.Target.Texts
import VimPattern.Proofs.Tree.Parts

namespace VimPattern

open Target

/-!
A tree is rendered by putting the texts of its parts side by side and between
parentheses, so that it is as balanced as they are.  The only bars outside all
parentheses are those between the alternatives of the pattern.
-/

/-! ### Separators -/

/-- The separators between the alternatives of a pattern. -/
def Tree.separators : {rank : Rank} → Tree rank → Nat
  | _, .either alternatives _ _ => alternatives.separators + 1
  | _, _ => 0

/-- The separators of alternatives that stand outside all groups, given how many
groups are open before the first token. -/
def Token.separators (depth : Nat) : List Token → Nat
  | [] => 0
  | token :: others =>
      match token.kind with
      | .groupOpen => separators (depth + 1) others
      | .groupClose => separators (depth - 1) others
      | .alternative => (if depth = 0 then 1 else 0) + separators depth others
      | _ => separators depth others

namespace Token

/-- A token that neither groups nor separates is passed over. -/
theorem separators_cons {token : Token} {kind : Kind} (same : token.kind = kind)
    (neutral : kind ∉ [.groupOpen, .groupClose, .alternative]) (depth : Nat)
    (others : List Token) :
    separators depth (token :: others) = separators depth others := by
  rw [separators, same]
  split
  · exact absurd (by simp) neutral
  · exact absurd (by simp) neutral
  · exact absurd (by simp) neutral
  · rfl

/-- Members of a collection are passed over. -/
theorem separators_members {members : List Token}
    (literals : ∀ token ∈ members, token.kind = .literal) (depth : Nat)
    (others : List Token) :
    separators depth (members ++ others) = separators depth others := by
  induction members with
  | nil => rfl
  | cons token members inductionHypothesis =>
      obtain ⟨literal, literals⟩ := List.forall_mem_cons.1 literals
      rw [List.cons_append, separators_cons literal (by decide),
        inductionHypothesis literals]

end Token

/-- The separators outside all groups are those of the pattern itself: groups close
what they open. -/
theorem Tree.Kinded.separators_eq {rank : Rank} {tree : Tree rank}
    (kinded : tree.Kinded) (depth : Nat) (others : List Token) :
    Token.separators depth (tree.tokens ++ others) =
      (if depth = 0 then tree.separators else 0) + Token.separators depth others := by
  induction tree generalizing depth others with
  | literal token =>
      simp [tokens, separators, Token.separators_cons kinded]
  | anchor token place =>
      rcases kinded with kind | kind <;>
        simp [tokens, separators, Token.separators_cons kind]
  | group opener body closer bodyEq =>
      obtain ⟨opens, inside, closes⟩ := kinded
      have within := bodyEq inside (depth + 1) (closer :: others)
      simp only [tokens, List.cons_append, List.append_assoc, List.nil_append,
        Token.separators, opens]
      rw [within, Token.separators, closes]
      simp [separators]
  | collection opener members closer =>
      obtain ⟨opens, literals, closes⟩ := kinded
      simp [tokens, separators, Token.separators_cons opens,
        Token.separators_members literals, Token.separators_cons closes]
  | optional opener pieces closer piecesEq =>
      obtain ⟨opens, inside, _, closes⟩ := kinded
      have none : pieces.separators = 0 := by cases pieces <;> rfl
      simp [tokens, separators, Token.separators_cons opens, piecesEq inside, none,
        Token.separators_cons closes]
  | bare atom atomEq =>
      have none : atom.separators = 0 := by cases atom <;> rfl
      simp [tokens, separators, atomEq kinded, none]
  | quantified atom quantifier atomEq =>
      have none : atom.separators = 0 := by cases atom <;> rfl
      simp [tokens, separators, atomEq kinded.1, none, Token.separators_cons kinded.2]
  | asserted piece assertion pieceEq =>
      have none : piece.separators = 0 := by cases piece <;> rfl
      simp [tokens, separators, pieceEq kinded.1, none, Token.separators_cons kinded.2]
  | empty => simp [tokens, separators]
  | snoc pieces piece piecesEq pieceEq =>
      have none : pieces.separators = 0 := by cases pieces <;> rfl
      have noneLast : piece.separators = 0 := by cases piece <;> rfl
      simp [tokens, separators, piecesEq kinded.1, pieceEq kinded.2, none, noneLast]
  | operand concat concatEq =>
      have none : concat.separators = 0 := by cases concat <;> rfl
      simp [tokens, separators, concatEq kinded, none]
  | both operands separator concat operandsEq concatEq =>
      have none : operands.separators = 0 := by cases operands <;> rfl
      have noneLast : concat.separators = 0 := by cases concat <;> rfl
      simp [tokens, separators, operandsEq kinded.1, concatEq kinded.2.2, none, noneLast,
        Token.separators_cons kinded.2.1]
  | single branch branchEq =>
      have none : branch.separators = 0 := by cases branch <;> rfl
      simp [tokens, separators, branchEq kinded, none]
  | either alternatives separator branch alternativesEq branchEq =>
      obtain ⟨front, kind, last⟩ := kinded
      have none : branch.separators = 0 := by cases branch <;> rfl
      simp only [tokens, List.append_assoc, List.cons_append, alternativesEq front,
        Token.separators, kind, branchEq last, none, separators]
      split <;> omega

/-! ### Texts -/

/-- The texts that a tree of this rank lends to the trees around it are balanced. -/
def Tree.Balanced (style : Style) : {rank : Rank} → Tree rank → Prop
  | .pattern, tree => Closes tree.separators (tree.text style)
  | .branch, tree =>
      Closes 0 (tree.text style) ∧ Closes 0 (tree.lookaheads style)
  | .concat, tree =>
      Closes 0 (tree.text style) ∧ ∃ bars, Closes bars (tree.stretches style)
  | .piece, tree => Closes 0 (tree.text style)
  | .atom, tree => Closes 0 (tree.text style)

/-- An operand that is only looked at is balanced when the operand is. -/
theorem closes_lookaheadText {operand : String} (closes : Closes 0 operand) :
    Closes 0 (lookaheadText operand) := by
  have opens : Opens "(?=" := fun _ _ => rfl
  exact closes.enclosed opens

/-- A group with a name of its own is balanced. -/
theorem Literal.closes_named {style : Style} (literal : Literal)
    (named : literal.namesGroup) : Closes 0 (literal.text style) := by
  cases literal with
  | matchStart first =>
      cases named
      have balanced : Closes 0 "(?<zs>)" := closes_of_read rfl
      exact balanced
  | matchEnd first =>
      cases named
      have balanced : Closes 0 "(?<ze>)" := closes_of_read rfl
      exact balanced
  | _ => cases named

/-- Every tree whose tokens fit their places is balanced. -/
theorem Tree.Lexed.balanced {style : Style} (sound : style.options.Sound) {rank : Rank}
    {tree : Tree rank} (lexed : tree.Lexed) : tree.Balanced style := by
  have bar : Closes 1 "|" := closes_of_read rfl
  induction tree with
  | literal token =>
      obtain ⟨literal, same, readable⟩ := lexed
      rw [Balanced, text_literal, Token.text, same]
      exact Literal.whole_text sound.accepts readable literal.closes_named
  | anchor token place =>
      rw [Balanced, text_anchor]
      exact whole_anchorText sound.accepts lexed place
  | group opener body closer bodyBalanced =>
      obtain ⟨⟨sort, opens⟩, inside, closes⟩ := lexed
      have opening : opener.text style = sort.text style := by rw [Token.text, opens]
      have closing : closer.text style = ")" := by rw [Token.text, closes]
      rw [Balanced, text_group, opening, closing]
      exact (bodyBalanced inside).enclosed (sort.opens_text style)
  | collection opener members closer =>
      obtain ⟨⟨opening, opens, closes⟩, inside⟩ := lexed
      rw [Balanced, text_collection, Token.text, opens, Token.text, closes]
      exact
        Collection.whole_text sound.accepts opening
          (Token.member_textOf sound.accepts inside)
  | optional opener pieces closer piecesBalanced =>
      obtain ⟨_, inside, _, _⟩ := lexed
      obtain ⟨_, bars, stretches⟩ := piecesBalanced inside
      rw [Balanced, text_optional]
      exact balance.whole_enclosed (.head _) ⟨bars, stretches⟩
  | bare atom atomBalanced =>
      rw [Balanced, text_bare]
      exact atomBalanced lexed
  | quantified atom quantifier atomBalanced =>
      obtain ⟨core, count, same, readable⟩ := lexed
      rw [Balanced, text_quantified, Token.text, same]
      exact (atomBalanced core).append (Quantifier.whole_text balance readable)
  | asserted piece assertion pieceBalanced =>
      obtain ⟨core, test, same⟩ := lexed
      rw [Balanced, text_asserted, Token.text, same]
      exact balance.whole_enclosed test.text_mem_marks ⟨0, pieceBalanced core⟩
  | empty =>
      rw [Balanced, text_empty, stretches_empty]
      exact ⟨closes_empty, 0, closes_empty⟩
  | snoc pieces piece piecesBalanced pieceBalanced =>
      obtain ⟨front, bars, stretches⟩ := piecesBalanced lexed.1
      have last := pieceBalanced lexed.2
      rw [Balanced, text_snoc, stretches_snoc]
      exact ⟨front.append last, _, ((front.append last).append bar).append stretches⟩
  | operand concat concatBalanced =>
      obtain ⟨front, _⟩ := concatBalanced lexed
      rw [Balanced, text_operand, lookaheads_operand]
      exact ⟨front, closes_lookaheadText front⟩
  | both operands separator concat operandsBalanced concatBalanced =>
      obtain ⟨_, lookaheads⟩ := operandsBalanced lexed.1
      obtain ⟨last, _⟩ := concatBalanced lexed.2.2
      rw [Balanced, text_both, lookaheads_both]
      exact
        ⟨lookaheads.append last, lookaheads.append (closes_lookaheadText last)⟩
  | single branch branchBalanced =>
      rw [Balanced, text_single]
      exact (branchBalanced lexed).1
  | either alternatives separator branch alternativesBalanced branchBalanced =>
      have front := alternativesBalanced lexed.1
      have last := (branchBalanced lexed.2.2).1
      rw [Balanced, text_either]
      exact (front.append bar).append last

/-! ### Converted patterns -/

/-- The text of a grown pattern is balanced, and its bars outside parentheses are
the separators that the pattern has outside groups. -/
theorem Tree.read_text_ofScan {style : Style} (sound : style.options.Sound)
    {level : Magicness} {pattern : String} {grown : Grown}
    (complete : Tree.ofScan (Scan.ofPattern level pattern) = .ok grown) :
    Target.read (grown.tree.text style) =
      some { bars := Token.separators 0 (Scan.ofPattern level pattern).tokens } := by
  have balanced : grown.tree.Balanced style := (Tree.lexed_ofScan complete).balanced sound
  have counted := (Tree.kinded_ofScan complete).separators_eq 0 []
  rw [List.append_nil, if_pos rfl, Token.separators, Nat.add_zero,
    Tree.tokens_ofScan complete] at counted
  rw [counted]
  exact balanced.read_eq

/-- Folding the case of a balanced text leaves a balanced text. -/
theorem exists_read_withCase {bars : Nat} {body : String}
    (balanced : Target.read body = some { bars := bars }) (foldCase : Bool) :
    ∃ bars, Target.read (withCase foldCase body) = some { bars := bars } := by
  have closes := closes_of_read balanced
  have opens : Opens "(?i:" := fun _ _ => rfl
  unfold withCase
  split
  · exact ⟨0, (closes.enclosed opens).read_eq⟩
  · exact ⟨bars, closes.read_eq⟩

/-- Whatever pattern is converted under sound options, the text is balanced, and
its body, which is the text without the wrapper for folded case, has as many bars
outside parentheses as the pattern has separators outside groups. -/
theorem read_of_convert {options : Options} (sound : options.Sound) {pattern : String}
    {conversion : Conversion} (converted : convert options pattern = .ok conversion) :
    ∃ body,
      conversion.converted =
          withCase (conversion.ignoreCase && !pattern.isEmpty) body ∧
        (∃ bars, Target.read conversion.converted = some { bars := bars }) ∧
          Target.read body =
            some
              { bars :=
                  Token.separators 0
                    (Scan.ofPattern options.magicness pattern).tokens } := by
  by_cases empty : pattern.isEmpty
  · obtain rfl : pattern = "" := by simpa using empty
    cases converted
    refine ⟨"", ?_, ⟨0, rfl⟩, rfl⟩
    rw [empty, Bool.not_true, Bool.and_false]
    rfl
  · rw [convert, if_neg empty] at converted
    dsimp only at converted
    split at converted
    · next grown complete =>
        cases converted
        let style : Style :=
          { options := options
            foldCase := foldsCase options pattern
            namedGroups :=
              (Metadata.ofTally grown.context.tally grown.dollarEnds).needsNamedGroups }
        have balanced : Target.read (grown.tree.text style) = _ :=
          Tree.read_text_ofScan sound complete
        refine ⟨grown.tree.text style, ?_, ?_, balanced⟩
        · simp [Conversion.ofGrown, empty, style]
        · exact exists_read_withCase balanced _
    · cases converted

/-- The usual settings are sound, and a pattern with groups, alternatives and a
collection that accepts line breaks is converted under them. -/
theorem read_of_convert_nested :
    Options.Sound {} ∧
      convert {} "a\\|\\(b\\|\\_[)|]\\)" =
          .ok
            { converted := "a|(b|(?:\\n|[)|]))"
              ignoreCase := false
              magicness := .magic
              metadata := {} } ∧
        Target.read "a|(b|(?:\\n|[)|]))" = some { bars := 1 } := by
  have sound : Options.Sound {} := ⟨⟨rfl, rfl, rfl, rfl⟩, rfl⟩
  have converted :
      convert {} "a\\|\\(b\\|\\_[)|]\\)" =
        .ok
          { converted := "a|(b|(?:\\n|[)|]))"
            ignoreCase := false
            magicness := .magic
            metadata := {} } := by
    rfl
  obtain ⟨body, same, _, balanced⟩ := read_of_convert sound converted
  refine ⟨sound, converted, ?_⟩
  have whole : body = "a|(b|(?:\\n|[)|]))" := same.symm
  rw [← whole, balanced]
  decide +kernel

end VimPattern
