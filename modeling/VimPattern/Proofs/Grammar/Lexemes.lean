/-
Module: VimPattern.Proofs.Grammar.Lexemes
Purpose: In the tree of a pattern every token has a lexeme that fits its place.
Main exports:
  Tree.Lexed, Tree.lexed_of_arranged, Tree.lexed_ofScan
-/
import VimPattern.Proofs.Grammar.Kinds
import VimPattern.Proofs.Scan.Tokens
import VimPattern.Tree.Yield

namespace VimPattern

/-!
The terminal symbols do not tell a member of a collection from an atom, nor the
two ways in which a collection closes.  The arrangement of the tokens does, so
that a kinded tree over arranged tokens is known lexeme by lexeme.
-/

/-- Every token of the tree has a lexeme that its place calls for. -/
def Tree.Lexed : {rank : Rank} → Tree rank → Prop
  | _, .literal token =>
      ∃ literal, token.lexeme = .literal literal ∧ (Lexeme.literal literal).Readable
  | _, .anchor token _ => token.lexeme = .caret ∨ token.lexeme = .dollar
  | _, .group opener body closer =>
      (∃ sort, opener.lexeme = .groupOpen sort) ∧ body.Lexed ∧
        closer.lexeme = .groupClose
  | _, .collection opener members closer =>
      (∃ opening, opener.lexeme = .collectionOpen opening ∧
        closer.lexeme = .collectionClose opening.withBreak) ∧
        ∀ token ∈ members, ∃ member,
          token.lexeme = .member member ∧ (Lexeme.member member).Readable
  | _, .optional opener pieces closer =>
      opener.lexeme = .optionalOpen ∧ pieces.Lexed ∧ pieces ≠ .empty ∧
        closer.lexeme = .optionalClose
  | _, .bare atom => atom.Lexed
  | _, .quantified atom quantifier =>
      atom.Lexed ∧ ∃ count, quantifier.lexeme = .quantifier count ∧
        (Lexeme.quantifier count).Readable
  | _, .asserted piece assertion =>
      piece.Lexed ∧ ∃ test, assertion.lexeme = .assertion test
  | _, .empty => True
  | _, .snoc pieces piece => pieces.Lexed ∧ piece.Lexed
  | _, .operand concat => concat.Lexed
  | _, .both operands separator concat =>
      operands.Lexed ∧ separator.lexeme = .conjunction ∧ concat.Lexed
  | _, .single branch => branch.Lexed
  | _, .either alternatives separator branch =>
      alternatives.Lexed ∧ separator.lexeme = .alternative ∧ branch.Lexed

/-! ### One token -/

namespace Lexeme

/-- Outside collections a literal is an atom. -/
theorem eq_literal {lexeme : Lexeme} (kind : lexeme.kind = .literal)
    (standsIn : lexeme.StandsIn none) : ∃ literal, lexeme = .literal literal := by
  cases lexeme with
  | literal literal => exact ⟨literal, rfl⟩
  | member member => exact standsIn.elim
  | _ => cases kind

/-- Inside a collection a literal is a member. -/
theorem eq_member {lexeme : Lexeme} {withBreak : Bool}
    (kind : lexeme.kind = .literal) (standsIn : lexeme.StandsIn (some withBreak)) :
    ∃ member, lexeme = .member member := by
  cases lexeme with
  | literal literal => exact standsIn.elim
  | member member => exact ⟨member, rfl⟩
  | _ => cases kind

/-- A collection closes as it was opened. -/
theorem eq_collectionClose {lexeme : Lexeme} {withBreak : Bool}
    (kind : lexeme.kind = .collectionClose)
    (standsIn : lexeme.StandsIn (some withBreak)) :
    lexeme = .collectionClose withBreak := by
  cases lexeme with
  | collectionClose closing => exact congrArg collectionClose standsIn
  | _ => cases kind

theorem eq_groupOpen {lexeme : Lexeme} (kind : lexeme.kind = .groupOpen) :
    ∃ sort, lexeme = .groupOpen sort := by
  cases lexeme with
  | groupOpen sort => exact ⟨sort, rfl⟩
  | _ => cases kind

theorem eq_collectionOpen {lexeme : Lexeme} (kind : lexeme.kind = .collectionOpen) :
    ∃ opening, lexeme = .collectionOpen opening := by
  cases lexeme with
  | collectionOpen opening => exact ⟨opening, rfl⟩
  | _ => cases kind

theorem eq_quantifier {lexeme : Lexeme} (kind : lexeme.kind = .quantifier) :
    ∃ count, lexeme = .quantifier count := by
  cases lexeme with
  | quantifier count => exact ⟨count, rfl⟩
  | _ => cases kind

theorem eq_assertion {lexeme : Lexeme} (kind : lexeme.kind = .assertion) :
    ∃ test, lexeme = .assertion test := by
  cases lexeme with
  | assertion test => exact ⟨test, rfl⟩
  | _ => cases kind

/-- A symbol that is written in one way only has one lexeme. -/
theorem eq_of_kind {lexeme only : Lexeme} (kind : lexeme.kind = only.kind)
    (among : only ∈
      [caret, dollar, conjunction, alternative, groupClose, optionalOpen,
        optionalClose]) : lexeme = only := by
  simp only [List.mem_cons, List.not_mem_nil, or_false] at among
  rcases among with rfl | rfl | rfl | rfl | rfl | rfl | rfl <;>
    cases lexeme <;> first | rfl | cases kind

end Lexeme

namespace Token

/-- A token that opens or closes no collection leaves the next one where it
is. -/
theorem Arranged.tail {token : Token} {others : List Token} {kind : Kind}
    (arranged : Arranged none (token :: others)) (same : token.kind = kind)
    (notOpening : kind ≠ .collectionOpen) : Arranged none others := by
  obtain ⟨_, _, rest⟩ := arranged
  rcases token with ⟨lexeme, raw, position, level⟩
  cases lexeme with
  | collectionOpen opening => exact absurd same.symm notOpening
  | _ => exact rest

/-- Members and then the end of a collection. -/
theorem Arranged.members {withBreak : Bool} {members others : List Token}
    {closer : Token}
    (arranged : Arranged (some withBreak) (members ++ closer :: others))
    (literals : ∀ token ∈ members, token.kind = .literal)
    (closes : closer.kind = .collectionClose) :
    (∀ token ∈ members, ∃ member,
      token.lexeme = .member member ∧ (Lexeme.member member).Readable) ∧
      closer.lexeme = .collectionClose withBreak ∧ Arranged none others := by
  induction members with
  | nil =>
      obtain ⟨_, standsIn, rest⟩ := arranged
      have closing := Lexeme.eq_collectionClose closes standsIn
      rw [closing] at rest
      exact ⟨nofun, closing, rest⟩
  | cons token members inductionHypothesis =>
      obtain ⟨literal, literals⟩ := List.forall_mem_cons.1 literals
      obtain ⟨readable, standsIn, rest⟩ := arranged
      obtain ⟨member, same⟩ := Lexeme.eq_member literal standsIn
      rw [same] at readable rest
      obtain ⟨inside, closing, behind⟩ := inductionHypothesis rest literals
      exact
        ⟨List.forall_mem_cons.2 ⟨⟨member, same, readable⟩, inside⟩, closing, behind⟩

end Token

/-! ### Trees -/

/-- A kinded tree whose tokens stand at the start of an arranged row is lexed, and
what stands behind them is arranged as well. -/
theorem Tree.lexed_of_arranged {rank : Rank} {tree : Tree rank}
    (kinded : tree.Kinded) {behind : List Token}
    (arranged : Token.Arranged none (tree.tokens ++ behind)) :
    tree.Lexed ∧ Token.Arranged none behind := by
  induction tree generalizing behind with
  | literal token =>
      obtain ⟨readable, standsIn, rest⟩ := arranged
      obtain ⟨literal, same⟩ := Lexeme.eq_literal kinded standsIn
      rw [same] at readable rest
      exact ⟨⟨literal, same, readable⟩, rest⟩
  | anchor token place =>
      rcases kinded with kind | kind
      · exact
          ⟨.inl (Lexeme.eq_of_kind kind (by simp)),
            arranged.tail kind (by decide)⟩
      · exact
          ⟨.inr (Lexeme.eq_of_kind kind (by simp)),
            arranged.tail kind (by decide)⟩
  | group opener body closer bodyLexed =>
      obtain ⟨opens, inside, closes⟩ := kinded
      simp only [tokens, List.cons_append, List.append_assoc, List.nil_append]
        at arranged
      obtain ⟨lexed, rest⟩ := bodyLexed inside (arranged.tail opens (by decide))
      exact
        ⟨⟨Lexeme.eq_groupOpen opens, lexed, Lexeme.eq_of_kind closes (by simp)⟩,
          rest.tail closes (by decide)⟩
  | collection opener members closer =>
      obtain ⟨opens, literals, closes⟩ := kinded
      simp only [tokens, List.cons_append, List.append_assoc, List.nil_append]
        at arranged
      obtain ⟨opening, same⟩ := Lexeme.eq_collectionOpen opens
      obtain ⟨_, _, rest⟩ := arranged
      rw [same] at rest
      obtain ⟨inside, closing, behindArranged⟩ :=
        Token.Arranged.members rest literals closes
      exact ⟨⟨⟨opening, same, closing⟩, inside⟩, behindArranged⟩
  | optional opener pieces closer piecesLexed =>
      obtain ⟨opens, inside, nonempty, closes⟩ := kinded
      simp only [tokens, List.cons_append, List.append_assoc, List.nil_append]
        at arranged
      obtain ⟨lexed, rest⟩ :=
        piecesLexed inside (arranged.tail opens (by decide))
      exact
        ⟨⟨Lexeme.eq_of_kind opens (by simp), lexed, nonempty,
            Lexeme.eq_of_kind closes (by simp)⟩,
          rest.tail closes (by decide)⟩
  | bare atom atomLexed => exact atomLexed kinded arranged
  | quantified atom quantifier atomLexed =>
      obtain ⟨core, kind⟩ := kinded
      simp only [tokens, List.append_assoc, List.cons_append, List.nil_append]
        at arranged
      obtain ⟨lexed, rest⟩ := atomLexed core arranged
      obtain ⟨count, same⟩ := Lexeme.eq_quantifier kind
      have readable := rest.1
      rw [same] at readable
      exact ⟨⟨lexed, count, same, readable⟩, rest.tail kind (by decide)⟩
  | asserted piece assertion pieceLexed =>
      obtain ⟨core, kind⟩ := kinded
      simp only [tokens, List.append_assoc, List.cons_append, List.nil_append]
        at arranged
      obtain ⟨lexed, rest⟩ := pieceLexed core arranged
      exact
        ⟨⟨lexed, Lexeme.eq_assertion kind⟩, rest.tail kind (by decide)⟩
  | empty => exact ⟨trivial, arranged⟩
  | snoc pieces piece piecesLexed pieceLexed =>
      obtain ⟨front, last⟩ := kinded
      simp only [tokens, List.append_assoc] at arranged
      obtain ⟨frontLexed, rest⟩ := piecesLexed front arranged
      obtain ⟨lastLexed, rest⟩ := pieceLexed last rest
      exact ⟨⟨frontLexed, lastLexed⟩, rest⟩
  | operand concat concatLexed => exact concatLexed kinded arranged
  | both operands separator concat operandsLexed concatLexed =>
      obtain ⟨front, kind, last⟩ := kinded
      simp only [tokens, List.append_assoc, List.cons_append] at arranged
      obtain ⟨frontLexed, rest⟩ := operandsLexed front arranged
      obtain ⟨lastLexed, rest⟩ :=
        concatLexed last (rest.tail kind (by decide))
      exact ⟨⟨frontLexed, Lexeme.eq_of_kind kind (by simp), lastLexed⟩, rest⟩
  | single branch branchLexed => exact branchLexed kinded arranged
  | either alternatives separator branch alternativesLexed branchLexed =>
      obtain ⟨front, kind, last⟩ := kinded
      simp only [tokens, List.append_assoc, List.cons_append] at arranged
      obtain ⟨frontLexed, rest⟩ := alternativesLexed front arranged
      obtain ⟨lastLexed, rest⟩ :=
        branchLexed last (rest.tail kind (by decide))
      exact ⟨⟨frontLexed, Lexeme.eq_of_kind kind (by simp), lastLexed⟩, rest⟩

/-- The tree of a pattern is lexed. -/
theorem Tree.lexed_ofScan {level : Magicness} {pattern : String} {grown : Grown}
    (complete : Tree.ofScan (Scan.ofPattern level pattern) = .ok grown) :
    grown.tree.Lexed := by
  obtain ⟨terminus, after, whole, _⟩ := Growth.takes_of_run_eq_ok complete
  have arranged := Scan.arranged_ofPattern whole
  rw [← Tree.tokens_ofScan complete, ← List.append_nil grown.tree.tokens] at arranged
  exact (Tree.lexed_of_arranged (Tree.kinded_ofScan complete) arranged).1

end VimPattern
