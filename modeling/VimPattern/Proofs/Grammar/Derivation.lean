/-
Module: VimPattern.Proofs.Grammar.Derivation
Purpose: The grammar of patterns as a relation on terminal symbols, and its trees.
Main exports:
  Derives, Tree.Kinded, Tree.derives, Derives.exists_tree
-/
import VimPattern.Tree.Basic

namespace VimPattern

/-!
`Derives` is the grammar that heads `VimPattern.Tree.Basic`, one constructor for
each production, over bare terminal symbols.  A tree is kinded when every token
in it has the terminal symbol that its place calls for.  The two notions agree:
the tokens of a kinded tree are derivable, and tokens whose symbols are derivable
are the tokens of a kinded tree.
-/

/-- The grammar of patterns: the symbols form a stretch of this rank. -/
inductive Derives : Rank → List Kind → Prop where
  | literal : Derives .atom [.literal]
  | caret : Derives .atom [.caret]
  | dollar : Derives .atom [.dollar]
  | group {body : List Kind} (inside : Derives .pattern body) :
      Derives .atom (.groupOpen :: (body ++ [.groupClose]))
  | collection (members : Nat) :
      Derives .atom
        (.collectionOpen :: (List.replicate members .literal ++ [.collectionClose]))
  | optional {front last : List Kind} (pieces : Derives .concat front)
      (piece : Derives .piece last) :
      Derives .atom (.optionalOpen :: (front ++ last ++ [.optionalClose]))
  | piece {core : List Kind} (atom : Derives .atom core) (quantified : Bool)
      (assertions : Nat) :
      Derives .piece
        (core ++ (if quantified then [.quantifier] else []) ++
          List.replicate assertions .assertion)
  | empty : Derives .concat []
  | snoc {front last : List Kind} (pieces : Derives .concat front)
      (piece : Derives .piece last) : Derives .concat (front ++ last)
  | operand {symbols : List Kind} (concat : Derives .concat symbols) :
      Derives .branch symbols
  | both {front last : List Kind} (operands : Derives .branch front)
      (concat : Derives .concat last) :
      Derives .branch (front ++ .conjunction :: last)
  | single {symbols : List Kind} (branch : Derives .branch symbols) :
      Derives .pattern symbols
  | either {front last : List Kind} (alternatives : Derives .pattern front)
      (branch : Derives .branch last) :
      Derives .pattern (front ++ .alternative :: last)

/-- The terminal symbols of tokens. -/
def Token.kinds (tokens : List Token) : List Kind :=
  tokens.map kind

namespace Token

@[simp] theorem kinds_nil : kinds [] = [] := rfl

@[simp] theorem kinds_cons (token : Token) (others : List Token) :
    kinds (token :: others) = token.kind :: kinds others := rfl

@[simp] theorem kinds_append (front back : List Token) :
    kinds (front ++ back) = kinds front ++ kinds back := by
  simp [kinds]

/-- Symbols that split belong to tokens that split. -/
theorem kinds_eq_append {tokens : List Token} {front back : List Kind}
    (same : kinds tokens = front ++ back) :
    ∃ early late,
      tokens = early ++ late ∧ kinds early = front ∧ kinds late = back :=
  List.map_eq_append_iff.1 same

/-- A first symbol belongs to a first token. -/
theorem kinds_eq_cons {tokens : List Token} {first : Kind} {others : List Kind}
    (same : kinds tokens = first :: others) :
    ∃ token late,
      tokens = token :: late ∧ token.kind = first ∧ kinds late = others :=
  List.map_eq_cons_iff.1 same

/-- One symbol belongs to one token. -/
theorem kinds_eq_singleton {tokens : List Token} {only : Kind}
    (same : kinds tokens = [only]) : ∃ token, tokens = [token] ∧ token.kind = only :=
  List.map_eq_singleton_iff.1 same

/-- Symbols between two others belong to tokens between two others. -/
theorem kinds_eq_enclosed {tokens : List Token} {first last : Kind} {between : List Kind}
    (same : kinds tokens = first :: (between ++ [last])) :
    ∃ opener inner closer,
      tokens = opener :: (inner ++ [closer]) ∧ opener.kind = first ∧
        kinds inner = between ∧ closer.kind = last := by
  obtain ⟨opener, rest, rfl, opens, behind⟩ := kinds_eq_cons same
  obtain ⟨inner, outer, rfl, within, closing⟩ := kinds_eq_append behind
  obtain ⟨closer, rfl, closes⟩ := kinds_eq_singleton closing
  exact ⟨opener, inner, closer, rfl, opens, within, closes⟩

/-- Symbols on two sides of another belong to tokens on two sides of another. -/
theorem kinds_eq_separated {tokens : List Token} {middle : Kind} {front back : List Kind}
    (same : kinds tokens = front ++ middle :: back) :
    ∃ early separator late,
      tokens = early ++ separator :: late ∧ kinds early = front ∧
        separator.kind = middle ∧ kinds late = back := by
  obtain ⟨early, rest, rfl, before, behind⟩ := kinds_eq_append same
  obtain ⟨separator, late, rfl, separates, after⟩ := kinds_eq_cons behind
  exact ⟨early, separator, late, rfl, before, separates, after⟩

end Token

namespace Tree

/-- Every token of the tree has the terminal symbol that its place calls for, and
no optional sequence is empty. -/
def Kinded : {rank : Rank} → Tree rank → Prop
  | _, .literal token => token.kind = .literal
  | _, .anchor token _ => token.kind = .caret ∨ token.kind = .dollar
  | _, .group opener body closer =>
      opener.kind = .groupOpen ∧ body.Kinded ∧ closer.kind = .groupClose
  | _, .collection opener members closer =>
      opener.kind = .collectionOpen ∧ (∀ token ∈ members, token.kind = .literal) ∧
        closer.kind = .collectionClose
  | _, .optional opener pieces closer =>
      opener.kind = .optionalOpen ∧ pieces.Kinded ∧ pieces ≠ .empty ∧
        closer.kind = .optionalClose
  | _, .bare atom => atom.Kinded
  | _, .quantified atom quantifier => atom.Kinded ∧ quantifier.kind = .quantifier
  | _, .asserted piece assertion => piece.Kinded ∧ assertion.kind = .assertion
  | _, .empty => True
  | _, .snoc pieces piece => pieces.Kinded ∧ piece.Kinded
  | _, .operand concat => concat.Kinded
  | _, .both operands separator concat =>
      operands.Kinded ∧ separator.kind = .conjunction ∧ concat.Kinded
  | _, .single branch => branch.Kinded
  | _, .either alternatives separator branch =>
      alternatives.Kinded ∧ separator.kind = .alternative ∧ branch.Kinded

/-! ### From trees to derivations -/

/-- One more assertion behind a piece. -/
theorem derives_asserted {symbols : List Kind} (piece : Derives .piece symbols) :
    Derives .piece (symbols ++ [.assertion]) := by
  cases piece with
  | @piece core atom quantified assertions =>
      have longer := Derives.piece atom quantified (assertions + 1)
      rwa [List.replicate_succ', ← List.append_assoc] at longer

/-- The tokens of a kinded tree are derivable at its rank. -/
theorem derives :
    {rank : Rank} → (tree : Tree rank) → tree.Kinded →
      Derives rank (Token.kinds tree.tokens)
  | _, .literal token, kinded => by
      simp only [Kinded] at kinded
      simpa [tokens, kinded] using Derives.literal
  | _, .anchor token place, kinded => by
      rcases kinded with caret | dollar
      · simpa [tokens, caret] using Derives.caret
      · simpa [tokens, dollar] using Derives.dollar
  | _, .group opener body closer, kinded => by
      obtain ⟨opens, inside, closes⟩ := kinded
      simpa [tokens, opens, closes] using Derives.group (derives body inside)
  | _, .collection opener members closer, kinded => by
      obtain ⟨opens, literals, closes⟩ := kinded
      have members_eq :
          Token.kinds members = List.replicate members.length .literal := by
        rw [Token.kinds, List.map_eq_replicate_iff]
        exact literals
      simpa [tokens, opens, closes, members_eq] using
        Derives.collection members.length
  | _, .optional opener .empty closer, kinded => by
      exact absurd rfl kinded.2.2.1
  | _, .optional opener (.snoc pieces piece) closer, kinded => by
      obtain ⟨opens, ⟨front, last⟩, _, closes⟩ := kinded
      simpa [tokens, opens, closes] using
        Derives.optional (derives pieces front) (derives piece last)
  | _, .bare atom, kinded => by
      simpa [tokens] using Derives.piece (derives atom kinded) false 0
  | _, .quantified atom quantifier, kinded => by
      obtain ⟨core, repeats⟩ := kinded
      simpa [tokens, repeats] using Derives.piece (derives atom core) true 0
  | _, .asserted piece assertion, kinded => by
      obtain ⟨core, asserts⟩ := kinded
      simpa [tokens, asserts] using derives_asserted (derives piece core)
  | _, .empty, _ => Derives.empty
  | _, .snoc pieces piece, kinded => by
      obtain ⟨front, last⟩ := kinded
      simpa [tokens] using Derives.snoc (derives pieces front) (derives piece last)
  | _, .operand concat, kinded => Derives.operand (derives concat kinded)
  | _, .both operands separator concat, kinded => by
      obtain ⟨front, separates, last⟩ := kinded
      simpa [tokens, separates] using
        Derives.both (derives operands front) (derives concat last)
  | _, .single branch, kinded => Derives.single (derives branch kinded)
  | _, .either alternatives separator branch, kinded => by
      obtain ⟨front, separates, last⟩ := kinded
      simpa [tokens, separates] using
        Derives.either (derives alternatives front) (derives branch last)

/-! ### From derivations to trees -/

/-- Assertions behind a piece make it a longer piece. -/
theorem exists_asserted (piece : Tree .piece) (kinded : piece.Kinded)
    (assertions : List Token)
    (assert : Token.kinds assertions =
      List.replicate assertions.length .assertion) :
    ∃ longer : Tree .piece,
      longer.Kinded ∧ longer.tokens = piece.tokens ++ assertions := by
  induction assertions generalizing piece with
  | nil => exact ⟨piece, kinded, by simp⟩
  | cons assertion others inductionHypothesis =>
      rw [Token.kinds_cons, List.length_cons, List.replicate_succ,
        List.cons.injEq] at assert
      obtain ⟨longer, longerKinded, longerTokens⟩ :=
        inductionHypothesis (.asserted piece assertion) ⟨kinded, assert.1⟩ assert.2
      exact ⟨longer, longerKinded, by simp [longerTokens, tokens]⟩

end Tree

/-- Tokens whose symbols are derivable are the tokens of a kinded tree.  Places
play no part in the grammar, so that any will do. -/
theorem Derives.exists_tree {rank : Rank} {symbols : List Kind}
    (derivation : Derives rank symbols) :
    ∀ tokens, Token.kinds tokens = symbols →
      ∃ tree : Tree rank, tree.Kinded ∧ tree.tokens = tokens := by
  induction derivation with
  | literal =>
      intro tokens same
      obtain ⟨token, rfl, kind⟩ := Token.kinds_eq_singleton same
      exact ⟨.literal token, kind, rfl⟩
  | caret =>
      intro tokens same
      obtain ⟨token, rfl, kind⟩ := Token.kinds_eq_singleton same
      exact ⟨.anchor token .edge, .inl kind, rfl⟩
  | dollar =>
      intro tokens same
      obtain ⟨token, rfl, kind⟩ := Token.kinds_eq_singleton same
      exact ⟨.anchor token .edge, .inr kind, rfl⟩
  | group inside bodyTree =>
      intro tokens same
      obtain ⟨opener, inner, closer, rfl, opens, within, closes⟩ :=
        Token.kinds_eq_enclosed same
      obtain ⟨body, kinded, rfl⟩ := bodyTree inner within
      exact ⟨.group opener body closer, ⟨opens, kinded, closes⟩, rfl⟩
  | collection members =>
      intro tokens same
      obtain ⟨opener, inner, closer, rfl, opens, within, closes⟩ :=
        Token.kinds_eq_enclosed same
      refine ⟨.collection opener inner closer, ⟨opens, ?_, closes⟩, rfl⟩
      intro token member
      have kind : token.kind ∈ List.replicate members Kind.literal := by
        rw [← within]
        exact List.mem_map_of_mem member
      exact List.eq_of_mem_replicate kind
  | optional pieces piece piecesTree pieceTree =>
      intro tokens same
      obtain ⟨opener, inner, closer, rfl, opens, within, closes⟩ :=
        Token.kinds_eq_enclosed same
      obtain ⟨early, late, rfl, front, last⟩ := Token.kinds_eq_append within
      obtain ⟨earlyTree, earlyKinded, rfl⟩ := piecesTree early front
      obtain ⟨lateTree, lateKinded, rfl⟩ := pieceTree late last
      exact
        ⟨.optional opener (.snoc earlyTree lateTree) closer,
          ⟨opens, ⟨earlyKinded, lateKinded⟩, nofun, closes⟩, rfl⟩
  | piece atom quantified assertions atomTree =>
      intro tokens same
      obtain ⟨front, tests, rfl, before, asserts⟩ := Token.kinds_eq_append same
      obtain ⟨core, repeats, rfl, within, quantifies⟩ := Token.kinds_eq_append before
      obtain ⟨coreTree, coreKinded, rfl⟩ := atomTree core within
      have count : tests.length = assertions := by
        simpa [Token.kinds] using congrArg List.length asserts
      subst count
      cases quantified with
      | false =>
          obtain rfl : repeats = [] := List.map_eq_nil_iff.1 quantifies
          simpa [Tree.tokens] using
            Tree.exists_asserted (.bare coreTree) coreKinded tests asserts
      | true =>
          obtain ⟨quantifier, rfl, kind⟩ := Token.kinds_eq_singleton quantifies
          exact
            Tree.exists_asserted (.quantified coreTree quantifier)
              ⟨coreKinded, kind⟩ tests asserts
  | empty =>
      intro tokens same
      obtain rfl : tokens = [] := List.map_eq_nil_iff.1 same
      exact ⟨.empty, trivial, rfl⟩
  | snoc pieces piece piecesTree pieceTree =>
      intro tokens same
      obtain ⟨early, late, rfl, front, last⟩ := Token.kinds_eq_append same
      obtain ⟨earlyTree, earlyKinded, rfl⟩ := piecesTree early front
      obtain ⟨lateTree, lateKinded, rfl⟩ := pieceTree late last
      exact ⟨.snoc earlyTree lateTree, ⟨earlyKinded, lateKinded⟩, rfl⟩
  | operand concat concatTree =>
      intro tokens same
      obtain ⟨tree, kinded, rfl⟩ := concatTree tokens same
      exact ⟨.operand tree, kinded, rfl⟩
  | both operands concat operandsTree concatTree =>
      intro tokens same
      obtain ⟨early, separator, late, rfl, front, separates, last⟩ :=
        Token.kinds_eq_separated same
      obtain ⟨earlyTree, earlyKinded, rfl⟩ := operandsTree early front
      obtain ⟨lateTree, lateKinded, rfl⟩ := concatTree late last
      exact
        ⟨.both earlyTree separator lateTree,
          ⟨earlyKinded, separates, lateKinded⟩, rfl⟩
  | single branch branchTree =>
      intro tokens same
      obtain ⟨tree, kinded, rfl⟩ := branchTree tokens same
      exact ⟨.single tree, kinded, rfl⟩
  | either alternatives branch alternativesTree branchTree =>
      intro tokens same
      obtain ⟨early, separator, late, rfl, front, separates, last⟩ :=
        Token.kinds_eq_separated same
      obtain ⟨earlyTree, earlyKinded, rfl⟩ := alternativesTree early front
      obtain ⟨lateTree, lateKinded, rfl⟩ := branchTree late last
      exact
        ⟨.either earlyTree separator lateTree,
          ⟨earlyKinded, separates, lateKinded⟩, rfl⟩

end VimPattern
