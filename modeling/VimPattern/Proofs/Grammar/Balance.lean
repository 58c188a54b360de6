/-
Module: VimPattern.Proofs.Grammar.Balance
Purpose: What is open at each place among the tokens of a tree.
Main exports:
  Token.Balanced, Token.Balanced.enclosed, Token.Sheltered, Tree.Kinded.balanced
-/
import VimPattern.Proofs.Grammar.Unclosed

namespace VimPattern

/-!
Every construct of a tree brings the token that closes it.  So the tokens of a tree leave open
just what was open before them, and on the way they close none of that.  In particular an
optional sequence is open at each of the tokens that stand in it, also where a group stands
between the two.
-/

/-! ### Tokens -/

namespace Token

/-- What opens something is open behind it. -/
theorem unclosedAfter_of_opens {opener : Token}
    (opens : opener.kind ∈ [.groupOpen, .collectionOpen, .optionalOpen]) (opened : List Token) :
    unclosedAfter opened opener = opener :: opened := by
  simp only [List.mem_cons, List.not_mem_nil, or_false] at opens
  unfold unclosedAfter
  rcases opens with kind | kind | kind <;> rw [kind]

/-- What closes something closes the innermost of what is open. -/
theorem unclosedAfter_of_closes {closer : Token}
    (closes : closer.kind ∈ [.groupClose, .collectionClose, .optionalClose])
    (opened : List Token) : unclosedAfter opened closer = opened.drop 1 := by
  simp only [List.mem_cons, List.not_mem_nil, or_false] at closes
  unfold unclosedAfter
  rcases closes with kind | kind | kind <;> rw [kind]

/-- No other token changes what is open. -/
theorem unclosedAfter_of_other {token : Token}
    (other : token.kind ∈
      [.literal, .caret, .dollar, .quantifier, .assertion, .conjunction, .alternative])
    (opened : List Token) : unclosedAfter opened token = opened := by
  simp only [List.mem_cons, List.not_mem_nil, or_false] at other
  unfold unclosedAfter
  rcases other with kind | kind | kind | kind | kind | kind | kind <;> rw [kind]

/-- The tokens close what they open, and nothing that is open before them. -/
structure Balanced (tokens : List Token) : Prop where
  closed : ∀ opened, tokens.foldl unclosedAfter opened = opened
  kept : ∀ front back, tokens = front ++ back → ∀ opened, opened ⊆ front.foldl unclosedAfter opened

theorem balanced_nil : Balanced [] where
  closed _ := rfl
  kept := by
    intro front back split opened
    rw [(List.nil_eq_append_iff.1 split).1]
    exact List.Subset.refl _

/-- A token that opens and closes nothing is balanced. -/
theorem balanced_singleton {token : Token}
    (other : token.kind ∈
      [.literal, .caret, .dollar, .quantifier, .assertion, .conjunction, .alternative]) :
    Balanced [token] where
  closed := unclosedAfter_of_other other
  kept := by
    intro front back split opened
    cases front with
    | nil => exact List.Subset.refl _
    | cons first front =>
        obtain ⟨rfl, rest⟩ := List.cons_eq_cons.1 split
        rw [(List.nil_eq_append_iff.1 rest).1, List.foldl_cons, unclosedAfter_of_other other]
        exact List.Subset.refl _

theorem Balanced.append {early late : List Token} (first : Balanced early)
    (second : Balanced late) : Balanced (early ++ late) where
  closed opened := by rw [List.foldl_append, first.closed, second.closed]
  kept := by
    intro front back split opened
    rcases List.append_eq_append_iff.1 split with ⟨middle, rfl, rest⟩ | ⟨middle, whole, _⟩
    · rw [List.foldl_append, first.closed]
      exact second.kept middle back rest opened
    · exact first.kept front middle whole opened

/-- Between an opening and a closing the tokens stay balanced. -/
theorem Balanced.enclosed {tokens : List Token} (balanced : Balanced tokens)
    {opener closer : Token}
    (opens : opener.kind ∈ [.groupOpen, .collectionOpen, .optionalOpen])
    (closes : closer.kind ∈ [.groupClose, .collectionClose, .optionalClose]) :
    Balanced (opener :: (tokens ++ [closer])) where
  closed opened := by
    rw [List.foldl_cons, List.foldl_append, unclosedAfter_of_opens opens, balanced.closed,
      List.foldl_cons, unclosedAfter_of_closes closes]
    rfl
  kept := by
    intro front back split opened
    cases front with
    | nil => exact List.Subset.refl _
    | cons first front =>
        obtain ⟨rfl, rest⟩ := List.cons_eq_cons.1 split
        have inner : opened ⊆ opener :: opened := List.subset_cons_self _ _
        rw [List.foldl_cons, unclosedAfter_of_opens opens]
        rcases List.append_eq_append_iff.1 rest with ⟨middle, rfl, last⟩ | ⟨middle, whole, _⟩
        · rw [List.foldl_append, balanced.closed]
          cases middle with
          | nil => exact inner
          | cons token middle =>
              obtain ⟨rfl, none⟩ := List.cons_eq_cons.1 last
              rw [(List.nil_eq_append_iff.1 none).1, List.foldl_cons,
                unclosedAfter_of_closes closes]
              exact List.Subset.refl _
        · exact List.Subset.trans inner (balanced.kept front middle whole _)

/-- The token is among these tokens at a place where an optional sequence is open. -/
def Sheltered (tokens : List Token) (token : Token) : Prop :=
  ∃ before others, tokens = before ++ token :: others ∧
    ∀ opened, ∃ opener ∈ before.foldl unclosedAfter opened, opener.kind = .optionalOpen

theorem Sheltered.mem {tokens : List Token} {token : Token} (sheltered : Sheltered tokens token) :
    token ∈ tokens := by
  obtain ⟨before, others, rfl, _⟩ := sheltered
  exact List.mem_append_right _ (.head _)

/-- What stands around the tokens closes nothing that they leave open. -/
theorem Sheltered.around {tokens : List Token} {token : Token} (sheltered : Sheltered tokens token)
    (front back : List Token) : Sheltered (front ++ tokens ++ back) token := by
  obtain ⟨before, others, rfl, opens⟩ := sheltered
  refine ⟨front ++ before, others ++ back, by simp, ?_⟩
  intro opened
  rw [List.foldl_append]
  exact opens _

/-- Everything in an optional sequence is sheltered. -/
theorem Balanced.sheltered {tokens : List Token} (balanced : Balanced tokens)
    {opener token : Token} (opens : opener.kind = .optionalOpen) (among : token ∈ tokens)
    (closer : Token) : Sheltered (opener :: (tokens ++ [closer])) token := by
  obtain ⟨before, others, split⟩ := List.append_of_mem among
  refine ⟨opener :: before, others ++ [closer], by simp [split], ?_⟩
  intro opened
  refine ⟨opener, ?_, opens⟩
  rw [List.foldl_cons, unclosedAfter_of_opens (by simp [opens])]
  exact balanced.kept before _ split _ (.head _)

end Token

/-! ### Trees -/

/-- The tokens of a kinded tree are balanced. -/
theorem Tree.Kinded.balanced {rank : Rank} {tree : Tree rank} (kinded : tree.Kinded) :
    Token.Balanced tree.tokens := by
  induction tree with
  | literal token =>
      have kind : token.kind = .literal := kinded
      exact Token.balanced_singleton (by simp [kind])
  | anchor token place =>
      rcases kinded with kind | kind <;> exact Token.balanced_singleton (by simp [kind])
  | group opener body closer bodyBalanced =>
      obtain ⟨opens, inside, closes⟩ := kinded
      exact (bodyBalanced inside).enclosed (by simp [opens]) (by simp [closes])
  | collection opener members closer =>
      obtain ⟨opens, inside, closes⟩ := kinded
      have literals : Token.Balanced members := by
        induction members with
        | nil => exact Token.balanced_nil
        | cons member members inductionHypothesis =>
            obtain ⟨kind, rest⟩ := List.forall_mem_cons.1 inside
            have first : Token.Balanced [member] := Token.balanced_singleton (by simp [kind])
            exact first.append (inductionHypothesis rest)
      exact literals.enclosed (by simp [opens]) (by simp [closes])
  | optional opener pieces closer piecesBalanced =>
      obtain ⟨opens, inside, _, closes⟩ := kinded
      exact (piecesBalanced inside).enclosed (by simp [opens]) (by simp [closes])
  | bare atom atomBalanced => exact atomBalanced kinded
  | quantified atom quantifier atomBalanced =>
      obtain ⟨core, kind⟩ := kinded
      exact (atomBalanced core).append (Token.balanced_singleton (by simp [kind]))
  | asserted piece assertion pieceBalanced =>
      obtain ⟨core, kind⟩ := kinded
      exact (pieceBalanced core).append (Token.balanced_singleton (by simp [kind]))
  | empty => exact Token.balanced_nil
  | snoc pieces piece piecesBalanced pieceBalanced =>
      exact (piecesBalanced kinded.1).append (pieceBalanced kinded.2)
  | operand concat concatBalanced => exact concatBalanced kinded
  | both operands separator concat operandsBalanced concatBalanced =>
      obtain ⟨front, kind, back⟩ := kinded
      have between : Token.Balanced [separator] := Token.balanced_singleton (by simp [kind])
      exact (operandsBalanced front).append (between.append (concatBalanced back))
  | single branch branchBalanced => exact branchBalanced kinded
  | either alternatives separator branch alternativesBalanced branchBalanced =>
      obtain ⟨front, kind, back⟩ := kinded
      have between : Token.Balanced [separator] := Token.balanced_singleton (by simp [kind])
      exact (alternativesBalanced front).append (between.append (branchBalanced back))

end VimPattern
