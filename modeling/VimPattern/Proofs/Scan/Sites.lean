/-
Module: VimPattern.Proofs.Scan.Sites
Purpose: Where in the text of a pattern its tokens stand.
Main exports:
  Scan.Remains, Scan.Reaches.remains, Token.Located, Scan.pairwise_position_ofPattern,
  Scan.located_ofPattern, Scan.exists_reaches_token
-/
import VimPattern.Proofs.Scan.Reach
import VimPattern.Proofs.Scan.Rules

namespace VimPattern

/-!
An offset means something only if it cuts the pattern between two characters.  Each place
that reading comes to does so, and the text behind it is the text that is left there.  So
every token stands at its offset with its spelling.
-/

namespace Scan

/-- This much of the pattern remains from this offset on, which cuts it between two
characters or is its end. -/
def Remains (pattern : String) (position : Nat) (rest : List Char) : Prop :=
  ∃ front, front ++ rest = pattern.toList ∧ byteLength front = position

variable {level : Magicness} {pattern : String}

/-- Behind characters that remain, the others remain. -/
theorem Remains.behind {position : Nat} {characters rest : List Char}
    (remains : Remains pattern position (characters ++ rest)) :
    Remains pattern (position + byteLength characters) rest := by
  obtain ⟨front, whole, rfl⟩ := remains
  exact ⟨front ++ characters, by rw [List.append_assoc, whole], byteLength_append _ _⟩

/-- What is left where reading comes to is what remains of the pattern. -/
theorem Reaches.remains {items : List Item} {context : Context} {position : Nat}
    {rest : List Char} (reaches : Reaches level pattern items context position rest) :
    Remains pattern position rest := by
  induction reaches with
  | start => exact ⟨[], rfl, rfl⟩
  | @item items context position char text content extra before verdict
      inductionHypothesis =>
      have split : char :: text = (char :: text.take extra) ++ text.drop extra := by
        rw [List.cons_append, List.take_append_drop]
      rw [split] at inductionHypothesis
      exact inductionHypothesis.behind

end Scan

/-! ### Tokens -/

/-- The token stands in the pattern: its spelling is found at its offset, and at its level
there is a rule for what it is. -/
structure Token.Located (pattern : String) (token : Token) : Prop where
  remains : ∃ rest, Scan.Remains pattern token.position (token.raw.toList ++ rest)
  spelled : ∃ context : Context, context.magicness = token.magicness ∧
    context.Spells token.raw.toList (.lexeme token.lexeme)

namespace Scan

variable {level : Magicness} {pattern : String} {items : List Item} {context : Context}
  {position : Nat} {rest : List Char} {scan : Scan}

/-- A token is located at the place where it is read. -/
theorem Reaches.located {char : Char} {text : List Char} {lexeme : Lexeme} {extra : Nat}
    (reaches : Reaches level pattern items context position (char :: text))
    (verdict : context.verdict char text = .item (.lexeme lexeme) extra) :
    Token.Located pattern
      { lexeme := lexeme
        raw := String.ofList (char :: text.take extra)
        position := position
        magicness := context.magicness } where
  remains := by
    refine ⟨text.drop extra, ?_⟩
    rw [String.toList_ofList, List.cons_append, List.take_append_drop]
    exact reaches.remains
  spelled := by
    refine ⟨context, rfl, ?_⟩
    rw [String.toList_ofList]
    exact Context.spells_of_verdict verdict

/-- The tokens read on the way to a place are located. -/
theorem Reaches.forall_located (reaches : Reaches level pattern items context position rest) :
    ∀ token ∈ items.filterMap Item.token?, token.Located pattern := by
  induction reaches with
  | start => simp
  | @item items context position char text content extra before verdict
      inductionHypothesis =>
      rw [List.filterMap_append, List.forall_mem_append]
      refine ⟨inductionHypothesis, ?_⟩
      cases content with
      | mark mark => simp [itemAt, Item.token?]
      | lexeme lexeme =>
          have single : [itemAt context (.lexeme lexeme) (char :: text.take extra)
              position].filterMap Item.token? = [_] := rfl
          rw [single, List.forall_mem_singleton]
          exact before.located verdict

/-- Nothing is read before the offset where reading starts. -/
theorem Reads.le_position (reads : Reads context position rest scan) :
    ∀ token ∈ scan.tokens, position ≤ token.position := by
  induction reads with
  | ended | fault | noRule => simp [tokens]
  | mark verdict _ inductionHypothesis =>
      intro token member
      exact Nat.le_trans (Nat.le_add_right _ _) (inductionHypothesis token member)
  | token verdict raw place level _ inductionHypothesis =>
      rw [tokens_cons_lexeme]
      refine List.forall_mem_cons.2 ⟨Nat.le_of_eq place.symm, ?_⟩
      intro token member
      exact Nat.le_trans (Nat.le_add_right _ _) (inductionHypothesis token member)

/-- Tokens stand behind those that are read before them. -/
theorem Reads.pairwise_position (reads : Reads context position rest scan) :
    scan.tokens.Pairwise fun earlier later => earlier.position < later.position := by
  induction reads with
  | ended | fault | noRule => simp [tokens]
  | mark _ _ inductionHypothesis => exact inductionHypothesis
  | @token context position char text token extra scan verdict raw place level rest
      inductionHypothesis =>
      rw [tokens_cons_lexeme]
      refine List.pairwise_cons.2 ⟨?_, inductionHypothesis⟩
      intro later member
      have behind := rest.le_position later member
      have wide := char.utf8Size_pos
      rw [byteLength_cons] at behind
      omega

/-! ### Whole patterns -/

/-- The tokens of a pattern stand in the order of their offsets. -/
theorem pairwise_position_ofPattern (level : Magicness) (pattern : String) :
    (ofPattern level pattern).tokens.Pairwise
      fun earlier later => earlier.position < later.position :=
  (reads_ofPattern level pattern).pairwise_position

/-- The tokens of a pattern are located. -/
theorem located_ofPattern (level : Magicness) (pattern : String) :
    ∀ token ∈ (ofPattern level pattern).tokens, token.Located pattern := by
  obtain ⟨_, _, _, reaches, _⟩ := exists_stop level pattern
  exact reaches.forall_located

/-- Reading a pattern comes to a place right before each of its tokens. -/
theorem exists_reaches_token {before others : List Token} {token : Token}
    (tokens : (ofPattern level pattern).tokens = before ++ token :: others) :
    ∃ items context char text extra,
      Reaches level pattern items context token.position (char :: text) ∧
        items.filterMap Item.token? = before ∧
          context.verdict char text = .item (.lexeme token.lexeme) extra ∧
            token.raw = String.ofList (char :: text.take extra) ∧
              token.magicness = context.magicness := by
  obtain ⟨_, _, _, reaches, _⟩ := exists_stop level pattern
  obtain ⟨first, second, split, rfl, later⟩ := List.filterMap_eq_append_iff.1 tokens
  obtain ⟨skipped, item, after, rfl, silent, itself, _⟩ := List.filterMap_eq_cons_iff.1 later
  rw [split, ← List.append_assoc] at reaches
  obtain ⟨context, position, char, text, content, extra, comes, verdict, rfl⟩ :=
    reaches.exists_item rfl
  cases content with
  | mark mark => cases itself
  | lexeme lexeme =>
      cases itself
      refine ⟨_, context, char, text, extra, comes, ?_, verdict, rfl, rfl⟩
      rw [List.filterMap_append, List.filterMap_eq_nil_iff.2 silent, List.append_nil]

end Scan

end VimPattern
