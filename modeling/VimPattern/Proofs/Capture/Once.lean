/-
Module: VimPattern.Proofs.Capture.Once
Purpose: When every capturing group of a tree is written exactly once and in its place.
Main exports:
  Tree.openers, Tree.Kinded.filter_tokens, Tree.GroupsLast, Tree.Unled,
  Tree.flatten_captured_eq_iff
-/
import Mathlib.Data.List.Induction
import VimPattern.Proofs.Capture.Sources
import VimPattern.Proofs.Tree.Parts

namespace VimPattern

open Target

/-!
An optional sequence of several pieces writes all of them but the last more than
once.  So the openings that a tree is written with are those it has exactly when no
optional sequence has a capturing group before its last piece, and no capturing
group loses its parenthesis to a question mark.  That each opening occurs only once
in a tree is what makes this an equivalence.
-/

/-! ### Copies -/

section

variable {α : Type}

@[simp] theorem copies_nil : copies ([] : List (List α)) = [] := rfl

/-- A longer list of parts is copied as a whole and then without its last part. -/
theorem copies_concat (parts : List (List α)) (last : List α) :
    copies (parts ++ [last]) = parts.flatten ++ last ++ copies parts := by
  rw [copies, leadingStretches_concat, List.map_cons, List.flatten_cons,
    List.flatten_append, List.flatten_singleton, copies]

/-- Everything is copied, and nothing else. -/
theorem mem_copies {parts : List (List α)} {element : α} :
    element ∈ copies parts ↔ element ∈ parts.flatten := by
  induction parts using List.reverseRecOn with
  | nil => simp
  | append_singleton parts last inductionHypothesis =>
      rw [copies_concat, List.mem_append, inductionHypothesis, List.flatten_append,
        List.flatten_singleton, List.mem_append]
      constructor
      · rintro (whole | early)
        · exact whole
        · exact .inl early
      · exact .inl

/-- Of nothing there are no copies. -/
theorem copies_eq_nil {parts : List (List α)} (none : parts.flatten = []) :
    copies parts = [] := by
  apply List.eq_nil_iff_forall_not_mem.2
  intro element copied
  rw [mem_copies, none] at copied
  cases copied

/-- Where nothing occurs twice, only the last part can have anything. -/
theorem flatten_eq_nil_of_nodup_copies {parts : List (List α)} {last : List α}
    (nodup : (copies (parts ++ [last])).Nodup) : parts.flatten = [] := by
  rw [copies_concat, List.append_assoc] at nodup
  apply List.eq_nil_iff_forall_not_mem.2
  intro element among
  have again : element ∈ last ++ copies parts :=
    List.mem_append_right last (mem_copies.2 among)
  exact (List.nodup_append.1 nodup).2.2 element among element again rfl

theorem append_subset_append {early late front back : List α} (first : early ⊆ front)
    (second : late ⊆ back) : early ++ late ⊆ front ++ back :=
  List.append_subset.2
    ⟨List.subset_append_of_subset_left _ first,
      List.subset_append_of_subset_right _ second⟩

/-- Two lists side by side are other two if each is, where the others have nothing in
common that would let them be cut differently. -/
theorem append_eq_append_iff_of_subset {early late front back : List α}
    (first : early ⊆ front) (second : late ⊆ back)
    (apart : ∀ element ∈ front, element ∉ back) :
    early ++ late = front ++ back ↔ early = front ∧ late = back := by
  constructor
  · intro same
    rcases List.append_eq_append_iff.1 same with ⟨more, rfl, rfl⟩ | ⟨more, rfl, rfl⟩
    · have none : more = [] := by
        apply List.eq_nil_iff_forall_not_mem.2
        intro element among
        exact apart element (List.mem_append_right _ among)
          (second (List.mem_append_left _ among))
      simp [none]
    · have none : more = [] := by
        apply List.eq_nil_iff_forall_not_mem.2
        intro element among
        exact apart element (first (List.mem_append_right _ among))
          (List.mem_append_left _ among)
      simp [none]
  · rintro ⟨rfl, rfl⟩
    rfl

end

/-! ### Openings -/

/-- The openings of the capturing groups of a pattern. -/
def Scan.openers (scan : Scan) : List Token :=
  scan.tokens.filter Token.opensCapture

namespace Tree

/-- The openings of the capturing groups of a tree. -/
def openers : {rank : Rank} → Tree rank → List Token
  | _, .literal _ => []
  | _, .anchor _ _ => []
  | _, .group opener body _ =>
      (if opener.opensCapture then [opener] else []) ++ body.openers
  | _, .collection _ _ _ => []
  | _, .optional _ pieces _ => pieces.openers
  | _, .bare atom => atom.openers
  | _, .quantified atom _ => atom.openers
  | _, .asserted piece _ => piece.openers
  | _, .empty => []
  | _, .snoc pieces piece => pieces.openers ++ piece.openers
  | _, .operand concat => concat.openers
  | _, .both operands _ concat => operands.openers ++ concat.openers
  | _, .single branch => branch.openers
  | _, .either alternatives _ branch => alternatives.openers ++ branch.openers

/-- The pieces before the last one. -/
def front : Tree .concat → Tree .concat
  | .empty => .empty
  | .snoc pieces _ => pieces

/-- In every optional sequence only the last piece has capturing groups. -/
def GroupsLast : {rank : Rank} → Tree rank → Prop
  | _, .literal _ => True
  | _, .anchor _ _ => True
  | _, .group _ body _ => body.GroupsLast
  | _, .collection _ _ _ => True
  | _, .optional _ pieces _ => pieces.front.openers = [] ∧ pieces.GroupsLast
  | _, .bare atom => atom.GroupsLast
  | _, .quantified atom _ => atom.GroupsLast
  | _, .asserted piece _ => piece.GroupsLast
  | _, .empty => True
  | _, .snoc pieces piece => pieces.GroupsLast ∧ piece.GroupsLast
  | _, .operand concat => concat.GroupsLast
  | _, .both operands _ concat => operands.GroupsLast ∧ concat.GroupsLast
  | _, .single branch => branch.GroupsLast
  | _, .either alternatives _ branch => alternatives.GroupsLast ∧ branch.GroupsLast

/-- Whether groups come last can be computed. -/
def decideGroupsLast : {rank : Rank} → (tree : Tree rank) → Decidable tree.GroupsLast
  | _, .literal _ => .isTrue trivial
  | _, .anchor _ _ => .isTrue trivial
  | _, .group _ body _ => body.decideGroupsLast
  | _, .collection _ _ _ => .isTrue trivial
  | _, .optional _ pieces _ =>
      @instDecidableAnd _ _ (instDecidableEqList _ _) pieces.decideGroupsLast
  | _, .bare atom => atom.decideGroupsLast
  | _, .quantified atom _ => atom.decideGroupsLast
  | _, .asserted piece _ => piece.decideGroupsLast
  | _, .empty => .isTrue trivial
  | _, .snoc pieces piece =>
      @instDecidableAnd _ _ pieces.decideGroupsLast piece.decideGroupsLast
  | _, .operand concat => concat.decideGroupsLast
  | _, .both operands _ concat =>
      @instDecidableAnd _ _ operands.decideGroupsLast concat.decideGroupsLast
  | _, .single branch => branch.decideGroupsLast
  | _, .either alternatives _ branch =>
      @instDecidableAnd _ _ alternatives.decideGroupsLast branch.decideGroupsLast

instance {rank : Rank} (tree : Tree rank) : Decidable tree.GroupsLast :=
  tree.decideGroupsLast

/-- The text of no capturing group begins with a question mark. -/
def Unled (style : Style) : {rank : Rank} → Tree rank → Prop
  | _, .literal _ => True
  | _, .anchor _ _ => True
  | _, .group opener body _ =>
      (opener.opensCapture → ¬Led (body.text style)) ∧ body.Unled style
  | _, .collection _ _ _ => True
  | _, .optional _ pieces _ => pieces.Unled style
  | _, .bare atom => atom.Unled style
  | _, .quantified atom _ => atom.Unled style
  | _, .asserted piece _ => piece.Unled style
  | _, .empty => True
  | _, .snoc pieces piece => pieces.Unled style ∧ piece.Unled style
  | _, .operand concat => concat.Unled style
  | _, .both operands _ concat => operands.Unled style ∧ concat.Unled style
  | _, .single branch => branch.Unled style
  | _, .either alternatives _ branch => alternatives.Unled style ∧ branch.Unled style

end Tree

/-- Only the opening of a group opens a capturing one. -/
theorem Token.opensCapture_eq_false {token : Token} {kind : Kind}
    (same : token.kind = kind) (other : kind ≠ .groupOpen) :
    token.opensCapture = false := by
  rcases token with ⟨lexeme, raw, position, level⟩
  cases lexeme with
  | groupOpen sort => exact absurd same.symm other
  | _ => rfl

namespace Tree

/-- The openings of a kinded tree are those among its tokens. -/
theorem Kinded.filter_tokens {rank : Rank} {tree : Tree rank} (kinded : tree.Kinded) :
    tree.tokens.filter Token.opensCapture = tree.openers := by
  induction tree with
  | literal token =>
      simp [tokens, openers, Token.opensCapture_eq_false kinded]
  | anchor token place =>
      rcases kinded with kind | kind <;>
        simp [tokens, openers, Token.opensCapture_eq_false kind]
  | group opener body closer bodyEq =>
      obtain ⟨_, inside, closes⟩ := kinded
      by_cases captures : opener.opensCapture
      · simp [tokens, openers, captures, bodyEq inside, Token.opensCapture_eq_false closes]
      · simp [tokens, openers, captures, bodyEq inside, Token.opensCapture_eq_false closes]
  | collection opener members closer =>
      obtain ⟨opens, literals, closes⟩ := kinded
      have none : ∀ token ∈ members, token.opensCapture = false :=
        fun token among => Token.opensCapture_eq_false (literals token among) (by decide)
      simpa [tokens, openers, Token.opensCapture_eq_false opens,
        Token.opensCapture_eq_false closes] using none
  | optional opener pieces closer piecesEq =>
      obtain ⟨opens, inside, _, closes⟩ := kinded
      simp [tokens, openers, piecesEq inside, Token.opensCapture_eq_false opens,
        Token.opensCapture_eq_false closes]
  | bare atom atomEq => exact atomEq kinded
  | quantified atom quantifier atomEq =>
      simp [tokens, openers, atomEq kinded.1, Token.opensCapture_eq_false kinded.2]
  | asserted piece assertion pieceEq =>
      simp [tokens, openers, pieceEq kinded.1, Token.opensCapture_eq_false kinded.2]
  | empty => rfl
  | snoc pieces piece piecesEq pieceEq =>
      simp [tokens, openers, piecesEq kinded.1, pieceEq kinded.2]
  | operand concat concatEq => exact concatEq kinded
  | both operands separator concat operandsEq concatEq =>
      simp [tokens, openers, operandsEq kinded.1, concatEq kinded.2.2,
        Token.opensCapture_eq_false kinded.2.1]
  | single branch branchEq => exact branchEq kinded
  | either alternatives separator branch alternativesEq branchEq =>
      simp [tokens, openers, alternativesEq kinded.1, branchEq kinded.2.2,
        Token.opensCapture_eq_false kinded.2.1]

/-! ### Written once -/

variable {style : Style}

variable (style) in
/-- Nothing is written but openings of the tree. -/
theorem flatten_captured_subset {rank : Rank} (tree : Tree rank) :
    (tree.captured style).flatten ⊆ tree.openers := by
  induction tree with
  | literal token => simp [captured]
  | anchor token place => simp [captured]
  | group opener body closer bodySubset =>
      rw [captured, List.flatten_singleton, openers]
      apply List.append_subset.2
      constructor
      · by_cases captures : opener.opensCapture
        · by_cases led : Led (body.text style)
          · simp [led]
          · simp [captures, led]
        · simp [captures]
      · exact List.subset_append_of_subset_right _ bodySubset
  | collection opener members closer => simp [captured]
  | optional opener pieces closer piecesSubset =>
      rw [captured, List.flatten_singleton, openers]
      intro token among
      exact piecesSubset (mem_copies.1 among)
  | bare atom atomSubset => exact atomSubset
  | quantified atom quantifier atomSubset =>
      rw [captured, List.flatten_singleton, openers]
      exact atomSubset
  | asserted piece assertion pieceSubset =>
      rw [captured, List.flatten_singleton, openers]
      exact pieceSubset
  | empty => exact List.nil_subset _
  | snoc pieces piece piecesSubset pieceSubset =>
      rw [captured, List.flatten_append, openers]
      exact append_subset_append piecesSubset pieceSubset
  | operand concat concatSubset =>
      rw [captured, List.flatten_singleton, openers]
      exact concatSubset
  | both operands separator concat operandsSubset concatSubset =>
      rw [captured, List.flatten_append, List.flatten_singleton, openers]
      exact append_subset_append operandsSubset concatSubset
  | single branch branchSubset =>
      rw [captured, List.flatten_singleton, openers]
      exact branchSubset
  | either alternatives separator branch alternativesSubset branchSubset =>
      rw [captured, List.flatten_append, List.flatten_singleton, openers]
      exact append_subset_append alternativesSubset branchSubset

/-- Trees side by side are written with their openings exactly when each of them is. -/
theorem append_captured_eq_iff {first second : Rank} {early : Tree first}
    {late : Tree second} (nodup : (early.openers ++ late.openers).Nodup)
    {earlyGood lateGood : Prop}
    (earlyEq : (early.captured style).flatten = early.openers ↔ earlyGood)
    (lateEq : (late.captured style).flatten = late.openers ↔ lateGood) :
    (early.captured style).flatten ++ (late.captured style).flatten =
        early.openers ++ late.openers ↔
      earlyGood ∧ lateGood := by
  have apart : ∀ token ∈ early.openers, token ∉ late.openers := by
    intro token among again
    exact (List.nodup_append.1 nodup).2.2 token among token again rfl
  rw [append_eq_append_iff_of_subset (flatten_captured_subset style early)
    (flatten_captured_subset style late) apart, earlyEq, lateEq]

/-- A piece is written as one part. -/
theorem captured_piece (piece : Tree .piece) :
    piece.captured style = [(piece.captured style).flatten] := by
  have one : ∃ only, piece.captured style = [only] := by
    cases piece with
    | bare atom => cases atom <;> exact ⟨_, rfl⟩
    | quantified atom quantifier => exact ⟨_, rfl⟩
    | asserted piece assertion => exact ⟨_, rfl⟩
  obtain ⟨only, same⟩ := one
  rw [same, List.flatten_singleton]

/-- An optional sequence is written with its openings exactly when its pieces are and
none but the last has any. -/
theorem copies_captured_eq_iff (pieces : Tree .concat) (nodup : pieces.openers.Nodup) :
    copies (pieces.captured style) = pieces.openers ↔
      pieces.front.openers = [] ∧ (pieces.captured style).flatten = pieces.openers := by
  cases pieces with
  | empty => exact ⟨fun _ => ⟨rfl, rfl⟩, fun _ => rfl⟩
  | snoc early last =>
      change
        copies (early.captured style ++ last.captured style) =
            early.openers ++ last.openers ↔
          early.openers = [] ∧
            (early.captured style ++ last.captured style).flatten =
              early.openers ++ last.openers
      rw [captured_piece last, List.flatten_append, List.flatten_singleton]
      constructor
      · intro same
        have once : (copies (early.captured style ++ [(last.captured style).flatten])).Nodup := by
          rw [same]
          exact nodup
        have nothing := flatten_eq_nil_of_nodup_copies once
        rw [copies_concat, copies_eq_nil nothing, List.append_nil] at same
        refine ⟨?_, same⟩
        -- What the pieces before the last one open is written with the last one.
        apply List.eq_nil_iff_forall_not_mem.2
        intro token among
        have written : token ∈ (last.captured style).flatten := by
          rw [nothing, List.nil_append] at same
          rw [same]
          exact List.mem_append_left _ among
        have again := flatten_captured_subset style last written
        exact (List.nodup_append.1 nodup).2.2 token among token again rfl
      · rintro ⟨none, same⟩
        have nothing : (early.captured style).flatten = [] := by
          apply List.subset_nil.1
          rw [← none]
          exact flatten_captured_subset style early
        rw [copies_concat, copies_eq_nil nothing, List.append_nil, same]

/-- A group is written with its openings exactly when its body is and its own
parenthesis captures. -/
theorem captured_group_eq_iff {opener closer : Token} {body : Tree .pattern}
    (nodup : (group opener body closer).openers.Nodup) :
    ((group opener body closer).captured style).flatten =
        (group opener body closer).openers ↔
      (opener.opensCapture → ¬Led (body.text style)) ∧
        (body.captured style).flatten = body.openers := by
  rw [captured, List.flatten_singleton, openers]
  by_cases captures : opener.opensCapture
  · rw [openers, if_pos captures] at nodup
    have fresh : opener ∉ body.openers := (List.nodup_cons.1 nodup).1
    by_cases led : Led (body.text style)
    · have unlike : (body.captured style).flatten ≠ opener :: body.openers := by
        intro same
        apply fresh
        apply flatten_captured_subset style body
        rw [same]
        exact .head _
      simp [captures, led, unlike]
    · simp [captures, led]
  · simp [captures]

/-- A tree in which no opening occurs twice is written with exactly its openings, in
their order, if and only if its optional sequences have groups only in their last
pieces and no group begins with a question mark. -/
theorem flatten_captured_eq_iff {rank : Rank} (tree : Tree rank)
    (nodup : tree.openers.Nodup) :
    (tree.captured style).flatten = tree.openers ↔
      tree.GroupsLast ∧ tree.Unled style := by
  induction tree with
  | literal token => exact ⟨fun _ => ⟨trivial, trivial⟩, fun _ => rfl⟩
  | anchor token place => exact ⟨fun _ => ⟨trivial, trivial⟩, fun _ => rfl⟩
  | group opener body closer bodyEq =>
      have inside : body.openers.Nodup := by
        rw [openers] at nodup
        exact (List.nodup_append.1 nodup).2.1
      rw [captured_group_eq_iff nodup, bodyEq inside, GroupsLast, Unled, and_left_comm]
  | collection opener members closer => exact ⟨fun _ => ⟨trivial, trivial⟩, fun _ => rfl⟩
  | optional opener pieces closer piecesEq =>
      rw [captured, List.flatten_singleton, openers, copies_captured_eq_iff pieces nodup,
        piecesEq nodup, GroupsLast, Unled, and_assoc]
  | bare atom atomEq => exact atomEq nodup
  | quantified atom quantifier atomEq =>
      rw [captured, List.flatten_singleton]
      exact atomEq nodup
  | asserted piece assertion pieceEq =>
      rw [captured, List.flatten_singleton]
      exact pieceEq nodup
  | empty => exact ⟨fun _ => ⟨trivial, trivial⟩, fun _ => rfl⟩
  | snoc pieces piece piecesEq pieceEq =>
      obtain ⟨front, last, _⟩ := List.nodup_append.1 nodup
      rw [captured, List.flatten_append, openers,
        append_captured_eq_iff nodup (piecesEq front) (pieceEq last), GroupsLast, Unled,
        and_and_and_comm]
  | operand concat concatEq =>
      rw [captured, List.flatten_singleton]
      exact concatEq nodup
  | both operands separator concat operandsEq concatEq =>
      obtain ⟨front, last, _⟩ := List.nodup_append.1 nodup
      rw [captured, List.flatten_append, List.flatten_singleton, openers,
        append_captured_eq_iff nodup (operandsEq front) (concatEq last), GroupsLast, Unled,
        and_and_and_comm]
  | single branch branchEq =>
      rw [captured, List.flatten_singleton]
      exact branchEq nodup
  | either alternatives separator branch alternativesEq branchEq =>
      obtain ⟨front, last, _⟩ := List.nodup_append.1 nodup
      rw [captured, List.flatten_append, List.flatten_singleton, openers,
        append_captured_eq_iff nodup (alternativesEq front) (branchEq last), GroupsLast,
        Unled, and_and_and_comm]

end Tree

end VimPattern
