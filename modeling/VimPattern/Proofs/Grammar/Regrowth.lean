/-
Module: VimPattern.Proofs.Grammar.Regrowth
Purpose: The tokens of a kinded tree grow into that tree again.
Main exports:
  Tree.unplaced, Growth.Ready, Growth.Regrows, Growth.Regrowable, Growth.regrowable,
  Tree.ofScan_eq_ok
-/
import VimPattern.Proofs.Grammar.Kinds

namespace VimPattern

/-!
The grammar is unambiguous: a growth that takes the tokens of a kinded tree takes
all of them, and what it holds then is that tree.  Only the places of anchors are
not in the tree's own hands, since they depend on what stands around it, so the
trees are compared without them.
-/

/-- The tree with every anchor put at an edge. -/
@[simp] def Tree.unplaced : {rank : Rank} → Tree rank → Tree rank
  | _, .literal token => .literal token
  | _, .anchor token _ => .anchor token .edge
  | _, .group opener body closer => .group opener body.unplaced closer
  | _, .collection opener members closer => .collection opener members closer
  | _, .optional opener pieces closer => .optional opener pieces.unplaced closer
  | _, .bare atom => .bare atom.unplaced
  | _, .quantified atom quantifier => .quantified atom.unplaced quantifier
  | _, .asserted piece assertion => .asserted piece.unplaced assertion
  | _, .empty => .empty
  | _, .snoc pieces piece => .snoc pieces.unplaced piece.unplaced
  | _, .operand concat => .operand concat.unplaced
  | _, .both operands separator concat =>
      .both operands.unplaced separator concat.unplaced
  | _, .single branch => .single branch.unplaced
  | _, .either alternatives separator branch =>
      .either alternatives.unplaced separator branch.unplaced

/-- A sequence of pieces stays empty or not without its places. -/
theorem Tree.unplaced_eq_empty_iff {pieces : Tree .concat} :
    pieces.unplaced = .empty ↔ pieces = .empty := by
  cases pieces <;> simp [unplaced]

namespace Growth

/-- The growth is where a stretch of this rank can start. -/
def Ready (growth : Growth) : Rank → Prop
  | .pattern => growth.draft? = some {}
  | .branch =>
      ∃ alternatives, growth.draft? = some { alternatives := alternatives }
  | .concat => growth.pieces = .empty
  | .piece | .atom => True

/-- One growth has become the other by growing a tree that equals this one up to
places. -/
def Regrows (growth after : Growth) : {rank : Rank} → Tree rank → Prop
  | .pattern, tree =>
      ∃ draft ends, draft.pattern.unplaced = tree.unplaced ∧
        after = (growth.withDraft draft).noting ends
  | .branch, tree =>
      ∃ draft ends, growth.draft?.map Draft.alternatives = some draft.alternatives ∧
        draft.branch.unplaced = tree.unplaced ∧
          after = (growth.withDraft draft).noting ends
  | .concat, tree =>
      ∃ pieces ends, pieces.unplaced = tree.unplaced ∧
        after = (growth.withPieces pieces).noting ends
  | .piece, tree =>
      ∃ piece ends, piece.unplaced = tree.unplaced ∧
        after = (growth.withPieces (.snoc growth.pieces piece)).noting ends
  | .atom, tree =>
      ∃ atom ends, atom.unplaced = tree.unplaced ∧
        after = (growth.add atom).noting ends

/-- Members of a collection are taken one by one. -/
theorem takes_members (behind : Option Token) (growth : Growth) {opener : Token}
    {members : List Token} (inside : growth.collection = some (opener, members))
    (others : List Token) (literals : ∀ token ∈ others, token.kind = .literal) :
    Takes behind growth others
      { growth with collection := some (opener, members ++ others) } := by
  induction others generalizing growth members with
  | nil =>
      rw [List.append_nil, ← inside]
      exact .done growth
  | cons token others inductionHypothesis =>
      obtain ⟨literal, literals⟩ := List.forall_mem_cons.1 literals
      have rest :=
        inductionHypothesis
          { growth with collection := some (opener, members ++ [token]) } rfl literals
      refine .step (.member inside literal) ?_
      simpa using rest

/-- A collection is taken as one more piece. -/
theorem takes_collection (behind : Option Token) {growth : Growth} {opener closer : Token}
    {members : List Token} (outside : growth.collection = none)
    (opens : opener.kind = .collectionOpen)
    (literals : ∀ token ∈ members, token.kind = .literal)
    (closes : closer.kind = .collectionClose) :
    Takes behind growth (opener :: (members ++ [closer]))
      (growth.add (.collection opener members closer)) := by
  have opened : Step growth opener ((members ++ [closer]).head?.or behind) _ :=
    .collectionOpen outside opens
  have taken :=
    takes_members (some closer) { growth with collection := some (opener, []) } rfl
      members literals
  have closed : Takes behind growth (opener :: (members ++ [closer])) _ :=
    .step opened (taken.append_cons (.collectionClose rfl closes) (.done _))
  have same : ({ growth with collection := none } : Growth) = growth := by
    rw [← outside]
  dsimp only at closed
  rwa [same] at closed

/-- Wherever a tree of its rank may begin, the tokens of the tree are taken, and the
growth then holds the tree. -/
def Regrowable {rank : Rank} (tree : Tree rank) : Prop :=
  ∀ (growth : Growth) (behind : Option Token), growth.collection = none →
    growth.Ready rank →
      ∃ after, Takes behind growth tree.tokens after ∧ Regrows growth after tree

/-! ### Atoms -/

theorem regrowable_literal {token : Token} (kind : token.kind = .literal) :
    Regrowable (.literal token) := by
  intro growth behind outside _
  have taken : Step growth token behind _ := .literal outside kind
  exact ⟨_, .single taken, .literal token, _, rfl, eq_noting (dollarEnds_add _ _)⟩

theorem regrowable_anchor {token : Token} (kind : token.kind = .caret ∨ token.kind = .dollar)
    (place : Place) : Regrowable (.anchor token place) := by
  intro growth behind outside _
  rcases kind with kind | kind
  · have taken : Step growth token behind _ := .caret outside kind
    exact
      ⟨_, .single taken, .anchor token growth.caretPlace, _, rfl,
        eq_noting (dollarEnds_add _ _)⟩
  · have taken : Step growth token behind _ := .dollar outside kind
    exact ⟨_, .single taken, .anchor token (dollarPlace behind), _, rfl, rfl⟩

theorem regrowable_group {opener closer : Token} {body : Tree .pattern}
    (opens : opener.kind = .groupOpen) (closes : closer.kind = .groupClose)
    (bodyTaken : Regrowable body) : Regrowable (.group opener body closer) := by
  intro growth behind outside _
  obtain ⟨middle, taken, draft, ends, same, rfl⟩ :=
    bodyTaken { growth with scopes := .group opener {} :: growth.scopes } (some closer)
      outside rfl
  have opened : Step growth opener ((body.tokens ++ [closer]).head?.or behind) _ :=
    .groupOpen outside opens
  refine
    ⟨_, .step opened (taken.append_cons (.groupClose outside closes rfl) (.done _)),
      .group opener draft.pattern closer, ends, ?_, ?_⟩
  · simp [same]
  · exact withPieces_noting growth ends _

theorem regrowable_collection {opener closer : Token} {members : List Token}
    (opens : opener.kind = .collectionOpen)
    (literals : ∀ token ∈ members, token.kind = .literal)
    (closes : closer.kind = .collectionClose) :
    Regrowable (.collection opener members closer) := by
  intro growth behind outside _
  exact
    ⟨_, takes_collection behind outside opens literals closes,
      .collection opener members closer, growth.dollarEnds, rfl,
      eq_noting (dollarEnds_add growth _)⟩

theorem regrowable_optional {opener closer : Token} {pieces : Tree .concat}
    (opens : opener.kind = .optionalOpen) (nonempty : pieces ≠ .empty)
    (closes : closer.kind = .optionalClose) (piecesTaken : Regrowable pieces) :
    Regrowable (.optional opener pieces closer) := by
  intro growth behind outside _
  obtain ⟨middle, taken, grown, ends, same, rfl⟩ :=
    piecesTaken { growth with scopes := .optional opener .empty :: growth.scopes }
      (some closer) outside rfl
  have opened : Step growth opener ((pieces.tokens ++ [closer]).head?.or behind) _ :=
    .optionalOpen outside opens
  have grownNonempty : grown ≠ .empty := by
    rwa [ne_eq, ← Tree.unplaced_eq_empty_iff, same, Tree.unplaced_eq_empty_iff]
  refine
    ⟨_,
      .step opened
        (taken.append_cons (.optionalClose outside closes rfl grownNonempty) (.done _)),
      .optional opener grown closer, ends, ?_, ?_⟩
  · simp [same]
  · exact withPieces_noting growth ends _

/-! ### Pieces and concatenations -/

theorem regrowable_bare {atom : Tree .atom} (atomTaken : Regrowable atom) :
    Regrowable (.bare atom) := by
  intro growth behind outside _
  obtain ⟨after, taken, core, ends, same, grown⟩ :=
    atomTaken growth behind outside trivial
  exact ⟨after, taken, .bare core, ends, congrArg Tree.bare same, grown⟩

theorem regrowable_quantified {atom : Tree .atom} {quantifier : Token}
    (kind : quantifier.kind = .quantifier) (atomTaken : Regrowable atom) :
    Regrowable (.quantified atom quantifier) := by
  intro growth behind outside _
  obtain ⟨middle, taken, core, ends, same, rfl⟩ :=
    atomTaken growth (some quantifier) outside trivial
  have repeated : Step ((growth.add core).noting ends) quantifier behind _ :=
    .quantifier (by simpa using outside) kind (pieces_add growth core)
  refine
    ⟨_, taken.append_cons repeated (.done _), .quantified core quantifier, ends, ?_, ?_⟩
  · simp [same]
  · simp [add]

theorem regrowable_asserted {piece : Tree .piece} {assertion : Token}
    (kind : assertion.kind = .assertion) (pieceTaken : Regrowable piece) :
    Regrowable (.asserted piece assertion) := by
  intro growth behind outside _
  obtain ⟨middle, taken, core, ends, same, rfl⟩ :=
    pieceTaken growth (some assertion) outside trivial
  have asserted :
      Step ((growth.withPieces (.snoc growth.pieces core)).noting ends) assertion behind _ :=
    .assertion (by simpa using outside) kind (pieces_withPieces growth _)
  refine
    ⟨_, taken.append_cons asserted (.done _), .asserted core assertion, ends, ?_, ?_⟩
  · simp [same]
  · simp

theorem regrowable_empty : Regrowable .empty := by
  intro growth behind _ (ready : growth.pieces = .empty)
  refine ⟨growth, .done growth, .empty, growth.dollarEnds, rfl, ?_⟩
  rw [← ready, withPieces_pieces, noting_dollarEnds]

theorem regrowable_snoc {pieces : Tree .concat} {piece : Tree .piece}
    (piecesTaken : Regrowable pieces) (pieceTaken : Regrowable piece) :
    Regrowable (.snoc pieces piece) := by
  intro growth behind outside ready
  obtain ⟨middle, early, front, ends, frontSame, rfl⟩ :=
    piecesTaken growth (piece.tokens.head?.or behind) outside ready
  obtain ⟨after, late, last, finish, lastSame, rfl⟩ :=
    pieceTaken ((growth.withPieces front).noting ends) behind (by simpa using outside)
      trivial
  refine ⟨_, early.append late, .snoc front last, finish, ?_, ?_⟩
  · simp [frontSame, lastSame]
  · simp

/-! ### Branches and patterns -/

theorem regrowable_operand {concat : Tree .concat} (concatTaken : Regrowable concat) :
    Regrowable (.operand concat) := by
  intro growth behind outside ready
  obtain ⟨alternatives, drafting⟩ := ready
  obtain ⟨after, taken, pieces, ends, same, rfl⟩ :=
    concatTaken growth behind outside (pieces_eq_of_draft? drafting)
  refine
    ⟨_, taken, { alternatives := alternatives, pieces := pieces }, ends, ?_, ?_, ?_⟩
  · simp [drafting]
  · simp [Draft.branch, same]
  · rw [withPieces_eq_withDraft drafting]

theorem regrowable_both {operands : Tree .branch} {separator : Token}
    {concat : Tree .concat} (kind : separator.kind = .conjunction)
    (operandsTaken : Regrowable operands) (concatTaken : Regrowable concat) :
    Regrowable (.both operands separator concat) := by
  intro growth behind outside ready
  obtain ⟨middle, early, draft, ends, sameDraft, same, rfl⟩ :=
    operandsTaken growth (some separator) outside ready
  obtain ⟨alternatives, drafting⟩ := ready
  have drafted : ((growth.withDraft draft).noting ends).draft? = some draft :=
    draft?_withDraft drafting draft
  have conjoined := draft?_withDraft drafted (draft.conjoin separator)
  obtain ⟨after, late, pieces, finish, pieceSame, rfl⟩ :=
    concatTaken _ behind (by simpa using outside) (pieces_eq_of_draft? conjoined)
  refine
    ⟨_, early.append_cons (.conjunction (by simpa using outside) kind drafted) late,
      { draft.conjoin separator with pieces := pieces }, finish, ?_, ?_, ?_⟩
  · simpa [Draft.conjoin] using sameDraft
  · change (Tree.both draft.branch separator pieces).unplaced = _
    simp [same, pieceSame]
  · rw [withPieces_eq_withDraft conjoined]
    simp

theorem regrowable_single {branch : Tree .branch} (branchTaken : Regrowable branch) :
    Regrowable (.single branch) := by
  intro growth behind outside (ready : growth.draft? = some {})
  obtain ⟨after, taken, draft, ends, sameDraft, same, grown⟩ :=
    branchTaken growth behind outside ⟨none, ready⟩
  refine ⟨after, taken, draft, ends, ?_, grown⟩
  have alone : draft.alternatives = none := by
    rw [ready] at sameDraft
    exact (Option.some.inj sameDraft).symm
  rw [Draft.pattern, alone]
  simp [same]

theorem regrowable_either {alternatives : Tree .pattern} {separator : Token}
    {branch : Tree .branch} (kind : separator.kind = .alternative)
    (alternativesTaken : Regrowable alternatives) (branchTaken : Regrowable branch) :
    Regrowable (.either alternatives separator branch) := by
  intro growth behind outside ready
  obtain ⟨middle, early, draft, ends, same, rfl⟩ :=
    alternativesTaken growth (some separator) outside ready
  have drafted : ((growth.withDraft draft).noting ends).draft? = some draft :=
    draft?_withDraft ready draft
  have alternated := draft?_withDraft drafted (draft.alternate separator)
  obtain ⟨after, late, last, finish, sameDraft, lastSame, rfl⟩ :=
    branchTaken _ behind (by simpa using outside) ⟨_, alternated⟩
  refine
    ⟨_, early.append_cons (.alternative (by simpa using outside) kind drafted) late,
      last, finish, ?_, ?_⟩
  · rw [alternated] at sameDraft
    have front : last.alternatives = some (draft.pattern, separator) :=
      (Option.some.inj sameDraft).symm
    rw [Draft.pattern, front]
    simp [lastSame, same]
  · simp

/-! ### Whole trees -/

/-- A growth takes the tokens of a kinded tree, and then holds that tree. -/
theorem regrowable {rank : Rank} (tree : Tree rank) (kinded : tree.Kinded) :
    Regrowable tree := by
  induction tree with
  | literal token => exact regrowable_literal kinded
  | anchor token place => exact regrowable_anchor kinded place
  | group opener body closer bodyTaken =>
      obtain ⟨opens, inside, closes⟩ := kinded
      exact regrowable_group opens closes (bodyTaken inside)
  | collection opener members closer =>
      obtain ⟨opens, literals, closes⟩ := kinded
      exact regrowable_collection opens literals closes
  | optional opener pieces closer piecesTaken =>
      obtain ⟨opens, inside, nonempty, closes⟩ := kinded
      exact regrowable_optional opens nonempty closes (piecesTaken inside)
  | bare atom atomTaken => exact regrowable_bare (atomTaken kinded)
  | quantified atom quantifier atomTaken =>
      obtain ⟨core, kind⟩ := kinded
      exact regrowable_quantified kind (atomTaken core)
  | asserted piece assertion pieceTaken =>
      obtain ⟨core, kind⟩ := kinded
      exact regrowable_asserted kind (pieceTaken core)
  | empty => exact regrowable_empty
  | snoc pieces piece piecesTaken pieceTaken =>
      obtain ⟨early, late⟩ := kinded
      exact regrowable_snoc (piecesTaken early) (pieceTaken late)
  | operand concat concatTaken => exact regrowable_operand (concatTaken kinded)
  | both operands separator concat operandsTaken concatTaken =>
      obtain ⟨early, kind, late⟩ := kinded
      exact regrowable_both kind (operandsTaken early) (concatTaken late)
  | single branch branchTaken => exact regrowable_single (branchTaken kinded)
  | either alternatives separator branch alternativesTaken branchTaken =>
      obtain ⟨early, kind, late⟩ := kinded
      exact regrowable_either kind (alternativesTaken early) (branchTaken late)

end Growth

/-- A scan whose tokens are those of a kinded tree grows into that tree. -/
theorem Tree.ofScan_eq_ok {scan : Scan} {terminus : Terminus}
    (whole : scan.result = .ok terminus) {tree : Tree .pattern}
    (kinded : tree.Kinded) (same : scan.tokens = tree.tokens) :
    ∃ grown, Tree.ofScan scan = .ok grown ∧ grown.tree.unplaced = tree.unplaced ∧
      grown.context = terminus.context := by
  obtain ⟨after, taken, draft, ends, grows, rfl⟩ :=
    Growth.regrowable tree kinded {} ([] : List Token).head? rfl rfl
  refine
    ⟨{ tree := draft.pattern
       dollarEnds := ends
       context := terminus.context }, ?_, grows, rfl⟩
  have ran : Growth.run (.ok terminus) {} 0 (tree.tokens ++ []) = _ :=
    Growth.Takes.run taken 0
  rw [List.append_nil] at ran
  rw [Tree.ofScan, whole, same, ran]
  rfl

end VimPattern
