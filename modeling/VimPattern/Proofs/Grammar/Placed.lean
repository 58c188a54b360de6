/-
Module: VimPattern.Proofs.Grammar.Placed
Purpose: Where the grown tree has put its carets and dollars, token by token.
Main exports:
  Tree.placed, Growth.placed, Growth.placeOf?, Growth.Step.placed_eq,
  Growth.Takes.exists_placed, Tree.exists_placed, Tree.exists_placed_caret,
  Tree.exists_placed_dollar
-/
import VimPattern.Proofs.Grammar.Step

namespace VimPattern

/-!
A tree remembers of each caret and each dollar the place it was given.  `placed` lists the
tokens of a tree with these places.  A step appends the token it takes; the place of a caret is
the one that the growth before it has for carets, and the place of a dollar follows from the
token after it.  So the place of each anchor in a finished tree can be asked of the growth that
had taken the tokens before it.
-/

/-- A token, and the place it has been given if it is an anchor. -/
abbrev Placed := Token × Option Place

/-- Tokens without a place. -/
def Token.unplaced (tokens : List Token) : List Placed :=
  tokens.map fun token => (token, none)

/-- The tokens of a tree with the places of its anchors. -/
def Tree.placed : {rank : Rank} → Tree rank → List Placed
  | _, .literal token => [(token, none)]
  | _, .anchor token place => [(token, some place)]
  | _, .group opener body closer => (opener, none) :: (body.placed ++ [(closer, none)])
  | _, .collection opener members closer =>
      (opener, none) :: (Token.unplaced members ++ [(closer, none)])
  | _, .optional opener pieces closer =>
      (opener, none) :: (pieces.placed ++ [(closer, none)])
  | _, .bare atom => atom.placed
  | _, .quantified atom quantifier => atom.placed ++ [(quantifier, none)]
  | _, .asserted piece assertion => piece.placed ++ [(assertion, none)]
  | _, .empty => []
  | _, .snoc pieces piece => pieces.placed ++ piece.placed
  | _, .operand concat => concat.placed
  | _, .both operands separator concat =>
      operands.placed ++ (separator, none) :: concat.placed
  | _, .single branch => branch.placed
  | _, .either alternatives separator branch =>
      alternatives.placed ++ (separator, none) :: branch.placed

/-! ### Drafts and scopes -/

namespace Draft

/-- The tokens of a draft with their places. -/
def placed (draft : Draft) : List Placed :=
  draft.pattern.placed

@[simp] theorem placed_new : ({} : Draft).placed = [] := rfl

/-- The current operand comes last in a draft. -/
theorem placed_pieces (draft : Draft) :
    ∃ front, ∀ pieces,
      ({ draft with pieces := pieces } : Draft).placed = front ++ pieces.placed := by
  rcases draft with ⟨_ | ⟨alternatives, outer⟩, _ | ⟨operands, inner⟩, pieces⟩
  · exact ⟨[], fun pieces => rfl⟩
  · exact ⟨operands.placed ++ [(inner, none)], fun pieces => by
      simp [placed, pattern, branch, Tree.placed]⟩
  · exact ⟨alternatives.placed ++ [(outer, none)], fun pieces => by
      simp [placed, pattern, branch, Tree.placed]⟩
  · exact ⟨alternatives.placed ++ (outer, none) :: (operands.placed ++ [(inner, none)]),
      fun pieces => by simp [placed, pattern, branch, Tree.placed]⟩

/-- A separator comes behind everything else. -/
theorem placed_conjoin (draft : Draft) (separator : Token) :
    (draft.conjoin separator).placed = draft.placed ++ [(separator, none)] := by
  rcases draft with ⟨_ | ⟨alternatives, outer⟩, operands, pieces⟩ <;>
    simp [conjoin, placed, pattern, branch, Tree.placed]

/-- A separator comes behind everything else. -/
theorem placed_alternate (draft : Draft) (separator : Token) :
    (draft.alternate separator).placed = draft.placed ++ [(separator, none)] := by
  simp [alternate, placed, pattern, branch, Tree.placed]

end Draft

/-- The tokens of an open construct with their places, its opening first. -/
def Scope.placed : Scope → List Placed
  | .group opener draft => (opener, none) :: draft.placed
  | .optional opener pieces => (opener, none) :: pieces.placed

/-! ### Growths -/

namespace Growth

/-- The tokens taken so far with their places, from the outermost construct to the
innermost. -/
def placed (growth : Growth) : List Placed :=
  growth.base.placed ++ growth.scopes.reverse.flatMap Scope.placed ++
    match growth.collection with
    | none => []
    | some (opener, members) => (opener, none) :: Token.unplaced members

@[simp] theorem placed_new : ({} : Growth).placed = [] := rfl

/-- Outside collections the pieces of the innermost construct come last. -/
theorem placed_pieces (growth : Growth) (outside : growth.collection = none) :
    ∃ front, growth.placed = front ++ growth.pieces.placed ∧
      ∀ pieces, (growth.withPieces pieces).placed = front ++ pieces.placed := by
  rcases growth with ⟨base, _ | ⟨⟨opener, draft⟩ | ⟨opener, inner⟩, outer⟩, collection, ends⟩
  · cases outside
    obtain ⟨front, all⟩ := base.placed_pieces
    refine ⟨front, ?_, ?_⟩
    · simpa [placed, pieces] using all base.pieces
    · simpa [placed, withPieces] using all
  · cases outside
    obtain ⟨front, all⟩ := draft.placed_pieces
    refine ⟨base.placed ++ outer.reverse.flatMap Scope.placed ++ (opener, none) :: front, ?_, ?_⟩
    · simpa [placed, pieces, Scope.placed] using all draft.pieces
    · intro pieces
      simp [placed, withPieces, Scope.placed, all]
  · cases outside
    refine ⟨base.placed ++ outer.reverse.flatMap Scope.placed ++ [(opener, none)], ?_, ?_⟩
    · simp [placed, pieces, Scope.placed]
    · intro pieces
      simp [placed, withPieces, Scope.placed]

/-- A new atom comes last. -/
theorem placed_add (growth : Growth) (outside : growth.collection = none)
    (atom : Tree .atom) : (growth.add atom).placed = growth.placed ++ atom.placed := by
  obtain ⟨front, same, all⟩ := growth.placed_pieces outside
  simp [add, all, same, Tree.placed]

/-- What changes the last piece by a token behind it comes last as well. -/
theorem placed_withPieces {growth : Growth} (outside : growth.collection = none)
    {pieces : Tree .concat} {added : List Placed}
    (changed : pieces.placed = growth.pieces.placed ++ added) :
    (growth.withPieces pieces).placed = growth.placed ++ added := by
  obtain ⟨front, same, all⟩ := growth.placed_pieces outside
  rw [all, same, changed, List.append_assoc]

/-- A separator comes behind everything else. -/
theorem placed_withDraft {growth : Growth} (outside : growth.collection = none)
    {draft renewed : Draft} (drafting : growth.draft? = some draft) {added : List Placed}
    (changed : renewed.placed = draft.placed ++ added) :
    (growth.withDraft renewed).placed = growth.placed ++ added := by
  rcases growth with ⟨base, _ | ⟨⟨opener, old⟩ | ⟨opener, inner⟩, outer⟩, collection, ends⟩
  · cases outside
    cases drafting
    simp [placed, withDraft, changed]
  · cases outside
    cases drafting
    simp [placed, withDraft, Scope.placed, changed]
  · cases drafting

/-- A construct that is closed takes its place behind what stands around it. -/
theorem placed_scopes {growth : Growth} {scope : Scope} {outer : List Scope}
    (outside : growth.collection = none) (scopes : growth.scopes = scope :: outer) :
    growth.placed = ({ growth with scopes := outer } : Growth).placed ++ scope.placed := by
  simp [placed, outside, scopes]

/-- The place that a step gives the token it takes.  Only anchors get one: a caret that for the
pieces before it, and a dollar that for the token after it. -/
def placeOf? (growth : Growth) (token : Token) (following : Option Token) : Option Place :=
  match token.kind with
  | .caret => some growth.caretPlace
  | .dollar => some (dollarPlace following)
  | _ => none

/-- A step appends the token it takes, at the place that there is for it. -/
theorem Step.placed_eq {growth after : Growth} {token : Token} {following : Option Token}
    (taken : Step growth token following after) :
    after.placed = growth.placed ++ [(token, growth.placeOf? token following)] := by
  unfold placeOf?
  cases taken with
  | @member opener members inside kind =>
      rw [kind]
      simp [placed, inside, Token.unplaced]
  | @collectionClose opener members inside kind =>
      rw [kind, placed_add _ rfl]
      simp [placed, inside, Tree.placed]
  | literal outside kind =>
      rw [kind]
      exact placed_add growth outside (.literal token)
  | caret outside kind =>
      rw [kind]
      exact placed_add growth outside (.anchor token growth.caretPlace)
  | dollar outside kind =>
      rw [kind]
      exact placed_add growth outside (.anchor token (dollarPlace following))
  | quantifier outside kind last =>
      rw [kind]
      apply placed_withPieces outside
      simp [last, Tree.placed]
  | assertion outside kind last =>
      rw [kind]
      apply placed_withPieces outside
      simp [last, Tree.placed]
  | @conjunction draft outside kind drafting =>
      rw [kind]
      exact placed_withDraft outside drafting (draft.placed_conjoin token)
  | @alternative draft outside kind drafting =>
      rw [kind]
      exact placed_withDraft outside drafting (draft.placed_alternate token)
  | groupOpen outside kind =>
      rw [kind]
      simp [placed, outside, Scope.placed]
  | groupClose outside kind scopes =>
      rw [kind, placed_add _ (by simpa using outside), placed_scopes outside scopes]
      simp [Scope.placed, Tree.placed, Draft.placed]
  | collectionOpen outside kind =>
      rw [kind]
      simp [placed, outside, Token.unplaced]
  | optionalOpen outside kind =>
      rw [kind]
      simp [placed, outside, Scope.placed, Tree.placed]
  | optionalClose outside kind scopes nonempty =>
      rw [kind, placed_add _ (by simpa using outside), placed_scopes outside scopes]
      simp [Scope.placed, Tree.placed]

/-- Taking tokens appends them. -/
theorem Takes.exists_placed {behind : Option Token} {growth after : Growth} {tokens : List Token}
    (takes : Takes behind growth tokens after) :
    ∃ added, after.placed = growth.placed ++ added ∧ added.map Prod.fst = tokens := by
  induction takes with
  | done => exact ⟨[], (List.append_nil _).symm, rfl⟩
  | @step growth middle after token others first _ inductionHypothesis =>
      obtain ⟨added, later, same⟩ := inductionHypothesis
      let entry : Placed := (token, growth.placeOf? token (others.head?.or behind))
      refine ⟨entry :: added, ?_, ?_⟩
      · rw [later, first.placed_eq, List.append_assoc]
        rfl
      · rw [List.map_cons, same]

/-- A finished tree has the tokens of its growth, at their places. -/
theorem placed_finish {growth : Growth} {position : Nat} {tree : Tree .pattern}
    (finished : growth.finish position = .ok tree) : tree.placed = growth.placed := by
  unfold finish at finished
  split at finished
  · next outside scopes =>
      cases finished
      simp [placed, outside, scopes, Draft.placed]
  · cases finished
  · cases finished

end Growth

/-- In a grown tree each token has the place that there was for it when the tokens before it
had been taken. -/
theorem Tree.exists_placed {scan : Scan} {grown : Grown}
    (complete : Tree.ofScan scan = .ok grown) {before others : List Token} {token : Token}
    (tokens : scan.tokens = before ++ token :: others) :
    ∃ growth next front back, Growth.Takes (some token) {} before growth ∧
      growth.Step token others.head? next ∧
        grown.tree.placed =
            front ++ (token, growth.placeOf? token others.head?) :: back ∧
          front.map Prod.fst = before ∧ back.map Prod.fst = others := by
  obtain ⟨terminus, after, _, takes, finished, _⟩ := Growth.takes_of_run_eq_ok complete
  rw [tokens] at takes
  obtain ⟨growth, next, early, taken, late⟩ := takes.exists_split
  rw [Option.or_none] at taken
  obtain ⟨front, placedFront, sameFront⟩ := early.exists_placed
  obtain ⟨back, placedBack, sameBack⟩ := late.exists_placed
  refine ⟨growth, next, front, back, early, taken, ?_, sameFront, sameBack⟩
  rw [Growth.placed_finish finished, placedBack, taken.placed_eq, placedFront]
  simp

/-- In a grown tree each caret has the place that the growth had for it when it had taken the
tokens before it. -/
theorem Tree.exists_placed_caret {scan : Scan} {grown : Grown}
    (complete : Tree.ofScan scan = .ok grown) {before others : List Token} {caret : Token}
    (tokens : scan.tokens = before ++ caret :: others) (kind : caret.kind = .caret) :
    ∃ growth front back, Growth.Takes (some caret) {} before growth ∧
      growth.collection = none ∧
        grown.tree.placed = front ++ (caret, some growth.caretPlace) :: back ∧
          front.map Prod.fst = before ∧ back.map Prod.fst = others := by
  obtain ⟨growth, next, front, back, early, taken, placed, same⟩ :=
    Tree.exists_placed complete tokens
  have outside : growth.collection = none := by
    cases taken with
    | caret outside _ => exact outside
    | _ => simp_all
  rw [Growth.placeOf?, kind] at placed
  exact ⟨growth, front, back, early, outside, placed, same⟩

/-- In a grown tree each dollar has the place that the token after it calls for. -/
theorem Tree.exists_placed_dollar {scan : Scan} {grown : Grown}
    (complete : Tree.ofScan scan = .ok grown) {before others : List Token} {dollar : Token}
    (tokens : scan.tokens = before ++ dollar :: others) (kind : dollar.kind = .dollar) :
    ∃ front back,
      grown.tree.placed =
          front ++ (dollar, some (Growth.dollarPlace others.head?)) :: back ∧
        front.map Prod.fst = before ∧ back.map Prod.fst = others := by
  obtain ⟨growth, _, front, back, _, _, placed, same⟩ := Tree.exists_placed complete tokens
  rw [Growth.placeOf?, kind] at placed
  exact ⟨front, back, placed, same⟩

end VimPattern
