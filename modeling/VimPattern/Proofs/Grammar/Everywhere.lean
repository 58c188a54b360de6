/-
Module: VimPattern.Proofs.Grammar.Everywhere
Purpose: Conditions between a piece and the pieces before it, in all trees of a growth.
Main exports:
  Tree.Everywhere, Draft.Everywhere, Scope.Everywhere, Growth.Everywhere,
  Growth.Everywhere.add, Growth.Everywhere.withPieces, Growth.everywhere_withPieces_iff,
  Growth.Step.everywhere_iff, Growth.everywhere_finish_iff
-/
import VimPattern.Proofs.Grammar.Step

namespace VimPattern

/-!
What a piece may be often depends on the pieces before it in its concatenation.  Such
a condition holds everywhere in a growth if it holds wherever a piece has been added,
and only the last piece of the innermost construct ever changes.
-/

/-- A condition on a piece, given the pieces before it. -/
abbrev Fitting := Tree .concat → Tree .piece → Prop

/-- Each piece of the tree fits the pieces before it. -/
def Tree.Everywhere (fits : Fitting) : {rank : Rank} → Tree rank → Prop
  | _, .literal _ => True
  | _, .anchor _ _ => True
  | _, .group _ body _ => body.Everywhere fits
  | _, .collection _ _ _ => True
  | _, .optional _ pieces _ => pieces.Everywhere fits
  | _, .bare atom => atom.Everywhere fits
  | _, .quantified atom _ => atom.Everywhere fits
  | _, .asserted piece _ => piece.Everywhere fits
  | _, .empty => True
  | _, .snoc pieces piece =>
      pieces.Everywhere fits ∧ piece.Everywhere fits ∧ fits pieces piece
  | _, .operand concat => concat.Everywhere fits
  | _, .both operands _ concat => operands.Everywhere fits ∧ concat.Everywhere fits
  | _, .single branch => branch.Everywhere fits
  | _, .either alternatives _ branch =>
      alternatives.Everywhere fits ∧ branch.Everywhere fits

/-- Each piece of the draft fits. -/
def Draft.Everywhere (fits : Fitting) (draft : Draft) : Prop :=
  draft.pattern.Everywhere fits

/-- Each piece of an open construct fits. -/
def Scope.Everywhere (fits : Fitting) : Scope → Prop
  | .group _ draft => draft.Everywhere fits
  | .optional _ pieces => pieces.Everywhere fits

variable {fits : Fitting}

namespace Draft

theorem everywhere_new : ({} : Draft).Everywhere fits := trivial

theorem everywhere_withPieces {draft : Draft} (all : draft.Everywhere fits)
    {pieces : Tree .concat} (piecesAll : pieces.Everywhere fits) :
    ({ draft with pieces := pieces } : Draft).Everywhere fits := by
  rcases draft with ⟨_ | ⟨alternatives, outer⟩, _ | ⟨operands, inner⟩, old⟩
  · exact piecesAll
  · exact ⟨all.1, piecesAll⟩
  · exact ⟨all.1, piecesAll⟩
  · exact ⟨all.1, all.2.1, piecesAll⟩

theorem Everywhere.pieces {draft : Draft} (all : draft.Everywhere fits) :
    draft.pieces.Everywhere fits := by
  rcases draft with ⟨_ | ⟨alternatives, outer⟩, _ | ⟨operands, inner⟩, old⟩
  · exact all
  · exact all.2
  · exact all.2
  · exact all.2.2

theorem Everywhere.conjoin {draft : Draft} (all : draft.Everywhere fits)
    (token : Token) : (draft.conjoin token).Everywhere fits := by
  rcases draft with ⟨_ | ⟨alternatives, outer⟩, operands, old⟩
  · exact ⟨all, trivial⟩
  · exact ⟨all.1, all.2, trivial⟩

theorem Everywhere.alternate {draft : Draft} (all : draft.Everywhere fits)
    (token : Token) : (draft.alternate token).Everywhere fits :=
  ⟨all, trivial⟩

theorem everywhere_of_conjoin {draft : Draft} {separator : Token}
    (all : (draft.conjoin separator).Everywhere fits) : draft.Everywhere fits := by
  rcases draft with ⟨_ | ⟨alternatives, outer⟩, operands, pieces⟩
  · exact all.1
  · exact ⟨all.1, all.2.1⟩

end Draft

namespace Growth

/-- Each piece that a growth holds fits. -/
structure Everywhere (fits : Fitting) (growth : Growth) : Prop where
  base : growth.base.Everywhere fits
  scopes : ∀ scope ∈ growth.scopes, scope.Everywhere fits

namespace Everywhere

theorem new : ({} : Growth).Everywhere fits where
  base := Draft.everywhere_new
  scopes := by simp

variable {growth : Growth}

theorem pieces (all : growth.Everywhere fits) : growth.pieces.Everywhere fits := by
  rcases growth with ⟨base, scopes, collection, dollarEnds⟩
  rcases scopes with _ | ⟨_ | _, outer⟩
  · exact all.base.pieces
  · exact Draft.Everywhere.pieces (all.scopes _ (.head _))
  · exact all.scopes _ (.head _)

/-- A construct may be put around the others, or taken away from them. -/
theorem withScopes (all : growth.Everywhere fits) {scopes : List Scope}
    (scopesAll : ∀ scope ∈ scopes, scope.Everywhere fits) :
    ({ growth with scopes := scopes } : Growth).Everywhere fits :=
  ⟨all.base, scopesAll⟩

theorem withPieces (all : growth.Everywhere fits) {pieces : Tree .concat}
    (piecesAll : pieces.Everywhere fits) :
    (growth.withPieces pieces).Everywhere fits := by
  obtain ⟨base, scopes⟩ := all
  rcases growth with ⟨_, _ | ⟨⟨opener, draft⟩ | ⟨opener, old⟩, outer⟩, _, _⟩
  · exact ⟨Draft.everywhere_withPieces base piecesAll, scopes⟩
  · obtain ⟨inside, outside⟩ := List.forall_mem_cons.1 scopes
    have renewed := Draft.everywhere_withPieces inside piecesAll
    exact ⟨base, List.forall_mem_cons.2 ⟨renewed, outside⟩⟩
  · obtain ⟨_, outside⟩ := List.forall_mem_cons.1 scopes
    exact ⟨base, List.forall_mem_cons.2 ⟨piecesAll, outside⟩⟩

theorem draft (all : growth.Everywhere fits) {draft : Draft}
    (drafting : growth.draft? = some draft) : draft.Everywhere fits := by
  rcases growth with ⟨base, scopes, collection, dollarEnds⟩
  rcases scopes with _ | ⟨_ | _, outer⟩ <;> cases drafting
  · exact all.base
  · exact all.scopes _ (.head _)

theorem withDraft (all : growth.Everywhere fits) {draft : Draft}
    (draftAll : draft.Everywhere fits) : (growth.withDraft draft).Everywhere fits := by
  obtain ⟨base, scopes⟩ := all
  rcases growth with ⟨_, _ | ⟨⟨opener, old⟩ | ⟨opener, old⟩, outer⟩, _, _⟩
  · exact ⟨draftAll, scopes⟩
  · obtain ⟨_, outside⟩ := List.forall_mem_cons.1 scopes
    exact ⟨base, List.forall_mem_cons.2 ⟨draftAll, outside⟩⟩
  · exact ⟨base, scopes⟩

theorem add (all : growth.Everywhere fits) {atom : Tree .atom}
    (atomAll : atom.Everywhere fits) (fitting : fits growth.pieces (.bare atom)) :
    (growth.add atom).Everywhere fits :=
  all.withPieces ⟨all.pieces, atomAll, fitting⟩

/-- The innermost construct and those around it. -/
theorem scopes_cons (all : growth.Everywhere fits) {scope : Scope}
    {outer : List Scope} (scopes : growth.scopes = scope :: outer) :
    scope.Everywhere fits ∧ ({ growth with scopes := outer } : Growth).Everywhere fits := by
  have both := all.scopes
  rw [scopes] at both
  obtain ⟨inside, outside⟩ := List.forall_mem_cons.1 both
  exact ⟨inside, all.withScopes outside⟩

/-- What is noted beside the trees does not matter. -/
theorem of_same {other : Growth} (all : growth.Everywhere fits)
    (base : other.base = growth.base) (scopes : other.scopes = growth.scopes) :
    other.Everywhere fits := by
  constructor
  · rw [base]
    exact all.base
  · rw [scopes]
    exact all.scopes

/-- Each piece of a finished tree fits. -/
theorem finish {position : Nat} {tree : Tree .pattern} (all : growth.Everywhere fits)
    (finished : growth.finish position = .ok tree) : tree.Everywhere fits := by
  unfold Growth.finish at finished
  split at finished
  · cases finished
    exact all.base
  · cases finished
  · cases finished

/-- Putting the old pieces back gives the old growth. -/
theorem of_withPieces {pieces : Tree .concat} (all : (growth.withPieces pieces).Everywhere fits)
    (old : growth.pieces.Everywhere fits) : growth.Everywhere fits := by
  have back := all.withPieces old
  rwa [withPieces_withPieces, withPieces_pieces] at back

/-- Putting the old draft back gives the old growth. -/
theorem of_withDraft {draft renewed : Draft} (drafting : growth.draft? = some draft)
    (all : (growth.withDraft renewed).Everywhere fits) (old : draft.Everywhere fits) :
    growth.Everywhere fits := by
  have back := all.withDraft old
  rw [withDraft_withDraft] at back
  rcases growth with ⟨base, _ | ⟨_ | _, outer⟩, collection, dollarEnds⟩ <;> cases drafting
  · exact back
  · exact back

end Everywhere

/-! ### What a step adds -/

variable {growth after : Growth} {token : Token} {following : Option Token}

/-- The constructs that are open are the innermost and those around it. -/
theorem everywhere_scopes_iff {scope : Scope} {outer : List Scope}
    (scopes : growth.scopes = scope :: outer) :
    growth.Everywhere fits ↔
      ({ growth with scopes := outer } : Growth).Everywhere fits ∧ scope.Everywhere fits := by
  constructor
  · intro all
    exact (all.scopes_cons scopes).symm
  · rintro ⟨others, inside⟩
    refine ⟨others.base, ?_⟩
    rw [scopes]
    exact List.forall_mem_cons.2 ⟨inside, others.scopes⟩

/-- What is noted beside the trees does not matter. -/
theorem everywhere_iff_of_same {other : Growth} (base : other.base = growth.base)
    (scopes : other.scopes = growth.scopes) :
    other.Everywhere fits ↔ growth.Everywhere fits :=
  ⟨fun all => all.of_same base.symm scopes.symm, fun all => all.of_same base scopes⟩

/-- Where the last piece is changed to one around the same trees, only that piece is new. -/
theorem everywhere_withPieces_iff {pieces : Tree .concat} {old new : Tree .piece}
    (last : growth.pieces = .snoc pieces old)
    (same : new.Everywhere fits ↔ old.Everywhere fits)
    (weaker : fits pieces new → fits pieces old) :
    (growth.withPieces (.snoc pieces new)).Everywhere fits ↔
      growth.Everywhere fits ∧ fits pieces new := by
  constructor
  · intro all
    have changed := all.pieces
    rw [pieces_withPieces] at changed
    obtain ⟨front, inside, fitting⟩ := changed
    exact ⟨all.of_withPieces (last ▸ ⟨front, same.1 inside, weaker fitting⟩), fitting⟩
  · rintro ⟨all, fitting⟩
    have unchanged := all.pieces
    rw [last] at unchanged
    exact all.withPieces ⟨unchanged.1, same.2 unchanged.2.1, fitting⟩

section

variable (bare : ∀ pieces atom, fits pieces (.bare atom))
include bare

/-- If a bare atom fits anywhere, adding one adds only what is inside. -/
theorem everywhere_add_iff (atom : Tree .atom) :
    (growth.add atom).Everywhere fits ↔ growth.Everywhere fits ∧ atom.Everywhere fits := by
  constructor
  · intro all
    have pieces := all.pieces
    rw [pieces_add] at pieces
    exact ⟨all.of_withPieces pieces.1, pieces.2.1⟩
  · exact fun ⟨all, inside⟩ => all.add inside (bare _ _)

/-- If a bare atom fits anywhere, a token that changes no piece leaves everything as it is. -/
theorem Step.everywhere_iff (taken : Step growth token following after)
    (quantifies : token.kind ≠ .quantifier) (asserts : token.kind ≠ .assertion) :
    after.Everywhere fits ↔ growth.Everywhere fits := by
  cases taken with
  | member inside kind => exact everywhere_iff_of_same rfl rfl
  | collectionClose inside kind =>
      have free : ({ growth with collection := none } : Growth).Everywhere fits ↔
          growth.Everywhere fits := everywhere_iff_of_same rfl rfl
      exact (everywhere_add_iff bare _).trans ((and_iff_left trivial).trans free)
  | literal outside kind => exact (everywhere_add_iff bare _).trans (and_iff_left trivial)
  | caret outside kind => exact (everywhere_add_iff bare _).trans (and_iff_left trivial)
  | dollar outside kind =>
      let atom : Tree .atom := .anchor token (dollarPlace following)
      have noted : (growth.addDollar token following).Everywhere fits ↔
          (growth.add atom).Everywhere fits := everywhere_iff_of_same rfl rfl
      exact noted.trans ((everywhere_add_iff bare atom).trans (and_iff_left trivial))
  | quantifier outside kind last => exact absurd kind quantifies
  | assertion outside kind last => exact absurd kind asserts
  | @conjunction draft outside kind drafting =>
      constructor
      · intro all
        have renewed := all.draft (draft?_withDraft drafting _)
        exact all.of_withDraft drafting (Draft.everywhere_of_conjoin renewed)
      · exact fun all => all.withDraft ((all.draft drafting).conjoin token)
  | @alternative draft outside kind drafting =>
      constructor
      · intro all
        have renewed := all.draft (draft?_withDraft drafting _)
        exact all.of_withDraft drafting renewed.1
      · exact fun all => all.withDraft ((all.draft drafting).alternate token)
  | groupOpen outside kind =>
      rw [everywhere_scopes_iff rfl]
      exact and_iff_left Draft.everywhere_new
  | groupClose outside kind scopes =>
      rw [everywhere_add_iff bare, everywhere_scopes_iff scopes]
      rfl
  | collectionOpen outside kind => exact everywhere_iff_of_same rfl rfl
  | optionalOpen outside kind =>
      rw [everywhere_scopes_iff rfl]
      exact and_iff_left trivial
  | optionalClose outside kind scopes nonempty =>
      rw [everywhere_add_iff bare, everywhere_scopes_iff scopes]
      rfl

end

/-- The pieces of a finished tree are those of its growth. -/
theorem everywhere_finish_iff {position : Nat} {tree : Tree .pattern}
    (finished : growth.finish position = .ok tree) :
    tree.Everywhere fits ↔ growth.Everywhere fits := by
  refine ⟨fun all => ?_, fun all => all.finish finished⟩
  unfold finish at finished
  split at finished
  · next outside scopes =>
      cases finished
      refine ⟨all, ?_⟩
      simp [scopes]
  · cases finished
  · cases finished

end Growth

end VimPattern
