/-
Module: VimPattern.Proofs.Grammar.Kinds
Purpose: The trees that a growth holds are kinded.
Main exports:
  Growth.Kinded, Growth.Kinded.step, Growth.Kinded.takes, Tree.kinded_ofScan
-/
import VimPattern.Proofs.Grammar.Derivation
import VimPattern.Proofs.Grammar.Step

namespace VimPattern

/-!
Every construct that is still open holds trees that are kinded so far.  A step
keeps this, so that a tree that has grown to its end is kinded as a whole.
-/

/-- The pattern of the draft is kinded as far as it goes. -/
def Draft.Kinded (draft : Draft) : Prop :=
  draft.pattern.Kinded

namespace Draft

theorem kinded_new : ({} : Draft).Kinded := trivial

/-- A draft is kinded when its finished part and its current operand are. -/
theorem kinded_withPieces {draft : Draft} (kinded : draft.Kinded)
    {pieces : Tree .concat} (piecesKinded : pieces.Kinded) :
    ({ draft with pieces := pieces } : Draft).Kinded := by
  rcases draft with ⟨_ | ⟨alternatives, outer⟩, _ | ⟨operands, inner⟩, old⟩
  · exact piecesKinded
  · exact ⟨kinded.1, kinded.2.1, piecesKinded⟩
  · exact ⟨kinded.1, kinded.2.1, piecesKinded⟩
  · exact ⟨kinded.1, kinded.2.1, kinded.2.2.1, kinded.2.2.2.1, piecesKinded⟩

theorem Kinded.pieces {draft : Draft} (kinded : draft.Kinded) :
    draft.pieces.Kinded := by
  rcases draft with ⟨_ | ⟨alternatives, outer⟩, _ | ⟨operands, inner⟩, old⟩
  · exact kinded
  · exact kinded.2.2
  · exact kinded.2.2
  · exact kinded.2.2.2.2

theorem Kinded.conjoin {draft : Draft} (kinded : draft.Kinded) {token : Token}
    (kind : token.kind = .conjunction) : (draft.conjoin token).Kinded := by
  rcases draft with ⟨_ | ⟨alternatives, outer⟩, operands, old⟩
  · exact ⟨kinded, kind, trivial⟩
  · exact ⟨kinded.1, kinded.2.1, kinded.2.2, kind, trivial⟩

theorem Kinded.alternate {draft : Draft} (kinded : draft.Kinded) {token : Token}
    (kind : token.kind = .alternative) : (draft.alternate token).Kinded :=
  ⟨kinded, kind, trivial⟩

end Draft

/-- The trees of an open construct are kinded. -/
def Scope.Kinded : Scope → Prop
  | .group opener draft => opener.kind = .groupOpen ∧ draft.Kinded
  | .optional opener pieces => opener.kind = .optionalOpen ∧ pieces.Kinded

namespace Growth

/-- Everything that a growth holds is kinded. -/
structure Kinded (growth : Growth) : Prop where
  base : growth.base.Kinded
  scopes : ∀ scope ∈ growth.scopes, scope.Kinded
  collection :
    ∀ opener members, growth.collection = some (opener, members) →
      opener.kind = .collectionOpen ∧ ∀ token ∈ members, token.kind = .literal

namespace Kinded

/-- Nothing is kinded. -/
theorem new : ({} : Growth).Kinded where
  base := Draft.kinded_new
  scopes := by simp
  collection := by simp

theorem pieces {growth : Growth} (kinded : growth.Kinded) :
    growth.pieces.Kinded := by
  rcases growth with ⟨base, scopes, collection, dollarEnds⟩
  rcases scopes with _ | ⟨_ | _, outer⟩
  · exact kinded.base.pieces
  · exact (kinded.scopes _ (.head _)).2.pieces
  · exact (kinded.scopes _ (.head _)).2

theorem withPieces {growth : Growth} (kinded : growth.Kinded)
    {pieces : Tree .concat} (piecesKinded : pieces.Kinded) :
    (growth.withPieces pieces).Kinded := by
  obtain ⟨base, scopes, collection⟩ := kinded
  rcases growth with ⟨_, _ | ⟨⟨opener, draft⟩ | ⟨opener, old⟩, outer⟩, _, _⟩
  · exact ⟨Draft.kinded_withPieces base piecesKinded, scopes, collection⟩
  · obtain ⟨⟨opens, inside⟩, outside⟩ := List.forall_mem_cons.1 scopes
    refine ⟨base, List.forall_mem_cons.2 ⟨⟨opens, ?_⟩, outside⟩, collection⟩
    exact Draft.kinded_withPieces inside piecesKinded
  · obtain ⟨⟨opens, _⟩, outside⟩ := List.forall_mem_cons.1 scopes
    exact
      ⟨base, List.forall_mem_cons.2 ⟨⟨opens, piecesKinded⟩, outside⟩, collection⟩

theorem draft {growth : Growth} (kinded : growth.Kinded) {draft : Draft}
    (drafting : growth.draft? = some draft) : draft.Kinded := by
  rcases growth with ⟨base, scopes, collection, dollarEnds⟩
  rcases scopes with _ | ⟨_ | _, outer⟩ <;> cases drafting
  · exact kinded.base
  · exact (kinded.scopes _ (.head _)).2

theorem withDraft {growth : Growth} (kinded : growth.Kinded) {draft : Draft}
    (draftKinded : draft.Kinded) : (growth.withDraft draft).Kinded := by
  obtain ⟨base, scopes, collection⟩ := kinded
  rcases growth with ⟨_, _ | ⟨⟨opener, old⟩ | ⟨opener, old⟩, outer⟩, _, _⟩
  · exact ⟨draftKinded, scopes, collection⟩
  · obtain ⟨⟨opens, _⟩, outside⟩ := List.forall_mem_cons.1 scopes
    exact
      ⟨base, List.forall_mem_cons.2 ⟨⟨opens, draftKinded⟩, outside⟩, collection⟩
  · exact ⟨base, scopes, collection⟩

theorem add {growth : Growth} (kinded : growth.Kinded) {atom : Tree .atom}
    (atomKinded : atom.Kinded) : (growth.add atom).Kinded :=
  kinded.withPieces ⟨kinded.pieces, atomKinded⟩

/-- The innermost construct is kinded. -/
theorem innermost {growth : Growth} (kinded : growth.Kinded) {scope : Scope}
    {outer : List Scope} (scopes : growth.scopes = scope :: outer) :
    scope.Kinded := by
  apply kinded.scopes
  rw [scopes]
  exact .head _

/-- A construct that is closed leaves the constructs around it. -/
theorem outer {growth : Growth} (kinded : growth.Kinded) {scope : Scope}
    {outer : List Scope} (scopes : growth.scopes = scope :: outer) :
    ({ growth with scopes := outer } : Growth).Kinded where
  base := kinded.base
  scopes := by
    intro inner member
    exact kinded.scopes inner (scopes ▸ .tail _ member)
  collection := kinded.collection

/-- A step keeps everything kinded. -/
theorem step {growth after : Growth} {token : Token} {following : Option Token}
    (kinded : growth.Kinded) (taken : Step growth token following after) :
    after.Kinded := by
  cases taken with
  | @member opener members inside kind =>
      obtain ⟨opens, literals⟩ := kinded.collection opener members inside
      refine ⟨kinded.base, kinded.scopes, ?_⟩
      rintro _ _ ⟨⟩
      refine ⟨opens, ?_⟩
      intro other among
      rcases List.mem_append.1 among with early | late
      · exact literals other early
      · rw [List.mem_singleton.1 late]
        exact kind
  | @collectionClose opener members inside kind =>
      obtain ⟨opens, literals⟩ := kinded.collection opener members inside
      have outside : ({ growth with collection := none } : Growth).Kinded :=
        ⟨kinded.base, kinded.scopes, nofun⟩
      exact outside.add ⟨opens, literals, kind⟩
  | literal outside kind => exact kinded.add kind
  | caret outside kind => exact kinded.add (.inl kind)
  | dollar outside kind =>
      have added : (growth.add (.anchor token (dollarPlace following))).Kinded :=
        kinded.add (.inr kind)
      exact ⟨added.base, added.scopes, added.collection⟩
  | quantifier outside kind last =>
      have pieces := kinded.pieces
      rw [last] at pieces
      exact kinded.withPieces ⟨pieces.1, pieces.2, kind⟩
  | assertion outside kind last =>
      have pieces := kinded.pieces
      rw [last] at pieces
      exact kinded.withPieces ⟨pieces.1, pieces.2, kind⟩
  | conjunction outside kind drafting =>
      exact kinded.withDraft ((kinded.draft drafting).conjoin kind)
  | alternative outside kind drafting =>
      exact kinded.withDraft ((kinded.draft drafting).alternate kind)
  | groupOpen outside kind =>
      exact
        ⟨kinded.base,
          List.forall_mem_cons.2 ⟨⟨kind, Draft.kinded_new⟩, kinded.scopes⟩,
          kinded.collection⟩
  | groupClose outside kind scopes =>
      obtain ⟨opens, inside⟩ := kinded.innermost scopes
      exact (kinded.outer scopes).add ⟨opens, inside, kind⟩
  | collectionOpen outside kind =>
      refine ⟨kinded.base, kinded.scopes, ?_⟩
      rintro _ _ ⟨⟩
      exact ⟨kind, nofun⟩
  | optionalOpen outside kind =>
      exact
        ⟨kinded.base, List.forall_mem_cons.2 ⟨⟨kind, trivial⟩, kinded.scopes⟩,
          kinded.collection⟩
  | optionalClose outside kind scopes nonempty =>
      obtain ⟨opens, inside⟩ := kinded.innermost scopes
      exact (kinded.outer scopes).add ⟨opens, inside, nonempty, kind⟩

/-- Taking tokens keeps everything kinded. -/
theorem takes {behind : Option Token} {growth after : Growth}
    {tokens : List Token} (kinded : growth.Kinded)
    (taken : Takes behind growth tokens after) : after.Kinded := by
  induction taken with
  | done => exact kinded
  | step first _ inductionHypothesis =>
      exact inductionHypothesis (kinded.step first)

/-- A finished tree is kinded. -/
theorem finish {growth : Growth} {position : Nat} {tree : Tree .pattern}
    (kinded : growth.Kinded) (finished : growth.finish position = .ok tree) :
    tree.Kinded := by
  unfold Growth.finish at finished
  split at finished
  · cases finished
    exact kinded.base
  · cases finished
  · cases finished

end Kinded

end Growth

/-- The tree of a scanned pattern is kinded. -/
theorem Tree.kinded_ofScan {scan : Scan} {grown : Grown}
    (complete : Tree.ofScan scan = .ok grown) : grown.tree.Kinded := by
  obtain ⟨terminus, after, _, takes, finished, _⟩ :=
    Growth.takes_of_run_eq_ok complete
  exact (Growth.Kinded.new.takes takes).finish finished

end VimPattern
