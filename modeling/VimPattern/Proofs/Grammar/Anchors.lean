/-
Module: VimPattern.Proofs.Grammar.Anchors
Purpose: An anchor that leaves no text and is repeated stands behind a line break.
Main exports:
  Tree.endsWithBreak, Tree.isHollow, BehindBreak, Growth.Anchored,
  Growth.Anchored.step, Tree.behindBreak_ofScan
-/
import VimPattern.Proofs.Grammar.Everywhere
import VimPattern.Proofs.Scan.Tokens

namespace VimPattern

/-!
A caret behind a line break and a dollar before one leave no text.  A quantifier may
still be put behind such a caret, and its text then stands where the text of the
caret would.  Behind such a dollar there is the line break and no quantifier, so that
in both cases the text of a line break is in front of the quantifier.
-/

/-- The last piece starts with a line break. -/
def Tree.endsWithBreak : Tree .concat → Bool
  | .empty => false
  | .snoc _ piece => piece.startsWithBreak

/-- The atom is an anchor that leaves no text. -/
def Tree.isHollow : Tree .atom → Bool
  | .anchor _ .besideBreak => true
  | _ => false

/-- If the piece repeats an anchor that leaves no text, the piece before it starts
with a line break. -/
def BehindBreak : Fitting := fun pieces piece =>
  ∀ atom quantifier, piece = .quantified atom quantifier → atom.isHollow →
    pieces.endsWithBreak

theorem behindBreak_bare (pieces : Tree .concat) (atom : Tree .atom) :
    BehindBreak pieces (.bare atom) := nofun

theorem behindBreak_asserted (pieces : Tree .concat) (piece : Tree .piece)
    (assertion : Token) : BehindBreak pieces (.asserted piece assertion) := nofun

/-- An anchor without text stands beside a line break. -/
theorem place_of_isHollow {token : Token} {place : Place}
    (hollow : (Tree.anchor token place).isHollow) : place = .besideBreak := by
  cases place with
  | besideBreak => rfl
  | edge | inside => cases hollow

namespace Growth

/-- If the last piece is an anchor that leaves no text, it stands next to a line
break: the one before it, or the one that comes next. -/
def Beside (growth : Growth) (following : Option Token) : Prop :=
  ∀ pieces atom, growth.pieces = .snoc pieces (.bare atom) → atom.isHollow →
    pieces.endsWithBreak ∨ ∃ token, following = some token ∧ token.isLineBreak

/-- Anchors without text that are repeated stand behind line breaks, and one that
may still be repeated stands next to one. -/
structure Anchored (growth : Growth) (following : Option Token) : Prop where
  everywhere : growth.Everywhere BehindBreak
  beside : growth.collection = none → growth.Beside following

/-- A caret that leaves no text stands behind a line break. -/
theorem endsWithBreak_of_caretPlace {growth : Growth}
    (place : growth.caretPlace = .besideBreak) : growth.pieces.endsWithBreak := by
  unfold caretPlace at place
  split at place
  · cases place
  · cases place
  · next front piece last _ =>
      rw [last]
      by_cases starts : piece.startsWithBreak
      · exact starts
      · rw [if_neg starts] at place
        cases place

/-- A dollar that leaves no text stands before a line break. -/
theorem isLineBreak_of_dollarPlace {following : Option Token}
    (place : dollarPlace following = .besideBreak) :
    ∃ token, following = some token ∧ token.isLineBreak := by
  unfold dollarPlace at place
  split at place
  · cases place
  · next token =>
      refine ⟨token, rfl, ?_⟩
      split at place
      · cases place
      · split at place
        · assumption
        · cases place

namespace Anchored

variable {growth : Growth}

theorem new (following : Option Token) : ({} : Growth).Anchored following :=
  ⟨.new, fun _ _ _ => nofun⟩

/-- Adding an atom that leaves text, or that stands next to a line break. -/
theorem add (everywhere : growth.Everywhere BehindBreak) (atom : Tree .atom)
    (atomAll : atom.Everywhere BehindBreak) {following : Option Token}
    (placed : atom.isHollow →
      growth.pieces.endsWithBreak ∨ ∃ token, following = some token ∧ token.isLineBreak) :
    (growth.add atom).Anchored following where
  everywhere := everywhere.add atomAll (behindBreak_bare _ _)
  beside := by
    intro _ pieces last same hollow
    rw [pieces_add] at same
    cases same
    exact placed hollow

/-- An atom that leaves text can be added anywhere. -/
theorem add_solid (everywhere : growth.Everywhere BehindBreak) (atom : Tree .atom)
    (atomAll : atom.Everywhere BehindBreak) (solid : atom.isHollow = false)
    (following : Option Token) : (growth.add atom).Anchored following := by
  apply add everywhere atom atomAll
  rw [solid]
  exact nofun

/-- Changing the last piece to one that nothing can be put behind as a quantifier. -/
theorem changed (everywhere : growth.Everywhere BehindBreak) (pieces : Tree .concat)
    (piecesAll : pieces.Everywhere BehindBreak) {following : Option Token}
    (done : ∀ front atom, pieces ≠ .snoc front (.bare atom)) :
    (growth.withPieces pieces).Anchored following where
  everywhere := everywhere.withPieces piecesAll
  beside := by
    intro _ front atom same
    rw [pieces_withPieces] at same
    exact absurd same (done front atom)

/-- Where no piece is, none is next to anything. -/
theorem of_empty (everywhere : growth.Everywhere BehindBreak)
    (none : growth.pieces = .empty) (following : Option Token) :
    growth.Anchored following where
  everywhere := everywhere
  beside := by
    intro _ pieces atom same
    rw [none] at same
    cases same

/-- A separator begins without pieces. -/
theorem withDraft (everywhere : growth.Everywhere BehindBreak) {draft renewed : Draft}
    (drafting : growth.draft? = some draft)
    (renewedAll : renewed.Everywhere BehindBreak) (none : renewed.pieces = .empty)
    (following : Option Token) : (growth.withDraft renewed).Anchored following := by
  apply of_empty (everywhere.withDraft renewedAll)
  rw [pieces_eq_of_draft? (draft?_withDraft drafting renewed), none]

/-- A step keeps anchors where they may be. -/
theorem step {after : Growth} {token : Token} {following : Option Token}
    (anchored : growth.Anchored (some token))
    (breaks : token.LiteralBreak)
    (taken : Step growth token following after) : after.Anchored following := by
  obtain ⟨everywhere, beside⟩ := anchored
  cases taken with
  | member inside kind => exact ⟨everywhere.of_same rfl rfl, nofun⟩
  | @collectionClose opener members inside kind =>
      have outside : ({ growth with collection := none } : Growth).Everywhere BehindBreak :=
        everywhere.of_same rfl rfl
      exact add_solid outside (.collection opener members token) trivial rfl _
  | literal outside kind => exact add_solid everywhere (.literal token) trivial rfl _
  | caret outside kind =>
      apply add everywhere (.anchor token growth.caretPlace) trivial
      intro hollow
      apply Or.inl
      apply endsWithBreak_of_caretPlace
      exact place_of_isHollow hollow
  | dollar outside kind =>
      have added :
          (growth.add (.anchor token (dollarPlace following))).Anchored following := by
        apply add everywhere (.anchor token (dollarPlace following)) trivial
        intro hollow
        exact .inr (isLineBreak_of_dollarPlace (place_of_isHollow hollow))
      exact ⟨added.everywhere.of_same rfl rfl, added.beside⟩
  | @quantifier pieces atom outside kind last =>
      have all := everywhere.pieces
      rw [last] at all
      have notBreak : ¬token.isLineBreak := by
        intro spelled
        rw [breaks spelled] at kind
        cases kind
      have fitting : BehindBreak pieces (.quantified atom token) := by
        rintro _ _ ⟨⟩ hollow
        rcases beside outside pieces atom last hollow with front | ⟨_, ⟨⟩, spelled⟩
        · exact front
        · exact absurd spelled notBreak
      exact changed everywhere (.snoc pieces (.quantified atom token))
        ⟨all.1, all.2.1, fitting⟩ nofun
  | @assertion pieces piece outside kind last =>
      have all := everywhere.pieces
      rw [last] at all
      exact changed everywhere (.snoc pieces (.asserted piece token))
        ⟨all.1, all.2.1, behindBreak_asserted _ _ _⟩ nofun
  | conjunction outside kind drafting =>
      exact withDraft everywhere drafting ((everywhere.draft drafting).conjoin token) rfl _
  | alternative outside kind drafting =>
      exact withDraft everywhere drafting ((everywhere.draft drafting).alternate token) rfl _
  | groupOpen outside kind =>
      have scopes : ∀ scope ∈ Scope.group token {} :: growth.scopes,
          scope.Everywhere BehindBreak :=
        List.forall_mem_cons.2 ⟨Draft.everywhere_new, everywhere.scopes⟩
      exact of_empty (everywhere.withScopes scopes) rfl following
  | @groupClose opener draft outer outside kind scopes =>
      obtain ⟨inside, others⟩ := everywhere.scopes_cons scopes
      exact add_solid others (.group opener draft.pattern token) inside rfl _
  | collectionOpen outside kind => exact ⟨everywhere.of_same rfl rfl, nofun⟩
  | optionalOpen outside kind =>
      have scopes : ∀ scope ∈ Scope.optional token .empty :: growth.scopes,
          scope.Everywhere BehindBreak :=
        List.forall_mem_cons.2 ⟨trivial, everywhere.scopes⟩
      exact of_empty (everywhere.withScopes scopes) rfl following
  | @optionalClose opener pieces outer outside kind scopes nonempty =>
      obtain ⟨inside, others⟩ := everywhere.scopes_cons scopes
      exact add_solid others (.optional opener pieces token) inside rfl _

/-- Taking tokens keeps anchors where they may be. -/
theorem takes {behind : Option Token} {after : Growth} {tokens : List Token}
    (anchored : growth.Anchored (tokens.head?.or behind))
    (breaks : ∀ token ∈ tokens, token.LiteralBreak)
    (taken : Takes behind growth tokens after) : after.Anchored behind := by
  induction taken with
  | done => exact anchored
  | step first _ inductionHypothesis =>
      obtain ⟨here, others⟩ := List.forall_mem_cons.1 breaks
      exact inductionHypothesis (anchored.step here first) others

end Anchored

end Growth

/-- In the tree of a pattern an anchor without text that is repeated stands behind a
line break. -/
theorem Tree.behindBreak_ofScan {level : Magicness} {pattern : String} {grown : Grown}
    (complete : Tree.ofScan (Scan.ofPattern level pattern) = .ok grown) :
    grown.tree.Everywhere BehindBreak := by
  obtain ⟨terminus, after, _, takes, finished, _⟩ := Growth.takes_of_run_eq_ok complete
  have breaks := (Scan.reads_ofPattern level pattern).literalBreak
  exact ((Growth.Anchored.new _).takes breaks takes).everywhere.finish finished

end VimPattern
