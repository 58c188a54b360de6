/-
Module: VimPattern.Tree.Yield
Purpose: A grown tree holds the tokens it was grown from, in their order.
Main exports:
  Draft.tokens, Scope.tokens, Growth.tokens, Growth.tokens_step,
  Growth.tokens_run, Tree.tokens_ofScan
-/
import VimPattern.Tree.Growth

namespace VimPattern

/-!
`Growth.tokens` lists what a growth has taken so far.  Each operation on a growth
gets one equation about this list, a step appends the token it takes, and so a
finished tree has exactly the tokens of its pattern.
-/

/-- The tokens of a draft. -/
def Draft.tokens (draft : Draft) : List Token :=
  draft.pattern.tokens

/-- The tokens of an open construct, its opening first. -/
def Scope.tokens : Scope → List Token
  | .group opener draft => opener :: draft.tokens
  | .optional opener pieces => opener :: pieces.tokens

/-- The tokens taken so far, from the outermost construct to the innermost. -/
def Growth.tokens (growth : Growth) : List Token :=
  growth.base.tokens ++ growth.scopes.reverse.flatMap Scope.tokens ++
    match growth.collection with
    | none => []
    | some (opener, members) => opener :: members

namespace Draft

@[simp] theorem tokens_new : ({} : Draft).tokens = [] := by
  simp [tokens, pattern, branch, Tree.tokens]

/-- The current operand comes last in a draft. -/
theorem tokens_pieces (draft : Draft) :
    ∃ front, ∀ pieces,
      ({ draft with pieces := pieces } : Draft).tokens =
        front ++ pieces.tokens := by
  rcases draft with ⟨alternatives, operands, pieces⟩
  rcases alternatives with _ | ⟨alternatives, outer⟩ <;>
    rcases operands with _ | ⟨operands, inner⟩ <;>
      simp only [tokens, pattern, branch, Tree.tokens]
  · exact ⟨[], fun pieces => rfl⟩
  · exact ⟨operands.tokens ++ [inner], by simp⟩
  · exact ⟨alternatives.tokens ++ [outer], by simp⟩
  · exact ⟨alternatives.tokens ++ outer :: (operands.tokens ++ [inner]), by simp⟩

@[simp] theorem tokens_conjoin (draft : Draft) (separator : Token) :
    (draft.conjoin separator).tokens = draft.tokens ++ [separator] := by
  rcases draft with ⟨alternatives, operands, pieces⟩
  rcases alternatives with _ | ⟨alternatives, outer⟩ <;>
    rcases operands with _ | ⟨operands, inner⟩ <;>
      simp [conjoin, tokens, pattern, branch, Tree.tokens]

@[simp] theorem tokens_alternate (draft : Draft) (separator : Token) :
    (draft.alternate separator).tokens = draft.tokens ++ [separator] := by
  rcases draft with ⟨alternatives, operands, pieces⟩
  rcases alternatives with _ | ⟨alternatives, outer⟩ <;>
    rcases operands with _ | ⟨operands, inner⟩ <;>
      simp [alternate, tokens, pattern, branch, Tree.tokens]

end Draft

namespace Growth

/-- Outside collections the pieces of the innermost construct come last. -/
theorem tokens_pieces (growth : Growth) (outside : growth.collection = none) :
    ∃ front,
      growth.tokens = front ++ growth.pieces.tokens ∧
        ∀ pieces, (growth.withPieces pieces).tokens = front ++ pieces.tokens := by
  rcases growth with ⟨base, scopes, collection, dollarEnds⟩
  cases outside
  rcases scopes with _ | ⟨scope, outer⟩
  · obtain ⟨front, all⟩ := base.tokens_pieces
    refine ⟨front, ?_, ?_⟩
    · simpa [tokens, pieces] using all base.pieces
    · simpa [tokens, withPieces] using all
  · cases scope with
    | group opener draft =>
        obtain ⟨front, all⟩ := draft.tokens_pieces
        refine
          ⟨base.tokens ++ outer.reverse.flatMap Scope.tokens ++ opener :: front,
            ?_, ?_⟩
        · simpa [tokens, pieces, Scope.tokens] using all draft.pieces
        · intro pieces
          simp [tokens, withPieces, Scope.tokens, all]
    | optional opener inner =>
        refine
          ⟨base.tokens ++ outer.reverse.flatMap Scope.tokens ++ [opener], ?_, ?_⟩
        · simp [tokens, pieces, Scope.tokens]
        · intro pieces
          simp [tokens, withPieces, Scope.tokens]

/-- A new atom comes last. -/
theorem tokens_add (growth : Growth) (outside : growth.collection = none)
    (atom : Tree .atom) :
    (growth.add atom).tokens = growth.tokens ++ atom.tokens := by
  obtain ⟨front, same, all⟩ := growth.tokens_pieces outside
  simp [add, all, same, Tree.tokens]

theorem tokens_quantify {growth after : Growth} {token : Token}
    (outside : growth.collection = none)
    (taken : growth.quantify token = .ok after) :
    after.tokens = growth.tokens ++ [token] := by
  obtain ⟨front, same, all⟩ := growth.tokens_pieces outside
  unfold quantify at taken
  split at taken
  · cases taken
  · next pieces atom last =>
      cases taken
      simp [all, same, last, Tree.tokens]
  · cases taken

theorem tokens_assert {growth after : Growth} {token : Token}
    (outside : growth.collection = none)
    (taken : growth.assert token = .ok after) :
    after.tokens = growth.tokens ++ [token] := by
  obtain ⟨front, same, all⟩ := growth.tokens_pieces outside
  unfold assert at taken
  split at taken
  · cases taken
  · next pieces piece last =>
      cases taken
      simp [all, same, last, Tree.tokens]

theorem tokens_separate {growth after : Growth} {token : Token}
    {renew : Draft → Draft} (outside : growth.collection = none)
    (appends : ∀ draft, (renew draft).tokens = draft.tokens ++ [token])
    (taken : growth.separate token renew = .ok after) :
    after.tokens = growth.tokens ++ [token] := by
  unfold separate at taken
  split at taken
  · next scopesEq =>
      cases taken
      simp [tokens, outside, scopesEq, appends]
  · next opener draft outer scopesEq =>
      cases taken
      simp [tokens, outside, scopesEq, Scope.tokens, appends]
  · cases taken

theorem tokens_closeGroup {growth after : Growth} {token : Token}
    (outside : growth.collection = none)
    (taken : growth.closeGroup token = .ok after) :
    after.tokens = growth.tokens ++ [token] := by
  unfold closeGroup at taken
  split at taken
  · next opener draft outer scopesEq =>
      cases taken
      rw [tokens_add _ (by simpa using outside)]
      simp [tokens, outside, scopesEq, Scope.tokens, Tree.tokens, Draft.tokens]
  · cases taken
  · cases taken

theorem tokens_closeOptional {growth after : Growth} {token : Token}
    (outside : growth.collection = none)
    (taken : growth.closeOptional token = .ok after) :
    after.tokens = growth.tokens ++ [token] := by
  unfold closeOptional at taken
  split at taken
  · cases taken
  · next opener pieces outer _ scopesEq =>
      cases taken
      rw [tokens_add _ (by simpa using outside)]
      simp [tokens, outside, scopesEq, Scope.tokens, Tree.tokens]
  · cases taken
  · cases taken

/-- A step appends the token it takes. -/
theorem tokens_step {growth after : Growth} {token : Token}
    {following : Option Token} (taken : growth.step token following = .ok after) :
    after.tokens = growth.tokens ++ [token] := by
  unfold step at taken
  split at taken
  · next opener members inside =>
      unfold stepInCollection at taken
      split at taken
      · cases taken
        simp [tokens, inside]
      · cases taken
        rw [tokens_add _ rfl]
        simp [tokens, inside, Tree.tokens]
      · cases taken
  · next outside =>
      unfold stepOutside at taken
      split at taken
      · cases taken
        rw [tokens_add _ outside, Tree.tokens]
      · cases taken
        rw [tokens_add _ outside, Tree.tokens]
      · cases taken
        have added := tokens_add growth outside (.anchor token (dollarPlace following))
        simpa [addDollar, tokens, Tree.tokens] using added
      · exact tokens_quantify outside taken
      · exact tokens_assert outside taken
      · exact tokens_separate outside (fun draft => draft.tokens_conjoin token) taken
      · exact
          tokens_separate outside (fun draft => draft.tokens_alternate token) taken
      · cases taken
        simp [tokens, outside, Scope.tokens]
      · exact tokens_closeGroup outside taken
      · cases taken
        simp [tokens, outside]
      · cases taken
      · cases taken
        simp [tokens, outside, Scope.tokens, Tree.tokens]
      · exact tokens_closeOptional outside taken

/-- A finished tree has the tokens of its growth. -/
theorem tokens_finish {growth : Growth} {position : Nat} {tree : Tree .pattern}
    (finished : growth.finish position = .ok tree) :
    tree.tokens = growth.tokens := by
  unfold finish at finished
  split at finished
  · next outside scopesEq =>
      cases finished
      simp [tokens, outside, scopesEq, Draft.tokens]
  · cases finished
  · cases finished

/-- A tree that is grown to its end has the tokens it was given. -/
theorem tokens_run {stop : Except ScanError Terminus} {growth : Growth}
    {read : Nat} {others : List Token} {grown : Grown}
    (complete : growth.run stop read others = .ok grown) :
    grown.tree.tokens = growth.tokens ++ others := by
  induction others generalizing growth read with
  | nil =>
      simp only [run] at complete
      split at complete
      · cases complete
      · split at complete
        · next tree finished =>
            cases complete
            simpa using tokens_finish finished
        · cases complete
  | cons token others inductionHypothesis =>
      simp only [run] at complete
      split at complete
      · next after taken =>
          rw [inductionHypothesis complete, tokens_step taken]
          simp
      · split at complete <;> cases complete

end Growth

/-- The tree of a pattern has exactly the tokens of the pattern. -/
theorem Tree.tokens_ofScan {scan : Scan} {grown : Grown}
    (complete : Tree.ofScan scan = .ok grown) :
    grown.tree.tokens = scan.tokens := by
  simpa [Growth.tokens] using Growth.tokens_run complete

end VimPattern
