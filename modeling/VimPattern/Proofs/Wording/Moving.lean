/-
Module: VimPattern.Proofs.Wording.Moving
Purpose: The texts of tokens are put together wherever the tokens stand.
Main exports:
  Surroundings.forgotten, Worded.unlocated, Scan.Alike.exists_grown, convert_of_alike
-/
import VimPattern.Proofs.Grammar.Acceptance
import VimPattern.Proofs.Scan.Places
import VimPattern.Proofs.Wording.Renaming
import VimPattern.Proofs.Wording.Surroundings

namespace VimPattern

/-!
Where a token stands is among its surroundings, and a place may also be forgotten altogether.
Two scans that have read the same tokens, if at different places, come to be the same once
the places are forgotten, so that the one is put together if the other is, to the same text.
-/

/-- Nothing is different but that all places are forgotten. -/
def Surroundings.forgotten : Surroundings := { move := fun _ => 0 }

/-- The text without the places its context remembers. -/
def Worded.unlocated (worded : Worded) : Worded :=
  { worded with context := worded.context.unlocated }

theorem Worded.amid_forgotten (worded : Worded) :
    worded.amid Context.unlocated .forgotten = worded.unlocated := by
  have nothing : Surroundings.forgotten.text = "" := rfl
  rw [Worded.amid, nothing, String.empty_append]
  rfl

section Whole

variable {scan other : Scan}

theorem Scan.Alike.exists_result (alike : scan.Alike other) {terminus : Terminus}
    (whole : scan.result = .ok terminus) :
    ∃ terminus', other.result = .ok terminus' ∧ terminus'.unlocated = terminus.unlocated := by
  have ending := alike.ending
  rw [ending_of_result whole] at ending
  rcases other with ⟨items, ⟨terminus'⟩ | _ | _ | _⟩
  case finished => exact ⟨terminus', rfl, (Ending.finished.inj ending).symm⟩
  all_goals cases ending

/-- Of two scans that have read the same tokens, the one grows into a tree if the other one
does, and the trees have the same texts. -/
theorem Scan.Alike.exists_grown (alike : scan.Alike other) {grown : Grown}
    (complete : Tree.ofScan scan = .ok grown) :
    ∃ grown', Tree.ofScan other = .ok grown' ∧ ∀ style,
      (grown'.worded style).unlocated = (grown.worded style).unlocated := by
  obtain ⟨⟨terminus, whole⟩, _⟩ := exists_ofScan_iff.1 ⟨grown, complete⟩
  obtain ⟨terminus', whole', ended⟩ := alike.exists_result whole
  have moved (style : Style) (scan : Scan) {terminus : Terminus}
      (whole : scan.result = .ok terminus) :
      TextGrowth.run (.ok terminus.unlocated) {} 0
          ((scan.tokens.map Token.unlocated).map (Token.rendered style)) =
        (((Tree.ofScan scan).map (Grown.worded style)).map Worded.unlocated).mapError
          (Failure.amid id .forgotten) := by
    have worded := Growth.worded_run style scan.result {} 0 scan.tokens
    have runs := TextGrowth.run_amid Context.unlocated id .forgotten scan.result
      (({} : Growth).worded style) 0 (scan.tokens.map (Token.rendered style))
    rw [worded, List.map_map, whole, funext Worded.amid_forgotten] at runs
    rw [Tree.ofScan, whole, List.map_map]
    exact runs
  have same (style : Style) := (moved style scan whole).symm
  simp only [complete, alike.tokens, ← ended, moved _ other whole'] at same
  cases grows : Tree.ofScan other with
  | error failure =>
      rw [grows] at same
      cases same { options := {} }
  | ok grown' =>
      rw [grows] at same
      exact ⟨grown', rfl, fun style => (Except.ok.inj (same style)).symm⟩

/-- What a pattern is converted to follows from its tokens and from whether case is folded, and
not from where the tokens stand. -/
theorem convert_of_alike {options : Options} {pattern spelling : String} {conversion : Conversion}
    (alike : (Scan.ofPattern options.magicness pattern).Alike
      (Scan.ofPattern options.magicness spelling))
    (folds : foldsCase options spelling = foldsCase options pattern)
    (filled : pattern.isEmpty = false) (nonempty : spelling.isEmpty = false)
    (converted : convert options pattern = .ok conversion) :
    convert options spelling = .ok conversion := by
  obtain ⟨grown, complete, _, same⟩ := exists_grown_of_convert converted
  obtain ⟨grown', complete', texts⟩ := alike.exists_grown complete
  have text (style : Style) : grown'.tree.text style = grown.tree.text style :=
    congrArg Worded.body (texts style)
  have ends : grown'.dollarEnds = grown.dollarEnds :=
    congrArg Worded.dollarEnds (texts { options := options })
  have context : grown'.context.unlocated = grown.context.unlocated :=
    congrArg Worded.context (texts { options := options })
  have tally : grown'.context.tally = grown.context.tally := by
    simpa using congrArg Context.tally context
  have level : grown'.context.magicness = grown.context.magicness := by
    simpa using congrArg Context.magicness context
  rw [convert, if_neg (Bool.eq_false_iff.1 nonempty)]
  dsimp only
  rw [complete', same filled, folds]
  simp only [Conversion.ofGrown, text, ends, tally, level]

end Whole

end VimPattern
