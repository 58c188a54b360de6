/-
Module: VimPattern.Proofs.Grammar.Acceptance
Purpose: A pattern is converted exactly when its tokens follow the grammar.
Main exports:
  exists_ofScan_iff, exists_convert_iff_exists_ofScan, exists_grown_of_convert,
  exists_convert_iff
-/
import VimPattern.Conversion
import VimPattern.Proofs.Grammar.Regrowth
import VimPattern.Tree.Yield

namespace VimPattern

/-!
The grown tree of a pattern is kinded and has the tokens of the pattern, so that
they are derivable.  Conversely derivable tokens are those of some kinded tree,
and these grow into it.  The empty pattern, which is converted without being
read, is no exception: the grammar derives the empty sequence.
-/

/-- A scan grows into a tree exactly when the whole pattern has been read and its
terminal symbols are derivable. -/
theorem exists_ofScan_iff {scan : Scan} :
    (∃ grown, Tree.ofScan scan = .ok grown) ↔
      (∃ terminus, scan.result = .ok terminus) ∧
        Derives .pattern (Token.kinds scan.tokens) := by
  constructor
  · rintro ⟨grown, complete⟩
    obtain ⟨terminus, after, whole, _⟩ := Growth.takes_of_run_eq_ok complete
    refine ⟨⟨terminus, whole⟩, ?_⟩
    rw [← Tree.tokens_ofScan complete]
    exact grown.tree.derives (Tree.kinded_ofScan complete)
  · rintro ⟨⟨terminus, whole⟩, derivation⟩
    obtain ⟨tree, kinded, same⟩ := derivation.exists_tree scan.tokens rfl
    obtain ⟨grown, complete, _⟩ := Tree.ofScan_eq_ok whole kinded same.symm
    exact ⟨grown, complete⟩

/-- Outside the empty pattern, converting is growing a tree. -/
theorem exists_convert_iff_exists_ofScan {options : Options} {pattern : String}
    (nonempty : pattern.isEmpty = false) :
    (∃ conversion, convert options pattern = .ok conversion) ↔
      ∃ grown, Tree.ofScan (Scan.ofPattern options.magicness pattern) = .ok grown := by
  simp only [convert, nonempty, Bool.false_eq_true, if_false]
  cases Tree.ofScan (Scan.ofPattern options.magicness pattern) with
  | ok grown => simp
  | error failure => simp

/-- A pattern that is converted grows into a tree, and unless it is empty the conversion is
what the tree gives. -/
theorem exists_grown_of_convert {options : Options} {pattern : String}
    {conversion : Conversion} (converted : convert options pattern = .ok conversion) :
    ∃ grown, Tree.ofScan (Scan.ofPattern options.magicness pattern) = .ok grown ∧
      conversion.ignoreCase = foldsCase options pattern ∧
        (pattern.isEmpty = false →
          conversion = .ofGrown options (foldsCase options pattern) grown) := by
  by_cases empty : pattern.isEmpty
  · obtain rfl : pattern = "" := by simpa using empty
    cases converted
    exact ⟨_, rfl, rfl, fun nonempty => nomatch nonempty⟩
  · rw [convert, if_neg empty] at converted
    dsimp only at converted
    split at converted
    · next grown complete =>
        cases converted
        exact ⟨grown, complete, rfl, fun _ => rfl⟩
    · cases converted

/-- A pattern is converted exactly when it can be read to its end and its tokens
form a pattern of the grammar. -/
theorem exists_convert_iff (options : Options) (pattern : String) :
    (∃ conversion, convert options pattern = .ok conversion) ↔
      (∃ terminus,
        (Scan.ofPattern options.magicness pattern).result = .ok terminus) ∧
        Derives .pattern
          (Token.kinds (Scan.ofPattern options.magicness pattern).tokens) := by
  cases empty : pattern.isEmpty with
  | false => rw [exists_convert_iff_exists_ofScan empty, exists_ofScan_iff]
  | true =>
      obtain rfl : pattern = "" := by simpa using empty
      have derivation : Derives .pattern [] := .single (.operand .empty)
      exact iff_of_true ⟨_, rfl⟩ ⟨⟨_, rfl⟩, derivation⟩

end VimPattern
