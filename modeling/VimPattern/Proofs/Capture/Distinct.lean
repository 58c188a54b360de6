/-
Module: VimPattern.Proofs.Capture.Distinct
Purpose: When no group name occurs twice in a converted pattern.
Main exports:
  Options.Unnamed, Tree.groupNames_ofScan, nodup_groupNames_iff_of_convert
-/
import VimPattern.Proofs.Capture.Named

namespace VimPattern

open Target

/-!
The target refuses a pattern in which a name occurs twice.  The rules see to it that
no two tokens leave the same name, so that a name can only be repeated by an optional
sequence that repeats the piece it stands in.
-/

/-- The options bring no names: the classes are bodies of bracket expressions, and the
text of a line break names no group and does not begin like a name. -/
structure Options.Unnamed (options : Options) : Prop extends options.Bodied where
  nameless : Nameless options.newLine
  fronted : Fronted options.newLine

/-- Options that bring no names are nameless. -/
theorem Options.Unnamed.accepts {options : Options} (unnamed : options.Unnamed) :
    Trace.nameless.Accepts options where
  toBodied := unnamed.toBodied
  newLine := unnamed.nameless.silent

/-- The names in the text of a trace are those that are heard in it. -/
theorem Trace.groupNames_text (trace : Trace) :
    groupNames trace.text = openings naming .outside trace := by
  rw [groupNames, spell, Trace.text, String.toList_ofList]
  exact (openings_naming _ _).symm

/-- The group names in the text of a pattern are those that its tree is written
with. -/
theorem Tree.groupNames_ofScan {options : Options} (unnamed : options.Unnamed)
    {pattern : String} {grown : Grown}
    (complete : Tree.ofScan (Scan.ofPattern options.magicness pattern) = .ok grown)
    (style : Style) (same : style.options = options) (foldCase : Bool) :
    groupNames (withCase foldCase (grown.tree.text style)) =
      (grown.tree.names style.namedGroups).flatten.map GroupName.text := by
  have accepts : Trace.nameless.Accepts style.options := same ▸ unnamed.accepts
  have unled : grown.tree.Unled style := Tree.unled_ofScan (same ▸ unnamed.fronted) complete
  have names := (Tree.lexed_ofScan complete).tells_names accepts unled
  have whole := (Trace.tells_separated names).withCase deaf_naming foldCase
  rw [← Tree.text_trace, ← Trace.text_withCase, Trace.groupNames_text]
  exact openings_eq_of_yields whole

/-- Under options that bring no names, no group name occurs twice in a converted
pattern exactly where no optional sequence leaves a name before its last piece.  The
names are those of the tokens of the pattern, none of which leaves the name of
another. -/
theorem nodup_groupNames_iff_of_convert {options : Options} (unnamed : options.Unnamed)
    {pattern : String} {conversion : Conversion}
    (converted : convert options pattern = .ok conversion) :
    ∃ grown,
      Tree.ofScan (Scan.ofPattern options.magicness pattern) = .ok grown ∧
        ((groupNames conversion.converted).Nodup ↔
          grown.tree.namesLast conversion.metadata.needsNamedGroups) := by
  by_cases empty : pattern.isEmpty
  · obtain rfl : pattern = "" := by simpa using empty
    cases converted
    refine ⟨_, rfl, ?_⟩
    exact ⟨fun _ => rfl, fun _ => List.nodup_nil⟩
  · rw [convert, if_neg empty] at converted
    dsimp only at converted
    split at converted
    · next grown complete =>
        cases converted
        refine ⟨grown, complete, ?_⟩
        have lexed := Tree.lexed_ofScan complete
        have names := (Scan.counted_ofPattern options.magicness pattern).names
          (Conversion.ofGrown options (foldsCase options pattern) grown).metadata.needsNamedGroups
        rw [← Tree.tokens_ofScan complete] at names
        rw [← Tree.nodup_names_iff lexed names.2]
        have written := Tree.groupNames_ofScan unnamed complete
          (grown.style options (foldsCase options pattern)) rfl (foldsCase options pattern)
        change (groupNames (withCase _ (grown.tree.text (grown.style options _)))).Nodup ↔ _
        rw [written]
        exact List.nodup_map_iff GroupName.text_injective
    · cases converted

/-- A limit of the match in the last piece of an optional sequence is written once. -/
theorem nodup_groupNames_of_convert_last :
    Options.Unnamed {} ∧
      convertText {} "\\zs\\%[a\\ze]" = .ok "(?<zs>)(?:a(?<ze>)|a|)" ∧
        (groupNames "(?<zs>)(?:a(?<ze>)|a|)").Nodup := by
  let scan := Scan.ofPattern .magic "\\zs\\%[a\\ze]"
  have unnamed : Options.Unnamed {} :=
    ⟨⟨rfl, rfl, rfl, rfl⟩, ⟨rfl, rfl⟩, fronted_of_eq_cons rfl rfl⟩
  have converted :
      convert {} "\\zs\\%[a\\ze]" =
        .ok
          { converted := "(?<zs>)(?:a(?<ze>)|a|)"
            ignoreCase := false
            magicness := .magic
            metadata := { hasMatchStart := true, hasMatchEnd := true } } := by
    rfl
  have computed : (Tree.ofScan scan).toOption.all fun grown => grown.tree.namesLast false := by
    rfl
  obtain ⟨grown, complete, exactly⟩ := nodup_groupNames_iff_of_convert unnamed converted
  have same : Tree.ofScan scan = .ok grown := complete
  rw [same] at computed
  exact ⟨unnamed, rfl, exactly.2 computed⟩

/-- In an earlier piece it is written once for each leading stretch, and the target
refuses its name. -/
theorem groupNames_thrice :
    convertText {} "\\%[\\zsab]" = .ok "(?:(?<zs>)ab|(?<zs>)a|(?<zs>)|)" ∧
      groupNames "(?:(?<zs>)ab|(?<zs>)a|(?<zs>)|)" = ["zs", "zs", "zs"] ∧
        ¬(groupNames "(?:(?<zs>)ab|(?<zs>)a|(?<zs>)|)").Nodup := by
  have names : groupNames "(?:(?<zs>)ab|(?<zs>)a|(?<zs>)|)" = ["zs", "zs", "zs"] := by rfl
  refine ⟨rfl, names, ?_⟩
  rw [names]
  decide

end VimPattern
