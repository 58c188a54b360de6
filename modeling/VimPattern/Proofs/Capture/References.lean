/-
Module: VimPattern.Proofs.Capture.References
Purpose: Back references and named groups in a converted pattern.
Main exports:
  Tally.hasNames, Token.hasNames_tally, Token.backReference_tally, Style.Numbers,
  Style.Names, texts_of_convert_reference
-/
import VimPattern.Proofs.Capture.Distinct
import VimPattern.Proofs.Capture.Spelled
import VimPattern.Proofs.Capture.Targets

namespace VimPattern

open Target

/-!
The target takes references by number or groups with names, but not both.  So a
pattern that refers back and has a group with a name gets names for all its capturing
groups, and every reference uses them.  What the tally says about this at the end of
the pattern is what the tokens of the pattern say, wherever in it they stand.
-/

/-! ### What the tally knows -/

/-- A group with a name has been counted. -/
def Tally.hasNames (tally : Tally) : Bool :=
  0 < tally.externalGroups || tally.matchStart || tally.matchEnd

/-- A counted lexeme leaves a group with a name, unless capturing groups have one. -/
theorem Tally.hasNames_record {tally : Tally} {lexeme : Lexeme}
    (countsOn : lexeme.CountsOn tally) :
    (tally.record lexeme).hasNames =
      (tally.hasNames || (lexeme.groupName? false).isSome) := by
  cases lexeme with
  | literal literal =>
      cases literal with
      | matchStart first =>
          obtain rfl : first = !tally.matchStart := countsOn
          cases set : tally.matchStart <;>
            simp [hasNames, record, Lexeme.groupName?, set]
      | matchEnd first =>
          obtain rfl : first = !tally.matchEnd := countsOn
          cases set : tally.matchEnd <;>
            simp [hasNames, record, Lexeme.groupName?, set]
      | _ => exact (Bool.or_false _).symm
  | groupOpen sort =>
      cases sort with
      | external number =>
          obtain rfl : number = tally.externalGroups + 1 := countsOn
          simp [hasNames, record, Lexeme.groupName?]
      | _ => exact (Bool.or_false _).symm
  | _ => exact (Bool.or_false _).symm

/-- The tally has names exactly when the tokens leave some. -/
theorem Token.hasNames_tally {tally : Tally} {tokens : List Token}
    (counted : Token.Counted tally tokens) :
    (Token.tally tally tokens).hasNames =
      (tally.hasNames || !(groupNames false tokens).isEmpty) := by
  induction tokens generalizing tally with
  | nil => simp [Token.tally]
  | cons token others inductionHypothesis =>
      obtain ⟨countsOn, rest⟩ := counted
      have later := inductionHypothesis rest
      rw [Tally.hasNames_record countsOn] at later
      rw [groupNames_cons, groupName?, Token.tally, List.foldl_cons]
      rw [Token.tally] at later
      rw [later]
      cases token.lexeme.groupName? false <;> simp

/-- The tally knows of a back reference exactly when there is one among the tokens. -/
theorem Token.backReference_tally (tally : Tally) (tokens : List Token) :
    (Token.tally tally tokens).backReference =
      (tally.backReference || tokens.any fun token => token.lexeme.reference?.isSome) := by
  induction tokens generalizing tally with
  | nil => simp [Token.tally]
  | cons token others inductionHypothesis =>
      have here :
          (tally.record token.lexeme).backReference =
            (tally.backReference || token.lexeme.reference?.isSome) := by
        rcases token with ⟨lexeme, raw, position, level⟩
        cases lexeme with
        | literal literal => cases literal <;> simp [Tally.record, Lexeme.reference?]
        | groupOpen sort => cases sort <;> simp [Tally.record, Lexeme.reference?]
        | _ => simp [Tally.record, Lexeme.reference?]
      have later := inductionHypothesis (tally.record token.lexeme)
      rw [here, Bool.or_assoc] at later
      exact later

/-- A pattern that refers back needs names for its groups exactly if it has a name. -/
theorem needsNamedGroups_of_reference {level : Magicness} {pattern : String} {grown : Grown}
    (complete : Tree.ofScan (Scan.ofPattern level pattern) = .ok grown)
    (refers : ∃ token ∈ (Scan.ofPattern level pattern).tokens, token.reference? ≠ none) :
    (Metadata.ofTally grown.context.tally grown.dollarEnds).needsNamedGroups = false ↔
      Token.groupNames false grown.tree.tokens = [] := by
  obtain ⟨terminus, _, whole, _, _, _, context⟩ := Growth.takes_of_run_eq_ok complete
  have tally := Scan.tally_ofPattern whole
  rw [← context, ← Tree.tokens_ofScan complete] at tally
  have counted := Scan.counted_ofPattern level pattern
  rw [← Tree.tokens_ofScan complete] at counted refers
  have named := Token.hasNames_tally counted
  have referred : grown.context.tally.backReference := by
    rw [tally, Token.backReference_tally, Bool.or_eq_true, List.any_eq_true]
    obtain ⟨token, among, refers⟩ := refers
    refine .inr ⟨token, among, ?_⟩
    rw [((Scan.spelled_ofPattern level pattern) token
      (Tree.tokens_ofScan complete ▸ among)).reference] at refers
    exact Option.isSome_iff_ne_none.2 refers
  rw [← tally] at named
  change (grown.context.tally.backReference && grown.context.tally.hasNames) = false ↔ _
  rw [referred, named, ← List.isEmpty_iff]
  cases (Token.groupNames false grown.tree.tokens).isEmpty <;> decide

/-! ### Texts -/

/-- Back references are written with their numbers, and plain groups without names. -/
def Style.Numbers (style : Style) (tokens : List Token) : Prop :=
  (∀ token ∈ tokens, ∀ number, token.reference? = some number →
    token.text style = "\\" ++ toString number) ∧
    ∀ token ∈ tokens, token.isPlainOpening → token.text style = "("

/-- Back references are written with the names of their groups, and the plain groups
are named after their numbers. -/
def Style.Names (style : Style) (tokens : List Token) : Prop :=
  (∀ token ∈ tokens, ∀ number, token.reference? = some number →
    token.text style = "\\k<g" ++ toString number ++ ">") ∧
    (tokens.filter Token.isPlainOpening).map (Token.text style) =
      (List.range' 1 (tokens.filter Token.isPlainOpening).length).map fun number =>
        "(?<g" ++ toString number ++ ">"

/-- The text that opens a group. -/
def Lexeme.openingText (style : Style) : Lexeme → String
  | .groupOpen sort => sort.text style
  | _ => ""

/-- A reference by its spelling is one by its meaning. -/
theorem Token.Spelled.lexeme_eq {token : Token} (spelled : token.Spelled) {number : Nat}
    (refers : token.reference? = some number) :
    token.lexeme = .literal (.backReference number) := by
  rw [spelled.reference] at refers
  unfold Lexeme.reference? at refers
  split at refers
  · next other same =>
      cases refers
      exact same
  · cases refers

/-- The openings by their spelling are those by their meaning. -/
theorem Token.filter_isPlainOpening {tokens : List Token}
    (spelled : ∀ token ∈ tokens, token.Spelled) :
    tokens.filter isPlainOpening = tokens.filter opensCapture :=
  List.filter_congr fun token among => (spelled token among).opening

/-- What opens a capturing group. -/
theorem Token.lexeme_of_opensCapture {token : Token} (captures : token.opensCapture) :
    ∃ number, token.lexeme = .groupOpen (.capturing number) := by
  unfold opensCapture at captures
  split at captures
  · next number same => exact ⟨number, same⟩
  · cases captures

/-- A reference uses the name of its group where groups are named. -/
theorem Literal.text_backReference_of_named {style : Style} (named : style.namedGroups = true)
    (number : Nat) :
    (Literal.backReference number).text style = "\\k<g" ++ toString number ++ ">" := by
  rw [Literal.text, if_pos named, append_captureName]
  rfl

/-- A capturing group has its number in its name where groups are named. -/
theorem GroupSort.text_capturing_of_named {style : Style} (named : style.namedGroups = true)
    (number : Nat) :
    (GroupSort.capturing number).text style = "(?<g" ++ toString number ++ ">" := by
  rw [GroupSort.text, if_pos named, append_captureName]
  rfl

namespace Style

variable {style : Style} {tokens : List Token}
  (spelled : ∀ token ∈ tokens, token.Spelled)
include spelled

theorem numbers_of_unnamed (unnamed : style.namedGroups = false) : style.Numbers tokens := by
  constructor
  · intro token among number refers
    rw [Token.text, (spelled token among).lexeme_eq refers]
    simp [Literal.text, unnamed]
  · intro token among opens
    rw [(spelled token among).opening] at opens
    obtain ⟨number, same⟩ := Token.lexeme_of_opensCapture opens
    rw [Token.text, same]
    simp [GroupSort.text, unnamed]

theorem names_of_named (named : style.namedGroups = true)
    (counted : Token.Counted {} tokens) : style.Names tokens := by
  constructor
  · intro token among number refers
    rw [Token.text, (spelled token among).lexeme_eq refers]
    exact Literal.text_backReference_of_named named number
  · rw [Token.filter_isPlainOpening spelled]
    calc
      (tokens.filter Token.opensCapture).map (Token.text style) =
          ((tokens.filter Token.opensCapture).map Token.lexeme).map
            (Lexeme.openingText style) := by
        rw [List.map_map]
        apply List.map_congr_left
        intro token among
        obtain ⟨number, same⟩ := Token.lexeme_of_opensCapture (List.mem_filter.1 among).2
        rw [Function.comp_apply, Token.text, same]
        rfl
      _ = _ := by
        rw [counted.numbers, List.map_map]
        apply List.map_congr_left
        intro number _
        exact GroupSort.text_capturing_of_named named number

end Style

/-- The text of a pattern that refers back has a name exactly where its capturing groups
are named. -/
theorem groupNames_eq_nil_iff_of_reference {options : Options} (unnamed : options.Unnamed)
    {pattern : String} {grown : Grown}
    (complete : Tree.ofScan (Scan.ofPattern options.magicness pattern) = .ok grown)
    (refers :
      ∃ token ∈ (Scan.ofPattern options.magicness pattern).tokens,
        token.reference? ≠ none)
    (foldCase : Bool) :
    groupNames (withCase foldCase (grown.tree.text (grown.style options foldCase))) = [] ↔
      (grown.style options foldCase).namedGroups = false := by
  let style := grown.style options foldCase
  have needed :
      style.namedGroups = false ↔ Token.groupNames false grown.tree.tokens = [] :=
    needsNamedGroups_of_reference complete refers
  rw [Tree.groupNames_ofScan unnamed complete style rfl, List.map_eq_nil_iff,
    Tree.names_eq_nil_iff (Tree.lexed_ofScan complete)]
  constructor
  · intro none
    have subset := Token.groupNames_subset style.namedGroups grown.tree.tokens
    rw [none] at subset
    exact needed.2 (List.subset_nil.1 subset)
  · intro unneeded
    rw [unneeded]
    exact needed.1 unneeded

/-- In a pattern that refers back, references are written with numbers and groups
without names where no group has a name, and with the names of the groups otherwise. -/
theorem texts_of_convert_reference {options : Options} (unnamed : options.Unnamed)
    {pattern : String} {conversion : Conversion}
    (converted : convert options pattern = .ok conversion)
    (refers :
      ∃ token ∈ (Scan.ofPattern options.magicness pattern).tokens,
        token.reference? ≠ none) :
    ∃ grown style,
      Tree.ofScan (Scan.ofPattern options.magicness pattern) = .ok grown ∧
        grown.tree.tokens = (Scan.ofPattern options.magicness pattern).tokens ∧
          conversion.converted =
              withCase conversion.ignoreCase (grown.tree.text style) ∧
            (groupNames conversion.converted = [] → style.Numbers grown.tree.tokens) ∧
              (groupNames conversion.converted ≠ [] → style.Names grown.tree.tokens) := by
  by_cases empty : pattern.isEmpty
  · obtain rfl : pattern = "" := by simpa using empty
    obtain ⟨token, among, _⟩ := refers
    cases among
  · rw [convert, if_neg empty] at converted
    dsimp only at converted
    split at converted
    · next grown complete =>
        cases converted
        let style := grown.style options (foldsCase options pattern)
        have same := Tree.tokens_ofScan complete
        have spelled : ∀ token ∈ grown.tree.tokens, token.Spelled := by
          rw [same]
          exact Scan.spelled_ofPattern options.magicness pattern
        have counted : Token.Counted {} grown.tree.tokens := by
          rw [same]
          exact Scan.counted_ofPattern options.magicness pattern
        have exactly :=
          groupNames_eq_nil_iff_of_reference unnamed complete refers (foldsCase options pattern)
        refine ⟨grown, style, complete, same, rfl, ?_, ?_⟩
        · intro none
          exact Style.numbers_of_unnamed spelled (exactly.1 none)
        · intro some
          have named : style.namedGroups = true := by simpa using mt exactly.2 some
          exact Style.names_of_named spelled named counted
    · cases converted

/-- A start of the match behind a back reference makes the reference use a name. -/
theorem names_of_convert_reference :
    Options.Unnamed {} ∧
      convertText {} "\\(a\\)\\1\\zs" = .ok "(?<g1>a)\\k<g1>(?<zs>)" ∧
        groupNames "(?<g1>a)\\k<g1>(?<zs>)" = ["g1", "zs"] ∧
          ∃ grown style,
            Tree.ofScan (Scan.ofPattern .magic "\\(a\\)\\1\\zs") = .ok grown ∧
              "(?<g1>a)\\k<g1>(?<zs>)" = withCase false (grown.tree.text style) ∧
                style.Names grown.tree.tokens := by
  have unnamed : Options.Unnamed {} :=
    ⟨⟨rfl, rfl, rfl, rfl⟩, ⟨rfl, rfl⟩, fronted_of_eq_cons rfl rfl⟩
  have converted :
      convert {} "\\(a\\)\\1\\zs" =
        .ok
          { converted := "(?<g1>a)\\k<g1>(?<zs>)"
            ignoreCase := false
            magicness := .magic
            metadata := { hasMatchStart := true, hasBackReference := true } } := by
    rfl
  have refers :
      ∃ token ∈ (Scan.ofPattern .magic "\\(a\\)\\1\\zs").tokens,
        token.reference? ≠ none := by
    refine ⟨_, .tail _ (.tail _ (.tail _ (.head _))), ?_⟩
    decide
  obtain ⟨grown, style, complete, _, written, _, names⟩ :=
    texts_of_convert_reference unnamed converted refers
  have named : groupNames "(?<g1>a)\\k<g1>(?<zs>)" ≠ [] := by decide
  exact ⟨unnamed, rfl, rfl, grown, style, complete, written, names named⟩

/-- Under other options a group may look named although no token named it, or hide its
name although it has one: if the text of a line break is empty, a question mark that
follows it stands behind the parenthesis of the group, and after a bracket that nothing
closes no group is read. -/
theorem references_mixed :
    convertText { newLine := "" } "\\(\\n\\=<a>\\)\\1" = .ok "(?<a>)\\1" ∧
      groupNames "(?<a>)\\1" = ["a"] ∧
        convertText { identChars := "\\" } "\\I\\zs\\(a\\)\\1" =
            .ok "[\\](?<zs>)(?<g1>a)\\k<g1>" ∧
          groupNames "[\\](?<zs>)(?<g1>a)\\k<g1>" = [] ∧
            convertText { newLine := "[" } "\\n\\zs\\(a\\)\\1" =
                .ok "[(?<zs>)(?<g1>a)\\k<g1>" ∧
              groupNames "[(?<zs>)(?<g1>a)\\k<g1>" = [] :=
  ⟨rfl, rfl, rfl, rfl, rfl, rfl⟩

end VimPattern
