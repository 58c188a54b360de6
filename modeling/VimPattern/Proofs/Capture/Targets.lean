/-
Module: VimPattern.Proofs.Capture.Targets
Purpose: When the numbers of back references keep their meaning in the target.
Main exports:
  Token.Counted.numbers, Token.namesGroup, Options.Quiet, Trace.captures_ofPattern,
  captures_eq_iff_of_convert
-/
import Mathlib.Data.List.Nodup
import VimPattern.Proofs.Capture.Leading

namespace VimPattern

open Target

/-!
A number refers to the same group in the pattern and in the target when the
parentheses that capture were written for the capturing groups of the pattern, one
for each and in their order.  That is not always so: an optional sequence repeats its
earlier pieces, and a group among them is numbered once more each time.
-/

/-! ### Numbers -/

/-- The openings of capturing groups are numbered one after the other. -/
theorem Token.Counted.numbers {tally : Tally} {tokens : List Token}
    (counted : Token.Counted tally tokens) :
    (tokens.filter opensCapture).map Token.lexeme =
      (List.range' (tally.plainGroups + 1) (tokens.filter opensCapture).length).map
        fun number => .groupOpen (.capturing number) := by
  induction tokens generalizing tally with
  | nil => rfl
  | cons token others inductionHypothesis =>
      obtain ⟨countsOn, rest⟩ := counted
      have later := inductionHypothesis rest
      rcases token with ⟨lexeme, raw, position, level⟩
      by_cases captures : opensCapture ⟨lexeme, raw, position, level⟩
      · obtain ⟨number, rfl⟩ : ∃ number, lexeme = .groupOpen (.capturing number) := by
          unfold opensCapture at captures
          split at captures
          · next number same => exact ⟨number, same⟩
          · cases captures
        cases countsOn
        rw [List.filter_cons_of_pos captures, List.map_cons, List.length_cons,
          List.range'_succ, List.map_cons, later]
        rfl
      · have same : (tally.record lexeme).plainGroups = tally.plainGroups := by
          unfold Tally.record
          split
          · exact absurd rfl captures
          all_goals rfl
        rw [same] at later
        rw [List.filter_cons_of_neg captures, later]

/-- No opening of a capturing group occurs twice. -/
theorem Token.Counted.nodup {tally : Tally} {tokens : List Token}
    (counted : Token.Counted tally tokens) : (tokens.filter opensCapture).Nodup := by
  apply List.Nodup.of_map Token.lexeme
  rw [counted.numbers]
  apply List.Nodup.map
  · intro first second same
    cases same
    rfl
  · exact List.nodup_range'

/-- The token makes a group with a name of its own: the start or the end of the match,
or an external group. -/
def Token.namesGroup (token : Token) : Bool :=
  match token.lexeme with
  | .literal (.matchStart _) | .literal (.matchEnd _) => true
  | .groupOpen (.external _) => true
  | _ => false

/-- Without tokens that make groups with names, none is counted. -/
theorem Token.tally_of_unnamed {tokens : List Token}
    (unnamed : ∀ token ∈ tokens, ¬token.namesGroup) (tally : Tally) :
    (Token.tally tally tokens).externalGroups = tally.externalGroups ∧
      (Token.tally tally tokens).matchStart = tally.matchStart ∧
        (Token.tally tally tokens).matchEnd = tally.matchEnd := by
  induction tokens generalizing tally with
  | nil => exact ⟨rfl, rfl, rfl⟩
  | cons token others inductionHypothesis =>
      obtain ⟨first, rest⟩ := List.forall_mem_cons.1 unnamed
      have later := inductionHypothesis rest (tally.record token.lexeme)
      have same :
          (tally.record token.lexeme).externalGroups = tally.externalGroups ∧
            (tally.record token.lexeme).matchStart = tally.matchStart ∧
              (tally.record token.lexeme).matchEnd = tally.matchEnd := by
        rcases token with ⟨lexeme, raw, position, level⟩
        cases lexeme with
        | literal literal =>
            cases literal with
            | matchStart other | matchEnd other => exact absurd rfl first
            | _ => exact ⟨rfl, rfl, rfl⟩
        | groupOpen sort =>
            cases sort with
            | external number => exact absurd rfl first
            | _ => exact ⟨rfl, rfl, rfl⟩
        | _ => exact ⟨rfl, rfl, rfl⟩
      rw [same.1, same.2.1, same.2.2] at later
      exact later

/-- Without groups that have names of their own, no group gets one. -/
theorem needsNamedGroups_eq_false {level : Magicness} {pattern : String} {grown : Grown}
    (complete : Tree.ofScan (Scan.ofPattern level pattern) = .ok grown)
    (unnamed : ∀ token ∈ (Scan.ofPattern level pattern).tokens, ¬token.namesGroup) :
    (Metadata.ofTally grown.context.tally grown.dollarEnds).needsNamedGroups = false := by
  obtain ⟨terminus, _, whole, _, _, _, context⟩ := Growth.takes_of_run_eq_ok complete
  have tally := Token.tally_of_unnamed unnamed {}
  rw [← Scan.tally_ofPattern whole, ← context] at tally
  obtain ⟨externalGroups, matchStart, matchEnd⟩ := tally
  simp [Metadata.needsNamedGroups, Metadata.ofTally, externalGroups, matchStart, matchEnd]

/-! ### Converted patterns -/

/-- The options bring no group with a number: the text of a line break is balanced
and has no parenthesis that captures, and the classes are bodies of bracket
expressions. -/
structure Options.Quiet (options : Options) : Prop extends options.Bodied where
  balanced : ∃ bars, Target.read options.newLine = some { bars := bars }
  uncaptured : captures (spell () options.newLine) = []

/-- Quiet options add no parenthesis that captures. -/
theorem Options.Quiet.accepts {options : Options} (quiet : options.Quiet) :
    Trace.quiet.Accepts options where
  toBodied := quiet.toBodied
  newLine := by
    obtain ⟨bars, balanced⟩ := quiet.balanced
    exact silent_of_captures balanced quiet.uncaptured

/-- The parentheses of a converted pattern that capture were written for the openings
that its tree is written with. -/
theorem Trace.captures_ofPattern {options : Options} (quiet : options.Quiet)
    {pattern : String} (nonempty : pattern.isEmpty = false) {grown : Grown}
    (complete : Tree.ofScan (Scan.ofPattern options.magicness pattern) = .ok grown)
    (unnamed : ∀ token ∈ (Scan.ofPattern options.magicness pattern).tokens,
      ¬token.namesGroup) :
    captures (Trace.ofPattern options pattern) =
      (grown.tree.captured
        (grown.style options (foldsCase options pattern))).flatten.map some := by
  let style := grown.style options (foldsCase options pattern)
  have hears :
      List.Forall₂ Trace.Hears (grown.tree.traces style) (grown.tree.captured style) :=
    (Tree.lexed_ofScan complete).hears quiet.accepts
      (needsNamedGroups_eq_false complete unnamed)
  have whole :=
    (Trace.tells_separated hears).withCase deaf_capturing (foldsCase options pattern)
  rw [Trace.ofPattern_eq nonempty complete]
  exact openings_eq_of_yields whole

/-- Under options without groups of their own, and in a pattern that makes no named
groups, the parentheses of the target that capture were written for the capturing
groups of the pattern, one for each and in their order, exactly where no optional
sequence has a capturing group before its last piece and no text of a capturing group
begins with a question mark.  The latter never happens if the text of a line break
begins with something else. -/
theorem captures_eq_iff_of_convert {options : Options} (quiet : options.Quiet)
    {pattern : String} {conversion : Conversion}
    (converted : convert options pattern = .ok conversion)
    (unnamed : ∀ token ∈ (Scan.ofPattern options.magicness pattern).tokens,
      ¬token.namesGroup) :
    (Trace.ofPattern options pattern).text = conversion.converted ∧
      ∃ grown,
        Tree.ofScan (Scan.ofPattern options.magicness pattern) = .ok grown ∧
          (captures (Trace.ofPattern options pattern) =
              (Scan.ofPattern options.magicness pattern).openers.map some ↔
            grown.tree.GroupsLast ∧
              grown.tree.Unled (grown.style options conversion.ignoreCase)) ∧
            (Fronted options.newLine →
              grown.tree.Unled (grown.style options conversion.ignoreCase)) := by
  refine ⟨Trace.text_ofPattern converted, ?_⟩
  by_cases empty : pattern.isEmpty
  · obtain rfl : pattern = "" := by simpa using empty
    refine ⟨_, rfl, ?_, ?_⟩
    · exact ⟨fun _ => ⟨trivial, trivial⟩, fun _ => rfl⟩
    · exact fun _ => trivial
  · rw [convert, if_neg empty] at converted
    dsimp only at converted
    split at converted
    · next grown complete =>
        cases converted
        have nonempty : pattern.isEmpty = false := Bool.eq_false_iff.2 empty
        have kinded := Tree.kinded_ofScan complete
        have openers :
            (Scan.ofPattern options.magicness pattern).openers = grown.tree.openers := by
          rw [Scan.openers, ← Tree.tokens_ofScan complete]
          exact kinded.filter_tokens
        have nodup : grown.tree.openers.Nodup := by
          rw [← openers]
          exact (Scan.counted_ofPattern options.magicness pattern).nodup
        refine ⟨grown, complete, ?_, fun fronted => Tree.unled_ofScan fronted complete⟩
        rw [Trace.captures_ofPattern quiet nonempty complete unnamed, openers,
          List.map_inj_right fun _ _ => Option.some.inj]
        exact Tree.flatten_captured_eq_iff grown.tree nodup
    · cases converted

/-- A group in the last piece of an optional sequence is written once, so that both
references of this pattern keep their groups. -/
theorem captures_eq_of_convert_last :
    Options.Quiet {} ∧
      convertText {} "\\(a\\)\\%[b\\(c\\)]\\1\\2" =
          .ok "(a)(?:b(c)|b|)\\1\\2" ∧
        captures (Trace.ofPattern {} "\\(a\\)\\%[b\\(c\\)]\\1\\2") =
          (Scan.ofPattern .magic "\\(a\\)\\%[b\\(c\\)]\\1\\2").openers.map some := by
  let scan := Scan.ofPattern .magic "\\(a\\)\\%[b\\(c\\)]\\1\\2"
  have quiet : Options.Quiet {} := ⟨⟨rfl, rfl, rfl, rfl⟩, ⟨0, rfl⟩, rfl⟩
  have converted :
      convert {} "\\(a\\)\\%[b\\(c\\)]\\1\\2" =
        .ok
          { converted := "(a)(?:b(c)|b|)\\1\\2"
            ignoreCase := false
            magicness := .magic
            metadata := { hasBackReference := true } } := by
    rfl
  have unnamed : ∀ token ∈ scan.tokens, ¬token.namesGroup := by decide +kernel
  have computed :
      (Tree.ofScan scan).toOption.all fun grown => decide grown.tree.GroupsLast := by
    rfl
  obtain ⟨_, grown, complete, exactly, unled⟩ :=
    captures_eq_iff_of_convert quiet converted unnamed
  have same : Tree.ofScan scan = .ok grown := complete
  rw [same] at computed
  have last : grown.tree.GroupsLast := of_decide_eq_true computed
  have fronted : Fronted ({} : Options).newLine := fronted_of_eq_cons rfl rfl
  exact ⟨quiet, rfl, exactly.2 ⟨last, unled fronted⟩⟩

/-- A group in an earlier piece is written twice: the second of the two parentheses
that capture stands for the first group once more, and a group behind them would have
the number three. -/
theorem captures_twice :
    convertText {} "\\%[\\(a\\)b]\\1" = .ok "(?:(a)b|(a)|)\\1" ∧
      ∃ opener,
        (Scan.ofPattern .magic "\\%[\\(a\\)b]\\1").openers = [opener] ∧
          captures (Trace.ofPattern {} "\\%[\\(a\\)b]\\1") =
            [some opener, some opener] :=
  ⟨rfl, _, rfl, rfl⟩

end VimPattern
