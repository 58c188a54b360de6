/-
Module: VimPattern.Proofs.Wording.Switch
Purpose: A pattern behind a switch to a level is the pattern read from that level.
Main exports:
  Magicness.switch, Grapheme.count_switch, ConversionError.behindSwitch,
  Scan.ofPattern_switch, outcome_translate_switch, convert_switch
-/
import VimPattern.Proofs.Wording.Alternation

namespace VimPattern

/-!
A switch at the start of a pattern leaves the context that a pattern of its level starts
with, two bytes further on.  From there everything goes on as it would from the start: the
items are the same at larger offsets, their texts are put together in the same way, and an
error names the larger offset.  The one thing in an error that is more than moved is the
column of a text without a rule.  It counts what a reader sees, and a mark at the start of
the pattern is seen together with the letter of the switch.
-/

/-- The text of a switch to this level. -/
def Magicness.switch (level : Magicness) : String :=
  String.ofList ['\\', level.switchChar]

@[simp] theorem Magicness.toList_switch (level : Magicness) :
    level.switch.toList = ['\\', level.switchChar] :=
  String.toList_ofList

/-! ### Errors at larger offsets -/

/-- A switch in front of a text is seen as two characters, or as one if the text starts with
a mark for the second. -/
theorem Grapheme.count_switch (level : Magicness) (text : List Char) :
    ∃ columns, (columns = 1 ∨ columns = 2) ∧
      count ('\\' :: level.switchChar :: text) = columns + count text := by
  have backslash : classOf '\\' = .other := by decide +kernel
  have letter : classOf level.switchChar = .other := by
    cases level <;> decide +kernel
  have behind : count ('\\' :: level.switchChar :: text) =
      2 + countFrom { last := .other } text := by
    rw [count, countFrom, backslash, countFrom, letter, ← Nat.add_assoc]
    rfl
  rw [behind]
  cases text with
  | nil => exact ⟨2, .inr rfl, rfl⟩
  | cons char text =>
      -- Behind its first character the text is counted alike in both places.
      have alone : count (char :: text) =
          1 + countFrom ({ last := .control : Progress }.advance (classOf char)) text := rfl
      have after : countFrom { last := .other } (char :: text) =
          (if joins { last := .other } (classOf char) then 0 else 1) +
            countFrom ({ last := .control : Progress }.advance (classOf char)) text := rfl
      rw [alone, after]
      split
      · refine ⟨1, .inl rfl, ?_⟩
        omega
      · refine ⟨2, .inr rfl, ?_⟩
        omega

/-- The error at an offset that is so many bytes larger, with so many more characters to be
seen in front. -/
def ScanError.behind (offset columns : Nat) : ScanError → ScanError
  | .noRuleMatches position column rest =>
      .noRuleMatches (offset + position) (columns + column) rest
  | .unterminated region position => .unterminated region (offset + position)
  | .unknownCollectionClass name position => .unknownCollectionClass name (offset + position)
  | .invalidCodePoint escape position => .invalidCodePoint escape (offset + position)

def Cause.behind (offset columns : Nat) : Cause → Cause
  | .scan error => .scan (error.behind offset columns)
  | .parse error => .parse (error.behind offset)

/-- The same failure of a pattern behind a switch, of which so many characters are seen. -/
def ConversionError.behindSwitch (level : Magicness) (columns : Nat)
    (error : ConversionError) : ConversionError :=
  { error with
    pattern := level.switch ++ error.pattern
    cause := error.cause.behind 2 columns }

/-! ### Reading -/

namespace Scan

/-- Where a pattern behind a switch stands. -/
def behindSwitch : Displacement :=
  { offset := 2 }

/-- A pattern behind a switch is read as from the level of the switch, two bytes further
on. -/
theorem ofPattern_switch (start level : Magicness) (pattern : String) :
    ofPattern start (level.switch ++ pattern) =
      ((ofPattern level pattern).behind behindSwitch).cons
        { content := .mark (.switch level)
          raw := level.switch
          position := 0
          magicness := level } := by
  have characters : (level.switch ++ pattern).toList =
      '\\' :: level.switchChar :: pattern.toList := by
    rw [String.toList_append, Magicness.toList_switch]
    rfl
  have verdict : (Context.start start).verdict '\\' (level.switchChar :: pattern.toList) =
      .item (.mark (.switch level)) 1 := by
    cases level <;> rfl
  have size : byteLength ['\\', level.switchChar] = 2 := by
    cases level <;> rfl
  have fresh : (Context.start level).behind behindSwitch = Context.start level := by
    simp [Context.behind, Context.start, behindSwitch]
  have moved := readFrom_behind behindSwitch (Context.start level) 0 0 pattern.toList
  rw [fresh] at moved
  rw [ofPattern, characters, readFrom_item verdict]
  simp only [List.take_succ_cons, List.take_zero, List.drop_succ_cons, List.drop_zero, size]
  exact congrArg (Scan.cons _) moved

theorem tokens_switch (start level : Magicness) (pattern : String) :
    (ofPattern start (level.switch ++ pattern)).tokens =
      (ofPattern level pattern).tokens.map (Token.behind behindSwitch) := by
  rw [ofPattern_switch, ← tokens_behind]
  rfl

@[simp] theorem covered_cons (item : Item) (scan : Scan) :
    (scan.cons item).covered = item.raw ++ scan.covered :=
  String.join_cons

@[simp] theorem covered_behind (displacement : Displacement) (scan : Scan) :
    (scan.behind displacement).covered = scan.covered := by
  rw [covered, covered, behind, List.map_map]
  rfl

/-- Reading stops where it stops without the switch, and for the same reason. -/
theorem result_switch (start level : Magicness) (pattern : String) :
    ∃ columns, (columns = 1 ∨ columns = 2) ∧
      (ofPattern start (level.switch ++ pattern)).result =
        ((ofPattern level pattern).result.map (Terminus.behind behindSwitch)).mapError
          (ScanError.behind 2 columns) := by
  rw [ofPattern_switch]
  rcases ofPattern level pattern with
    ⟨items, ⟨terminus⟩ | ⟨enclosure⟩ | ⟨position, rest⟩ | ⟨_ | _, raw, position⟩⟩
  case noRule =>
    have covered : ((Scan.behind behindSwitch ⟨items, .noRule position rest⟩).cons
        { content := .mark (.switch level)
          raw := level.switch
          position := 0
          magicness := level }).covered.toList =
          '\\' :: level.switchChar :: (Scan.mk items (.noRule position rest)).covered.toList := by
      rw [covered_cons, covered_behind, String.toList_append, Magicness.toList_switch]
      rfl
    obtain ⟨columns, few, counted⟩ :=
      Grapheme.count_switch level (Scan.mk items (.noRule position rest)).covered.toList
    refine ⟨columns, few, ?_⟩
    rw [← covered] at counted
    have larger := congrArg (· + 1) counted
    rw [Nat.add_assoc] at larger
    exact congrArg (fun column => Except.error (ScanError.noRuleMatches (2 + position) column rest))
      larger
  all_goals exact ⟨1, .inl rfl, rfl⟩

end Scan

/-! ### Putting the texts together -/

/-- The tokens behind a switch bring the same texts along. -/
theorem renderedTokens_switch (options : Options) (level : Magicness)
    (foldCase namedGroups : Bool) (pattern : String) :
    renderedTokens options foldCase namedGroups (level.switch ++ pattern) =
      (renderedTokens { options with magicness := level } foldCase namedGroups pattern).map
        (Rendered.behind 2) := by
  rw [renderedTokens, renderedTokens, Scan.tokens_switch, List.map_map, List.map_map]
  apply List.map_congr_left
  intro token _
  rw [Function.comp_apply, Function.comp_apply, Token.rendered_withLevel, Token.behind,
    Scan.behindSwitch, Lexeme.behind_empty]
  rfl

/-- The texts of tokens do not depend on where these stand. -/
theorem Rendered.partialText_behind (offset : Nat) (tokens : List Rendered) :
    partialText (tokens.map (Rendered.behind offset)) = partialText tokens := by
  rw [partialText, partialText, textOf, textOf, List.map_map]
  rfl

/-- Going through a pattern behind a switch is going through the pattern from the level of
the switch. -/
theorem outcome_translate_switch (options : Options) (level : Magicness) (pattern : String) :
    ∃ columns, (columns = 1 ∨ columns = 2) ∧ ∀ foldCase namedGroups,
      (translate options foldCase namedGroups (level.switch ++ pattern)).outcome =
        Except.mapError (ConversionError.behindSwitch level columns)
          (translate { options with magicness := level } foldCase namedGroups pattern).outcome := by
  obtain ⟨columns, few, stop⟩ := Scan.result_switch options.magicness level pattern
  refine ⟨columns, few, fun foldCase namedGroups => ?_⟩
  have runs := TextGrowth.run_behind (Context.behind Scan.behindSwitch)
    (ScanError.behind 2 columns) { offset := 2 } (Scan.ofPattern level pattern).result {} 0
    (renderedTokens { options with magicness := level } foldCase namedGroups pattern)
  have placed : Terminus.read (Context.behind Scan.behindSwitch) { offset := 2 } =
      Terminus.behind Scan.behindSwitch := rfl
  rw [← renderedTokens_switch, placed, ← stop] at runs
  change TextGrowth.run _ {} 0 _ = _ at runs
  rw [translate, translate]
  dsimp only
  rw [runs]
  cases TextGrowth.run (Scan.ofPattern level pattern).result {} 0
    (renderedTokens { options with magicness := level } foldCase namedGroups pattern) with
  | ok worded =>
      have body : (worded.behind (Context.behind Scan.behindSwitch) { offset := 2 }).body =
          worded.body := by
        exact String.empty_append
      have tally : (worded.context.behind Scan.behindSwitch).tally = worded.context.tally :=
        worded.context.tally.behind_empty
      simp only [Except.map, Except.mapError, body]
      rw [Worded.behind, tally]
      rfl
  | error failure =>
      rcases failure with ⟨cause, read⟩
      have texts : Rendered.partialText
          ((renderedTokens options foldCase namedGroups (level.switch ++ pattern)).take read) =
            Rendered.partialText
              ((renderedTokens { options with magicness := level } foldCase namedGroups
                pattern).take read) := by
        rw [renderedTokens_switch, ← List.map_take, Rendered.partialText_behind]
      simp only [Except.map, Except.mapError, Failure.behind, Nat.zero_add, texts]
      cases cause <;> rfl

/-- A switch is no case marker. -/
theorem foldsCase_switch (options : Options) (level : Magicness) (pattern : String) :
    foldsCase options (level.switch ++ pattern) =
      foldsCase { options with magicness := level } pattern := by
  have marker : caseMarker? (level.switch ++ pattern).toList = caseMarker? pattern.toList := by
    rw [String.toList_append, Magicness.toList_switch]
    cases level <;> rfl
  rw [foldsCase, foldsCase, marker]

/-- A pattern behind a switch is converted as the pattern is with the level of the switch in
the options: to the same conversion, or with the same failure, two bytes further on. -/
theorem convert_switch (options : Options) (level : Magicness) {pattern : String}
    (nonempty : pattern ≠ "") :
    ∃ columns, (columns = 1 ∨ columns = 2) ∧
      convert options (level.switch ++ pattern) =
        (convert { options with magicness := level } pattern).mapError
          (ConversionError.behindSwitch level columns) := by
  obtain ⟨columns, few, outcomes⟩ := outcome_translate_switch options level pattern
  refine ⟨columns, few, ?_⟩
  have text : ¬pattern.isEmpty := by simpa using nonempty
  have longer : ¬(level.switch ++ pattern).isEmpty := by simp [nonempty]
  rw [← convertInPasses_eq, ← convertInPasses_eq, convertInPasses, convertInPasses, if_neg text,
    if_neg longer, foldsCase_switch]
  simp only [outcomes]
  cases (translate { options with magicness := level }
    (foldsCase { options with magicness := level } pattern) false pattern).outcome with
  | error error => rfl
  | ok first =>
      simp only [Except.mapError, bind, Except.bind]
      split
      · -- The second time through the pattern goes as the first one does.
        cases (translate { options with magicness := level }
          (foldsCase { options with magicness := level } pattern) true pattern).outcome <;> rfl
      · rfl

/-- Bare brackets are a group where the options say so, and behind a switch that does. -/
theorem convert_switch_group :
    "(a|b)+" ≠ "" ∧
      convert { magicness := .veryMagic } "(a|b)+" =
          .ok
            { converted := "(a|b)+"
              ignoreCase := false
              magicness := .veryMagic
              metadata := {} } ∧
        convert {} (Magicness.veryMagic.switch ++ "(a|b)+") =
          .ok
            { converted := "(a|b)+"
              ignoreCase := false
              magicness := .veryMagic
              metadata := {} } := by
  have nonempty : "(a|b)+" ≠ "" := by decide
  have converts : convert { magicness := .veryMagic } "(a|b)+" =
      .ok
        { converted := "(a|b)+"
          ignoreCase := false
          magicness := .veryMagic
          metadata := {} } := by
    rfl
  obtain ⟨columns, _, same⟩ := convert_switch {} .veryMagic nonempty
  rw [converts] at same
  exact ⟨nonempty, converts, same⟩

end VimPattern
