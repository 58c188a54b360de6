/-
Module: VimPattern.Proofs.Wording.Renaming
Purpose: A pattern translated with and without names for its groups.
Main exports:
  Rendered.reference?, Rendered.isPlainOpening, Renamed, Translation.Agree,
  renamed_translate, Translation.agree, convertInPasses_eq, agree_translate
-/
import VimPattern.Proofs.Capture.References
import VimPattern.Proofs.Wording.Agreement

namespace VimPattern

/-!
Naming the groups changes the texts of some tokens and nothing else: of the openings of
plain groups and of the back references.  Putting the texts together never looks at them,
so that both translations take the same steps, fail for the same cause, or end with the
same level and the same facts about the pattern.  The second translation is therefore only
ever about the text, and `convert` does well to know the facts before it renders anything.
-/

/-! ### Tokens -/

/-- The number of the group that a token refers back to, from its spelling. -/
def Rendered.reference? (token : Rendered) : Option Nat :=
  token.kind.reference? token.raw

/-- The token opens a group by a parenthesis and nothing else, from its spelling. -/
def Rendered.isPlainOpening (token : Rendered) : Bool :=
  token.kind.isPlainOpening token.raw

/-- Two rows of tokens differ only in the names of the plain groups.  The first `count`
plain groups have been opened before. -/
inductive Renamed : (count : Nat) → (plain named : List Rendered) → Prop
  | nil (count : Nat) : Renamed count [] []
  /-- The group that is opened next has its number in its name. -/
  | opening {count : Nat} {token : Rendered} {plain named : List Rendered}
      (opens : token.isPlainOpening) (text : token.text = "(")
      (rest : Renamed (count + 1) plain named) :
      Renamed count (token :: plain)
        ({ token with text := "(?<g" ++ toString (count + 1) ++ ">" } :: named)
  | reference {count number : Nat} {token : Rendered} {plain named : List Rendered}
      (refers : token.reference? = some number)
      (text : token.text = "\\" ++ toString number) (rest : Renamed count plain named) :
      Renamed count (token :: plain)
        ({ token with text := "\\k<g" ++ toString number ++ ">" } :: named)
  /-- Every other token is the same. -/
  | other {count : Nat} {token : Rendered} {plain named : List Rendered}
      (opensNothing : token.isPlainOpening = false) (refersNowhere : token.reference? = none)
      (rest : Renamed count plain named) :
      Renamed count (token :: plain) (token :: named)

section Tokens

variable {options : Options} {foldCase : Bool}

/-- Names change the text of plain openings and of references only. -/
theorem Token.rendered_eq {token : Token} (opensNothing : token.opensCapture = false)
    (refersNowhere : token.lexeme.reference? = none) :
    token.rendered (.ofPass options foldCase true) =
      token.rendered (.ofPass options foldCase false) := by
  rcases token with ⟨lexeme, raw, position, level⟩
  cases lexeme with
  | literal literal =>
      cases literal with
      | backReference number => cases refersNowhere
      | _ => rfl
  | groupOpen sort =>
      cases sort with
      | capturing number => cases opensNothing
      | _ => rfl
  | _ => rfl

/-- A plain opening gets the number of its group for a name. -/
theorem Token.rendered_opening {token : Token} {number : Nat}
    (same : token.lexeme = .groupOpen (.capturing number)) :
    token.rendered (.ofPass options foldCase true) =
      { token.rendered (.ofPass options foldCase false) with
        text := "(?<g" ++ toString number ++ ">" } := by
  have text : token.text (.ofPass options foldCase true) =
      "(?<g" ++ toString number ++ ">" := by
    rw [text, same]
    exact GroupSort.text_capturing_of_named rfl number
  rw [rendered, text]
  rfl

/-- A back reference uses the name of the group it refers to. -/
theorem Token.rendered_reference {token : Token} {number : Nat}
    (same : token.lexeme = .literal (.backReference number)) :
    token.rendered (.ofPass options foldCase true) =
      { token.rendered (.ofPass options foldCase false) with
        text := "\\k<g" ++ toString number ++ ">" } := by
  have text : token.text (.ofPass options foldCase true) =
      "\\k<g" ++ toString number ++ ">" := by
    rw [text, same]
    exact Literal.text_backReference_of_named rfl number
  rw [rendered, text]
  rfl

/-- Only plain openings change the number of plain groups. -/
theorem Tally.plainGroups_record {tally : Tally} {token : Token}
    (opensNothing : token.opensCapture = false) :
    (tally.record token.lexeme).plainGroups = tally.plainGroups := by
  rcases token with ⟨lexeme, raw, position, level⟩
  cases lexeme with
  | literal literal => cases literal <;> rfl
  | groupOpen sort =>
      cases sort with
      | capturing number => cases opensNothing
      | _ => rfl
  | _ => rfl

/-- Tokens that are counted and spelled as what they are differ only in the names of their
groups. -/
theorem Renamed.of_counted {tally : Tally} {tokens : List Token}
    (counted : Token.Counted tally tokens) (spelled : ∀ token ∈ tokens, token.Spelled) :
    Renamed tally.plainGroups
      (tokens.map (Token.rendered (.ofPass options foldCase false)))
      (tokens.map (Token.rendered (.ofPass options foldCase true))) := by
  induction tokens generalizing tally with
  | nil => exact .nil _
  | cons token others inductionHypothesis =>
      obtain ⟨countsOn, rest⟩ := counted
      obtain ⟨here, later⟩ := List.forall_mem_cons.1 spelled
      have renamed := inductionHypothesis rest later
      rw [List.map_cons, List.map_cons]
      by_cases opens : token.opensCapture
      · obtain ⟨number, same⟩ := Token.lexeme_of_opensCapture opens
        rw [same] at countsOn renamed
        obtain rfl : number = tally.plainGroups + 1 := countsOn
        rw [Token.rendered_opening same]
        refine .opening (here.opening.trans opens) ?_ renamed
        change token.text _ = _
        rw [Token.text, same]
        rfl
      · rw [Bool.not_eq_true] at opens
        rw [Tally.plainGroups_record opens] at renamed
        cases refers : token.reference? with
        | some number =>
            have same := here.lexeme_eq refers
            rw [Token.rendered_reference same]
            refine .reference refers ?_ renamed
            change token.text _ = _
            rw [Token.text, same]
            rfl
        | none =>
            have nowhere : token.lexeme.reference? = none := here.reference ▸ refers
            rw [Token.rendered_eq opens nowhere]
            exact .other (here.opening.trans opens) refers renamed

end Tokens

/-- Rows that differ only in names do so as far as they are read. -/
theorem Renamed.take {count : Nat} {plain named : List Rendered}
    (renamed : Renamed count plain named) (read : Nat) :
    Renamed count (plain.take read) (named.take read) := by
  induction renamed generalizing read with
  | nil count =>
      rw [List.take_nil]
      exact .nil count
  | opening opens text rest restTaken =>
      cases read with
      | zero => exact .nil _
      | succ read => exact .opening opens text (restTaken read)
  | reference refers text rest restTaken =>
      cases read with
      | zero => exact .nil _
      | succ read => exact .reference refers text (restTaken read)
  | other opensNothing refersNowhere rest restTaken =>
      cases read with
      | zero => exact .nil _
      | succ read => exact .other opensNothing refersNowhere (restTaken read)

/-! ### Translations -/

/-- Two translations of one pattern come to the same end: the same cause of failure, or the
same level and the same facts. -/
inductive Translation.Agree :
    Except ConversionError Translation → Except ConversionError Translation → Prop
  | failed {first second : ConversionError} (cause : first.cause = second.cause) :
      Agree (.error first) (.error second)
  | succeeded {first second : Translation} (magicness : first.magicness = second.magicness)
      (metadata : first.metadata = second.metadata) :
      Agree (.ok first) (.ok second)

/-- The end of a translation besides its text. -/
def Translation.report (translation : Translation) : Magicness × Metadata :=
  (translation.magicness, translation.metadata)

/-- The end of a conversion besides its text. -/
def Conversion.report (conversion : Conversion) : Magicness × Metadata :=
  (conversion.magicness, conversion.metadata)

section Whole

variable {options : Options} {pattern : String}

/-- The texts of a pattern are put together to the text of its tree. -/
theorem TextGrowth.run_renderedTokens (options : Options) (foldCase namedGroups : Bool)
    (pattern : String) :
    TextGrowth.run (Scan.ofPattern options.magicness pattern).result {} 0
        (renderedTokens options foldCase namedGroups pattern) =
      (Tree.ofScan (Scan.ofPattern options.magicness pattern)).map
        (Grown.worded (.ofPass options foldCase namedGroups)) :=
  Growth.worded_run _ _ {} 0 _

/-- A pattern that grows to a tree is translated to the text of the tree. -/
theorem translate_of_complete {grown : Grown}
    (complete : Tree.ofScan (Scan.ofPattern options.magicness pattern) = .ok grown)
    (foldCase namedGroups : Bool) :
    translate options foldCase namedGroups pattern =
      { tokens := renderedTokens options foldCase namedGroups pattern
        outcome :=
          .ok
            { body := grown.tree.text (.ofPass options foldCase namedGroups)
              magicness := grown.context.magicness
              metadata := .ofTally grown.context.tally grown.dollarEnds } } := by
  rw [translate, TextGrowth.run_renderedTokens, complete]
  rfl

/-- A pattern that does not grow to a tree cannot be translated, for the same cause and
after as many tokens. -/
theorem translate_of_failed {failure : Failure}
    (failed : Tree.ofScan (Scan.ofPattern options.magicness pattern) = .error failure)
    (foldCase namedGroups : Bool) :
    translate options foldCase namedGroups pattern =
      { tokens := (renderedTokens options foldCase namedGroups pattern).take failure.read
        outcome :=
          .error
            { pattern := pattern
              partialText :=
                Rendered.partialText
                  ((renderedTokens options foldCase namedGroups pattern).take failure.read)
              cause := failure.cause } } := by
  rw [translate, TextGrowth.run_renderedTokens, failed]
  rfl

/-- The text of the first tokens is that which the conversion reports. -/
theorem partialText_renderedTokens (options : Options) (foldCase : Bool)
    (pattern : String) (read : Nat) :
    Rendered.partialText ((renderedTokens options foldCase false pattern).take read) =
      partialText options foldCase
        ((Scan.ofPattern options.magicness pattern).tokens.take read) := by
  have same : Rendered.textOf ((renderedTokens options foldCase false pattern).take read) =
      Token.textOf (.ofPass options foldCase false)
        ((Scan.ofPattern options.magicness pattern).tokens.take read) := by
    rw [Rendered.textOf, renderedTokens, ← List.map_take, List.map_map]
    rfl
  rw [Rendered.partialText, same]
  rfl

/-- A converted pattern is the end of the translation with names exactly if they are
needed. -/
theorem Conversion.ofGrown_eq {foldCase : Bool} {grown : Grown} {namedGroups : Bool}
    (needed :
      (Metadata.ofTally grown.context.tally grown.dollarEnds).needsNamedGroups =
        namedGroups) :
    Conversion.ofGrown options foldCase grown =
      Translation.conversion foldCase
        { body := grown.tree.text (.ofPass options foldCase namedGroups)
          magicness := grown.context.magicness
          metadata := .ofTally grown.context.tally grown.dollarEnds } := by
  subst needed
  rfl

/-- Both translations read the same tokens but for the names. -/
theorem renamed_translate (options : Options) (foldCase : Bool) (pattern : String) :
    Renamed 0 (translate options foldCase false pattern).tokens
      (translate options foldCase true pattern).tokens := by
  have counted := Scan.counted_ofPattern options.magicness pattern
  have spelled := Scan.spelled_ofPattern options.magicness pattern
  have renamed : Renamed 0 (renderedTokens options foldCase false pattern)
      (renderedTokens options foldCase true pattern) :=
    Renamed.of_counted counted spelled
  cases grows : Tree.ofScan (Scan.ofPattern options.magicness pattern) with
  | ok grown =>
      rw [translate_of_complete grows, translate_of_complete grows]
      exact renamed
  | error failure =>
      rw [translate_of_failed grows, translate_of_failed grows]
      exact renamed.take failure.read

example :
    (translate {} false true "\\%(a\\)\\(b\\)\\1").tokens.map Rendered.text =
      ["(?:", "a", ")", "(?<g1>", "b", ")", "\\k<g1>"] := by
  rfl

/-- Both translations come to the same end. -/
theorem Translation.agree (options : Options) (foldCase : Bool) (pattern : String) :
    Agree (translate options foldCase false pattern).outcome
      (translate options foldCase true pattern).outcome := by
  cases grows : Tree.ofScan (Scan.ofPattern options.magicness pattern) with
  | ok grown =>
      rw [translate_of_complete grows, translate_of_complete grows]
      exact .succeeded rfl rfl
  | error failure =>
      rw [translate_of_failed grows, translate_of_failed grows]
      exact .failed rfl

/-- Converting by two translations gives what converting by one tree gives. -/
theorem convertInPasses_eq (options : Options) (pattern : String) :
    convertInPasses options pattern = convert options pattern := by
  by_cases empty : pattern.isEmpty
  · rw [convertInPasses, convert, if_pos empty, if_pos empty]
  · rw [convertInPasses, convert, if_neg empty, if_neg empty]
    dsimp only
    cases grows : Tree.ofScan (Scan.ofPattern options.magicness pattern) with
    | error failure =>
        rw [translate_of_failed grows, partialText_renderedTokens]
        rfl
    | ok grown =>
        rw [translate_of_complete grows, translate_of_complete grows]
        cases needed :
          (Metadata.ofTally grown.context.tally grown.dollarEnds).needsNamedGroups with
        | true =>
            exact (if_pos needed).trans
              (congrArg Except.ok (Conversion.ofGrown_eq needed).symm)
        | false =>
            have unneeded := Bool.eq_false_iff.1 needed
            exact (if_neg unneeded).trans
              (congrArg Except.ok (Conversion.ofGrown_eq needed).symm)

/-- Where the first translation ends well, so does the second, with the same report. -/
theorem Translation.Agree.exists_ok {first : Translation}
    {other : Except ConversionError Translation} (agree : Agree (.ok first) other) :
    ∃ second, other = .ok second ∧ second.report = first.report := by
  cases agree with
  | succeeded magicness metadata =>
      exact ⟨_, rfl, by rw [report, report, magicness, metadata]⟩

/-- The first translation decides whether a pattern converts and what is reported about
it. -/
theorem report_convertInPasses (options : Options) (pattern : String) :
    (convertInPasses options pattern).map Conversion.report =
      (translate options (foldsCase options pattern) false pattern).outcome.map
        Translation.report := by
  by_cases empty : pattern.isEmpty
  · obtain rfl : pattern = "" := by simpa using empty
    rfl
  · rw [convertInPasses, if_neg empty]
    dsimp only
    have agree := Translation.agree options (foldsCase options pattern) pattern
    cases plain : (translate options (foldsCase options pattern) false pattern).outcome with
    | error error => rfl
    | ok first =>
        -- The second translation may be made now; that it can fail only if the first did is
        -- what keeps the pattern converted.
        rw [plain] at agree
        obtain ⟨second, named, same⟩ := agree.exists_ok
        rw [named]
        change Except.map _ (if first.metadata.needsNamedGroups then _ else _) = _
        by_cases needed : first.metadata.needsNamedGroups
        · rw [if_pos needed]
          exact congrArg Except.ok same
        · rw [if_neg needed]
          rfl

end Whole

/-- A translation with names and one without read the same tokens but for the names, and
come to the same end.  So a second translation fails only where the first has failed, it
reports what the first has reported, and the two together are the conversion. -/
theorem agree_translate (options : Options) (foldCase : Bool) (pattern : String) :
    Translation.Agree (translate options foldCase false pattern).outcome
        (translate options foldCase true pattern).outcome ∧
      Renamed 0 (translate options foldCase false pattern).tokens
          (translate options foldCase true pattern).tokens ∧
        convertInPasses options pattern = convert options pattern ∧
          (convertInPasses options pattern).map Conversion.report =
            (translate options (foldsCase options pattern) false pattern).outcome.map
              Translation.report :=
  ⟨Translation.agree options foldCase pattern, renamed_translate options foldCase pattern,
    convertInPasses_eq options pattern, report_convertInPasses options pattern⟩

end VimPattern
