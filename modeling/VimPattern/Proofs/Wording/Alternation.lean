/-
Module: VimPattern.Proofs.Wording.Alternation
Purpose: Two patterns converted as alternatives of one pattern.
Main exports:
  Scan.ofPattern_alternative, TextGrowth.run_append_alternative, Token.Anonymous,
  convert_eq_ok_iff, caseMarker?_alternative, convert_alternative
-/
import VimPattern.Proofs.Capture.Targets
import VimPattern.Proofs.Scan.Joints
import VimPattern.Proofs.Scan.Reach
import VimPattern.Proofs.Scan.Relocation
import VimPattern.Proofs.Wording.Behind
import VimPattern.Proofs.Wording.Renaming

namespace VimPattern

/-!
A pattern with another one behind a separator is converted to the two texts with a bar
between them.  Three things have to agree for that.  The scanner reads the first pattern as
if nothing followed it and the second as if nothing came before; the texts of the second are
put together behind the alternatives of the first; and neither pattern has anything that is
decided for the whole: a case marker, or a group with a name and a reference beside it.
-/

/-! ### Reading -/

/-- The separator of alternatives at this offset. -/
def Token.bar (position : Nat) (level : Magicness) : Token :=
  { lexeme := .alternative
    raw := "\\|"
    position := position
    magicness := level }

namespace Scan

/-- An escaped bar separates alternatives below the highest level. -/
theorem verdict_bar {context : Context} (closed : context.enclosing = [])
    (escapes : context.magicness ≠ .veryMagic) (text : List Char) :
    context.verdict '\\' ('|' :: text) = .item (.lexeme .alternative) 1 := by
  rcases context with ⟨level, enclosing, star, line, tally⟩
  obtain rfl : enclosing = [] := closed
  cases level with
  | veryMagic => exact absurd rfl escapes
  | _ => rfl

/-- A pattern with a second one behind a separator is read as the first one and then, from
the level where that leaves off, as the second. -/
theorem ofPattern_alternative {level : Magicness} {first second : String}
    {terminus : Terminus} (finished : (ofPattern level first).ending = .finished terminus)
    (named : ∀ waiting ∈ markPrefixes, ¬waiting <:+ first.toList)
    (escapes : terminus.context.magicness ≠ .veryMagic)
    (notStar : ∀ token ∈ (ofPattern terminus.context.magicness second).tokens.head?,
      token.raw ≠ "*") :
    ∃ star, ∃ items : List Item,
      items.filterMap Item.token? =
          (ofPattern level first).tokens ++
            [Token.bar terminus.position terminus.context.magicness] ∧
        ofPattern level (first ++ "\\|" ++ second) =
          (((ofPattern terminus.context.magicness second).withStar star).behind
            { offset := terminus.position + 2
              front := terminus.context.tally }).follow items := by
  let bar := Token.bar terminus.position terminus.context.magicness
  let item : Item :=
    { content := .lexeme bar.lexeme
      raw := bar.raw
      position := bar.position
      magicness := bar.magicness }
  let displacement : Displacement :=
    { offset := terminus.position + 2
      front := terminus.context.tally }
  have closed := (exists_reaches_end finished).2
  have detached : Detached ('\\' :: '|' :: second.toList) :=
    ⟨'|', second.toList, rfl, by decide, by decide, by decide⟩
  have characters : (first ++ "\\|" ++ second).toList =
      first.toList ++ '\\' :: '|' :: second.toList := by
    simp
  have prior := (reads_ofPattern level first).readFrom_append detached finished named
  have separator :
      readFrom terminus.context terminus.position 0 ('\\' :: '|' :: second.toList) =
        (readFrom (terminus.context.afterToken bar) (terminus.position + 2) 0
          second.toList).cons item :=
    @readFrom_token _ _ _ _ bar _ (verdict_bar closed escapes second.toList) rfl rfl rfl
  have after : terminus.context.afterToken bar =
      ((Context.start terminus.context.magicness).withStar false).behind displacement := by
    simp [Context.afterToken, Context.enclosingAfter, closed, bar, Token.bar, Token.kind,
      Lexeme.kind, Tally.record, Context.withStar, Context.behind, Context.start,
      displacement]
  obtain ⟨star, later⟩ :=
    (reads_ofPattern terminus.context.magicness second).withStar notStar false
  have moved := readFrom_behind displacement
    ((Context.start terminus.context.magicness).withStar false) 0 0 second.toList
  rw [later, Nat.add_zero] at moved
  refine ⟨star, (ofPattern level first).items ++ [item], List.filterMap_append, ?_⟩
  rw [ofPattern, characters, prior, separator, after, moved]
  simp [follow, cons, displacement]

/-- What comes before a scan does not change how it ends. -/
@[simp] theorem result_follow_of_finished {items : List Item} {scan : Scan}
    {terminus : Terminus} (finished : scan.ending = .finished terminus) :
    (scan.follow items).result = .ok terminus := by
  rw [result, follow, finished]

/-- The tokens of two alternatives are those of the first, the separator and those of the
second, and the pattern is read to its end if both are. -/
theorem tokens_alternative {level : Magicness} {first second : String}
    {terminus terminus' : Terminus}
    (finished : (ofPattern level first).ending = .finished terminus)
    (finished' :
      (ofPattern terminus.context.magicness second).ending = .finished terminus')
    (named : ∀ waiting ∈ markPrefixes, ¬waiting <:+ first.toList)
    (escapes : terminus.context.magicness ≠ .veryMagic)
    (notStar : ∀ token ∈ (ofPattern terminus.context.magicness second).tokens.head?,
      token.raw ≠ "*") :
    ∃ (displacement : Displacement) (star : Bool),
      displacement.front = terminus.context.tally ∧
        (ofPattern level (first ++ "\\|" ++ second)).tokens =
            (ofPattern level first).tokens ++
              Token.bar terminus.position terminus.context.magicness ::
                (ofPattern terminus.context.magicness second).tokens.map
                  (Token.behind displacement) ∧
          (ofPattern level (first ++ "\\|" ++ second)).result =
            .ok
              { position := displacement.offset + terminus'.position
                context := (terminus'.context.withStar star).behind displacement } := by
  obtain ⟨star, items, read, scan⟩ := ofPattern_alternative finished named escapes notStar
  let displacement : Displacement :=
    { offset := terminus.position + 2
      front := terminus.context.tally }
  refine ⟨displacement, star, rfl, ?_, ?_⟩
  · rw [scan, tokens_follow, read, tokens_behind, List.append_assoc]
    rfl
  · rw [scan]
    apply result_follow_of_finished
    rw [behind, withStar, finished']
    rfl

end Scan

/-! ### Putting the texts together -/

namespace TextGrowth

/-- A token before the end of the pattern and one before another alternative are told the
same about what follows. -/
theorem step_before_alternative {bar : Rendered} (separates : bar.kind = .alternative)
    (growth : TextGrowth) (token : Rendered) :
    growth.step token (some bar) = growth.step token none := by
  have place : dollarPlace (some bar) = dollarPlace none := by
    simp [dollarPlace, endsOperand, separates]
  have ends : endsAlternative (some bar) = endsAlternative none := by
    simp [endsAlternative, separates]
  have dollar : growth.addDollar token (some bar) = growth.addDollar token none := by
    rw [addDollar, addDollar, place, ends]
  rcases growth with ⟨base, scopes, _ | ⟨opener, text⟩, noted⟩
  · simp only [step, stepOutside, dollar]
  · rfl

/-- A run that ends well has come to the end of the pattern. -/
theorem exists_terminus_of_run_eq_ok {stop : Except ScanError Terminus}
    {growth : TextGrowth} {read : Nat} {tokens : List Rendered} {worded : Worded}
    (complete : growth.run stop read tokens = .ok worded) :
    ∃ terminus, stop = .ok terminus ∧ worded.context = terminus.context := by
  induction tokens generalizing growth read with
  | nil =>
      cases stop with
      | error error => cases complete
      | ok terminus =>
          refine ⟨terminus, rfl, ?_⟩
          rw [run] at complete
          cases finished : growth.finish terminus.position with
          | error error =>
              rw [finished] at complete
              cases complete
          | ok body =>
              rw [finished] at complete
              cases complete
              rfl
  | cons token others inductionHypothesis =>
      rw [run] at complete
      cases stepped : growth.step token others.head? with
      | ok after =>
          rw [stepped] at complete
          exact inductionHypothesis complete
      | error refusal =>
          rw [stepped] at complete
          rcases refusal with ⟨cause, _ | _⟩ <;> cases others <;> cases stop <;> cases complete

/-- Tokens that are a whole pattern are a whole alternative if a separator follows. -/
theorem run_append_alternative {bar : Rendered} (separates : bar.kind = .alternative)
    (others : List Rendered) (stop : Except ScanError Terminus) {terminus : Terminus}
    {growth : TextGrowth} {read : Nat} {tokens : List Rendered} {worded : Worded}
    (complete : growth.run (.ok terminus) read tokens = .ok worded) :
    ∃ draft : TextDraft, draft.body = worded.body ∧
      growth.run stop read (tokens ++ bar :: others) =
        TextGrowth.run stop
          { base := draft.alternate
            dollarEnds := worded.dollarEnds } (read + tokens.length + 1) others := by
  induction tokens generalizing growth read with
  | nil =>
      rw [run] at complete
      rcases growth with
        ⟨base, _ | ⟨⟨opener, draft⟩ | ⟨opener, pieces⟩, outer⟩, _ | inside, ends⟩
      · cases complete
        refine ⟨base, rfl, ?_⟩
        rw [List.nil_append, run]
        have taken : (⟨base, [], none, ends⟩ : TextGrowth).step bar others.head? =
            .ok { base := base.alternate, dollarEnds := ends } := by
          simp [step, stepOutside, separates, separate]
        rw [taken]
        rfl
      all_goals cases complete
  | cons token rest inductionHypothesis =>
      have following : growth.step token (rest ++ bar :: others).head? =
          growth.step token rest.head? := by
        cases rest with
        | nil => exact step_before_alternative separates growth token
        | cons next rest => rfl
      rw [run] at complete
      rw [List.cons_append, run, following]
      cases stepped : growth.step token rest.head? with
      | error refusal =>
          rw [stepped] at complete
          rcases refusal with ⟨cause, _ | _⟩ <;> cases rest <;> cases complete
      | ok after =>
          rw [stepped] at complete
          obtain ⟨draft, body, same⟩ := inductionHypothesis complete
          refine ⟨draft, body, ?_⟩
          dsimp only
          rw [same, List.length_cons, Nat.add_right_comm read]
          rfl

end TextGrowth

/-! ### Patterns whose groups keep their numbers -/

/-- The token neither makes a group with a name of its own nor refers back to a group. -/
def Token.Anonymous (token : Token) : Prop :=
  ¬token.namesGroup ∧ token.lexeme.reference? = none

instance (token : Token) : Decidable token.Anonymous :=
  inferInstanceAs (Decidable (_ ∧ _))

/-- The text of an anonymous token does not depend on what stands before it. -/
theorem Token.rendered_behind {token : Token} (anonymous : token.Anonymous)
    (options : Options) (displacement : Displacement) :
    (token.behind displacement).rendered (.ofPass options false false) =
      (token.rendered (.ofPass options false false)).behind displacement.offset := by
  rcases token with ⟨lexeme, raw, position, level⟩
  obtain ⟨unnamed, _⟩ := anonymous
  cases lexeme with
  | literal literal =>
      cases literal with
      | matchStart first | matchEnd first => exact absurd rfl unnamed
      | _ => rfl
  | groupOpen sort =>
      cases sort with
      | external number => exact absurd rfl unnamed
      | _ => rfl
  | _ => rfl

theorem Token.anonymous_behind {token : Token} (anonymous : token.Anonymous)
    (displacement : Displacement) : (token.behind displacement).Anonymous := by
  rcases token with ⟨lexeme, raw, position, level⟩
  cases lexeme with
  | literal literal => cases literal <;> exact anonymous
  | groupOpen sort => cases sort <;> exact anonymous
  | _ => exact anonymous

/-- Anonymous tokens leave only plain groups and references to other patterns in the
tally. -/
theorem Token.tally_of_anonymous {tokens : List Token}
    (anonymous : ∀ token ∈ tokens, token.Anonymous) :
    (Token.tally {} tokens).externalGroups = 0 ∧
      (Token.tally {} tokens).matchStart = false ∧
        (Token.tally {} tokens).matchEnd = false ∧
          (Token.tally {} tokens).backReference = false := by
  have unnamed : ∀ token ∈ tokens, ¬token.namesGroup := fun token among =>
    (anonymous token among).1
  obtain ⟨external, matchStart, matchEnd⟩ := Token.tally_of_unnamed unnamed {}
  refine ⟨external, matchStart, matchEnd, ?_⟩
  rw [Token.backReference_tally, Bool.false_or, List.any_eq_false]
  intro token among
  rw [(anonymous token among).2]
  exact Bool.false_ne_true

/-- What a worded pattern is converted to, without a wrapper for folded case. -/
def Worded.conversion (worded : Worded) : Conversion :=
  { converted := worded.body
    ignoreCase := false
    magicness := worded.context.magicness
    metadata := .ofTally worded.context.tally worded.dollarEnds }

/-- A pattern of anonymous tokens whose case is kept converts exactly if its texts can be put
together without names, and to what they give. -/
theorem convert_eq_ok_iff {options : Options} {pattern : String} {conversion : Conversion}
    (keepsCase : options.ignoreCase = false) (unmarked : caseMarker? pattern.toList = none)
    (anonymous : ∀ token ∈ (Scan.ofPattern options.magicness pattern).tokens,
      token.Anonymous) :
    convert options pattern = .ok conversion ↔
      ∃ worded,
        TextGrowth.run (Scan.ofPattern options.magicness pattern).result {} 0
            (renderedTokens options false false pattern) = .ok worded ∧
          worded.conversion = conversion := by
  have runs := TextGrowth.run_renderedTokens options false false pattern
  have folds : foldsCase options pattern = false := by
    rw [foldsCase, unmarked, keepsCase]
    rfl
  by_cases empty : pattern.isEmpty
  · obtain rfl : pattern = "" := by simpa using empty
    have worded : TextGrowth.run (Scan.ofPattern options.magicness "").result {} 0
        (renderedTokens options false false "") =
          .ok
            { body := ""
              dollarEnds := false
              context := .start options.magicness } := rfl
    rw [convert, if_pos empty, worded, keepsCase]
    simp only [Except.ok.injEq, exists_eq_left']
    rfl
  · rw [convert, if_neg empty, folds, runs]
    dsimp only
    cases grows : Tree.ofScan (Scan.ofPattern options.magicness pattern) with
    | error failure => simp [Except.map]
    | ok grown =>
        have unneeded := needsNamedGroups_eq_false grows fun token among =>
          (anonymous token among).1
        have same : Conversion.ofGrown options false grown =
            (grown.worded (.ofPass options false false)).conversion :=
          Conversion.ofGrown_eq unneeded
        simp only [same, Except.map, Except.ok.injEq, exists_eq_left']

/-! ### Alternatives -/

/-- The separator keeps the pairs of backslashes on both sides apart, whether or not one is
left over before it. -/
theorem caseMarker?_alternative {first second : List Char}
    (unmarked : caseMarker? first = none) :
    caseMarker? (first ++ '\\' :: '|' :: second) = caseMarker? second := by
  induction first using caseMarker?.induct with
  | case1 => rfl
  | case2 => cases unmarked
  | case3 => cases unmarked
  | case4 char text notFold notKeep inductionHypothesis =>
      rw [caseMarker?] at unmarked
      · rw [List.cons_append, List.cons_append, caseMarker?]
        · exact inductionHypothesis unmarked
        all_goals assumption
      all_goals assumption
  | case5 char text notFold notKeep unpaired inductionHypothesis =>
      rw [caseMarker?] at unmarked
      · by_cases backslash : char = '\\'
        · -- A backslash that is left over takes the one of the separator with it.
          cases text with
          | nil =>
              subst backslash
              rfl
          | cons next text => exact (unpaired next text backslash rfl).elim
        · rw [List.cons_append, caseMarker?]
          · exact inductionHypothesis unmarked
          all_goals simp [backslash]
      all_goals assumption

/-- The level in the settings is not asked for by a text. -/
theorem Token.rendered_withLevel (options : Options) (level : Magicness)
    (foldCase namedGroups : Bool) (token : Token) :
    token.rendered (.ofPass { options with magicness := level } foldCase namedGroups) =
      token.rendered (.ofPass options foldCase namedGroups) := by
  rcases token with ⟨lexeme, raw, position, own⟩
  cases lexeme with
  | literal literal => cases literal <;> rfl
  | member member => cases member <;> rfl
  | _ => rfl

/-- The tokens of a pattern with a second one behind a separator. -/
theorem renderedTokens_alternative {options : Options} {first second : String}
    {level : Magicness} {position : Nat} {displacement : Displacement}
    (tokens : (Scan.ofPattern options.magicness (first ++ "\\|" ++ second)).tokens =
      (Scan.ofPattern options.magicness first).tokens ++ Token.bar position level ::
        (Scan.ofPattern level second).tokens.map (Token.behind displacement))
    (anonymous : ∀ token ∈ (Scan.ofPattern level second).tokens, token.Anonymous) :
    renderedTokens options false false (first ++ "\\|" ++ second) =
      renderedTokens options false false first ++
        (Token.bar position level).rendered (.ofPass options false false) ::
          (renderedTokens { options with magicness := level } false false second).map
            (Rendered.behind displacement.offset) := by
  rw [renderedTokens, tokens, List.map_append, List.map_cons, List.map_map, renderedTokens,
    renderedTokens, List.map_map]
  congr 2
  apply List.map_congr_left
  intro token among
  rw [Function.comp_apply, Function.comp_apply, Token.rendered_withLevel]
  exact Token.rendered_behind (anonymous token among) options displacement

/-- The facts about a pattern of two alternatives, none of which has a group with a name of
its own or a reference back. -/
theorem Metadata.ofTally_behind {first second : List Token}
    (anonymousFirst : ∀ token ∈ first, token.Anonymous)
    (anonymousSecond : ∀ token ∈ second, token.Anonymous) (ends otherEnds : Bool) :
    Metadata.ofTally ((Token.tally {} second).behind (Token.tally {} first))
        (ends || otherEnds) =
      { lastExternalMatch :=
          max (Metadata.ofTally (Token.tally {} first) ends).lastExternalMatch
            (Metadata.ofTally (Token.tally {} second) otherEnds).lastExternalMatch
        matchesMagicDollar := ends || otherEnds } := by
  obtain ⟨external, matchStart, matchEnd, backReference⟩ :=
    Token.tally_of_anonymous anonymousFirst
  obtain ⟨external', matchStart', matchEnd', backReference'⟩ :=
    Token.tally_of_anonymous anonymousSecond
  simp [Metadata.ofTally, Tally.behind, external, matchStart, matchEnd, backReference,
    external', matchStart', matchEnd', backReference']

/-- The two patterns are worded one behind the other. -/
theorem run_alternative {options : Options} {first second : String} {terminus : Terminus}
    {worded worded' : Worded}
    (stops : (Scan.ofPattern options.magicness first).result = .ok terminus)
    (named : ∀ waiting ∈ markPrefixes, ¬waiting <:+ first.toList)
    (escapes : terminus.context.magicness ≠ .veryMagic)
    (notStar : ∀ token ∈ (Scan.ofPattern terminus.context.magicness second).tokens.head?,
      token.raw ≠ "*")
    (anonymous : ∀ token ∈ (Scan.ofPattern terminus.context.magicness second).tokens,
      token.Anonymous)
    (runs : TextGrowth.run (Scan.ofPattern options.magicness first).result {} 0
      (renderedTokens options false false first) = .ok worded)
    (runs' : TextGrowth.run (Scan.ofPattern terminus.context.magicness second).result {} 0
      (renderedTokens { options with magicness := terminus.context.magicness } false false
        second) = .ok worded') :
    ∃ (displacement : Displacement) (star : Bool),
      displacement.front = terminus.context.tally ∧
        (Scan.ofPattern options.magicness (first ++ "\\|" ++ second)).tokens =
            (Scan.ofPattern options.magicness first).tokens ++
              Token.bar terminus.position terminus.context.magicness ::
                (Scan.ofPattern terminus.context.magicness second).tokens.map
                  (Token.behind displacement) ∧
          TextGrowth.run (Scan.ofPattern options.magicness (first ++ "\\|" ++ second)).result {} 0
              (renderedTokens options false false (first ++ "\\|" ++ second)) =
            .ok
              { body := worded.body ++ "|" ++ worded'.body
                dollarEnds := worded.dollarEnds || worded'.dollarEnds
                context := (worded'.context.withStar star).behind displacement } := by
  obtain ⟨terminus', stops', _⟩ := TextGrowth.exists_terminus_of_run_eq_ok runs'
  obtain ⟨displacement, star, tally, tokens, stop⟩ :=
    Scan.tokens_alternative (Scan.ending_of_result stops) (Scan.ending_of_result stops') named
      escapes notStar
  refine ⟨displacement, star, tally, tokens, ?_⟩
  let place (context : Context) : Context := (context.withStar star).behind displacement
  -- The first pattern is taken, and then the separator.
  have separates : ((Token.bar terminus.position terminus.context.magicness).rendered
      (.ofPass options false false)).kind = .alternative := rfl
  obtain ⟨draft, body, taken⟩ := TextGrowth.run_append_alternative separates
    ((renderedTokens { options with magicness := terminus.context.magicness } false false
      second).map (Rendered.behind displacement.offset))
    (Scan.ofPattern options.magicness (first ++ "\\|" ++ second)).result (stops ▸ runs)
  -- What has been taken stands before the second pattern.
  let front : Preceding :=
    { offset := displacement.offset
      read := 0 + (renderedTokens options false false first).length + 1
      alternatives := draft.pattern
      dollarEnds := worded.dollarEnds }
  have begun : ({ base := draft.alternate, dollarEnds := worded.dollarEnds } : TextGrowth) =
      ({} : TextGrowth).behind front := by
    simp [TextGrowth.behind, TextDraft.behind, TextDraft.alternate, front]
  have text : front.text = worded.body ++ "|" := body ▸ front.text_pattern rfl
  have later := TextGrowth.run_behind place id front (.ok terminus') {} 0
    (renderedTokens { options with magicness := terminus.context.magicness } false false
      second)
  rw [stops'] at runs'
  rw [runs'] at later
  rw [renderedTokens_alternative tokens anonymous, taken, begun, stop, ← text]
  exact later

/-- Two patterns that convert also convert as the alternatives of one pattern, to their two
texts with a bar between them.  The second one is converted from the level where the first
one leaves off.  Neither may have a case marker, a group with a name of its own or a
reference back, the first must not be waiting for the name of a mark, and the second must
not begin with a star. -/
theorem convert_alternative {options : Options} {first second : String}
    {left right : Conversion} (keepsCase : options.ignoreCase = false)
    (unmarkedFirst : caseMarker? first.toList = none)
    (unmarkedSecond : caseMarker? second.toList = none)
    (anonymousFirst : ∀ token ∈ (Scan.ofPattern options.magicness first).tokens,
      token.Anonymous)
    (anonymousSecond : ∀ token ∈ (Scan.ofPattern left.magicness second).tokens,
      token.Anonymous)
    (named : ∀ waiting ∈ markPrefixes, ¬waiting <:+ first.toList)
    (notStar : ∀ token ∈ (Scan.ofPattern left.magicness second).tokens.head?,
      token.raw ≠ "*")
    (escapes : left.magicness ≠ .veryMagic)
    (convertsFirst : convert options first = .ok left)
    (convertsSecond : convert { options with magicness := left.magicness } second = .ok right) :
    convert options (first ++ "\\|" ++ second) =
      .ok
        { converted := left.converted ++ "|" ++ right.converted
          ignoreCase := false
          magicness := right.magicness
          metadata :=
            { lastExternalMatch :=
                max left.metadata.lastExternalMatch right.metadata.lastExternalMatch
              matchesMagicDollar :=
                left.metadata.matchesMagicDollar || right.metadata.matchesMagicDollar } } := by
  obtain ⟨worded, runs, rfl⟩ :=
    (convert_eq_ok_iff keepsCase unmarkedFirst anonymousFirst).1 convertsFirst
  obtain ⟨terminus, stops, context⟩ := TextGrowth.exists_terminus_of_run_eq_ok runs
  have level : worded.conversion.magicness = terminus.context.magicness :=
    congrArg Context.magicness context
  rw [level] at anonymousSecond notStar escapes convertsSecond
  obtain ⟨worded', runs', rfl⟩ :=
    (@convert_eq_ok_iff { options with magicness := terminus.context.magicness } second right
      keepsCase unmarkedSecond anonymousSecond).1 convertsSecond
  obtain ⟨displacement, star, front, tokens, whole⟩ :=
    run_alternative stops named escapes notStar anonymousSecond runs runs'
  have unmarked : caseMarker? (first ++ "\\|" ++ second).toList = none := by
    have characters : (first ++ "\\|" ++ second).toList =
        first.toList ++ '\\' :: '|' :: second.toList := by
      simp
    rw [characters, caseMarker?_alternative unmarkedFirst, unmarkedSecond]
  have anonymous : ∀ token ∈
      (Scan.ofPattern options.magicness (first ++ "\\|" ++ second)).tokens,
        token.Anonymous := by
    rw [tokens, List.forall_mem_append, List.forall_mem_cons, List.forall_mem_map]
    exact ⟨anonymousFirst, ⟨Bool.false_ne_true, rfl⟩, fun token among =>
      Token.anonymous_behind (anonymousSecond token among) displacement⟩
  obtain ⟨terminus', stops', context'⟩ := TextGrowth.exists_terminus_of_run_eq_ok runs'
  have tally : worded.context.tally =
      Token.tally {} (Scan.ofPattern options.magicness first).tokens :=
    (congrArg Context.tally context).trans (Scan.tally_ofPattern stops)
  have tally' : worded'.context.tally =
      Token.tally {} (Scan.ofPattern terminus.context.magicness second).tokens :=
    (congrArg Context.tally context').trans (Scan.tally_ofPattern stops')
  have metadata := Metadata.ofTally_behind anonymousFirst anonymousSecond worded.dollarEnds
    worded'.dollarEnds
  rw [← tally, ← tally', context, ← front] at metadata
  refine (convert_eq_ok_iff keepsCase unmarked anonymous).2 ⟨_, whole, ?_⟩
  rw [Worded.conversion, Conversion.mk.injEq]
  refine ⟨rfl, rfl, rfl, metadata.trans ?_⟩
  rw [front, ← context]
  rfl

/-- The first pattern changes the level, and the second one is read at the new level.  A star
is itself there, and the group is the second one. -/
theorem convert_alternative_levels :
    convert {} "\\v^(a|b)+\\M\\z2$" =
        .ok
          { converted := "^(a|b)+\\z2$"
            ignoreCase := false
            magicness := .nonMagic
            metadata := { lastExternalMatch := 2, matchesMagicDollar := true } } ∧
      convert { magicness := .nonMagic } "^\\(c*\\)\\%[de]" =
          .ok
            { converted := "^(c\\*)(?:de|d|)"
              ignoreCase := false
              magicness := .nonMagic
              metadata := {} } ∧
        convert {} ("\\v^(a|b)+\\M\\z2$" ++ "\\|" ++ "^\\(c*\\)\\%[de]") =
          .ok
            { converted := "^(a|b)+\\z2$" ++ "|" ++ "^(c\\*)(?:de|d|)"
              ignoreCase := false
              magicness := .nonMagic
              metadata := { lastExternalMatch := 2, matchesMagicDollar := true } } := by
  have first : convert {} "\\v^(a|b)+\\M\\z2$" =
      .ok
        { converted := "^(a|b)+\\z2$"
          ignoreCase := false
          magicness := .nonMagic
          metadata := { lastExternalMatch := 2, matchesMagicDollar := true } } := by
    rfl
  have second : convert { magicness := .nonMagic } "^\\(c*\\)\\%[de]" =
      .ok
        { converted := "^(c\\*)(?:de|d|)"
          ignoreCase := false
          magicness := .nonMagic
          metadata := {} } := by
    rfl
  have anonymousFirst : ∀ token ∈ (Scan.ofPattern .magic "\\v^(a|b)+\\M\\z2$").tokens,
      token.Anonymous := by decide +kernel
  have anonymousSecond : ∀ token ∈ (Scan.ofPattern .nonMagic "^\\(c*\\)\\%[de]").tokens,
      token.Anonymous := by decide +kernel
  have named : ∀ waiting ∈ markPrefixes, ¬waiting <:+ "\\v^(a|b)+\\M\\z2$".toList := by
    decide +kernel
  have notStar : ∀ token ∈ (Scan.ofPattern .nonMagic "^\\(c*\\)\\%[de]").tokens.head?,
      token.raw ≠ "*" := by decide +kernel
  have unmarkedFirst : caseMarker? "\\v^(a|b)+\\M\\z2$".toList = none := by decide +kernel
  have unmarkedSecond : caseMarker? "^\\(c*\\)\\%[de]".toList = none := by decide +kernel
  have escapes : Magicness.nonMagic ≠ .veryMagic := by decide
  exact ⟨first, second, convert_alternative rfl unmarkedFirst unmarkedSecond anonymousFirst
    anonymousSecond named notStar escapes first second⟩

end VimPattern
