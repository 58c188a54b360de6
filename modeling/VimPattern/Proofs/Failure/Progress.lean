/-
Module: VimPattern.Proofs.Failure.Progress
Purpose: How far a pattern has been read when it turns out that it is not converted.
Main exports:
  Growth.Offends, Growth.Blames.exists_halts, Growth.Halts.exists_read,
  Growth.FailsAlone, exists_error_of_result, Cause.Reads, partialText_of_convert
-/
import VimPattern.Proofs.Failure.Blame
import VimPattern.Proofs.Grammar.Acceptance

namespace VimPattern

/-!
An error comes with the text of the tokens that had been read by then.  An item that cannot be
read stops the reading, and all the tokens in front of it have been read.  A token that is
refused has been read itself, and so may the one after it have been: a growth asks for one token
more before it takes a step, but it refuses some tokens before it asks.  Nothing further on has
any influence on the text.
-/

namespace Growth

/-- Behind these tokens the next one is to blame for the error, or the end of the tokens is. -/
inductive Offends : List Token → Option Token → ParseError → Prop where
  | missingOperand {before : List Token} {token : Token}
      (kind : token.kind = .quantifier ∨ token.kind = .assertion) :
      Offends before (some token) (.missingOperand token.raw token.position)
  | nestedQuantifier {before : List Token} {token : Token} (kind : token.kind = .quantifier) :
      Offends before (some token) (.nestedQuantifier token.raw token.position)
  | groupEnd {before : List Token} {token : Token} (kind : token.kind = .groupClose) :
      Offends before (some token) (.unexpectedGroupEnd token.position)
  | separator {before outer : List Token} {token opener : Token}
      (kind : token.kind = .conjunction ∨ token.kind = .alternative)
      (unclosed : Token.unclosed before = opener :: outer)
      (opens : opener.kind = .optionalOpen) :
      Offends before (some token) (.unexpectedToken token.raw token.position)
  | emptyOptional {earlier : List Token} {token opener : Token}
      (kind : token.kind = .optionalClose) (opens : opener.kind = .optionalOpen) :
      Offends (earlier ++ [opener]) (some token) (.emptyOptionalMatch opener.position)
  | unclosedGroup {before outer : List Token} {following : Option Token} {opener : Token}
      (unclosed : Token.unclosed before = opener :: outer) (opens : opener.kind = .groupOpen)
      (closes : ∀ token, following = some token → token.kind = .optionalClose) :
      Offends before following (.unclosedGroup opener.position)

/-! ### The offending token -/

/-- Where the opening of an optional sequence is left open last, the sequence is innermost. -/
theorem Kinded.exists_optional {growth : Growth} (kinded : growth.Kinded) {opener : Token}
    {outer : List Token} (openers : growth.openers = opener :: outer)
    (opens : opener.kind = .optionalOpen) :
    growth.collection = none ∧
      ∃ pieces scopes, growth.scopes = .optional opener pieces :: scopes := by
  rcases growth with ⟨base, scopes, _ | ⟨other, members⟩, dollarEnds⟩
  · rcases scopes with _ | ⟨⟨other, draft⟩ | ⟨other, pieces⟩, scopes⟩ <;> cases openers
    · cases opens.symm.trans (kinded.innermost rfl).1
    · exact ⟨rfl, pieces, scopes, rfl⟩
  · cases openers
    cases opens.symm.trans (kinded.collection _ _ rfl).1

/-- A growth with an empty optional sequence innermost has taken its opening last. -/
theorem tokens_of_empty {growth : Growth} {opener : Token} {outer : List Scope}
    (outside : growth.collection = none)
    (scopes : growth.scopes = .optional opener .empty :: outer) :
    ∃ earlier, growth.tokens = earlier ++ [opener] := by
  refine ⟨growth.base.tokens ++ outer.reverse.flatMap Scope.tokens, ?_⟩
  simp [tokens, outside, scopes, Scope.tokens, Tree.tokens]

/-- An optional sequence at whose end a growth stops is empty: its opening stands right before
its end. -/
theorem Halts.exists_earlier {tokens before outer : List Token} {token opener : Token}
    (halts : Halts tokens before (some token)) (kind : token.kind = .optionalClose)
    (unclosed : Token.unclosed before = opener :: outer) (opens : opener.kind = .optionalOpen) :
    ∃ earlier, before = earlier ++ [opener] := by
  obtain ⟨growth, takes, refused⟩ := halts.takes
  obtain ⟨refusal, refuses⟩ := refused token rfl
  obtain ⟨outside, pieces, scopes, innermost⟩ :=
    (Kinded.new.takes takes).exists_optional (takes.openers_eq.trans unclosed) opens
  cases pieces with
  | empty =>
      obtain ⟨earlier, last⟩ := tokens_of_empty outside innermost
      rw [takes.tokens_eq] at last
      exact ⟨earlier, last⟩
  | snoc pieces piece =>
      have taken : growth.step token none = .ok _ :=
        (Step.optionalClose outside kind innermost nofun).eq_ok
      cases taken.symm.trans (refuses.eq_error none)

/-- What is wrong with some tokens is wrong at a place where the growth stops. -/
theorem Blames.exists_halts {tokens : List Token} {cause : ParseError}
    (blames : Blames tokens cause) :
    ∃ before following, Halts tokens before following ∧ Offends before following cause := by
  cases blames with
  | unfinishedGroup halts unclosed opens =>
      exact ⟨_, _, halts, .unclosedGroup unclosed opens nofun⟩
  | unclosedGroup halts kind unclosed opens =>
      refine ⟨_, _, halts, .unclosedGroup unclosed opens ?_⟩
      rintro _ ⟨⟩
      exact kind
  | groupEnd halts kind => exact ⟨_, _, halts, .groupEnd kind⟩
  | missingOperand halts kind => exact ⟨_, _, halts, .missingOperand kind⟩
  | nestedQuantifier halts kind => exact ⟨_, _, halts, .nestedQuantifier kind⟩
  | emptyOptional halts kind unclosed opens =>
      obtain ⟨earlier, rfl⟩ := halts.exists_earlier kind unclosed opens
      exact ⟨_, _, halts, .emptyOptional kind opens⟩
  | separator halts kind unclosed opens =>
      exact ⟨_, _, halts, .separator kind unclosed opens⟩

/-! ### How many tokens have been read -/

/-- A run that fails where the growth stops has read the tokens up to there, the offending one,
and at most one more. -/
theorem Halts.exists_read {tokens before : List Token} {following : Option Token}
    (halts : Halts tokens before following) {stop : Except ScanError Terminus}
    {failure : Failure} (failed : Growth.run stop {} 0 tokens = .error failure) :
    ∃ ahead unread, tokens = before ++ following.toList ++ ahead ++ unread ∧
      ahead.length ≤ 1 ∧ tokens.take failure.read = before ++ following.toList ++ ahead := by
  obtain ⟨⟨others, rfl, rfl⟩, growth, takes, refused⟩ := halts
  rw [takes.run 0, Nat.zero_add] at failed
  cases others with
  | nil =>
      have read : failure.read = before.length := by
        unfold Growth.run at failed
        split at failed
        · cases failed
          rfl
        · split at failed <;> cases failed
          rfl
      exact ⟨[], [], by simp, by simp, by simp [read]⟩
  | cons token rest =>
      obtain ⟨refusal, refuses⟩ := refused token rfl
      rw [Growth.run, refuses.eq_error] at failed
      dsimp only at failed
      cases early : refusal.early with
      | true =>
          rw [early] at failed
          cases failed
          exact ⟨[], rest, by simp, by simp, by simp [List.take_length_add_append]⟩
      | false =>
          rw [early] at failed
          cases rest with
          | nil =>
              have read : failure.read = before.length + 1 := by
                cases stop <;> cases failed <;> rfl
              exact ⟨[], [], by simp, by simp, by simp [read, List.take_length_add_append]⟩
          | cons ahead unread =>
              cases failed
              refine ⟨[ahead], unread, by simp, by simp, ?_⟩
              simp [Nat.add_assoc, List.take_length_add_append]

/-- A run that fails since the reading was stopped has read all tokens. -/
theorem take_read_of_stopped {tokens : List Token} {failure : Failure}
    {stop error : ScanError} (failed : Growth.run (.error stop) {} 0 tokens = .error failure)
    (cause : failure.cause = .scan error) : tokens.take failure.read = tokens := by
  rcases run_stopped {} 0 tokens with whole | ⟨other, count, apart⟩
  · cases failed.symm.trans (whole stop)
    rw [Nat.zero_add, List.take_length]
  · cases failed.symm.trans (apart _)
    cases cause

/-- Growing these tokens fails like this, whatever comes behind them. -/
def FailsAlone (tokens : List Token) (failure : Failure) : Prop :=
  ∀ stop, Growth.run stop {} 0 tokens = .error failure

end Growth

/-! ### Whole patterns -/

/-- What has been read of a pattern when it turns out that it is not converted for this cause.
If it cannot be read, that is everything in front of the place where the reading stops.  If a
token is to blame, then that are the tokens up to this one, and perhaps the one behind it. -/
inductive Cause.Reads (level : Magicness) (pattern : String) : Cause → List Token → Prop where
  | scan {items : List Item} {context : Context} {position : Nat} {rest : List Char}
      {error : ScanError} (reaches : Scan.Reaches level pattern items context position rest)
      (stops : Scan.Stops context position rest (Scan.ofPattern level pattern).ending)
      (stopped : (Scan.ofPattern level pattern).result = .error error) :
      Reads level pattern (.scan error) (items.filterMap Item.token?)
  | parse {before ahead unread : List Token} {following : Option Token} {error : ParseError}
      (split : (Scan.ofPattern level pattern).tokens =
        before ++ following.toList ++ ahead ++ unread)
      (halts : Growth.Halts (Scan.ofPattern level pattern).tokens before following)
      (offends : Growth.Offends before following error) (most : ahead.length ≤ 1) :
      Reads level pattern (.parse error) (before ++ following.toList ++ ahead)

/-- Where reading stops with an error, the conversion fails with it, unless the tokens in front
fail by themselves.  Then the place is never looked at. -/
theorem exists_error_of_result {options : Options} {pattern : String} {stop : ScanError}
    (stopped : (Scan.ofPattern options.magicness pattern).result = .error stop) :
    ∃ error, convert options pattern = .error error ∧
      ((∀ failure,
        ¬Growth.FailsAlone (Scan.ofPattern options.magicness pattern).tokens failure) →
          error.cause = .scan stop) ∧
        ∀ failure, Growth.FailsAlone (Scan.ofPattern options.magicness pattern).tokens failure →
          error.cause = failure.cause := by
  cases converts : convert options pattern with
  | ok conversion =>
      obtain ⟨⟨terminus, whole⟩, _⟩ := (exists_convert_iff options pattern).1 ⟨_, converts⟩
      cases stopped.symm.trans whole
  | error error =>
      obtain ⟨failure, incomplete, cause, _⟩ := exists_failure_of_convert converts
      rw [Tree.ofScan, stopped] at incomplete
      refine ⟨error, rfl, ?_, ?_⟩
      · intro fails
        rcases Growth.run_stopped {} 0 (Scan.ofPattern options.magicness pattern).tokens with
          whole | ⟨_, _, alone⟩
        · cases incomplete.symm.trans (whole stop)
          exact cause
        · exact absurd alone (fails _)
      · intro other alone
        cases incomplete.symm.trans (alone _)
        exact cause

/-- The text of some tokens is left out exactly if it is empty. -/
theorem getD_partialText (options : Options) (foldCase : Bool) (tokens : List Token) :
    (partialText options foldCase tokens).getD "" =
        Token.textOf
          { options := options
            foldCase := foldCase } tokens ∧
      partialText options foldCase tokens ≠ some "" := by
  unfold partialText
  dsimp only
  split
  · next empty => exact ⟨(String.isEmpty_iff.1 empty).symm, nofun⟩
  · next nonempty =>
      refine ⟨rfl, ?_⟩
      intro same
      rw [Option.some.inj same] at nonempty
      exact nonempty rfl

/-- Partial text.  The text that comes with an error is that of the tokens which had been read
when it came up, one behind the other, and it is left out exactly if it is empty. -/
theorem partialText_of_convert {options : Options} {pattern : String} {error : ConversionError}
    (failed : convert options pattern = .error error) :
    ∃ read, error.cause.Reads options.magicness pattern read ∧
      read <+: (Scan.ofPattern options.magicness pattern).tokens ∧
        error.partialText.getD "" =
            Token.textOf
              { options := options
                foldCase := foldsCase options pattern } read ∧
          error.partialText ≠ some "" := by
  obtain ⟨failure, incomplete, cause, text⟩ := exists_failure_of_convert failed
  rw [Tree.ofScan] at incomplete
  rw [text]
  refine ⟨_, ?_, List.take_prefix _ _, getD_partialText options _ _⟩
  rcases blames_of_convert failed with ⟨scanError, stopped, same⟩ | ⟨parseError, same, blames⟩
  · obtain ⟨context, position, rest, reaches, stops⟩ :=
      Scan.exists_stop options.magicness pattern
    rw [stopped] at incomplete
    rw [same, Growth.take_read_of_stopped incomplete (cause.symm.trans same)]
    exact .scan reaches stops stopped
  · obtain ⟨before, following, halts, offends⟩ := blames.exists_halts
    obtain ⟨ahead, unread, split, most, read⟩ := halts.exists_read incomplete
    rw [same, read]
    exact .parse split halts offends most

/-- A group is closed inside an optional sequence.  The letter behind its end has been read, and
the rest has not. -/
theorem partialText_of_convert_ahead :
    let style : Style := { options := {} }
    ∃ error read, convert {} "a\\%[b\\)c]d" = .error error ∧
      error.cause = .parse (.unexpectedGroupEnd 5) ∧
        error.cause.Reads .magic "a\\%[b\\)c]d" read ∧
          read <+: (Scan.ofPattern .magic "a\\%[b\\)c]d").tokens ∧
            error.partialText.getD "" = Token.textOf style read ∧
              error.partialText ≠ some "" ∧ Token.textOf style read = "a\\%[b)c" := by
  have failed :
      convert {} "a\\%[b\\)c]d" =
        .error
          { pattern := "a\\%[b\\)c]d"
            partialText := some "a\\%[b)c"
            cause := .parse (.unexpectedGroupEnd 5) } := by
    rfl
  obtain ⟨read, reads, first, text, nonempty⟩ := partialText_of_convert failed
  exact ⟨_, read, failed, rfl, reads, first, text, nonempty, text.symm⟩

end VimPattern
