/-
Module: VimPattern.Proofs.Grammar.Refusal
Purpose: Everything that can keep a growth from taking a token, and a pattern from growing.
Main exports:
  Growth.Refuses, Growth.Refuses.of_eq_error, Growth.Refuses.eq_error, Growth.Unfinished,
  Growth.Failing, Growth.failing_of_run_eq_error, Growth.run_stopped,
  exists_failure_of_convert, failing_of_convert
-/
import VimPattern.Conversion
import VimPattern.Proofs.Grammar.Step

namespace VimPattern

/-!
The counterpart of `Growth.Step`: the tokens that a growth does not take, each with its guard
and the error it is refused with.  A pattern that is not converted has either not been read to
its end, or some construct is open at its end, or there is a token that is refused after all
tokens before it have been taken.
-/

namespace Growth

/-- The tokens that cannot be taken, with the refusal that each of them meets. -/
inductive Refuses (growth : Growth) (token : Token) : Refusal → Prop where
  | missingOperand (outside : growth.collection = none)
      (kind : token.kind = .quantifier ∨ token.kind = .assertion)
      (nothing : growth.pieces = .empty) :
      Refuses growth token { cause := .missingOperand token.raw token.position }
  | nestedQuantifier {pieces : Tree .concat} {piece : Tree .piece}
      (outside : growth.collection = none) (kind : token.kind = .quantifier)
      (last : growth.pieces = .snoc pieces piece) (changed : ∀ atom, piece ≠ .bare atom) :
      Refuses growth token { cause := .nestedQuantifier token.raw token.position }
  | separator {opener : Token} {pieces : Tree .concat} {outer : List Scope}
      (outside : growth.collection = none)
      (kind : token.kind = .conjunction ∨ token.kind = .alternative)
      (scopes : growth.scopes = .optional opener pieces :: outer) :
      Refuses growth token { cause := .unexpectedToken token.raw token.position }
  | groupEnd {opener : Token} {pieces : Tree .concat} {outer : List Scope}
      (outside : growth.collection = none) (kind : token.kind = .groupClose)
      (scopes : growth.scopes = .optional opener pieces :: outer) :
      Refuses growth token { cause := .unexpectedGroupEnd token.position }
  | groupEndOutside (outside : growth.collection = none) (kind : token.kind = .groupClose)
      (scopes : growth.scopes = []) :
      Refuses growth token
        { cause := .unexpectedGroupEnd token.position
          early := true }
  | emptyOptional {opener : Token} {outer : List Scope}
      (outside : growth.collection = none) (kind : token.kind = .optionalClose)
      (scopes : growth.scopes = .optional opener .empty :: outer) :
      Refuses growth token { cause := .emptyOptionalMatch opener.position }
  | unclosedGroup {opener : Token} {draft : Draft} {outer : List Scope}
      (outside : growth.collection = none) (kind : token.kind = .optionalClose)
      (scopes : growth.scopes = .group opener draft :: outer) :
      Refuses growth token
        { cause := .unclosedGroup opener.position
          early := true }
  | strayOptionalClose (outside : growth.collection = none)
      (kind : token.kind = .optionalClose) (scopes : growth.scopes = []) :
      Refuses growth token
        { cause := .unexpectedToken token.raw token.position
          early := true }
  | strayCollectionClose (outside : growth.collection = none)
      (kind : token.kind = .collectionClose) :
      Refuses growth token { cause := .unexpectedToken token.raw token.position }
  | strayInside {opener : Token} {members : List Token}
      (inside : growth.collection = some (opener, members))
      (notMember : token.kind ≠ .literal) (notClose : token.kind ≠ .collectionClose) :
      Refuses growth token
        { cause := .unexpectedToken token.raw token.position
          early := true }

namespace Refuses

variable {growth : Growth} {token : Token} {refusal : Refusal}

theorem of_quantify (outside : growth.collection = none) (kind : token.kind = .quantifier)
    (refused : growth.quantify token = .error refusal) : Refuses growth token refusal := by
  unfold quantify at refused
  split at refused
  · next nothing =>
      cases refused
      exact .missingOperand outside (.inl kind) nothing
  · cases refused
  · next changed last =>
      cases refused
      exact .nestedQuantifier outside kind last changed

theorem of_assert (outside : growth.collection = none) (kind : token.kind = .assertion)
    (refused : growth.assert token = .error refusal) : Refuses growth token refusal := by
  unfold assert at refused
  split at refused
  · next nothing =>
      cases refused
      exact .missingOperand outside (.inr kind) nothing
  · cases refused

theorem of_separate {renew : Draft → Draft} (outside : growth.collection = none)
    (kind : token.kind = .conjunction ∨ token.kind = .alternative)
    (refused : growth.separate token renew = .error refusal) :
    Refuses growth token refusal := by
  unfold separate at refused
  split at refused
  · cases refused
  · cases refused
  · next scopes =>
      cases refused
      exact .separator outside kind scopes

theorem of_closeGroup (outside : growth.collection = none) (kind : token.kind = .groupClose)
    (refused : growth.closeGroup token = .error refusal) : Refuses growth token refusal := by
  unfold closeGroup at refused
  split at refused
  · cases refused
  · next scopes =>
      cases refused
      exact .groupEnd outside kind scopes
  · next scopes =>
      cases refused
      exact .groupEndOutside outside kind scopes

theorem of_closeOptional (outside : growth.collection = none)
    (kind : token.kind = .optionalClose)
    (refused : growth.closeOptional token = .error refusal) :
    Refuses growth token refusal := by
  unfold closeOptional at refused
  split at refused
  · next scopes =>
      cases refused
      exact .emptyOptional outside kind scopes
  · cases refused
  · next scopes =>
      cases refused
      exact .unclosedGroup outside kind scopes
  · next scopes =>
      cases refused
      exact .strayOptionalClose outside kind scopes

/-- A token that is not taken is one of the listed ones. -/
theorem of_eq_error {following : Option Token}
    (refused : growth.step token following = .error refusal) :
    Refuses growth token refusal := by
  unfold step at refused
  split at refused
  · next inside =>
      unfold stepInCollection at refused
      split at refused
      · cases refused
      · cases refused
      · next notMember notClose =>
          cases refused
          exact .strayInside inside notMember notClose
  · next outside =>
      unfold stepOutside at refused
      split at refused
      · cases refused
      · cases refused
      · cases refused
      · next kind => exact of_quantify outside kind refused
      · next kind => exact of_assert outside kind refused
      · next kind => exact of_separate outside (.inl kind) refused
      · next kind => exact of_separate outside (.inr kind) refused
      · cases refused
      · next kind => exact of_closeGroup outside kind refused
      · cases refused
      · next kind =>
          cases refused
          exact .strayCollectionClose outside kind
      · cases refused
      · next kind => exact of_closeOptional outside kind refused

/-- The listed tokens are refused, whatever comes after them. -/
theorem eq_error (refuses : growth.Refuses token refusal) (following : Option Token) :
    growth.step token following = .error refusal := by
  cases refuses with
  | missingOperand outside kind nothing =>
      rcases kind with kind | kind
      · simp [step, stepOutside, outside, kind, quantify, nothing]
      · simp [step, stepOutside, outside, kind, assert, nothing]
  | @nestedQuantifier pieces piece outside kind last changed =>
      cases piece with
      | bare atom => exact absurd rfl (changed atom)
      | quantified atom quantifier => simp [step, stepOutside, outside, kind, quantify, last]
      | asserted piece assertion => simp [step, stepOutside, outside, kind, quantify, last]
  | separator outside kind scopes =>
      rcases kind with kind | kind <;> simp [step, stepOutside, outside, kind, separate, scopes]
  | groupEnd outside kind scopes =>
      simp [step, stepOutside, outside, kind, closeGroup, scopes]
  | groupEndOutside outside kind scopes =>
      simp [step, stepOutside, outside, kind, closeGroup, scopes]
  | emptyOptional outside kind scopes =>
      simp [step, stepOutside, outside, kind, closeOptional, scopes]
  | unclosedGroup outside kind scopes =>
      simp [step, stepOutside, outside, kind, closeOptional, scopes]
  | strayOptionalClose outside kind scopes =>
      simp [step, stepOutside, outside, kind, closeOptional, scopes]
  | strayCollectionClose outside kind => simp [step, stepOutside, outside, kind]
  | strayInside inside notMember notClose => simp [step, inside, stepInCollection]

end Refuses

/-! ### Whole patterns -/

/-- What a growth is refused for at the end of a pattern of this length. -/
inductive Unfinished (growth : Growth) (position : Nat) : ParseError → Prop where
  | group {opener : Token} {draft : Draft} {outer : List Scope}
      (outside : growth.collection = none)
      (scopes : growth.scopes = .group opener draft :: outer) :
      Unfinished growth position (.unclosedGroup opener.position)
  | collection {opener : Token} {members : List Token}
      (inside : growth.collection = some (opener, members)) :
      Unfinished growth position (.unexpectedEnd position)
  | optional {opener : Token} {pieces : Tree .concat} {outer : List Scope}
      (outside : growth.collection = none)
      (scopes : growth.scopes = .optional opener pieces :: outer) :
      Unfinished growth position (.unexpectedEnd position)

/-- A growth that is not finished is one of these. -/
theorem unfinished_of_finish_eq_error {growth : Growth} {position : Nat}
    {error : ParseError} (refused : growth.finish position = .error error) :
    growth.Unfinished position error := by
  rcases growth with ⟨base, scopes, _ | ⟨opener, members⟩, dollarEnds⟩
  · rcases scopes with _ | ⟨⟨opener, draft⟩ | ⟨opener, pieces⟩, outer⟩
    · cases refused
    · cases refused
      exact .group rfl rfl
    · cases refused
      exact .optional rfl rfl
  · cases refused
    exact .collection rfl

/-- The ways in which growing over these tokens fails.  `stop` is the state at the end of the
pattern, or the error that stopped the reading. -/
inductive Failing (stop : Except ScanError Terminus) (growth : Growth) (tokens : List Token) :
    Cause → Prop where
  | unread {error : ScanError} (stopped : stop = .error error) :
      Failing stop growth tokens (.scan error)
  | unfinished {after : Growth} {terminus : Terminus} {error : ParseError}
      (ended : stop = .ok terminus) (takes : Takes none growth tokens after)
      (unfinished : after.Unfinished terminus.position error) :
      Failing stop growth tokens (.parse error)
  | refused {before others : List Token} {token : Token} {middle : Growth}
      {refusal : Refusal} (split : tokens = before ++ token :: others)
      (takes : Takes (some token) growth before middle)
      (refuses : middle.Refuses token refusal) :
      Failing stop growth tokens (.parse refusal.cause)

/-- A failure later on is a failure of the whole. -/
theorem Failing.step {stop : Except ScanError Terminus} {growth after : Growth}
    {token : Token} {others : List Token} {cause : Cause}
    (taken : Step growth token others.head? after) (failing : Failing stop after others cause) :
    Failing stop growth (token :: others) cause := by
  cases failing with
  | unread stopped => exact .unread stopped
  | unfinished ended takes unfinished =>
      refine .unfinished ended (.step ?_ takes) unfinished
      rwa [Option.or_none]
  | @refused before later refusedToken middle refusal split takes refuses =>
      have next : others.head? = before.head?.or (some refusedToken) := by
        rw [split]
        cases before <;> rfl
      have whole : token :: others = (token :: before) ++ refusedToken :: later :=
        congrArg (token :: ·) split
      refine .refused whole (.step ?_ takes) refuses
      rwa [← next]

/-- A run that fails does so in one of these ways. -/
theorem failing_of_run_eq_error {stop : Except ScanError Terminus} {growth : Growth}
    {read : Nat} {tokens : List Token} {failure : Failure}
    (failed : growth.run stop read tokens = .error failure) :
    Failing stop growth tokens failure.cause := by
  induction tokens generalizing growth read with
  | nil =>
      simp only [run] at failed
      split at failed
      · cases failed
        exact .unread rfl
      · split at failed
        · cases failed
        · next refused =>
            cases failed
            exact .unfinished rfl (.done growth) (unfinished_of_finish_eq_error refused)
  | cons token others inductionHypothesis =>
      simp only [run] at failed
      split at failed
      · next after taken =>
          exact (inductionHypothesis failed).step (Step.of_eq_ok taken)
      · next refusal refused =>
          have refuses := Refuses.of_eq_error refused
          have stays : Failing stop growth (token :: others) (.parse refusal.cause) :=
            .refused (List.nil_append _).symm (.done growth) refuses
          split at failed
          · cases failed
            exact stays
          · cases failed
            exact .unread rfl
          · cases failed
            exact stays

/-- A run whose reading is stopped has read all tokens, unless these tokens fail by themselves:
then it fails in the same way whatever comes behind them. -/
theorem run_stopped (growth : Growth) (read : Nat) (tokens : List Token) :
    (∀ error, growth.run (.error error) read tokens =
      .error
        { cause := .scan error
          read := read + tokens.length }) ∨
    ∃ cause count, ∀ stop, growth.run stop read tokens =
      .error
        { cause := .parse cause
          read := count } := by
  induction tokens generalizing growth read with
  | nil => exact .inl fun _ => rfl
  | cons token others inductionHypothesis =>
      cases taken : growth.step token others.head? with
      | ok after =>
          simp only [run, taken, List.length_cons]
          rw [Nat.add_comm others.length, ← Nat.add_assoc]
          exact inductionHypothesis after (read + 1)
      | error refusal =>
          simp only [run, taken]
          cases early : refusal.early with
          | true => exact .inr ⟨_, _, fun _ => rfl⟩
          | false =>
              cases others with
              | nil => exact .inl fun _ => rfl
              | cons next others => exact .inr ⟨_, _, fun stop => by cases stop <;> rfl⟩

end Growth

/-- A pattern that is not converted does not grow.  The error tells the cause, and the text of
the tokens that had been read. -/
theorem exists_failure_of_convert {options : Options} {pattern : String}
    {error : ConversionError} (failed : convert options pattern = .error error) :
    ∃ failure, Tree.ofScan (Scan.ofPattern options.magicness pattern) = .error failure ∧
      error.cause = failure.cause ∧
        error.partialText =
          partialText options (foldsCase options pattern)
            ((Scan.ofPattern options.magicness pattern).tokens.take failure.read) := by
  unfold convert at failed
  split at failed
  · cases failed
  · dsimp only at failed
    split at failed
    · cases failed
    · next failure incomplete =>
        cases failed
        exact ⟨failure, incomplete, rfl, rfl⟩

/-- A pattern that is not converted fails to grow in one of these ways. -/
theorem failing_of_convert {options : Options} {pattern : String}
    {error : ConversionError} (failed : convert options pattern = .error error) :
    Growth.Failing (Scan.ofPattern options.magicness pattern).result {}
      (Scan.ofPattern options.magicness pattern).tokens error.cause := by
  obtain ⟨failure, incomplete, cause, _⟩ := exists_failure_of_convert failed
  rw [cause]
  exact Growth.failing_of_run_eq_error incomplete

end VimPattern
