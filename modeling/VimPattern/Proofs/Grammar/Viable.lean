/-
Module: VimPattern.Proofs.Grammar.Viable
Purpose: A growth takes tokens as long as they can still become a pattern, and no longer.
Main exports:
  Viable, Growth.Takes.unique, Growth.Kinded.viable, Growth.viable_iff_exists_takes,
  ParseError.misplaced?, viable_of_convert
-/
import VimPattern.Proofs.Grammar.Refusal
import VimPattern.Proofs.Grammar.Regrowth
import VimPattern.Proofs.Scan.Sites
import VimPattern.Tree.Yield

namespace VimPattern

/-!
Symbols are viable if they begin some derivable pattern.  A growth is never led astray: what is
open in it can be closed, one construct after the other, so that the symbols of what it has
taken are viable.  Conversely viable symbols begin the symbols of a kinded tree, which the
growth takes to the end.  Whether it takes a token therefore decides whether the token is
possible, and the first one that it refuses is the first impossible one.
-/

/-- The symbols begin a derivable pattern. -/
def Viable (symbols : List Kind) : Prop :=
  ∃ others, Derives .pattern (symbols ++ others)

/-- The offset of the token that cannot stand where it is.  The other errors are about an opening
or about the end of the pattern. -/
def ParseError.misplaced? : ParseError → Option Nat
  | .unexpectedGroupEnd position | .missingOperand _ position | .nestedQuantifier _ position
  | .unexpectedToken _ position => some position
  | .unclosedGroup _ | .emptyOptionalMatch _ | .unexpectedEnd _ => none

/-- There are tokens of every kind. -/
theorem Token.exists_kind_eq (kind : Kind) : ∃ token : Token, token.kind = kind := by
  have spelled (lexeme : Lexeme) : ∃ token : Token, token.kind = lexeme.kind :=
    ⟨{ lexeme := lexeme
       raw := ""
       position := 0
       magicness := .magic }, rfl⟩
  cases kind with
  | literal => exact spelled (.literal .anyChar)
  | caret => exact spelled .caret
  | dollar => exact spelled .dollar
  | conjunction => exact spelled .conjunction
  | alternative => exact spelled .alternative
  | groupOpen => exact spelled (.groupOpen .nonCapturing)
  | groupClose => exact spelled .groupClose
  | collectionOpen => exact spelled (.collectionOpen {})
  | collectionClose => exact spelled (.collectionClose false)
  | optionalOpen => exact spelled .optionalOpen
  | optionalClose => exact spelled .optionalClose
  | quantifier => exact spelled (.quantifier .star)
  | assertion => exact spelled (.assertion .ahead)

/-- Any symbols are the symbols of some tokens. -/
theorem Token.exists_kinds_eq (symbols : List Kind) :
    ∃ tokens, Token.kinds tokens = symbols := by
  induction symbols with
  | nil => exact ⟨[], rfl⟩
  | cons symbol symbols inductionHypothesis =>
      obtain ⟨token, rfl⟩ := Token.exists_kind_eq symbol
      obtain ⟨tokens, rfl⟩ := inductionHypothesis
      exact ⟨token :: tokens, rfl⟩

namespace Growth

/-! ### Steps lead to one growth -/

theorem Step.unique {growth one other : Growth} {token : Token} {following : Option Token}
    (first : Step growth token following one) (second : Step growth token following other) :
    one = other :=
  Except.ok.inj (first.eq_ok.symm.trans second.eq_ok)

/-- Taking tokens leads to one growth. -/
theorem Takes.unique {behind : Option Token} {growth one other : Growth}
    {tokens : List Token} (first : Takes behind growth tokens one)
    (second : Takes behind growth tokens other) : one = other := by
  induction first with
  | done =>
      cases second
      rfl
  | step taken _ inductionHypothesis =>
      cases second with
      | step again rest =>
          obtain rfl := taken.unique again
          exact inductionHypothesis rest

/-- A token that is refused is not taken. -/
theorem Refuses.not_step {growth after : Growth} {token : Token} {refusal : Refusal}
    {following : Option Token} (refuses : growth.Refuses token refusal) :
    ¬ Step growth token following after := by
  intro taken
  cases (refuses.eq_error following).symm.trans taken.eq_ok

/-! ### What is open can be closed -/

@[simp] theorem length_scopes_add (growth : Growth) (atom : Tree .atom) :
    (growth.add atom).scopes.length = growth.scopes.length := by
  rcases growth with ⟨base, scopes, collection, dollarEnds⟩
  rcases scopes with _ | ⟨_ | _, outer⟩ <;> rfl

/-- The innermost construct can be closed.  An optional sequence may still be empty, so it gets
one more piece first. -/
theorem exists_takes_closing {growth : Growth} {scope : Scope} {outer : List Scope}
    (outside : growth.collection = none) (scopes : growth.scopes = scope :: outer) :
    ∃ tokens after, Takes none growth tokens after ∧ after.collection = none ∧
      after.scopes.length = outer.length := by
  cases scope with
  | group opener draft =>
      obtain ⟨closer, closes⟩ := Token.exists_kind_eq .groupClose
      exact ⟨_, _, .single (.groupClose outside closes scopes), by simp [outside], by simp⟩
  | optional opener pieces =>
      obtain ⟨piece, literal⟩ := Token.exists_kind_eq .literal
      obtain ⟨closer, closes⟩ := Token.exists_kind_eq .optionalClose
      have filled : (growth.add (.literal piece)).scopes =
          .optional opener (.snoc pieces (.bare (.literal piece))) :: outer := by
        simp [add, withPieces, Growth.pieces, scopes]
      have inside : (growth.add (.literal piece)).collection = none := by simp [outside]
      have closed : Step (growth.add (.literal piece)) closer none _ :=
        .optionalClose inside closes filled (by simp)
      exact ⟨_, _, .step (.literal outside literal) (.single closed), by simp [outside], by simp⟩

/-- The end of a collection can be taken. -/
theorem exists_takes_outside (growth : Growth) :
    ∃ tokens after, Takes none growth tokens after ∧ after.collection = none := by
  cases inside : growth.collection with
  | none => exact ⟨[], growth, .done growth, inside⟩
  | some collection =>
      obtain ⟨closer, closes⟩ := Token.exists_kind_eq .collectionClose
      exact ⟨_, _, .single (.collectionClose inside closes), by simp⟩

/-- The symbols taken so far are viable if they are after more tokens. -/
theorem Takes.viable {behind : Option Token} {growth after : Growth} {tokens : List Token}
    (takes : Takes behind growth tokens after) (viable : Viable (Token.kinds after.tokens)) :
    Viable (Token.kinds growth.tokens) := by
  obtain ⟨others, derivation⟩ := viable
  rw [takes.tokens_eq, Token.kinds_append, List.append_assoc] at derivation
  exact ⟨_, derivation⟩

namespace Kinded

/-- Outside collections the symbols taken so far are viable. -/
theorem viable_outside {growth : Growth} (kinded : growth.Kinded)
    (outside : growth.collection = none) : Viable (Token.kinds growth.tokens) := by
  -- Closing a construct adds a piece to the one around it, so the induction is on their number.
  induction depth_eq : growth.scopes.length generalizing growth with
  | zero =>
      have whole : growth.tokens = growth.base.pattern.tokens := by
        simp [tokens, outside, List.length_eq_zero_iff.1 depth_eq, Draft.tokens]
      refine ⟨[], ?_⟩
      rw [List.append_nil, whole]
      exact growth.base.pattern.derives kinded.base
  | succ depth inductionHypothesis =>
      obtain ⟨scope, outer, scopes⟩ := List.exists_cons_of_length_eq_add_one depth_eq
      obtain ⟨tokens, after, takes, still, fewer⟩ := exists_takes_closing outside scopes
      have count : after.scopes.length = depth := by
        rw [scopes, List.length_cons] at depth_eq
        exact fewer.trans (Nat.succ.inj depth_eq)
      exact takes.viable (inductionHypothesis (kinded.takes takes) still count)

/-- The symbols that a growth has taken are viable. -/
theorem viable {growth : Growth} (kinded : growth.Kinded) :
    Viable (Token.kinds growth.tokens) := by
  obtain ⟨tokens, after, takes, outside⟩ := growth.exists_takes_outside
  exact takes.viable ((kinded.takes takes).viable_outside outside)

end Kinded

/-! ### What is viable is taken -/

/-- The tokens that can be taken from the start are those whose symbols are viable. -/
theorem viable_iff_exists_takes {tokens : List Token} :
    Viable (Token.kinds tokens) ↔ ∃ behind after, Takes behind {} tokens after := by
  constructor
  · rintro ⟨others, derivation⟩
    obtain ⟨rest, rfl⟩ := Token.exists_kinds_eq others
    obtain ⟨tree, kinded, whole⟩ :=
      derivation.exists_tree (tokens ++ rest) (Token.kinds_append tokens rest)
    obtain ⟨last, takes, _⟩ := regrowable tree kinded {} none rfl rfl
    rw [whole] at takes
    cases rest with
    | nil =>
        rw [List.append_nil] at takes
        exact ⟨none, last, takes⟩
    | cons token others =>
        obtain ⟨after, _, early, _⟩ := takes.exists_split
        exact ⟨some token, after, early⟩
  · rintro ⟨behind, after, takes⟩
    have taken := takes.tokens_eq
    have viable := (Kinded.new.takes takes).viable
    rwa [taken] at viable

/-- After a token that is refused the symbols are not viable any more. -/
theorem Refuses.not_viable {before : List Token} {token : Token} {growth : Growth}
    {refusal : Refusal} (refuses : growth.Refuses token refusal)
    (takes : Takes (some token) {} before growth) :
    ¬ Viable (Token.kinds (before ++ [token])) := by
  intro viable
  obtain ⟨behind, after, whole⟩ := viable_iff_exists_takes.1 viable
  obtain ⟨middle, next, early, taken, _⟩ := whole.exists_split
  obtain rfl := takes.unique early
  exact refuses.not_step taken

/-- An error about a misplaced token is about the token that is refused. -/
theorem Refuses.position_eq {growth : Growth} {token : Token} {refusal : Refusal}
    {position : Nat} (refuses : growth.Refuses token refusal)
    (misplaced : refusal.cause.misplaced? = some position) : token.position = position := by
  cases refuses with
  | emptyOptional | unclosedGroup => cases misplaced
  | _ => exact Option.some.inj misplaced

/-- Nothing is misplaced at the end of a pattern. -/
theorem Unfinished.misplaced?_eq {growth : Growth} {length : Nat} {error : ParseError}
    (unfinished : growth.Unfinished length error) : error.misplaced? = none := by
  cases unfinished <;> rfl

end Growth

/-! ### Whole patterns -/

/-- Where a pattern is refused for a misplaced token, the symbols of what stands before it begin
a derivable pattern, and together with the symbol of the token they begin none. -/
theorem viable_of_convert {options : Options} {pattern : String} {error : ConversionError}
    {cause : ParseError} {position : Nat} (failed : convert options pattern = .error error)
    (parsed : error.cause = .parse cause) (misplaced : cause.misplaced? = some position) :
    ∃ before token others,
      (Scan.ofPattern options.magicness pattern).tokens = before ++ token :: others ∧
        token.position = position ∧ (∀ earlier ∈ before, earlier.position < position) ∧
          (∀ later ∈ others, position < later.position) ∧
            Viable (Token.kinds before) ∧ ¬ Viable (Token.kinds (before ++ [token])) := by
  have failing := failing_of_convert failed
  rw [parsed] at failing
  cases failing with
  | unfinished ended takes unfinished =>
      cases unfinished.misplaced?_eq.symm.trans misplaced
  | @refused before others token growth refusal split takes refuses =>
      obtain rfl := refuses.position_eq misplaced
      have increasing := Scan.pairwise_position_ofPattern options.magicness pattern
      rw [split] at increasing
      obtain ⟨_, behind, across⟩ := List.pairwise_append.1 increasing
      exact
        ⟨before, token, others, split, rfl,
          fun earlier member => across earlier member token (.head _),
          (List.pairwise_cons.1 behind).1,
          Growth.viable_iff_exists_takes.2 ⟨_, _, takes⟩, refuses.not_viable takes⟩

/-- The second of two quantifiers is impossible in an optional sequence inside a group, both of
which are still open before it. -/
theorem viable_of_convert_nested :
    convert {} "\\(a\\%[b**]\\)" =
        .error
          { pattern := "\\(a\\%[b**]\\)"
            partialText := some "(a\\%[b**]"
            cause := .parse (.nestedQuantifier "*" 8) } ∧
      ∃ before token others,
        (Scan.ofPattern .magic "\\(a\\%[b**]\\)").tokens = before ++ token :: others ∧
          token.position = 8 ∧ (∀ earlier ∈ before, earlier.position < 8) ∧
            (∀ later ∈ others, 8 < later.position) ∧
              Viable (Token.kinds before) ∧ ¬ Viable (Token.kinds (before ++ [token])) := by
  have failed :
      convert {} "\\(a\\%[b**]\\)" =
        .error
          { pattern := "\\(a\\%[b**]\\)"
            partialText := some "(a\\%[b**]"
            cause := .parse (.nestedQuantifier "*" 8) } := by
    rfl
  exact ⟨failed, viable_of_convert failed rfl rfl⟩

end VimPattern
