/-
Module: VimPattern.Proofs.Failure.Blame
Purpose: What is wrong with the tokens of a pattern that does not grow, error by error.
Main exports:
  Growth.Halts, Growth.Blames,
  Growth.blames_of_refuses, Growth.blames_of_unfinished, blames_of_convert
-/
import VimPattern.Proofs.Grammar.Refusal
import VimPattern.Proofs.Grammar.Unclosed
import VimPattern.Proofs.Scan.Enclosures
import VimPattern.Proofs.Scan.Sites
import VimPattern.Proofs.Scan.Tokens

namespace VimPattern

/-!
The growth has refusals for tokens that the reading never offers it: the end of a collection
outside of one, another token inside one, the end of an optional sequence where none is open,
and a pattern that is over inside either.  The reading and the growth have the same constructs
open, so what the reading admits excludes all of these.  `Blames` lists what remains, in terms
of the tokens alone.
-/

namespace Growth

/-- The growth takes the tokens up to here, and then stops: it refuses the next token, or the
tokens are over. -/
structure Halts (tokens before : List Token) (following : Option Token) : Prop where
  split : ∃ others, tokens = before ++ others ∧ others.head? = following
  takes : ∃ growth, Takes following {} before growth ∧
    ∀ token, following = some token → ∃ refusal, growth.Refuses token refusal

/-- What is wrong with these tokens, with the error that reports it. -/
inductive Blames (tokens : List Token) : ParseError → Prop where
  | unfinishedGroup {opener : Token} {outer : List Token} (halts : Halts tokens tokens none)
      (unclosed : Token.unclosed tokens = opener :: outer) (opens : opener.kind = .groupOpen) :
      Blames tokens (.unclosedGroup opener.position)
  | unclosedGroup {before outer : List Token} {token opener : Token}
      (halts : Halts tokens before (some token)) (kind : token.kind = .optionalClose)
      (unclosed : Token.unclosed before = opener :: outer) (opens : opener.kind = .groupOpen) :
      Blames tokens (.unclosedGroup opener.position)
  | groupEnd {before : List Token} {token : Token} (halts : Halts tokens before (some token))
      (kind : token.kind = .groupClose) :
      Blames tokens (.unexpectedGroupEnd token.position)
  | missingOperand {before : List Token} {token : Token}
      (halts : Halts tokens before (some token))
      (kind : token.kind = .quantifier ∨ token.kind = .assertion) :
      Blames tokens (.missingOperand token.raw token.position)
  | nestedQuantifier {before : List Token} {token : Token}
      (halts : Halts tokens before (some token)) (kind : token.kind = .quantifier) :
      Blames tokens (.nestedQuantifier token.raw token.position)
  | emptyOptional {before outer : List Token} {token opener : Token}
      (halts : Halts tokens before (some token)) (kind : token.kind = .optionalClose)
      (unclosed : Token.unclosed before = opener :: outer)
      (opens : opener.kind = .optionalOpen) :
      Blames tokens (.emptyOptionalMatch opener.position)
  | separator {before outer : List Token} {token opener : Token}
      (halts : Halts tokens before (some token))
      (kind : token.kind = .conjunction ∨ token.kind = .alternative)
      (unclosed : Token.unclosed before = opener :: outer)
      (opens : opener.kind = .optionalOpen) :
      Blames tokens (.unexpectedToken token.raw token.position)

/-- A token that the reading offers is refused for one of these reasons. -/
theorem blames_of_refuses {tokens before : List Token} {context : Context} {growth : Growth}
    {token : Token} {refusal : Refusal} {char : Char} {text : List Char} {extra : Nat}
    (halts : Halts tokens before (some token)) (takes : Takes (some token) {} before growth)
    (refuses : growth.Refuses token refusal) (follows : context.Follows growth)
    (verdict : context.verdict char text = .item (.lexeme token.lexeme) extra) :
    Blames tokens refusal.cause := by
  have kinded := Kinded.new.takes takes
  have unclosed := takes.openers_eq
  have standsIn := (Context.admits_of_verdict verdict).standsIn
  have same := follows.isSome_collection? kinded
  cases refuses with
  | missingOperand outside kind nothing => exact .missingOperand halts kind
  | nestedQuantifier outside kind last changed => exact .nestedQuantifier halts kind
  | separator outside kind scopes =>
      rw [openers_of_scopes outside scopes] at unclosed
      exact .separator halts kind unclosed.symm (kinded.innermost scopes).1
  | groupEnd outside kind scopes => exact .groupEnd halts kind
  | groupEndOutside outside kind scopes => exact .groupEnd halts kind
  | emptyOptional outside kind scopes =>
      rw [openers_of_scopes outside scopes] at unclosed
      exact .emptyOptional halts kind unclosed.symm (kinded.innermost scopes).1
  | unclosedGroup outside kind scopes =>
      rw [openers_of_scopes outside scopes] at unclosed
      exact .unclosedGroup halts kind unclosed.symm (kinded.innermost scopes).1
  | strayOptionalClose outside kind scopes =>
      -- Nothing is open, and the reading knows it.
      have closes : (Content.lexeme token.lexeme).closes? = some .optionalMatch := by
        unfold Token.kind at kind
        cases lexeme : token.lexeme <;> rw [lexeme] at kind <;> cases kind
        rfl
      obtain ⟨place, outer, enclosing⟩ := Context.enclosing_of_closes verdict closes
      rw [follows, openers_outside outside, scopes] at enclosing
      cases enclosing
  | strayCollectionClose outside kind =>
      rw [outside, Option.isSome_none, Option.isSome_eq_false_iff, Option.isNone_iff_eq_none]
        at same
      rw [same] at standsIn
      unfold Token.kind at kind
      cases lexeme : token.lexeme <;> rw [lexeme] at kind standsIn <;> cases kind
      exact standsIn.elim
  | strayInside inside notMember notClose =>
      rw [inside] at same
      obtain ⟨withBreak, within⟩ := Option.isSome_iff_exists.1 same
      rw [within] at standsIn
      unfold Token.kind at notMember notClose
      cases lexeme : token.lexeme with
      | member member => exact absurd (by rw [lexeme]; rfl) notMember
      | collectionClose closing => exact absurd (by rw [lexeme]; rfl) notClose
      | _ =>
          rw [lexeme] at standsIn
          exact standsIn.elim

/-- Where the reading has come to the end and has nothing open, only a group can be open. -/
theorem blames_of_unfinished {tokens : List Token} {context : Context} {growth : Growth}
    {length : Nat} {error : ParseError} (takes : Takes none {} tokens growth)
    (unfinished : growth.Unfinished length error) (follows : context.Follows growth)
    (closed : context.enclosing = []) : Blames tokens error := by
  have kinded := Kinded.new.takes takes
  have halts : Halts tokens tokens none :=
    ⟨⟨[], by rw [List.append_nil], rfl⟩, growth, takes, by rintro _ ⟨⟩⟩
  have unclosed := takes.openers_eq
  cases unfinished with
  | group outside scopes =>
      rw [openers_of_scopes outside scopes] at unclosed
      exact .unfinishedGroup halts unclosed.symm (kinded.innermost scopes).1
  | collection inside =>
      have same := follows.isSome_collection? kinded
      rw [Context.collection?, closed, inside] at same
      cases same
  | optional outside scopes =>
      rw [follows, openers_of_scopes outside scopes, Scope.opener, List.filterMap_cons_some
        (Token.enclosure?_optionalOpen (kinded.innermost scopes).1)] at closed
      cases closed

end Growth

/-! ### Whole patterns -/

/-- A pattern that is not converted either could not be read, or something is wrong with its
tokens. -/
theorem blames_of_convert {options : Options} {pattern : String} {error : ConversionError}
    (failed : convert options pattern = .error error) :
    (∃ cause, (Scan.ofPattern options.magicness pattern).result = .error cause ∧
      error.cause = .scan cause) ∨
    ∃ cause, error.cause = .parse cause ∧
      Growth.Blames (Scan.ofPattern options.magicness pattern).tokens cause := by
  have failing := failing_of_convert failed
  generalize error.cause = cause at failing
  cases failing with
  | unread stopped => exact .inl ⟨_, stopped, rfl⟩
  | unfinished ended takes unfinished =>
      obtain ⟨⟨position, reaches⟩, closed⟩ :=
        Scan.exists_reaches_end (Scan.ending_of_result ended)
      exact .inr ⟨_, rfl,
        Growth.blames_of_unfinished takes unfinished (reaches.follows takes) closed⟩
  | @refused before others token growth refusal split takes refuses =>
      obtain ⟨items, context, char, text, extra, reaches, rfl, verdict, _⟩ :=
        Scan.exists_reaches_token split
      have halts : Growth.Halts _ _ (some token) :=
        ⟨⟨token :: others, split, rfl⟩, growth, takes, by rintro _ ⟨⟩; exact ⟨_, refuses⟩⟩
      exact .inr ⟨_, rfl,
        Growth.blames_of_refuses halts takes refuses (reaches.follows takes) verdict⟩

end VimPattern
