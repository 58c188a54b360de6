/-
Module: VimPattern.Proofs.Descent.Meets
Purpose: Descents that come to a result, and what holds of it.
Main exports:
  Descent.Meets, Descent.Meets.mono, Descent.Meets.bind, Descent.Meets.get,
  Descent.Meets.modify, Descent.Meets.refuse
-/
import VimPattern.Proofs.Descent.Basic

namespace VimPattern.Descent

/-!
A descent meets two conditions if it has a result, which satisfies the first condition where it is
a value, and the second one where it is a failure.  A descent without a result meets nothing, so
that the rules for the parts of a descent prove that it comes to an end.
-/

variable {α β : Type} {parser : Parser} {good : α → Parser → Prop}
  {bad : Cause → Parser → Prop}

/-- From this state the descent has a result, a good value or a bad failure. -/
def Meets (descent : Descent α) (parser : Parser) (good : α → Parser → Prop)
    (bad : Cause → Parser → Prop) : Prop :=
  (∃ value after, descent.run parser = some (.ok value, after) ∧ good value after) ∨
    ∃ cause after, descent.run parser = some (.error cause, after) ∧ bad cause after

namespace Meets

/-- Weaker conditions are met as well. -/
theorem mono {descent : Descent α} {better : α → Parser → Prop} {worse : Cause → Parser → Prop}
    (meets : Meets descent parser better worse)
    (better_good : ∀ value after, better value after → good value after)
    (worse_bad : ∀ cause after, worse cause after → bad cause after) :
    Meets descent parser good bad := by
  rcases meets with ⟨value, after, result, holds⟩ | ⟨cause, after, result, holds⟩
  · exact .inl ⟨value, after, result, better_good value after holds⟩
  · exact .inr ⟨cause, after, result, worse_bad cause after holds⟩

theorem pure {value : α} (holds : good value parser) :
    Meets (Pure.pure value) parser good bad :=
  .inl ⟨value, parser, rfl, holds⟩

/-- Behind a value the next descent goes on. -/
theorem run_bind_ok {first : Descent β} (next : β → Descent α) {value : β} {after : Parser}
    (result : first.run parser = some (.ok value, after)) :
    (first >>= next).run parser = (next value).run after := by
  change Option.bind (first.run parser) _ = _
  rw [result]
  rfl

/-- A failure ends the whole descent. -/
theorem run_bind_error {first : Descent β} (next : β → Descent α) {cause : Cause}
    {after : Parser} (result : first.run parser = some (.error cause, after)) :
    (first >>= next).run parser = some (.error cause, after) := by
  change Option.bind (first.run parser) _ = _
  rw [result]
  rfl

/-- One descent after the other starts where the first one has come to. -/
theorem bind {first : Descent β} {next : β → Descent α} {middle : β → Parser → Prop}
    (early : Meets first parser middle bad)
    (late : ∀ value after, middle value after → Meets (next value) after good bad) :
    Meets (first >>= next) parser good bad := by
  rcases early with ⟨value, after, result, holds⟩ | ⟨cause, after, result, holds⟩
  · unfold Meets
    rw [run_bind_ok next result]
    exact late value after holds
  · exact .inr ⟨cause, after, run_bind_error next result, holds⟩

theorem of_get {next : Parser → Descent α} (meets : Meets (next parser) parser good bad) :
    Meets (get >>= next) parser good bad :=
  meets

theorem of_set {other : Parser} {next : PUnit → Descent α}
    (meets : Meets (next ⟨⟩) other good bad) : Meets (set other >>= next) parser good bad :=
  meets

theorem of_modify {change : Parser → Parser} {next : PUnit → Descent α}
    (meets : Meets (next ⟨⟩) (change parser) good bad) :
    Meets (modify change >>= next) parser good bad :=
  meets

theorem of_advances {next : Nat → Descent α}
    (meets : Meets (next parser.ledger.advances.length) parser good bad) :
    Meets (advances >>= next) parser good bad :=
  meets

theorem of_noteWhole {count : Nat} {next : PUnit → Descent α}
    (meets : Meets (next ⟨⟩)
      { parser with ledger.pieces := parser.ledger.pieces ++ [count] } good bad) :
    Meets (noteWhole count >>= next) parser good bad :=
  meets

theorem of_noteRound {loop : Loop} {count : Nat} {next : PUnit → Descent α}
    (meets : Meets (next ⟨⟩)
      { parser with ledger.rounds := parser.ledger.rounds ++ [(loop, count)] } good bad) :
    Meets (noteRound loop count >>= next) parser good bad :=
  meets

theorem of_refuse {error : ParseError} (holds : bad (.parse error) parser) :
    Meets (refuse error) parser good bad :=
  .inr ⟨_, parser, rfl, holds⟩

/-- Over the end of the pattern a descent fails with its offset. -/
theorem of_unexpected_none (holds : bad (.parse (.unexpectedEnd parser.reader.position)) parser) :
    Meets (unexpected none) parser good bad :=
  .inr ⟨_, parser, rfl, holds⟩

section

variable {kind : Kind} {fail : Option Token → Descent Token} {good : Token → Parser → Prop}

/-- A token that is expected is taken. -/
theorem of_expect (ahead : parser.lookahead.map Token.kind = some kind)
    (meets : Meets take parser good bad) : Meets (expect kind fail) parser good bad := by
  unfold expect
  refine .of_get ?_
  rwa [if_pos ahead]

/-- What is not expected stays ahead. -/
theorem of_expect_other (ahead : parser.lookahead.map Token.kind ≠ some kind)
    (meets : Meets (fail parser.lookahead) parser good bad) :
    Meets (expect kind fail) parser good bad := by
  unfold expect
  refine .of_get ?_
  rwa [if_neg ahead]

end

end Meets

end VimPattern.Descent
