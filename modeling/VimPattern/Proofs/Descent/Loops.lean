/-
Module: VimPattern.Proofs.Descent.Loops
Purpose: The loops of a descent, each round of which takes a token.
Main exports:
  Parser.left, Parser.Comes, Parser.Comes.take, Parser.Comes.take_refused, Descent.meets_iterate
-/
import VimPattern.Proofs.Descent.Stance

namespace VimPattern

/-!
Where a descent has come to is told by the trees that it has built so far, which is all that the
growth holds, up to what is noted about dollars.  A loop has come to what it hands on from round
to round.  If each round takes a token, there are at most as many rounds as tokens left, and this
one induction settles all six loops.  Between two calls for a piece that are nested the descent
goes through seven other functions, and takes a token: so eight calls are enough for each token.
-/

namespace Growth

variable {growth : Growth} {token : Token} {refusal : Refusal}

@[simp] theorem add_noting (growth : Growth) (ends : Bool) (atom : Tree .atom) :
    (growth.noting ends).add atom = (growth.add atom).noting ends := by
  simp [add]

@[simp] theorem openGroups_noting (growth : Growth) (ends : Bool) :
    (growth.noting ends).openGroups = growth.openGroups := rfl

/-- But for dollars, a step does not depend on what is noted about them. -/
theorem Step.noting {following : Option Token} {next : Growth}
    (step : Step growth token following next) (kind : token.kind ≠ .dollar) (ends : Bool) :
    Step (growth.noting ends) token following (next.noting ends) := by
  cases step with
  | member inside kind => exact .member inside kind
  | collectionClose inside kind =>
      have step : Step (growth.noting ends) token following _ := .collectionClose inside kind
      exact add_noting { growth with collection := none } ends _ ▸ step
  | literal outside kind =>
      have step : Step (growth.noting ends) token following _ := .literal outside kind
      rwa [add_noting] at step
  | caret outside kind =>
      have step : Step (growth.noting ends) token following _ := .caret outside kind
      rwa [add_noting] at step
  | dollar outside dollar => exact absurd dollar kind
  | quantifier outside kind last =>
      have step : Step (growth.noting ends) token following _ := .quantifier outside kind last
      rwa [withPieces_noting] at step
  | assertion outside kind last =>
      have step : Step (growth.noting ends) token following _ := .assertion outside kind last
      rwa [withPieces_noting] at step
  | conjunction outside kind drafting =>
      have step : Step (growth.noting ends) token following _ := .conjunction outside kind drafting
      rwa [withDraft_noting] at step
  | alternative outside kind drafting =>
      have step : Step (growth.noting ends) token following _ := .alternative outside kind drafting
      rwa [withDraft_noting] at step
  | groupOpen outside kind => exact .groupOpen outside kind
  | @groupClose opener draft outer outside kind scopes =>
      have step : Step (growth.noting ends) token following _ := .groupClose outside kind scopes
      exact add_noting { growth with scopes := outer } ends _ ▸ step
  | collectionOpen outside kind => exact .collectionOpen outside kind
  | optionalOpen outside kind => exact .optionalOpen outside kind
  | @optionalClose opener pieces outer outside kind scopes nonempty =>
      have step : Step (growth.noting ends) token following _ :=
        .optionalClose outside kind scopes nonempty
      exact add_noting { growth with scopes := outer } ends _ ▸ step

/-- A refusal does not depend on what is noted about dollars. -/
theorem Refuses.noting (refuses : growth.Refuses token refusal) (ends : Bool) :
    (growth.noting ends).Refuses token refusal := by
  cases refuses with
  | missingOperand outside kind nothing => exact .missingOperand outside kind nothing
  | nestedQuantifier outside kind last changed =>
      exact .nestedQuantifier outside kind last changed
  | separator outside kind scopes => exact .separator outside kind scopes
  | groupEnd outside kind scopes => exact .groupEnd outside kind scopes
  | groupEndOutside outside kind scopes => exact .groupEndOutside outside kind scopes
  | emptyOptional outside kind scopes => exact .emptyOptional outside kind scopes
  | unclosedGroup outside kind scopes => exact .unclosedGroup outside kind scopes
  | strayOptionalClose outside kind scopes => exact .strayOptionalClose outside kind scopes
  | strayCollectionClose outside kind => exact .strayCollectionClose outside kind
  | strayInside inside notMember notClose => exact .strayInside inside notMember notClose

theorem Unfinished.noting {position : Nat} {error : ParseError}
    (unfinished : growth.Unfinished position error) (ends : Bool) :
    (growth.noting ends).Unfinished position error := by
  cases unfinished with
  | group outside scopes => exact .group outside scopes
  | collection inside => exact .collection inside
  | optional outside scopes => exact .optional outside scopes

end Growth

namespace Parser

open Descent

variable {scan : Scan} {growth : Growth} {token : Token} {parser : Parser}

/-- The number of tokens that are left. -/
def left (scan : Scan) (parser : Parser) : Nat :=
  scan.tokens.length + 1 - parser.ledger.advances.length

/-- The descent has come to where the growth is, up to what is noted about dollars. -/
def Comes (scan : Scan) (growth : Growth) (parser : Parser) : Prop :=
  ∃ ends pending, parser.Faces scan (growth.noting ends) pending

theorem Holds.left_eq {pending : List Token} (holds : parser.Holds scan growth pending) :
    parser.left scan = pending.length := by
  obtain ⟨taken, stands, -⟩ := holds
  rw [left, stands.ledger.advances, stands.split, List.length_append, List.length_cons,
    List.length_map]
  omega

theorem Holds.ahead {pending : List Token} (holds : parser.Holds scan growth pending) :
    parser.lookahead = pending.head? := by
  obtain ⟨taken, stands, -⟩ := holds
  exact stands.ahead

/-- Where there are fewer tokens left there have been more advances. -/
theorem advances_lt {after : Parser} (fewer : after.left scan < parser.left scan) :
    parser.ledger.advances.length < after.ledger.advances.length := by
  unfold left at fewer
  omega

/-- What is ahead is the first of the tokens that are left. -/
theorem Comes.exists_faces (comes : parser.Comes scan growth)
    (ahead : parser.lookahead = some token) :
    ∃ ends others, parser.Faces scan (growth.noting ends) (token :: others) := by
  obtain ⟨ends, pending, faces⟩ := comes
  rw [faces.holds.ahead] at ahead
  obtain ⟨others, rfl⟩ := List.head?_eq_some_iff.1 ahead
  exact ⟨ends, others, faces⟩

/-- Where a token is ahead, some token is left. -/
theorem Comes.left_pos (comes : parser.Comes scan growth)
    (ahead : parser.lookahead = some token) : 0 < parser.left scan := by
  obtain ⟨ends, others, faces⟩ := comes.exists_faces ahead
  rw [faces.holds.left_eq]
  exact Nat.succ_pos _

/-- A token that the growth takes is taken.  Groups that it opens or closes have still to be
counted. -/
theorem Comes.take {next : Growth} (comes : parser.Comes scan growth)
    (ahead : parser.lookahead = some token)
    (step : ∀ following, Growth.Step growth token following next)
    (kind : token.kind ≠ .dollar) :
    Meets Descent.take parser
      (fun found after =>
        found = token ∧ { after with depth := next.openGroups }.Comes scan next ∧
          after.depth = growth.openGroups ∧ after.left scan < parser.left scan)
      (Fails scan) := by
  obtain ⟨ends, others, faces⟩ := comes.exists_faces ahead
  refine (faces.holds.take ((step _).noting kind ends)).mono ?_ fun _ _ => id
  rintro found after ⟨rfl, holds, depth, note⟩
  refine ⟨rfl, ⟨ends, others, ?_, rfl, ?_⟩, ?_, ?_⟩
  · obtain ⟨taken, stands, takes⟩ := holds
    exact ⟨taken, { stands with }, takes⟩
  · exact note.trans faces.dollarEnds
  · exact depth.trans faces.depth
  · rw [holds.left_eq, faces.holds.left_eq]
    exact Nat.lt_succ_self _

/-- A token that opens or closes no group is taken. -/
theorem Comes.take_level {next : Growth} (comes : parser.Comes scan growth)
    (ahead : parser.lookahead = some token)
    (step : ∀ following, Growth.Step growth token following next)
    (level : token.kind ∉ [.dollar, .groupOpen, .groupClose]) :
    Meets Descent.take parser
      (fun found after =>
        found = token ∧ after.Comes scan next ∧ after.left scan < parser.left scan)
      (Fails scan) := by
  simp only [List.mem_cons, List.not_mem_nil, or_false, not_or] at level
  have groups := (step none).openGroups_add
  simp only [Token.howMany_cons, Token.howMany_nil, level, if_false] at groups
  refine (comes.take ahead step level.1).mono ?_ fun _ _ => id
  rintro found after ⟨rfl, further, depth, fewer⟩
  rw [Nat.add_right_cancel groups, ← depth] at further
  exact ⟨rfl, further, fewer⟩

/-- A token that is refused late is taken in vain. -/
theorem Comes.take_refused {refusal : Refusal} (comes : parser.Comes scan growth)
    (ahead : parser.lookahead = some token) (refuses : growth.Refuses token refusal)
    (late : refusal.early = false) :
    Meets Descent.take parser
      (fun found after => found = token ∧ Fails scan (.parse refusal.cause) after)
      (Fails scan) := by
  obtain ⟨ends, others, faces⟩ := comes.exists_faces ahead
  exact faces.holds.take_refused (refuses.noting ends) late

theorem Comes.fails_early {refusal : Refusal} (comes : parser.Comes scan growth)
    (ahead : parser.lookahead = some token) (refuses : growth.Refuses token refusal)
    (early : refusal.early = true) : Fails scan (.parse refusal.cause) parser := by
  obtain ⟨ends, others, faces⟩ := comes.exists_faces ahead
  exact faces.holds.fails_early (refuses.noting ends) early

theorem Comes.fails_unfinished {error : ParseError} (comes : parser.Comes scan growth)
    (ended : parser.lookahead = none)
    (unfinished : growth.Unfinished parser.reader.position error) :
    Fails scan (.parse error) parser := by
  obtain ⟨ends, pending, faces⟩ := comes
  rw [faces.holds.ahead, List.head?_eq_none_iff] at ended
  subst ended
  exact faces.holds.fails_unfinished (unfinished.noting ends)

/-- Something that has been taken down changes nothing, if it is sound. -/
theorem Comes.taken_down {ledger : Ledger} (comes : parser.Comes scan growth)
    (sound : ∀ taken, parser.ledger.Sound taken → ledger.Sound taken) :
    { parser with ledger := ledger }.Comes scan growth := by
  obtain ⟨ends, pending, ⟨taken, stands, takes⟩, depth, note⟩ := comes
  exact ⟨ends, pending,
    ⟨taken, { stands with ledger := sound taken stands.ledger }, takes⟩, depth, note⟩

end Parser

namespace Descent

variable {scan : Scan}

/-- A loop whose rounds all take a token comes to an end, within a limit that leaves eight calls to
each token.  `growing` is what the growth is with what one round hands on to the next, and `fits`
is what else is known between two rounds. -/
theorem meets_iterate {loop : Loop} {limit : Nat} (growing : loop.Carry → Growth)
    (fits : loop.Carry → Option Token → Prop)
    (rounds : ∀ nesting < limit, ∀ carry parser, 8 * parser.left scan ≤ nesting →
      parser.Comes scan (growing carry) → fits carry parser.lookahead →
        loop.goesOn parser.lookahead = true →
          Meets (round (nesting + 1) loop carry) parser
            (fun next after =>
              after.Comes scan (growing next) ∧ fits next after.lookahead ∧
                after.left scan < parser.left scan)
            (Fails scan))
    {carry : loop.Carry} {parser : Parser} (enough : 8 * parser.left scan + 2 ≤ limit)
    (comes : parser.Comes scan (growing carry)) (fit : fits carry parser.lookahead) :
    Meets (iterate limit loop carry) parser
      (fun last after =>
        after.Comes scan (growing last) ∧ fits last after.lookahead ∧
          after.left scan ≤ parser.left scan ∧ loop.goesOn after.lookahead = false)
      (Fails scan) := by
  induction limit generalizing carry parser with
  | zero => omega
  | succ limit inductionHypothesis =>
      rw [iterate]
      refine .of_get ?_
      split
      · next goesOn =>
          obtain ⟨nesting, rfl⟩ := Nat.exists_eq_add_one.2 (show 0 < limit by omega)
          have call := rounds nesting (by omega) carry parser (by omega) comes fit goesOn
          refine .of_advances (.bind call ?_)
          rintro next after ⟨further, fits, fewer⟩
          refine .of_advances (.of_noteRound ?_)
          have advanced := Parser.advances_lt fewer
          have noted := further.taken_down fun taken sound =>
            sound.noteRound loop (Nat.sub_pos_of_lt advanced)
          have later := inductionHypothesis
            (fun nesting below => rounds nesting (Nat.lt_succ_of_lt below)) ?_ noted fits
          · refine later.mono ?_ fun _ _ => id
            rintro last final ⟨ends, fit, least, rests⟩
            exact ⟨ends, fit, Nat.le_trans least (Nat.le_of_lt fewer), rests⟩
          · change 8 * after.left scan + 2 ≤ nesting + 1
            omega
      · next rests =>
          exact .pure ⟨comes, fit, Nat.le_refl _, by simpa using rests⟩

end Descent

end VimPattern
