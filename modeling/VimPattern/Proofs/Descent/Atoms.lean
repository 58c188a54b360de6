/-
Module: VimPattern.Proofs.Descent.Atoms
Purpose: A call for a piece takes a token, however deep it goes.
Main exports:
  Descent.meets_group, Descent.meets_collection, Descent.meets_optional, Descent.meets_atom,
  Descent.pieceMeets
-/
import VimPattern.Proofs.Descent.Parts

namespace VimPattern

/-!
An atom is taken from its first token on.  Behind an opening the descent goes on with one token
less and with calls that are nested deeper, so that what pieces come to there is known, and it
comes back to the closing of the same construct or fails.  This is the step of an induction on how
deep calls may be nested.
-/

namespace Growth

/-- Inside a group that has grown this far. -/
def enterGroup (growth : Growth) (opener : Token) (draft : Draft) : Growth :=
  { growth with scopes := .group opener draft :: growth.scopes }

/-- Inside an optional sequence that has grown this far. -/
def enterOptional (growth : Growth) (opener : Token) (pieces : Tree .concat) : Growth :=
  { growth with scopes := .optional opener pieces :: growth.scopes }

@[simp] theorem openGroups_enterGroup (growth : Growth) (opener : Token) (draft : Draft) :
    (growth.enterGroup opener draft).openGroups = growth.openGroups + 1 := by
  simp [enterGroup, openGroups, List.countP_cons, Scope.isGroup]

variable {growth : Growth} {token opener : Token} {draft : Draft} {pieces : Tree .concat}

theorem Step.closeGroup (outside : growth.collection = none) (kind : token.kind = .groupClose)
    (following : Option Token) :
    Step (growth.enterGroup opener draft) token following
      (growth.add (.group opener draft.pattern token)) :=
  .groupClose outside kind rfl

theorem Step.closeOptional (outside : growth.collection = none)
    (kind : token.kind = .optionalClose) (nonempty : pieces ≠ .empty)
    (following : Option Token) :
    Step (growth.enterOptional opener pieces) token following
      (growth.add (.optional opener pieces token)) :=
  .optionalClose outside kind rfl nonempty

theorem Step.closeCollection {members : List Token} (outside : growth.collection = none)
    (kind : token.kind = .collectionClose) (following : Option Token) :
    Step { growth with collection := some (opener, members) } token following
      (growth.add (.collection opener members token)) := by
  have step : Step { growth with collection := some (opener, members) } token following _ :=
    .collectionClose rfl kind
  have same : { growth with collection := none } = growth := by rw [← outside]
  exact same ▸ step

end Growth

namespace Descent

open Growth

variable {scan : Scan} {growth : Growth} {parser : Parser} {token opener : Token} {limit : Nat}

/-- A group is taken up to its closing. -/
theorem meets_group (deeper : PieceMeets scan limit) (enough : 8 * parser.left scan + 6 ≤ limit)
    (outside : growth.collection = none)
    (comes : { parser with depth := parser.depth + 1 }.Comes scan (growth.enterGroup opener {})) :
    Meets (group limit opener) parser
      (fun tree after =>
        after.Comes scan (growth.add tree) ∧ tree.tokens.head? = some opener ∧
          after.left scan ≤ parser.left scan)
      (Fails scan) := by
  obtain ⟨limit, rfl, inner⟩ := deeper.exists_deeper (Nat.zero_lt_of_lt enough)
  rw [group]
  have inside : (growth.enterGroup opener {}).collection = none := outside
  refine .of_modify (.bind
    (meets_pattern inner (Nat.le_of_succ_le_succ enough) inside rfl comes) ?_)
  rintro body middle ⟨further, fewer, ends, notOperand, notAlternative⟩
  change middle.Comes scan (growth.enterGroup opener (.ofPattern body)) at further
  by_cases close : middle.lookahead.map Token.kind = some .groupClose
  · obtain ⟨closer, ahead, kind⟩ := Option.map_eq_some_iff.1 close
    have taken := further.take ahead (fun following => .closeGroup outside kind following)
      (by simp [kind])
    refine .bind (.of_expect close taken) ?_
    rintro found after ⟨rfl, final, level, least⟩
    refine .of_modify (.pure ⟨?_, rfl, Nat.le_trans (Nat.le_of_lt least) fewer⟩)
    rw [openGroups_enterGroup] at level
    rw [Draft.pattern_ofPattern, openGroups_add] at final
    rwa [level, Nat.add_sub_cancel]
  · refine .bind (.of_expect_other close (.of_refuse ?_)) fun _ _ => False.elim
    cases ahead : middle.lookahead with
    | none => exact further.fails_unfinished ahead (.group outside rfl)
    | some stray =>
        have kind : stray.kind = .optionalClose := by
          rw [ahead] at close ends notOperand notAlternative
          simp [endsOperand, Loop.goesOn] at close ends notOperand notAlternative
          simpa [close, notOperand, notAlternative] using ends
        exact further.fails_early ahead (.unclosedGroup outside kind rfl) rfl

/-- A collection is taken up to its closing. -/
theorem meets_collection (enough : 8 * parser.left scan + 3 ≤ limit)
    (outside : growth.collection = none)
    (comes : parser.Comes scan { growth with collection := some (opener, []) }) :
    Meets (collection limit opener) parser
      (fun tree after =>
        after.Comes scan (growth.add tree) ∧ tree.tokens.head? = some opener ∧
          after.left scan ≤ parser.left scan)
      (Fails scan) := by
  obtain ⟨limit, rfl⟩ := Nat.exists_eq_add_one.2 (Nat.zero_lt_of_lt enough)
  rw [collection]
  refine .bind (meets_members (Nat.le_of_succ_le_succ enough) comes) ?_
  rintro members middle ⟨further, fewer, rests⟩
  by_cases close : middle.lookahead.map Token.kind = some .collectionClose
  · obtain ⟨closer, ahead, kind⟩ := Option.map_eq_some_iff.1 close
    have taken := further.take_level ahead
      (fun following => .closeCollection outside kind following) (by simp [kind])
    refine .bind (.of_expect close taken) ?_
    rintro found after ⟨rfl, final, least⟩
    exact .pure ⟨final, rfl, Nat.le_trans (Nat.le_of_lt least) fewer⟩
  · refine .bind (.of_expect_other close ?_) fun _ _ => False.elim
    cases ahead : middle.lookahead with
    | none => exact .of_unexpected_none (further.fails_unfinished ahead (.collection rfl))
    | some stray =>
        rw [ahead] at rests close
        have notMember : stray.kind ≠ .literal := by simpa [Loop.goesOn] using rests
        have notClose : stray.kind ≠ .collectionClose := by simpa using close
        exact .of_refuse (further.fails_early ahead (.strayInside rfl notMember notClose) rfl)

/-- An optional sequence is taken up to its closing. -/
theorem meets_optional (deeper : PieceMeets scan limit)
    (enough : 8 * parser.left scan + 3 ≤ limit)
    (outside : growth.collection = none)
    (comes : parser.Comes scan (growth.enterOptional opener .empty)) :
    Meets (optional limit opener) parser
      (fun tree after =>
        after.Comes scan (growth.add tree) ∧ tree.tokens.head? = some opener ∧
          after.left scan ≤ parser.left scan)
      (Fails scan) := by
  obtain ⟨limit, rfl, inner⟩ := deeper.exists_deeper (Nat.zero_lt_of_lt enough)
  rw [optional]
  have inside : (growth.enterOptional opener .empty).collection = none := outside
  refine .bind (meets_sequence inner (Nat.le_of_succ_le_succ enough) inside rfl rfl comes) ?_
  rintro pieces middle ⟨further, fewer, rests⟩
  change middle.Comes scan (growth.enterOptional opener pieces) at further
  by_cases close : middle.lookahead.map Token.kind = some .optionalClose
  · obtain ⟨closer, ahead, kind⟩ := Option.map_eq_some_iff.1 close
    by_cases nothing : pieces = .empty
    · subst nothing
      have taken := further.take_refused ahead (.emptyOptional outside kind rfl) rfl
      refine .bind (.of_expect close taken) ?_
      rintro found after ⟨rfl, fails⟩
      exact .of_refuse fails
    · have taken := further.take_level ahead
        (fun following => .closeOptional outside kind nothing following) (by simp [kind])
      refine .bind (.of_expect close taken) ?_
      rintro found after ⟨rfl, final, least⟩
      cases pieces with
      | empty => exact absurd rfl nothing
      | snoc => exact .pure ⟨final, rfl, Nat.le_trans (Nat.le_of_lt least) fewer⟩
  · refine .bind (.of_expect_other close ?_) fun _ _ => False.elim
    cases ahead : middle.lookahead with
    | none => exact .of_unexpected_none (further.fails_unfinished ahead (.optional outside rfl))
    | some stray =>
        rw [ahead] at rests close
        simp [Loop.goesOn] at rests
        simp [rests] at close

/-- A dollar that has been taken knows what is ahead. -/
theorem meets_dollar {ends : Bool} {pending : List Token}
    (holds : parser.Holds scan ((growth.noting ends).addDollar token pending.head?) pending)
    (level : parser.depth = growth.openGroups) (note : parser.dollarEnds = ends) :
    Meets (dollar token) parser
      (fun tree after =>
        after.Comes scan (growth.add tree) ∧ tree.tokens.head? = some token ∧
          after.left scan ≤ parser.left scan)
      (Fails scan) := by
  have ahead := holds.ahead
  have outside : growth.outsideGroups = (growth.openGroups == 0) := by
    rw [Bool.eq_iff_iff, outsideGroups_iff, beq_iff_eq]
  rw [dollar]
  refine .of_get (.of_set (.pure ⟨?_, rfl, Nat.le_refl _⟩))
  refine ⟨ends || (growth.outsideGroups && endsAlternative pending.head?), pending, ?_, ?_, ?_⟩
  · obtain ⟨taken, stands, takes⟩ := holds
    refine ⟨taken, { stands with }, ?_⟩
    rw [addDollar, add_noting] at takes
    rw [ahead]
    exact takes
  · rw [openGroups_noting, openGroups_add]
    exact level
  · rw [note, level, ahead, outside]
    rfl

/-- What has been taken behind a token has been taken with it. -/
theorem Meets.behind {descent : Descent (Tree .atom)} {before : Parser}
    (fewer : parser.left scan < before.left scan)
    (meets : Meets descent parser
      (fun tree after =>
        after.Comes scan (growth.add tree) ∧ tree.tokens.head? = some token ∧
          after.left scan ≤ parser.left scan)
      (Fails scan)) :
    Meets descent parser
      (fun tree after =>
        after.Comes scan (growth.add tree) ∧ tree.tokens.head? = some token ∧
          after.left scan < before.left scan)
      (Fails scan) := by
  refine meets.mono ?_ fun _ _ => id
  rintro tree after ⟨added, first, least⟩
  exact ⟨added, first, Nat.lt_of_le_of_lt least fewer⟩

/-- An atom is taken wherever a piece is called for. -/
theorem meets_atom (deeper : PieceMeets scan limit) (enough : 8 * parser.left scan ≤ limit + 1)
    (comes : parser.Comes scan growth) (ahead : parser.lookahead = some token)
    (expects : growth.Expects token) :
    Meets (atom limit growth.caretPlace) parser
      (fun tree after =>
        after.Comes scan (growth.add tree) ∧ tree.tokens.head? = some token ∧
          after.left scan < parser.left scan)
      (Fails scan) := by
  have outside := expects.outside
  have some := comes.left_pos ahead
  obtain ⟨limit, rfl, inner⟩ := deeper.exists_deeper (show 0 < limit by omega)
  rw [atom]
  cases kind : token.kind with
  | literal =>
      refine .bind (comes.take_level ahead (fun _ => .literal outside kind) (by simp [kind])) ?_
      rintro found after ⟨rfl, further, fewer⟩
      simp only [kind]
      exact .pure ⟨further, rfl, fewer⟩
  | caret =>
      refine .bind (comes.take_level ahead (fun _ => .caret outside kind) (by simp [kind])) ?_
      rintro found after ⟨rfl, further, fewer⟩
      simp only [kind]
      exact .pure ⟨further, rfl, fewer⟩
  | dollar =>
      obtain ⟨ends, others, faces⟩ := comes.exists_faces ahead
      refine .bind (faces.holds.take (.dollar outside kind)) ?_
      rintro found after ⟨rfl, holds, level, note⟩
      simp only [kind]
      refine .behind ?_ (meets_dollar holds (level.trans faces.depth)
        (note.trans faces.dollarEnds))
      rw [holds.left_eq, faces.holds.left_eq]
      exact Nat.lt_succ_self _
  | groupOpen =>
      refine .bind (comes.take ahead (fun _ => .groupOpen outside kind) (by simp [kind])) ?_
      rintro found after ⟨rfl, further, level, fewer⟩
      simp only [kind]
      change { after with depth := (growth.enterGroup found {}).openGroups }.Comes scan
        (growth.enterGroup found {}) at further
      rw [openGroups_enterGroup, ← level] at further
      exact .behind fewer (meets_group inner (by omega) outside further)
  | collectionOpen =>
      refine .bind (comes.take_level ahead (fun _ => .collectionOpen outside kind)
        (by simp [kind])) ?_
      rintro found after ⟨rfl, further, fewer⟩
      simp only [kind]
      exact .behind fewer (meets_collection (by omega) outside further)
  | optionalOpen =>
      refine .bind (comes.take_level ahead (fun _ => .optionalOpen outside kind)
        (by simp [kind])) ?_
      rintro found after ⟨rfl, further, fewer⟩
      simp only [kind]
      exact .behind fewer (meets_optional inner (by omega) outside further)
  | quantifier | assertion =>
      have nothing : growth.pieces = .empty := expects.fresh (by simp [Loop.goesOn, kind])
      refine .bind (comes.take_refused ahead
        (.missingOperand outside (by simp [kind]) nothing) rfl) ?_
      rintro found after ⟨rfl, fails⟩
      simp only [kind]
      exact .of_refuse fails
  | groupClose =>
      obtain ⟨opener, pieces, outer, scopes⟩ :=
        exists_optional_of_draft? (expects.inside (by simp [endsOperand, kind]))
      refine .bind (comes.take_refused ahead (.groupEnd outside kind scopes) rfl) ?_
      rintro found after ⟨rfl, fails⟩
      simp only [kind]
      exact .of_refuse fails
  | conjunction | alternative =>
      obtain ⟨opener, pieces, outer, scopes⟩ :=
        exists_optional_of_draft? (expects.inside (by simp [endsOperand, kind]))
      refine .bind (comes.take_refused ahead
        (.separator outside (by simp [kind]) scopes) rfl) ?_
      rintro found after ⟨rfl, fails⟩
      simp only [kind]
      exact .of_refuse fails
  | collectionClose =>
      refine .bind (comes.take_refused ahead (.strayCollectionClose outside kind) rfl) ?_
      rintro found after ⟨rfl, fails⟩
      simp only [kind]
      exact .of_refuse fails
  | optionalClose => exact absurd kind expects.notClose

/-- Where calls may be nested one deeper, a call for a piece still takes some token. -/
theorem PieceMeets.succ (deeper : PieceMeets scan limit) : PieceMeets scan (limit + 1) := by
  intro nesting below growth token parser enough comes ahead expects
  have some := comes.left_pos ahead
  obtain ⟨nesting, rfl⟩ := Nat.exists_eq_add_one.2 (show 0 < nesting by omega)
  have deeper := deeper.mono (show nesting ≤ limit by omega)
  rw [piece]
  refine .of_advances (.bind (meets_atom deeper enough comes ahead expects) ?_)
  rintro core middle ⟨added, first, fewer⟩
  refine .bind (meets_suffixes (by omega) expects.outside first added) ?_
  rintro whole after ⟨further, first, least, settled⟩
  have fewer := Nat.lt_of_le_of_lt least fewer
  have advanced := Parser.advances_lt fewer
  have noted := further.taken_down fun taken sound =>
    sound.notePiece (Nat.sub_pos_of_lt advanced)
  exact .of_advances (.of_noteWhole (.pure ⟨noted, first, settled, fewer⟩))

/-- Wherever a piece is called for, the call comes to a result if eight calls are left to each
token, and a piece has taken some of them. -/
theorem pieceMeets (scan : Scan) (limit : Nat) : PieceMeets scan limit := by
  induction limit with
  | zero =>
      intro nesting below
      exact absurd below (Nat.not_lt_zero nesting)
  | succ limit deeper => exact deeper.succ

end Descent

end VimPattern
