/-
Module: VimPattern.Proofs.Descent.Parts
Purpose: What each function of a descent comes to, given the calls for a piece inside it.
Main exports:
  Draft.ofBranch, Draft.ofPattern, Growth.Expects, Descent.meets_members,
  Descent.meets_suffixes, Descent.PieceMeets, Descent.meets_concat, Descent.meets_sequence,
  Descent.meets_branch, Descent.meets_pattern
-/
import VimPattern.Proofs.Descent.Loops

namespace VimPattern

/-!
Every way back to a piece leads to a call that is nested deeper.  So what the functions come to is
proved from what a call for a piece comes to within a smaller limit.
-/

/-- The draft that holds a branch behind these alternatives. -/
def Draft.ofBranch (alternatives : Option (Tree .pattern × Token)) : Tree .branch → Draft
  | .operand concat =>
      { alternatives := alternatives
        pieces := concat }
  | .both operands separator concat =>
      { alternatives := alternatives
        operands := some (operands, separator)
        pieces := concat }

/-- The draft that holds a pattern. -/
def Draft.ofPattern : Tree .pattern → Draft
  | .single branch => .ofBranch none branch
  | .either alternatives separator branch => .ofBranch (some (alternatives, separator)) branch

namespace Draft

@[simp] theorem branch_ofBranch (alternatives : Option (Tree .pattern × Token))
    (tree : Tree .branch) : (ofBranch alternatives tree).branch = tree := by
  cases tree <;> rfl

@[simp] theorem alternatives_ofBranch (alternatives : Option (Tree .pattern × Token))
    (tree : Tree .branch) : (ofBranch alternatives tree).alternatives = alternatives := by
  cases tree <;> rfl

@[simp] theorem pattern_ofPattern (tree : Tree .pattern) : (ofPattern tree).pattern = tree := by
  cases tree <;> simp [ofPattern, pattern]

/-- Another operand makes another branch. -/
theorem conjoin_ofBranch (alternatives : Option (Tree .pattern × Token))
    (operands : Tree .branch) (separator : Token) (concat : Tree .concat) :
    { (ofBranch alternatives operands).conjoin separator with pieces := concat } =
      ofBranch alternatives (.both operands separator concat) := by
  rw [conjoin, branch_ofBranch, alternatives_ofBranch]
  rfl

end Draft

namespace Loop

/-- No loop goes on at the end. -/
theorem exists_ahead {loop : Loop} {ahead : Option Token} (goesOn : loop.goesOn ahead = true) :
    ∃ token, ahead = some token := by
  cases ahead with
  | some token => exact ⟨token, rfl⟩
  | none => cases loop <;> cases goesOn

end Loop

namespace Growth

variable {growth : Growth} {token : Token}

/-- A piece can be called for where this token is ahead. -/
structure Expects (growth : Growth) (token : Token) : Prop where
  outside : growth.collection = none
  /-- What could follow a piece is not behind one. -/
  fresh : Loop.suffixes.goesOn (some token) = true → growth.pieces = .empty
  notClose : token.kind ≠ .optionalClose
  /-- Only in an optional sequence is a piece called for where an operand has to end. -/
  inside : endsOperand (some token) = true → growth.draft? = none

/-- In front of the end of an operand every piece is called for. -/
theorem Expects.of_pieces (outside : growth.collection = none)
    (fresh : Loop.suffixes.goesOn (some token) = true → growth.pieces = .empty)
    (goesOn : Loop.pieces.goesOn (some token) = true) : growth.Expects token := by
  have goesOn : endsOperand (some token) = false := by simpa [Loop.goesOn] using goesOn
  refine ⟨outside, fresh, ?_, fun ends => ?_⟩
  · intro close
    simp [endsOperand, close] at goesOn
  · rw [goesOn] at ends
    cases ends

/-- In an optional sequence a piece is called for in front of everything but its end. -/
theorem Expects.of_sequence (outside : growth.collection = none)
    (fresh : Loop.suffixes.goesOn (some token) = true → growth.pieces = .empty)
    (none : growth.draft? = none) (goesOn : Loop.sequence.goesOn (some token) = true) :
    growth.Expects token :=
  ⟨outside, fresh, by simpa [Loop.goesOn] using goesOn, fun _ => none⟩

/-- Only an optional sequence has no draft. -/
theorem exists_optional_of_draft? (none : growth.draft? = none) :
    ∃ opener pieces outer, growth.scopes = .optional opener pieces :: outer := by
  rcases growth with ⟨base, _ | ⟨_ | ⟨opener, pieces⟩, outer⟩, collection, dollarEnds⟩
  · cases none
  · cases none
  · exact ⟨opener, pieces, outer, rfl⟩

@[simp] theorem draft?_withPieces_eq_none (growth : Growth) (pieces : Tree .concat) :
    (growth.withPieces pieces).draft? = none ↔ growth.draft? = none := by
  rcases growth with ⟨base, _ | ⟨_ | _, outer⟩, collection, dollarEnds⟩ <;>
    simp [withPieces, draft?]

/-- In an optional sequence a caret is never at an edge. -/
theorem caretPlace_of_draft?_eq_none (none : growth.draft? = none) :
    growth.caretPlace = .inside := by
  obtain ⟨opener, pieces, outer, scopes⟩ := exists_optional_of_draft? none
  rw [caretPlace, scopes]

/-- Where a draft is growing, a caret is at the edge before the first piece. -/
theorem caretPlace_of_pieces_eq_empty (drafting : growth.draft? ≠ none)
    (nothing : growth.pieces = .empty) : growth.caretPlace = .edge := by
  rcases growth with ⟨base, _ | ⟨_ | _, outer⟩, collection, dollarEnds⟩
  · change base.pieces = .empty at nothing
    simp [caretPlace, pieces, nothing]
  · change Draft.pieces _ = .empty at nothing
    simp [caretPlace, pieces, nothing]
  · exact absurd rfl drafting

/-- Where a draft is growing, the place of a caret depends on what the last piece starts with. -/
theorem caretPlace_of_pieces_eq_snoc (drafting : growth.draft? ≠ none) {front : Tree .concat}
    {piece : Tree .piece} (last : growth.pieces = .snoc front piece) :
    growth.caretPlace = if piece.startsWithBreak then .besideBreak else .inside := by
  rcases growth with ⟨base, _ | ⟨_ | _, outer⟩, collection, dollarEnds⟩
  · change base.pieces = .snoc front piece at last
    simp [caretPlace, pieces, last]
  · change Draft.pieces _ = .snoc front piece at last
    simp [caretPlace, pieces, last]
  · exact absurd rfl drafting

end Growth

namespace Descent

open Growth

variable {scan : Scan} {growth : Growth} {parser : Parser} {token : Token} {limit : Nat}

/-! ### What needs no pieces -/

/-- Members of a collection are taken as long as there are any. -/
theorem meets_members {opener : Token} {members : List Token}
    (enough : 8 * parser.left scan + 2 ≤ limit)
    (comes : parser.Comes scan { growth with collection := some (opener, members) }) :
    Meets (iterate limit .members members) parser
      (fun all after =>
        after.Comes scan { growth with collection := some (opener, all) } ∧
          after.left scan ≤ parser.left scan ∧ Loop.members.goesOn after.lookahead = false)
      (Fails scan) := by
  refine (meets_iterate (fun all => { growth with collection := some (opener, all) })
    (fun _ _ => True) ?_ enough comes trivial).mono ?_ fun _ _ => id
  · intro nesting _ members parser enough comes _ goesOn
    obtain ⟨member, ahead⟩ := Loop.exists_ahead goesOn
    have kind : member.kind = .literal := by
      rw [ahead] at goesOn
      simpa [Loop.goesOn] using goesOn
    rw [round]
    refine .bind (comes.take_level ahead (fun _ => .member rfl kind) (by simp [kind])) ?_
    rintro found after ⟨rfl, further, fewer⟩
    exact .pure ⟨further, trivial, fewer⟩
  · rintro all after ⟨further, -, fewer, rests⟩
    exact ⟨further, fewer, rests⟩

/-- What follows an atom is taken as long as there is any of it. -/
theorem meets_suffixes {front : Tree .concat} {piece : Tree .piece}
    (enough : 8 * parser.left scan + 2 ≤ limit) (outside : growth.collection = none)
    (first : piece.tokens.head? = some token)
    (comes : parser.Comes scan (growth.withPieces (.snoc front piece))) :
    Meets (iterate limit .suffixes piece) parser
      (fun whole after =>
        after.Comes scan (growth.withPieces (.snoc front whole)) ∧
          whole.tokens.head? = some token ∧ after.left scan ≤ parser.left scan ∧
            Loop.suffixes.goesOn after.lookahead = false)
      (Fails scan) := by
  refine (meets_iterate (fun whole => growth.withPieces (.snoc front whole))
    (fun (whole : Tree .piece) _ => whole.tokens.head? = some token) ?_ enough comes
      first).mono ?_ fun _ _ => id
  · intro nesting _ piece parser enough comes first goesOn
    obtain ⟨suffix, ahead⟩ := Loop.exists_ahead goesOn
    have last := growth.pieces_withPieces (.snoc front piece)
    have outside := (growth.collection_withPieces (.snoc front piece)).trans outside
    have kind : suffix.kind = .quantifier ∨ suffix.kind = .assertion := by
      rw [ahead] at goesOn
      simpa [Loop.goesOn] using goesOn
    rw [round]
    rcases kind with kind | kind
    · cases piece with
      | bare atom =>
          have taken := comes.take_level ahead (fun _ => .quantifier outside kind last)
            (by simp [kind])
          rw [withPieces_withPieces] at taken
          refine .bind taken ?_
          rintro found after ⟨rfl, further, fewer⟩
          simp only [kind]
          refine .pure ⟨further, ?_, fewer⟩
          change atom.tokens.head? = some token at first
          rw [Tree.tokens, List.head?_append, first]
          rfl
      | quantified | asserted =>
          refine .bind (comes.take_refused ahead
            (.nestedQuantifier outside kind last (by rintro atom ⟨⟩)) rfl) ?_
          rintro found after ⟨rfl, fails⟩
          simp only [kind]
          exact .of_refuse fails
    · have taken := comes.take_level ahead (fun _ => .assertion outside kind last)
        (by simp [kind])
      rw [withPieces_withPieces] at taken
      refine .bind taken ?_
      rintro found after ⟨rfl, further, fewer⟩
      simp only [kind]
      refine .pure ⟨further, ?_, fewer⟩
      rw [Tree.tokens, List.head?_append, first]
      rfl
  · rintro whole after ⟨further, first, fewer, rests⟩
    exact ⟨further, first, fewer, rests⟩

/-! ### What is made of pieces -/

/-- Below this limit a call for a piece takes some token and adds the piece, if eight calls are
left to each token. -/
def PieceMeets (scan : Scan) (limit : Nat) : Prop :=
  ∀ nesting < limit, ∀ (growth : Growth) (token : Token) (parser : Parser),
    8 * parser.left scan ≤ nesting → parser.Comes scan growth →
      parser.lookahead = some token → growth.Expects token →
        Meets (piece nesting growth.caretPlace) parser
          (fun whole after =>
            after.Comes scan (growth.withPieces (.snoc growth.pieces whole)) ∧
              whole.tokens.head? = some token ∧
                Loop.suffixes.goesOn after.lookahead = false ∧
                  after.left scan < parser.left scan)
          (Fails scan)

/-- What is known below a limit is known below a smaller one. -/
theorem PieceMeets.mono {smaller : Nat} (deeper : PieceMeets scan limit)
    (within : smaller ≤ limit) : PieceMeets scan smaller :=
  fun nesting below => deeper nesting (Nat.lt_of_lt_of_le below within)

/-- A call leaves a smaller limit to the calls in it. -/
theorem PieceMeets.exists_deeper (deeper : PieceMeets scan limit) (some : 0 < limit) :
    ∃ rest, limit = rest + 1 ∧ PieceMeets scan rest := by
  obtain ⟨rest, rfl⟩ := Nat.exists_eq_add_one.2 some
  exact ⟨rest, rfl, deeper.mono (Nat.le_succ rest)⟩

/-- A piece joins the ones in front of it. -/
theorem PieceMeets.join (deeper : PieceMeets scan limit) {front : Tree .concat} {nesting : Nat}
    (below : nesting < limit) (enough : 8 * parser.left scan ≤ nesting)
    (comes : parser.Comes scan (growth.withPieces front))
    (ahead : parser.lookahead = some token) (expects : (growth.withPieces front).Expects token) :
    Meets (piece nesting (growth.withPieces front).caretPlace) parser
      (fun whole after =>
        after.Comes scan (growth.withPieces (.snoc front whole)) ∧
          whole.tokens.head? = some token ∧
            Loop.suffixes.goesOn after.lookahead = false ∧
              after.left scan < parser.left scan)
      (Fails scan) := by
  have call := deeper nesting below _ token parser enough comes ahead expects
  simpa only [withPieces_withPieces, pieces_withPieces] using call

/-- Pieces are taken up to where the operand ends. -/
theorem meets_concat (deeper : PieceMeets scan limit) (enough : 8 * parser.left scan + 3 ≤ limit)
    (outside : growth.collection = none) (drafting : growth.draft? ≠ none)
    (nothing : growth.pieces = .empty) (comes : parser.Comes scan growth) :
    Meets (concat limit) parser
      (fun all after =>
        after.Comes scan (growth.withPieces all) ∧ after.left scan ≤ parser.left scan ∧
          endsOperand after.lookahead = true)
      (Fails scan) := by
  obtain ⟨limit, rfl, inner⟩ := deeper.exists_deeper (Nat.zero_lt_of_lt enough)
  rw [concat]
  have start : parser.Comes scan (growth.withPieces .empty) := by
    rwa [← nothing, withPieces_pieces]
  have edge : (growth.withPieces .empty).caretPlace = .edge := by
    rw [← nothing, withPieces_pieces]
    exact caretPlace_of_pieces_eq_empty drafting nothing
  refine .bind (meets_iterate (fun (carry : Tree .concat × Place) => growth.withPieces carry.1)
    (fun (carry : Tree .concat × Place) ahead =>
      (growth.withPieces carry.1).caretPlace = carry.2 ∧
        (Loop.suffixes.goesOn ahead = true → carry.1 = .empty))
    ?_ (Nat.le_of_succ_le_succ enough) start ⟨edge, fun _ => rfl⟩) ?_
  · rintro nesting below ⟨front, place⟩ parser enough comes ⟨same, fresh⟩ goesOn
    obtain ⟨token, ahead⟩ := Loop.exists_ahead goesOn
    dsimp only at same fresh comes
    subst same
    rw [ahead] at fresh goesOn
    have drafts : (growth.withPieces front).draft? ≠ none := by simpa using drafting
    have expects : (growth.withPieces front).Expects token :=
      .of_pieces (by simpa using outside) (by simpa using fresh) goesOn
    rw [round]
    refine .of_get (.bind (inner.join below enough comes ahead expects) ?_)
    rintro whole after ⟨further, first, settled, fewer⟩
    refine .pure ⟨further, ⟨?_, ?_⟩, fewer⟩
    · rw [caretPlace_of_pieces_eq_snoc (by simpa using drafting) (pieces_withPieces _ _),
        Tree.startsWithBreak, first, ahead]
      rfl
    · intro goesOn
      cases settled.symm.trans goesOn
  · rintro ⟨all, place⟩ after ⟨further, -, fewer, rests⟩
    exact .pure ⟨further, fewer, by simpa [Loop.goesOn] using rests⟩

/-- The pieces of an optional sequence are taken up to its end. -/
theorem meets_sequence (deeper : PieceMeets scan limit)
    (enough : 8 * parser.left scan + 2 ≤ limit)
    (outside : growth.collection = none) (undrafted : growth.draft? = none)
    (nothing : growth.pieces = .empty) (comes : parser.Comes scan growth) :
    Meets (iterate limit .sequence .empty) parser
      (fun all after =>
        after.Comes scan (growth.withPieces all) ∧ after.left scan ≤ parser.left scan ∧
          Loop.sequence.goesOn after.lookahead = false)
      (Fails scan) := by
  have start : parser.Comes scan (growth.withPieces .empty) := by
    rwa [← nothing, withPieces_pieces]
  refine (meets_iterate (fun (front : Tree .concat) => growth.withPieces front)
    (fun (front : Tree .concat) ahead => Loop.suffixes.goesOn ahead = true → front = .empty)
    ?_ enough start fun _ => rfl).mono ?_ fun _ _ => id
  · intro nesting below front parser enough comes fresh goesOn
    obtain ⟨token, ahead⟩ := Loop.exists_ahead goesOn
    rw [ahead] at fresh goesOn
    have undrafted : (growth.withPieces front).draft? = none := by simpa using undrafted
    have expects : (growth.withPieces front).Expects token :=
      .of_sequence (by simpa using outside) (by simpa using fresh) undrafted goesOn
    have joined := deeper.join below enough comes ahead expects
    rw [caretPlace_of_draft?_eq_none undrafted] at joined
    rw [round]
    refine .bind joined ?_
    rintro whole after ⟨further, -, settled, fewer⟩
    refine .pure ⟨further, ?_, fewer⟩
    intro goesOn
    cases settled.symm.trans goesOn
  · rintro all after ⟨further, -, fewer, rests⟩
    exact ⟨further, fewer, rests⟩

/-- Operands are taken up to where the alternative ends. -/
theorem meets_branch (deeper : PieceMeets scan limit) (enough : 8 * parser.left scan + 4 ≤ limit)
    {alternatives : Option (Tree .pattern × Token)} (outside : growth.collection = none)
    (drafting : growth.draft? = some { alternatives := alternatives })
    (comes : parser.Comes scan growth) :
    Meets (branch limit) parser
      (fun all after =>
        after.Comes scan (growth.withDraft (.ofBranch alternatives all)) ∧
          after.left scan ≤ parser.left scan ∧ endsOperand after.lookahead = true ∧
            Loop.operands.goesOn after.lookahead = false)
      (Fails scan) := by
  have drafts : growth.draft? ≠ none := by simp [drafting]
  have nothing : growth.pieces = .empty := pieces_eq_of_draft? drafting
  obtain ⟨limit, rfl, inner⟩ := deeper.exists_deeper (Nat.zero_lt_of_lt enough)
  rw [branch]
  refine .bind (meets_concat inner (by omega) outside drafts nothing comes) ?_
  rintro first middle ⟨start, fewer, ends⟩
  have start : middle.Comes scan (growth.withDraft (.ofBranch alternatives (.operand first))) := by
    rwa [withPieces_eq_withDraft drafting] at start
  refine (meets_iterate
    (fun (front : Tree .branch) => growth.withDraft (.ofBranch alternatives front))
    (fun (_ : Tree .branch) ahead => endsOperand ahead = true)
    ?_ (by omega) start ends).mono ?_ fun _ _ => id
  · intro nesting below front parser enough comes ends goesOn
    obtain ⟨separator, ahead⟩ := Loop.exists_ahead goesOn
    have kind : separator.kind = .conjunction := by
      rw [ahead] at goesOn
      simpa [Loop.goesOn] using goesOn
    have drafted := draft?_withDraft drafting (.ofBranch alternatives front)
    rw [round]
    have taken := comes.take_level ahead
      (fun _ => .conjunction (by simpa using outside) kind drafted) (by simp [kind])
    rw [withDraft_withDraft] at taken
    refine .bind taken ?_
    rintro found after ⟨rfl, further, fewer⟩
    have conjoined := draft?_withDraft drafting ((Draft.ofBranch alternatives front).conjoin found)
    refine .bind (meets_concat (inner.mono (by omega)) (by omega) (by simpa using outside)
      (by simp [conjoined]) (pieces_eq_of_draft? conjoined) further) ?_
    rintro last final ⟨further, least, ends⟩
    rw [withPieces_eq_withDraft conjoined, withDraft_withDraft,
      Draft.conjoin_ofBranch] at further
    exact .pure ⟨further, ends, Nat.lt_of_le_of_lt least fewer⟩
  · rintro all after ⟨further, ends, least, rests⟩
    exact ⟨further, Nat.le_trans least fewer, ends, rests⟩

/-- Alternatives are taken up to where the pattern ends. -/
theorem meets_pattern (deeper : PieceMeets scan limit) (enough : 8 * parser.left scan + 5 ≤ limit)
    (outside : growth.collection = none) (drafting : growth.draft? = some {})
    (comes : parser.Comes scan growth) :
    Meets (pattern limit) parser
      (fun all after =>
        after.Comes scan (growth.withDraft (.ofPattern all)) ∧
          after.left scan ≤ parser.left scan ∧ endsOperand after.lookahead = true ∧
            Loop.operands.goesOn after.lookahead = false ∧
              Loop.alternatives.goesOn after.lookahead = false)
      (Fails scan) := by
  obtain ⟨limit, rfl, inner⟩ := deeper.exists_deeper (Nat.zero_lt_of_lt enough)
  rw [pattern]
  refine .bind (meets_branch inner (by omega) outside drafting comes) ?_
  rintro first middle ⟨start, fewer, ends, rests⟩
  refine (meets_iterate
    (fun (front : Tree .pattern) => growth.withDraft (.ofPattern front))
    (fun (_ : Tree .pattern) ahead =>
      endsOperand ahead = true ∧ Loop.operands.goesOn ahead = false)
    ?_ (by omega) start ⟨ends, rests⟩).mono ?_ fun _ _ => id
  · intro nesting below front parser enough comes _ goesOn
    obtain ⟨separator, ahead⟩ := Loop.exists_ahead goesOn
    have kind : separator.kind = .alternative := by
      rw [ahead] at goesOn
      simpa [Loop.goesOn] using goesOn
    have drafted := draft?_withDraft drafting (.ofPattern front)
    rw [round]
    have taken := comes.take_level ahead
      (fun _ => .alternative (by simpa using outside) kind drafted) (by simp [kind])
    rw [withDraft_withDraft, Draft.alternate, Draft.pattern_ofPattern] at taken
    refine .bind taken ?_
    rintro found after ⟨rfl, further, fewer⟩
    have alternated := draft?_withDraft drafting { alternatives := some (front, found) }
    refine .bind (meets_branch (inner.mono (by omega)) (by omega) (by simpa using outside)
      alternated further) ?_
    rintro last final ⟨further, least, ends, rests⟩
    rw [withDraft_withDraft] at further
    exact .pure ⟨further, ⟨ends, rests⟩, Nat.lt_of_le_of_lt least fewer⟩
  · rintro all after ⟨further, ⟨ends, rests⟩, least, last⟩
    exact ⟨further, Nat.le_trans least fewer, ends, rests, last⟩

end Descent

end VimPattern
