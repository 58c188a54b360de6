/-
Module: VimPattern.Proofs.Spelling.Reading
Purpose: A written sketch is read as a tree that depicts it.
Main exports:
  Sketch.ReadAs, Sketch.Readable, Sketch.readable
-/
import VimPattern.Proofs.Spelling.Depiction
import VimPattern.Proofs.Spelling.Passes

namespace VimPattern

/-!
Whatever stands behind it, a sketch that is written at the current level is read
as the tokens of a tree that depicts it, and it leaves the level, the open
constructs and the references as they were.  There is one lemma for each way to
build a sketch, and the induction at the end puts them together.
-/

/-! ### Operators of a sketch -/

namespace Scan

/-- An operator that leaves the constructs around it alone is passed over in the
spelling of the level. -/
theorem passes_neutral (operator : Operator) (lexeme : Lexeme) {context : Context}
    {level : Magicness} (here : context.magicness = level)
    (outside : context.collection? = none) {text : List Char} {taken : Nat}
    (read : ∀ written, operator.read? context written text = some (.lexeme lexeme, taken))
    (enclosing : ∀ place, context.enclosingAfter place lexeme = context.enclosing)
    (counted : (context.tally.record lexeme).backReference =
      context.tally.backReference)
    (kind : lexeme.kind ≠ .caret) (position : Nat) :
    ∃ token after place, token.lexeme = lexeme ∧
      Passes context position (operator.spelling level ++ text) [token] after place
        (text.drop taken) ∧ after.Continues context ∧ after.starIsLiteral = false := by
  obtain ⟨token, place, same, passes⟩ := passes_operator outside read position
  rw [here] at passes
  exact
    ⟨token, context.afterToken token, place, same, passes,
      Context.continues_afterToken same enclosing counted,
      Context.starIsLiteral_afterToken same kind⟩

/-- A repetition is read where there is something to repeat. -/
theorem passes_repetition {context : Context} {level : Magicness}
    (here : context.magicness = level) (outside : context.collection? = none)
    (repeatable : context.starIsLiteral = false) (repetition : Repetition)
    (position : Nat) (rest : List Char) :
    ∃ token after place, token.lexeme = .quantifier repetition.quantifier ∧
      Passes context position (repetition.spelling level ++ rest) [token] after place
        rest ∧ after.Continues context := by
  have neutral (operator : Operator) (others : List Char)
      (spelled : repetition.spelling level = operator.spelling level ++ others)
      (read : ∀ written, operator.read? context written (others ++ rest) =
        some (.lexeme (.quantifier repetition.quantifier), others.length)) :
      ∃ token after place, token.lexeme = .quantifier repetition.quantifier ∧
        Passes context position (repetition.spelling level ++ rest) [token] after
          place rest ∧ after.Continues context := by
    obtain ⟨token, after, place, same, passes, continues, _⟩ :=
      passes_neutral operator _ here outside read (fun _ => rfl) rfl
        (by simp [Lexeme.kind]) position
    rw [List.drop_left, ← List.append_assoc, ← spelled] at passes
    exact ⟨token, after, place, same, passes, continues⟩
  cases repetition with
  | star =>
      apply neutral .star []
      · rw [List.append_nil]
        exact Operator.older_eq .star level (by decide)
      · intro written
        simp [Operator.read?, repeatable, Repetition.quantifier]
  | plus =>
      apply neutral .plus []
      · exact Operator.newer_eq .plus level (by decide) []
      · intro written
        rfl
  | optional =>
      apply neutral .equals []
      · exact Operator.newer_eq .equals level (by decide) []
      · intro written
        rfl
  | between low high ordered =>
      apply neutral .braces
        ((toString low).toList ++ ',' :: ((toString high).toList ++ ['\x7d']))
      · exact Operator.newer_eq .braces level (by decide) _
      · intro written
        have read := Repetition.read?_between low high written rest
        simp only [List.append_assoc, List.cons_append, List.nil_append,
          Operator.read?, read, Option.map_some, Repetition.quantifier,
          List.length_append, List.length_cons, List.length_nil]
        congr 2
        omega

/-- An assertion is read everywhere outside collections. -/
theorem passes_assertion {context : Context} {level : Magicness}
    (here : context.magicness = level) (outside : context.collection? = none)
    (assertion : Assertion) (position : Nat) (rest : List Char) :
    ∃ token after place, token.lexeme = .assertion assertion ∧
      Passes context position (assertion.spelling level ++ rest) [token] after place
        rest ∧ after.Continues context := by
  have neutral (others : List Char)
      (spelled : assertion.spelling level = level.newer ('@' :: others))
      (read : Assertion.read? (others ++ rest) = some (assertion, others.length)) :
      ∃ token after place, token.lexeme = .assertion assertion ∧
        Passes context position (assertion.spelling level ++ rest) [token] after
          place rest ∧ after.Continues context := by
    have operator (written : Bool) :
        Operator.assertion.read? context written (others ++ rest) =
          some (.lexeme (.assertion assertion), others.length) := by
      rw [Operator.read?, read]
      rfl
    obtain ⟨token, after, place, same, passes, continues, _⟩ :=
      passes_neutral .assertion _ here outside operator (fun _ => rfl) rfl
        (by simp [Lexeme.kind]) position
    have operatorSpelled := Operator.newer_eq .assertion level (by decide) others
    rw [List.drop_left, ← List.append_assoc, ← operatorSpelled] at passes
    rw [spelled]
    exact ⟨token, after, place, same, passes, continues⟩
  cases assertion with
  | ahead => exact neutral ['='] rfl rfl
  | notAhead => exact neutral ['!'] rfl rfl
  | behind => exact neutral ['<', '='] rfl rfl
  | notBehind => exact neutral ['<', '!'] rfl rfl
  | atomic => exact neutral ['>'] rfl rfl

end Scan

/-! ### Sketches -/

namespace Sketch

/-- Written at a level, the sketch is read from a context and a place up to the rest
of the text as a tree that depicts it. -/
structure ReadAs (level : Magicness) {rank : Rank} (sketch : Sketch rank)
    (context : Context) (position : Nat) (rest : List Char) (tree : Tree rank)
    (after : Context) (place : Nat) : Prop where
  passes :
    Scan.Passes context position (sketch.spelling level ++ rest) tree.tokens after
      place rest
  depicts : tree.Depicts sketch
  continues : after.Continues context
  /-- Behind an atom there is something to repeat. -/
  repeatable : rank = .atom → after.starIsLiteral = false

/-- Sketches of this rank can be read wherever they are written. -/
def Readable (level : Magicness) {rank : Rank} (sketch : Sketch rank) : Prop :=
  ∀ {context : Context}, context.magicness = level → context.collection? = none →
    ∀ position rest, ∃ tree after place,
      sketch.ReadAs level context position rest tree after place

variable {level : Magicness}

/-- The body of a group is read up to the end of the group. -/
theorem Readable.closed {body : Sketch .pattern} (readable : body.Readable level)
    {context : Context} (here : context.magicness = level)
    (outside : context.collection? = none) (position : Nat) (rest : List Char) :
    ∃ (tree : Tree .pattern) (closer : Token) (after : Context) (place : Nat),
      closer.lexeme = .groupClose ∧ tree.Depicts body ∧
      Scan.Passes context position
        (body.spelling level ++ (level.newer [')'] ++ rest))
        (tree.tokens ++ [closer]) after place rest ∧
      after.Continues context ∧ after.starIsLiteral = false := by
  obtain ⟨tree, middle, halfway, bodyReads⟩ :=
    readable here outside position (level.newer [')'] ++ rest)
  obtain ⟨closer, after, place, closes, last, closed, repeatable⟩ :=
    Scan.passes_neutral .groupClose .groupClose
      (bodyReads.continues.magicness.trans here)
      (bodyReads.continues.collection?.trans outside) (fun _ => rfl) (fun _ => rfl) rfl
      (by decide) halfway
  have spelled := Operator.newer_singleton .groupClose level (by decide)
  rw [← spelled] at last
  exact
    ⟨tree, closer, after, place, closes, bodyReads.depicts,
      bodyReads.passes.append last, closed.trans bodyReads.continues, repeatable⟩

theorem readable_literal (char : AlphaNumeric) :
    (Sketch.literal char).Readable level := by
  intro context here outside position rest
  obtain ⟨token, place, same, passes⟩ :=
    Scan.passes_alphaNumeric outside char position rest
  exact
    ⟨.literal token, context.afterToken token, place,
      { passes := passes
        depicts := .literal same
        continues := Context.continues_afterToken same (fun _ => rfl) rfl
        repeatable := fun _ => Context.starIsLiteral_afterToken same (by simp [Lexeme.kind]) }⟩

theorem readable_anyChar : Sketch.anyChar.Readable level := by
  intro context here outside position rest
  obtain ⟨token, after, place, same, passes, continues, repeatable⟩ :=
    Scan.passes_neutral .anyChar (.literal .anyChar) here outside (fun _ => rfl)
      (fun _ => rfl) rfl (by decide) position
  have spelled := Operator.older_eq .anyChar level (by decide)
  rw [← spelled] at passes
  exact
    ⟨.literal token, after, place,
      { passes := passes
        depicts := .anyChar same
        continues := continues
        repeatable := fun _ => repeatable }⟩

theorem readable_charClass (letterClass : CharClass) :
    (Sketch.charClass letterClass).Readable level := by
  intro context here outside position rest
  obtain ⟨token, place, same, passes⟩ :=
    Scan.passes_charClass outside letterClass position rest
  exact
    ⟨.literal token, context.afterToken token, place,
      { passes := passes
        depicts := .charClass same
        continues := Context.continues_afterToken same (fun _ => rfl) rfl
        repeatable := fun _ =>
          Context.starIsLiteral_afterToken same (by simp [Lexeme.kind]) }⟩

/-- No letter and no digit belongs to the opening of a collection. -/
theorem readOpening_alphaNumeric (char : AlphaNumeric) (rest : List Char) :
    Collection.readOpening false (char.val :: rest) = ({}, 0) := by
  have notCaret : char.val ≠ '^' := ne_of_isAlphanum char.property (by decide)
  have notBracket : char.val ≠ ']' := ne_of_isAlphanum char.property (by decide)
  simp [Collection.readOpening, notCaret, notBracket]

theorem readable_collection (first : AlphaNumeric) (others : List AlphaNumeric) :
    (Sketch.collection first others).Readable level := by
  intro context here outside position rest
  have read (written : Bool) :
      Operator.collection.read? context written
          ((first :: others).map Subtype.val ++ (']' :: rest)) =
        some (.lexeme (.collectionOpen {}), 0) := by
    simp only [Operator.read?, List.map_cons, List.cons_append,
      readOpening_alphaNumeric]
  obtain ⟨opener, inner, opens, start⟩ :=
    Scan.passes_operator outside read position
  have inside : (context.afterToken opener).collection? = some false := by
    rw [Context.collection?, Context.afterToken, opens]
    rfl
  obtain ⟨members, middle, halfway, lexemes, between, within⟩ :=
    Scan.passes_members (first :: others) inside inner (']' :: rest)
  obtain ⟨closer, place, closes, last⟩ :=
    Scan.passes_collectionClose (within.collection?.trans inside) halfway rest
  have spelled : level.older '[' = Operator.collection.spelling level :=
    Operator.older_eq .collection level (by decide)
  rw [here, ← spelled] at start
  refine
    ⟨.collection opener members closer, middle.afterToken closer, place,
      { passes := ?_
        depicts := .collection opens lexemes closes
        continues :=
          Context.continues_afterToken_of_closed opens closes rfl rfl rfl rfl within
        repeatable := fun _ =>
          Context.starIsLiteral_afterToken closes (by simp [Lexeme.kind]) }⟩
  rw [spelling, List.append_assoc, List.append_assoc]
  exact start.append (between.append last)

theorem readable_group {body : Sketch .pattern} (bodyReadable : body.Readable level) :
    (Sketch.group body).Readable level := by
  intro context here outside position rest
  let number := context.tally.plainGroups + 1
  obtain ⟨opener, opened, inner, opens, start, continues, _⟩ :=
    Scan.passes_neutral .groupOpen (.groupOpen (.capturing number)) here outside
      (fun _ => rfl) (fun _ => rfl) rfl (by simp [Lexeme.kind]) position
  obtain ⟨tree, closer, after, place, closes, depicts, passes, within, repeatable⟩ :=
    bodyReadable.closed (continues.magicness.trans here)
      (continues.collection?.trans outside) inner rest
  have spelled : level.newer ['('] = Operator.groupOpen.spelling level :=
    Operator.newer_singleton .groupOpen level (by decide)
  rw [← spelled] at start
  refine
    ⟨.group opener tree closer, after, place,
      { passes := ?_
        depicts := .group opens depicts closes
        continues := within.trans continues
        repeatable := fun _ => repeatable }⟩
  rw [spelling, List.append_assoc, List.append_assoc]
  exact start.append passes

theorem readable_cluster {body : Sketch .pattern}
    (bodyReadable : body.Readable level) : (Sketch.cluster body).Readable level := by
  intro context here outside position rest
  obtain ⟨opener, inner, opens, start⟩ :=
    Scan.passes_clusterOpen outside position
      (body.spelling level ++ (level.newer [')'] ++ rest))
  rw [here] at start
  have continues : (context.afterToken opener).Continues context :=
    Context.continues_afterToken opens (fun _ => rfl) rfl
  obtain ⟨tree, closer, after, place, closes, depicts, passes, within, repeatable⟩ :=
    bodyReadable.closed (continues.magicness.trans here)
      (continues.collection?.trans outside) inner rest
  refine
    ⟨.group opener tree closer, after, place,
      { passes := ?_
        depicts := .cluster opens depicts closes
        continues := within.trans continues
        repeatable := fun _ => repeatable }⟩
  rw [spelling, List.append_assoc, List.append_assoc]
  exact start.append passes

theorem readable_optional {front : Sketch .concat} {last : Sketch .piece}
    (frontReadable : front.Readable level) (lastReadable : last.Readable level) :
    (Sketch.optional front last).Readable level := by
  intro context here outside position rest
  obtain ⟨opener, inner, opens, start⟩ :=
    Scan.passes_optionalOpen outside position
      (front.spelling level ++ (last.spelling level ++ (']' :: rest)))
  rw [here] at start
  have opened : (context.afterToken opener).enclosing =
      { construct := .optionalMatch, position := opener.position } ::
        context.enclosing := by
    rw [Context.afterToken, opens]
    rfl
  have outsideStill : (context.afterToken opener).collection? = none := by
    rw [Context.collection?, opened]
  have hereStill : (context.afterToken opener).magicness = level := here
  obtain ⟨pieces, middle, between, frontReads⟩ :=
    frontReadable hereStill outsideStill inner (last.spelling level ++ (']' :: rest))
  obtain ⟨piece, behind, halfway, lastReads⟩ :=
    lastReadable (frontReads.continues.magicness.trans hereStill)
      (frontReads.continues.collection?.trans outsideStill) between (']' :: rest)
  have within := lastReads.continues.trans frontReads.continues
  have region : behind.region = .optionalMatch := by
    rw [Context.region, within.enclosing, opened]
    rfl
  obtain ⟨closer, place, closes, final⟩ :=
    Scan.passes_optionalClose region (within.collection?.trans outsideStill) halfway
      rest
  refine
    ⟨.optional opener (.snoc pieces piece) closer, behind.afterToken closer, place,
      { passes := ?_
        depicts := .optional opens frontReads.depicts lastReads.depicts closes
        continues :=
          Context.continues_afterToken_of_closed opens closes rfl rfl rfl rfl within
        repeatable := fun _ =>
          Context.starIsLiteral_afterToken closes (by simp [Lexeme.kind]) }⟩
  rw [spelling, List.append_assoc, List.append_assoc, List.append_assoc]
  have inside := (frontReads.passes.append lastReads.passes).append final
  exact start.append inside

/-! ### Pieces -/

theorem readable_bare {atom : Sketch .atom} (atomReadable : atom.Readable level) :
    (Sketch.bare atom).Readable level := by
  intro context here outside position rest
  obtain ⟨tree, after, place, reads⟩ := atomReadable here outside position rest
  exact
    ⟨.bare tree, after, place,
      { passes := reads.passes
        depicts := .bare reads.depicts
        continues := reads.continues
        repeatable := nofun }⟩

theorem readable_repeated {atom : Sketch .atom} (atomReadable : atom.Readable level)
    (repetition : Repetition) : (Sketch.repeated atom repetition).Readable level := by
  intro context here outside position rest
  obtain ⟨tree, middle, halfway, reads⟩ :=
    atomReadable here outside position (repetition.spelling level ++ rest)
  obtain ⟨token, after, place, same, passes, continues⟩ :=
    Scan.passes_repetition (reads.continues.magicness.trans here)
      (reads.continues.collection?.trans outside) (reads.repeatable rfl) repetition
      halfway rest
  refine
    ⟨.quantified tree token, after, place,
      { passes := ?_
        depicts := .repeated reads.depicts same
        continues := continues.trans reads.continues
        repeatable := nofun }⟩
  rw [spelling, List.append_assoc]
  exact reads.passes.append passes

theorem readable_asserted {piece : Sketch .piece} (pieceReadable : piece.Readable level)
    (assertion : Assertion) : (Sketch.asserted piece assertion).Readable level := by
  intro context here outside position rest
  obtain ⟨tree, middle, halfway, reads⟩ :=
    pieceReadable here outside position (assertion.spelling level ++ rest)
  obtain ⟨token, after, place, same, passes, continues⟩ :=
    Scan.passes_assertion (reads.continues.magicness.trans here)
      (reads.continues.collection?.trans outside) assertion halfway rest
  refine
    ⟨.asserted tree token, after, place,
      { passes := ?_
        depicts := .asserted reads.depicts same
        continues := continues.trans reads.continues
        repeatable := nofun }⟩
  rw [spelling, List.append_assoc]
  exact reads.passes.append passes

/-! ### Concatenations, branches and patterns -/

theorem readable_empty : Sketch.empty.Readable level := by
  intro context here outside position rest
  exact
    ⟨.empty, context, position,
      { passes := .nothing context position rest
        depicts := .empty
        continues := .refl context
        repeatable := nofun }⟩

theorem readable_snoc {pieces : Sketch .concat} {piece : Sketch .piece}
    (piecesReadable : pieces.Readable level) (pieceReadable : piece.Readable level) :
    (Sketch.snoc pieces piece).Readable level := by
  intro context here outside position rest
  obtain ⟨front, middle, halfway, frontReads⟩ :=
    piecesReadable here outside position (piece.spelling level ++ rest)
  obtain ⟨last, after, place, lastReads⟩ :=
    pieceReadable (frontReads.continues.magicness.trans here)
      (frontReads.continues.collection?.trans outside) halfway rest
  refine
    ⟨.snoc front last, after, place,
      { passes := ?_
        depicts := .snoc frontReads.depicts lastReads.depicts
        continues := lastReads.continues.trans frontReads.continues
        repeatable := nofun }⟩
  rw [spelling, List.append_assoc]
  exact frontReads.passes.append lastReads.passes

theorem readable_operand {concat : Sketch .concat}
    (concatReadable : concat.Readable level) :
    (Sketch.operand concat).Readable level := by
  intro context here outside position rest
  obtain ⟨tree, after, place, reads⟩ := concatReadable here outside position rest
  exact
    ⟨.operand tree, after, place,
      { passes := reads.passes
        depicts := .operand reads.depicts
        continues := reads.continues
        repeatable := nofun }⟩

theorem readable_both {operands : Sketch .branch} {concat : Sketch .concat}
    (operandsReadable : operands.Readable level)
    (concatReadable : concat.Readable level) :
    (Sketch.both operands concat).Readable level := by
  intro context here outside position rest
  obtain ⟨front, middle, halfway, frontReads⟩ :=
    operandsReadable here outside position
      (level.newer ['&'] ++ (concat.spelling level ++ rest))
  obtain ⟨separator, behind, between, same, passes, separated, _⟩ :=
    Scan.passes_neutral .conjunction .conjunction
      (frontReads.continues.magicness.trans here)
      (frontReads.continues.collection?.trans outside) (fun _ => rfl) (fun _ => rfl) rfl
      (by decide) halfway
  have continues := separated.trans frontReads.continues
  obtain ⟨last, after, place, lastReads⟩ :=
    concatReadable (continues.magicness.trans here)
      (continues.collection?.trans outside) between rest
  have spelled : level.newer ['&'] = Operator.conjunction.spelling level :=
    Operator.newer_singleton .conjunction level (by decide)
  rw [← spelled] at passes
  refine
    ⟨.both front separator last, after, place,
      { passes := ?_
        depicts := .both frontReads.depicts same lastReads.depicts
        continues := lastReads.continues.trans continues
        repeatable := nofun }⟩
  rw [spelling, List.append_assoc, List.append_assoc]
  exact frontReads.passes.append (passes.append lastReads.passes)

theorem readable_single {branch : Sketch .branch}
    (branchReadable : branch.Readable level) :
    (Sketch.single branch).Readable level := by
  intro context here outside position rest
  obtain ⟨tree, after, place, reads⟩ := branchReadable here outside position rest
  exact
    ⟨.single tree, after, place,
      { passes := reads.passes
        depicts := .single reads.depicts
        continues := reads.continues
        repeatable := nofun }⟩

theorem readable_either {alternatives : Sketch .pattern} {branch : Sketch .branch}
    (alternativesReadable : alternatives.Readable level)
    (branchReadable : branch.Readable level) :
    (Sketch.either alternatives branch).Readable level := by
  intro context here outside position rest
  obtain ⟨front, middle, halfway, frontReads⟩ :=
    alternativesReadable here outside position
      (level.newer ['|'] ++ (branch.spelling level ++ rest))
  obtain ⟨separator, behind, between, same, passes, separated, _⟩ :=
    Scan.passes_neutral .alternative .alternative
      (frontReads.continues.magicness.trans here)
      (frontReads.continues.collection?.trans outside) (fun _ => rfl) (fun _ => rfl) rfl
      (by decide) halfway
  have continues := separated.trans frontReads.continues
  obtain ⟨last, after, place, lastReads⟩ :=
    branchReadable (continues.magicness.trans here)
      (continues.collection?.trans outside) between rest
  have spelled : level.newer ['|'] = Operator.alternative.spelling level :=
    Operator.newer_singleton .alternative level (by decide)
  rw [← spelled] at passes
  refine
    ⟨.either front separator last, after, place,
      { passes := ?_
        depicts := .either frontReads.depicts same lastReads.depicts
        continues := lastReads.continues.trans continues
        repeatable := nofun }⟩
  rw [spelling, List.append_assoc, List.append_assoc]
  exact frontReads.passes.append (passes.append lastReads.passes)

/-- Every sketch is read as a tree that depicts it. -/
theorem readable {rank : Rank} (sketch : Sketch rank) : sketch.Readable level := by
  induction sketch with
  | literal char => exact readable_literal char
  | anyChar => exact readable_anyChar
  | charClass letterClass => exact readable_charClass letterClass
  | collection first others => exact readable_collection first others
  | group body bodyReadable => exact readable_group bodyReadable
  | cluster body bodyReadable => exact readable_cluster bodyReadable
  | optional front last frontReadable lastReadable =>
      exact readable_optional frontReadable lastReadable
  | bare atom atomReadable => exact readable_bare atomReadable
  | repeated atom repetition atomReadable =>
      exact readable_repeated atomReadable repetition
  | asserted piece assertion pieceReadable =>
      exact readable_asserted pieceReadable assertion
  | empty => exact readable_empty
  | snoc pieces piece piecesReadable pieceReadable =>
      exact readable_snoc piecesReadable pieceReadable
  | operand concat concatReadable => exact readable_operand concatReadable
  | both operands concat operandsReadable concatReadable =>
      exact readable_both operandsReadable concatReadable
  | single branch branchReadable => exact readable_single branchReadable
  | either alternatives branch alternativesReadable branchReadable =>
      exact readable_either alternativesReadable branchReadable

end Sketch

end VimPattern
