/-
Module: VimPattern.Proofs.Grammar.Operands
Purpose: Where a repeated piece has a text that its repetition acts on.
Main exports:
  Tree.repeated?, Grounded, Token.RepeatsNothing, Tree.text_eq_empty_iff,
  Growth.Step.solid_iff, Growth.Takes.solid_iff, grounded_iff, grounded_fails
-/
import Mathlib.Data.List.Basic
import VimPattern.Proofs.Grammar.Anchors
import VimPattern.Proofs.Grammar.Carets

namespace VimPattern

/-!
A quantifier repeats what comes before it in the target.  That is the text of its own atom as
long as the atom leaves one.  As soon as a line break is some text, all atoms do, except for
anchors next to a line break.  A dollar before one is never repeated, since the break and no
repetition follows it; a caret behind one may be, and then its repetition acts on whatever comes
before the caret.
-/

/-! ### Texts of atoms -/

namespace Escape

theorem quoted_ne_empty (char : Char) : quoted char ≠ "" := by
  unfold quoted afterBackslash
  split <;> simp

theorem plain_ne_empty (char : Char) : plain char ≠ "" := by
  unfold plain afterBackslash
  split
  · simp
  · split <;> simp

theorem backslashed_ne_empty (char : Char) : backslashed char ≠ "" := by
  unfold backslashed
  split
  · decide
  · decide
  · decide
  · decide
  · exact quoted_ne_empty char

end Escape

section

variable {style : Style} (breaks : style.options.newLine ≠ "")
include breaks

theorem Literal.text_ne_empty (literal : Literal) : literal.text style ≠ "" := by
  cases literal with
  | plain char => exact Escape.plain_ne_empty char
  | escaped char => exact Escape.backslashed_ne_empty char
  | lineBreak =>
      rw [text, Options.lineBreakText]
      split
      · exact breaks
      · simp
  | matchStart first | matchEnd first => cases first <;> simp [text]
  | charClass letterClass withBreak => cases withBreak <;> simp [text, CharClass.text]
  | backReference number =>
      rw [text]
      split <;> simp
  | _ =>
      simp [text, Options.anyOrBreakText, Options.lineStartText, Options.lineEndText,
        CodePoint.text]

end

theorem Options.dollarText_ne_empty (options : Options) : options.dollarText ≠ "" := by
  unfold dollarText lineEndText
  split <;> simp

theorem GroupSort.text_ne_empty (style : Style) (sort : GroupSort) : sort.text style ≠ "" := by
  cases sort with
  | capturing number =>
      rw [text]
      split <;> simp
  | _ => simp [text]

theorem Collection.Opening.text_ne_empty (opening : Opening) (newLine : String) :
    opening.text newLine ≠ "" := by
  rcases opening with ⟨withBreak, negated, leadingBracket⟩
  cases withBreak <;> cases negated <;> simp [text]

/-- Where a line break is some text, an atom leaves none exactly if it is an anchor next to a
line break. -/
theorem Tree.text_eq_empty_iff {style : Style} (breaks : style.options.newLine ≠ "")
    {atom : Tree .atom} (lexed : atom.Lexed) :
    atom.text style = "" ↔ atom.isHollow = true := by
  cases atom with
  | literal token =>
      obtain ⟨literal, same, _⟩ := lexed
      have leaves := literal.text_ne_empty breaks
      simp [isHollow, Token.text, same, leaves]
  | anchor token place =>
      have leaves : token.text style ≠ "" := by
        rw [Token.text]
        rcases lexed with same | same <;> rw [same]
        · exact Options.caretText_ne_empty _
        · exact Options.dollarText_ne_empty _
      cases place with
      | edge => simp [isHollow, anchorText, leaves]
      | besideBreak => simp [isHollow, anchorText]
      | inside =>
          rw [text_anchor, anchorText]
          split
          · simp [isHollow, leaves]
          · split <;> simp [isHollow]
  | group opener body closer =>
      obtain ⟨⟨sort, same⟩, _⟩ := lexed
      have leaves := sort.text_ne_empty style
      simp [isHollow, Token.text, same, leaves]
  | collection opener members closer =>
      obtain ⟨⟨opening, same, _⟩, _⟩ := lexed
      have leaves := opening.text_ne_empty style.options.newLine
      simp [isHollow, Token.text, same, leaves]
  | optional opener pieces closer => simp [isHollow]

/-! ### Repeated pieces -/

namespace Tree

/-- The atom that a quantifier or an assertion of the piece stands behind. -/
def repeated? : {rank : Rank} → Tree rank → Option (Tree .atom)
  | _, .quantified atom _ => some atom
  | _, .asserted (.bare atom) _ => some atom
  | _, .asserted piece _ => piece.repeated?
  | _, _ => none

theorem repeated?_asserted {piece : Tree .piece} {assertion : Token} {atom : Tree .atom} :
    (asserted piece assertion).repeated? = some atom ↔
      piece = .bare atom ∨ piece.repeated? = some atom := by
  cases piece <;> simp [repeated?]

theorem Lexed.repeated {rank : Rank} {tree : Tree rank} (lexed : tree.Lexed)
    {atom : Tree .atom} (repeats : tree.repeated? = some atom) : atom.Lexed := by
  induction tree with
  | quantified core quantifier =>
      cases repeats
      exact lexed.1
  | asserted piece assertion inductionHypothesis =>
      rcases repeated?_asserted.1 repeats with rfl | inner
      · exact lexed.1
      · exact inductionHypothesis lexed.1 inner
  | _ => cases repeats

end Tree

/-- If the piece is repeated or asserted, its atom leaves some text. -/
def Grounded (style : Style) : Fitting := fun _ piece =>
  ∀ atom, piece.repeated? = some atom → atom.text style ≠ ""

/-- If the piece is repeated or asserted, its atom is no anchor without text. -/
def Solid : Fitting := fun _ piece =>
  ∀ atom, piece.repeated? = some atom → atom.isHollow = false

/-- Conditions that agree on lexed pieces agree on lexed trees. -/
theorem Tree.everywhere_iff {fits other : Fitting}
    (same : ∀ pieces piece, piece.Lexed → (fits pieces piece ↔ other pieces piece))
    {rank : Rank} {tree : Tree rank} (lexed : tree.Lexed) :
    tree.Everywhere fits ↔ tree.Everywhere other := by
  induction tree with
  | literal | anchor | collection | empty => exact Iff.rfl
  | group opener body closer inside => exact inside lexed.2.1
  | optional opener pieces closer inside => exact inside lexed.2.1
  | bare atom inside => exact inside lexed
  | quantified atom quantifier inside => exact inside lexed.1
  | asserted piece assertion inside => exact inside lexed.1
  | snoc pieces piece front last =>
      exact and_congr (front lexed.1) (and_congr (last lexed.2) (same pieces piece lexed.2))
  | operand concat inside => exact inside lexed
  | both operands separator concat front last =>
      exact and_congr (front lexed.1) (last lexed.2.2)
  | single branch inside => exact inside lexed
  | either alternatives separator branch front last =>
      exact and_congr (front lexed.1) (last lexed.2.2)

/-- In a lexed tree all repeated pieces leave text if none of them is an anchor without. -/
theorem Tree.grounded_iff_solid {style : Style} (breaks : style.options.newLine ≠ "")
    {rank : Rank} {tree : Tree rank} (lexed : tree.Lexed) :
    tree.Everywhere (Grounded style) ↔ tree.Everywhere Solid := by
  refine everywhere_iff (fun pieces piece pieceLexed => ?_) lexed
  refine forall₂_congr fun atom repeats => ?_
  rw [ne_eq, text_eq_empty_iff breaks (pieceLexed.repeated repeats), Bool.not_eq_true]

/-! ### Growing -/

/-- Among the tokens a repetition stands directly behind a caret that leaves nothing. -/
def Token.RepeatsNothing (tokens : List Token) : Prop :=
  ∃ before caret repetition others, tokens = before ++ caret :: repetition :: others ∧
    caret.kind = .caret ∧ caretPlace before = .besideBreak ∧ repetition.isRepetition = true

/-- With one more token there is such a repetition if there was one before, or if that token is
one. -/
theorem Token.repeatsNothing_concat (front : List Token) (last : Token) :
    RepeatsNothing (front ++ [last]) ↔
      RepeatsNothing front ∨ last.isRepetition = true ∧ ∃ before caret,
        front = before ++ [caret] ∧ caret.kind = .caret ∧ caretPlace before = .besideBreak := by
  constructor
  · rintro ⟨before, caret, repetition, others, split, kind, place, repeats⟩
    rcases List.eq_nil_or_concat' others with rfl | ⟨others, final, rfl⟩
    · have joined : front ++ [last] = (before ++ [caret]) ++ [repetition] := by
        simpa using split
      obtain ⟨rfl, single⟩ := List.append_inj' joined rfl
      cases single
      exact .inr ⟨repeats, before, caret, rfl, kind, place⟩
    · have joined : front ++ [last] = (before ++ caret :: repetition :: others) ++ [final] := by
        simpa using split
      obtain ⟨rfl, _⟩ := List.append_inj' joined rfl
      exact .inl ⟨before, caret, repetition, others, rfl, kind, place, repeats⟩
  · rintro (⟨before, caret, repetition, others, rfl, here⟩ |
      ⟨repeats, before, caret, rfl, kind, place⟩)
    · exact ⟨before, caret, repetition, others ++ [last], by simp, here⟩
    · exact ⟨before, caret, last, [], by simp, kind, place, repeats⟩

namespace Growth

/-- The last piece is an anchor that leaves no text, and may still be repeated. -/
def EndsHollow (growth : Growth) : Prop :=
  ∃ pieces atom, growth.pieces = .snoc pieces (.bare atom) ∧ atom.isHollow = true

variable {growth after : Growth} {token : Token} {following : Option Token}

/-- A token that is no repetition adds no piece that does not fit. -/
theorem Step.solid_iff (taken : Step growth token following after)
    (single : token.isRepetition = false) :
    after.Everywhere Solid ↔ growth.Everywhere Solid := by
  refine taken.everywhere_iff (fun pieces atom => nofun) ?_ ?_
  all_goals
    intro kind
    rw [Token.isRepetition, kind] at single
    cases single

/-- A repetition is put behind the last piece, which has to leave some text. -/
theorem Step.solid_iff_of_repetition (taken : Step growth token following after)
    (repeats : token.isRepetition = true) :
    after.Everywhere Solid ↔ growth.Everywhere Solid ∧ ¬growth.EndsHollow := by
  cases taken with
  | @quantifier pieces atom outside kind last =>
      have fitting : Solid pieces (.quantified atom token) ↔ ¬growth.EndsHollow := by
        constructor
        · rintro solid ⟨_, _, ends, hollow⟩
          cases last.symm.trans ends
          exact Bool.false_ne_true ((solid atom rfl).symm.trans hollow)
        · rintro solid _ ⟨⟩
          exact Bool.eq_false_iff.2 fun hollow => solid ⟨pieces, atom, last, hollow⟩
      have same : Tree.Everywhere Solid (.quantified atom token) ↔
          Tree.Everywhere Solid (.bare atom) := Iff.rfl
      rw [everywhere_withPieces_iff last same fun _ _ => nofun, fitting]
  | @assertion pieces piece outside kind last =>
      have weaker : Solid pieces (.asserted piece token) → Solid pieces piece :=
        fun fits atom repeats => fits atom (Tree.repeated?_asserted.2 (.inr repeats))
      have same : Tree.Everywhere Solid (.asserted piece token) ↔
          Tree.Everywhere Solid piece := Iff.rfl
      rw [everywhere_withPieces_iff last same weaker]
      refine and_congr_right fun all => ?_
      constructor
      · rintro fits ⟨_, atom, ends, hollow⟩
        cases last.symm.trans ends
        have leaves := fits atom (Tree.repeated?_asserted.2 (.inl rfl))
        exact Bool.false_ne_true (leaves.symm.trans hollow)
      · intro solid atom repeats
        have old := all.pieces
        rw [last] at old
        rcases Tree.repeated?_asserted.1 repeats with rfl | inner
        · exact Bool.eq_false_iff.2 fun hollow => solid ⟨pieces, atom, last, hollow⟩
        · exact old.2.2 atom inner
  | _ => simp_all [Token.isRepetition, Kind.isRepetition]

/-- Before a repetition the last piece is an anchor without text exactly if the last token is a
caret behind a line break. -/
theorem Takes.endsHollow_iff {repetition : Token} {growth : Growth} {tokens : List Token}
    (takes : Takes (some repetition) {} tokens growth) (outside : growth.collection = none)
    (breaks : ∀ token ∈ tokens, token.LiteralBreak) (plain : repetition.isLineBreak = false) :
    growth.EndsHollow ↔ ∃ before caret, tokens = before ++ [caret] ∧ caret.kind = .caret ∧
      Token.caretPlace before = .besideBreak := by
  -- Behind a caret the last piece is that caret, at its place.
  have place {front : List Token} {token : Token} {middle : Growth}
      (split : tokens = front ++ [token]) (early : Takes (some token) {} front middle)
      (free : middle.collection = none) : middle.caretPlace = Token.caretPlace front := by
    have breaksFront : ∀ token ∈ front, token.LiteralBreak := fun token among =>
      breaks token (split ▸ List.mem_append_left _ among)
    exact (early.trail free breaksFront).caretPlace_eq (early.inOptional_eq free)
  constructor
  · rintro ⟨pieces, atom, ends, hollow⟩
    rcases List.eq_nil_or_concat' tokens with rfl | ⟨front, token, rfl⟩
    · cases takes
      cases ends
    · obtain ⟨middle, early, taken⟩ := takes.exists_last
      cases taken with
      | member inside kind => cases outside
      | collectionOpen _ kind => cases outside
      | caret free kind =>
          rw [pieces_add] at ends
          cases ends
          exact ⟨front, token, rfl, kind, (place rfl early free).symm.trans
            (place_of_isHollow hollow)⟩
      | dollar free kind =>
          -- What follows a dollar without text is a line break, and no repetition.
          have added : (middle.addDollar token (some repetition)).pieces =
            .snoc middle.pieces (.bare (.anchor token (dollarPlace (some repetition)))) :=
              pieces_add _ _
          rw [added] at ends
          cases ends
          obtain ⟨_, ⟨⟩, spelled⟩ := isLineBreak_of_dollarPlace (place_of_isHollow hollow)
          exact absurd spelled (Bool.eq_false_iff.1 plain)
      | quantifier _ _ _ | assertion _ _ _ =>
          rw [pieces_withPieces] at ends
          cases ends
      | conjunction _ _ drafting | alternative _ _ drafting =>
          rw [pieces_eq_of_draft? (draft?_withDraft drafting _)] at ends
          cases ends
      | groupOpen _ _ | optionalOpen _ _ => cases ends
      | _ =>
          rw [pieces_add] at ends
          cases ends
          cases hollow
  · rintro ⟨before, caret, rfl, kind, besideBreak⟩
    obtain ⟨middle, early, taken⟩ := takes.exists_last
    cases taken with
    | caret free _ =>
        refine ⟨middle.pieces, _, pieces_add _ _, ?_⟩
        rw [place rfl early free, besideBreak]
        rfl
    | _ => simp_all

/-- All repeated pieces of a growth leave text unless one of the repetitions taken stands behind
a caret that leaves nothing. -/
theorem Takes.solid_iff {behind : Option Token} {growth : Growth} {tokens : List Token}
    (takes : Takes behind {} tokens growth) (breaks : ∀ token ∈ tokens, token.LiteralBreak) :
    growth.Everywhere Solid ↔ ¬Token.RepeatsNothing tokens := by
  induction tokens using List.reverseRecOn generalizing behind growth with
  | nil =>
      cases takes
      refine iff_of_true .new ?_
      rintro ⟨before, caret, repetition, others, split, _⟩
      cases before <;> cases split
  | append_singleton front last inductionHypothesis =>
      obtain ⟨middle, early, taken⟩ := takes.exists_last
      obtain ⟨breaksFront, breaksLast⟩ := List.forall_mem_append.1 breaks
      have before := inductionHypothesis early breaksFront
      rw [Token.repeatsNothing_concat, not_or, ← before]
      cases repeats : last.isRepetition with
      | false => simpa using taken.solid_iff repeats
      | true =>
          have free : middle.collection = none := by
            cases taken with
            | quantifier free | assertion free => exact free
            | _ => simp_all [Token.isRepetition, Kind.isRepetition]
          have plain := (breaksLast last (.head _)).isLineBreak_of_isRepetition repeats
          rw [taken.solid_iff_of_repetition repeats,
            early.endsHollow_iff free breaksFront plain]
          simp

end Growth

/-- Take a pattern that converts while a line break is some text.  Every quantifier and every
assertion of its tree stands behind an atom that leaves some text, unless one of them follows
directly on a caret that stands behind a line break. -/
theorem grounded_iff {options : Options} {pattern : String} {conversion : Conversion}
    (converted : convert options pattern = .ok conversion) (breaks : options.newLine ≠ "") :
    ∃ grown, Tree.ofScan (Scan.ofPattern options.magicness pattern) = .ok grown ∧
      (pattern.isEmpty = false →
        conversion = .ofGrown options (foldsCase options pattern) grown) ∧
        ∀ style : Style, style.options = options →
          (grown.tree.Everywhere (Grounded style) ↔
            ¬Token.RepeatsNothing (Scan.ofPattern options.magicness pattern).tokens) := by
  obtain ⟨grown, complete, _, same⟩ := exists_grown_of_convert converted
  refine ⟨grown, complete, same, ?_⟩
  rintro style rfl
  have lexed := Tree.lexed_ofScan complete
  obtain ⟨_, after, _, takes, finished, _⟩ := Growth.takes_of_run_eq_ok complete
  have literal := (Scan.reads_ofPattern style.options.magicness pattern).literalBreak
  rw [Tree.grounded_iff_solid breaks lexed, ← takes.solid_iff literal,
    Growth.everywhere_finish_iff finished]

/-- A caret at the start of an alternative leaves its own text, which the plus repeats. -/
theorem grounded_alternative :
    convert {} "a\\|^\\+" =
        .ok
          { converted := "a|^+"
            ignoreCase := false
            magicness := .magic
            metadata := {} } ∧
      ({} : Options).newLine ≠ "" ∧
        ∃ grown, Tree.ofScan (Scan.ofPattern .magic "a\\|^\\+") = .ok grown ∧
          ∀ style : Style, style.options = {} → grown.tree.Everywhere (Grounded style) := by
  have converted :
      convert {} "a\\|^\\+" =
        .ok
          { converted := "a|^+"
            ignoreCase := false
            magicness := .magic
            metadata := {} } := by
    rfl
  have breaks : ({} : Options).newLine ≠ "" := by decide
  obtain ⟨grown, complete, _, grounded⟩ := grounded_iff converted breaks
  refine ⟨converted, breaks, grown, complete, fun style same => (grounded style same).2 ?_⟩
  have tokens : (Scan.ofPattern .magic "a\\|^\\+").tokens =
      [{ lexeme := .literal (.plain 'a'), raw := "a", position := 0, magicness := .magic },
        { lexeme := .alternative, raw := "\\|", position := 1, magicness := .magic },
        { lexeme := .caret, raw := "^", position := 3, magicness := .magic },
        { lexeme := .quantifier .plus, raw := "\\+", position := 4, magicness := .magic }] := by
    decide +kernel
  rw [tokens]
  rintro ⟨before, caret, repetition, others, split, kind, place, _⟩
  rcases before with _ | ⟨first, _ | ⟨second, _ | ⟨third, _ | ⟨fourth, before⟩⟩⟩⟩
  · cases split
    cases kind
  · cases split
    cases kind
  · cases split
    cases place
  · cases split
  · simp at split

/-- Behind a line break the caret leaves nothing, and the plus repeats the line break; with a
plus in between it repeats what is repeated already. -/
theorem grounded_fails :
    convert {} "\\n^\\+" =
        .ok
          { converted := "\\n+"
            ignoreCase := false
            magicness := .magic
            metadata := {} } ∧
      convert {} "\\n\\+^\\+" =
          .ok
            { converted := "\\n++"
              ignoreCase := false
              magicness := .magic
              metadata := {} } ∧
        ∃ grown, Tree.ofScan (Scan.ofPattern .magic "\\n^\\+") = .ok grown ∧
          ¬grown.tree.Everywhere (Grounded { options := {} }) := by
  refine ⟨rfl, rfl, _, rfl, ?_⟩
  rintro ⟨_, _, leaves⟩
  exact leaves _ rfl rfl

end VimPattern
