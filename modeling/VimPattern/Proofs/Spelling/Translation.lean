/-
Module: VimPattern.Proofs.Spelling.Translation
Purpose: A sketch has the same translation however it is spelled.
Main exports:
  Sketch.Unmarked, Sketch.unmarked_spelling, Sketch.exists_ofScan_print,
  Sketch.convertText_print
-/
import VimPattern.Conversion
import VimPattern.Proofs.Spelling.Reading

namespace VimPattern.Sketch

/-!
The tree that a printed sketch is read as is the grown one, since a sketch has no
anchors whose places could differ.  What is left is the case of letters, which the
converter looks for in the raw text: no spelling of a sketch says anything about
it.
-/

/-! ### Case markers -/

/-- The text holds no case marker and ends where one may begin. -/
def Unmarked (text : List Char) : Prop :=
  ∀ rest, caseMarker? (text ++ rest) = caseMarker? rest

theorem unmarked_nil : Unmarked [] :=
  fun _ => rfl

theorem Unmarked.append {front back : List Char} (early : Unmarked front)
    (late : Unmarked back) : Unmarked (front ++ back) := by
  intro rest
  rw [List.append_assoc, early, late]

/-- Only a backslash begins a case marker. -/
theorem unmarked_of_forall {text : List Char} (bare : ∀ char ∈ text, char ≠ '\\') :
    Unmarked text := by
  intro rest
  induction text with
  | nil => rfl
  | cons char text inductionHypothesis =>
      obtain ⟨notEscape, others⟩ := List.forall_mem_cons.1 bare
      rw [List.cons_append, caseMarker?, inductionHypothesis others]
      · rintro _ rfl
        exact absurd rfl notEscape
      · rintro _ rfl
        exact absurd rfl notEscape
      · rintro _ _ rfl
        exact absurd rfl notEscape

/-- No case marker is written with this character. -/
def isUnmarking (char : Char) : Bool :=
  char != '\\' && char != 'c' && char != 'C'

/-- A backslash takes the character after it with it, whatever it is. -/
theorem unmarked_pair {char : Char} (notSmall : char ≠ 'c') (notCapital : char ≠ 'C') :
    Unmarked ['\\', char] := by
  intro rest
  change caseMarker? ('\\' :: char :: rest) = _
  rw [caseMarker?]
  · exact notSmall
  · exact notCapital

theorem unmarked_escape {char : Char} (free : isUnmarking char) :
    Unmarked ['\\', char] := by
  apply unmarked_pair
  · rintro rfl
    cases free
  · rintro rfl
    cases free

theorem unmarked_of_all {text : List Char} (free : text.all isUnmarking) :
    Unmarked text := by
  apply unmarked_of_forall
  rintro char among rfl
  cases List.all_eq_true.1 free _ among

theorem unmarked_older (level : Magicness) {char : Char} (free : isUnmarking char) :
    Unmarked (level.older char) := by
  unfold Magicness.older
  split
  · exact unmarked_escape free
  · apply unmarked_of_all
    simpa using free

theorem unmarked_newer (level : Magicness) {char : Char} {others : List Char}
    (free : (char :: others).all isUnmarking) :
    Unmarked (level.newer (char :: others)) := by
  unfold Magicness.newer
  split
  · exact unmarked_of_all free
  · obtain ⟨first, rest⟩ := Bool.and_eq_true_iff.1 free
    exact (unmarked_escape first).append (unmarked_of_all rest)

theorem isUnmarking_of_isDigit {char : Char} (digit : char.isDigit) :
    isUnmarking char := by
  have differs {other : Char} (special : other.isDigit = false) : char ≠ other := by
    rintro rfl
    rw [special] at digit
    cases digit
  have escape : char ≠ '\\' := differs rfl
  have small : char ≠ 'c' := differs rfl
  have capital : char ≠ 'C' := differs rfl
  simp [isUnmarking, escape, small, capital]

theorem unmarked_repetition (level : Magicness) (repetition : Repetition) :
    Unmarked (repetition.spelling level) := by
  cases repetition with
  | star => exact unmarked_older level rfl
  | plus => exact unmarked_newer level rfl
  | optional => exact unmarked_newer level rfl
  | between low high ordered =>
      have digits (number : Nat) : (toString number).toList.all isUnmarking := by
        apply List.all_eq_true.2
        intro char among
        exact isUnmarking_of_isDigit (isDigit_of_mem_toString among)
      have opening : isUnmarking '\x7b' := rfl
      have comma : isUnmarking ',' := rfl
      have closing : isUnmarking '\x7d' := rfl
      apply unmarked_newer
      simp only [List.all_cons, List.all_append, List.all_nil, digits, opening, comma,
        closing, Bool.and_self]

theorem unmarked_assertion (level : Magicness) (assertion : Assertion) :
    Unmarked (assertion.spelling level) := by
  cases assertion <;> exact unmarked_newer level rfl

/-- No spelling of a sketch holds a case marker. -/
theorem unmarked_spelling (level : Magicness) {rank : Rank} (sketch : Sketch rank) :
    Unmarked (sketch.spelling level) := by
  have closing : Unmarked (level.newer [')']) :=
    unmarked_newer level rfl
  have bracket : Unmarked [']'] := unmarked_of_all rfl
  have alphaNumeric (chars : List AlphaNumeric) :
      Unmarked (chars.map Subtype.val) := by
    apply unmarked_of_forall
    intro char among
    obtain ⟨member, _, rfl⟩ := List.mem_map.1 among
    exact ne_of_isAlphanum member.property (by decide)
  induction sketch with
  | literal char => exact alphaNumeric [char]
  | anyChar => exact unmarked_older level rfl
  | charClass letterClass =>
      apply unmarked_escape
      rcases letterClass with ⟨set, _ | _⟩ <;> cases set <;> rfl
  | collection first others =>
      have opening : Unmarked (level.older '[') :=
        unmarked_older level rfl
      exact (opening.append (alphaNumeric (first :: others))).append bracket
  | group body inside =>
      have opening : Unmarked (level.newer ['(']) :=
        unmarked_newer level rfl
      exact (opening.append inside).append closing
  | cluster body inside =>
      have opening : Unmarked (level.newer ['%', '(']) :=
        unmarked_newer level rfl
      exact (opening.append inside).append closing
  | optional front last before final =>
      have opening : Unmarked (level.newer ['%', '[']) :=
        unmarked_newer level rfl
      exact ((opening.append before).append final).append bracket
  | bare atom core => exact core
  | repeated atom repetition core =>
      exact core.append (unmarked_repetition level repetition)
  | asserted piece assertion core =>
      exact core.append (unmarked_assertion level assertion)
  | empty => exact unmarked_nil
  | snoc pieces piece before final => exact before.append final
  | operand concat core => exact core
  | both operands concat before final =>
      have separator : Unmarked (level.newer ['&']) :=
        unmarked_newer level rfl
      exact (before.append separator).append final
  | single branch core => exact core
  | either alternatives branch before final =>
      have separator : Unmarked (level.newer ['|']) :=
        unmarked_newer level rfl
      exact (before.append separator).append final

/-! ### Whole patterns -/

/-- A printed sketch grows into a tree with its text, and refers to no group. -/
theorem exists_ofScan_print (level : Magicness) (sketch : Sketch .pattern) :
    ∃ grown,
      Tree.ofScan (Scan.ofPattern level (sketch.print level)) = .ok grown ∧
        grown.context.tally.backReference = false ∧
          ∀ style : Style, style.namedGroups = false →
            grown.tree.text style = sketch.text style.options := by
  have start : (Context.start level).magicness = level := rfl
  obtain ⟨tree, after, place, reads⟩ := sketch.readable start rfl 0 []
  have passes := reads.passes
  rw [List.append_nil] at passes
  obtain ⟨tokens, whole⟩ := passes.ofPattern reads.continues.enclosing
  obtain ⟨grown, complete, same, context⟩ :=
    Tree.ofScan_eq_ok whole reads.depicts.kinded tokens
  refine ⟨grown, complete, ?_, ?_⟩
  · rw [context]
    exact reads.continues.backReference
  · intro style unnamed
    rw [reads.depicts.eq_of_unplaced same]
    exact reads.depicts.text_eq unnamed

/-- The translation depends on the settings through the character classes only. -/
theorem texts_congr {first second : Options}
    (same : ∀ letterClass : CharClass,
      letterClass.text first false = letterClass.text second false)
    {rank : Rank} (sketch : Sketch rank) :
    sketch.text first = sketch.text second ∧
      sketch.lookaheads first = sketch.lookaheads second ∧
        sketch.stretches first = sketch.stretches second := by
  induction sketch <;> simp_all [text, lookaheads, stretches]

/-- Whatever the level a sketch is spelled at, converting its text succeeds and
gives its translation. -/
theorem convertText_print (options : Options) (level : Magicness)
    (sketch : Sketch .pattern) :
    convertText { options with magicness := level, ignoreCase := false }
        (sketch.print level) = .ok (sketch.text options) := by
  let settings : Options := { options with magicness := level, ignoreCase := false }
  have classes (letterClass : CharClass) :
      letterClass.text settings false = letterClass.text options false := by
    rcases letterClass with ⟨set, capital⟩
    cases set <;> rfl
  obtain ⟨grown, complete, unreferenced, text⟩ := exists_ofScan_print level sketch
  rw [← (texts_congr classes sketch).1]
  by_cases empty : (sketch.print level).isEmpty
  · have nothing : sketch.print level = "" := by simpa using empty
    rw [nothing] at complete
    have tree : grown.tree = .single (.operand .empty) := by
      cases complete
      rfl
    have blank := text { options := settings } rfl
    rw [tree] at blank
    rw [← blank, nothing]
    rfl
  · have keepsCase : foldsCase settings (sketch.print level) = false := by
      have unmarked := unmarked_spelling level sketch []
      rw [List.append_nil] at unmarked
      rw [foldsCase, print, String.toList_ofList, unmarked]
      rfl
    have unnamed :
        (Metadata.ofTally grown.context.tally grown.dollarEnds).needsNamedGroups =
          false := by
      rw [Metadata.needsNamedGroups, Metadata.ofTally, unreferenced, Bool.false_and]
    have converted :
        convert settings (sketch.print level) =
          .ok (Conversion.ofGrown settings false grown) := by
      simp only [convert, if_neg empty, keepsCase]
      rw [show settings.magicness = level from rfl, complete]
    rw [convertText, converted]
    simp only [Except.map, Conversion.ofGrown, unnamed, withCase, Bool.false_eq_true,
      if_false]
    rw [text _ rfl]

end VimPattern.Sketch
