/-
Module: VimPattern.Scan.Tiling
Purpose: The items of a scan tile the part of the pattern that was read.
Main exports:
  Scan.byteLength, Scan.readFrom_passed, Scan.readFrom_item, Scan.Leaves,
  Scan.covered_readFrom
-/
import VimPattern.Scan.Basic

namespace VimPattern.Scan

/-!
Reading passes over the characters of an item one by one, so the first lemma
says that this is the same as going on behind them.  The second group compares
the texts of the items with the pattern: they are a beginning of it, and what
follows them is exactly what the ending of the scan says.
-/

/-- The number of bytes that characters take. -/
def byteLength : List Char → Nat
  | [] => 0
  | char :: text => char.utf8Size + byteLength text

@[simp] theorem byteLength_nil : byteLength [] = 0 := rfl

@[simp] theorem byteLength_cons (char : Char) (text : List Char) :
    byteLength (char :: text) = char.utf8Size + byteLength text := rfl

@[simp] theorem byteLength_append (front back : List Char) :
    byteLength (front ++ back) = byteLength front + byteLength back := by
  induction front with
  | nil => simp
  | cons char front inductionHypothesis =>
      simp [inductionHypothesis, Nat.add_assoc]

/-- Passing over characters is going on behind them. -/
theorem readFrom_passed (context : Context) (position passed : Nat)
    (text : List Char) :
    readFrom context position passed text =
      readFrom context (position + byteLength (text.take passed)) 0
        (text.drop passed) := by
  induction text generalizing position passed with
  | nil => cases passed <;> simp [readFrom]
  | cons char text inductionHypothesis =>
      cases passed with
      | zero => simp
      | succ more =>
          simp only [readFrom, List.take_succ_cons, List.drop_succ_cons,
            byteLength_cons]
          rw [inductionHypothesis, Nat.add_assoc]

/-- The scan of a text that starts with a complete item goes on behind it. -/
theorem readFrom_item {context : Context} {char : Char} {text : List Char}
    {content : Content} {extra : Nat}
    (verdict : context.verdict char text = .item content extra)
    (position : Nat) :
    let raw := String.ofList (char :: text.take extra)
    let after := contextAfter context content raw position
    readFrom context position 0 (char :: text) =
      (readFrom after (position + byteLength (char :: text.take extra)) 0
        (text.drop extra)).cons
        { content := content
          raw := raw
          position := position
          magicness := after.magicness } := by
  intro raw after
  rw [readFrom, verdict]
  dsimp only
  rw [readFrom_passed, byteLength_cons, Nat.add_assoc]

/-- A scan with this ending leaves this much of the text unread.  An item that
cannot be used may leave anything. -/
def Leaves (leftover : List Char) : Ending → Prop
  | .finished _ | .unterminated _ => leftover = []
  | .noRule _ rest => leftover = rest.toList ∧ leftover ≠ []
  | .fault _ _ _ => True

theorem leaves_endingOf (context : Context) (position : Nat) :
    Leaves [] (endingOf context position) := by
  unfold endingOf
  split <;> exact rfl

/-- The texts of the items, and then what the ending leaves, are the text that
was to be read. -/
theorem covered_readFrom (context : Context) (position passed : Nat)
    (text : List Char) :
    ∃ leftover,
      (readFrom context position passed text).covered.toList ++ leftover =
          text.drop passed ∧
        Leaves leftover (readFrom context position passed text).ending := by
  induction text generalizing context position passed with
  | nil =>
      refine ⟨[], ?_, ?_⟩
      · simp [readFrom, covered]
      · rw [readFrom]
        exact leaves_endingOf context position
  | cons char text inductionHypothesis =>
      cases passed with
      | succ more =>
          simpa [readFrom] using inductionHypothesis context _ more
      | zero =>
          rw [readFrom]
          cases verdict : context.verdict char text with
          | item content extra =>
              obtain ⟨leftover, tiles, leaves⟩ :=
                inductionHypothesis
                  (contextAfter context content
                    (String.ofList (char :: text.take extra)) position)
                  (position + char.utf8Size) extra
              refine ⟨leftover, ?_, leaves⟩
              simp only [covered, cons, List.map_cons, String.join_cons,
                String.toList_append, String.toList_ofList, List.cons_append,
                List.append_assoc, List.drop_zero]
              rw [← covered, tiles, List.take_append_drop]
          | fault fault extra =>
              exact ⟨char :: text, by simp [covered], trivial⟩
          | noRule =>
              exact ⟨char :: text, by simp [covered], by simp [Leaves]⟩

end VimPattern.Scan
