/-
Module: VimPattern.Proofs.Tree.Heard
Purpose: What a listener hears in a trace that is put together from others.
Main exports:
  copies, Trace.Tells, Trace.Tells.append, Trace.Tells.enclosed, Trace.tells_flatten,
  Trace.tells_separated, Trace.tells_conjunction, Trace.tells_chain,
  Trace.tells_collection
-/
import VimPattern.Proofs.Target.Texts
import VimPattern.Proofs.Tree.Trace

namespace VimPattern

open Target

/-!
Traces are put together side by side, with bars between them, as operands and as
optional sequences.  A listener that is deaf to the marks this takes hears in the
whole what it hears in the parts, in their order; only an optional sequence lets it
hear its earlier pieces more than once.
-/

/-- What the leading stretches of some parts hold together, the longest stretch
first. -/
def copies {α : Type} (parts : List (List α)) : List α :=
  ((leadingStretches parts).map List.flatten).flatten

namespace Trace

variable {Found α : Type} {listener : Listener (Option Token) Found} {mark : α → Found}

/-- The listener hears these things in the trace, whatever follows it. -/
def Tells (listener : Listener (Option Token) Found) (mark : α → Found) (trace : Trace)
    (told : List α) : Prop :=
  Yields listener .outside trace (told.map mark)

theorem tells_nil : Tells listener mark [] [] := yields_nil

theorem Tells.append {front back : Trace} {early late : List α}
    (first : Tells listener mark front early) (second : Tells listener mark back late) :
    Tells listener mark (front ++ back) (early ++ late) := by
  rw [Tells, List.map_append]
  exact Yields.append first second

/-- A silent text tells nothing, whatever it is written for. -/
theorem tells_spell {text : String} (silent : Silent listener .outside text)
    (source : Option Token) : Tells listener mark (spell source text) [] :=
  Silent.spell silent source

/-- The parenthesis that closes is not one that opens. -/
theorem silent_closing : Silent listener .outside ")" :=
  fun _ same others => openings_char (fun _ => by decide) rfl same others

theorem tells_bar : Tells listener mark (glue "|") [] := by
  have silent : Silent listener .outside "|" :=
    fun _ same others => openings_char (fun _ => by decide) rfl same others
  exact tells_spell silent none

/-- Between parentheses of which the first has a mark nothing more is told. -/
theorem Tells.enclosed (deaf : listener.Deaf) {body : Trace} {told : List α}
    (tells : Tells listener mark body told) {opening : String} (among : opening ∈ marks)
    (first last : Option Token) :
    Tells listener mark (spell first opening ++ body ++ spell last ")") told := by
  have front : Tells listener mark (spell first opening) [] :=
    tells_spell (deaf.silent among) first
  have back : Tells listener mark (spell last ")") [] := tells_spell silent_closing last
  have whole := (front.append tells).append back
  rwa [List.nil_append, List.append_nil] at whole

variable {traces : List Trace} {told : List (List α)}

theorem tells_flatten (tells : List.Forall₂ (Tells listener mark) traces told) :
    Tells listener mark traces.flatten told.flatten := by
  induction tells with
  | nil => exact tells_nil
  | cons first _ inductionHypothesis => exact first.append inductionHypothesis

theorem tells_separated (tells : List.Forall₂ (Tells listener mark) traces told) :
    Tells listener mark (separated traces) told.flatten := by
  unfold separated
  induction tells with
  | nil => exact tells_nil
  | @cons trace here traces told first rest inductionHypothesis =>
      cases rest with
      | nil => simpa using first
      | cons second rest =>
          have whole := (first.append tells_bar).append inductionHypothesis
          rwa [List.append_nil, ← List.intercalate_cons_cons] at whole

theorem tells_conjunction (deaf : listener.Deaf)
    (tells : List.Forall₂ (Tells listener mark) traces told) :
    Tells listener mark (conjunction traces) told.flatten := by
  induction tells with
  | nil => exact tells_nil
  | @cons trace here traces told first rest inductionHypothesis =>
      cases rest with
      | nil => simpa [conjunction] using first
      | cons second rest =>
          have among : "(?=" ∈ marks := by simp [marks]
          exact (first.enclosed deaf among none none).append inductionHypothesis

theorem tells_chain (deaf : listener.Deaf)
    (tells : List.Forall₂ (Tells listener mark) traces told) :
    Tells listener mark (chain traces) (copies told) := by
  have stretches :
      List.Forall₂ (Tells listener mark) ((leadingStretches traces).map List.flatten)
        ((leadingStretches told).map List.flatten) := by
    rw [List.forall₂_map_left_iff, List.forall₂_map_right_iff]
    exact (forall₂_leadingStretches tells).imp fun _ _ => tells_flatten
  exact (tells_separated stretches).enclosed deaf (.head _) none none

/-- A collection tells nothing, whichever of its tokens the characters were written
for. -/
theorem tells_collection {deaf : listener.Deaf} {style : Style}
    (accepts : (silence listener deaf).Accepts style.options) {opener closer : Token}
    {opening : Collection.Opening} (opens : opener.lexeme = .collectionOpen opening)
    (closes : closer.lexeme = .collectionClose opening.withBreak) {members : List Token}
    (lexed : ∀ token ∈ members, ∃ member,
      token.lexeme = .member member ∧ (Lexeme.member member).Readable) :
    Tells listener mark
      (opener.trace style ++ members.flatMap (Token.trace style) ++ closer.trace style)
      [] := by
  have silent :=
    Collection.whole_text accepts opening (Token.member_textOf accepts lexed)
  apply silent
  have inside := Tree.text_members style members
  rw [← inside, String.toList_append, String.toList_append, letters_append,
    letters_append, Token.trace, Token.trace, letters_spell, letters_spell, Token.text,
    opens, Token.text, closes, Trace.text, String.toList_ofList]

/-- The wrapper for folded case tells nothing. -/
theorem Tells.withCase (deaf : listener.Deaf) {body : Trace} {told : List α}
    (tells : Tells listener mark body told) (foldCase : Bool) :
    Tells listener mark (Trace.withCase foldCase body) told := by
  unfold Trace.withCase
  split
  · have among : "(?i:" ∈ marks := by simp [marks]
    exact tells.enclosed deaf among none none
  · exact tells

end Trace

end VimPattern
