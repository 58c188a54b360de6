/-
Module: VimPattern.Proofs.Scan.Pairs
Purpose: The search for a case marker comes by the boundaries between items.
Main exports:
  Paired, Context.SpellsOutside.paired, Collection.Spells.parts, Scan.Reaches.pairing,
  Scan.Reaches.paired
-/
import VimPattern.Proofs.Scan.Cuts
import VimPattern.Proofs.Scan.Markers

namespace VimPattern

open Sketch

/-!
The search for a case marker goes through a pattern in steps of its own: a backslash and the
character behind it are one step, whatever the rules make of them.  In a collection the rules
may read a backslash as an item, and the search is in the middle of a step behind it.  The
next item brings it back, since its first character is no backslash and completes the step.
So the search comes by every boundary outside collections, unless the name of a mark is a
backslash.
-/

/-- If the search finds nothing in the text it goes on with what follows. -/
def Paired (text : List Char) : Prop :=
  ∀ rest, caseMarker? (text ++ rest) = (caseMarker? text).or (caseMarker? rest)

theorem paired_nil : Paired [] := fun _ => rfl

theorem Paired.append {front back : List Char} (early : Paired front) (late : Paired back) :
    Paired (front ++ back) := by
  intro rest
  rw [List.append_assoc, early, late, early back, Option.or_assoc]

theorem Sketch.Unmarked.paired {text : List Char} (unmarked : Unmarked text) : Paired text := by
  intro rest
  have alone := unmarked []
  rw [List.append_nil] at alone
  rw [unmarked rest, alone]
  rfl

/-- A backslash takes the next character with it. -/
theorem paired_pair (char : Char) : Paired ['\\', char] := by
  by_cases small : char = 'c'
  · subst small
    exact fun _ => rfl
  · by_cases capital : char = 'C'
    · subst capital
      exact fun _ => rfl
    · exact (unmarked_pair small capital).paired

/-! ### Items -/

theorem Content.Shows.paired {content : Content} {raw : List Char} (shows : content.Shows raw)
    (position : content = .mark .editorPosition → Unmarked raw) : Paired raw := by
  cases content with
  | lexeme lexeme => exact Unmarked.paired shows
  | mark mark =>
      cases mark with
      | caseMarker fold =>
          obtain rfl : raw = _ := shows
          exact paired_pair _
      | editorPosition => exact (position rfl).paired
      | _ => exact Unmarked.paired shows

/-- The search comes out at the end of an item that names no mark. -/
theorem Context.SpellsOutside.paired {context : Context} {raw : List Char} {content : Content}
    (spells : context.SpellsOutside raw content)
    (unnamed : ∀ waiting ∈ markPrefixes, ¬waiting <+: raw) : Paired raw := by
  apply spells.shows.paired
  rintro rfl
  cases spells with
  | operator active means => cases means
  | editorPosition read =>
      have percent : Unmarked ['\\', '%'] := unmarked_escape rfl
      rcases unmarked_editorPosition read with unmarked | ⟨_, waiting, among, named⟩
      · exact percent.append unmarked
      · exact absurd named (unnamed waiting among)

/-- A number begins with a letter that makes no marker with a backslash. -/
theorem CodePoint.exists_letter {text : List Char} {found : Option Char} {taken : Nat}
    (read : CodePoint.read? text = some (found, taken)) :
    ∃ letter more, text.take taken = letter :: more ∧ isUnmarking letter := by
  cases text with
  | nil => cases read
  | cons letter text =>
      rw [read?] at read
      split at read
      · next codeNotation announced =>
          dsimp only at read
          split at read <;> cases read
          refine ⟨letter, _, rfl, ?_⟩
          unfold CodeNotation.ofLetter? at announced
          split at announced
          case h_6 => cases announced
          all_goals rfl
      · cases read

theorem Verdict.unmarked_className? {text name : List Char}
    (read : className? text = some name) : Unmarked (text.take (name.length + 3)) := by
  have lower : Char.isLower '\\' = false := rfl
  unfold className? at read
  split at read
  · next text =>
      dsimp only at read
      split at read
      · next closing =>
          split at read <;> cases read
          have colon : Unmarked [':'] := unmarked_singleton (by decide)
          refine colon.append (unmarked_span lower ?_)
          rw [closing]
          exact @unmarked_of_all [':', ']'] rfl
      · cases read
  · cases read

/-- Inside a collection an item is a backslash alone, or the search comes out at its end,
whether its first character has been taken before or not. -/
theorem Collection.Spells.parts {withBreak : Bool} {raw : List Char} {content : Content}
    (spells : Collection.Spells withBreak raw content) :
    raw = ['\\'] ∨ (∃ more, raw = '\\' :: more ∧ Paired raw) ∨
      ∃ first more, raw = first :: more ∧ first ≠ '\\' ∧ Paired more := by
  cases spells with
  | backslash => exact .inl rfl
  | escaped known => exact .inr (.inl ⟨_, rfl, paired_pair _⟩)
  | codePoint percent read =>
      refine .inr (.inl ⟨_, rfl, Unmarked.paired ?_⟩)
      have number := CodePoint.unmarked_read? read
      cases percent with
      | true => exact (@unmarked_escape '%' rfl).append number
      | false =>
          obtain ⟨letter, more, taken, free⟩ := CodePoint.exists_letter read
          rw [taken] at number ⊢
          intro rest
          refine (caseMarker?_backslash ?_).trans (number rest)
          rintro _ ⟨⟩
          exact free
  | closing => exact .inr (.inr ⟨_, _, rfl, by decide, paired_nil⟩)
  | plain notBackslash notClosing => exact .inr (.inr ⟨_, _, rfl, notBackslash, paired_nil⟩)
  | dashPair =>
      exact .inr (.inr ⟨_, _, rfl, by decide, (unmarked_singleton (by decide)).paired⟩)
  | named read found =>
      exact .inr (.inr ⟨_, _, rfl, by decide, (Verdict.unmarked_className? read).paired⟩)
  | @equivalent opening char closing notClosing brackets =>
      refine .inr (.inr ⟨_, _, rfl, by decide, ?_⟩)
      have sign {char : Char} (among : char ∈ ['=', '.']) : Unmarked [char] := by
        apply unmarked_singleton
        rintro rfl
        simp at among
      have middle : Paired [char, closing] := by
        by_cases backslash : char = '\\'
        · subst backslash
          exact paired_pair closing
        · exact ((unmarked_singleton backslash).append (sign brackets.2)).paired
      have bracket : Unmarked [']'] := unmarked_singleton (by decide)
      exact ((sign brackets.1).paired.append middle).append bracket.paired

/-! ### Places -/

/-- How the search stands at a place between two items: it comes by there, or a collection is
open and it has taken a backslash. -/
inductive Scan.Pairing (context : Context) (front rest : List Char) : Prop
  | paired (paired : Paired front)
  | pending {early : List Char} (paired : Paired early) (taken : front = early ++ ['\\'])
      (inside : context.collection?.isSome) (next : rest.head? ≠ some '\\')

/-- Behind a backslash that is an item alone there is no second one, which would have belonged
to the item. -/
theorem Verdict.head?_of_backslash {text : List Char} {content : Content} {extra : Nat}
    (verdict : backslashMember text = .item content extra) (alone : text.take extra = []) :
    (text.drop extra).head? ≠ some '\\' := by
  intro starts
  cases extra with
  | succ more =>
      obtain rfl : text = [] := by simpa using alone
      cases starts
  | zero =>
      obtain ⟨others, rfl⟩ := List.head?_eq_some_iff.1 starts
      have pair : backslashMember ('\\' :: others) = member (.escaped '\\') 1 := rfl
      rw [pair] at verdict
      cases verdict

namespace Scan

section

variable {context : Context} {front text : List Char} {char : Char}

/-- The search has taken no backslash in front of another one. -/
theorem Pairing.of_backslash (pairing : Pairing context front ('\\' :: text)) : Paired front := by
  cases pairing with
  | paired paired => exact paired
  | pending _ _ _ next => exact absurd rfl next

/-- A character that is no backslash brings the search back. -/
theorem Pairing.behind (pairing : Pairing context front text) (bare : char ≠ '\\') :
    Paired (front ++ [char]) := by
  cases pairing with
  | paired paired => exact paired.append (unmarked_singleton bare).paired
  | pending paired taken =>
      rw [taken, List.append_assoc]
      exact paired.append (paired_pair char)

/-- The search goes on along an item that names no mark. -/
theorem Pairing.item {content : Content} {extra : Nat}
    (pairing : Pairing context front (char :: text))
    (verdict : context.verdict char text = .item content extra)
    (unnamed : ∀ waiting ∈ markPrefixes, ¬waiting <+: char :: text.take extra)
    (raw : String) (position : Nat) :
    Pairing (contextAfter context content raw position) (front ++ char :: text.take extra)
      (text.drop extra) := by
  cases Context.spells_of_verdict verdict with
  | outside outside spells =>
      cases pairing with
      | paired paired => exact .paired (paired.append (spells.paired unnamed))
      | pending _ _ inside =>
          rw [outside] at inside
          cases inside
  | @inside withBreak inside spells =>
      rcases spells.parts with single | ⟨more, same, paired⟩ | ⟨first, more, same, bare, paired⟩
      · obtain ⟨rfl, alone⟩ := List.cons.inj single
        have spelled := Context.spells_of_verdict verdict
        rw [single] at spelled ⊢
        obtain ⟨within, member, rfl⟩ := spelled.of_backslash
        rw [Context.verdict_inside inside] at verdict
        exact .pending pairing.of_backslash rfl within (Verdict.head?_of_backslash verdict alone)
      · obtain ⟨rfl, _⟩ := List.cons.inj same
        exact .paired (pairing.of_backslash.append paired)
      · obtain ⟨rfl, rest⟩ := List.cons.inj same
        rw [rest, List.append_cons]
        exact .paired ((pairing.behind bare).append paired)

end

variable {level : Magicness} {pattern : String} {items : List Item} {context : Context}
  {position : Nat} {rest : List Char}

/-- At every place of a pattern that names no mark the search is by there, or has taken the
backslash in front. -/
theorem Reaches.pairing (reaches : Reaches level pattern items context position rest)
    (unnamed : ∀ waiting ∈ markPrefixes, ¬waiting <:+: pattern.toList) :
    ∃ front, front ++ rest = pattern.toList ∧ Pairing context front rest := by
  induction reaches with
  | start => exact ⟨[], rfl, .paired paired_nil⟩
  | @item items context position char text content extra before verdict inductionHypothesis =>
      obtain ⟨front, whole, pairing⟩ := inductionHypothesis
      have parts : (front ++ char :: text.take extra) ++ text.drop extra = pattern.toList := by
        rw [← whole, List.append_assoc, List.cons_append, List.take_append_drop]
      refine ⟨_, parts, pairing.item verdict ?_ _ _⟩
      intro waiting among named
      apply unnamed waiting among
      rw [← parts]
      exact named.isInfix.trans ⟨front, text.drop extra, rfl⟩

/-- Outside collections the search comes by the boundary between two items. -/
theorem Reaches.paired {front : List Char}
    (reaches : Reaches level (String.ofList (front ++ rest)) items context position rest)
    (unnamed : ∀ waiting ∈ markPrefixes, ¬waiting <:+: front ++ rest)
    (outside : context.collection? = none) : Paired front := by
  rw [← String.toList_ofList (l := front ++ rest)] at unnamed
  obtain ⟨passed, whole, pairing⟩ := reaches.pairing unnamed
  rw [String.toList_ofList] at whole
  obtain rfl := List.append_cancel_right whole
  cases pairing with
  | paired paired => exact paired
  | pending _ _ inside =>
      rw [outside] at inside
      cases inside

end Scan

end VimPattern
