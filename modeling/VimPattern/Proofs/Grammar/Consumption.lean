/-
Module: VimPattern.Proofs.Grammar.Consumption
Purpose: The texts that a piece takes out of a subject, by the texts of its atom.
Main exports:
  Quantifier.times, Times.Allows, Token.consumed, Token.releases, Tree.consumed,
  Tree.Consumes, Tree.consumes_bare, Tree.consumes_quantified_iff, Tree.consumes_asserted_iff
-/
import Mathlib.Computability.Language
import VimPattern.Proofs.Grammar.Lexemes
import VimPattern.Proofs.Spelling.Times

namespace VimPattern

/-!
Take the texts that an atom can match for granted.  A quantifier strings as many of them
together as it allows, and an assertion looks at them without taking them, except for the one
that only keeps the match from being given up.  A piece whose texts all begin with one of its
atom cannot match where the atom does not.
-/

/-- How often a repetition operator repeats. -/
def Quantifier.times : Quantifier → Times
  | .star =>
      { least := 0
        most := none
        lazy := false }
  | .plus =>
      { least := 1
        most := none
        lazy := false }
  | .optional =>
      { least := 0
        most := some 1
        lazy := false }
  | .counted braces => braces.times

/-- This many repetitions are neither too few nor too many. -/
def Times.Allows (times : Times) (count : Nat) : Prop :=
  times.least ≤ count ∧ ∀ most ∈ times.most, count ≤ most

namespace Token

/-- The texts that are consumed with a quantifier or an assertion behind what consumes these. -/
def consumed (token : Token) (texts : Language Char) : Language Char :=
  match token.lexeme with
  | .quantifier quantifier => {text | ∃ count, quantifier.times.Allows count ∧ text ∈ texts ^ count}
  | .assertion .atomic => texts
  | .assertion _ => 1
  | _ => texts

/-- A quantifier that is content with no repetition, or an assertion that only looks. -/
def releases (token : Token) : Bool :=
  match token.lexeme with
  | .quantifier quantifier => quantifier.times.least == 0
  | .assertion assertion => assertion != .atomic
  | _ => false

variable {token : Token} (texts : Language Char)

/-- What releases can be satisfied without consuming anything. -/
theorem nil_mem_consumed (releases : token.releases = true) : [] ∈ token.consumed texts := by
  unfold Token.releases at releases
  unfold consumed
  split at releases
  · next quantifier same =>
      have none : quantifier.times.least = 0 := by simpa using releases
      rw [same]
      refine ⟨0, ⟨Nat.le_of_eq none, fun most _ => Nat.zero_le most⟩, ?_⟩
      rw [pow_zero]
      exact Language.nil_mem_one
  · next assertion same =>
      rw [same]
      cases assertion with
      | atomic => cases releases
      | _ => exact Language.nil_mem_one
  · cases releases

/-- What does not release begins with what it stands behind. -/
theorem exists_prefix_of_consumed (holds : token.releases = false) {text : List Char}
    (member : text ∈ token.consumed texts) : ∃ first ∈ texts, first <+: text := by
  unfold Token.releases at holds
  unfold consumed at member
  cases same : token.lexeme with
  | quantifier quantifier =>
      rw [same] at holds member
      have some : quantifier.times.least ≠ 0 := by simpa using holds
      obtain ⟨count, ⟨least, _⟩, member⟩ := member
      obtain ⟨fewer, rfl⟩ : ∃ fewer, count = fewer + 1 :=
        Nat.exists_eq_succ_of_ne_zero (by omega)
      rw [pow_succ'] at member
      obtain ⟨first, among, rest, _, rfl⟩ := Language.mem_mul.1 member
      exact ⟨first, among, List.prefix_append _ _⟩
  | assertion assertion =>
      rw [same] at holds member
      obtain rfl : assertion = .atomic := by simpa using holds
      exact ⟨text, member, List.prefix_rfl⟩
  | _ =>
      rw [same] at member
      exact ⟨text, member, List.prefix_rfl⟩

end Token

namespace Tree

/-- The texts that a piece consumes where its atom can match these. -/
def consumed (texts : Language Char) : {rank : Rank} → Tree rank → Language Char
  | _, .quantified _ quantifier => quantifier.consumed texts
  | _, .asserted piece assertion => assertion.consumed (piece.consumed texts)
  | _, _ => texts

/-- Whatever its atom can match, the piece consumes a text of it first. -/
def Consumes (piece : Tree .piece) : Prop :=
  ∀ texts, ∀ text ∈ piece.consumed texts, ∃ first ∈ texts, first <+: text

theorem consumes_bare (atom : Tree .atom) : (bare atom).Consumes :=
  fun _ text among => ⟨text, among, List.prefix_rfl⟩

/-- An atom that matches nowhere shows whether a piece can do without it. -/
theorem Consumes.nil_not_mem {piece : Tree .piece} (consumes : piece.Consumes) :
    [] ∉ piece.consumed 0 := by
  intro among
  obtain ⟨first, none, _⟩ := consumes 0 [] among
  exact Language.notMem_zero first none

theorem consumes_quantified_iff {atom : Tree .atom} {quantifier : Token} :
    (quantified atom quantifier).Consumes ↔ quantifier.releases = false := by
  constructor
  · intro consumes
    rw [Bool.eq_false_iff]
    exact fun releases => consumes.nil_not_mem (Token.nil_mem_consumed 0 releases)
  · exact fun holds texts _ => Token.exists_prefix_of_consumed texts holds

theorem consumes_asserted_iff {piece : Tree .piece} {assertion : Token}
    (kind : assertion.kind = .assertion) :
    (asserted piece assertion).Consumes ↔ piece.Consumes ∧ assertion.releases = false := by
  obtain ⟨sort, same⟩ := Lexeme.eq_assertion kind
  constructor
  · intro consumes
    have holds : assertion.releases = false := by
      rw [Bool.eq_false_iff]
      exact fun releases => consumes.nil_not_mem (Token.nil_mem_consumed _ releases)
    refine ⟨?_, holds⟩
    obtain rfl : sort = .atomic := by simpa [Token.releases, same] using holds
    intro texts
    have whole := consumes texts
    rwa [consumed, Token.consumed, same] at whole
  · rintro ⟨consumes, holds⟩ texts
    obtain rfl : sort = .atomic := by simpa [Token.releases, same] using holds
    rw [consumed, Token.consumed, same]
    exact consumes texts

end Tree

end VimPattern
