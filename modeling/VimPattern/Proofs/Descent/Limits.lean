/-
Module: VimPattern.Proofs.Descent.Limits
Purpose: A result that a descent has within a limit is kept where calls may be nested deeper.
Main exports:
  Descent.Within, Descent.Within.bind, Descent.Kept, Descent.kept, Descent.parse_within
-/
import VimPattern.Proofs.Descent.Meets

namespace VimPattern.Descent

/-!
The limit only says how long a descent is followed.  It is never looked at by the descent itself,
which either goes beyond it, and then has no result, or does the same as with any greater limit.
-/

variable {α β : Type}

/-- The second descent has all the results of the first one. -/
def Within (smaller larger : Descent α) : Prop :=
  ∀ parser result, smaller.run parser = some result → larger.run parser = some result

namespace Within

theorem refl (descent : Descent α) : descent.Within descent :=
  fun _ _ => id

theorem trans {smaller middle larger : Descent α} (within : smaller.Within middle)
    (further : middle.Within larger) : smaller.Within larger :=
  fun parser result found => further parser result (within parser result found)

theorem beyond (descent : Descent α) : Descent.beyond.Within descent :=
  fun _ _ found => absurd found (Option.some_ne_none _).symm

/-- One descent after the other keeps its results if both of them do. -/
theorem bind {first later : Descent β} {next after : β → Descent α} (early : first.Within later)
    (late : ∀ value, (next value).Within (after value)) :
    (first >>= next).Within (later >>= after) := by
  intro parser result found
  cases middle : first.run parser with
  | none =>
      change Option.bind (first.run parser) _ = _ at found
      rw [middle] at found
      cases found
  | some outcome =>
      have same := early parser outcome middle
      rcases outcome with ⟨cause | value, state⟩
      · rw [Meets.run_bind_error next middle] at found
        rwa [Meets.run_bind_error after same]
      · rw [Meets.run_bind_ok next middle] at found
        rw [Meets.run_bind_ok after same]
        exact late value state result found

end Within

/-- With this limit, one more nested call changes no result of any function. -/
structure Kept (limit : Nat) : Prop where
  pattern : (pattern limit).Within (pattern (limit + 1))
  branch : (branch limit).Within (branch (limit + 1))
  concat : (concat limit).Within (concat (limit + 1))
  piece : ∀ place, (piece limit place).Within (piece (limit + 1) place)
  atom : ∀ place, (atom limit place).Within (atom (limit + 1) place)
  group : ∀ opener, (group limit opener).Within (group (limit + 1) opener)
  collection : ∀ opener, (collection limit opener).Within (collection (limit + 1) opener)
  optional : ∀ opener, (optional limit opener).Within (optional (limit + 1) opener)
  round : ∀ loop carry, (round limit loop carry).Within (round (limit + 1) loop carry)
  iterate : ∀ loop carry, (iterate limit loop carry).Within (iterate (limit + 1) loop carry)

namespace Kept

open Descent

variable {limit : Nat}

theorem zero : Kept 0 where
  pattern := .beyond _
  branch := .beyond _
  concat := .beyond _
  piece _ := .beyond _
  atom _ := .beyond _
  group _ := .beyond _
  collection _ := .beyond _
  optional _ := .beyond _
  round _ _ := .beyond _
  iterate _ _ := .beyond _

theorem atom_succ (kept : Kept limit) (place : Place) :
    (Descent.atom (limit + 1) place).Within (Descent.atom (limit + 2) place) := by
  rw [Descent.atom, Descent.atom]
  refine .bind (.refl _) fun token => ?_
  cases token.kind with
  | groupOpen => exact kept.group token
  | collectionOpen => exact kept.collection token
  | optionalOpen => exact kept.optional token
  | _ => exact .refl _

theorem round_succ (kept : Kept limit) (loop : Loop) (carry : loop.Carry) :
    (Descent.round (limit + 1) loop carry).Within (Descent.round (limit + 2) loop carry) := by
  cases loop with
  | alternatives =>
      rw [Descent.round, Descent.round]
      exact .bind (.refl _) fun _ => .bind kept.branch fun _ => .refl _
  | operands =>
      rw [Descent.round, Descent.round]
      exact .bind (.refl _) fun _ => .bind kept.concat fun _ => .refl _
  | pieces =>
      obtain ⟨pieces, place⟩ := carry
      rw [Descent.round, Descent.round]
      exact .bind (.refl _) fun _ => .bind (kept.piece place) fun _ => .refl _
  | suffixes => exact .refl _
  | members => exact .refl _
  | sequence =>
      rw [Descent.round, Descent.round]
      exact .bind (kept.piece .inside) fun _ => .refl _

theorem iterate_succ (kept : Kept limit) (loop : Loop) (carry : loop.Carry) :
    (Descent.iterate (limit + 1) loop carry).Within
      (Descent.iterate (limit + 2) loop carry) := by
  rw [Descent.iterate, Descent.iterate]
  refine .bind (.refl _) fun parser => ?_
  by_cases goesOn : loop.goesOn parser.lookahead = true
  · simp only [if_pos goesOn]
    exact .bind (.refl _) fun _ => .bind (kept.round loop carry) fun next =>
      .bind (.refl _) fun _ => .bind (.refl _) fun _ => kept.iterate loop next
  · simp only [if_neg goesOn]
    exact .refl _

theorem succ (kept : Kept limit) : Kept (limit + 1) where
  pattern := by
    rw [Descent.pattern, Descent.pattern]
    exact .bind kept.branch fun _ => kept.iterate _ _
  branch := by
    rw [Descent.branch, Descent.branch]
    exact .bind kept.concat fun _ => kept.iterate _ _
  concat := by
    rw [Descent.concat, Descent.concat]
    exact .bind (kept.iterate _ _) fun _ => .refl _
  piece place := by
    rw [Descent.piece, Descent.piece]
    exact .bind (.refl _) fun _ => .bind (kept.atom place) fun _ =>
      .bind (kept.iterate _ _) fun _ => .refl _
  atom := kept.atom_succ
  group opener := by
    rw [Descent.group, Descent.group]
    exact .bind (.refl _) fun _ => .bind kept.pattern fun _ => .refl _
  collection opener := by
    rw [Descent.collection, Descent.collection]
    exact .bind (kept.iterate _ _) fun _ => .refl _
  optional opener := by
    rw [Descent.optional, Descent.optional]
    exact .bind (kept.iterate _ _) fun _ => .refl _
  round := kept.round_succ
  iterate := kept.iterate_succ

end Kept

/-- Whatever the limit is, a result within it is also one within the next. -/
theorem kept (limit : Nat) : Kept limit := by
  induction limit with
  | zero => exact .zero
  | succ limit inductionHypothesis => exact inductionHypothesis.succ

/-- With a greater limit the descent over a whole pattern has the same result. -/
theorem parse_within {limit greater : Nat} (fewer : limit ≤ greater) :
    (parse limit).Within (parse greater) := by
  induction fewer with
  | refl => exact .refl _
  | @step greater _ inductionHypothesis =>
      refine inductionHypothesis.trans ?_
      rw [parse, parse]
      exact .bind (.refl _) fun _ => .bind (kept greater).pattern fun _ => .refl _

end VimPattern.Descent
