/-
Module: VimPattern.Proofs.Spelling.Times
Purpose: How often a counted repetition repeats, in a pattern and in the target.
Main exports:
  Times, Times.Ordered, Braces.times, Target.times?, Braces.Comparable,
  Braces.exists_times?_text, times_quantifierText_iff, times_quantifierText_overlong
-/
import VimPattern.Proofs.Failure.Checked
import VimPattern.Proofs.Spelling.Written

namespace VimPattern

/-!
In a pattern the bounds of a repetition may come in either order and both may be missing.  The
target takes the first one for the lower one and does not allow it to be missing.  So the text
of a repetition has to settle which bound is which, and it does so by comparing two numbers of
64 bits.  As long as the first bound fits into them, or comes first rightly, the target repeats
as often as the pattern says, however many digits the bounds have.
-/

/-- How often something is repeated. -/
structure Times where
  least : Nat
  /-- There may be no limit. -/
  most : Option Nat
  /-- Fewer repetitions are tried before more of them. -/
  lazy : Bool
deriving Repr, DecidableEq

/-- There is a number that is neither too small nor too large. -/
def Times.Ordered (times : Times) : Prop :=
  ∀ most ∈ times.most, times.least ≤ most

/-- The number that decimal digits stand for; no digits stand for zero. -/
def decimal (digits : List Char) : Nat :=
  Nat.ofDigitChars 10 digits 0

/-- The times that a pattern asks for.  A single bound is both, and of two bounds the smaller
one is the lower one. -/
def Braces.times (braces : Braces) : Times :=
  let low := decimal braces.low
  let high := decimal braces.high
  let bounds : Nat × Option Nat :=
    match braces.hasComma, braces.low, braces.high with
    | false, [], _ => (0, none)
    | false, _, _ => (low, some low)
    | true, _, [] => (low, none)
    | true, _, _ => (min low high, some (max low high))
  { least := bounds.1
    most := bounds.2
    lazy := braces.lazy }

/-- With a comma the upper bound may be missing, and otherwise the smaller one comes first. -/
theorem Braces.times_of_hasComma {braces : Braces} (hasComma : braces.hasComma = true) :
    braces.times =
      { least :=
          if braces.high = [] then decimal braces.low
          else min (decimal braces.low) (decimal braces.high)
        most :=
          if braces.high = [] then none
          else some (max (decimal braces.low) (decimal braces.high))
        lazy := braces.lazy } := by
  rcases braces with ⟨lazy, low, _, _ | ⟨digit, high⟩⟩ <;> cases hasComma <;> rfl

/-- Whichever bound comes first, the times that a pattern asks for are in order. -/
theorem Braces.ordered_times (braces : Braces) : braces.times.Ordered := by
  rcases braces with ⟨lazy, low, _ | _, high⟩
  · cases low with
    | nil => nofun
    | cons digit low =>
        rintro _ ⟨⟩
        exact Nat.le_refl _
  · cases high with
    | nil => nofun
    | cons digit high =>
        rintro _ ⟨⟩
        exact Nat.le_trans (Nat.min_le_left _ _) (Nat.le_max_left _ _)

/-! ### Quantifiers of the target -/

namespace Target

/-- Whether the quantifier is lazy that has this text behind it. -/
def lazy? : List Char → Option Bool
  | [] => some false
  | ['?'] => some true
  | _ => none

/-- The upper bound and the laziness that a text behind the lower bound says. -/
def upper? (low : Nat) : List Char → Option (Option Nat × Bool)
  | '\x7d' :: rest => (lazy? rest).map (some low, ·)
  | ',' :: text =>
      let high := text.takeWhile Char.isDigit
      match text.dropWhile Char.isDigit with
      | '\x7d' :: rest =>
          (lazy? rest).map (if high.isEmpty then none else some (decimal high), ·)
      | _ => none
  | _ => none

/-- The times that a quantifier of the target asks for: a star, or braces with a lower bound
and perhaps an upper one.  A question mark behind it makes it lazy. -/
def times? : List Char → Option Times
  | '*' :: rest =>
      (lazy? rest).map fun lazy =>
        { least := 0
          most := none
          lazy := lazy }
  | '\x7b' :: text =>
      let low := text.takeWhile Char.isDigit
      if low.isEmpty then none
      else
        (upper? (decimal low) (text.dropWhile Char.isDigit)).map fun (most, lazy) =>
          { least := decimal low
            most := most
            lazy := lazy }
  | _ => none

/-- The mark of laziness is read back. -/
theorem lazy?_mark (lazy : Bool) : lazy? (if lazy then ['?'] else []) = some lazy := by
  cases lazy <;> rfl

/-- Braces are read from the digits of the lower bound on. -/
theorem times?_braces {low : List Char} (digits : ∀ digit ∈ low, digit.isDigit)
    (written : low ≠ []) {stop : Char} (stops : stop.isDigit = false) (rest : List Char) :
    times? ('\x7b' :: (low ++ stop :: rest)) =
      (upper? (decimal low) (stop :: rest)).map fun (most, lazy) =>
        { least := decimal low
          most := most
          lazy := lazy } := by
  obtain ⟨taken, left⟩ := Braces.takeWhile_digits digits stops rest
  rw [times?, taken, left, if_neg (by simpa using written)]

/-- A single bound is both bounds. -/
theorem times?_single {low : List Char} (digits : ∀ digit ∈ low, digit.isDigit)
    (written : low ≠ []) (lazy : Bool) :
    times? ('\x7b' :: (low ++ '\x7d' :: if lazy then ['?'] else [])) =
      some { least := decimal low, most := some (decimal low), lazy := lazy } := by
  rw [times?_braces digits written (by decide), upper?, lazy?_mark]
  rfl

/-- Of two bounds the first one is the lower one, and the other one may be missing. -/
theorem times?_pair {low high : List Char} (digitsLow : ∀ digit ∈ low, digit.isDigit)
    (written : low ≠ []) (digitsHigh : ∀ digit ∈ high, digit.isDigit) (lazy : Bool) :
    times? ('\x7b' :: (low ++ ',' :: (high ++ '\x7d' :: if lazy then ['?'] else []))) =
      some
        { least := decimal low
          most := if high.isEmpty then none else some (decimal high)
          lazy := lazy } := by
  obtain ⟨taken, left⟩ :=
    Braces.takeWhile_digits digitsHigh (by decide : '\x7d'.isDigit = false)
      (if lazy then ['?'] else [])
  have mark := lazy?_mark lazy
  rw [times?_braces digitsLow written (by decide), upper?, taken, left]
  simp only [mark, Option.map_some]

end Target

/-! ### Texts -/

namespace Braces

/-- If two bounds are written in the wrong order, they fit into 64 bits. -/
def Comparable (braces : Braces) : Prop :=
  braces.high ≠ [] → decimal braces.high < decimal braces.low → decimal braces.low < UInt64.size

/-- A bound is known if it is written and fits into 64 bits. -/
theorem bound?_eq {digits : List Char} (digital : ∀ digit ∈ digits, digit.isDigit)
    (written : digits ≠ []) :
    bound? digits = if decimal digits < UInt64.size then some (decimal digits) else none := by
  rw [bound?, if_neg (by simpa using written), Digits.number_eq_ofDigitChars digital]
  rfl

theorem decimal_toString (value : Nat) : decimal (toString value).toList = value :=
  ofDigitChars_toString value

/-- The lower bound that is emitted is never missing, and it is the one that is meant. -/
theorem Digital.emittedLow {braces : Braces} (digital : braces.Digital) :
    braces.emittedLow ≠ [] ∧ (∀ digit ∈ braces.emittedLow, digit.isDigit) ∧
      decimal braces.emittedLow = decimal braces.low := by
  unfold Braces.emittedLow
  split
  · next missing =>
      rw [List.isEmpty_iff.1 missing]
      exact ⟨List.cons_ne_nil _ _, List.forall_mem_singleton.2 rfl, rfl⟩
  · next written => exact ⟨by simpa using written, digital.low, rfl⟩

/-- Two bounds in the wrong order are exchanged if they fit into 64 bits. -/
theorem intervalText_exchanged {braces : Braces} (digital : braces.Digital)
    (hasComma : braces.hasComma = true) (written : braces.high ≠ [])
    (reversed : decimal braces.high < decimal braces.low)
    (small : decimal braces.low < UInt64.size) :
    braces.intervalText =
      enclosed (toString (decimal braces.high) ++ "," ++ toString (decimal braces.low)) := by
  obtain ⟨emitted, digits, same⟩ := digital.emittedLow
  have lower : bound? braces.emittedLow = some (decimal braces.low) := by
    rw [bound?_eq digits emitted, same, if_pos small]
  have upper : bound? braces.high = some (decimal braces.high) := by
    rw [bound?_eq digital.high written, if_pos (Nat.lt_trans reversed small)]
  rw [intervalText_eq hasComma, lower, upper]
  exact if_pos reversed

/-- All other bounds with a comma between them are kept. -/
theorem intervalText_kept {braces : Braces} (digital : braces.Digital)
    (hasComma : braces.hasComma = true)
    (kept : braces.high ≠ [] → decimal braces.high < decimal braces.low →
      UInt64.size ≤ decimal braces.low) :
    braces.intervalText =
      enclosed (String.ofList braces.emittedLow ++ "," ++ String.ofList braces.high) := by
  obtain ⟨emitted, digits, same⟩ := digital.emittedLow
  apply intervalText_of_ordered hasComma
  intro lower upper lowBound highBound
  have written : braces.high ≠ [] := by
    intro missing
    rw [missing] at highBound
    cases highBound
  rw [bound?_eq digits emitted, same, Option.ite_none_right_eq_some] at lowBound
  rw [bound?_eq digital.high written, Option.ite_none_right_eq_some] at highBound
  obtain ⟨small, ⟨⟩⟩ := lowBound
  obtain ⟨_, ⟨⟩⟩ := highBound
  exact Nat.not_lt.1 fun reversed => Nat.not_le.2 small (kept written reversed)

/-- The text in braces with the mark of laziness behind it. -/
theorem toList_text {braces : Braces} {interval : String}
    (same : braces.intervalText = enclosed interval) :
    braces.text.toList =
      '\x7b' :: (interval.toList ++ '\x7d' :: if braces.lazy then ['?'] else []) := by
  rw [text, same, enclosed]
  cases braces.lazy <;> simp

/-- Without a comma the target reads the single bound, or that there is none. -/
theorem times?_text_of_single {braces : Braces} (digital : braces.Digital)
    (noComma : braces.hasComma = false) :
    Target.times? braces.text.toList = some braces.times := by
  rcases braces with ⟨lazy, _ | ⟨digit, low⟩, _, high⟩ <;> cases noComma
  · have star : text ⟨lazy, [], false, high⟩ = "*" ++ if lazy then "?" else "" := rfl
    rw [star]
    cases lazy <;> rfl
  · have same : intervalText ⟨lazy, digit :: low, false, high⟩ =
        enclosed (String.ofList (digit :: low)) := rfl
    rw [toList_text same, String.toList_ofList]
    exact Target.times?_single digital.low (List.cons_ne_nil _ _) lazy

/-- Bounds that are kept are read one after the other. -/
theorem times?_text_of_kept {braces : Braces} (digital : braces.Digital)
    (hasComma : braces.hasComma = true)
    (kept : braces.high ≠ [] → decimal braces.high < decimal braces.low →
      UInt64.size ≤ decimal braces.low) :
    Target.times? braces.text.toList =
      some
        { least := decimal braces.low
          most := if braces.high.isEmpty then none else some (decimal braces.high)
          lazy := braces.lazy } := by
  obtain ⟨emitted, digits, same⟩ := digital.emittedLow
  have text := toList_text (intervalText_kept digital hasComma kept)
  have bounds :
      (String.ofList braces.emittedLow ++ "," ++ String.ofList braces.high).toList =
        braces.emittedLow ++ ',' :: braces.high := by
    simp
  rw [bounds, List.append_assoc, List.cons_append] at text
  rw [text, Target.times?_pair digits emitted digital.high, same]

/-- Bounds that are exchanged are read as they are meant. -/
theorem times?_text_of_exchanged {braces : Braces} (digital : braces.Digital)
    (hasComma : braces.hasComma = true) (written : braces.high ≠ [])
    (reversed : decimal braces.high < decimal braces.low)
    (small : decimal braces.low < UInt64.size) :
    Target.times? braces.text.toList =
      some
        { least := decimal braces.high
          most := some (decimal braces.low)
          lazy := braces.lazy } := by
  have text := toList_text (intervalText_exchanged digital hasComma written reversed small)
  have bounds :
      (toString (decimal braces.high) ++ "," ++ toString (decimal braces.low)).toList =
        (toString (decimal braces.high)).toList ++
          ',' :: (toString (decimal braces.low)).toList := by
    simp
  rw [bounds, List.append_assoc, List.cons_append] at text
  rw [text, Target.times?_pair (fun _ => isDigit_of_mem_toString) (toList_toString_ne_nil _)
    (fun _ => isDigit_of_mem_toString), decimal_toString, decimal_toString, if_neg]
  simp

/-- If the bounds are comparable, the target repeats as often as the pattern asks. -/
theorem times?_text_of_comparable {braces : Braces} (digital : braces.Digital)
    (comparable : braces.Comparable) :
    Target.times? braces.text.toList = some braces.times := by
  cases hasComma : braces.hasComma with
  | false => exact times?_text_of_single digital hasComma
  | true =>
      have bounds := times_of_hasComma hasComma
      by_cases reversed : braces.high ≠ [] ∧ decimal braces.high < decimal braces.low
      · obtain ⟨written, less⟩ := reversed
        rw [times?_text_of_exchanged digital hasComma written less (comparable written less),
          bounds, if_neg (by simpa using written), Nat.min_eq_right (Nat.le_of_lt less),
          Nat.max_eq_left (Nat.le_of_lt less), if_neg written]
      · rw [times?_text_of_kept digital hasComma fun written less =>
          absurd ⟨written, less⟩ reversed, bounds]
        by_cases written : braces.high = []
        · simp [written]
        · have ordered : decimal braces.low ≤ decimal braces.high := by
            simpa [written] using reversed
          simp [written, ordered]

/-- The target can read the text of every counted repetition.  It takes from it a lower and an
upper bound in order exactly if the bounds are comparable, and exactly then it repeats as often
as the pattern asks. -/
theorem exists_times?_text {braces : Braces} (digital : braces.Digital)
    (settled : braces.hasComma = false → braces.high = []) :
    ∃ times, Target.times? braces.text.toList = some times ∧
      (times.Ordered ↔ braces.Comparable) ∧ (times = braces.times ↔ braces.Comparable) := by
  by_cases comparable : braces.Comparable
  · exact ⟨braces.times, times?_text_of_comparable digital comparable,
      iff_of_true braces.ordered_times comparable, iff_of_true rfl comparable⟩
  · -- The bounds are written, and the first one is the larger one and overlong.
    obtain ⟨written, reversed, overlong⟩ :
        braces.high ≠ [] ∧ decimal braces.high < decimal braces.low ∧
          UInt64.size ≤ decimal braces.low := by
      simpa [Comparable] using comparable
    have hasComma : braces.hasComma = true := by
      rw [← Bool.not_eq_false]
      exact fun noComma => written (settled noComma)
    let kept : Times :=
      { least := decimal braces.low
        most := some (decimal braces.high)
        lazy := braces.lazy }
    have read : Target.times? braces.text.toList = some kept := by
      rw [times?_text_of_kept digital hasComma fun _ _ => overlong,
        if_neg (by simpa using written)]
    have disordered : ¬kept.Ordered := fun ordered => Nat.not_le.2 reversed (ordered _ rfl)
    have differs : kept ≠ braces.times := by
      intro same
      rw [same] at disordered
      exact disordered braces.ordered_times
    exact ⟨kept, read, iff_of_false disordered comparable, iff_of_false differs comparable⟩

end Braces

/-! ### Counted repetitions as text -/

/-- Every text of the form of a counted repetition is accepted, with any digits for its bounds
and all of them in the first one if there is no comma.  What comes of it can be read as a
quantifier of the target.  Its bounds are in order exactly if those of the text are comparable,
and exactly then it asks for the same times as the text, as lazily. -/
theorem times_quantifierText_iff {braces : Braces} (digital : braces.Digital)
    (settled : braces.hasComma = false → braces.high = []) (escaped closingEscape : Bool) :
    ∃ native times,
      quantifierText
          (String.ofList
            ((if escaped then ['\\'] else []) ++ '\x7b' :: braces.body closingEscape)) =
        .ok native ∧
      Target.times? native.toList = some times ∧
        (times.Ordered ↔ braces.Comparable) ∧ (times = braces.times ↔ braces.Comparable) := by
  obtain ⟨times, read, ordered, same⟩ := Braces.exists_times?_text digital settled
  refine ⟨braces.text, times, ?_, read, ordered, same⟩
  rw [quantifierText, String.toList_ofList,
    Braces.ofText?_written digital settled escaped closingEscape]

/-- Bounds in the wrong order are exchanged, leading zeros do not count, and the minus sign
makes the repetition lazy. -/
theorem times_quantifierText_exchanged :
    let braces : Braces :=
      { lazy := true
        low := ['0', '0', '5']
        hasComma := true
        high := ['2'] }
    (braces.Digital ∧ (braces.hasComma = false → braces.high = [])) ∧
      quantifierText "\\\x7b-005,2\\\x7d" = .ok "\x7b2,5\x7d?" ∧
        Target.times? "\x7b2,5\x7d?".toList = some braces.times ∧ braces.times.Ordered := by
  intro braces
  have digital : braces.Digital := ⟨List.all_eq_true.1 rfl, List.all_eq_true.1 rfl⟩
  have settled : braces.hasComma = false → braces.high = [] := nofun
  have comparable : braces.Comparable := fun _ _ => by decide
  obtain ⟨native, times, text, read, ordered, same⟩ :=
    times_quantifierText_iff digital settled true true
  have exchanged : quantifierText "\\\x7b-005,2\\\x7d" = .ok "\x7b2,5\x7d?" := rfl
  cases text.symm.trans exchanged
  rw [same.2 comparable] at read ordered
  exact ⟨⟨digital, settled⟩, exchanged, read, ordered.2 comparable⟩

/-- Bounds in the wrong order are kept if the first one is too large for 64 bits, so that the
target is given more repetitions at the least than at the most. -/
theorem times_quantifierText_overlong :
    let braces : Braces :=
      { lazy := false
        low := "18446744073709551616".toList
        hasComma := true
        high := ['1'] }
    let kept : Times :=
      { least := UInt64.size
        most := some 1
        lazy := false }
    (braces.Digital ∧ Braces.ofText? "\\\x7b18446744073709551616,1\x7d".toList = some braces) ∧
      quantifierText "\\\x7b18446744073709551616,1\x7d" =
          .ok "\x7b18446744073709551616,1\x7d" ∧
        Target.times? "\x7b18446744073709551616,1\x7d".toList = some kept ∧
          ¬kept.Ordered ∧
            braces.times =
              { least := 1
                most := some (UInt64.size)
                lazy := false } := by
  refine ⟨⟨⟨List.all_eq_true.1 rfl, List.all_eq_true.1 rfl⟩, rfl⟩, rfl, rfl, ?_, rfl⟩
  intro ordered
  exact absurd (ordered 1 rfl) (by decide)

end VimPattern
