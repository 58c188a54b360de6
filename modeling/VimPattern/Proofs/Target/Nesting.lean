/-
Module: VimPattern.Proofs.Target.Nesting
Purpose: Target text read from left to right: escapes, brackets and parentheses.
Main exports:
  Target.Mode, Target.Mode.next, Target.Reading, Target.Reading.next,
  Target.Reading.run, Target.read, Target.Closes, Target.Opens, Target.Stays,
  Target.closes_of_read, Target.Inert, Target.isPlain, Target.escape_induction, Target.isBody
-/
import VimPattern.Text.Escape

namespace VimPattern.Target

/-!
A reader of target text knows very little: a backslash takes the next character
with it, an opening bracket begins a bracket expression that the next closing
bracket ends, and outside of these parentheses are counted.  A text is balanced
when the reader ends where it began.  `Closes`, `Opens` and `Stays` say the same
about parts of a text, whatever the reader has seen before them.
-/

/-- What the next character is to the reader. -/
inductive Mode where
  /-- It stands outside bracket expressions. -/
  | outside
  /-- A backslash outside bracket expressions takes it. -/
  | escape
  /-- It stands inside a bracket expression. -/
  | bracket
  /-- A backslash inside a bracket expression takes it. -/
  | bracketEscape
deriving Repr, DecidableEq

/-- What comes after a character. -/
def Mode.next : Mode → Char → Mode
  | .outside, char =>
      if char = '\\' then .escape else if char = '[' then .bracket else .outside
  | .escape, _ => .outside
  | .bracket, char =>
      if char = '\\' then .bracketEscape
      else if char = ']' then .outside
      else .bracket
  | .bracketEscape, _ => .bracket

/-- What the reader knows in the middle of a text. -/
structure Reading where
  mode : Mode := .outside
  /-- The parentheses that are open. -/
  depth : Nat := 0
  /-- The bars outside all parentheses so far. -/
  bars : Nat := 0
deriving Repr, DecidableEq

namespace Reading

/-- Read one character.  A parenthesis that closes must have been opened. -/
def next (reading : Reading) (char : Char) : Option Reading :=
  match reading.mode, char with
  | .outside, '(' => some { reading with depth := reading.depth + 1 }
  | .outside, ')' =>
      if reading.depth = 0 then none
      else some { reading with depth := reading.depth - 1 }
  | .outside, '|' =>
      some
        { reading with
          bars := if reading.depth = 0 then reading.bars + 1 else reading.bars }
  | mode, char => some { reading with mode := mode.next char }

/-- Read a text. -/
def run (reading : Reading) (text : List Char) : Option Reading :=
  text.foldlM next reading

@[simp] theorem run_nil (reading : Reading) : reading.run [] = some reading := rfl

theorem run_cons (reading : Reading) (char : Char) (text : List Char) :
    reading.run (char :: text) =
      (reading.next char).bind fun after => after.run text := rfl

/-- A text is read part by part. -/
theorem run_append (reading : Reading) (front back : List Char) :
    reading.run (front ++ back) =
      (reading.run front).bind fun middle => middle.run back :=
  List.foldlM_append

end Reading

/-- Read a whole text. -/
def read (text : String) : Option Reading :=
  Reading.run {} text.toList

/-- The text is balanced and has this many bars outside its parentheses. -/
def Closes (bars : Nat) (text : String) : Prop :=
  ∀ depth before,
    Reading.run { depth := depth, bars := before } text.toList =
      some { depth := depth, bars := before + if depth = 0 then bars else 0 }

/-- The text opens one parenthesis and is balanced apart from that. -/
def Opens (text : String) : Prop :=
  ∀ depth before,
    Reading.run { depth := depth, bars := before } text.toList =
      some { depth := depth + 1, bars := before }

/-- The text keeps a bracket expression open. -/
def Stays (text : String) : Prop :=
  ∀ depth before,
    Reading.run { mode := .bracket, depth := depth, bars := before } text.toList =
      some { mode := .bracket, depth := depth, bars := before }

/-! ### Reading inside parentheses -/

namespace Reading

/-- A character that can be read can be read with other bars before it, and inside
further parentheses, where no bar is counted. -/
theorem next_shift {mode after : Mode} {depth bars deep count : Nat} {char : Char}
    (taken : next ⟨mode, depth, bars⟩ char = some ⟨after, deep, count⟩) :
    bars ≤ count ∧
      (∀ before, next ⟨mode, depth, before⟩ char =
        some ⟨after, deep, before + (count - bars)⟩) ∧
      ∀ more before, next ⟨mode, depth + (more + 1), before⟩ char =
        some ⟨after, deep + (more + 1), before⟩ := by
  unfold next at taken
  split at taken
  · next outside =>
      obtain rfl : mode = .outside := outside
      cases taken
      refine ⟨Nat.le_refl bars, ?_, ?_⟩
      · intro before
        simp [next]
      · intro more before
        simp [next, Nat.add_right_comm]
  · next outside =>
      obtain rfl : mode = .outside := outside
      by_cases closed : depth = 0
      · simp [closed] at taken
      · obtain ⟨less, rfl⟩ := Nat.exists_eq_succ_of_ne_zero closed
        simp at taken
        obtain ⟨rfl, rfl, rfl⟩ := taken
        refine ⟨Nat.le_refl _, ?_, ?_⟩
        · intro before
          simp [next]
        · intro more before
          simp [next]
          omega
  · next outside =>
      obtain rfl : mode = .outside := outside
      cases taken
      refine ⟨?_, ?_, ?_⟩
      · by_cases closed : depth = 0
        · simp [closed]
        · simp [closed]
      · intro before
        by_cases closed : depth = 0
        · simp [next, closed]
        · simp [next, closed]
      · intro more before
        simp [next]
  · next opening closing bar =>
      cases taken
      refine ⟨Nat.le_refl bars, ?_, ?_⟩
      · intro before
        simp only [next, Nat.sub_self, Nat.add_zero]
      · intro more before
        simp only [next]

/-- A text that can be read can be read with other bars before it, and inside
further parentheses, where no bar is counted. -/
theorem run_shift {mode after : Mode} {depth bars deep count : Nat}
    {text : List Char} (taken : run ⟨mode, depth, bars⟩ text = some ⟨after, deep, count⟩) :
    bars ≤ count ∧
      (∀ before, run ⟨mode, depth, before⟩ text =
        some ⟨after, deep, before + (count - bars)⟩) ∧
      ∀ more before, run ⟨mode, depth + (more + 1), before⟩ text =
        some ⟨after, deep + (more + 1), before⟩ := by
  induction text generalizing mode depth bars with
  | nil =>
      cases taken
      exact ⟨Nat.le_refl _, by simp, by simp⟩
  | cons char text inductionHypothesis =>
      rw [run_cons] at taken
      obtain ⟨⟨middle, inner, between⟩, first, others⟩ := Option.bind_eq_some_iff.1 taken
      obtain ⟨early, sideways, inward⟩ := next_shift first
      obtain ⟨late, sidewaysOthers, inwardOthers⟩ := inductionHypothesis others
      refine ⟨Nat.le_trans early late, ?_, ?_⟩
      · intro before
        rw [run_cons, sideways, Option.bind_some, sidewaysOthers]
        congr 2
        omega
      · intro more before
        rw [run_cons, inward, Option.bind_some, inwardOthers]

end Reading

/-- A balanced text is balanced wherever it stands. -/
theorem closes_of_read {bars : Nat} {text : String}
    (balanced : read text = some { bars := bars }) : Closes bars text := by
  obtain ⟨_, sideways, inward⟩ := Reading.run_shift balanced
  intro depth before
  cases depth with
  | zero => simpa using sideways before
  | succ more => simpa using inward more before

/-- Reading a text that closes is reading a balanced text. -/
theorem Closes.read_eq {bars : Nat} {text : String} (closes : Closes bars text) :
    read text = some { bars := bars } := by
  have whole := closes 0 0
  rwa [if_pos rfl, Nat.zero_add] at whole

/-! ### Parts of texts -/

theorem Closes.append {first second : Nat} {front back : String}
    (early : Closes first front) (late : Closes second back) :
    Closes (first + second) (front ++ back) := by
  intro depth before
  rw [String.toList_append, Reading.run_append, early, Option.bind_some, late]
  by_cases outermost : depth = 0
  · simp [outermost, Nat.add_assoc]
  · simp [outermost]

theorem closes_empty : Closes 0 "" := by
  intro depth before
  simp

/-- What stands between parentheses adds no bar. -/
theorem Closes.enclosed {bars : Nat} {opening body : String} (opens : Opens opening)
    (closes : Closes bars body) : Closes 0 (opening ++ body ++ ")") := by
  intro depth before
  rw [String.toList_append, String.toList_append, Reading.run_append,
    Reading.run_append, opens, Option.bind_some, closes, Option.bind_some]
  simp [Reading.run_cons, Reading.next]

theorem opens_parenthesis : Opens "(" := by
  intro depth before
  rfl

/-- An opening may end with balanced text. -/
theorem Opens.append {bars : Nat} {opening body : String} (opens : Opens opening)
    (closes : Closes bars body) : Opens (opening ++ body) := by
  intro depth before
  rw [String.toList_append, Reading.run_append, opens, Option.bind_some, closes]
  simp

theorem Stays.append {front back : String} (early : Stays front) (late : Stays back) :
    Stays (front ++ back) := by
  intro depth before
  rw [String.toList_append, Reading.run_append, early, Option.bind_some, late]

/-- A bracket expression is balanced. -/
theorem Stays.bracketed {body : String} (stays : Stays body) :
    Closes 0 ("[" ++ body ++ "]") := by
  intro depth before
  have opened :
      Reading.run { depth := depth, bars := before } "[".toList =
        some { mode := .bracket, depth := depth, bars := before } := rfl
  have closed :
      Reading.run { mode := .bracket, depth := depth, bars := before } "]".toList =
        some { depth := depth, bars := before } := rfl
  rw [String.toList_append, String.toList_append, Reading.run_append,
    Reading.run_append, opened, Option.bind_some, stays, Option.bind_some, closed]
  simp

/-! ### Characters -/

/-- The character means nothing to the reader, wherever it stands. -/
def Inert (char : Char) : Prop :=
  char ∉ ['\\', '[', ']', '(', ')', '|']

instance (char : Char) : Decidable (Inert char) :=
  inferInstanceAs (Decidable (char ∉ _))

/-- Text outside brackets without a structure of its own: escapes are complete, and
nothing else means anything to the reader. -/
def isPlain : List Char → Bool
  | [] => true
  | ['\\'] => false
  | '\\' :: _ :: text => isPlain text
  | char :: text => decide (Inert char) && isPlain text

/-- A text is a row of escapes and bare characters, perhaps with a backslash at its end that
escapes nothing. -/
@[elab_as_elim] theorem escape_induction {motive : List Char → Prop} (nil : motive [])
    (lone : motive ['\\'])
    (escape : ∀ char text, motive text → motive ('\\' :: char :: text))
    (bare : ∀ char text, char ≠ '\\' → motive text → motive (char :: text))
    (text : List Char) : motive text := by
  induction text using isPlain.induct with
  | case1 => exact nil
  | case2 => exact lone
  | case3 char text inductionHypothesis => exact escape char text inductionHypothesis
  | case4 char text incomplete complete inductionHypothesis =>
      refine bare char text ?_ inductionHypothesis
      rintro rfl
      cases text with
      | nil => exact incomplete rfl rfl
      | cons escaped text => exact complete escaped text rfl rfl

/-- A bare character is plain text if it means nothing to the reader. -/
theorem isPlain_bare {char : Char} (bare : char ≠ '\\') (text : List Char) :
    isPlain (char :: text) = (decide (Inert char) && isPlain text) := by
  rw [isPlain]
  · exact fun same => absurd same bare
  · exact fun _ _ same => absurd same bare

/-- Characters that mean nothing to the reader are plain text. -/
theorem isPlain_of_inert {text : List Char} (inert : ∀ char ∈ text, Inert char) :
    isPlain text := by
  induction text with
  | nil => rfl
  | cons char others inductionHypothesis =>
      obtain ⟨first, rest⟩ := List.forall_mem_cons.1 inert
      unfold isPlain
      split
      · rfl
      · next same =>
          cases same
          exact absurd (.head _) first
      · next same =>
          cases same
          exact absurd (.head _) first
      · next same =>
          cases same
          rw [decide_eq_true first, inductionHypothesis rest]
          rfl

/-- Plain text is balanced. -/
theorem closes_of_isPlain {text : String} (plain : isPlain text.toList) :
    Closes 0 text := by
  intro depth before
  have passed (chars : List Char) (plain : isPlain chars) :
      Reading.run { depth := depth, bars := before } chars =
        some { depth := depth, bars := before } := by
    induction chars using escape_induction with
    | nil => rfl
    | lone => cases plain
    | escape char others inductionHypothesis => exact inductionHypothesis plain
    | bare char others notEscape inductionHypothesis =>
        rw [isPlain_bare notEscape] at plain
        obtain ⟨first, rest⟩ := Bool.and_eq_true_iff.1 plain
        have taken :
            Reading.next { depth := depth, bars := before } char =
              some { depth := depth, bars := before } := by
          simp only [Inert, List.mem_cons, List.not_mem_nil, or_false, not_or,
            decide_eq_true_eq] at first
          simp [Reading.next, Mode.next, first]
        rw [Reading.run_cons, taken, Option.bind_some, inductionHypothesis rest]
  rw [passed _ plain, ite_self, Nat.add_zero]

/-- The body of a bracket expression: escapes are complete, and no bracket stands
without one. -/
def isBody : List Char → Bool
  | [] => true
  | ['\\'] => false
  | '\\' :: _ :: text => isBody text
  | char :: text => char != '[' && char != ']' && isBody text

/-- A bare character stands in a body unless it is a bracket. -/
theorem isBody_bare {char : Char} (bare : char ≠ '\\') (text : List Char) :
    isBody (char :: text) = (char != '[' && char != ']' && isBody text) := by
  rw [isBody]
  · exact fun same => absurd same bare
  · exact fun _ _ same => absurd same bare

/-- Characters that mean nothing to the reader are the body of a bracket
expression. -/
theorem isBody_of_inert {text : List Char} (inert : ∀ char ∈ text, Inert char) :
    isBody text := by
  induction text with
  | nil => rfl
  | cons char others inductionHypothesis =>
      obtain ⟨first, rest⟩ := List.forall_mem_cons.1 inert
      have notOpening : char ≠ '[' := fun same => first (by simp [same])
      have notClosing : char ≠ ']' := fun same => first (by simp [same])
      unfold isBody
      split
      · rfl
      · next same =>
          cases same
          exact absurd (.head _) first
      · next same =>
          cases same
          exact absurd (.head _) first
      · next same =>
          cases same
          simp [notOpening, notClosing, inductionHypothesis rest]

/-- A body keeps a bracket expression open. -/
theorem stays_of_isBody {text : String} (body : isBody text.toList) : Stays text := by
  intro depth before
  have passed (chars : List Char) (body : isBody chars) :
      Reading.run { mode := .bracket, depth := depth, bars := before } chars =
        some { mode := .bracket, depth := depth, bars := before } := by
    induction chars using escape_induction with
    | nil => rfl
    | lone => cases body
    | escape char others inductionHypothesis => exact inductionHypothesis body
    | bare char others notEscape inductionHypothesis =>
        rw [isBody_bare notEscape] at body
        simp only [Bool.and_eq_true, bne_iff_ne, ne_eq] at body
        have taken :
            Reading.next { mode := .bracket, depth := depth, bars := before } char =
              some { mode := .bracket, depth := depth, bars := before } := by
          simp [Reading.next, Mode.next, notEscape, body.1.2]
        rw [Reading.run_cons, taken, Option.bind_some, inductionHypothesis body.2]
  exact passed _ body

end VimPattern.Target
