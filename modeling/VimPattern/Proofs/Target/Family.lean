/-
Module: VimPattern.Proofs.Target.Family
Purpose: What a property of target texts has to survive to hold of all of them.
Main exports:
  Target.marks, Target.Family, Target.balance
-/
import VimPattern.Proofs.Target.Nesting

namespace VimPattern.Target

/-!
Target texts are put together in few ways: side by side, between parentheses with a
mark behind the first one, and between brackets.  A property that survives these
and that text without a structure of its own has, is had by the text of every
lexeme.  A family is such a property, with one side for each place that a text can
stand in.
-/

/-- What opens a pair of parentheses that only holds something together or looks at
it. -/
def marks : List String :=
  ["(?:", "(?=", "(?!", "(?<=", "(?<!", "(?>", "(?i:"]

/-- Texts that belong together because they are put together from one another. -/
structure Family where
  /-- Texts that can stand anywhere outside brackets. -/
  whole : String → Prop
  /-- Texts that can stand between parentheses. -/
  inner : String → Prop
  /-- Texts that can stand between brackets. -/
  member : String → Prop
  whole_of_isPlain : ∀ {text}, isPlain text.toList → whole text
  whole_append :
    ∀ {front back}, whole front → whole back → whole (front ++ back)
  inner_of_whole : ∀ {text}, whole text → inner text
  inner_bar : inner "|"
  inner_append :
    ∀ {front back}, inner front → inner back → inner (front ++ back)
  member_of_isBody : ∀ {text}, isBody text.toList → member text
  member_append :
    ∀ {front back}, member front → member back → member (front ++ back)
  whole_bracketed : ∀ {text}, member text → whole ("[" ++ text ++ "]")
  whole_enclosed :
    ∀ {mark text}, mark ∈ marks → inner text → whole (mark ++ text ++ ")")

namespace Family

variable (family : Family)

theorem whole_empty : family.whole "" :=
  family.whole_of_isPlain rfl

theorem member_empty : family.member "" :=
  family.member_of_isBody rfl

theorem whole_of_inert {text : String} (inert : ∀ char ∈ text.toList, Inert char) :
    family.whole text :=
  family.whole_of_isPlain (isPlain_of_inert inert)

theorem member_of_inert {text : String} (inert : ∀ char ∈ text.toList, Inert char) :
    family.member text :=
  family.member_of_isBody (isBody_of_inert inert)

/-- A backslash makes any character mean nothing. -/
theorem whole_afterBackslash (char : Char) :
    family.whole (Escape.afterBackslash char) := by
  apply family.whole_of_isPlain
  rw [Escape.afterBackslash, String.toList_ofList]
  rfl

/-- A backslash makes any character a member. -/
theorem member_afterBackslash (char : Char) :
    family.member (Escape.afterBackslash char) := by
  apply family.member_of_isBody
  rw [Escape.afterBackslash, String.toList_ofList]
  rfl

variable {family}

/-- A group that only groups. -/
theorem whole_cluster {text : String} (inner : family.inner text) :
    family.whole ("(?:" ++ text ++ ")") :=
  family.whole_enclosed (.head _) inner

/-- An alternative that is followed by another one. -/
theorem inner_alternatives {front back : String} (early : family.inner front)
    (late : family.inner back) : family.inner (front ++ "|" ++ back) :=
  family.inner_append (family.inner_append early family.inner_bar) late

end Family

/-- A mark opens one parenthesis. -/
theorem opens_of_mem_marks {mark : String} (among : mark ∈ marks) : Opens mark := by
  simp only [marks, List.mem_cons, List.not_mem_nil, or_false] at among
  rcases among with rfl | rfl | rfl | rfl | rfl | rfl | rfl <;> exact fun _ _ => rfl

/-- Balanced texts, with bars only between parentheses. -/
def balance : Family where
  whole := Closes 0
  inner text := ∃ bars, Closes bars text
  member := Stays
  whole_of_isPlain := closes_of_isPlain
  whole_append := Closes.append
  inner_of_whole closes := ⟨0, closes⟩
  inner_bar := ⟨1, closes_of_read rfl⟩
  inner_append := fun ⟨_, early⟩ ⟨_, late⟩ => ⟨_, early.append late⟩
  member_of_isBody := stays_of_isBody
  member_append := Stays.append
  whole_bracketed := Stays.bracketed
  whole_enclosed among := fun ⟨_, closes⟩ => closes.enclosed (opens_of_mem_marks among)

end VimPattern.Target
