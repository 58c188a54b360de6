/-
Module: VimPattern.Proofs.Target.Names
Purpose: The names of the groups of a target text.
Main exports:
  Target.groupName?, Target.naming, Target.groupNames, Target.mayName,
  Target.Nameless, Target.Nameless.silent
-/
import VimPattern.Proofs.Spelling.Written
import VimPattern.Proofs.Target.Openings

namespace VimPattern

namespace Target

/-!
A parenthesis opens a group with a name when a question mark and an angle bracket
stand behind it, unless the group is one that looks behind.  So whether the text of
an option names a group may depend on what follows it, where it ends too early to
tell.  A text that is complete and can name none is silent wherever it stands.
-/

variable {Source : Type}

/-- The name of the group whose parenthesis stands before this text. -/
def groupName? : List Char → Option String
  | '?' :: '<' :: first :: text =>
      if first = '=' ∨ first = '!' then none
      else some (String.ofList ((first :: text).takeWhile (· ≠ '>')))
  | _ => none

/-- A parenthesis is heard by the name of its group. -/
def naming : Listener Source String := fun _ text => groupName? text

/-- The names of the groups of a target text, from left to right. -/
def groupNames (text : String) : List String :=
  openings naming .outside (spell () text)

theorem deaf_naming : (naming : Listener Source String).Deaf := by
  intro mark among source text
  simp only [marks, List.mem_cons, List.not_mem_nil, or_false] at among
  rcases among with rfl | rfl | rfl | rfl | rfl | rfl | rfl <;> rfl

/-- What a text was written for makes no difference to its names. -/
theorem openings_naming (mode : Mode) (glyphs : List (Glyph Source)) :
    openings naming mode glyphs =
      openings naming mode
        ((letters glyphs).map fun char => { char := char, source := () }) := by
  induction glyphs generalizing mode with
  | nil => rfl
  | cons glyph others inductionHypothesis =>
      have whole : letters (glyph :: others) = glyph.char :: letters others := rfl
      rw [whole, List.map_cons, openings, openings, inductionHypothesis, letters_map]
      rfl

/-- A name of letters and digits ends at the angle bracket behind it. -/
theorem groupName?_spelled {name : List Char} (alphaNumeric : ∀ char ∈ name, char.isAlphanum)
    (nonempty : name ≠ []) (following : List Char) :
    groupName? ('?' :: '<' :: (name ++ '>' :: following)) = some (String.ofList name) := by
  have ends : ∀ char ∈ name, decide (char ≠ '>') = true := fun char among =>
    decide_eq_true (ne_of_isAlphanum (alphaNumeric char among) rfl)
  have taken : (name ++ '>' :: following).takeWhile (· ≠ '>') = name := by
    rw [List.takeWhile_append_of_pos ends, List.takeWhile_cons_of_neg (by decide),
      List.append_nil]
  cases name with
  | nil => exact absurd rfl nonempty
  | cons first rest =>
      have letter := alphaNumeric first (.head _)
      have looks : ¬(first = '=' ∨ first = '!') :=
        not_or.2 ⟨ne_of_isAlphanum letter rfl, ne_of_isAlphanum letter rfl⟩
      rw [List.cons_append] at taken ⊢
      rw [groupName?, if_neg looks, taken]

/-- A group that is spelled with a name is heard by it. -/
theorem yields_named {name : String} (alphaNumeric : ∀ char ∈ name.toList, char.isAlphanum)
    (nonempty : name.toList ≠ []) (source : Source) :
    Yields naming .outside (spell source ("(?<" ++ name ++ ">")) [name] := by
  have inert : ∀ char ∈ name.toList, Inert char := fun char among =>
    not_mem_of_isAlphanum (alphaNumeric char among) (by decide)
  have split : ("(?<" ++ name ++ ">").toList = '(' :: '?' :: '<' :: (name.toList ++ ['>']) := by
    rw [String.toList_append, String.toList_append]
    rfl
  apply yields_parenthesis split
  · have question : Inert '?' := by decide
    have less : Inert '<' := by decide
    have greater : Inert '>' := by decide
    apply isPlain_of_inert
    rw [List.forall_mem_cons, List.forall_mem_cons, List.forall_mem_append,
      List.forall_mem_singleton]
    exact ⟨question, less, inert, greater⟩
  · intro following
    have spelled := groupName?_spelled alphaNumeric nonempty following
    rw [String.ofList_toList] at spelled
    rw [naming, ← spelled]
    simp

/-! ### Texts that name nothing -/

/-- The group has a name, or gets one if the right text follows. -/
def mayName : List Char → Bool
  | [] | ['?'] | ['?', '<'] => true
  | text => (groupName? text).isSome

/-- A group that can have no name has none, whatever follows. -/
theorem groupName?_append {text : List Char} (unnamed : mayName text = false)
    (following : List Char) : groupName? (text ++ following) = none := by
  by_cases begins : ∃ first rest, text = '?' :: '<' :: first :: rest
  · obtain ⟨first, rest, rfl⟩ := begins
    by_cases looks : first = '=' ∨ first = '!'
    · simp [groupName?, looks]
    · simp [mayName, groupName?, looks] at unnamed
  · unfold groupName?
    split
    · next first rest same =>
        -- The text ends before it could tell, which `mayName` does not allow.
        match text, same with
        | [], _ => cases unnamed
        | [_], same =>
            cases same
            cases unnamed
        | [_, _], same =>
            cases same
            cases unnamed
        | _ :: _ :: _ :: _, same =>
            cases same
            exact absurd ⟨_, _, rfl⟩ begins
    · rfl

/-- A parenthesis that may belong to a named group is noticed. -/
def suspecting : Listener Unit Unit := fun _ text =>
  if mayName text then some () else none

/-- The text ends its escapes and brackets, and no parenthesis that opens in it can
belong to a named group. -/
structure Nameless (text : String) : Prop where
  complete : text.toList.foldl Mode.next .outside = .outside
  unnamed : openings suspecting .outside (spell () text) = []

/-- A group that is not noticed has no name, whatever follows. -/
theorem cautious_suspecting : suspecting.Cautious (naming : Listener Source String) := by
  intro text unnoticed source following
  have unnamed : mayName text = false := by
    simpa [suspecting] using unnoticed
  exact groupName?_append unnamed following

/-- A nameless text names no group, wherever it stands. -/
theorem Nameless.silent {text : String} (nameless : Nameless text) :
    Silent (naming : Listener Source String) .outside text :=
  silent_of_cautious cautious_suspecting nameless.complete nameless.unnamed

end Target

end VimPattern
