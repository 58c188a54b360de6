/-
Module: VimPattern.Proofs.Target.Openings
Purpose: The parentheses that open something in a target text, and where they come from.
Main exports:
  Target.Glyph, Target.spell, Target.Listener, Target.openings, Target.Yields,
  Target.Listener.Deaf, Target.silence, Target.silent_of_cautious, Target.capturing
-/
import VimPattern.Proofs.Target.Family

namespace VimPattern.Target

/-!
The target numbers its groups by their opening parentheses, so that what a number
refers to is a question of which parentheses count and of what they stand for.  A
listener says what it makes of a parenthesis that opens, given the text behind it;
the reading around it, escapes and brackets, is that of `Mode`.  Every character
carries its source, which nothing but the answer of the listener depends on.
-/

variable {Source Found : Type}

/-- A character of target text and what it was written for. -/
structure Glyph (Source : Type) where
  char : Char
  source : Source
deriving Repr, DecidableEq

/-- A text that was written for one thing. -/
def spell (source : Source) (text : String) : List (Glyph Source) :=
  text.toList.map fun char => { char := char, source := source }

/-- The characters without their sources. -/
def letters (glyphs : List (Glyph Source)) : List Char :=
  glyphs.map Glyph.char

@[simp] theorem letters_append (front back : List (Glyph Source)) :
    letters (front ++ back) = letters front ++ letters back :=
  List.map_append

@[simp] theorem letters_map (source : Source) (text : List Char) :
    letters (text.map fun char => { char := char, source := source }) = text := by
  rw [letters, List.map_map]
  exact List.map_id _

@[simp] theorem letters_spell (source : Source) (text : String) :
    letters (spell source text) = text.toList :=
  letters_map source text.toList

/-- What is made of a parenthesis that opens, given its source and the text behind
it. -/
abbrev Listener (Source Found : Type) :=
  Source → List Char → Option Found

/-- What is made of the parentheses that open, from left to right.  A parenthesis
opens when it stands outside brackets and no backslash takes it. -/
def openings (listener : Listener Source Found) :
    Mode → List (Glyph Source) → List Found
  | _, [] => []
  | mode, glyph :: others =>
      (if mode = .outside ∧ glyph.char = '(' then
          (listener glyph.source (letters others)).toList
        else []) ++
        openings listener (mode.next glyph.char) others

/-- Whatever follows, reading these glyphs finds this and goes on as before. -/
def Yields (listener : Listener Source Found) (mode : Mode)
    (glyphs : List (Glyph Source)) (found : List Found) : Prop :=
  ∀ others,
    openings listener mode (glyphs ++ others) =
      found ++ openings listener mode others

/-! ### Reading part by part -/

section

variable {listener : Listener Source Found} {mode : Mode}

theorem openings_eq_of_yields {glyphs : List (Glyph Source)} {found : List Found}
    (yields : Yields listener mode glyphs found) :
    openings listener mode glyphs = found := by
  have whole := yields []
  rwa [List.append_nil, openings, List.append_nil] at whole

theorem yields_nil : Yields listener mode [] [] := by
  intro others
  rfl

theorem Yields.append {front back : List (Glyph Source)} {early late : List Found}
    (first : Yields listener mode front early)
    (second : Yields listener mode back late) :
    Yields listener mode (front ++ back) (early ++ late) := by
  intro others
  rw [List.append_assoc, first, second, List.append_assoc]

/-- A character that is no parenthesis is passed over. -/
theorem openings_cons {glyph : Glyph Source} {others : List (Glyph Source)}
    (passed : mode = .outside → glyph.char ≠ '(') :
    openings listener mode (glyph :: others) =
      openings listener (mode.next glyph.char) others := by
  have silent : ¬(mode = .outside ∧ glyph.char = '(') :=
    fun opens => passed opens.1 opens.2
  rw [openings, if_neg silent, List.nil_append]

/-- A parenthesis outside brackets is heard. -/
theorem openings_parenthesis {glyph : Glyph Source} (opens : glyph.char = '(')
    (others : List (Glyph Source)) :
    openings listener .outside (glyph :: others) =
      (listener glyph.source (letters others)).toList ++
        openings listener .outside others := by
  have heard : Mode.outside = .outside ∧ glyph.char = '(' := ⟨rfl, opens⟩
  have stays : Mode.outside.next glyph.char = .outside := by rw [opens]; rfl
  rw [openings, if_pos heard, stays]

end

/-! ### Texts in which nothing is heard -/

/-- Nothing is heard in a text, whatever its characters were written for. -/
def Silent (listener : Listener Source Found) (mode : Mode) (text : String) : Prop :=
  ∀ glyphs, letters glyphs = text.toList → Yields listener mode glyphs []

/-- The listener makes nothing of the parentheses that only hold something together
or look at it. -/
def Listener.Deaf (listener : Listener Source Found) : Prop :=
  ∀ mark ∈ marks, ∀ source text, listener source (mark.toList.drop 1 ++ text) = none

variable {listener : Listener Source Found} {mode : Mode}

theorem Silent.spell {text : String} (silent : Silent listener mode text)
    (source : Source) : Yields listener mode (spell source text) [] :=
  silent _ (letters_spell source text)

theorem Silent.append {front back : String} (early : Silent listener mode front)
    (late : Silent listener mode back) : Silent listener mode (front ++ back) := by
  intro glyphs same
  rw [String.toList_append] at same
  obtain ⟨first, second, rfl, sameFront, sameBack⟩ := List.map_eq_append_iff.1 same
  exact (early first sameFront).append (late second sameBack)

/-- One character that is no parenthesis leads from one mode to another. -/
theorem openings_char {after : Mode} {glyphs : List (Glyph Source)} {char : Char}
    (passed : mode = .outside → char ≠ '(') (next : mode.next char = after)
    (same : letters glyphs = [char]) (others : List (Glyph Source)) :
    openings listener mode (glyphs ++ others) = openings listener after others := by
  obtain ⟨glyph, rest, rfl, rfl, none⟩ := List.map_eq_cons_iff.1 same
  obtain rfl := List.map_eq_nil_iff.1 none
  rw [← next]
  exact openings_cons passed

/-- A backslash takes the next character, wherever the reader is. -/
theorem openings_escape (reads : mode = .outside ∨ mode = .bracket)
    {first : Glyph Source} (escapes : first.char = '\\') (second : Glyph Source)
    (others : List (Glyph Source)) :
    openings listener mode (first :: second :: others) =
      openings listener mode others := by
  have passed : mode = .outside → first.char ≠ '(' := by simp [escapes]
  rw [openings_cons passed, escapes]
  rcases reads with rfl | rfl
  · have escaped : Mode.escape = .outside → second.char ≠ '(' := nofun
    exact openings_cons escaped
  · have escaped : Mode.bracketEscape = .outside → second.char ≠ '(' := nofun
    exact openings_cons escaped

/-- A character that means nothing is passed over, and the reader stays outside. -/
theorem openings_inert {glyph : Glyph Source} (inert : Inert glyph.char)
    (others : List (Glyph Source)) :
    openings listener .outside (glyph :: others) =
      openings listener .outside others := by
  simp only [Inert, List.mem_cons, List.not_mem_nil, or_false, not_or] at inert
  have stays : Mode.outside.next glyph.char = .outside := by
    simp [Mode.next, inert]
  rw [openings_cons fun _ => inert.2.2.2.1, stays]

/-- A member is passed over, and the reader stays inside the brackets. -/
theorem openings_member {glyph : Glyph Source} (notEscape : glyph.char ≠ '\\')
    (notClosing : glyph.char ≠ ']') (others : List (Glyph Source)) :
    openings listener .bracket (glyph :: others) =
      openings listener .bracket others := by
  have stays : Mode.bracket.next glyph.char = .bracket := by
    simp [Mode.next, notEscape, notClosing]
  have passed : Mode.bracket = .outside → glyph.char ≠ '(' := by
    intro same
    cases same
  rw [openings_cons passed, stays]

theorem silent_of_isPlain {text : String} (plain : isPlain text.toList) :
    Silent listener .outside text := by
  intro glyphs same others
  rw [← same] at plain
  have passed (chars : List Char) (plain : isPlain chars) (glyphs : List (Glyph Source))
      (same : letters glyphs = chars) :
      openings listener .outside (glyphs ++ others) =
        openings listener .outside others := by
    induction chars using escape_induction generalizing glyphs with
    | nil =>
        obtain rfl := List.map_eq_nil_iff.1 same
        rfl
    | lone => cases plain
    | escape char chars inductionHypothesis =>
        obtain ⟨first, rest, rfl, escapes, same⟩ := List.map_eq_cons_iff.1 same
        obtain ⟨second, rest, rfl, _, same⟩ := List.map_eq_cons_iff.1 same
        rw [List.cons_append, List.cons_append, openings_escape (.inl rfl) escapes]
        exact inductionHypothesis plain rest same
    | bare char chars notEscape inductionHypothesis =>
        obtain ⟨first, rest, rfl, sameFirst, same⟩ := List.map_eq_cons_iff.1 same
        rw [isPlain_bare notEscape] at plain
        obtain ⟨inert, plainRest⟩ := Bool.and_eq_true_iff.1 plain
        rw [← sameFirst] at inert
        rw [List.cons_append, openings_inert (of_decide_eq_true inert)]
        exact inductionHypothesis plainRest rest same
  exact passed _ plain glyphs rfl

theorem silent_of_isBody {text : String} (body : isBody text.toList) :
    Silent listener .bracket text := by
  intro glyphs same others
  rw [← same] at body
  have passed (chars : List Char) (body : isBody chars) (glyphs : List (Glyph Source))
      (same : letters glyphs = chars) :
      openings listener .bracket (glyphs ++ others) =
        openings listener .bracket others := by
    induction chars using escape_induction generalizing glyphs with
    | nil =>
        obtain rfl := List.map_eq_nil_iff.1 same
        rfl
    | lone => cases body
    | escape char chars inductionHypothesis =>
        obtain ⟨first, rest, rfl, escapes, same⟩ := List.map_eq_cons_iff.1 same
        obtain ⟨second, rest, rfl, _, same⟩ := List.map_eq_cons_iff.1 same
        rw [List.cons_append, List.cons_append, openings_escape (.inr rfl) escapes]
        exact inductionHypothesis body rest same
    | bare char chars notEscape inductionHypothesis =>
        obtain ⟨first, rest, rfl, rfl, behind⟩ := List.map_eq_cons_iff.1 same
        rw [isBody_bare notEscape] at body
        simp only [Bool.and_eq_true, bne_iff_ne, ne_eq] at body
        rw [List.cons_append, openings_member notEscape body.1.2]
        exact inductionHypothesis body.2 rest behind
  exact passed _ body glyphs rfl

/-- In a bracket expression nothing is heard. -/
theorem Silent.bracketed {body : String} (silent : Silent listener .bracket body) :
    Silent listener .outside ("[" ++ body ++ "]") := by
  intro glyphs same others
  rw [String.toList_append, String.toList_append] at same
  obtain ⟨front, closing, rfl, same, closes⟩ := List.map_eq_append_iff.1 same
  obtain ⟨opening, inside, rfl, opens, same⟩ := List.map_eq_append_iff.1 same
  have opened (text : List (Glyph Source)) :
      openings listener .outside (opening ++ text) = openings listener .bracket text :=
    openings_char (fun _ => by decide) rfl opens text
  have passed : Mode.bracket = .outside → ']' ≠ '(' := nofun
  have closed (text : List (Glyph Source)) :
      openings listener .bracket (closing ++ text) = openings listener .outside text :=
    openings_char passed rfl closes text
  rw [List.append_assoc, List.append_assoc, opened, silent _ same, List.nil_append, closed,
    List.nil_append]

/-- A mark is a parenthesis and plain text. -/
theorem exists_plain_of_mem_marks {mark : String} (among : mark ∈ marks) :
    ∃ rest, mark.toList = '(' :: rest ∧ isPlain rest := by
  simp only [marks, List.mem_cons, List.not_mem_nil, or_false] at among
  rcases among with rfl | rfl | rfl | rfl | rfl | rfl | rfl <;> exact ⟨_, rfl, rfl⟩

/-- A parenthesis and plain text that the listener makes nothing of. -/
theorem silent_parenthesis {text : String} {rest : List Char}
    (split : text.toList = '(' :: rest) (plain : isPlain rest)
    (unheard : ∀ source following, listener source (rest ++ following) = none) :
    Silent listener .outside text := by
  have silent : Silent listener .outside (String.ofList rest) := by
    apply silent_of_isPlain
    rwa [String.toList_ofList]
  intro glyphs same others
  rw [split] at same
  obtain ⟨glyph, glyphs, rfl, opens, same⟩ := List.map_eq_cons_iff.1 same
  have behind : letters glyphs = rest := same
  have missed := unheard glyph.source (letters others)
  rw [← behind, ← letters_append] at missed
  rw [List.cons_append, openings_parenthesis opens, missed]
  apply silent
  rwa [String.toList_ofList]

/-- A parenthesis and plain text that the listener makes something of. -/
theorem yields_parenthesis {text : String} {rest : List Char} {source : Source}
    {found : Found} (split : text.toList = '(' :: rest) (plain : isPlain rest)
    (heard : ∀ following, listener source (rest ++ following) = some found) :
    Yields listener .outside (Target.spell source text) [found] := by
  have silent : Silent listener .outside (String.ofList rest) := by
    apply silent_of_isPlain
    rwa [String.toList_ofList]
  intro others
  have written := heard (letters others)
  rw [← letters_map source rest, ← letters_append] at written
  rw [Target.spell, split, List.map_cons, List.cons_append, openings_parenthesis rfl, written]
  have goesOn := silent.spell source others
  rw [Target.spell, String.toList_ofList] at goesOn
  rw [goesOn]
  rfl

/-- A mark is not heard where the listener is deaf. -/
theorem Listener.Deaf.silent (deaf : listener.Deaf) {mark : String}
    (among : mark ∈ marks) : Silent listener .outside mark := by
  obtain ⟨rest, split, plain⟩ := exists_plain_of_mem_marks among
  have unheard := deaf mark among
  rw [split, List.drop_one, List.tail_cons] at unheard
  exact silent_parenthesis split plain unheard

/-- Texts in which a deaf listener hears nothing. -/
def silence (listener : Listener Source Found) (deaf : listener.Deaf) : Family where
  whole := Silent listener .outside
  inner := Silent listener .outside
  member := Silent listener .bracket
  whole_of_isPlain := silent_of_isPlain
  whole_append := Silent.append
  inner_of_whole := id
  inner_bar := by
    intro glyphs same others
    have passed : Mode.outside = .outside → '|' ≠ '(' := fun _ => by decide
    exact openings_char passed rfl same others
  inner_append := Silent.append
  member_of_isBody := silent_of_isBody
  member_append := Silent.append
  whole_bracketed := Silent.bracketed
  whole_enclosed := by
    intro mark text among inner
    apply ((deaf.silent among).append inner).append
    intro glyphs same others
    have passed : Mode.outside = .outside → ')' ≠ '(' := fun _ => by decide
    exact openings_char passed rfl same others

/-- A listener that cannot tell what follows a text hears nothing only where the other
one hears nothing, whatever follows. -/
def Listener.Cautious {Suspected : Type} (wary : Listener Unit Suspected)
    (listener : Listener Source Found) : Prop :=
  ∀ text, wary () text = none →
    ∀ source following, listener source (text ++ following) = none

/-- A text that ends its escapes and brackets, and in which a cautious listener hears
nothing, is silent wherever it stands. -/
theorem silent_of_cautious {Suspected : Type} {wary : Listener Unit Suspected}
    (cautious : wary.Cautious listener) {text : String}
    (complete : text.toList.foldl Mode.next .outside = .outside)
    (unsuspected : openings wary .outside (spell () text) = []) :
    Silent listener .outside text := by
  have passed (chars : List Char) {mode : Mode}
      (complete : chars.foldl Mode.next mode = .outside)
      (unsuspected :
        openings wary mode (chars.map fun char => { char := char, source := () }) = [])
      (glyphs others : List (Glyph Source)) (same : letters glyphs = chars) :
      openings listener mode (glyphs ++ others) = openings listener .outside others := by
    induction chars generalizing mode glyphs with
    | nil =>
        cases complete
        obtain rfl := List.map_eq_nil_iff.1 same
        rfl
    | cons char chars inductionHypothesis =>
        obtain ⟨glyph, glyphs, rfl, rfl, behind⟩ := List.map_eq_cons_iff.1 same
        obtain ⟨unnoticed, unsuspectedAfter⟩ := List.append_eq_nil_iff.1 unsuspected
        have goesOn := inductionHypothesis complete unsuspectedAfter glyphs behind
        by_cases opens : mode = .outside ∧ glyph.char = '('
        · rw [if_pos opens, letters_map, Option.toList_eq_nil_iff] at unnoticed
          have unheard : listener glyph.source (letters (glyphs ++ others)) = none := by
            have same : letters glyphs = chars := behind
            rw [letters_append, same]
            exact cautious chars unnoticed glyph.source _
          rw [List.cons_append, openings, if_pos opens, unheard]
          exact goesOn
        · rw [List.cons_append, openings, if_neg opens]
          exact goesOn
  intro glyphs same others
  exact passed text.toList complete unsuspected glyphs others same

/-! ### Parentheses that capture -/

/-- A parenthesis captures unless a question mark stands behind it. -/
def capturing : Listener Source Source := fun source text =>
  if text.head? = some '?' then none else some source

/-- The sources of the parentheses that capture, from left to right. -/
def captures (glyphs : List (Glyph Source)) : List Source :=
  openings capturing .outside glyphs

theorem deaf_capturing : (capturing : Listener Source Source).Deaf := by
  intro mark among source text
  simp only [marks, List.mem_cons, List.not_mem_nil, or_false] at among
  rcases among with rfl | rfl | rfl | rfl | rfl | rfl | rfl <;> rfl

/-- The reader of parentheses is in the mode that the other reader is in. -/
theorem Reading.mode_of_next {reading after : Reading} {char : Char}
    (taken : reading.next char = some after) : after.mode = reading.mode.next char := by
  unfold next at taken
  split at taken
  · next outside =>
      cases taken
      rw [outside]
      rfl
  · next outside =>
      rw [outside]
      split at taken
      · cases taken
      · cases taken
        exact outside
  · next outside =>
      cases taken
      rw [outside]
      rfl
  · cases taken
    rfl

/-- The reader of parentheses ends in the mode that the other reader ends in. -/
theorem Reading.mode_of_run {text : List Char} {reading after : Reading}
    (taken : reading.run text = some after) :
    after.mode = text.foldl Mode.next reading.mode := by
  induction text generalizing reading with
  | nil =>
      cases taken
      rfl
  | cons char others inductionHypothesis =>
      rw [run_cons] at taken
      obtain ⟨middle, first, rest⟩ := Option.bind_eq_some_iff.1 taken
      rw [inductionHypothesis rest, mode_of_next first, List.foldl_cons]

/-- What stands behind a text does not make a parenthesis in it capture. -/
theorem cautious_capturing :
    (capturing : Listener Unit Unit).Cautious
      (capturing : Listener Source Source) := by
  intro text uncaptured source following
  have marked : text.head? = some '?' := by
    simpa [capturing] using uncaptured
  rw [capturing, List.head?_append, marked, Option.some_or, if_pos rfl]

/-- A balanced text without parentheses that capture has none wherever it stands. -/
theorem silent_of_captures {text : String} {bars : Nat}
    (balanced : read text = some { bars := bars })
    (none : captures (spell () text) = []) :
    Silent (capturing : Listener Source Source) .outside text :=
  silent_of_cautious cautious_capturing (Reading.mode_of_run balanced).symm none

end VimPattern.Target
