/-
Module: VimPattern.Proofs.Spelling.LineBreaks
Purpose: Where the text for a line break is a single atom of the target.
Main exports:
  Literal.ofBreak?, Options.single_lineBreakText_iff, Options.single_anyOrBreakText,
  CharClass.single_text, Context.Spells.eq_ofBreak, single_text_iff, single_text_differs
-/
import Mathlib.Data.List.Basic
import VimPattern.Proofs.Scan.Sites
import VimPattern.Proofs.Target.Atoms
import VimPattern.Conversion

namespace VimPattern

open Target

/-!
The options say what text matches a line break, and it may take several atoms to do so.  A
quantifier behind it has to repeat all of them, so that they need a group around them.  Where a
line break is one of two alternatives there is a group anyway.  A line break alone gets one if
its text has more than two characters.  Fewer are always one atom if they are an escape, and
two that stand for themselves never are.
-/

/-- The atom that a pattern asks for with this spelling, if it is one with a line break. -/
def Literal.ofBreak? : List Char → Option Literal
  | ['\\', 'n'] => some .lineBreak
  | ['\\', '_', '.'] => some .anyOrBreak
  | ['\\', '_', letter] =>
      (CharClass.ofLetter? letter).map fun letterClass => .charClass letterClass true
  | _ => none

/-! ### Texts -/

section

variable {options : Options} {atoms : List (List Char)}

/-- A line break alone is a single atom unless its text is two characters that are an atom
each. -/
theorem Options.single_lineBreakText_iff (cut : Cut options.newLine.toList atoms)
    (written : atoms ≠ []) :
    Single options.lineBreakText.toList ↔ ¬∃ first second, atoms = [[first], [second]] := by
  have length : options.newLine.length = atoms.flatten.length := by
    rw [cut.joined, String.length_toList]
  unfold lineBreakText
  split
  · next short =>
      constructor
      · rintro single ⟨first, second, same⟩
        have whole := (single atoms).1 cut
        rw [same] at whole
        simp at whole
      · intro several
        rw [single_iff]
        rcases atoms with _ | ⟨first, _ | ⟨second, others⟩⟩
        · exact absurd rfl written
        · rw [← cut.joined, List.flatten_singleton]
          exact cut.atom first (.head _)
        · -- Two atoms have no more than one character each, and there is no third one.
          rw [length] at short
          obtain ⟨here, there, more⟩ : first.length = 1 ∧ second.length = 1 ∧ others = [] := by
            have early := List.length_pos_iff.2 (cut.atom first (by simp)).ne_nil
            have late := List.length_pos_iff.2 (cut.atom second (by simp)).ne_nil
            have third : Cut others.flatten others :=
              ⟨fun atom among => cut.atom atom (by simp [among]), rfl⟩
            have rest := third.length_le
            simp only [List.flatten_cons, List.length_append] at short
            exact ⟨by omega, by omega, List.length_eq_zero_iff.1 (by omega)⟩
          obtain ⟨char, rfl⟩ := List.length_eq_one_iff.1 here
          obtain ⟨other, rfl⟩ := List.length_eq_one_iff.1 there
          exact absurd ⟨char, other, by rw [more]⟩ several
  · next long =>
      refine iff_of_true (single_iff.2 (atom_cluster cut.grouped)) ?_
      rintro ⟨first, second, rfl⟩
      exact long (Nat.le_of_eq length)

/-- A line break among all characters is in a group. -/
theorem Options.single_anyOrBreakText (cut : Cut options.newLine.toList atoms) :
    Single options.anyOrBreakText.toList := by
  have dot : Grouped "|.".toList := .char (by decide) (.char (by decide) .nil)
  have inner : Grouped (options.newLine ++ "|.").toList := by
    rw [String.toList_append]
    exact cut.grouped.append dot
  have text : options.anyOrBreakText = "(?:" ++ (options.newLine ++ "|.") ++ ")" := by
    rw [anyOrBreakText]
    simp [String.append_assoc]
  rw [text]
  exact single_iff.2 (atom_cluster inner)

/-- The classes that come without options list at least one character. -/
theorem CharClass.bracketed_body (letterClass : CharClass) :
    Bracketed .opened (letterClass.body {}).toList := by
  rcases letterClass with ⟨set, capital⟩
  apply bracketed_of_isBody <;> cases set <;> cases capital <;> decide

/-- A line break beside a class is in a group. -/
theorem CharClass.single_text (cut : Cut options.newLine.toList atoms)
    (bodies : ∀ set : ClassSet, set.members options = set.members {})
    (letterClass : CharClass) : Single (letterClass.text options true).toList := by
  have body : letterClass.body options = letterClass.body {} := by
    rw [CharClass.body, CharClass.body, bodies]
  have brackets : Grouped ("[" ++ letterClass.body {} ++ "]").toList := by
    simpa using Grouped.bracket letterClass.bracketed_body .nil
  have bar : Grouped "|".toList := .char (by decide) .nil
  have inner : Grouped ("[" ++ letterClass.body {} ++ "]" ++ "|" ++ options.newLine).toList := by
    rw [String.toList_append, String.toList_append]
    exact (brackets.append bar).append cut.grouped
  have text : letterClass.text options true =
      "(?:" ++ ("[" ++ letterClass.body {} ++ "]" ++ "|" ++ options.newLine) ++ ")" := by
    rw [CharClass.text, body]
    simp [String.append_assoc]
  rw [text]
  exact single_iff.2 (atom_cluster inner)

end

/-! ### Spellings -/

namespace Literal

/-- No operator is spelled as an atom with a line break. -/
theorem ofBreak?_operator (operator : Operator) (level : Magicness) (text : List Char) :
    ofBreak? (operator.spelling level ++ text) = none := by
  unfold Operator.spelling
  split <;> cases operator <;> rfl

/-- Behind a backslash only the one letter is a line break. -/
theorem eq_of_ofBreak?_pair {char : Char} {literal : Literal}
    (spelled : ofBreak? ['\\', char] = some literal) : char = 'n' := by
  unfold ofBreak? at spelled
  split at spelled
  · next same => exact (List.cons_eq_cons.1 (List.cons_eq_cons.1 same).2).1
  · next same => cases same
  · next same => cases same
  · cases spelled

/-- With an underscore each class letter asks for a line break as well. -/
theorem ofBreak?_class {letter : Char} {letterClass : CharClass}
    (names : CharClass.ofLetter? letter = some letterClass) :
    ofBreak? ['\\', '_', letter] = some (.charClass letterClass true) := by
  unfold ofBreak?
  split
  · next same => cases same
  · next same =>
      cases same
      cases names
  · next same =>
      cases same
      rw [names]
      rfl
  · next other => exact absurd rfl (other letter)

end Literal

/-- Outside collections, what is spelled as an atom with a line break is that atom. -/
theorem Context.SpellsOutside.eq_ofBreak {context : Context} {raw : List Char}
    {lexeme : Lexeme} (spells : context.SpellsOutside raw (.lexeme lexeme)) {literal : Literal}
    (spelled : Literal.ofBreak? raw = some literal) : lexeme = .literal literal := by
  cases spells with
  | operator active means =>
      rw [Literal.ofBreak?_operator] at spelled
      cases spelled
  | plain bare =>
      unfold Literal.ofBreak? at spelled
      split at spelled <;> simp_all
  | escaped meaningless =>
      obtain rfl := Literal.eq_of_ofBreak?_pair spelled
      cases meaningless
  | charClass names =>
      obtain rfl := Literal.eq_of_ofBreak?_pair spelled
      cases names
  | classOrBreak names =>
      rw [Literal.ofBreak?_class names] at spelled
      cases spelled
      rfl
  | backReference range =>
      obtain rfl := Literal.eq_of_ofBreak?_pair spelled
      exact absurd range (by decide)
  | collectionOrBreak text =>
      generalize text.take (Collection.readOpening true text).2 = taken at spelled
      cases taken <;> cases spelled
  | _ => cases spelled <;> rfl

/-- What is spelled as an atom with a line break is that atom or a member of a collection. -/
theorem Context.Spells.eq_ofBreak {context : Context} {raw : List Char} {lexeme : Lexeme}
    (spells : context.Spells raw (.lexeme lexeme))
    (outside : ∃ literal, lexeme = .literal literal) {literal : Literal}
    (spelled : Literal.ofBreak? raw = some literal) : lexeme = .literal literal := by
  cases spells with
  | outside _ spells => exact spells.eq_ofBreak spelled
  | inside _ spells =>
      obtain ⟨_, rfl⟩ := outside
      cases spells

/-- Take options whose line break is put together from atoms and whose classes are the usual
ones.  In every pattern the text for an atom with a line break is a single atom of the target,
except for that of a line break alone where the options have two characters for it that are an
atom each. -/
theorem single_text_iff {style : Style} {atoms : List (List Char)}
    (cut : Cut style.options.newLine.toList atoms) (written : atoms ≠ [])
    (bodies : ∀ set : ClassSet, set.members style.options = set.members {})
    {level : Magicness} {pattern : String} {token : Token}
    (among : token ∈ (Scan.ofPattern level pattern).tokens)
    (outside : ∃ literal, token.lexeme = .literal literal) {literal : Literal}
    (spelled : Literal.ofBreak? token.raw.toList = some literal) :
    Single (token.text style).toList ↔
      (token.raw = "\\n" → ¬∃ first second, atoms = [[first], [second]]) := by
  obtain ⟨context, _, spells⟩ := (Scan.located_ofPattern level pattern token among).spelled
  have lexeme : token.lexeme = .literal literal := spells.eq_ofBreak outside spelled
  have text : token.text style = literal.text style := by rw [Token.text, lexeme]
  rw [text]
  unfold Literal.ofBreak? at spelled
  split at spelled
  · next raw =>
      cases spelled
      have same : token.raw = "\\n" := String.toList_inj.1 raw
      rw [Literal.text, Options.single_lineBreakText_iff cut written]
      exact ⟨fun single _ => single, fun single => single same⟩
  · next raw =>
      cases spelled
      refine iff_of_true (Options.single_anyOrBreakText cut) fun same => ?_
      rw [same] at raw
      cases raw
  · next raw =>
      obtain ⟨letterClass, _, rfl⟩ := Option.map_eq_some_iff.1 spelled
      refine iff_of_true (letterClass.single_text cut bodies) fun same => ?_
      rw [same] at raw
      cases raw
  · cases spelled

/-- A line break of two escapes is put into a group, so that a star repeats both. -/
theorem single_text_grouped :
    let style : Style := { options := { newLine := "\\r\\n" } }
    let token : Token :=
      { lexeme := .literal .lineBreak, raw := "\\n", position := 1, magicness := .magic }
    Cut style.options.newLine.toList [['\\', 'r'], ['\\', 'n']] ∧
      convertText style.options "a\\n*" = .ok "a(?:\\r\\n)*" ∧
        token ∈ (Scan.ofPattern .magic "a\\n*").tokens ∧
          token.text style = "(?:\\r\\n)" ∧ Single (token.text style).toList := by
  intro style token
  have escapes : ∀ atom ∈ [['\\', 'r'], ['\\', 'n']], Atom atom :=
    List.forall_mem_cons.2
      ⟨.escape rfl nofun, List.forall_mem_singleton.2 (.escape rfl nofun)⟩
  have cut : Cut style.options.newLine.toList [['\\', 'r'], ['\\', 'n']] :=
    ⟨escapes, by decide⟩
  have among : token ∈ (Scan.ofPattern .magic "a\\n*").tokens := by decide +kernel
  have spelled : Literal.ofBreak? token.raw.toList = some .lineBreak := by decide
  have single : Single (token.text style).toList :=
    (single_text_iff cut nofun (fun _ => rfl) among ⟨.lineBreak, rfl⟩ spelled).2
      fun _ ⟨_, _, same⟩ => by cases same
  exact ⟨cut, by decide +kernel, among, by decide, single⟩

/-- A line break of two characters that stand for themselves is left as it is, and a star
behind it repeats the last one only. -/
theorem single_text_differs :
    let style : Style := { options := { newLine := "\r\n" } }
    let token : Token :=
      { lexeme := .literal .lineBreak, raw := "\\n", position := 1, magicness := .magic }
    Cut style.options.newLine.toList [['\r'], ['\n']] ∧
      convertText style.options "a\\n*" = .ok "a\r\n*" ∧
        token ∈ (Scan.ofPattern .magic "a\\n*").tokens ∧
          token.text style = "\r\n" ∧ ¬Single (token.text style).toList := by
  intro style token
  have chars : ∀ atom ∈ [['\r'], ['\n']], Atom atom :=
    List.forall_mem_cons.2
      ⟨.char (by decide), List.forall_mem_singleton.2 (.char (by decide))⟩
  have cut : Cut style.options.newLine.toList [['\r'], ['\n']] := ⟨chars, by decide⟩
  have text : token.text style = "\r\n" := by decide
  refine ⟨cut, by decide +kernel, by decide +kernel, text, fun single => ?_⟩
  rw [text] at single
  have whole := (single [['\r'], ['\n']]).1 cut
  exact absurd (congrArg List.length whole) (by decide)

end VimPattern
