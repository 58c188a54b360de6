/-
Module: VimPattern.Proofs.Scan.Admission
Purpose: What the rules can read in a given context.
Main exports:
  Lexeme.Readable, Lexeme.StandsIn, Lexeme.StandsIn.eq_none, Lexeme.CountsOn, Context.Admits,
  Context.admits_of_verdict
-/
import VimPattern.Proofs.Scan.Rules

namespace VimPattern

/-!
The rules are many, but what later theorems need to know about a lexeme they read
is little: its characters are such that its text can be written down, it belongs
on the side of a collection where it was read, and its number is the next one.
-/

/-- The characters that the lexeme carries can be written in the target by the
rules for its sort. -/
def Lexeme.Readable : Lexeme → Prop
  | .literal (.plain char) => char ≠ '\\'
  | .member (.plain char) => char ≠ '\\' ∧ char ≠ ']'
  | .quantifier (.counted braces) =>
      (∀ digit ∈ braces.low, digit.isDigit) ∧ ∀ digit ∈ braces.high, digit.isDigit
  | _ => True

/-- The lexeme can stand inside a collection, or outside of one. -/
def Lexeme.StandsIn (collection? : Option Bool) (lexeme : Lexeme) : Prop :=
  match collection?, lexeme with
  | some _, .member _ => True
  | some withBreak, .collectionClose closing => closing = withBreak
  | some _, _ => False
  | none, .member _ | none, .collectionClose _ => False
  | none, _ => True

/-- What cannot stand inside a collection stands outside of one. -/
theorem Lexeme.StandsIn.eq_none {collection? : Option Bool} {lexeme : Lexeme}
    (standsIn : lexeme.StandsIn collection?)
    (foreign : ∀ withBreak, ¬lexeme.StandsIn (some withBreak)) : collection? = none := by
  cases collection? with
  | none => rfl
  | some withBreak => exact absurd standsIn (foreign withBreak)

/-- A lexeme that is counted comes next after those that the tally holds. -/
def Lexeme.CountsOn (tally : Tally) : Lexeme → Prop
  | .groupOpen (.capturing number) => number = tally.plainGroups + 1
  | .groupOpen (.external number) => number = tally.externalGroups + 1
  | .literal (.matchStart first) => first = !tally.matchStart
  | .literal (.matchEnd first) => first = !tally.matchEnd
  | _ => True

/-- The lexeme can be read in this context. -/
structure Context.Admits (context : Context) (lexeme : Lexeme) : Prop where
  readable : lexeme.Readable
  standsIn : lexeme.StandsIn context.collection?
  countsOn : lexeme.CountsOn context.tally

/-- The content can be read in this context.  Items without a token stand outside
collections. -/
def Content.Admitted (context : Context) : Content → Prop
  | .lexeme token => context.Admits token
  | .mark _ => context.collection? = none

/-- Bounds that are read between braces are digits. -/
theorem Braces.readable_of_read? {closingEscape : Bool} {text : List Char} {braces : Braces}
    {taken : Nat} (read : Braces.read? closingEscape text = some (braces, taken)) :
    (Lexeme.quantifier (.counted braces)).Readable := by
  have digits (written : List Char) :
      ∀ digit ∈ written.takeWhile Char.isDigit, digit.isDigit :=
    List.all_eq_true.1 List.all_takeWhile
  unfold Braces.read? at read
  dsimp only at read
  split at read
  · cases read
    exact ⟨digits _, digits _⟩
  · split at read <;> cases read
    exact ⟨digits _, digits _⟩
  · cases read

section
variable {context : Context} (outside : context.collection? = none)
include outside

/-- Most lexemes are admitted everywhere outside collections. -/
theorem Context.admits_of_outside {lexeme : Lexeme} (readable : lexeme.Readable)
    (standsIn : lexeme.StandsIn none) (countsOn : lexeme.CountsOn context.tally) :
    context.Admits lexeme :=
  ⟨readable, outside ▸ standsIn, countsOn⟩

/-- Items outside collections. -/
theorem Context.SpellsOutside.admitted {raw : List Char} {content : Content}
    (spells : context.SpellsOutside raw content) : content.Admitted context := by
  cases spells with
  | operator active means =>
      cases means with
      | lastSubstitute => exact outside
      | literalStar =>
          exact Context.admits_of_outside outside (by simp [Lexeme.Readable]) trivial trivial
      | groupOpen => exact Context.admits_of_outside outside trivial trivial rfl
      | braces read =>
          exact Context.admits_of_outside outside (Braces.readable_of_read? read) trivial trivial
      | _ => exact Context.admits_of_outside outside trivial trivial trivial
  | switch | combining | caseMarker | editorPosition => exact outside
  | plain bare => exact Context.admits_of_outside outside bare trivial trivial
  | matchStart | matchEnd | externalGroup =>
      exact Context.admits_of_outside outside trivial trivial rfl
  | _ => exact Context.admits_of_outside outside trivial trivial trivial

end

/-- Items inside a collection. -/
theorem Collection.Spells.admitted {context : Context} {withBreak : Bool}
    (inside : context.collection? = some withBreak) {raw : List Char} {content : Content}
    (spells : Collection.Spells withBreak raw content) : content.Admitted context := by
  cases spells with
  | closing => exact ⟨trivial, inside ▸ rfl, trivial⟩
  | plain notBackslash notClosing =>
      exact ⟨⟨notBackslash, notClosing⟩, inside ▸ trivial, trivial⟩
  | _ => exact ⟨trivial, inside ▸ trivial, trivial⟩

namespace Context

/-- Whatever is read in a context is admitted by it. -/
theorem Spells.admitted {context : Context} {raw : List Char} {content : Content}
    (spells : context.Spells raw content) : content.Admitted context := by
  cases spells with
  | outside outside spells => exact spells.admitted outside
  | inside inside spells => exact spells.admitted inside

/-- A lexeme that is read in a context is admitted by it. -/
theorem admits_of_verdict {context : Context} {char : Char} {text : List Char}
    {lexeme : Lexeme} {extra : Nat}
    (verdict : context.verdict char text = .item (.lexeme lexeme) extra) :
    context.Admits lexeme :=
  (spells_of_verdict verdict).admitted

/-- An item without a token is read outside collections only. -/
theorem outside_of_mark {context : Context} {char : Char} {text : List Char} {mark : Mark}
    {extra : Nat} (verdict : context.verdict char text = .item (.mark mark) extra) :
    context.collection? = none :=
  (spells_of_verdict verdict).admitted

end Context

end VimPattern
