/-
Module: VimPattern.Proofs.Scan.Rules
Purpose: The items that can be read, one rule for each way to spell them.
Main exports:
  hasMeaning, Operator.Means, Context.SpellsOutside, Collection.Spells,
  Context.verdict_outside, Context.verdict_operator, Context.verdict_inside, Context.Spells,
  Context.spells_of_verdict, Context.spellsOutside_of_verdict
-/
import VimPattern.Scan.Verdict

namespace VimPattern

/-!
A verdict is computed from the text at a place.  Here the other side is written down: which
texts are items, what they mean, and under which conditions.  Whatever is claimed of all items
is then shown rule by rule, without looking at how the verdict is found.
-/

/-- Behind a backslash the character means the same at every level. -/
def hasMeaning (char : Char) : Bool :=
  (Magicness.ofSwitch? char).isSome || (CharClass.ofLetter? char).isSome ||
    char ∈ ['n', 'Z', 'c', 'C'] || decide ('1' ≤ char ∧ char ≤ '9')

/-- What an operator means before this text, and how many characters of the text belong to
it. -/
inductive Operator.Means (context : Context) (escaped : Bool) (text : List Char) :
    Operator → Content → Nat → Prop where
  | anyChar : Means context escaped text .anyChar (.lexeme (.literal .anyChar)) 0
  | literalStar (nothing : context.starIsLiteral = true) (bare : escaped = false) :
      Means context escaped text .star (.lexeme (.literal (.plain '*'))) 0
  | star (something : (context.starIsLiteral && !escaped) = false) :
      Means context escaped text .star (.lexeme (.quantifier .star)) 0
  | lastSubstitute : Means context escaped text .lastSubstitute (.mark .lastSubstitute) 0
  | collection :
      Means context escaped text .collection
        (.lexeme (.collectionOpen (Collection.readOpening false text).1))
        (Collection.readOpening false text).2
  | dollar : Means context escaped text .dollar (.lexeme .dollar) 0
  | caret : Means context escaped text .caret (.lexeme .caret) 0
  | groupOpen :
      Means context escaped text .groupOpen
        (.lexeme (.groupOpen (.capturing (context.tally.plainGroups + 1)))) 0
  | groupClose : Means context escaped text .groupClose (.lexeme .groupClose) 0
  | alternative : Means context escaped text .alternative (.lexeme .alternative) 0
  | conjunction : Means context escaped text .conjunction (.lexeme .conjunction) 0
  | plus : Means context escaped text .plus (.lexeme (.quantifier .plus)) 0
  | question : Means context escaped text .question (.lexeme (.quantifier .optional)) 0
  | equals : Means context escaped text .equals (.lexeme (.quantifier .optional)) 0
  | braces {count : Braces} {taken : Nat}
      (read : Braces.read? escaped text = some (count, taken)) :
      Means context escaped text .braces (.lexeme (.quantifier (.counted count))) taken
  | assertion {test : Assertion} {taken : Nat}
      (read : Assertion.read? text = some (test, taken)) :
      Means context escaped text .assertion (.lexeme (.assertion test)) taken
  | wordStart : Means context escaped text .wordStart (.lexeme (.literal .wordStart)) 0
  | wordEnd : Means context escaped text .wordEnd (.lexeme (.literal .wordEnd)) 0

theorem Operator.means_of_read? {context : Context} {operator : Operator} {escaped : Bool}
    {text : List Char} {content : Content} {taken : Nat}
    (read : operator.read? context escaped text = some (content, taken)) :
    operator.Means context escaped text content taken := by
  cases operator with
  | star =>
      rw [read?] at read
      split at read
      · next literal =>
          cases read
          obtain ⟨nothing, bare⟩ := Bool.and_eq_true_iff.1 literal
          exact .literalStar nothing (by simpa using bare)
      · next something =>
          cases read
          exact .star (Bool.eq_false_iff.2 something)
  | braces =>
      obtain ⟨⟨count, length⟩, found, same⟩ := Option.map_eq_some_iff.1 read
      cases same
      exact .braces found
  | assertion =>
      obtain ⟨⟨test, length⟩, found, same⟩ := Option.map_eq_some_iff.1 read
      cases same
      exact .assertion found
  | _ =>
      cases read
      constructor

/-- The items outside collections with their spelling. -/
inductive Context.SpellsOutside (context : Context) : List Char → Content → Prop where
  | operator {operator : Operator} {escaped : Bool} {text : List Char} {content : Content}
      {taken : Nat} (active : operator.isActive context.magicness escaped)
      (means : operator.Means context escaped text content taken) :
      SpellsOutside context (operator.spelling context.magicness ++ text.take taken) content
  | plain {char : Char} (bare : char ≠ '\\') :
      SpellsOutside context [char] (.lexeme (.literal (.plain char)))
  | escaped {char : Char} (meaningless : hasMeaning char = false) :
      SpellsOutside context ['\\', char] (.lexeme (.literal (.escaped char)))
  | switch {char : Char} {level : Magicness} (switches : Magicness.ofSwitch? char = some level) :
      SpellsOutside context ['\\', char] (.mark (.switch level))
  | combining : SpellsOutside context ['\\', 'Z'] (.mark .combining)
  | caseMarker (fold : Bool) :
      SpellsOutside context ['\\', if fold then 'c' else 'C'] (.mark (.caseMarker fold))
  | editorPosition {text : List Char} {taken : Nat}
      (read : editorPositionLength? text = some taken) :
      SpellsOutside context ('\\' :: '%' :: text.take taken) (.mark .editorPosition)
  | charClass {letter : Char} {letterClass : CharClass}
      (names : CharClass.ofLetter? letter = some letterClass) :
      SpellsOutside context ['\\', letter] (.lexeme (.literal (.charClass letterClass false)))
  | classOrBreak {letter : Char} {letterClass : CharClass}
      (names : CharClass.ofLetter? letter = some letterClass) :
      SpellsOutside context ['\\', '_', letter]
        (.lexeme (.literal (.charClass letterClass true)))
  | lineBreak : SpellsOutside context ['\\', 'n'] (.lexeme (.literal .lineBreak))
  | lineStart : SpellsOutside context ['\\', '_', '^'] (.lexeme (.literal .lineStart))
  | lineEnd : SpellsOutside context ['\\', '_', '$'] (.lexeme (.literal .lineEnd))
  | anyOrBreak : SpellsOutside context ['\\', '_', '.'] (.lexeme (.literal .anyOrBreak))
  | textStart : SpellsOutside context ['\\', '%', '^'] (.lexeme (.literal .textStart))
  | textEnd : SpellsOutside context ['\\', '%', '$'] (.lexeme (.literal .textEnd))
  | matchStart :
      SpellsOutside context ['\\', 'z', 's']
        (.lexeme (.literal (.matchStart !context.tally.matchStart)))
  | matchEnd :
      SpellsOutside context ['\\', 'z', 'e']
        (.lexeme (.literal (.matchEnd !context.tally.matchEnd)))
  | codePoint {text : List Char} {char : Char} {taken : Nat}
      (read : CodePoint.read? text = some (some char, taken)) :
      SpellsOutside context ('\\' :: '%' :: text.take taken)
        (.lexeme (.literal (.codePoint char)))
  | backReference {digit : Char} (range : '1' ≤ digit ∧ digit ≤ '9') :
      SpellsOutside context ['\\', digit]
        (.lexeme (.literal (.backReference (digit.toNat - 48))))
  | externalReference {digit : Char} (range : '1' ≤ digit ∧ digit ≤ '9') :
      SpellsOutside context ['\\', 'z', digit]
        (.lexeme (.literal (.externalReference (digit.toNat - 48))))
  | collectionOrBreak (text : List Char) :
      SpellsOutside context ('\\' :: '_' :: '[' :: text.take (Collection.readOpening true text).2)
        (.lexeme (.collectionOpen (Collection.readOpening true text).1))
  | externalGroup :
      SpellsOutside context ['\\', 'z', '(']
        (.lexeme (.groupOpen (.external (context.tally.externalGroups + 1))))
  | cluster : SpellsOutside context ['\\', '%', '('] (.lexeme (.groupOpen .nonCapturing))
  | bareCluster (veryMagic : context.magicness = .veryMagic) :
      SpellsOutside context ['%', '('] (.lexeme (.groupOpen .nonCapturing))
  | optional : SpellsOutside context ['\\', '%', '['] (.lexeme .optionalOpen)
  | bareOptional (veryMagic : context.magicness = .veryMagic) :
      SpellsOutside context ['%', '['] (.lexeme .optionalOpen)
  | optionalClose (inside : context.region = .optionalMatch) :
      SpellsOutside context [']'] (.lexeme .optionalClose)

/-- The items inside a collection with their spelling. -/
inductive Collection.Spells (withBreak : Bool) : List Char → Content → Prop where
  | closing : Spells withBreak [']'] (.lexeme (.collectionClose withBreak))
  | plain {char : Char} (notBackslash : char ≠ '\\') (notClosing : char ≠ ']') :
      Spells withBreak [char] (.lexeme (.member (.plain char)))
  | escaped {char : Char} (known : char ∈ ['r', 't', 'n', '\\', ']', '^', '-', 'e', 'b']) :
      Spells withBreak ['\\', char] (.lexeme (.member (.escaped char)))
  | backslash : Spells withBreak ['\\'] (.lexeme (.member .backslash))
  | dashPair : Spells withBreak ['-', '-'] (.lexeme (.member .dashPair))
  | codePoint {text : List Char} {char : Char} {taken : Nat} (percent : Bool)
      (read : CodePoint.read? text = some (some char, taken)) :
      Spells withBreak ('\\' :: ((if percent then ['%'] else []) ++ text.take taken))
        (.lexeme (.member (.codePoint char)))
  | named {text name : List Char} {namedClass : NamedClass}
      (read : Verdict.className? text = some name)
      (found : NamedClass.ofName? (String.ofList name) = some namedClass) :
      Spells withBreak ('[' :: text.take (name.length + 3))
        (.lexeme (.member (.named namedClass)))
  | equivalent {opening char closing : Char} (notClosing : char ≠ ']')
      (brackets : opening ∈ ['=', '.'] ∧ closing ∈ ['=', '.']) :
      Spells withBreak ['[', opening, char, closing, ']']
        (.lexeme (.member (.equivalent char)))

/-- Inside a collection: whether it also accepts a line break. -/
def Context.collection? (context : Context) : Option Bool :=
  match context.enclosing with
  | { construct := .collection withBreak, position := _ } :: _ => some withBreak
  | _ => none

/-- Inside an optional sequence and outside all constructs no collection is open, and nowhere
else. -/
theorem Context.collection?_eq_none_iff {context : Context} :
    context.collection? = none ↔
      context.region = .initial ∨ context.region = .optionalMatch := by
  rcases context with ⟨level, _ | ⟨⟨_ | _, place⟩, outer⟩, star, line, tally⟩ <;>
    simp [collection?, region, Construct.region]

theorem Context.collection?_eq_none {context : Context}
    (state : context.region = .initial ∨ context.region = .optionalMatch) :
    context.collection? = none :=
  collection?_eq_none_iff.2 state

/-- Outside collections the rules for the outside apply. -/
theorem Context.verdict_outside {context : Context} (outside : context.collection? = none)
    (char : Char) (text : List Char) :
    context.verdict char text = Verdict.outside context char text := by
  unfold Context.verdict
  split
  · next enclosing =>
      rw [collection?, enclosing] at outside
      cases outside
  · rfl

/-- An operator that is spelled as the level asks for is read as it. -/
theorem Context.verdict_operator {context : Context} (outside : context.collection? = none)
    {operator : Operator} {escaped : Bool} (active : operator.isActive context.magicness escaped)
    {text : List Char} {content : Content} {taken : Nat}
    (read : operator.read? context escaped text = some (content, taken)) :
    ∃ char others extra, operator.spelling context.magicness ++ text = char :: others ∧
      context.verdict char others = .item content extra ∧
        others.drop extra = text.drop taken := by
  rw [Operator.spelling_of_isActive active]
  cases escaped with
  | true =>
      refine ⟨'\\', operator.char :: text, taken + 1, rfl, ?_, rfl⟩
      rw [verdict_outside outside, Verdict.outside, if_pos rfl, Verdict.escaped,
        Operator.ofChar?_char]
      dsimp only
      rw [if_pos active, read]
  | false =>
      have notEscape : operator.char ≠ '\\' := by cases operator <;> decide
      refine ⟨operator.char, text, taken, rfl, ?_, rfl⟩
      rw [verdict_outside outside, Verdict.outside, if_neg notEscape]
      unfold Verdict.bare
      rw [Operator.ofChar?_char]
      dsimp only
      rw [if_pos active, read]

/-- Inside a collection the rules for collections apply. -/
theorem Context.verdict_inside {context : Context} {withBreak : Bool}
    (inside : context.collection? = some withBreak) (char : Char) (text : List Char) :
    context.verdict char text = Verdict.inCollection withBreak char text := by
  unfold Context.verdict
  split
  · next enclosing =>
      rw [collection?, enclosing] at inside
      cases inside
      rfl
  · next noCollection =>
      unfold collection? at inside
      split at inside
      · next enclosing => exact absurd enclosing (noCollection _ _ _)
      · cases inside

/-- The items that can be read in a context, with their spelling. -/
inductive Context.Spells (context : Context) (raw : List Char) (content : Content) : Prop where
  | outside (outside : context.collection? = none)
      (spells : context.SpellsOutside raw content)
  | inside {withBreak : Bool} (inside : context.collection? = some withBreak)
      (spells : Collection.Spells withBreak raw content)

/-- If the verdict is an item, it is one of these with its spelling. -/
def Verdict.IsSpelled (spells : List Char → Content → Prop) (raw : Nat → List Char) :
    Verdict → Prop
  | .item content extra => spells (raw extra) content
  | .fault _ _ | .noRule => True

namespace Verdict

section
variable (context : Context)

theorem isSpelled_afterUnderscore (text : List Char) :
    (afterUnderscore text).IsSpelled context.SpellsOutside fun extra =>
      '\\' :: ('_' :: text).take extra := by
  unfold afterUnderscore
  split
  · exact .lineStart
  · exact .lineEnd
  · exact .anyOrBreak
  · exact .collectionOrBreak _
  · split
    · next names => exact .classOrBreak names
    · exact .escaped rfl
  · exact .escaped rfl

theorem isSpelled_afterZ (text : List Char) :
    (afterZ context text).IsSpelled context.SpellsOutside fun extra =>
      '\\' :: ('z' :: text).take extra := by
  unfold afterZ
  split
  · exact .matchStart
  · exact .matchEnd
  · exact .externalGroup
  · split
    · next range => exact .externalReference range
    · exact .escaped rfl
  · exact .escaped rfl

theorem isSpelled_afterPercent (text : List Char) :
    (afterPercent text).IsSpelled context.SpellsOutside fun extra =>
      '\\' :: ('%' :: text).take extra := by
  unfold afterPercent
  split
  · exact .textStart
  · exact .textEnd
  · exact .cluster
  · exact .optional
  · split
    · next read => exact .editorPosition read
    · split
      · next found _ read =>
          cases found with
          | none => trivial
          | some char => exact .codePoint read
      · exact .escaped rfl

theorem isSpelled_afterBackslash (char : Char) (text : List Char) :
    (afterBackslash context char text).IsSpelled context.SpellsOutside fun extra =>
      '\\' :: (char :: text).take extra := by
  unfold afterBackslash
  split
  · next switches => exact .switch switches
  · next noSwitch =>
      split
      · next names => exact .charClass names
      · next noClass =>
          split
          · exact .lineBreak
          · exact isSpelled_afterUnderscore context text
          · exact isSpelled_afterZ context text
          · exact isSpelled_afterPercent context text
          · exact .combining
          · exact .caseMarker true
          · exact .caseMarker false
          · split
            · next range => exact .backReference range
            · next range =>
                apply Context.SpellsOutside.escaped
                simp_all [hasMeaning]

theorem isSpelled_escaped (text : List Char) :
    (escaped context text).IsSpelled context.SpellsOutside fun extra =>
      '\\' :: text.take extra := by
  unfold escaped
  split
  · trivial
  · next char text =>
      split
      · next operator found =>
          obtain rfl := Operator.char_of_ofChar? found
          have meaningless : hasMeaning operator.char = false := by
            cases operator <;> rfl
          split
          · next active =>
              split
              · next read =>
                  have spelled := Context.SpellsOutside.operator active
                    (Operator.means_of_read? read)
                  rw [Operator.spelling_of_isActive active] at spelled
                  exact spelled
              · exact .escaped meaningless
          · exact .escaped meaningless
      · exact isSpelled_afterBackslash context char text

theorem isSpelled_bare {char : Char} (notEscape : char ≠ '\\') (text : List Char) :
    (bare context char text).IsSpelled context.SpellsOutside fun extra =>
      char :: text.take extra := by
  unfold bare
  split
  · next operator found =>
      obtain rfl := Operator.char_of_ofChar? found
      split
      · next active =>
          split
          · next read =>
              have spelled := Context.SpellsOutside.operator active
                    (Operator.means_of_read? read)
              rw [Operator.spelling_of_isActive active] at spelled
              exact spelled
          · trivial
      · exact .plain notEscape
  · split
    · split
      · next veryMagic => exact .bareCluster veryMagic
      · exact .plain notEscape
    · split
      · next veryMagic => exact .bareOptional veryMagic
      · exact .plain notEscape
    · split
      · next inside => exact .optionalClose inside
      · exact .plain notEscape
    · exact .plain notEscape

end

section
variable (withBreak : Bool)

theorem isSpelled_backslashMember (text : List Char) :
    (backslashMember text).IsSpelled (Collection.Spells withBreak) fun extra =>
      '\\' :: text.take extra := by
  unfold backslashMember
  dsimp only
  split
  · next found taken read =>
      cases found with
      | none => trivial
      | some char =>
          by_cases percent : text.head? == some '%'
          · obtain ⟨number, rfl⟩ := List.head?_eq_some_iff.1 (eq_of_beq percent)
            have spelled := @Collection.Spells.codePoint withBreak _ _ _ true read
            rw [if_pos percent, Nat.add_comm]
            exact spelled
          · rw [if_neg percent] at read ⊢
            have spelled := @Collection.Spells.codePoint withBreak _ _ _ false read
            rw [Nat.zero_add]
            exact spelled
  · split
    · split
      · next known => exact .escaped known
      · exact .backslash
    · exact .backslash

theorem isSpelled_bracketMember (text : List Char) :
    (bracketMember text).IsSpelled (Collection.Spells withBreak) fun extra =>
      '[' :: text.take extra := by
  have bracket : Collection.Spells withBreak ['['] (.lexeme (.member (.plain '['))) :=
    .plain (by decide) (by decide)
  unfold bracketMember
  split
  · next read =>
      split
      · next found => exact .named read found
      · trivial
  · split
    · split
      · next brackets => exact .equivalent brackets.2.2 ⟨brackets.1, brackets.2.1⟩
      · exact bracket
    · exact bracket

theorem isSpelled_inCollection (char : Char) (text : List Char) :
    (inCollection withBreak char text).IsSpelled (Collection.Spells withBreak) fun extra =>
      char :: text.take extra := by
  unfold inCollection
  split
  · exact .closing
  · exact isSpelled_bracketMember withBreak text
  · exact isSpelled_backslashMember withBreak text
  · split
    · next second =>
        obtain ⟨others, rfl⟩ := List.head?_eq_some_iff.1 (eq_of_beq second)
        exact .dashPair
    · exact .plain (by decide) (by decide)
  · next notClosing _ notBackslash _ => exact .plain notBackslash notClosing

end

end Verdict

/-- Whatever is read has been spelled by one of the rules. -/
theorem Context.spells_of_verdict {context : Context} {char : Char} {text : List Char}
    {content : Content} {extra : Nat}
    (verdict : context.verdict char text = .item content extra) :
    context.Spells (char :: text.take extra) content := by
  unfold Context.verdict at verdict
  split at verdict
  · next withBreak place outer enclosing =>
      have inside : context.collection? = some withBreak := by
        rw [collection?, enclosing]
      have spelled := Verdict.isSpelled_inCollection withBreak char text
      rw [verdict] at spelled
      exact .inside inside spelled
  · next noCollection =>
      have outside : context.collection? = none := by
        unfold collection?
        split
        · next enclosing => exact absurd enclosing (noCollection _ _ _)
        · rfl
      unfold Verdict.outside at verdict
      split at verdict
      · next escape =>
          have spelled := Verdict.isSpelled_escaped context text
          rw [verdict] at spelled
          exact .outside outside (escape ▸ spelled)
      · next notEscape =>
          have spelled := Verdict.isSpelled_bare context notEscape text
          rw [verdict] at spelled
          exact .outside outside spelled

/-- Outside collections it has been spelled by one of the rules for there. -/
theorem Context.spellsOutside_of_verdict {context : Context} {char : Char} {text : List Char}
    {content : Content} {extra : Nat}
    (verdict : context.verdict char text = .item content extra)
    (outside : context.collection? = none) :
    context.SpellsOutside (char :: text.take extra) content := by
  cases spells_of_verdict verdict with
  | outside _ spells => exact spells
  | inside inside _ =>
      rw [outside] at inside
      cases inside

end VimPattern
