/-
Module: VimPattern.Proofs.Wording.Census
Purpose: The facts about a pattern are those that its items show.
Main exports:
  Notable, Notable.ofSpelling?, Notable.text?, Content.isOutside, Item.notable?,
  Context.Spells.notable?_eq, Context.Accounts, Scan.Reaches.accounts, metadata_of_convert
-/
import VimPattern.Proofs.Wording.Plain

namespace VimPattern

/-!
While a pattern is read, a tally is kept of the external groups, of the references and of the
limits of the match, and the level changes.  Here the books are checked against the items.  An
item outside collections is recognized by its spelling alone, at every level, and what has been
noted at a place of the pattern is what the items in front of it amount to.  Inside a
collection nothing is noted, whatever it looks like.
-/

/-! ### What the items are -/

/-- The items that the facts about a pattern are about. -/
inductive Notable where
  | externalGroup
  | externalReference (number : Nat)
  | backReference (number : Nat)
  | matchStart
  | matchEnd
  | switch (level : Magicness)
deriving Repr, DecidableEq

namespace Notable

/-- What a backslash and this character are. -/
def ofEscape? (char : Char) : Option Notable :=
  if '1' ≤ char ∧ char ≤ '9' then some (.backReference (char.toNat - 48))
  else (Magicness.ofSwitch? char).map .switch

/-- What a backslash, the letter `z` and this character are. -/
def ofZ? : Char → Option Notable
  | '(' => some .externalGroup
  | 's' => some .matchStart
  | 'e' => some .matchEnd
  | char =>
      if '1' ≤ char ∧ char ≤ '9' then some (.externalReference (char.toNat - 48)) else none

/-- What is spelled like this, outside collections. -/
def ofSpelling? : List Char → Option Notable
  | [escape, char] => if escape = '\\' then ofEscape? char else none
  | [escape, letter, char] => if escape = '\\' ∧ letter = 'z' then ofZ? char else none
  | _ => none

/-- The number of an external reference. -/
def externalNumber? : Notable → Option Nat
  | .externalReference number => some number
  | _ => none

/-- The level that a switch selects. -/
def level? : Notable → Option Magicness
  | .switch level => some level
  | _ => none

/-- The highest number of an external reference, or zero if there is none. -/
def highestExternal (notables : List Notable) : Nat :=
  (notables.filterMap externalNumber?).foldl max 0

/-- The level that the last switch selects, or this one if there is none. -/
def lastLevel (level : Magicness) (notables : List Notable) : Magicness :=
  (notables.filterMap level?).getLast?.getD level

@[simp] theorem highestExternal_append (front : List Notable) (notable : Notable) :
    highestExternal (front ++ [notable]) =
      max (highestExternal front) (notable.externalNumber?.getD 0) := by
  cases notable <;> simp [highestExternal, externalNumber?, List.filterMap_cons]

@[simp] theorem lastLevel_append (level : Magicness) (front : List Notable)
    (notable : Notable) :
    lastLevel level (front ++ [notable]) = notable.level?.getD (lastLevel level front) := by
  cases notable <;>
    simp [lastLevel, level?, List.filterMap_cons, -List.getLast?_filterMap]

/-- The text of an external group, or of a limit of the match, behind these others.  The groups
are numbered, and only the first limit of each sort becomes a group with a name. -/
def text? (before : List Notable) : Notable → Option String
  | .externalGroup => some ("(?<z" ++ toString (before.count .externalGroup + 1) ++ ">")
  | .matchStart => some (if .matchStart ∈ before then "(?:)" else "(?<zs>)")
  | .matchEnd => some (if .matchEnd ∈ before then "(?:)" else "(?<ze>)")
  | _ => none

end Notable

/-- The item stands outside collections. -/
def Content.isOutside : Content → Bool
  | .lexeme (.member _) | .lexeme (.collectionClose _) => false
  | _ => true

/-- What the item is, as its spelling tells. -/
def Item.notable? (item : Item) : Option Notable :=
  if item.content.isOutside then Notable.ofSpelling? item.raw.toList else none

/-- What an item with this content is. -/
def Content.notable? : Content → Option Notable
  | .mark (.switch level) => some (.switch level)
  | .lexeme (.groupOpen (.external _)) => some .externalGroup
  | .lexeme (.literal (.matchStart _)) => some .matchStart
  | .lexeme (.literal (.matchEnd _)) => some .matchEnd
  | .lexeme (.literal (.backReference number)) => some (.backReference number)
  | .lexeme (.literal (.externalReference number)) => some (.externalReference number)
  | _ => none

/-! ### Spellings -/

/-- Only a backslash makes an item notable. -/
theorem Notable.ofSpelling?_bare {char : Char} (bare : char ≠ '\\') (text : List Char) :
    ofSpelling? (char :: text) = none := by
  rcases text with _ | ⟨second, _ | ⟨third, _ | _⟩⟩
  · rfl
  · exact if_neg bare
  · exact if_neg (bare ∘ And.left)
  · rfl

/-- Behind a backslash only the letter `z`, a digit or the letter of a switch does. -/
theorem Notable.ofSpelling?_escape {char : Char} (notZ : char ≠ 'z')
    (meaningless : ofEscape? char = none) (text : List Char) :
    ofSpelling? ('\\' :: char :: text) = none := by
  rcases text with _ | ⟨third, _ | _⟩
  · exact meaningless
  · exact if_neg (notZ ∘ And.right)
  · rfl

/-- No digit stands for a class. -/
theorem CharClass.not_digit {letter : Char} {letterClass : CharClass}
    (names : ofLetter? letter = some letterClass) : ¬('1' ≤ letter ∧ letter ≤ '9') := by
  intro range
  unfold ofLetter? at names
  split at names
  · next set found =>
      have same : set.letter = letter.toLower := by simpa using List.find?_some found
      have small : letter.toLower = letter := by
        unfold Char.toLower
        rw [dif_neg]
        rintro ⟨capital, _⟩
        have among : 'A'.val ≤ '9'.val := UInt32.le_trans capital range.2
        exact absurd among (by decide)
      rw [small] at same
      subst same
      cases set <;> exact absurd range (by decide)
  · cases names

/-- No letter of a switch stands for a class. -/
theorem CharClass.ofSwitch?_eq_none {letter : Char} {letterClass : CharClass}
    (names : ofLetter? letter = some letterClass) : Magicness.ofSwitch? letter = none := by
  unfold Magicness.ofSwitch?
  split <;> first | rfl | cases names

/-- An operator is not notable, in neither of its spellings. -/
theorem Notable.ofSpelling?_operator (operator : Operator) (level : Magicness)
    (text : List Char) : ofSpelling? (operator.spelling level ++ text) = none := by
  rw [Operator.spelling]
  split
  · apply ofSpelling?_bare
    cases operator <;> decide
  · apply ofSpelling?_escape
    · cases operator <;> decide
    · cases operator <;> rfl

/-- Outside collections an item is what its spelling tells. -/
theorem Context.SpellsOutside.notable?_eq {context : Context} {raw : List Char}
    {content : Content} (spells : context.SpellsOutside raw content) :
    Notable.ofSpelling? raw = content.notable? := by
  cases spells with
  | operator active means =>
      rw [Notable.ofSpelling?_operator]
      cases means <;> rfl
  | plain bare => exact Notable.ofSpelling?_bare bare []
  | escaped meaningless =>
      simp only [hasMeaning, Bool.or_eq_false_iff, decide_eq_false_iff_not,
        Option.isSome_eq_false_iff, Option.isNone_iff_eq_none] at meaningless
      change Notable.ofEscape? _ = none
      rw [Notable.ofEscape?, if_neg meaningless.2, meaningless.1.1.1]
      rfl
  | switch switches =>
      unfold Magicness.ofSwitch? at switches
      split at switches <;> cases switches <;> rfl
  | caseMarker fold => cases fold <;> rfl
  | charClass names =>
      change Notable.ofEscape? _ = none
      rw [Notable.ofEscape?, if_neg (CharClass.not_digit names),
        CharClass.ofSwitch?_eq_none names]
      rfl
  | backReference range => exact if_pos range
  | externalReference range =>
      change Notable.ofZ? _ = _
      unfold Notable.ofZ?
      split
      · exact absurd range (by decide)
      · exact absurd range (by decide)
      · exact absurd range (by decide)
      · exact if_pos range
  | editorPosition | classOrBreak | codePoint | collectionOrBreak =>
      exact Notable.ofSpelling?_escape (by decide) rfl _
  | bareCluster | bareOptional | optionalClose => exact Notable.ofSpelling?_bare (by decide) _
  | _ => rfl

/-- Whether an item stands outside collections can be told from what it is. -/
theorem Context.Spells.isOutside_eq {context : Context} {raw : List Char} {content : Content}
    (spells : context.Spells raw content) :
    content.isOutside = context.collection?.isNone := by
  have admitted := spells.admitted
  cases content with
  | mark mark =>
      rw [show context.collection? = none from admitted]
      rfl
  | lexeme lexeme =>
      have standsIn := admitted.standsIn
      cases collection : context.collection? <;> rw [collection] at standsIn <;>
        cases lexeme <;> first | rfl | cases standsIn

/-- Wherever an item is read, it is what its spelling tells. -/
theorem Context.Spells.notable?_eq {context : Context} {raw : List Char} {content : Content}
    (spells : context.Spells raw content) (position : Nat) :
    (Scan.itemAt context content raw position).notable? = content.notable? := by
  have outside := spells.isOutside_eq
  simp only [Item.notable?, Scan.itemAt, String.toList_ofList, outside]
  cases spells with
  | outside collection spells =>
      rw [collection]
      exact spells.notable?_eq
  | inside collection spells =>
      rw [collection]
      cases spells <;> rfl

/-! ### What has been noted -/

/-- The context has noted these items, and nothing else, since the start of a pattern. -/
structure Context.Accounts (level : Magicness) (notables : List Notable) (context : Context) :
    Prop where
  externalGroups : context.tally.externalGroups = notables.count .externalGroup
  highestExternal : context.tally.highestExternal = Notable.highestExternal notables
  backReference :
    context.tally.backReference = true ↔ ∃ number, .backReference number ∈ notables
  matchStart : context.tally.matchStart = true ↔ .matchStart ∈ notables
  matchEnd : context.tally.matchEnd = true ↔ .matchEnd ∈ notables
  magicness : context.magicness = Notable.lastLevel level notables

namespace Context.Accounts

variable {level : Magicness} {notables : List Notable} {context : Context}

/-- At the start nothing has been noted. -/
theorem start (level : Magicness) : Accounts level [] (.start level) where
  externalGroups := rfl
  highestExternal := rfl
  backReference := by simp [Context.start]
  matchStart := by simp [Context.start]
  matchEnd := by simp [Context.start]
  magicness := rfl

/-- What an item is gets noted, and nothing else about it. -/
theorem item (accounts : Accounts level notables context) {content : Content}
    (admitted : content.Admitted context) (raw : String) (position : Nat) :
    Accounts level (notables ++ content.notable?.toList)
      (Scan.contextAfter context content raw position) := by
  obtain ⟨groups, highest, back, first, last, current⟩ := accounts
  cases content with
  | mark mark =>
      cases mark <;> constructor <;>
        simp [Scan.contextAfter, afterMark, Content.notable?, Notable.externalNumber?,
          Notable.level?, *]
  | lexeme lexeme =>
      have counts := admitted.countsOn
      cases lexeme with
      | groupOpen sort =>
          cases sort <;> constructor <;>
            simp_all [Scan.contextAfter, afterToken, Tally.record, Content.notable?,
              Notable.externalNumber?, Notable.level?, Lexeme.CountsOn]
      | literal literal =>
          cases literal <;> constructor <;>
            simp_all [Scan.contextAfter, afterToken, Tally.record, Content.notable?,
              Notable.externalNumber?, Notable.level?]
      | _ =>
          constructor <;>
            simpa [Scan.contextAfter, afterToken, Tally.record, Content.notable?]

end Context.Accounts

namespace Scan.Reaches

variable {level : Magicness} {pattern : String} {items : List Item} {context : Context}
  {position : Nat} {rest : List Char}

/-- At each place of a pattern the items in front of it have been noted. -/
theorem accounts (reaches : Reaches level pattern items context position rest) :
    context.Accounts level (items.filterMap Item.notable?) := by
  induction reaches with
  | start => exact .start level
  | @item items context position char text content extra before verdict inductionHypothesis =>
      have spells := Context.spells_of_verdict verdict
      have after := inductionHypothesis.item spells.admitted
        (String.ofList (char :: text.take extra)) position
      rw [List.filterMap_append, List.filterMap_cons, spells.notable?_eq]
      cases noted : content.notable? <;> rw [noted] at after <;> exact after

/-- What is new exactly if it has not been noted has the first text unless it is there
already. -/
theorem text_of_first {noted new : Bool} {present : Prop} [Decidable present]
    (counts : new = !noted) (agrees : noted = true ↔ present) {first later : String} :
    (if new then first else later) = if present then later else first := by
  by_cases there : present
  · simp [counts, agrees.2 there, there]
  · simp [counts, Bool.eq_false_iff.2 (there ∘ agrees.1), there]

/-- The text of a group or of a limit of the match follows from the items in front of it. -/
theorem text_of_notable {char : Char} {text : List Char} {content : Content} {extra : Nat}
    (reaches : Reaches level pattern items context position (char :: text))
    (verdict : context.verdict char text = .item content extra) {notable : Notable}
    {written : String}
    (noted : (itemAt context content (char :: text.take extra) position).notable? = some notable)
    (described : notable.text? (items.filterMap Item.notable?) = some written) :
    ∃ token, (itemAt context content (char :: text.take extra) position).token? = some token ∧
      ∀ style, token.text style = written := by
  have spells := Context.spells_of_verdict verdict
  obtain ⟨groups, _, _, first, last, _⟩ := reaches.accounts
  rw [spells.notable?_eq] at noted
  cases content with
  | mark mark =>
      cases mark <;> cases noted
      cases described
  | lexeme lexeme =>
      refine ⟨_, rfl, ?_⟩
      intro style
      have counts := spells.admitted.countsOn
      cases lexeme with
      | groupOpen sort =>
          cases sort <;> cases noted
          cases described
          rw [← groups, ← show _ = context.tally.externalGroups + 1 from counts]
          rfl
      | literal literal =>
          cases literal <;> cases noted <;> cases described
          · exact text_of_first counts first
          · exact text_of_first counts last
      | _ => cases noted

end Scan.Reaches

/-! ### Whole patterns -/

/-- The facts that come with a converted pattern are those that the end of the reading has noted,
and going through the pattern gives them each time, with the groups named or not. -/
theorem exists_metadata_of_convert {options : Options} {pattern : String}
    {conversion : Conversion} (converted : convert options pattern = .ok conversion) :
    ∃ terminus dollarEnds,
      (Scan.ofPattern options.magicness pattern).ending = .finished terminus ∧
        conversion.metadata = .ofTally terminus.context.tally dollarEnds ∧
          conversion.magicness = terminus.context.magicness ∧
            ∀ namedGroups, ∃ translation,
              (translate options conversion.ignoreCase namedGroups pattern).outcome =
                  .ok translation ∧
                translation.metadata = conversion.metadata ∧
                  translation.magicness = conversion.magicness := by
  obtain ⟨grown, complete, whole⟩ := exists_grown_eq_of_convert converted
  obtain ⟨terminus, _, stop, _, _, _, context⟩ := Growth.takes_of_run_eq_ok complete
  have metadata : conversion.metadata = .ofTally terminus.context.tally grown.dollarEnds := by
    rw [← context]
    exact congrArg Conversion.metadata whole
  have magicness : conversion.magicness = terminus.context.magicness := by
    rw [← context]
    exact congrArg Conversion.magicness whole
  refine ⟨terminus, grown.dollarEnds, Scan.ending_of_result stop, metadata, magicness, ?_⟩
  intro namedGroups
  rw [translate_of_complete complete, context]
  exact ⟨_, rfl, metadata.symm, magicness.symm⟩

/-- Census.  The facts that come with a converted pattern are those that its items show: the
number of the external groups, the highest number of an external reference, whether groups are
referred to, whether the limits of the match are set, and the level that the last switch has
selected.  The external groups are numbered in their order, the first limit of each sort is a
group with a name, and a later one is a group without.  All this holds each time that the
pattern is gone through. -/
theorem metadata_of_convert {options : Options} {pattern : String} {conversion : Conversion}
    (converted : convert options pattern = .ok conversion) :
    let items := (Scan.ofPattern options.magicness pattern).items
    let notables := items.filterMap Item.notable?
    (conversion.metadata.externalGroups = notables.count .externalGroup ∧
      conversion.metadata.lastExternalMatch = Notable.highestExternal notables ∧
        (conversion.metadata.hasBackReference = true ↔
          ∃ number, .backReference number ∈ notables) ∧
        (conversion.metadata.hasMatchStart = true ↔ .matchStart ∈ notables) ∧
        (conversion.metadata.hasMatchEnd = true ↔ .matchEnd ∈ notables) ∧
          conversion.magicness = Notable.lastLevel options.magicness notables) ∧
      (∀ before item after notable text, items = before ++ item :: after →
        item.notable? = some notable →
          notable.text? (before.filterMap Item.notable?) = some text →
            ∃ token, item.token? = some token ∧ ∀ style, token.text style = text) ∧
        ∀ namedGroups, ∃ translation,
          (translate options conversion.ignoreCase namedGroups pattern).outcome =
              .ok translation ∧
            translation.metadata = conversion.metadata ∧
              translation.magicness = conversion.magicness := by
  intro items notables
  obtain ⟨terminus, dollarEnds, ending, metadata, magicness, passes⟩ :=
    exists_metadata_of_convert converted
  obtain ⟨⟨position, reaches⟩, _⟩ := Scan.exists_reaches_end ending
  have accounts := reaches.accounts
  refine ⟨?_, ?_, passes⟩
  · rw [metadata, magicness]
    exact ⟨accounts.externalGroups, accounts.highestExternal, accounts.backReference,
      accounts.matchStart, accounts.matchEnd, accounts.magicness⟩
  · intro before item after notable text split noted described
    obtain ⟨context, place, char, others, content, extra, comes, verdict, rfl⟩ :=
      reaches.exists_item split
    exact comes.text_of_notable verdict noted described

/-- Two limits and a reference, with look-alikes in a collection and behind a backslash.  The
pattern is gone through twice. -/
theorem metadata_of_convert_books :
    let pattern := "\\z(a\\)\\zs\\v[\\1\\zs](b)\\1\\zs\\z2\\\\z3\\z(c)"
    let items := (Scan.ofPattern .magic pattern).items
    let notables := items.filterMap Item.notable?
    ∃ conversion, convert {} pattern = .ok conversion ∧
      notables =
        [.externalGroup, .matchStart, .switch .veryMagic, .backReference 1, .matchStart,
          .externalReference 2, .externalGroup] ∧
        conversion.metadata.externalGroups = notables.count .externalGroup ∧
          conversion.metadata.lastExternalMatch = Notable.highestExternal notables ∧
            conversion.magicness = Notable.lastLevel .magic notables ∧
              ∃ token, items[16]?.bind Item.token? = some token ∧ token.raw = "\\zs" ∧
                ∀ style, token.text style = "(?:)" := by
  intro pattern items notables
  have converted :
      convert {} pattern =
        .ok
          { converted :=
              "(?<z1>a)(?<zs>)[\\\\1\\\\zs](?<g1>b)\\k<g1>(?:)\\z2\\\\z3(?<z2>c)"
            ignoreCase := false
            magicness := .veryMagic
            metadata :=
              { externalGroups := 2
                lastExternalMatch := 2
                hasMatchStart := true
                hasBackReference := true } } := by
    dsimp only [pattern]
    rfl
  have shown : notables =
      [.externalGroup, .matchStart, .switch .veryMagic, .backReference 1, .matchStart,
        .externalReference 2, .externalGroup] := by
    dsimp only [notables, items, pattern]
    rfl
  let again : Item :=
    { content := .lexeme (.literal (.matchStart false))
      raw := "\\zs"
      position := 23
      magicness := .veryMagic }
  have split : items = items.take 16 ++ again :: items.drop 17 := by
    dsimp only [items, pattern]
    rfl
  obtain ⟨⟨groups, highest, _, _, _, level⟩, texts, _⟩ := metadata_of_convert converted
  have noted : again.notable? = some .matchStart := by decide
  obtain ⟨token, itself, written⟩ := texts (items.take 16) again (items.drop 17) .matchStart "(?:)"
    split noted (by dsimp only [items, pattern]; rfl)
  cases itself
  refine ⟨_, converted, shown, groups, highest, level, _, ?_, rfl, written⟩
  dsimp only [items, pattern]
  rfl

end VimPattern
