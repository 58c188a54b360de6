/-
Module: VimPattern.Proofs.Wording.Folding
Purpose: Folding case puts a wrapper around the text of a pattern and changes nothing else.
Main exports:
  Lexeme.isCased, Token.text_unfolded, lastTranslation, convert_eq_map, Conversion.folded,
  convert_folded
-/
import VimPattern.Proofs.Failure.Positions
import VimPattern.Proofs.Wording.Ignored

namespace VimPattern

/-!
Whether case is folded enters a conversion in two ways: the classes of small and of capital
letters are widened, and the whole text is wrapped.  The option that asks for it is looked at
only where the pattern itself does not decide.  So for a pattern without these classes folding
is the wrapper alone, whichever of the two asks for it; and the marker that asks for it in the
pattern is dropped like any other item that leaves no token.
-/

/-! ### Texts -/

/-- The text of the lexeme depends on whether case is folded. -/
def Lexeme.isCased : Lexeme → Bool
  | .member (.named .lower) | .member (.named .upper) => true
  | _ => false

/-- No text depends on the option that asks for folded case. -/
theorem Token.text_withIgnoreCase (options : Options) (ignoreCase foldCase namedGroups : Bool)
    (token : Token) :
    token.text (.ofPass { options with ignoreCase := ignoreCase } foldCase namedGroups) =
      token.text (.ofPass options foldCase namedGroups) := by
  rcases token with ⟨lexeme, raw, position, level⟩
  cases lexeme with
  | literal literal => cases literal <;> rfl
  | member member => cases member <;> rfl
  | _ => rfl

/-- Only the cased texts depend on whether case is folded. -/
theorem Token.text_unfolded {token : Token} (uncased : token.lexeme.isCased = false)
    (options : Options) (foldCase namedGroups : Bool) :
    token.text (.ofPass options foldCase namedGroups) =
      token.text (.ofPass options false namedGroups) := by
  rcases token with ⟨lexeme, raw, position, level⟩
  cases lexeme with
  | literal literal => cases literal <;> rfl
  | member member =>
      cases member with
      | named namedClass =>
          cases namedClass with
          | lower | upper => cases uncased
          | _ => rfl
      | _ => rfl
  | _ => rfl

/-! ### Spellings -/

/-- A named class is spelled by its name between brackets and colons. -/
theorem Context.Spells.named_eq {context : Context} {raw : List Char} {namedClass : NamedClass}
    (spells : context.Spells raw (.lexeme (.member (.named namedClass)))) :
    raw = ("[:" ++ namedClass.name ++ ":]").toList := by
  cases spells with
  | outside outside spells =>
      cases spells with
      | operator active means => cases means
  | inside inside spells =>
      cases spells with
      | @named text name namedClass read found =>
          have same : namedClass.name = String.ofList name := by
            simpa using List.find?_some found
          have taken := List.prefix_iff_eq_take.1 (Verdict.className?_eq_some read)
          have length : ([':'] ++ name ++ [':', ']']).length = name.length + 3 := by simp
          rw [length] at taken
          rw [← taken, same]
          simp

/-- The name of a class that is read in a pattern is found there. -/
theorem Token.Located.named_infix {pattern : String} {token : Token} {namedClass : NamedClass}
    (located : token.Located pattern) (named : token.lexeme = .member (.named namedClass)) :
    ("[:" ++ namedClass.name ++ ":]").toList <:+: pattern.toList := by
  obtain ⟨context, _, spells⟩ := located.spelled
  obtain ⟨rest, front, whole, _⟩ := located.remains
  rw [named] at spells
  rw [spells.named_eq, ← List.append_assoc] at whole
  exact ⟨front, rest, whole⟩

/-- In a pattern that names neither class of letters no text depends on whether case is
folded. -/
theorem uncased_of_not_infix (level : Magicness) {pattern : String}
    (lower : ¬"[:lower:]".toList <:+: pattern.toList)
    (upper : ¬"[:upper:]".toList <:+: pattern.toList) :
    ∀ token ∈ (Scan.ofPattern level pattern).tokens, token.lexeme.isCased = false := by
  intro token member
  have located := Scan.located_ofPattern level pattern token member
  unfold Lexeme.isCased
  split
  · next named => exact absurd (located.named_infix named) lower
  · next named => exact absurd (located.named_infix named) upper
  · rfl

/-! ### Translations -/

/-- The last translation of a pattern: the second one if the first shows that the groups have
to be named. -/
def lastTranslation (options : Options) (foldCase : Bool) (pattern : String) :
    Except ConversionError Translation := do
  let first ← (translate options foldCase false pattern).outcome
  if first.metadata.needsNamedGroups then (translate options foldCase true pattern).outcome
  else return first

/-- A conversion is the last translation with the folding of case put in. -/
theorem convert_eq_map {options : Options} {pattern : String}
    (nonempty : pattern.isEmpty = false) :
    convert options pattern =
      (lastTranslation options (foldsCase options pattern) pattern).map
        (Translation.conversion (foldsCase options pattern)) := by
  rw [← convertInPasses_eq, convertInPasses, if_neg (Bool.eq_false_iff.1 nonempty)]
  dsimp only [lastTranslation]
  cases (translate options (foldsCase options pattern) false pattern).outcome with
  | error error => rfl
  | ok first =>
      change (if first.metadata.needsNamedGroups then _ else _) =
        Except.map _ (if first.metadata.needsNamedGroups then _ else _)
      by_cases needed : first.metadata.needsNamedGroups
      · rw [if_pos needed, if_pos needed]
        cases (translate options (foldsCase options pattern) true pattern).outcome <;> rfl
      · rw [if_neg needed, if_neg needed]
        rfl

/-- The last translation follows from the texts of the tokens. -/
theorem lastTranslation_congr {options other : Options} {foldCase folds : Bool}
    {pattern : String} (level : options.magicness = other.magicness)
    (texts : ∀ namedGroups, ∀ token ∈ (Scan.ofPattern options.magicness pattern).tokens,
      token.text (.ofPass options foldCase namedGroups) =
        token.text (.ofPass other folds namedGroups)) :
    lastTranslation options foldCase pattern = lastTranslation other folds pattern := by
  have rendered (namedGroups : Bool) :
      renderedTokens options foldCase namedGroups pattern =
        renderedTokens other folds namedGroups pattern := by
    rw [renderedTokens, renderedTokens, ← level]
    refine List.map_congr_left fun token member => ?_
    rw [Token.rendered, Token.rendered, texts namedGroups token member]
  have same (namedGroups : Bool) :
      translate options foldCase namedGroups pattern =
        translate other folds namedGroups pattern := by
    rw [translate, translate, rendered, level]
  rw [lastTranslation, lastTranslation, same, same]

/-! ### Conversions -/

/-- The conversion with case folded. -/
def Conversion.folded (conversion : Conversion) : Conversion :=
  { conversion with
    converted := "(?i:" ++ conversion.converted ++ ")"
    ignoreCase := true }

/-- Where a pattern decides whether case is folded, the option does not matter. -/
theorem convert_withIgnoreCase (options : Options) {pattern : String} {fold : Bool}
    (marked : caseMarker? pattern.toList = some fold) (ignoreCase : Bool) :
    convert { options with ignoreCase := ignoreCase } pattern = convert options pattern := by
  have nonempty : pattern.isEmpty = false := by
    by_contra empty
    obtain rfl : pattern = "" := by simpa using empty
    cases marked
  have folds (options : Options) : foldsCase options pattern = fold := by
    rw [foldsCase, marked, Option.getD_some]
  have same : lastTranslation { options with ignoreCase := ignoreCase } fold pattern =
      lastTranslation options fold pattern :=
    lastTranslation_congr rfl fun namedGroups token _ =>
      token.text_withIgnoreCase options ignoreCase fold namedGroups
  rw [convert_eq_map nonempty, convert_eq_map nonempty, folds, folds, same]

/-- Where a pattern leaves it to the option and names neither class of letters, folding case is
the wrapper alone. -/
theorem convert_withFold (options : Options) {pattern : String}
    (nonempty : pattern.isEmpty = false) (unmarked : caseMarker? pattern.toList = none)
    (lower : ¬"[:lower:]".toList <:+: pattern.toList)
    (upper : ¬"[:upper:]".toList <:+: pattern.toList) :
    convert { options with ignoreCase := true } pattern =
      (convert { options with ignoreCase := false } pattern).map Conversion.folded := by
  have uncased := uncased_of_not_infix options.magicness lower upper
  have folds (ignoreCase : Bool) :
      foldsCase { options with ignoreCase := ignoreCase } pattern = ignoreCase := by
    rw [foldsCase, unmarked, Option.getD_none]
  have same : lastTranslation { options with ignoreCase := true } true pattern =
      lastTranslation { options with ignoreCase := false } false pattern :=
    lastTranslation_congr rfl fun namedGroups token member =>
      calc
        _ = token.text (.ofPass options true namedGroups) := token.text_withIgnoreCase ..
        _ = token.text (.ofPass options false namedGroups) :=
          token.text_unfolded (uncased token member) ..
        _ = _ := (token.text_withIgnoreCase ..).symm
  rw [convert_eq_map nonempty, convert_eq_map nonempty, folds, folds, same]
  cases lastTranslation { options with ignoreCase := false } false pattern <;> rfl

/-! ### Markers -/

/-- The marker that asks for folded case is dropped. -/
theorem Scan.dropped_caseMarker : Scan.Dropped "\\c".toList where
  exists_verdict outside text := by
    simp only [Context.verdict_outside outside]
    exact ⟨_, _, _, rfl, rfl, rfl⟩
  detached text := ⟨_, _, rfl, by decide, by decide, by decide⟩

/-- At a boundary outside collections of a pattern without case markers the marker does what the
option does. -/
theorem convert_marked (options : Options) (front back : List Char) {items : List Item}
    {context : Context} {position : Nat} {conversion : Conversion}
    (unmarked : caseMarker? (front ++ back) = none)
    (unnamed : ∀ waiting ∈ markPrefixes, ¬waiting <:+: front ++ back)
    (boundary :
      Scan.Reaches options.magicness (String.ofList (front ++ back)) items context position back)
    (outside : context.collection? = none) (nonempty : front ++ back ≠ [])
    (converted :
      convert { options with ignoreCase := true } (String.ofList (front ++ back)) =
        .ok conversion)
    (ignoreCase : Bool) :
    convert { options with ignoreCase := ignoreCase }
        (String.ofList (front ++ ("\\c".toList ++ back))) =
      .ok conversion := by
  have marked : caseMarker? (String.ofList (front ++ ("\\c".toList ++ back))).toList =
      some true := by
    have passed := boundary.paired unnamed outside
    rw [passed, Option.or_eq_none_iff] at unmarked
    rw [String.toList_ofList, passed, unmarked.1]
    rfl
  have folds : foldsCase { options with ignoreCase := true }
      (String.ofList (front ++ ("\\c".toList ++ back))) =
        foldsCase { options with ignoreCase := true } (String.ofList (front ++ back)) := by
    rw [foldsCase, foldsCase, marked, String.toList_ofList, unmarked]
    rfl
  have alike := Scan.Alike.of_dropped Scan.dropped_caseMarker unnamed boundary outside
  have asked : convert { options with ignoreCase := true } _ = .ok conversion :=
    convert_of_alike alike folds (by simpa using nonempty) (by simp) converted
  have same := convert_withIgnoreCase options marked
  exact (same ignoreCase).trans ((same true).symm.trans asked)

/-- Folding case is a wrapper.  For a pattern without case markers and without the two classes
that folding widens, asking for it by the option makes no difference but the wrapper, neither
to the conversion nor to an error; and if the pattern contains no beginning of a mark, asking
for it by a marker in front of the pattern or behind it is the same as asking by the option. -/
theorem convert_folded (options : Options) {pattern : String} (nonempty : pattern ≠ "")
    (unmarked : caseMarker? pattern.toList = none)
    (lower : ¬"[:lower:]".toList <:+: pattern.toList)
    (upper : ¬"[:upper:]".toList <:+: pattern.toList) :
    convert { options with ignoreCase := true } pattern =
        (convert { options with ignoreCase := false } pattern).map Conversion.folded ∧
      ((∀ waiting ∈ markPrefixes, ¬waiting <:+: pattern.toList) →
        ∀ conversion,
          convert { options with ignoreCase := false } pattern = .ok conversion →
            ∀ ignoreCase,
              convert { options with ignoreCase := ignoreCase } ("\\c" ++ pattern) =
                  .ok conversion.folded ∧
                convert { options with ignoreCase := ignoreCase } (pattern ++ "\\c") =
                  .ok conversion.folded) := by
  have filled : pattern.isEmpty = false := by simpa using nonempty
  have wrapped := convert_withFold options filled unmarked lower upper
  refine ⟨wrapped, ?_⟩
  intro unnamed conversion converted ignoreCase
  rw [converted] at wrapped
  have shape : pattern = String.ofList pattern.toList := String.ofList_toList.symm
  have occupied : pattern.toList ≠ [] := by simpa using nonempty
  generalize pattern.toList = characters at shape unmarked unnamed occupied
  subst shape
  constructor
  · have boundary := @Scan.Reaches.start options.magicness (String.ofList ([] ++ characters))
    rw [String.toList_ofList] at boundary
    have marked := convert_marked options [] characters unmarked unnamed boundary rfl
      occupied wrapped ignoreCase
    rwa [List.nil_append, String.ofList_append, String.ofList_toList] at marked
  · obtain ⟨⟨terminus, whole⟩, _⟩ := (exists_convert_iff _ _).1 ⟨_, converted⟩
    obtain ⟨⟨position, boundary⟩, closed⟩ :=
      Scan.exists_reaches_end (Scan.ending_of_result whole)
    have outside : terminus.context.collection? = none := by
      rw [Context.collection?, closed]
    rw [← List.append_nil characters] at boundary unmarked unnamed occupied wrapped
    have marked := convert_marked options characters [] unmarked unnamed boundary outside
      occupied wrapped ignoreCase
    rwa [List.append_nil, String.ofList_append, String.ofList_toList] at marked

/-- The marker changes neither the star in front of which it stands nor the dollar behind which
it stands, and not the names of the groups. -/
theorem convert_folded_named :
    let pattern := "*\\(a\\)\\1[^[:alpha:]]\\zs$"
    pattern ≠ "" ∧ caseMarker? pattern.toList = none ∧
      ¬"[:lower:]".toList <:+: pattern.toList ∧ ¬"[:upper:]".toList <:+: pattern.toList ∧
      (∀ waiting ∈ markPrefixes, ¬waiting <:+: pattern.toList) ∧
        ∃ conversion,
          convert {} pattern = .ok conversion ∧
            conversion.folded.converted =
              "(?i:\\*(?<g1>a)\\k<g1>[^\\r\\nA-Za-z](?<zs>)$)" ∧
            convert { ignoreCase := true } pattern = .ok conversion.folded ∧
            convert {} ("\\c" ++ pattern) = .ok conversion.folded ∧
            convert {} (pattern ++ "\\c") = .ok conversion.folded := by
  intro pattern
  have nonempty : pattern ≠ "" := by decide
  have unmarked : caseMarker? pattern.toList = none := by decide +kernel
  have lower : ¬"[:lower:]".toList <:+: pattern.toList := by decide +kernel
  have upper : ¬"[:upper:]".toList <:+: pattern.toList := by decide +kernel
  have unnamed : ∀ waiting ∈ markPrefixes, ¬waiting <:+: pattern.toList := by decide +kernel
  obtain ⟨wrapped, marked⟩ := convert_folded {} nonempty unmarked lower upper
  obtain ⟨conversion, converted, text⟩ :
      ∃ conversion, convert {} pattern = .ok conversion ∧
        conversion.folded.converted = "(?i:\\*(?<g1>a)\\k<g1>[^\\r\\nA-Za-z](?<zs>)$)" := by
    dsimp only [pattern]
    exact ⟨_, rfl, rfl⟩
  obtain ⟨before, behind⟩ := marked unnamed conversion converted false
  refine ⟨nonempty, unmarked, lower, upper, unnamed, conversion, converted, text, ?_, before,
    behind⟩
  rw [converted] at wrapped
  exact wrapped

end VimPattern
