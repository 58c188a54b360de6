/-
Module: VimPattern.Proofs.Failure.Positions
Purpose: Every error stands at a place of the pattern, and what it names is found there.
Main exports:
  Cause.position, Cause.PointsAt, Context.SpelledAs, Token.Located.pointsAt,
  Scan.pointsAt_of_result, pointsAt_of_convert
-/
import VimPattern.Proofs.Failure.Blame

namespace VimPattern

/-!
An error carries an offset into the pattern, and it names a construct.  The offset may be that
of the token that was refused, that of the opening of a construct that should have been closed
by then, or that of the place where reading stopped.  In each case the offset cuts the pattern
between two characters, and the text behind it starts with what is named.
-/

/-! ### What errors say -/

/-- The offset that the error carries. -/
def ScanError.position : ScanError → Nat
  | .noRuleMatches position _ _ => position
  | .unterminated _ position => position
  | .unknownCollectionClass _ position => position
  | .invalidCodePoint _ position => position

/-- The offset that the error carries. -/
def ParseError.position : ParseError → Nat
  | .unclosedGroup position => position
  | .unexpectedGroupEnd position => position
  | .missingOperand _ position => position
  | .nestedQuantifier _ position => position
  | .emptyOptionalMatch position => position
  | .unexpectedToken _ position => position
  | .unexpectedEnd position => position

/-- The offset that the error carries. -/
def Cause.position : Cause → Nat
  | .scan error => error.position
  | .parse error => error.position

/-- The spellings of what opens a construct of this region. -/
def Region.openings : Region → List String
  | .initial => []
  | .collection => ["[", "\\[", "\\_["]
  | .optionalMatch => ["\\%[", "%["]

/-- The spellings of what opens a group. -/
def groupOpenings : List String :=
  ["\\(", "(", "%(", "\\%(", "\\z("]

/-- The spellings of what closes a group. -/
def groupClosings : List String :=
  ["\\)", ")"]

/-- The text starts with one of these. -/
def StartsWith (rest : List Char) (spellings : List String) : Prop :=
  ∃ spelling ∈ spellings, spelling.toList ≠ [] ∧ spelling.toList <+: rest

/-- The text starts with what the error names. -/
def ScanError.PointsAt (rest : List Char) : ScanError → Prop
  | .noRuleMatches _ _ left => rest = left.toList ∧ rest ≠ []
  | .unterminated region _ => StartsWith rest region.openings
  | .unknownCollectionClass name _ => StartsWith rest ["[:" ++ name ++ ":]"]
  | .invalidCodePoint escape _ => StartsWith rest [escape]

/-- The text starts with what the error names.  Nothing can be found where a pattern is over. -/
def ParseError.PointsAt (rest : List Char) : ParseError → Prop
  | .unclosedGroup _ => StartsWith rest groupOpenings
  | .unexpectedGroupEnd _ => StartsWith rest groupClosings
  | .emptyOptionalMatch _ => StartsWith rest Region.optionalMatch.openings
  | .missingOperand token _ | .nestedQuantifier token _ | .unexpectedToken token _ =>
      StartsWith rest [token]
  | .unexpectedEnd _ => False

/-- The text starts with what the error names. -/
def Cause.PointsAt (rest : List Char) : Cause → Prop
  | .scan error => error.PointsAt rest
  | .parse error => error.PointsAt rest

/-! ### Tokens -/

/-- The spellings that a lexeme can have if it opens something or closes a group; of any other
lexeme only the spelling that has been found. -/
def Lexeme.spellings (raw : List Char) : Lexeme → List String
  | .groupOpen _ => groupOpenings
  | .groupClose => groupClosings
  | .collectionOpen _ => Region.collection.openings
  | .optionalOpen => Region.optionalMatch.openings
  | _ => [String.ofList raw]

section

variable {lexeme : Lexeme} (raw : List Char)

theorem Lexeme.spellings_groupOpen (kind : lexeme.kind = .groupOpen) :
    lexeme.spellings raw = groupOpenings := by
  cases lexeme <;> cases kind
  rfl

theorem Lexeme.spellings_groupClose (kind : lexeme.kind = .groupClose) :
    lexeme.spellings raw = groupClosings := by
  cases lexeme <;> cases kind
  rfl

theorem Lexeme.spellings_optionalOpen (kind : lexeme.kind = .optionalOpen) :
    lexeme.spellings raw = Region.optionalMatch.openings := by
  cases lexeme <;> cases kind
  rfl

end

/-- What is spelled is not empty. -/
theorem Context.Spells.ne_nil {context : Context} {raw : List Char} {content : Content}
    (spells : context.Spells raw content) : raw ≠ [] := by
  cases spells with
  | inside inside spells => cases spells <;> exact List.cons_ne_nil _ _
  | outside outside spells =>
      cases spells with
      | @operator operator escaped text content taken active means =>
          rw [Operator.spelling]
          split <;> exact List.cons_ne_nil _ _
      | _ => exact List.cons_ne_nil _ _

/-- A text that is one of these, and more behind it. -/
theorem startsWith_append {characters : List Char} {spellings : List String}
    (member : String.ofList characters ∈ spellings) (nonempty : characters ≠ [])
    (rest : List Char) : StartsWith (characters ++ rest) spellings := by
  refine ⟨_, member, ?_, ?_⟩
  · rwa [String.toList_ofList]
  · rw [String.toList_ofList]
    exact List.prefix_append _ _

/-- An operator that is found in either of its spellings. -/
theorem startsWith_operator {operator : Operator} {level : Magicness}
    {spellings : List String} (bare : String.ofList [operator.char] ∈ spellings)
    (escaped : String.ofList ['\\', operator.char] ∈ spellings) (rest : List Char) :
    StartsWith (operator.spelling level ++ rest) spellings := by
  rw [Operator.spelling]
  split
  · exact startsWith_append bare (List.cons_ne_nil _ _) rest
  · exact startsWith_append escaped (List.cons_ne_nil _ _) rest

/-- What is spelled starts with one of the spellings of its sort. -/
theorem Context.Spells.startsWith {context : Context} {raw : List Char} {lexeme : Lexeme}
    (spells : context.Spells raw (.lexeme lexeme)) (rest : List Char) :
    StartsWith (raw ++ rest) (lexeme.spellings raw) := by
  have itself : StartsWith (raw ++ rest) [String.ofList raw] :=
    startsWith_append (.head _) spells.ne_nil rest
  cases spells with
  | inside inside spells => cases spells <;> exact itself
  | outside outside spells =>
      cases spells with
      | operator active means =>
          cases means with
          | collection =>
              change StartsWith _ Region.collection.openings
              rw [List.append_assoc]
              exact startsWith_operator (by decide) (by decide) _
          | groupOpen =>
              change StartsWith _ groupOpenings
              rw [List.append_assoc]
              exact startsWith_operator (by decide) (by decide) _
          | groupClose =>
              change StartsWith _ groupClosings
              rw [List.append_assoc]
              exact startsWith_operator (by decide) (by decide) _
          | _ => exact itself
      | collectionOrBreak text =>
          have split : '\\' :: '_' :: '[' :: text.take (Collection.readOpening true text).2 =
              ['\\', '_', '['] ++ text.take (Collection.readOpening true text).2 := rfl
          change StartsWith _ Region.collection.openings
          rw [split, List.append_assoc]
          exact startsWith_append (by decide) (List.cons_ne_nil _ _) _
      | externalGroup =>
          change StartsWith _ groupOpenings
          exact startsWith_append (by decide) (List.cons_ne_nil _ _) rest
      | cluster => exact startsWith_append (by decide) (List.cons_ne_nil _ _) rest
      | bareCluster => exact startsWith_append (by decide) (List.cons_ne_nil _ _) rest
      | optional => exact startsWith_append (by decide) (List.cons_ne_nil _ _) rest
      | bareOptional => exact startsWith_append (by decide) (List.cons_ne_nil _ _) rest
      | _ => exact itself

/-- Where a token stands, the pattern starts with one of the spellings of its sort. -/
theorem Token.Located.exists_startsWith {pattern : String} {token : Token}
    (located : token.Located pattern) :
    ∃ rest, Scan.Remains pattern token.position rest ∧
      StartsWith rest (token.lexeme.spellings token.raw.toList) ∧
        StartsWith rest [token.raw] := by
  obtain ⟨rest, remains⟩ := located.remains
  obtain ⟨context, _, spells⟩ := located.spelled
  refine ⟨token.raw.toList ++ rest, remains, spells.startsWith rest, ?_⟩
  exact ⟨token.raw, .head _, spells.ne_nil, List.prefix_append _ _⟩

/-! ### Where reading stops -/

namespace Verdict

/-- The verdict is not about the name of a class. -/
def Nameless : Verdict → Prop
  | .fault (.unknownClass _) _ => False
  | _ => True

theorem nameless_numeric (found : Option Char) (extra : Nat) (wrap : Char → Lexeme) :
    (numeric found extra wrap).Nameless := by
  cases found <;> trivial

theorem nameless_afterUnderscore (text : List Char) : (afterUnderscore text).Nameless := by
  unfold afterUnderscore
  split
  · trivial
  · trivial
  · trivial
  · trivial
  · split <;> trivial
  · trivial

theorem nameless_afterZ (context : Context) (text : List Char) :
    (afterZ context text).Nameless := by
  unfold afterZ
  split
  · trivial
  · trivial
  · trivial
  · split <;> trivial
  · trivial

theorem nameless_afterPercent (text : List Char) : (afterPercent text).Nameless := by
  unfold afterPercent
  split
  · trivial
  · trivial
  · trivial
  · trivial
  · split
    · trivial
    · split
      · exact nameless_numeric _ _ _
      · trivial

theorem nameless_escaped (context : Context) (text : List Char) :
    (escaped context text).Nameless := by
  unfold escaped
  split
  · trivial
  · split
    · split
      · split <;> trivial
      · trivial
    · unfold afterBackslash
      split
      · trivial
      · split
        · trivial
        · split
          · trivial
          · exact nameless_afterUnderscore _
          · exact nameless_afterZ context _
          · exact nameless_afterPercent _
          · trivial
          · trivial
          · trivial
          · split <;> trivial

theorem nameless_bare (context : Context) (char : Char) (text : List Char) :
    (bare context char text).Nameless := by
  unfold bare
  split
  · split
    · split <;> trivial
    · trivial
  · split
    · split <;> trivial
    · split <;> trivial
    · split <;> trivial
    · trivial

/-- A name between bracket and colon is followed by colon and bracket. -/
theorem className?_eq_some {text name : List Char} (read : className? text = some name) :
    [':'] ++ name ++ [':', ']'] <+: text := by
  unfold className? at read
  split at read
  · next others =>
      dsimp only at read
      split at read
      · next rest closing =>
          split at read
          · cases read
          · cases read
            have whole := List.takeWhile_append_dropWhile (p := Char.isLower) (l := others)
            rw [closing] at whole
            refine ⟨rest, ?_⟩
            rw [List.append_assoc, List.append_assoc]
            exact congrArg (':' :: ·) whole
      · cases read
  · cases read

/-- Inside a collection a class with an unknown name is one between these brackets. -/
theorem prefix_of_inCollection {withBreak : Bool} {char : Char} {text : List Char}
    {name : String} {extra : Nat}
    (faulty : inCollection withBreak char text = .fault (.unknownClass name) extra) :
    ("[:" ++ name ++ ":]").toList <+: char :: text := by
  unfold inCollection at faulty
  split at faulty
  · cases faulty
  · unfold bracketMember at faulty
    split at faulty
    · next found read =>
        split at faulty
        · cases faulty
        · cases faulty
          obtain ⟨rest, whole⟩ := className?_eq_some read
          refine ⟨rest, ?_⟩
          rw [← whole]
          simp
    · split at faulty
      · split at faulty <;> cases faulty
      · cases faulty
  · unfold backslashMember at faulty
    dsimp only at faulty
    split at faulty
    · next found _ _ => cases found <;> cases faulty
    · split at faulty
      · split at faulty <;> cases faulty
      · cases faulty
  · split at faulty <;> cases faulty
  · cases faulty

end Verdict

/-- A class with an unknown name stands between its brackets. -/
theorem Context.prefix_of_unknownClass {context : Context} {char : Char} {text : List Char}
    {name : String} {extra : Nat}
    (faulty : context.verdict char text = .fault (.unknownClass name) extra) :
    ("[:" ++ name ++ ":]").toList <+: char :: text := by
  unfold Context.verdict at faulty
  split at faulty
  · exact Verdict.prefix_of_inCollection faulty
  · unfold Verdict.outside at faulty
    split at faulty
    · have nameless := Verdict.nameless_escaped context text
      rw [faulty] at nameless
      exact nameless.elim
    · have nameless := Verdict.nameless_bare context char text
      rw [faulty] at nameless
      exact nameless.elim

namespace Scan

variable {level : Magicness} {pattern : String}

/-- The opening that is left open is a token, and one of a construct of its region. -/
theorem LeavesOpen.exists_token {items : List Item} {construct : Construct} {opener : Item}
    (leavesOpen : LeavesOpen items construct opener) :
    ∃ token ∈ items.filterMap Item.token?, token.position = opener.position ∧
      token.lexeme.spellings token.raw.toList = construct.region.openings := by
  obtain ⟨opens, before, inside, rfl, _⟩ := leavesOpen
  have among : opener ∈ before ++ opener :: inside := List.mem_append_right _ (.head _)
  rcases opener with ⟨_ | lexeme, raw, position, magicness⟩
  · cases opens
  · refine ⟨_, List.mem_filterMap.2 ⟨_, among, rfl⟩, rfl, ?_⟩
    cases lexeme with
    | collectionOpen opening =>
        cases opens
        rfl
    | optionalOpen =>
        cases opens
        rfl
    | _ => cases opens

/-- An error that stops the reading stands at the place where it is found, or at the opening of
the construct that should have been closed. -/
theorem pointsAt_of_result {error : ScanError}
    (failed : (ofPattern level pattern).result = .error error) :
    ∃ rest, Remains pattern error.position rest ∧ error.PointsAt rest := by
  obtain ⟨context, position, rest, reaches, stops⟩ := exists_stop level pattern
  have whole := failed
  unfold result at failed
  generalize (ofPattern level pattern).ending = ending at failed stops
  cases stops with
  | ended =>
      have isOpen : context.enclosing ≠ [] := by
        intro closed
        rw [endingOf, closed] at failed
        cases failed
      obtain ⟨construct, opener, leavesOpen, unterminated⟩ := reaches.result_of_open isOpen
      cases whole.symm.trans unterminated
      obtain ⟨token, member, place, same⟩ := leavesOpen.exists_token
      obtain ⟨left, remains, starts, _⟩ :=
        (located_ofPattern level pattern token member).exists_startsWith
      rw [same] at starts
      exact ⟨left, place ▸ remains, starts⟩
  | @fault char text fault extra verdict =>
      cases fault with
      | unknownClass name =>
          cases failed
          exact ⟨char :: text, reaches.remains, _, .head _, by simp,
            Context.prefix_of_unknownClass verdict⟩
      | invalidCodePoint =>
          cases failed
          refine ⟨char :: text, reaches.remains, _, .head _, ?_, ?_⟩
          · rw [String.toList_ofList]
            exact List.cons_ne_nil _ _
          · rw [String.toList_ofList]
            exact List.prefix_cons_inj char |>.2 (List.take_prefix extra text)
  | @noRule char text verdict =>
      cases failed
      exact ⟨char :: text, reaches.remains, String.toList_ofList.symm, List.cons_ne_nil _ _⟩

end Scan

/-! ### Whole patterns -/

namespace Growth

/-- A token that is refused is one of the tokens. -/
theorem Halts.mem {tokens before : List Token} {token : Token}
    (halts : Halts tokens before (some token)) : token ∈ tokens := by
  obtain ⟨others, rfl, next⟩ := halts.split
  exact List.mem_append_right _ (List.mem_of_head? next)

/-- An opening that is left open where the growth stops is one of the tokens. -/
theorem Halts.mem_unclosed {tokens before outer : List Token} {following : Option Token}
    {opener : Token} (halts : Halts tokens before following)
    (unclosed : Token.unclosed before = opener :: outer) : opener ∈ tokens := by
  obtain ⟨others, rfl, _⟩ := halts.split
  have among : opener ∈ Token.unclosed before := by
    rw [unclosed]
    exact .head _
  exact List.mem_append_left _ (Token.unclosed_subset before among)

/-- What is wrong with the tokens of a pattern stands at one of them. -/
theorem Blames.pointsAt {pattern : String} {tokens : List Token} {error : ParseError}
    (blames : Blames tokens error) (located : ∀ token ∈ tokens, token.Located pattern) :
    ∃ rest, Scan.Remains pattern error.position rest ∧ error.PointsAt rest := by
  have opening {opener : Token} (member : opener ∈ tokens) (opens : opener.kind = .groupOpen) :
      ∃ rest, Scan.Remains pattern opener.position rest ∧ StartsWith rest groupOpenings := by
    obtain ⟨rest, remains, starts, _⟩ := (located opener member).exists_startsWith
    rw [Lexeme.spellings_groupOpen _ opens] at starts
    exact ⟨rest, remains, starts⟩
  have itself {token : Token} (member : token ∈ tokens) :
      ∃ rest, Scan.Remains pattern token.position rest ∧ StartsWith rest [token.raw] := by
    obtain ⟨rest, remains, _, starts⟩ := (located token member).exists_startsWith
    exact ⟨rest, remains, starts⟩
  cases blames with
  | unfinishedGroup halts unclosed opens => exact opening (halts.mem_unclosed unclosed) opens
  | unclosedGroup halts kind unclosed opens =>
      exact opening (halts.mem_unclosed unclosed) opens
  | groupEnd halts kind =>
      obtain ⟨rest, remains, starts, _⟩ := (located _ halts.mem).exists_startsWith
      rw [Lexeme.spellings_groupClose _ kind] at starts
      exact ⟨rest, remains, starts⟩
  | missingOperand halts kind => exact itself halts.mem
  | nestedQuantifier halts kind => exact itself halts.mem
  | emptyOptional halts kind unclosed opens =>
      obtain ⟨rest, remains, starts, _⟩ :=
        (located _ (halts.mem_unclosed unclosed)).exists_startsWith
      rw [Lexeme.spellings_optionalOpen _ opens] at starts
      exact ⟨rest, remains, starts⟩
  | separator halts kind unclosed opens => exact itself halts.mem

/-- A group that is reported as unclosed is the innermost construct that is open where the
growth stops: at the end of the tokens, or before the end of an optional sequence. -/
theorem Blames.unclosed {tokens : List Token} {position : Nat}
    (blames : Blames tokens (.unclosedGroup position)) :
    ∃ before following opener outer, Halts tokens before following ∧
      (∀ token, following = some token → token.kind = .optionalClose) ∧
        Token.unclosed before = opener :: outer ∧ opener.kind = .groupOpen ∧
          opener.position = position := by
  cases blames with
  | @unfinishedGroup opener outer halts unclosed opens =>
      exact ⟨tokens, none, opener, outer, halts, by rintro _ ⟨⟩, unclosed, opens, rfl⟩
  | @unclosedGroup before outer token opener halts kind unclosed opens =>
      refine ⟨before, some token, opener, outer, halts, ?_, unclosed, opens, rfl⟩
      rintro _ ⟨⟩
      exact kind

end Growth

/-- The offset of an error is a place of the pattern, and the text there starts with what the
error names.  A group that is reported as unclosed is the innermost construct that is open
where the growth has stopped. -/
theorem pointsAt_of_convert {options : Options} {pattern : String} {error : ConversionError}
    (failed : convert options pattern = .error error) :
    (∃ rest, Scan.Remains pattern error.cause.position rest ∧ error.cause.PointsAt rest) ∧
      ∀ position, error.cause = .parse (.unclosedGroup position) →
        ∃ before following opener outer,
          Growth.Halts (Scan.ofPattern options.magicness pattern).tokens before following ∧
            (∀ token, following = some token → token.kind = .optionalClose) ∧
              Token.unclosed before = opener :: outer ∧ opener.kind = .groupOpen ∧
                opener.position = position := by
  have located := Scan.located_ofPattern options.magicness pattern
  refine ⟨?_, ?_⟩
  · rcases blames_of_convert failed with ⟨cause, stopped, same⟩ | ⟨cause, same, blames⟩
    · rw [same]
      exact Scan.pointsAt_of_result stopped
    · rw [same]
      exact blames.pointsAt located
  · intro position unclosed
    rcases blames_of_convert failed with ⟨cause, stopped, same⟩ | ⟨cause, same, blames⟩
    · cases unclosed.symm.trans same
    · cases unclosed.symm.trans same
      exact blames.unclosed

/-- A group is still open where the optional sequence around it is closed, behind a character of
two bytes. -/
theorem pointsAt_of_convert_nested :
    convert {} "é\\%[a\\(b]" =
        .error
          { pattern := "é\\%[a\\(b]"
            partialText := some "é\\%[a(b]"
            cause := .parse (.unclosedGroup 6) } ∧
      (∃ rest, Scan.Remains "é\\%[a\\(b]" 6 rest ∧ StartsWith rest groupOpenings) ∧
        ∃ before following opener outer,
          Growth.Halts (Scan.ofPattern .magic "é\\%[a\\(b]").tokens before following ∧
            (∀ token, following = some token → token.kind = .optionalClose) ∧
              Token.unclosed before = opener :: outer ∧ opener.kind = .groupOpen ∧
                opener.position = 6 := by
  have failed :
      convert {} "é\\%[a\\(b]" =
        .error
          { pattern := "é\\%[a\\(b]"
            partialText := some "é\\%[a(b]"
            cause := .parse (.unclosedGroup 6) } := by
    rfl
  obtain ⟨found, innermost⟩ := pointsAt_of_convert failed
  exact ⟨failed, found, innermost 6 rfl⟩

end VimPattern
