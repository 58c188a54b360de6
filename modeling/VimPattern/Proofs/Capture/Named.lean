/-
Module: VimPattern.Proofs.Capture.Named
Purpose: The group names in the text of a tree, and when none of them occurs twice.
Main exports:
  Tree.names, Trace.Names, Tree.Lexed.tells_names, Tree.namesLast, Tree.mem_names,
  Tree.nodup_names_iff
-/
import VimPattern.Proofs.Capture.Leading
import VimPattern.Proofs.Capture.Names
import VimPattern.Proofs.Target.Names

namespace VimPattern

open Target

/-!
The names in the text of a tree are those that its tokens leave, in their order, but
an optional sequence writes its earlier pieces again and with them their names.  All
names are written at least once, and none is written twice exactly where no optional
sequence has a name before its last piece.
-/

/-- The group names that the parts of a tree are written with. -/
def Tree.names (namedGroups : Bool) : {rank : Rank} → Tree rank → List (List GroupName)
  | _, .literal token => [(token.groupName? namedGroups).toList]
  | _, .anchor _ _ => [[]]
  | _, .group opener body _ =>
      [(opener.groupName? namedGroups).toList ++ (body.names namedGroups).flatten]
  | _, .collection _ _ _ => [[]]
  | _, .optional _ pieces _ => [copies (pieces.names namedGroups)]
  | _, .bare atom => atom.names namedGroups
  | _, .quantified atom _ => [(atom.names namedGroups).flatten]
  | _, .asserted piece _ => [(piece.names namedGroups).flatten]
  | _, .empty => []
  | _, .snoc pieces piece => pieces.names namedGroups ++ piece.names namedGroups
  | _, .operand concat => [(concat.names namedGroups).flatten]
  | _, .both operands _ concat =>
      operands.names namedGroups ++ [(concat.names namedGroups).flatten]
  | _, .single branch => [(branch.names namedGroups).flatten]
  | _, .either alternatives _ branch =>
      alternatives.names namedGroups ++ [(branch.names namedGroups).flatten]

/-! ### Names in texts -/

/-- The group names of the trace are these, whatever follows it. -/
def Trace.Names (trace : Trace) (names : List GroupName) : Prop :=
  Tells naming GroupName.text trace names

/-- The texts that name no group. -/
def Trace.nameless : Family :=
  silence (naming : Listener (Option Token) String) deaf_naming

namespace GroupName

theorem isAlphanum_text (name : GroupName) : ∀ char ∈ name.text.toList, char.isAlphanum := by
  have numbered (letter : String) (alphabetic : letter.toList.all Char.isAlphanum)
      (number : Nat) : ∀ char ∈ (letter ++ toString number).toList, char.isAlphanum := by
    intro char among
    rw [String.toList_append, List.mem_append] at among
    rcases among with front | digit
    · exact List.all_eq_true.1 alphabetic char front
    · simp [Char.isAlphanum, isDigit_of_mem_toString digit]
  cases name with
  | matchStart => exact List.all_eq_true.1 rfl
  | matchEnd => exact List.all_eq_true.1 rfl
  | external number => exact numbered "z" rfl number
  | capture number => exact numbered "g" rfl number

theorem text_ne_nil (name : GroupName) : name.text.toList ≠ [] := by
  cases name with
  | matchStart => decide
  | matchEnd => decide
  | external number => simp [text, String.toList_append]
  | capture number => simp [text, captureName, String.toList_append]

/-- The opening of a named group names it. -/
theorem names_opening (name : GroupName) (source : Option Token) :
    Trace.Names (spell source ("(?<" ++ name.text ++ ">")) [name] :=
  yields_named name.isAlphanum_text name.text_ne_nil source

end GroupName

open Trace

/-- An atom leaves the group that its token is named for. -/
theorem Literal.names_text {style : Style} (accepts : nameless.Accepts style.options)
    {literal : Literal} (readable : (Lexeme.literal literal).Readable)
    (source : Option Token) :
    Trace.Names (spell source (literal.text style))
      ((Lexeme.literal literal).groupName? style.namedGroups).toList := by
  have limit (name : GroupName) :
      Trace.Names (spell source ("(?<" ++ name.text ++ ">" ++ ")")) [name] := by
    have whole :=
      Tells.append (name.names_opening source) (tells_spell silent_closing source)
    simpa [spell, Trace.Names] using whole
  by_cases names : literal.namesGroup
  · cases literal with
    | matchStart first =>
        obtain rfl : first = true := names
        exact limit .matchStart
    | matchEnd first =>
        obtain rfl : first = true := names
        exact limit .matchEnd
    | _ => cases names
  · have unnamed : (Lexeme.literal literal).groupName? style.namedGroups = none := by
      cases literal with
      | matchStart first | matchEnd first =>
          obtain rfl : first = false := Bool.eq_false_iff.2 names
          rfl
      | _ => rfl
    rw [unnamed]
    exact tells_spell (literal.whole_text accepts readable fun named => absurd named names) _

namespace Tree

variable {style : Style}

/-- Behind a parenthesis without a mark no name is heard, if the text there does not
begin with a question mark. -/
theorem names_parenthesis {body : Trace} (unled : ¬Led body.text) {names : List GroupName}
    (inside : Trace.Names body names) (opener : Token) (last : Option Token) :
    Trace.Names (spell (some opener) "(" ++ body ++ spell last ")") names := by
  intro others
  have behind := (Tells.append inside (tells_spell silent_closing last)) others
  have unheard : groupName? (letters (body ++ spell last ")" ++ others)) = none := by
    rw [Led, Trace.text, String.toList_ofList] at unled
    rw [letters_append, letters_append, letters_spell]
    unfold groupName?
    split
    · next same =>
        cases written : letters body with
        | nil =>
            rw [written] at same
            cases same
        | cons char text =>
            have question : char = '?' := by
              rw [written] at same
              exact (List.cons.inj same).1
            apply absurd _ unled
            rw [written, question]
            rfl
    · rfl
  have heard :
      openings naming .outside
          (({ char := '(', source := some opener } : Glyph (Option Token)) ::
            (body ++ spell last ")" ++ others)) = _ :=
    openings_parenthesis rfl _
  rw [naming, unheard, behind, List.append_nil] at heard
  simpa [spell] using heard

/-- A group is named by its opening, if its text does not begin with a question
mark. -/
theorem names_group {opener closer : Token} {body : Tree .pattern}
    (opens : ∃ sort, opener.lexeme = .groupOpen sort)
    (closes : closer.lexeme = .groupClose)
    (unled : opener.opensCapture → ¬Led (body.text style)) {names : List GroupName}
    (inside : Trace.Names (body.trace style) names) :
    Trace.Names (opener.trace style ++ body.trace style ++ closer.trace style)
      ((opener.groupName? style.namedGroups).toList ++ names) := by
  obtain ⟨sort, opens⟩ := opens
  have closing : closer.trace style = spell (some closer) ")" := by
    rw [Token.trace, Token.text, closes]
  have opening : opener.trace style = spell (some opener) (sort.text style) := by
    rw [Token.trace, Token.text, opens]
  have bare : Trace.Names (spell (some closer) ")") [] := tells_spell silent_closing _
  have behind {own : List GroupName}
      (front : Trace.Names (spell (some opener) (sort.text style)) own) :
      Trace.Names
        (spell (some opener) (sort.text style) ++ body.trace style ++
          spell (some closer) ")")
        (own ++ names) := by
    have whole := Tells.append (Tells.append front inside) bare
    rwa [List.append_nil] at whole
  have named (name : GroupName) (text : sort.text style = "(?<" ++ name.text ++ ">") :
      Trace.Names (spell (some opener) (sort.text style)) [name] := by
    rw [text]
    exact name.names_opening _
  rw [opening, closing, Token.groupName?, opens]
  cases sort with
  | nonCapturing => exact behind (tells_spell (deaf_naming.silent (.head _)) _)
  | external number =>
      apply behind (named (.external number) _)
      simp [GroupSort.text, GroupName.text, ← String.append_assoc]
  | capturing number =>
      cases asked : style.namedGroups with
      | true =>
          apply behind (named (.capture number) _)
          simp [GroupSort.text, GroupName.text, asked]
      | false =>
          have captures : opener.opensCapture := by rw [Token.opensCapture, opens]
          have text : (GroupSort.capturing number).text style = "(" := by
            simp [GroupSort.text, asked]
          have notLed := unled captures
          rw [← Tree.text_trace] at notLed
          rw [text]
          exact names_parenthesis notLed inside opener (some closer)

/-- The group names in the text of a lexed tree are those that `names` collects, if no
text of a capturing group begins with a question mark. -/
theorem Lexed.tells_names (accepts : nameless.Accepts style.options) {rank : Rank}
    {tree : Tree rank} (lexed : tree.Lexed) (unled : tree.Unled style) :
    List.Forall₂ Trace.Names (tree.traces style) (tree.names style.namedGroups) := by
  have only {trace : Trace} {names : List GroupName} (tells : Trace.Names trace names) :
      List.Forall₂ Trace.Names [trace] [names] := .cons tells .nil
  induction tree with
  | literal token =>
      obtain ⟨literal, same, readable⟩ := lexed
      apply only
      rw [Token.trace, Token.text, Token.groupName?, same]
      exact literal.names_text accepts readable _
  | anchor token place =>
      exact only (tells_spell (whole_anchorText accepts lexed place) _)
  | group opener body closer bodyNames =>
      obtain ⟨sort, inside, closes⟩ := lexed
      obtain ⟨notLed, within⟩ := unled
      exact only (names_group sort closes notLed (tells_separated (bodyNames inside within)))
  | collection opener members closer =>
      obtain ⟨⟨opening, opens, closes⟩, inside⟩ := lexed
      exact only (tells_collection accepts opens closes inside)
  | optional opener pieces closer piecesNames =>
      exact only (tells_chain deaf_naming (piecesNames lexed.2.1 unled))
  | bare atom atomNames => exact atomNames lexed unled
  | quantified atom quantifier atomNames =>
      obtain ⟨core, count, same, readable⟩ := lexed
      have repeated : Trace.Names (quantifier.trace style) [] := by
        rw [Token.trace, Token.text, same]
        exact tells_spell (Quantifier.whole_text nameless readable) _
      have whole := Tells.append (tells_flatten (atomNames core unled)) repeated
      rw [List.append_nil] at whole
      exact only whole
  | asserted piece assertion pieceNames =>
      obtain ⟨core, test, same⟩ := lexed
      have body := tells_flatten (pieceNames core unled)
      have opening : assertion.trace style = spell (some assertion) test.text := by
        rw [Token.trace, Token.text, same]
      apply only
      rw [opening]
      exact body.enclosed deaf_naming test.text_mem_marks (some assertion) none
  | empty => exact .nil
  | snoc pieces piece piecesNames pieceNames =>
      exact List.rel_append (piecesNames lexed.1 unled.1) (pieceNames lexed.2 unled.2)
  | operand concat concatNames => exact only (tells_flatten (concatNames lexed unled))
  | both operands separator concat operandsNames concatNames =>
      exact
        List.rel_append (operandsNames lexed.1 unled.1)
          (only (tells_flatten (concatNames lexed.2.2 unled.2)))
  | single branch branchNames =>
      exact only (tells_conjunction deaf_naming (branchNames lexed unled))
  | either alternatives separator branch alternativesNames branchNames =>
      exact
        List.rel_append (alternativesNames lexed.1 unled.1)
          (only (tells_conjunction deaf_naming (branchNames lexed.2.2 unled.2)))

/-! ### Names written once -/

/-- In every optional sequence only the last piece leaves groups with names. -/
def namesLast (namedGroups : Bool) : {rank : Rank} → Tree rank → Bool
  | _, .literal _ => true
  | _, .anchor _ _ => true
  | _, .group _ body _ => body.namesLast namedGroups
  | _, .collection _ _ _ => true
  | _, .optional _ pieces _ =>
      (Token.groupNames namedGroups pieces.front.tokens).isEmpty &&
        pieces.namesLast namedGroups
  | _, .bare atom => atom.namesLast namedGroups
  | _, .quantified atom _ => atom.namesLast namedGroups
  | _, .asserted piece _ => piece.namesLast namedGroups
  | _, .empty => true
  | _, .snoc pieces piece => pieces.namesLast namedGroups && piece.namesLast namedGroups
  | _, .operand concat => concat.namesLast namedGroups
  | _, .both operands _ concat =>
      operands.namesLast namedGroups && concat.namesLast namedGroups
  | _, .single branch => branch.namesLast namedGroups
  | _, .either alternatives _ branch =>
      alternatives.namesLast namedGroups && branch.namesLast namedGroups

variable {namedGroups : Bool}

/-- The text of a tree has the names that its tokens leave, and no other ones. -/
theorem mem_names {rank : Rank} {tree : Tree rank} (lexed : tree.Lexed)
    {name : GroupName} :
    name ∈ (tree.names namedGroups).flatten ↔
      name ∈ Token.groupNames namedGroups tree.tokens := by
  induction tree with
  | literal token => simp [names, tokens, Token.groupNames]
  | anchor token place =>
      have unnamed : token.groupName? namedGroups = none := by
        rcases lexed with same | same <;> exact Token.groupName?_eq_none same rfl
      simp [names, tokens, unnamed]
  | group opener body closer bodyMem =>
      obtain ⟨_, inside, closes⟩ := lexed
      have closing : closer.groupName? namedGroups = none :=
        Token.groupName?_eq_none closes rfl
      simp [names, tokens, bodyMem inside, closing]
  | collection opener members closer =>
      obtain ⟨⟨opening, opens, closes⟩, inside⟩ := lexed
      have front : opener.groupName? namedGroups = none :=
        Token.groupName?_eq_none opens rfl
      have back : closer.groupName? namedGroups = none :=
        Token.groupName?_eq_none closes rfl
      simp [names, tokens, front, back, Token.groupNames_members inside]
  | optional opener pieces closer piecesMem =>
      obtain ⟨opens, inside, _, closes⟩ := lexed
      have front : opener.groupName? namedGroups = none :=
        Token.groupName?_eq_none opens rfl
      have back : closer.groupName? namedGroups = none :=
        Token.groupName?_eq_none closes rfl
      rw [names, List.flatten_singleton, mem_copies, piecesMem inside]
      simp [tokens, front, back]
  | bare atom atomMem => exact atomMem lexed
  | quantified atom quantifier atomMem =>
      obtain ⟨core, count, same, _⟩ := lexed
      have unnamed : quantifier.groupName? namedGroups = none :=
        Token.groupName?_eq_none same rfl
      simp [names, tokens, atomMem core, unnamed]
  | asserted piece assertion pieceMem =>
      obtain ⟨core, test, same⟩ := lexed
      have unnamed : assertion.groupName? namedGroups = none :=
        Token.groupName?_eq_none same rfl
      simp [names, tokens, pieceMem core, unnamed]
  | empty => simp [names, tokens]
  | snoc pieces piece piecesMem pieceMem =>
      simp [names, tokens, piecesMem lexed.1, pieceMem lexed.2]
  | operand concat concatMem => simp [names, tokens, concatMem lexed]
  | both operands separator concat operandsMem concatMem =>
      have unnamed : separator.groupName? namedGroups = none :=
        Token.groupName?_eq_none lexed.2.1 rfl
      simp [names, tokens, operandsMem lexed.1, concatMem lexed.2.2, unnamed]
  | single branch branchMem => simp [names, tokens, branchMem lexed]
  | either alternatives separator branch alternativesMem branchMem =>
      have unnamed : separator.groupName? namedGroups = none :=
        Token.groupName?_eq_none lexed.2.1 rfl
      simp [names, tokens, alternativesMem lexed.1, branchMem lexed.2.2, unnamed]

/-- The text of a tree has no names exactly where its tokens leave none. -/
theorem names_eq_nil_iff {rank : Rank} {tree : Tree rank} (lexed : tree.Lexed) :
    (tree.names namedGroups).flatten = [] ↔
      Token.groupNames namedGroups tree.tokens = [] := by
  simp only [List.eq_nil_iff_forall_not_mem, mem_names lexed]

/-- The text of a tree has only names that its tokens leave. -/
theorem names_subset {rank : Rank} {tree : Tree rank} (lexed : tree.Lexed) :
    (tree.names namedGroups).flatten ⊆ Token.groupNames namedGroups tree.tokens :=
  fun _ => (mem_names lexed).1

/-- Trees side by side are written without a name twice exactly when each of them
is. -/
theorem nodup_append_names_iff {first second : Rank} {early : Tree first}
    {late : Tree second} (earlyLexed : early.Lexed) (lateLexed : late.Lexed)
    (nodup :
      (Token.groupNames namedGroups early.tokens ++
        Token.groupNames namedGroups late.tokens).Nodup) :
    ((early.names namedGroups).flatten ++ (late.names namedGroups).flatten).Nodup ↔
      (early.names namedGroups).flatten.Nodup ∧ (late.names namedGroups).flatten.Nodup := by
  rw [List.nodup_append]
  constructor
  · rintro ⟨front, back, _⟩
    exact ⟨front, back⟩
  · rintro ⟨front, back⟩
    refine ⟨front, back, ?_⟩
    intro name among other again
    exact
      (List.nodup_append.1 nodup).2.2 name (names_subset earlyLexed among) other
        (names_subset lateLexed again)

/-- A piece is written as one part. -/
theorem names_piece (piece : Tree .piece) :
    piece.names namedGroups = [(piece.names namedGroups).flatten] := by
  have one : ∃ only, piece.names namedGroups = [only] := by
    cases piece with
    | bare atom => cases atom <;> exact ⟨_, rfl⟩
    | quantified atom quantifier => exact ⟨_, rfl⟩
    | asserted piece assertion => exact ⟨_, rfl⟩
  obtain ⟨only, same⟩ := one
  rw [same, List.flatten_singleton]

/-- An optional sequence is written without a name twice exactly when its pieces are
and none but the last leaves one. -/
theorem nodup_copies_names_iff {pieces : Tree .concat} (lexed : pieces.Lexed) :
    (copies (pieces.names namedGroups)).Nodup ↔
      Token.groupNames namedGroups pieces.front.tokens = [] ∧
        (pieces.names namedGroups).flatten.Nodup := by
  cases pieces with
  | empty => exact ⟨fun _ => ⟨rfl, List.nodup_nil⟩, fun _ => List.nodup_nil⟩
  | snoc early last =>
      change
        (copies (early.names namedGroups ++ last.names namedGroups)).Nodup ↔
          Token.groupNames namedGroups early.tokens = [] ∧
            (early.names namedGroups ++ last.names namedGroups).flatten.Nodup
      rw [← names_eq_nil_iff lexed.1, names_piece last, List.flatten_append, List.flatten_singleton]
      constructor
      · intro nodup
        have nothing := flatten_eq_nil_of_nodup_copies nodup
        rw [copies_concat, copies_eq_nil nothing, List.append_nil] at nodup
        exact ⟨nothing, nodup⟩
      · rintro ⟨nothing, nodup⟩
        rw [copies_concat, copies_eq_nil nothing, List.append_nil]
        exact nodup

/-- A tree whose tokens leave no name twice is written without a name twice if and
only if its optional sequences leave names only in their last pieces. -/
theorem nodup_names_iff {rank : Rank} {tree : Tree rank} (lexed : tree.Lexed)
    (nodup : (Token.groupNames namedGroups tree.tokens).Nodup) :
    (tree.names namedGroups).flatten.Nodup ↔ tree.namesLast namedGroups := by
  induction tree with
  | literal token =>
      rw [tokens, Token.groupNames_cons, Token.groupNames_nil, List.append_nil] at nodup
      rw [names, List.flatten_singleton]
      exact ⟨fun _ => rfl, fun _ => nodup⟩
  | anchor token place => exact ⟨fun _ => rfl, fun _ => List.nodup_nil⟩
  | group opener body closer bodyIff =>
      rw [tokens, Token.groupNames_cons, Token.groupNames_append, ← List.append_assoc]
        at nodup
      obtain ⟨front, _, _⟩ := List.nodup_append.1 nodup
      obtain ⟨own, inside, apart⟩ := List.nodup_append.1 front
      rw [names, List.flatten_singleton, namesLast, ← bodyIff lexed.2.1 inside,
        List.nodup_append]
      constructor
      · rintro ⟨_, within, _⟩
        exact within
      · intro within
        refine ⟨own, within, ?_⟩
        intro name among other again
        exact apart name among other (names_subset lexed.2.1 again)
  | collection opener members closer => exact ⟨fun _ => rfl, fun _ => List.nodup_nil⟩
  | optional opener pieces closer piecesIff =>
      rw [tokens, Token.groupNames_cons, Token.groupNames_append] at nodup
      obtain ⟨_, behind, _⟩ := List.nodup_append.1 nodup
      obtain ⟨inside, _, _⟩ := List.nodup_append.1 behind
      rw [names, List.flatten_singleton, nodup_copies_names_iff lexed.2.1,
        piecesIff lexed.2.1 inside, namesLast, Bool.and_eq_true, List.isEmpty_iff]
  | bare atom atomIff => exact atomIff lexed nodup
  | quantified atom quantifier atomIff =>
      rw [tokens, Token.groupNames_append] at nodup
      rw [names, List.flatten_singleton, namesLast]
      exact atomIff lexed.1 (List.nodup_append.1 nodup).1
  | asserted piece assertion pieceIff =>
      rw [tokens, Token.groupNames_append] at nodup
      rw [names, List.flatten_singleton, namesLast]
      exact pieceIff lexed.1 (List.nodup_append.1 nodup).1
  | empty => exact ⟨fun _ => rfl, fun _ => List.nodup_nil⟩
  | snoc pieces piece piecesIff pieceIff =>
      rw [tokens, Token.groupNames_append] at nodup
      obtain ⟨front, last, _⟩ := List.nodup_append.1 nodup
      rw [names, List.flatten_append, nodup_append_names_iff lexed.1 lexed.2 nodup,
        piecesIff lexed.1 front, pieceIff lexed.2 last, namesLast, Bool.and_eq_true]
  | operand concat concatIff =>
      rw [names, List.flatten_singleton, namesLast]
      exact concatIff lexed nodup
  | both operands separator concat operandsIff concatIff =>
      have unnamed : separator.groupName? namedGroups = none :=
        Token.groupName?_eq_none lexed.2.1 rfl
      rw [tokens, Token.groupNames_append, Token.groupNames_cons, unnamed] at nodup
      obtain ⟨front, last, _⟩ := List.nodup_append.1 nodup
      rw [names, List.flatten_append, List.flatten_singleton,
        nodup_append_names_iff lexed.1 lexed.2.2 nodup, operandsIff lexed.1 front,
        concatIff lexed.2.2 last, namesLast, Bool.and_eq_true]
  | single branch branchIff =>
      rw [names, List.flatten_singleton, namesLast]
      exact branchIff lexed nodup
  | either alternatives separator branch alternativesIff branchIff =>
      have unnamed : separator.groupName? namedGroups = none :=
        Token.groupName?_eq_none lexed.2.1 rfl
      rw [tokens, Token.groupNames_append, Token.groupNames_cons, unnamed] at nodup
      obtain ⟨front, last, _⟩ := List.nodup_append.1 nodup
      rw [names, List.flatten_append, List.flatten_singleton,
        nodup_append_names_iff lexed.1 lexed.2.2 nodup, alternativesIff lexed.1 front,
        branchIff lexed.2.2 last, namesLast, Bool.and_eq_true]

end Tree

end VimPattern
