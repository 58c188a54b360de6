/-
Module: VimPattern.Proofs.Scan.Markers
Purpose: The case markers that the rules read and those that are found without them.
Main exports:
  Content.caseMarker?, Content.Shows, Context.SpellsOutside.shows, Scan.straddled,
  Scan.Reads.caseMarker?_eq, ignoreCase_of_convert
-/
import VimPattern.Proofs.Grammar.Acceptance
import VimPattern.Proofs.Scan.Joints
import VimPattern.Proofs.Scan.Tokens
import VimPattern.Proofs.Spelling.Translation

namespace VimPattern

open Sketch

/-!
Whether case is folded is settled before any rule looks at the pattern, by a search that only
knows that a backslash takes the next character with it.  The rules read the same markers as
long as every item ends where one of these pairs ends.  Outside collections this is so for all
items but one: the name of a mark may be a backslash, which the search takes together with the
character behind the mark.
-/

/-! ### Texts without a marker -/

/-- The text holds no case marker, but ends in a backslash that takes the next character. -/
def LeavesBackslash (text : List Char) : Prop :=
  ∃ front, Unmarked front ∧ text = front ++ ['\\']

theorem LeavesBackslash.behind {front text : List Char} (unmarked : Unmarked front)
    (leaves : LeavesBackslash text) : LeavesBackslash (front ++ text) := by
  obtain ⟨inner, free, rfl⟩ := leaves
  exact ⟨front ++ inner, unmarked.append free, (List.append_assoc _ _ _).symm⟩

theorem unmarked_singleton {char : Char} (bare : char ≠ '\\') : Unmarked [char] :=
  unmarked_of_forall (List.forall_mem_singleton.2 bare)

/-- A backslash before a character that is none itself and stands for no marker is passed
over. -/
theorem caseMarker?_backslash {text : List Char}
    (apart : ∀ char ∈ text.head?, isUnmarking char) :
    caseMarker? ('\\' :: text) = caseMarker? text := by
  cases text with
  | nil => rfl
  | cons char text =>
      have free := apart char rfl
      have bare : Unmarked [char] := by
        apply unmarked_of_all
        simpa using free
      exact (unmarked_escape free text).trans (bare text).symm

section
variable {text : List Char} {more : Nat}

/-- A character that may stand at the start of a text is passed over. -/
theorem unmarked_skip {char : Char} (bare : char ≠ '\\')
    (later : Unmarked ((if text.head? == some char then text.drop 1 else text).take more)) :
    Unmarked (text.take ((if text.head? == some char then 1 else 0) + more)) := by
  by_cases starts : text.head? == some char
  · rw [if_pos starts] at later ⊢
    obtain ⟨others, rfl⟩ := List.head?_eq_some_iff.1 (eq_of_beq starts)
    rw [Nat.add_comm]
    exact (unmarked_singleton bare).append later
  · rw [if_neg starts] at later ⊢
    rwa [Nat.zero_add]

/-- The characters at the start of a text that belong together are passed over. -/
theorem unmarked_span {belongs : Char → Bool} (stops : belongs '\\' = false)
    (later : Unmarked ((text.dropWhile belongs).take more)) :
    Unmarked (text.take ((text.takeWhile belongs).length + more)) := by
  have span : Unmarked (text.takeWhile belongs) := by
    apply unmarked_of_forall
    rintro char among rfl
    rw [List.all_eq_true.1 List.all_takeWhile _ among] at stops
    cases stops
  have parts : (text.takeWhile belongs ++ text.dropWhile belongs).take
      ((text.takeWhile belongs).length + more) = _ := List.take_length_add_append more
  rw [List.takeWhile_append_dropWhile] at parts
  rw [parts]
  exact span.append later

end

/-! ### What the readers take -/

theorem Collection.unmarked_readOpening (withBreak : Bool) (text : List Char) :
    Unmarked (text.take (readOpening withBreak text).2) := by
  have bracket (others : List Char) :
      Unmarked (others.take ((if others.head? == some ']' then 1 else 0) + 0)) :=
    unmarked_skip (by decide) unmarked_nil
  exact unmarked_skip (by decide) (bracket _)

theorem Braces.unmarked_read? {closingEscape : Bool} {text : List Char} {braces : Braces}
    {taken : Nat} (read : Braces.read? closingEscape text = some (braces, taken)) :
    Unmarked (text.take taken) := by
  have digits : Char.isDigit '\\' = false := rfl
  unfold read? at read
  dsimp only at read
  split at read
  · next closing =>
      cases read
      rw [Nat.add_assoc, Nat.add_assoc, Nat.add_assoc]
      refine unmarked_skip (by decide) (unmarked_span digits (unmarked_skip (by decide)
        (unmarked_span digits ?_)))
      rw [closing]
      exact unmarked_singleton (by decide)
  · next closing =>
      split at read <;> cases read
      rw [Nat.add_assoc, Nat.add_assoc, Nat.add_assoc]
      refine unmarked_skip (by decide) (unmarked_span digits (unmarked_skip (by decide)
        (unmarked_span digits ?_)))
      rw [closing]
      exact unmarked_escape rfl
  · cases read

theorem Assertion.unmarked_read? {text : List Char} {assertion : Assertion} {taken : Nat}
    (read : Assertion.read? text = some (assertion, taken)) : Unmarked (text.take taken) := by
  have digits : Char.isDigit '\\' = false := rfl
  unfold read? at read
  split at read
  · cases read
    exact unmarked_singleton (by decide)
  · cases read
    exact unmarked_singleton (by decide)
  · cases read
    exact unmarked_singleton (by decide)
  · dsimp only at read
    split at read
    · next sign =>
        cases read
        apply unmarked_span digits
        rw [sign]
        exact @unmarked_of_all ['<', '='] rfl
    · next sign =>
        cases read
        apply unmarked_span digits
        rw [sign]
        exact @unmarked_of_all ['<', '!'] rfl
    · cases read

/-- The digits of a number stand at the start of the text and are no backslashes. -/
theorem CodeNotation.unmarked_digits (codeNotation : CodeNotation) (text : List Char) :
    Unmarked (text.take (codeNotation.digits text).length) := by
  let available := text.takeWhile (Digits.isDigitIn codeNotation.radix)
  have leads : codeNotation.digits text <+: available := by
    unfold digits
    dsimp only
    split
    · exact List.take_prefix _ _
    · exact List.prefix_rfl
  have same := List.prefix_iff_eq_take.1 (leads.trans ( List.takeWhile_prefix _))
  rw [← same]
  apply unmarked_of_forall
  rintro char among rfl
  have digit := List.all_eq_true.1 List.all_takeWhile _ (leads.subset among)
  cases codeNotation <;> cases digit

theorem CodePoint.unmarked_read? {text : List Char} {found : Option Char} {taken : Nat}
    (read : CodePoint.read? text = some (found, taken)) : Unmarked (text.take taken) := by
  cases text with
  | nil => cases read
  | cons letter text =>
      rw [read?] at read
      split at read
      · next codeNotation announced =>
          dsimp only at read
          split at read
          · cases read
          · cases read
            have bare : letter ≠ '\\' := by
              rintro rfl
              cases announced
            exact (unmarked_singleton bare).append (codeNotation.unmarked_digits text)
      · cases read

/-- The number of a line or a column has no backslash in it. -/
theorem unmarked_column {text : List Char} {taken : Nat}
    (unnamed : ∀ name others, text ≠ '\x27' :: name :: others)
    (read : markOrColumnLength? text = some taken) : Unmarked (text.take taken) := by
  have digits : Char.isDigit '\\' = false := rfl
  unfold markOrColumnLength? at read
  split at read
  · exact absurd rfl (unnamed _ _)
  · dsimp only at read
    split at read
    · next unit others behind =>
        split at read
        · next counted =>
            cases read
            apply unmarked_span digits
            rw [behind]
            apply unmarked_singleton
            rintro rfl
            simp at counted
        · cases read
    · cases read

/-- Only the name of a mark may be a backslash. -/
theorem unmarked_markOrColumn {text : List Char} {taken : Nat}
    (read : markOrColumnLength? text = some taken) :
    Unmarked (text.take taken) ∨
      LeavesBackslash (text.take taken) ∧ ['\x27'] <+: text.take taken := by
  by_cases named : ∃ name others, text = '\x27' :: name :: others
  · obtain ⟨name, others, rfl⟩ := named
    rw [markOrColumnLength?] at read
    split at read <;> cases read
    have quote : Unmarked ['\x27'] := unmarked_singleton (by decide)
    by_cases backslash : name = '\\'
    · subst backslash
      exact .inr ⟨⟨_, quote, rfl⟩, _, rfl⟩
    · exact .inl (quote.append (unmarked_singleton backslash))
  · exact .inl (unmarked_column (fun name others same => named ⟨name, others, same⟩) read)

/-- Behind a percent sign, too, a backslash is left only where a mark is named. -/
theorem unmarked_editorPosition {text : List Char} {taken : Nat}
    (read : editorPositionLength? text = some taken) :
    Unmarked (text.take taken) ∨
      LeavesBackslash (text.take taken) ∧
        ∃ waiting ∈ markPrefixes, waiting <+: '\\' :: '%' :: text.take taken := by
  unfold editorPositionLength? at read
  split at read
  · cases read
    exact .inl (unmarked_singleton (by decide))
  · cases read
    exact .inl (unmarked_singleton (by decide))
  · obtain ⟨size, place, rfl⟩ := Option.map_eq_some_iff.1 read
    have before : Unmarked ['<'] := unmarked_singleton (by decide)
    refine (unmarked_markOrColumn place).imp before.append ?_
    rintro ⟨leaves, named⟩
    exact ⟨.behind before leaves, _, .tail _ (.head _),
      List.prefix_append_right_inj ['\\', '%', '<'] |>.2 named⟩
  · obtain ⟨size, place, rfl⟩ := Option.map_eq_some_iff.1 read
    have before : Unmarked ['>'] := unmarked_singleton (by decide)
    refine (unmarked_markOrColumn place).imp before.append ?_
    rintro ⟨leaves, named⟩
    exact ⟨.behind before leaves, _, .tail _ (.tail _ (.head _)),
      List.prefix_append_right_inj ['\\', '%', '>'] |>.2 named⟩
  · refine (unmarked_markOrColumn read).imp_right ?_
    rintro ⟨leaves, named⟩
    exact ⟨leaves, _, .head _, List.prefix_append_right_inj ['\\', '%'] |>.2 named⟩

/-! ### What an item shows -/

/-- What an item says about case. -/
def Content.caseMarker? : Content → Option Bool
  | .mark (.caseMarker fold) => some fold
  | _ => none

/-- What the search for a case marker finds in the text of an item: a marker where the item
is one and nothing in it otherwise.  Only a position in the editor may leave a backslash. -/
def Content.Shows (raw : List Char) : Content → Prop
  | .mark (.caseMarker fold) => raw = ['\\', if fold then 'c' else 'C']
  | .mark .editorPosition => Unmarked raw ∨ LeavesBackslash raw
  | _ => Unmarked raw

theorem Operator.unmarked_spelling (operator : Operator) (level : Magicness) :
    Unmarked (operator.spelling level) := by
  unfold Operator.spelling
  split
  · apply unmarked_singleton
    cases operator <;> decide
  · apply unmarked_escape
    cases operator <;> rfl

/-- A backslash with its character, and one more character that is no backslash. -/
theorem unmarked_triple {char last : Char} (free : isUnmarking char) (bare : last ≠ '\\') :
    Unmarked ['\\', char, last] :=
  (unmarked_escape free).append (unmarked_singleton bare)

/-- Outside collections the text of an item shows what the item says about case. -/
theorem Context.SpellsOutside.shows {context : Context} {raw : List Char} {content : Content}
    (spells : context.SpellsOutside raw content) : content.Shows raw := by
  have percent : Unmarked ['\\', '%'] := unmarked_escape rfl
  cases spells with
  | @operator operator _ _ _ _ active means =>
      have spelled := operator.unmarked_spelling context.magicness
      cases means with
      | collection => exact spelled.append (Collection.unmarked_readOpening false _)
      | braces read => exact spelled.append (Braces.unmarked_read? read)
      | assertion read => exact spelled.append (Assertion.unmarked_read? read)
      | _ => exact spelled.append unmarked_nil
  | plain bare => exact unmarked_singleton bare
  | caseMarker => exact rfl
  | editorPosition read =>
      exact (unmarked_editorPosition read).imp percent.append fun leaves =>
        .behind percent leaves.1
  | codePoint read => exact percent.append (CodePoint.unmarked_read? read)
  | collectionOrBreak text =>
      have opening : Unmarked ['\\', '_', '['] := unmarked_triple rfl (by decide)
      exact opening.append (Collection.unmarked_readOpening true text)
  | escaped meaningless =>
      apply unmarked_pair <;> rintro rfl <;> cases meaningless
  | switch switches =>
      apply unmarked_pair <;> rintro rfl <;> cases switches
  | charClass names =>
      apply unmarked_pair <;> rintro rfl <;> cases names
  | backReference range =>
      apply unmarked_pair <;> rintro rfl <;> exact absurd range (by decide)
  | classOrBreak names =>
      apply unmarked_triple rfl
      rintro rfl
      cases names
  | externalReference range =>
      apply unmarked_triple rfl
      rintro rfl
      exact absurd range (by decide)
  | combining | lineBreak => exact unmarked_escape rfl
  | lineStart | lineEnd | anyOrBreak | textStart | textEnd | matchStart | matchEnd
  | externalGroup | cluster | optional => exact unmarked_triple rfl (by decide)
  | bareCluster | bareOptional | optionalClose => exact unmarked_of_all rfl

/-- The search goes on behind an item that says nothing about case.  A backslash that the
item leaves must not find a character there that it makes a marker or an escape with. -/
theorem Content.Shows.caseMarker?_append {content : Content} {raw rest : List Char}
    (shows : content.Shows raw)
    (apart : content = .mark .editorPosition → raw.getLast? = some '\\' →
      ∀ char ∈ rest.head?, isUnmarking char) :
    VimPattern.caseMarker? (raw ++ rest) =
      content.caseMarker?.or (VimPattern.caseMarker? rest) := by
  cases content with
  | lexeme lexeme => exact shows rest
  | mark mark =>
      cases mark with
      | caseMarker fold =>
          obtain rfl : raw = _ := shows
          cases fold <;> rfl
      | editorPosition =>
          rcases shows with unmarked | ⟨front, unmarked, rfl⟩
          · exact unmarked rest
          · rw [List.append_assoc, unmarked]
            exact caseMarker?_backslash (apart rfl List.getLast?_concat)
      | _ => exact shows rest

/-! ### What a scan shows -/

/-- What an item of a pattern says about case. -/
def Item.caseMarker? (item : Item) : Option Bool :=
  item.content.caseMarker?

/-- A position in the editor that a mark gives whose name is a backslash. -/
def Item.isBackslashMark (item : Item) : Bool :=
  item.content == .mark .editorPosition && item.raw.toList.getLast? == some '\\'

namespace Scan

/-- Before any case marker there is a mark whose name, a backslash, stands right before a
`c`, a `C` or another backslash. -/
def straddled : List Item → Bool
  | [] => false
  | item :: items =>
      item.caseMarker?.isNone &&
        (item.isBackslashMark &&
            (String.join (items.map Item.raw)).toList.head?.any (!isUnmarking ·) ||
          straddled items)

/-- One more item in front of items that show the markers of their text. -/
theorem caseMarker?_cons {context : Context} {char : Char} {text : List Char} {item : Item}
    {extra : Nat} {items : List Item} (outside : context.collection? = none)
    (verdict : context.verdict char text = .item item.content extra)
    (raw : item.raw = String.ofList (char :: text.take extra))
    (covered : (String.join (items.map Item.raw)).toList = text.drop extra)
    (apart : straddled (item :: items) = false)
    (later : straddled items = false →
      VimPattern.caseMarker? (text.drop extra) = items.findSome? Item.caseMarker?) :
    VimPattern.caseMarker? (char :: text) = (item :: items).findSome? Item.caseMarker? := by
  have shows := (Context.spellsOutside_of_verdict verdict outside).shows
  have parts : char :: text = (char :: text.take extra) ++ text.drop extra := by
    rw [List.cons_append, List.take_append_drop]
  rw [List.findSome?_cons, Item.caseMarker?, parts]
  rw [straddled, Item.caseMarker?, covered] at apart
  cases marker : item.content.caseMarker? with
  | some fold =>
      rw [shows.caseMarker?_append, marker]
      · rfl
      · intro position
        rw [position] at marker
        cases marker
  | none =>
      rw [marker, Option.isNone_none, Bool.true_and, Bool.or_eq_false_iff] at apart
      obtain ⟨joined, others⟩ := apart
      rw [shows.caseMarker?_append, marker]
      · exact later others
      · intro position backslash first starts
        have named : item.isBackslashMark = true := by
          rw [Item.isBackslashMark, position, raw, String.toList_ofList, backslash]
          rfl
        rw [Option.mem_def] at starts
        rw [named, starts] at joined
        simpa using joined

/-- The items of a text that is read to its end tile it. -/
theorem Reads.covered_eq {context : Context} {position : Nat} {text : List Char} {scan : Scan}
    {terminus : Terminus} (reads : Reads context position text scan)
    (finished : scan.ending = .finished terminus) : scan.covered.toList = text := by
  obtain ⟨leftover, tiles, leaves⟩ := covered_readFrom context position 0 text
  rw [reads.readFrom_eq] at tiles leaves
  rw [finished] at leaves
  rw [List.drop_zero, show leftover = [] from leaves, List.append_nil] at tiles
  exact tiles

/-- The search for a case marker finds the first one that the rules read. -/
theorem Reads.caseMarker?_eq {context : Context} {position : Nat} {text : List Char}
    {scan : Scan} {terminus : Terminus} (reads : Reads context position text scan)
    (flat : context.Flat) (outside : context.collection? = none)
    (finished : scan.ending = .finished terminus)
    (uncollected : ∀ token ∈ scan.tokens, token.kind ≠ .collectionOpen)
    (apart : straddled scan.items = false) :
    VimPattern.caseMarker? text = scan.items.findSome? Item.caseMarker? := by
  induction reads with
  | ended => rfl
  | @mark context position char text mark extra scan verdict rest inductionHypothesis =>
      have same := context.enclosing_afterMark mark
      rw [Context.Flat, Context.collection?, same] at inductionHypothesis
      exact caseMarker?_cons outside verdict rfl (rest.covered_eq finished) apart
        (inductionHypothesis flat outside finished uncollected)
  | @token context position char text token extra scan verdict raw place level rest
      inductionHypothesis =>
      rw [tokens_cons_lexeme] at uncollected
      obtain ⟨notOpening, others⟩ := List.forall_mem_cons.1 uncollected
      obtain ⟨flatAfter, after⟩ :=
        flat.afterToken (Context.admits_of_verdict verdict).standsIn
      have outsideAfter : (context.afterToken token).collection? = none := by
        rw [after, outside]
        unfold Lexeme.collectionAfter
        split
        · next opening lexeme => exact absurd (congrArg Lexeme.kind lexeme) notOpening
        · rfl
        · rfl
      exact caseMarker?_cons outside verdict raw (rest.covered_eq finished) apart
        (inductionHypothesis flatAfter outsideAfter finished others)
  | fault => cases finished
  | noRule => cases finished

end Scan

/-! ### Whole patterns -/

/-- In a pattern without collections that is converted, the first case marker that the rules
read decides whether case is folded, and the options decide where they read none, unless a
backslash that names a mark is taken together with the character behind the mark. -/
theorem ignoreCase_of_convert {options : Options} {pattern : String} {conversion : Conversion}
    (converted : convert options pattern = .ok conversion)
    (uncollected : ∀ token ∈ (Scan.ofPattern options.magicness pattern).tokens,
      token.kind ≠ .collectionOpen)
    (apart : Scan.straddled (Scan.ofPattern options.magicness pattern).items = false) :
    conversion.ignoreCase =
      ((Scan.ofPattern options.magicness pattern).items.findSome? Item.caseMarker?).getD
        options.ignoreCase := by
  obtain ⟨grown, complete, folds, _⟩ := exists_grown_of_convert converted
  obtain ⟨⟨terminus, whole⟩, _⟩ := exists_ofScan_iff.1 ⟨grown, complete⟩
  have found := (Scan.reads_ofPattern options.magicness pattern).caseMarker?_eq
    (Context.flat_start _) rfl (Scan.ending_of_result whole) uncollected apart
  rw [folds, foldsCase, found]

/-- The name of the first mark does no harm, the escaped backslash is no part of a marker,
and the second of two markers is too late. -/
theorem ignoreCase_of_convert_late :
    convert { ignoreCase := true } "\\%'\\a\\\\c\\%>'m\\Cb\\c" =
        .ok
          { converted := "a\\\\cb"
            ignoreCase := false
            magicness := .magic
            metadata := {} } ∧
      (∀ token ∈ (Scan.ofPattern .magic "\\%'\\a\\\\c\\%>'m\\Cb\\c").tokens,
        token.kind ≠ .collectionOpen) ∧
        Scan.straddled (Scan.ofPattern .magic "\\%'\\a\\\\c\\%>'m\\Cb\\c").items = false ∧
          false =
            ((Scan.ofPattern .magic "\\%'\\a\\\\c\\%>'m\\Cb\\c").items.findSome?
              Item.caseMarker?).getD true := by
  have converted :
      convert { ignoreCase := true } "\\%'\\a\\\\c\\%>'m\\Cb\\c" =
        .ok
          { converted := "a\\\\cb"
            ignoreCase := false
            magicness := .magic
            metadata := {} } := by
    rfl
  have uncollected :
      ∀ token ∈ (Scan.ofPattern .magic "\\%'\\a\\\\c\\%>'m\\Cb\\c").tokens,
        token.kind ≠ .collectionOpen := by
    decide +kernel
  have apart :
      Scan.straddled (Scan.ofPattern .magic "\\%'\\a\\\\c\\%>'m\\Cb\\c").items = false := by
    decide +kernel
  exact ⟨converted, uncollected, apart, ignoreCase_of_convert converted uncollected apart⟩

/-- A mark whose name is a backslash hides the marker behind it, or makes one out of its name
and a letter that stands for itself. -/
theorem ignoreCase_straddled :
    (convert {} "\\%'\\\\ca" =
        .ok
          { converted := "a"
            ignoreCase := false
            magicness := .magic
            metadata := {} } ∧
      (∀ token ∈ (Scan.ofPattern .magic "\\%'\\\\ca").tokens,
        token.kind ≠ .collectionOpen) ∧
        (Scan.ofPattern .magic "\\%'\\\\ca").items.findSome? Item.caseMarker? =
          some true) ∧
      convert {} "\\%'\\ca" =
          .ok
            { converted := "(?i:ca)"
              ignoreCase := true
              magicness := .magic
              metadata := {} } ∧
        (∀ token ∈ (Scan.ofPattern .magic "\\%'\\ca").tokens,
          token.kind ≠ .collectionOpen) ∧
          (Scan.ofPattern .magic "\\%'\\ca").items.findSome? Item.caseMarker? = none := by
  refine ⟨⟨rfl, ?_, ?_⟩, rfl, ?_, ?_⟩ <;> decide +kernel

end VimPattern
