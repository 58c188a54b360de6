/-
Module: VimPattern.Proofs.Wording.Ignored
Purpose: Items that only an editor can make sense of are invisible in the conversion.
Main exports:
  Scan.Dropped, IgnoredItem, Scan.Reaches.insert, Scan.Alike.of_dropped, convert_insert
-/
import VimPattern.Proofs.Scan.Pairs
import VimPattern.Proofs.Wording.Moving

namespace VimPattern

/-!
A remark on combining characters, the selection and the cursor are read as items and dropped.
Between two items of a pattern such an item may be put in or left out: the item before it does
not grow into it, since it starts with a backslash; the context behind it is the one before it,
so that the next item is read as if it were not there; and the search for a case marker, which
comes by the boundary, passes over it.  What is left of it is that the tokens behind it stand
further on.
-/

/-- Outside collections the text is read as one item, which leaves no token and the context as
it is, and no item before it grows into it. -/
structure Scan.Dropped (characters : List Char) : Prop where
  exists_verdict : ∀ {context : Context}, context.collection? = none → ∀ text,
    ∃ char more mark, characters = char :: more ∧
      context.verdict char (more ++ text) = .item (.mark mark) more.length ∧
        context.afterMark mark = context
  detached : ∀ text, Detached (characters ++ text)

/-- The items that are dropped and leave everything as it is, wherever they stand. -/
inductive IgnoredItem : String → Prop
  /-- A remark on combining characters. -/
  | combining : IgnoredItem "\\Z"
  /-- The selection. -/
  | selection : IgnoredItem "\\%V"
  /-- The cursor. -/
  | cursor : IgnoredItem "\\%#"

namespace IgnoredItem

variable {ignored : String} (item : IgnoredItem ignored)
include item

theorem dropped : Scan.Dropped ignored.toList where
  exists_verdict outside text := by
    simp only [Context.verdict_outside outside]
    cases item <;> exact ⟨_, _, _, rfl, rfl, rfl⟩
  detached text := by
    cases item <;> exact ⟨_, _, rfl, by decide, by decide, by decide⟩

/-- It is no case marker. -/
theorem unmarked : Sketch.Unmarked ignored.toList := by
  cases item with
  | combining => exact Sketch.unmarked_escape rfl
  | selection => exact unmarked_triple rfl (by decide)
  | cursor => exact unmarked_triple rfl (by decide)

end IgnoredItem

/-! ### Reading -/

namespace Scan

section

variable {level : Magicness} {front back characters : List Char} {items : List Item}
  {context : Context} {position : Nat}

/-- With a dropped item at a boundary reading comes to the same context behind the item. -/
theorem Reaches.insert (dropped : Dropped characters)
    (unnamed : ∀ waiting ∈ markPrefixes, ¬waiting <:+: front ++ back)
    (boundary : Reaches level (String.ofList (front ++ back)) items context position back)
    (outside : context.collection? = none) :
    ∃ mark place,
      Reaches level (String.ofList (front ++ (characters ++ back)))
        (items ++ [itemAt context (.mark mark) characters position]) context place back := by
  have named (waiting : List Char) (among : waiting ∈ markPrefixes) : ¬waiting <:+ front :=
    fun ends => unnamed waiting among (ends.isInfix.trans (List.prefix_append _ _).isInfix)
  have reaches := boundary.exchange (dropped.detached back) named [] rfl fun _ => outside
  obtain ⟨char, more, mark, rfl, verdict, kept⟩ := dropped.exists_verdict outside back
  rw [List.nil_append, List.cons_append] at reaches
  rw [List.cons_append]
  have behind := reaches.item verdict
  rw [List.take_left, List.drop_left, contextAfter, kept] at behind
  exact ⟨mark, _, behind⟩

/-- A pattern with a dropped item at a boundary has the tokens of the pattern without it. -/
theorem Alike.of_dropped (dropped : Dropped characters)
    (unnamed : ∀ waiting ∈ markPrefixes, ¬waiting <:+: front ++ back)
    (boundary : Reaches level (String.ofList (front ++ back)) items context position back)
    (outside : context.collection? = none) :
    (ofPattern level (String.ofList (front ++ back))).Alike
      (ofPattern level (String.ofList (front ++ (characters ++ back)))) := by
  obtain ⟨mark, place, behind⟩ := boundary.insert dropped unnamed outside
  rw [boundary.ofPattern_eq, behind.ofPattern_eq]
  exact .of_readFrom context position place items rfl back

end

/-- An ignored item is dropped. -/
theorem Alike.of_insert {level : Magicness} {front back : List Char} {ignored : String}
    {items : List Item} {context : Context} {position : Nat} (item : IgnoredItem ignored)
    (unnamed : ∀ waiting ∈ markPrefixes, ¬waiting <:+: front ++ back)
    (boundary : Reaches level (String.ofList (front ++ back)) items context position back)
    (outside : context.collection? = none) :
    (ofPattern level (String.ofList (front ++ back))).Alike
      (ofPattern level (String.ofList (front ++ (ignored.toList ++ back)))) :=
  .of_dropped item.dropped unnamed boundary outside

end Scan

/-! ### Conversion -/

/-- The search for a case marker passes over an ignored item at a boundary. -/
theorem foldsCase_insert (options : Options) {front : List Char} (back : List Char)
    {ignored : String} (item : IgnoredItem ignored) (paired : Paired front) :
    foldsCase options (String.ofList (front ++ (ignored.toList ++ back))) =
      foldsCase options (String.ofList (front ++ back)) := by
  rw [foldsCase, foldsCase, String.toList_ofList, String.toList_ofList, paired, item.unmarked,
    paired]

/-- An item that only an editor can make sense of is invisible: put in at a boundary between
two items that is not inside a collection, it changes neither whether the pattern converts nor
anything of the conversion. -/
theorem convert_insert (options : Options) {u v ignored : String} {items : List Item}
    {context : Context} {position : Nat} (item : IgnoredItem ignored)
    (unnamed : ∀ waiting ∈ markPrefixes, ¬waiting <:+: (u ++ v).toList)
    (boundary : Scan.Reaches options.magicness (u ++ v) items context position v.toList)
    (state : context.region = .initial ∨ context.region = .optionalMatch)
    (nonempty : u ++ v ≠ "") (conversion : Conversion) :
    convert options (u ++ ignored ++ v) = .ok conversion ↔
      convert options (u ++ v) = .ok conversion := by
  have outside := Context.collection?_eq_none state
  have whole : u ++ v = String.ofList (u.toList ++ v.toList) := by
    rw [String.ofList_append, String.ofList_toList, String.ofList_toList]
  have longer : u ++ ignored ++ v =
      String.ofList (u.toList ++ (ignored.toList ++ v.toList)) := by
    rw [String.ofList_append, String.ofList_append, String.ofList_toList, String.ofList_toList,
      String.ofList_toList, String.append_assoc]
  have filled : (u ++ v).isEmpty = false := by simpa using nonempty
  have filledToo : (u ++ ignored ++ v).isEmpty = false := by
    cases item <;> simp
  rw [String.toList_append] at unnamed
  rw [longer] at filledToo ⊢
  rw [whole] at boundary filled ⊢
  have alike := Scan.Alike.of_insert item unnamed boundary outside
  have folds := foldsCase_insert options v.toList item (boundary.paired unnamed outside)
  constructor
  · exact convert_of_alike alike.symm folds.symm filledToo filled
  · exact convert_of_alike alike folds filled filledToo

/-- The cursor between a caret and a star does not give the star anything to repeat. -/
theorem convert_insert_cursor :
    IgnoredItem "\\%#" ∧
      (∀ waiting ∈ markPrefixes, ¬waiting <:+: ("\\(^" ++ "*a\\)").toList) ∧
        (∃ items context position,
          Scan.Reaches .magic ("\\(^" ++ "*a\\)") items context position "*a\\)".toList ∧
            (context.region = .initial ∨ context.region = .optionalMatch)) ∧
          "\\(^" ++ "*a\\)" ≠ "" ∧
            convert {} ("\\(^" ++ "\\%#" ++ "*a\\)") =
              .ok
                { converted := "(^\\*a)"
                  ignoreCase := false
                  magicness := .magic
                  metadata := {} } := by
  have unnamed : ∀ waiting ∈ markPrefixes, ¬waiting <:+: ("\\(^" ++ "*a\\)").toList := by
    decide +kernel
  have first : Scan.Reaches .magic ("\\(^" ++ "*a\\)") [] (.start .magic) 0
      ['\\', '(', '^', '*', 'a', '\\', ')'] := .start
  have group : (Context.start .magic).verdict '\\' ['(', '^', '*', 'a', '\\', ')'] =
      .item (.lexeme (.groupOpen (.capturing 1))) 1 := rfl
  have second := first.item group
  have caret : (Scan.contextAfter (.start .magic) (.lexeme (.groupOpen (.capturing 1)))
      (String.ofList ['\\', '(']) 0).verdict '^' ['*', 'a', '\\', ')'] =
        .item (.lexeme .caret) 0 := rfl
  have boundary := second.item caret
  have nonempty : "\\(^" ++ "*a\\)" ≠ "" := by decide
  have inserted := convert_insert {} (u := "\\(^") (v := "*a\\)") .cursor unnamed boundary
     (.inl rfl) nonempty
      { converted := "(^\\*a)"
        ignoreCase := false
        magicness := .magic
        metadata := {} }
  exact ⟨.cursor, unnamed, ⟨_, _, _, boundary, .inl rfl⟩, nonempty, inserted.2 rfl⟩

end VimPattern
