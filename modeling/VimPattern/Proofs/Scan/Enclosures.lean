/-
Module: VimPattern.Proofs.Scan.Enclosures
Purpose: The constructs that are open while a pattern is read.
Main exports:
  Content.opens?, Content.closes?, Context.Turn, Context.turn_of_verdict, Scan.Balanced,
  Scan.Nested, Scan.Reaches.nested, Scan.Reaches.exists_collects,
  Scan.Reaches.enclosures
-/
import VimPattern.Proofs.Scan.Reach
import VimPattern.Proofs.Scan.Tokens

namespace VimPattern

/-!
The scanner remembers which collections and optional sequences are open by a stack.  That
the stack says the right thing is a statement about the items read so far: an opening that
is on it stands behind items that are closed among themselves, and nothing but such items
follows it, so that a closing takes away the opening that it belongs to.

`Turn` says once what an item does to the stack, with its guard.  The statements about whole
patterns follow from it along the places that reading comes to.
-/

/-! ### What an item does -/

/-- The construct that an item opens. -/
def Content.opens? : Content → Option Construct
  | .lexeme (.collectionOpen opening) => some (.collection opening.withBreak)
  | .lexeme .optionalOpen => some .optionalMatch
  | _ => none

/-- The construct that an item closes. -/
def Content.closes? : Content → Option Construct
  | .lexeme (.collectionClose withBreak) => some (.collection withBreak)
  | .lexeme .optionalClose => some .optionalMatch
  | _ => none

/-- Inside a collection only the collection itself is closed. -/
theorem Collection.Spells.construct_of_closes {withBreak : Bool} {raw : List Char}
    {content : Content} {construct : Construct}
    (spells : Collection.Spells withBreak raw content)
    (closes : content.closes? = some construct) : construct = .collection withBreak := by
  cases spells with
  | closing =>
      cases closes
      rfl
  | _ => cases closes

namespace Context

/-- Outside collections only an optional sequence is closed, by a bracket inside of it. -/
theorem SpellsOutside.region_of_closes {context : Context} {raw : List Char}
    {content : Content} {construct : Construct}
    (spells : context.SpellsOutside raw content)
    (closes : content.closes? = some construct) :
    construct = .optionalMatch ∧ context.region = .optionalMatch := by
  cases spells with
  | optionalClose inside =>
      cases closes
      exact ⟨rfl, inside⟩
  | operator active means => cases means <;> cases closes
  | _ => cases closes

/-- What is read closes the innermost construct or none. -/
theorem enclosing_of_closes {context : Context} {char : Char} {text : List Char}
    {content : Content} {extra : Nat} {construct : Construct}
    (verdict : context.verdict char text = .item content extra)
    (closes : content.closes? = some construct) :
    ∃ place outer, context.enclosing =
      { construct := construct
        position := place } :: outer := by
  rcases context with ⟨level, _ | ⟨⟨_ | _, place⟩, outer⟩, star, line, tally⟩
  · obtain ⟨_, region⟩ := (spellsOutside_of_verdict verdict rfl).region_of_closes closes
    cases region
  · cases spells_of_verdict verdict with
    | outside outside _ => cases outside
    | inside inside spells =>
        cases inside
        obtain rfl := spells.construct_of_closes closes
        exact ⟨place, outer, rfl⟩
  · obtain ⟨rfl, _⟩ := (spellsOutside_of_verdict verdict rfl).region_of_closes closes
    exact ⟨place, outer, rfl⟩

/-- The innermost construct is taken away by an item that closes one. -/
theorem enclosing_contextAfter_of_closes {context : Context} {char : Char}
    {text : List Char} {content : Content} {extra : Nat} {construct : Construct}
    (verdict : context.verdict char text = .item content extra)
    (closes : content.closes? = some construct) (raw : String) (position : Nat) :
    ∃ place, context.enclosing =
      { construct := construct
        position := place } :: (Scan.contextAfter context content raw position).enclosing := by
  obtain ⟨place, outer, innermost⟩ := enclosing_of_closes verdict closes
  have dropped : (Scan.contextAfter context content raw position).enclosing =
      context.enclosing.drop 1 := by
    cases content with
    | mark mark => cases closes
    | lexeme lexeme =>
        cases lexeme with
        | collectionClose withBreak => rfl
        | optionalClose => rfl
        | _ => cases closes
  exact ⟨place, by rw [dropped, innermost]; rfl⟩

/-- What an item does to the constructs that are open: it opens one outside collections,
closes the innermost one, or leaves them as they are. -/
inductive Turn (context : Context) (position : Nat) (content : Content) :
    List Enclosure → Prop where
  | opens {construct : Construct} (opens : content.opens? = some construct)
      (outside : context.collection? = none) :
      Turn context position content
        ({ construct := construct
           position := position } :: context.enclosing)
  | closes {construct : Construct} {place : Nat} {outer : List Enclosure}
      (closes : content.closes? = some construct)
      (innermost : context.enclosing =
        { construct := construct
          position := place } :: outer) :
      Turn context position content outer
  | keeps (opensNone : content.opens? = none) (closesNone : content.closes? = none) :
      Turn context position content context.enclosing

/-- Each item does one of these. -/
theorem turn_of_verdict {context : Context} {char : Char} {text : List Char}
    {content : Content} {extra : Nat}
    (verdict : context.verdict char text = .item content extra) (raw : String)
    (position : Nat) :
    Turn context position content
      (Scan.contextAfter context content raw position).enclosing := by
  cases content with
  | mark mark =>
      rw [Scan.contextAfter, enclosing_afterMark]
      exact .keeps rfl rfl
  | lexeme lexeme =>
      have standsIn := (admits_of_verdict verdict).standsIn
      cases lexeme with
      | collectionOpen opening => exact .opens rfl (standsIn.eq_none fun _ => id)
      | optionalOpen => exact .opens rfl (standsIn.eq_none fun _ => id)
      | collectionClose withBreak =>
          obtain ⟨place, innermost⟩ :=
            enclosing_contextAfter_of_closes verdict rfl raw position
          exact .closes rfl innermost
      | optionalClose =>
          obtain ⟨place, innermost⟩ :=
            enclosing_contextAfter_of_closes verdict rfl raw position
          exact .closes rfl innermost
      | _ => exact .keeps rfl rfl

/-- Whatever an item does, at most the innermost construct is a collection. -/
theorem Turn.flat {context after : Context} {position : Nat} {content : Content}
    (turn : context.Turn position content after.enclosing) (flat : context.Flat) :
    after.Flat := by
  rw [Flat]
  generalize after.enclosing = enclosing at turn ⊢
  cases turn with
  | opens opens outside => exact flat.all_optional outside
  | keeps opensNone closesNone => exact flat
  | closes closes innermost =>
      rw [Flat, innermost] at flat
      exact fun enclosure member => flat enclosure (List.mem_of_mem_drop member)

/-- An item inside a collection that does not close it is a member. -/
theorem exists_member {context : Context} {char : Char} {text : List Char}
    {content : Content} {extra : Nat} {withBreak : Bool}
    (verdict : context.verdict char text = .item content extra)
    (inside : context.collection? = some withBreak) (closesNone : content.closes? = none) :
    ∃ member, content = .lexeme (.member member) := by
  cases content with
  | mark mark =>
      rw [outside_of_mark verdict] at inside
      cases inside
  | lexeme lexeme =>
      have standsIn := (admits_of_verdict verdict).standsIn
      rw [inside] at standsIn
      cases lexeme with
      | member member => exact ⟨member, rfl⟩
      | collectionClose closing => cases closesNone
      | _ => exact standsIn.elim

end Context

namespace Scan

/-! ### Nesting -/

/-- In these items every construct that is opened is also closed, and the other way round. -/
inductive Balanced : List Item → Prop
  | nil : Balanced []
  | item {items : List Item} {item : Item} (before : Balanced items)
      (opensNone : item.content.opens? = none) (closesNone : item.content.closes? = none) :
      Balanced (items ++ [item])
  | construct {items inside : List Item} {opener closer : Item} {construct : Construct}
      (before : Balanced items) (opens : opener.content.opens? = some construct)
      (balanced : Balanced inside) (closes : closer.content.closes? = some construct) :
      Balanced (items ++ opener :: inside ++ [closer])

/-- These constructs are open behind these items, the innermost first: each opening is
followed by balanced items up to the next one, or up to the end. -/
inductive Nested : List Item → List Enclosure → Prop
  | outside {items : List Item} (balanced : Balanced items) : Nested items []
  | inside {items inside : List Item} {opener : Item} {construct : Construct}
      {outer : List Enclosure} (before : Nested items outer)
      (opens : opener.content.opens? = some construct) (balanced : Balanced inside) :
      Nested (items ++ opener :: inside)
        ({ construct := construct
           position := opener.position } :: outer)

theorem Balanced.append {items others : List Item} (first : Balanced items)
    (second : Balanced others) : Balanced (items ++ others) := by
  induction second with
  | nil => rwa [List.append_nil]
  | item before opensNone closesNone inductionHypothesis =>
      rw [← List.append_assoc]
      exact .item inductionHypothesis opensNone closesNone
  | construct before opens balanced closes inductionHypothesis _ =>
      rw [← List.append_assoc, ← List.append_assoc]
      exact .construct inductionHypothesis opens balanced closes

/-- Balanced items behind others leave open what the others have left open. -/
theorem Nested.append {items others : List Item} {enclosing : List Enclosure}
    (nested : Nested items enclosing) (balanced : Balanced others) :
    Nested (items ++ others) enclosing := by
  cases nested with
  | outside first => exact .outside (first.append balanced)
  | inside before opens first =>
      rw [List.append_assoc, List.cons_append]
      exact .inside before opens (first.append balanced)

/-- One more item keeps the nesting, given what it does to the open constructs. -/
theorem Nested.turn {items : List Item} {context : Context} {item : Item}
    {after : List Enclosure} (nested : Nested items context.enclosing)
    (turn : context.Turn item.position item.content after) :
    Nested (items ++ [item]) after := by
  cases turn with
  | opens opens outside => exact .inside nested opens .nil
  | keeps opensNone closesNone =>
      exact nested.append (Balanced.item .nil opensNone closesNone)
  | closes closes innermost =>
      rw [innermost] at nested
      cases nested with
      | inside before opens balanced =>
          rw [List.append_assoc, List.cons_append]
          exact before.append (.construct .nil opens balanced closes)

namespace Reaches

variable {level : Magicness} {pattern : String} {items : List Item} {context : Context}
  {position : Nat} {rest : List Char}

/-- The constructs that the scanner takes to be open are the ones that the items have left
open. -/
theorem nested (reaches : Reaches level pattern items context position rest) :
    Nested items context.enclosing := by
  induction reaches with
  | start => exact .outside .nil
  | item before verdict inductionHypothesis =>
      exact inductionHypothesis.turn (Context.turn_of_verdict verdict _ _)

/-- At most the innermost construct is a collection. -/
theorem flat (reaches : Reaches level pattern items context position rest) : context.Flat := by
  induction reaches with
  | start => exact Context.flat_start level
  | item before verdict inductionHypothesis =>
      exact (Context.turn_of_verdict verdict _ _).flat inductionHypothesis

end Reaches

/-- The last of the items are the opening of a collection and members, all at one level. -/
structure Collects (items : List Item) (level : Magicness) (opener : Item)
    (opening : Collection.Opening) : Prop where
  opens : opener.content = .lexeme (.collectionOpen opening)
  opensAt : opener.magicness = level
  members : ∃ before inside, items = before ++ opener :: inside ∧
    ∀ item ∈ inside, (∃ member, item.content = .lexeme (.member member)) ∧
      item.magicness = level

/-- A member is collected. -/
theorem Collects.member {items : List Item} {level : Magicness} {opener item : Item}
    {opening : Collection.Opening} (collects : Collects items level opener opening)
    {member : Member} (content : item.content = .lexeme (.member member))
    (readAt : item.magicness = level) : Collects (items ++ [item]) level opener opening := by
  obtain ⟨opens, opensAt, before, inside, rfl, members⟩ := collects
  refine ⟨opens, opensAt, before, inside ++ [item], by simp, ?_⟩
  rw [List.forall_mem_append, List.forall_mem_singleton]
  exact ⟨members, ⟨member, content⟩, readAt⟩

/-- Where the innermost open construct is a collection, its members are being collected. -/
theorem Reaches.exists_collects {level : Magicness} {pattern : String} {items : List Item}
    {context : Context} {position : Nat} {rest : List Char}
    (reaches : Reaches level pattern items context position rest) {withBreak : Bool}
    {place : Nat} {outer : List Enclosure}
    (inside : context.enclosing =
      { construct := .collection withBreak
        position := place } :: outer) :
    ∃ opener opening, Collects items context.magicness opener opening ∧
      opening.withBreak = withBreak ∧ opener.position = place := by
  induction reaches with
  | start => cases inside
  | @item items context position char text content extra before verdict
      inductionHypothesis =>
      have turn := Context.turn_of_verdict verdict
        (String.ofList (char :: text.take extra)) position
      generalize (contextAfter context content _ position).enclosing = enclosing at turn inside
      cases turn with
      | opens opens outside =>
          cases inside
          obtain ⟨opening, rfl, same⟩ : ∃ opening, content = .lexeme (.collectionOpen opening) ∧
              opening.withBreak = withBreak := by
            unfold Content.opens? at opens
            split at opens <;> cases opens
            exact ⟨_, rfl, rfl⟩
          exact ⟨itemAt context _ _ place, opening,
            ⟨rfl, rfl, items, [], rfl, List.forall_mem_nil _⟩, same, rfl⟩
      | closes closes innermost =>
          -- Behind a construct that is closed there is no collection.
          have flat := before.flat
          rw [Context.Flat, innermost, inside] at flat
          cases flat _ (.head _)
      | keeps opensNone closesNone =>
          obtain ⟨opener, opening, collects, same⟩ := inductionHypothesis inside
          have within : context.collection? = some withBreak := by
            rw [Context.collection?, inside]
          obtain ⟨member, rfl⟩ := Context.exists_member verdict within closesNone
          exact ⟨opener, opening, collects.member rfl rfl, same⟩

/-! ### Texts -/

/-- The text that opens a collection begins with a group exactly if the text that closes it
ends one. -/
theorem opens_group_iff (opening : Collection.Opening) (newLine : String) :
    "(?:".toList <+: (opening.text newLine).toList ↔
      Collection.closingText opening.withBreak = "])" := by
  rcases opening with ⟨_ | _, negated, leadingBracket⟩
  · cases negated <;> cases leadingBracket <;>
      simp [Collection.Opening.text, Collection.closingText]
  · simp [Collection.Opening.text, Collection.closingText]

/-! ### Whole patterns -/

/-- The opening of this construct stands among the items, and nothing behind it is open. -/
def LeavesOpen (items : List Item) (construct : Construct) (opener : Item) : Prop :=
  opener.content.opens? = some construct ∧
    ∃ before inside, items = before ++ opener :: inside ∧ Balanced inside

/-- The innermost construct is the one that the items leave open last. -/
theorem Nested.leavesOpen {items : List Item} {enclosure : Enclosure}
    {outer : List Enclosure} (nested : Nested items (enclosure :: outer)) :
    ∃ opener, LeavesOpen items enclosure.construct opener ∧
      opener.position = enclosure.position := by
  cases nested with
  | inside before opens balanced => exact ⟨_, ⟨opens, _, _, rfl, balanced⟩, rfl⟩

namespace Reaches

variable {level : Magicness} {pattern : String} {items : List Item} {context : Context}
  {position : Nat} {rest : List Char}

/-- An item that closes a construct takes away the innermost one, which is that construct. -/
theorem enclosing_of_closes {char : Char} {text : List Char} {content : Content}
    {extra : Nat} {construct : Construct}
    (reaches : Reaches level pattern items context position (char :: text))
    (verdict : context.verdict char text = .item content extra)
    (closes : content.closes? = some construct) (raw : String) :
    ∃ opener, LeavesOpen items construct opener ∧
      context.enclosing =
        { construct := construct
          position := opener.position } ::
            (contextAfter context content raw position).enclosing := by
  obtain ⟨place, innermost⟩ :=
    Context.enclosing_contextAfter_of_closes verdict closes raw position
  have nested := reaches.nested
  rw [innermost] at nested
  obtain ⟨opener, leavesOpen, rfl⟩ := nested.leavesOpen
  exact ⟨opener, leavesOpen, innermost⟩

/-- A pattern that is over inside a construct is refused for the construct that is left open
last. -/
theorem result_of_open (reaches : Reaches level pattern items context position [])
    (isOpen : context.enclosing ≠ []) :
    ∃ construct opener, LeavesOpen items construct opener ∧
      (ofPattern level pattern).result =
        .error (.unterminated construct.region opener.position) := by
  have nested := reaches.nested
  have whole := reaches.ofPattern_eq
  rcases context with ⟨level, _ | ⟨enclosure, outer⟩, star, line, tally⟩
  · exact absurd rfl isOpen
  · obtain ⟨opener, leavesOpen, same⟩ := nested.leavesOpen
    refine ⟨enclosure.construct, opener, leavesOpen, ?_⟩
    rw [whole, same]
    rfl

/-- Wherever reading comes to, the open constructs are those that the items leave open, and
only the innermost of them can be a collection.  Inside a collection the items since its
opening are members, read at the level of the opening.  An item that closes a construct takes
away the one that is left open last; where that is a collection, its opening text begins a
group exactly if its closing text ends one.  A pattern that is over while something is open
is refused for the construct left open last, at its opening. -/
theorem enclosures (reaches : Reaches level pattern items context position rest) :
    Nested items context.enclosing ∧
      (∀ enclosure ∈ context.enclosing.drop 1, enclosure.construct = .optionalMatch) ∧
        (∀ withBreak place outer,
          context.enclosing =
              { construct := .collection withBreak
                position := place } :: outer →
            ∃ opener opening, Collects items context.magicness opener opening ∧
              opening.withBreak = withBreak ∧ opener.position = place) ∧
          (∀ char text content extra construct raw, rest = char :: text →
            context.verdict char text = .item content extra →
              content.closes? = some construct →
                ∃ opener, LeavesOpen items construct opener ∧
                  context.enclosing =
                    { construct := construct
                      position := opener.position } ::
                        (contextAfter context content raw position).enclosing) ∧
            (∀ char text closing extra, rest = char :: text →
              context.verdict char text = .item (.lexeme (.collectionClose closing)) extra →
                ∃ opener opening, Collects items context.magicness opener opening ∧
                  ∀ newLine, "(?:".toList <+: (opening.text newLine).toList ↔
                    Collection.closingText closing = "])") ∧
              (rest = [] → context.enclosing ≠ [] →
                ∃ construct opener, LeavesOpen items construct opener ∧
                  (ofPattern level pattern).result =
                    .error (.unterminated construct.region opener.position)) := by
  refine ⟨reaches.nested, reaches.flat, fun withBreak place outer inside =>
    reaches.exists_collects inside, ?_, ?_, ?_⟩
  · rintro char text content extra construct raw rfl verdict closes
    exact reaches.enclosing_of_closes verdict closes raw
  · rintro char text closing extra rfl verdict
    obtain ⟨place, outer, innermost⟩ := Context.enclosing_of_closes verdict rfl
    obtain ⟨opener, opening, collects, rfl, _⟩ := reaches.exists_collects innermost
    exact ⟨opener, opening, collects, opens_group_iff opening⟩
  · rintro rfl isOpen
    exact reaches.result_of_open isOpen

/-- The pattern is over inside a collection that stands inside an optional sequence. -/
theorem enclosures_open :
    ∃ items context position outer,
      Reaches .magic "\\%[a\\_[b" items context position [] ∧
        context.enclosing =
            { construct := .collection true
              position := 4 } :: outer ∧
          Nested items context.enclosing ∧
            (∃ opener opening, Collects items context.magicness opener opening ∧
              opening.withBreak = true ∧ opener.position = 4) ∧
              ∃ construct opener, LeavesOpen items construct opener ∧
                (ofPattern .magic "\\%[a\\_[b").result =
                  .error (.unterminated construct.region opener.position) := by
  have unterminated : (ofPattern .magic "\\%[a\\_[b").ending =
      .unterminated { construct := .collection true, position := 4 } := by
    decide +kernel
  obtain ⟨items, context, position, outer, reaches, isOpen⟩ :=
    Reaches.start.exists_of_unterminated (reads_ofPattern _ _) unterminated
  obtain ⟨nested, _, collects, _, _, ended⟩ := reaches.enclosures
  have nonempty : context.enclosing ≠ [] := by
    rw [isOpen]
    exact List.cons_ne_nil _ _
  exact ⟨items, context, position, outer, reaches, isOpen, nested, collects _ _ _ isOpen,
    ended rfl nonempty⟩

end Reaches

end Scan

end VimPattern
