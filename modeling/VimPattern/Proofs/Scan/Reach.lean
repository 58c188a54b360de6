/-
Module: VimPattern.Proofs.Scan.Reach
Purpose: The places that reading a pattern comes to.
Main exports:
  Scan.follow, Scan.itemAt, Scan.Reaches, Scan.Reaches.ofPattern_eq, Scan.Reaches.exists_item,
  Scan.Stops, Scan.exists_stop, Scan.Reaches.exists_of_unterminated, Scan.exists_reaches_end
-/
import VimPattern.Proofs.Scan.Reads

namespace VimPattern.Scan

/-!
Between two items of a pattern the reading is at a place: some items have been read, the
context holds what they have left behind, and the rest of the text is still to come.
`Reaches` lists these places from the start of the pattern on, one item at a time, so that
what holds at each of them is proved by one case for an item.
-/

/-- The scan with more items in front. -/
def follow (items : List Item) (scan : Scan) : Scan :=
  { scan with items := items ++ scan.items }

@[simp] theorem tokens_follow (items : List Item) (scan : Scan) :
    (scan.follow items).tokens = items.filterMap Item.token? ++ scan.tokens :=
  List.filterMap_append

/-- The item with this content and these characters. -/
def itemAt (context : Context) (content : Content) (characters : List Char)
    (position : Nat) : Item :=
  { content := content
    raw := String.ofList characters
    position := position
    magicness := (contextAfter context content (String.ofList characters) position).magicness }

/-- Reading the pattern from this level comes to a place where these items have been read,
in this context and at this offset, and where this text is left. -/
inductive Reaches (level : Magicness) (pattern : String) :
    List Item → Context → Nat → List Char → Prop
  | start : Reaches level pattern [] (.start level) 0 pattern.toList
  | item {items : List Item} {context : Context} {position : Nat} {char : Char}
      {text : List Char} {content : Content} {extra : Nat}
      (before : Reaches level pattern items context position (char :: text))
      (verdict : context.verdict char text = .item content extra) :
      Reaches level pattern
        (items ++ [itemAt context content (char :: text.take extra) position])
        (contextAfter context content (String.ofList (char :: text.take extra)) position)
        (position + byteLength (char :: text.take extra)) (text.drop extra)

namespace Reaches

variable {level : Magicness} {pattern : String} {items : List Item} {context : Context}
  {position : Nat} {rest : List Char}

/-- The scan of a pattern goes on from each place that it comes to. -/
theorem ofPattern_eq (reaches : Reaches level pattern items context position rest) :
    ofPattern level pattern = (readFrom context position 0 rest).follow items := by
  induction reaches with
  | start => rfl
  | item before verdict inductionHypothesis =>
      rw [inductionHypothesis, readFrom_item verdict]
      simp [follow, cons, itemAt]

/-- Reading has come to a place right before each of the items that it has read. -/
theorem exists_item {before after : List Item} {item : Item}
    (reaches : Reaches level pattern items context position rest)
    (split : items = before ++ item :: after) :
    ∃ middle place char text content extra,
      Reaches level pattern before middle place (char :: text) ∧
        middle.verdict char text = .item content extra ∧
          item = itemAt middle content (char :: text.take extra) place := by
  induction reaches generalizing after with
  | start => cases before <;> cases split
  | item comes verdict inductionHypothesis =>
      rcases after.eq_nil_or_concat with rfl | ⟨others, last, rfl⟩
      · obtain ⟨rfl, same⟩ := List.append_inj' split rfl
        cases same
        exact ⟨_, _, _, _, _, _, comes, verdict, rfl⟩
      · rw [List.concat_eq_append, ← List.cons_append, ← List.append_assoc] at split
        exact inductionHypothesis (List.append_inj' split rfl).1

end Reaches

/-! ### The end of reading -/

/-- Reading cannot go on in this context and at this offset, and ends like this. -/
inductive Stops (context : Context) (position : Nat) : List Char → Ending → Prop
  | ended : Stops context position [] (endingOf context position)
  | fault {char : Char} {text : List Char} {fault : Fault} {extra : Nat}
      (verdict : context.verdict char text = .fault fault extra) :
      Stops context position (char :: text)
        (.fault fault (String.ofList (char :: text.take extra)) position)
  | noRule {char : Char} {text : List Char}
      (verdict : context.verdict char text = .noRule) :
      Stops context position (char :: text)
        (.noRule position (String.ofList (char :: text)))

namespace Stops

variable {context : Context} {position : Nat} {rest : List Char} {ending : Ending}

/-- Reading that is finished has left no text and nothing open. -/
theorem of_finished {terminus : Terminus} (stops : Stops context position rest ending)
    (finished : ending = .finished terminus) :
    rest = [] ∧ terminus.context = context ∧ context.enclosing = [] := by
  cases stops with
  | ended =>
      rcases context with ⟨level, _ | ⟨innermost, outer⟩, star, line, tally⟩ <;> cases finished
      exact ⟨rfl, rfl, rfl⟩
  | fault | noRule => cases finished

/-- Reading that is over inside a construct has left no text, and the construct is the
innermost open one. -/
theorem of_unterminated {enclosure : Enclosure} (stops : Stops context position rest ending)
    (unterminated : ending = .unterminated enclosure) :
    rest = [] ∧ ∃ outer, context.enclosing = enclosure :: outer := by
  cases stops with
  | ended =>
      rcases context with ⟨level, _ | ⟨innermost, outer⟩, star, line, tally⟩ <;>
        cases unterminated
      exact ⟨rfl, outer, rfl⟩
  | fault | noRule => cases unterminated

end Stops

section

variable {level : Magicness} {pattern : String} {items : List Item} {context : Context}
  {position : Nat} {rest : List Char} {scan : Scan}

/-- Reading goes on from each place until it comes to one where it stops. -/
theorem Reaches.exists_stop (reads : Reads context position rest scan)
    (reaches : Reaches level pattern items context position rest) :
    ∃ after place left, Reaches level pattern (items ++ scan.items) after place left ∧
      Stops after place left scan.ending := by
  induction reads generalizing items with
  | ended context position =>
      refine ⟨context, position, [], ?_, .ended⟩
      rwa [List.append_nil]
  | mark verdict _ inductionHypothesis =>
      have later := inductionHypothesis (reaches.item verdict)
      rwa [List.append_assoc] at later
  | @token context position char text token extra scan verdict raw place level _
      inductionHypothesis =>
      rcases token with ⟨lexeme, _, _, _⟩
      subst raw place level
      have later := inductionHypothesis (reaches.item verdict)
      rwa [List.append_assoc] at later
  | fault verdict =>
      refine ⟨_, _, _, ?_, .fault verdict⟩
      rwa [List.append_nil]
  | noRule verdict =>
      refine ⟨_, _, _, ?_, .noRule verdict⟩
      rwa [List.append_nil]

/-- Reading a pattern comes to a place behind all its items, where it stops. -/
theorem exists_stop (level : Magicness) (pattern : String) :
    ∃ context position rest,
      Reaches level pattern (ofPattern level pattern).items context position rest ∧
        Stops context position rest (ofPattern level pattern).ending :=
  Reaches.start.exists_stop (reads_ofPattern level pattern)

/-- A pattern that is over inside a construct has come to a place where no text is left and
the construct is the innermost open one. -/
theorem Reaches.exists_of_unterminated {enclosure : Enclosure}
    (reads : Reads context position rest scan)
    (reaches : Reaches level pattern items context position rest)
    (unterminated : scan.ending = .unterminated enclosure) :
    ∃ others after place outer,
      Reaches level pattern others after place [] ∧ after.enclosing = enclosure :: outer := by
  obtain ⟨after, place, left, reaches, stops⟩ := reaches.exists_stop reads
  obtain ⟨rfl, outer, innermost⟩ := stops.of_unterminated unterminated
  exact ⟨_, after, place, outer, reaches, innermost⟩

/-- A pattern that has been read to its end leaves nothing open. -/
theorem exists_reaches_end {terminus : Terminus}
    (finished : (ofPattern level pattern).ending = .finished terminus) :
    (∃ position,
      Reaches level pattern (ofPattern level pattern).items terminus.context position []) ∧
        terminus.context.enclosing = [] := by
  obtain ⟨context, position, rest, reaches, stops⟩ := exists_stop level pattern
  obtain ⟨rfl, rfl, closed⟩ := stops.of_finished finished
  exact ⟨⟨position, reaches⟩, closed⟩

end

end VimPattern.Scan
