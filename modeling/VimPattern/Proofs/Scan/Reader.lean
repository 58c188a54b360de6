/-
Module: VimPattern.Proofs.Scan.Reader
Purpose: A pattern that is read on demand, one token for each call.
Main exports:
  Reader, Answer, Call, Reader.round, Reader.next, Reader.session, Item.textOf, Item.Tiles,
  Scan.Reaches.tiles, Reader.Behind, Reader.Stops, Reader.Answers, Reader.Behind.answers
-/
import VimPattern.Proofs.Scan.Sites

namespace VimPattern

/-!
A pattern need not be read all at once.  A reader remembers how many bytes have been read and
what they have left behind, and reads on when it is asked for a token, past the items that leave
none.  The text to read is cut off at the offset each time.  That is possible only between two
characters, so that an offset inside a character would leave the reader without an answer.

The items that the calls read are those of the whole scan, in their order.  They tile the part of
the pattern that has been read, each of them takes at least one byte, and once the end has been
reported a reader has come to rest.
-/

/-- A pattern that is read on demand. -/
structure Reader where
  pattern : String
  /-- How many bytes have been read. -/
  position : Nat := 0
  /-- What has been left behind by then. -/
  context : Context
deriving Repr, DecidableEq

/-- What a call is answered with. -/
inductive Answer where
  | token (token : Token)
  /-- The pattern is over. -/
  | ended (position : Nat) (magicness : Magicness)
  | error (error : ScanError)
  /-- There is no text where the reader is. -/
  | torn
deriving Repr, DecidableEq

/-- A reader can be asked again after such an answer. -/
def Answer.goesOn : Answer → Bool
  | .token _ | .ended _ _ => true
  | .error _ | .torn => false

/-- One call of a reader. -/
structure Call where
  /-- The items that have been read for it, those that leave no token included. -/
  items : List Item
  answer : Answer
  after : Reader
deriving Repr, DecidableEq

/-- What becomes of a reader where an item should start. -/
inductive Round where
  /-- The item has been read. -/
  | item (item : Item) (after : Reader)
  /-- There is none, and the call is over. -/
  | stop (answer : Answer) (after : Reader)

/-- The error that an item with this fault is reported with. -/
def Fault.error (raw : String) (position : Nat) : Fault → ScanError
  | .unknownClass name => .unknownCollectionClass name position
  | .invalidCodePoint => .invalidCodePoint raw position

/-- The text of the item that cannot be used, if that is what stopped the reading. -/
def Ending.unusable : Ending → String
  | .fault _ raw _ => raw
  | .finished _ | .unterminated _ | .noRule _ _ => ""

/-- The texts of items in a row. -/
def Item.textOf (items : List Item) : String :=
  String.join (items.map Item.raw)

namespace Scan

/-- Characters take as many bytes in a text as they take one by one. -/
theorem utf8ByteSize_ofList (text : List Char) :
    (String.ofList text).utf8ByteSize = byteLength text := by
  induction text with
  | nil => rfl
  | cons char text inductionHypothesis =>
      rw [String.ofList_cons, String.utf8ByteSize_append, String.utf8ByteSize_singleton,
        inductionHypothesis, byteLength_cons]

/-- An item is not empty. -/
theorem utf8ByteSize_itemAt (context : Context) (content : Content) (char : Char)
    (text : List Char) (position : Nat) :
    0 < (itemAt context content (char :: text) position).raw.utf8ByteSize := by
  change 0 < (String.ofList (char :: text)).utf8ByteSize
  rw [utf8ByteSize_ofList, byteLength_cons]
  exact Nat.lt_add_right _ char.utf8Size_pos

end Scan

namespace Reader

/-- The reader of a pattern of which nothing has been read. -/
def start (level : Magicness) (pattern : String) : Reader :=
  { pattern := pattern
    context := .start level }

/-- The text before the offset and the text behind it, unless the offset lies inside a
character. -/
def cut? (reader : Reader) : Option (String × String) :=
  if valid : (⟨reader.position⟩ : String.Pos.Raw).IsValid reader.pattern then
    let place := reader.pattern.pos ⟨reader.position⟩ valid
    some ((reader.pattern.sliceTo place).copy, (reader.pattern.sliceFrom place).copy)
  else none

/-- The answer at the end of the pattern. -/
def answerAtEnd (reader : Reader) : Answer :=
  match reader.context.enclosing with
  | [] => .ended reader.position reader.context.magicness
  | enclosure :: _ =>
      .error (.unterminated enclosure.construct.region enclosure.position)

/-- Read one item.  The text of an item that cannot be used is passed over as well. -/
def round (reader : Reader) : Round :=
  if reader.pattern.utf8ByteSize ≤ reader.position then .stop reader.answerAtEnd reader
  else
    match reader.cut? with
    | none => .stop .torn reader
    | some (front, back) =>
        match back.toList with
        | [] => .stop .torn reader
        | char :: text =>
            match reader.context.verdict char text with
            | .item content extra =>
                let item :=
                  Scan.itemAt reader.context content (char :: text.take extra) reader.position
                .item item
                  { reader with
                    position := reader.position + item.raw.utf8ByteSize
                    context :=
                      Scan.contextAfter reader.context content item.raw reader.position }
            | .fault fault extra =>
                let raw := String.ofList (char :: text.take extra)
                .stop (.error (fault.error raw reader.position))
                  { reader with position := reader.position + raw.utf8ByteSize }
            | .noRule =>
                let column := Grapheme.count front.toList + 1
                .stop (.error (.noRuleMatches reader.position column back)) reader

/-- An item takes at least one byte, and there is one to take. -/
theorem round_item {reader after : Reader} {item : Item}
    (taken : reader.round = .item item after) :
    reader.position < reader.pattern.utf8ByteSize ∧ after.pattern = reader.pattern ∧
      reader.position < after.position := by
  unfold round at taken
  split at taken
  · cases taken
  · next before =>
      split at taken
      · cases taken
      · split at taken
        · cases taken
        · next char text _ =>
            split at taken
            · cases taken
              refine ⟨Nat.lt_of_not_le before, rfl, Nat.lt_add_of_pos_right ?_⟩
              exact Scan.utf8ByteSize_itemAt _ _ _ _ _
            · cases taken
            · cases taken

/-- Read on until there is an answer. -/
def next (reader : Reader) : Call :=
  match _ : reader.round with
  | .stop answer after =>
      { items := []
        answer := answer
        after := after }
  | .item item after =>
      match item.token? with
      | some token =>
          { items := [item]
            answer := .token token
            after := after }
      | none =>
          let call := after.next
          { call with items := item :: call.items }
termination_by reader.pattern.utf8ByteSize - reader.position
decreasing_by
  obtain ⟨before, same, further⟩ := round_item ‹reader.round = .item item after›
  rw [same]
  omega

/-- Call a reader so many times, unless a call fails. -/
def session (reader : Reader) : Nat → List Call
  | 0 => []
  | calls + 1 =>
      let call := reader.next
      if call.answer.goesOn then call :: call.after.session calls else [call]

end Reader

/-! ### Items in a row -/

namespace Item

@[simp] theorem textOf_nil : textOf [] = "" := by
  simp [textOf]

@[simp] theorem textOf_append (front back : List Item) :
    textOf (front ++ back) = textOf front ++ textOf back := by
  simp [textOf]

@[simp] theorem textOf_singleton (item : Item) : textOf [item] = item.raw := by
  simp [textOf]

/-- These items tile the pattern up to this offset: none of them is empty, each stands where the
ones before it end, and all of them together are the pattern up to there. -/
structure Tiles (pattern : String) (items : List Item) (position : Nat) : Prop where
  nonempty : ∀ item ∈ items, 0 < item.raw.utf8ByteSize
  located : ∀ before item after, items = before ++ item :: after →
    item.position = (textOf before).utf8ByteSize
  covered : ∃ rest, pattern = textOf items ++ rest
  position_eq : position = (textOf items).utf8ByteSize

namespace Tiles

variable {pattern : String} {items : List Item} {position : Nat}

/-- The offset cuts the pattern between two characters. -/
theorem isValid (tiles : Tiles pattern items position) :
    (⟨position⟩ : String.Pos.Raw).IsValid pattern := by
  obtain ⟨rest, whole⟩ := tiles.covered
  refine String.Pos.Raw.isValid_iff_exists_append.2 ⟨textOf items, rest, whole, ?_⟩
  rw [tiles.position_eq]
  rfl

/-- Items tile the pattern up to where the next one starts. -/
theorem before {front back : List Item} {item : Item}
    (tiles : Tiles pattern (front ++ item :: back) position) :
    Tiles pattern front item.position where
  nonempty := fun other among => tiles.nonempty other (List.mem_append_left _ among)
  located := by
    intro before other after split
    refine tiles.located before other (after ++ item :: back) ?_
    rw [split, List.append_assoc, List.cons_append]
  covered := by
    obtain ⟨rest, whole⟩ := tiles.covered
    refine ⟨textOf (item :: back) ++ rest, ?_⟩
    rw [whole, textOf_append, String.append_assoc]
  position_eq := tiles.located front item back rfl

/-- There are at most as many items as bytes. -/
theorem length_le (tiles : Tiles pattern items position) : items.length ≤ position := by
  rw [tiles.position_eq]
  have nonempty := tiles.nonempty
  clear tiles
  induction items with
  | nil => simp
  | cons item items inductionHypothesis =>
      obtain ⟨first, others⟩ := List.forall_mem_cons.1 nonempty
      have fewer := inductionHypothesis others
      rw [← List.singleton_append, textOf_append, textOf_singleton,
        String.utf8ByteSize_append, List.length_append, List.length_singleton]
      omega

/-- What has been read is a part of the pattern. -/
theorem position_le (tiles : Tiles pattern items position) : position ≤ pattern.utf8ByteSize :=
  tiles.isValid.le_utf8ByteSize

end Tiles

end Item

namespace Scan.Reaches

variable {level : Magicness} {pattern : String} {items : List Item} {context : Context}
  {position : Nat} {rest : List Char}

/-- The pattern is the texts of the items that have been read and the text that is left. -/
theorem eq_textOf (reaches : Reaches level pattern items context position rest) :
    pattern = Item.textOf items ++ String.ofList rest ∧
      position = (Item.textOf items).utf8ByteSize := by
  induction reaches with
  | start => simp
  | @item items context position char text content extra _ _ inductionHypothesis =>
      obtain ⟨whole, place⟩ := inductionHypothesis
      have split : char :: text = (char :: text.take extra) ++ text.drop extra := by
        rw [List.cons_append, List.take_append_drop]
      rw [split, String.ofList_append, ← String.append_assoc] at whole
      rw [Item.textOf_append, Item.textOf_singleton]
      refine ⟨whole, ?_⟩
      rw [String.utf8ByteSize_append, ← place]
      exact congrArg (position + ·) (utf8ByteSize_ofList _).symm

/-- The items read on the way to a place tile the pattern up to there. -/
theorem tiles (reaches : Reaches level pattern items context position rest) :
    Item.Tiles pattern items position where
  nonempty := by
    intro item among
    obtain ⟨before, after, split⟩ := List.append_of_mem among
    obtain ⟨_, _, _, _, _, _, _, _, rfl⟩ := reaches.exists_item split
    exact utf8ByteSize_itemAt _ _ _ _ _
  located := by
    intro before item after split
    obtain ⟨_, place, _, _, _, _, comes, _, rfl⟩ := reaches.exists_item split
    exact comes.eq_textOf.2
  covered := ⟨_, reaches.eq_textOf.1⟩
  position_eq := reaches.eq_textOf.2

end Scan.Reaches

/-! ### Calls -/

namespace Reader

variable {level : Magicness} {pattern : String} {items : List Item} {reader : Reader}

/-- The reader is where reading the pattern comes to behind these items. -/
structure Behind (level : Magicness) (pattern : String) (items : List Item) (reader : Reader) :
    Prop where
  same : reader.pattern = pattern
  reaches : ∃ rest, Scan.Reaches level pattern items reader.context reader.position rest

/-- A reader of which nothing has been asked is behind no items. -/
theorem behind_start (level : Magicness) (pattern : String) :
    (start level pattern).Behind level pattern [] :=
  ⟨rfl, _, .start⟩

/-- Of this pattern the reader has read exactly this text. -/
structure Past (pattern text : String) (reader : Reader) : Prop where
  same : reader.pattern = pattern
  covered : ∃ rest, pattern = text ++ rest
  place : reader.position = text.utf8ByteSize

/-- A call is over behind these items, which are all that the pattern has.  The answer is the
outcome of the whole scan. -/
inductive Stops (level : Magicness) (pattern : String) (items : List Item) (reader : Reader) :
    Answer → Reader → Prop where
  | ended (whole : Item.textOf items = pattern)
      (read : (Scan.ofPattern level pattern).items = items)
      (result : (Scan.ofPattern level pattern).result =
        .ok
          { position := reader.position
            context := reader.context }) :
      Stops level pattern items reader
        (.ended reader.position reader.context.magicness) reader
  | error {error : ScanError} {after : Reader}
      (read : (Scan.ofPattern level pattern).items = items)
      (result : (Scan.ofPattern level pattern).result = .error error)
      (past : after.Past pattern
        (Item.textOf items ++ (Scan.ofPattern level pattern).ending.unusable)) :
      Stops level pattern items reader (.error error) after

/-- Where a call is over, all items have been read. -/
theorem Stops.read {answer : Answer} {after : Reader}
    (stops : reader.Stops level pattern items answer after) :
    (Scan.ofPattern level pattern).items = items := by
  cases stops with
  | ended _ read => exact read
  | error read => exact read

/-- A text is cut where a part of it ends. -/
theorem cut?_eq_some {front back : String} (whole : reader.pattern = front ++ back)
    (place : reader.position = front.utf8ByteSize) : reader.cut? = some (front, back) := by
  have same : (⟨reader.position⟩ : String.Pos.Raw) = front.rawEndPos :=
    congrArg String.Pos.Raw.mk place
  have valid : (⟨reader.position⟩ : String.Pos.Raw).IsValid reader.pattern :=
    String.Pos.Raw.isValid_iff_exists_append.2 ⟨front, back, whole, same⟩
  have splits : (reader.pattern.pos _ valid).Splits front back := ⟨whole, same⟩
  rw [cut?, dif_pos valid, splits.eq_left (String.Pos.splits _),
    splits.eq_right (String.Pos.splits _)]

namespace Behind

/-- Behind items a reader has read their texts. -/
theorem past (behind : reader.Behind level pattern items) :
    reader.Past pattern (Item.textOf items) := by
  obtain ⟨rest, reaches⟩ := behind.reaches
  exact ⟨behind.same, ⟨_, reaches.eq_textOf.1⟩, reaches.eq_textOf.2⟩

/-- At the end of the pattern a call is over. -/
theorem round_nil (behind : reader.Behind level pattern items)
    (reaches : Scan.Reaches level pattern items reader.context reader.position []) :
    ∃ answer, reader.round = .stop answer reader ∧
      reader.Stops level pattern items answer reader := by
  obtain ⟨whole, place⟩ := reaches.eq_textOf
  rw [String.ofList_nil, String.append_empty] at whole
  have rests : reader.pattern.utf8ByteSize ≤ reader.position := by
    rw [behind.same, place]
    exact Nat.le_of_eq (congrArg String.utf8ByteSize whole)
  have scan : Scan.ofPattern level pattern =
      { items := items
        ending := Scan.endingOf reader.context reader.position } := by
    rw [reaches.ofPattern_eq, Scan.readFrom, Scan.follow, List.append_nil]
  refine ⟨reader.answerAtEnd, if_pos rests, ?_⟩
  unfold answerAtEnd
  split
  · next closed =>
      refine .ended whole.symm (congrArg Scan.items scan) ?_
      rw [scan, Scan.endingOf, closed]
      rfl
  · next enclosure outer unclosed =>
      rw [Scan.endingOf, unclosed] at scan
      refine .error (congrArg Scan.items scan) (congrArg Scan.result scan) ?_
      rw [scan, Ending.unusable, String.append_empty]
      exact behind.past

/-- In front of the end an item is read, or the call is over with an error. -/
theorem round_cons {char : Char} {text : List Char} (behind : reader.Behind level pattern items)
    (reaches :
      Scan.Reaches level pattern items reader.context reader.position (char :: text)) :
    (∃ item after, reader.round = .item item after ∧
      after.Behind level pattern (items ++ [item])) ∨
    ∃ answer after, reader.round = .stop answer after ∧
      reader.Stops level pattern items answer after := by
  obtain ⟨whole, place⟩ := reaches.eq_textOf
  have before : ¬reader.pattern.utf8ByteSize ≤ reader.position := by
    rw [behind.same, whole, place, String.utf8ByteSize_append, Scan.utf8ByteSize_ofList,
      Scan.byteLength_cons]
    have wide := char.utf8Size_pos
    omega
  have cut : reader.cut? = some (Item.textOf items, String.ofList (char :: text)) :=
    cut?_eq_some (behind.same.trans whole) place
  have scan := reaches.ofPattern_eq
  rw [Scan.readFrom] at scan
  rw [round, if_neg before, cut]
  simp only [String.toList_ofList]
  cases verdict : reader.context.verdict char text with
  | item content extra =>
      refine .inl ⟨_, _, rfl, behind.same, text.drop extra, ?_⟩
      have further := reaches.item verdict
      rwa [← Scan.utf8ByteSize_ofList] at further
  | fault fault extra =>
      rw [verdict, Scan.follow, List.append_nil] at scan
      refine .inr ⟨_, _, rfl, .error (congrArg Scan.items scan) ?_
        ⟨behind.same, ⟨String.ofList (text.drop extra), ?_⟩, ?_⟩⟩
      · rw [scan]
        cases fault <;> rfl
      · rw [scan, Ending.unusable, whole, String.append_assoc, ← String.ofList_append,
          List.cons_append, List.take_append_drop]
      · rw [scan, Ending.unusable, String.utf8ByteSize_append, ← place]
  | noRule =>
      rw [verdict, Scan.follow, List.append_nil] at scan
      refine .inr ⟨_, _, rfl, .error (congrArg Scan.items scan) (congrArg Scan.result scan) ?_⟩
      rw [scan, Ending.unusable, String.append_empty]
      exact behind.past

/-- Where an item should start it is read, or the call is over. -/
theorem round (behind : reader.Behind level pattern items) :
    (∃ item after, reader.round = .item item after ∧
      after.Behind level pattern (items ++ [item])) ∨
    ∃ answer after, reader.round = .stop answer after ∧
      reader.Stops level pattern items answer after := by
  obtain ⟨rest, reaches⟩ := behind.reaches
  cases rest with
  | nil =>
      obtain ⟨answer, rests, stops⟩ := behind.round_nil reaches
      exact .inr ⟨answer, reader, rests, stops⟩
  | cons char text => exact behind.round_cons reaches

end Behind

/-- What comes of a call that is made behind these items.  Items without a token are passed over,
up to a token or to where there are no more items. -/
inductive Answers (level : Magicness) (pattern : String) (items : List Item) : Call → Prop where
  | token {skipped : List Item} {item : Item} {token : Token} {after : Reader}
      (silent : ∀ other ∈ skipped, other.token? = none) (itself : item.token? = some token)
      (behind : after.Behind level pattern (items ++ (skipped ++ [item]))) :
      Answers level pattern items
        { items := skipped ++ [item]
          answer := .token token
          after := after }
  | stop {skipped : List Item} {answer : Answer} {reader after : Reader}
      (silent : ∀ other ∈ skipped, other.token? = none)
      (behind : reader.Behind level pattern (items ++ skipped))
      (rests : reader.round = .stop answer after) :
      Answers level pattern items
        { items := skipped
          answer := answer
          after := after }

/-- An item without a token in front of a call belongs to the call. -/
theorem Answers.skip {item : Item} {call : Call} (silent : item.token? = none)
    (answers : Answers level pattern (items ++ [item]) call) :
    Answers level pattern items { call with items := item :: call.items } := by
  cases answers with
  | @token skipped last token after others itself behind =>
      rw [List.append_assoc] at behind
      exact .token (List.forall_mem_cons.2 ⟨silent, others⟩) itself behind
  | stop others behind rests =>
      rw [List.append_assoc] at behind
      exact .stop (List.forall_mem_cons.2 ⟨silent, others⟩) behind rests

/-- Where an item has been read, the reader is behind it. -/
theorem Behind.item {item : Item} {after : Reader} (behind : reader.Behind level pattern items)
    (read : reader.round = .item item after) :
    after.Behind level pattern (items ++ [item]) := by
  obtain ⟨_, _, same, further⟩ | ⟨_, _, rests, _⟩ := behind.round
  · rw [read] at same
    cases same
    exact further
  · rw [read] at rests
    cases rests

/-- Where a call is over, there are no more items. -/
theorem Behind.stops {answer : Answer} {after : Reader}
    (behind : reader.Behind level pattern items) (rests : reader.round = .stop answer after) :
    reader.Stops level pattern items answer after := by
  obtain ⟨_, _, read, _⟩ | ⟨_, _, same, stops⟩ := behind.round
  · rw [rests] at read
    cases read
  · rw [rests] at same
    cases same
    exact stops

/-- Every call is answered. -/
theorem Behind.answers (behind : reader.Behind level pattern items) :
    Answers level pattern items reader.next := by
  induction reader using next.induct generalizing items with
  | case1 reader answer after rests =>
      rw [next, rests]
      rw [← List.append_nil items] at behind
      exact .stop (List.forall_mem_nil _) behind rests
  | case2 reader item after read token itself =>
      have further := behind.item read
      rw [next, read]
      simp only [itself]
      change Answers level pattern items ⟨[] ++ [item], .token token, after⟩
      exact .token (List.forall_mem_nil _) itself further
  | case3 reader item after read silent inductionHypothesis =>
      have later := inductionHypothesis (behind.item read)
      rw [next, read]
      simp only [silent]
      exact later.skip silent

end Reader

end VimPattern
