/-
Module: VimPattern.Proofs.Scan.Places
Purpose: Reading a text wherever it stands gives the same items at other places.
Main exports:
  Token.unlocated, Context.unlocated, Ending.unlocated, Scan.Alike, Scan.Alike.of_readFrom
-/
import VimPattern.Proofs.Scan.Reach

namespace VimPattern

/-!
Offsets are counted while a pattern is read, and kept in its items and in the constructs that
are open, so that errors can name them.  The rules ask for none of them.  Here they are
forgotten: two contexts that are the same without their offsets read the same items from a
text, whatever the offsets are.
-/

/-- The token without its offset. -/
def Token.unlocated (token : Token) : Token :=
  { token with position := 0 }

def Item.unlocated (item : Item) : Item :=
  { item with position := 0 }

def Enclosure.unlocated (enclosure : Enclosure) : Enclosure :=
  { enclosure with position := 0 }

def Context.unlocated (context : Context) : Context :=
  { context with enclosing := context.enclosing.map Enclosure.unlocated }

def Terminus.unlocated (terminus : Terminus) : Terminus :=
  { position := 0
    context := terminus.context.unlocated }

def Ending.unlocated : Ending → Ending
  | .finished terminus => .finished terminus.unlocated
  | .unterminated enclosure => .unterminated enclosure.unlocated
  | .noRule _ rest => .noRule 0 rest
  | .fault cause raw _ => .fault cause raw 0

def Scan.unlocated (scan : Scan) : Scan :=
  { items := scan.items.map Item.unlocated
    ending := scan.ending.unlocated }

namespace Context

@[simp] theorem magicness_unlocated (context : Context) :
    context.unlocated.magicness = context.magicness := rfl

@[simp] theorem tally_unlocated (context : Context) :
    context.unlocated.tally = context.tally := rfl

/-- The rules ask which constructs are open, and not where they have been opened. -/
theorem verdict_unlocated (context : Context) (char : Char) (text : List Char) :
    context.unlocated.verdict char text = context.verdict char text := by
  rcases context with ⟨level, _ | ⟨⟨_ | _, place⟩, outer⟩, star, line, tally⟩
  · rfl
  · rfl
  · rfl

theorem enclosingAfter_unlocated (context : Context) (position : Nat) (lexeme : Lexeme) :
    (context.enclosingAfter position lexeme).map Enclosure.unlocated =
      context.unlocated.enclosingAfter 0 lexeme := by
  cases lexeme with
  | collectionClose withBreak => exact List.map_drop
  | optionalClose => exact List.map_drop
  | _ => rfl

end Context

namespace Scan

theorem contextAfter_unlocated (context : Context) (content : Content) (raw : String)
    (position : Nat) :
    (contextAfter context content raw position).unlocated =
      contextAfter context.unlocated content raw 0 := by
  cases content with
  | mark mark => cases mark <;> rfl
  | lexeme lexeme =>
      have enclosing := context.enclosingAfter_unlocated position lexeme
      rw [contextAfter, contextAfter, Context.afterToken, Context.afterToken, ← enclosing]
      rfl

theorem endingOf_unlocated (context : Context) (position : Nat) :
    (endingOf context position).unlocated = endingOf context.unlocated 0 := by
  rcases context with ⟨level, _ | ⟨enclosure, outer⟩, star, line, tally⟩ <;> rfl

theorem unlocated_cons (item : Item) (scan : Scan) :
    (scan.cons item).unlocated = scan.unlocated.cons item.unlocated := rfl

/-- Contexts that are the same without their offsets read the same items. -/
theorem unlocated_readFrom {context other : Context}
    (same : context.unlocated = other.unlocated) (position place passed : Nat)
    (text : List Char) :
    (readFrom context position passed text).unlocated =
      (readFrom other place passed text).unlocated := by
  induction text generalizing context other position place passed with
  | nil =>
      have ended := (endingOf_unlocated context position).trans
        ((congrArg (endingOf · 0) same).trans (endingOf_unlocated other place).symm)
      rw [readFrom, readFrom, unlocated, unlocated, ended]
  | cons char text inductionHypothesis =>
      cases passed with
      | succ more => exact inductionHypothesis same _ _ more
      | zero =>
          have verdict : context.verdict char text = other.verdict char text := by
            rw [← context.verdict_unlocated, same, other.verdict_unlocated]
          rw [readFrom, readFrom, verdict]
          cases other.verdict char text with
          | fault fault extra => rfl
          | noRule => rfl
          | item content extra =>
              let raw := String.ofList (char :: text.take extra)
              have after : (contextAfter context content raw position).unlocated =
                  (contextAfter other content raw place).unlocated := by
                rw [contextAfter_unlocated, contextAfter_unlocated, same]
              have level : (contextAfter context content raw position).magicness =
                  (contextAfter other content raw place).magicness := by
                simpa using congrArg Context.magicness after
              have rest := inductionHypothesis after (position + char.utf8Size)
                (place + char.utf8Size) extra
              dsimp only
              rw [level, unlocated_cons, unlocated_cons, rest]
              rfl

/-- Two scans have read the same tokens, perhaps at other places, and have stopped for the same
reason. -/
structure Alike (scan other : Scan) : Prop where
  tokens : scan.tokens.map Token.unlocated = other.tokens.map Token.unlocated
  ending : scan.ending.unlocated = other.ending.unlocated

theorem Alike.symm {scan other : Scan} (alike : scan.Alike other) : other.Alike scan :=
  ⟨alike.tokens.symm, alike.ending.symm⟩

theorem tokens_unlocated (scan : Scan) :
    scan.unlocated.tokens = scan.tokens.map Token.unlocated := by
  rw [tokens, tokens, unlocated, List.filterMap_map, List.map_filterMap]
  congr 1
  funext item
  rcases item with ⟨_ | _, raw, position, level⟩ <;> rfl

/-- A text is read alike from two offsets, also behind items that leave no token. -/
theorem Alike.of_readFrom (context : Context) (position place : Nat) (items : List Item)
    {marks : List Item} (tokenless : marks.filterMap Item.token? = []) (text : List Char) :
    Alike ((readFrom context position 0 text).follow items)
      ((readFrom context place 0 text).follow (items ++ marks)) := by
  have same := @unlocated_readFrom context context rfl position place 0 text
  constructor
  · rw [tokens_follow, tokens_follow, List.filterMap_append, tokenless, List.append_nil,
      List.map_append, List.map_append, ← tokens_unlocated, same, tokens_unlocated]
  · exact congrArg Scan.ending same

end Scan

end VimPattern
