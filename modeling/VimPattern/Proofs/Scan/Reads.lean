/-
Module: VimPattern.Proofs.Scan.Reads
Purpose: Reading a pattern as a relation, one rule for each way to go on or to stop.
Main exports:
  Scan.Reads, Scan.reads_readFrom, Scan.readFrom_token, Scan.Reads.readFrom_eq,
  Scan.reads_ofPattern
-/
import VimPattern.Scan.Tiling

namespace VimPattern.Scan

/-!
`Reads` says what `readFrom` does without counting characters that belong to an
item already: each rule takes a whole item.  Facts about scans are inductions on
it, with one case for an item that leaves a token and one for an item that does
not.
-/

/-- Reading this text from this context and offset gives this scan. -/
inductive Reads : Context → Nat → List Char → Scan → Prop where
  | ended (context : Context) (position : Nat) :
      Reads context position []
        { items := []
          ending := endingOf context position }
  | mark {context : Context} {position : Nat} {char : Char} {text : List Char}
      {mark : Mark} {extra : Nat} {scan : Scan}
      (verdict : context.verdict char text = .item (.mark mark) extra)
      (rest :
        Reads (context.afterMark mark)
          (position + byteLength (char :: text.take extra)) (text.drop extra) scan) :
      Reads context position (char :: text)
        (scan.cons
          { content := .mark mark
            raw := String.ofList (char :: text.take extra)
            position := position
            magicness := (context.afterMark mark).magicness })
  | token {context : Context} {position : Nat} {char : Char} {text : List Char}
      {token : Token} {extra : Nat} {scan : Scan}
      (verdict : context.verdict char text = .item (.lexeme token.lexeme) extra)
      (raw : token.raw = String.ofList (char :: text.take extra))
      (place : token.position = position)
      (level : token.magicness = context.magicness)
      (rest :
        Reads (context.afterToken token)
          (position + byteLength (char :: text.take extra)) (text.drop extra) scan) :
      Reads context position (char :: text)
        (scan.cons
          { content := .lexeme token.lexeme
            raw := token.raw
            position := token.position
            magicness := token.magicness })
  | fault {context : Context} {position : Nat} {char : Char} {text : List Char}
      {fault : Fault} {extra : Nat}
      (verdict : context.verdict char text = .fault fault extra) :
      Reads context position (char :: text)
        { items := []
          ending :=
            .fault fault (String.ofList (char :: text.take extra)) position }
  | noRule {context : Context} {position : Nat} {char : Char} {text : List Char}
      (verdict : context.verdict char text = .noRule) :
      Reads context position (char :: text)
        { items := []
          ending := .noRule position (String.ofList (char :: text)) }

/-- An item with a token adds it in front. -/
@[simp] theorem tokens_cons_lexeme (scan : Scan) (token : Token) :
    (scan.cons
      { content := .lexeme token.lexeme
        raw := token.raw
        position := token.position
        magicness := token.magicness }).tokens = token :: scan.tokens := rfl

/-- `readFrom` reads. -/
theorem reads_readFrom (context : Context) (position : Nat) (text : List Char) :
    Reads context position text (readFrom context position 0 text) := by
  -- An item takes at least one character, so the induction is on the length.
  induction length : text.length using Nat.strongRecOn
    generalizing context position text with
  | ind size inductionHypothesis =>
      cases text with
      | nil => exact .ended context position
      | cons char text =>
          have shorter (extra : Nat) : (text.drop extra).length < size := by
            rw [List.length_drop, ← length, List.length_cons]
            omega
          cases verdict : context.verdict char text with
          | item content extra =>
              rw [readFrom_item verdict]
              cases content with
              | mark mark =>
                  exact .mark verdict (inductionHypothesis _ (shorter extra) _ _ _ rfl)
              | lexeme lexeme =>
                  let token : Token :=
                    { lexeme := lexeme
                      raw := String.ofList (char :: text.take extra)
                      position := position
                      magicness := context.magicness }
                  have rest :=
                    inductionHypothesis _ (shorter extra) (context.afterToken token)
                      (position + byteLength (char :: text.take extra)) _ rfl
                  exact @Reads.token _ _ _ _ token _ _ verdict rfl rfl rfl rest
          | fault fault extra =>
              rw [readFrom, verdict]
              exact .fault verdict
          | noRule =>
              rw [readFrom, verdict]
              exact .noRule verdict

/-- The scan of a text that starts with this token goes on behind it. -/
theorem readFrom_token {context : Context} {position : Nat} {char : Char}
    {text : List Char} {token : Token} {extra : Nat}
    (verdict : context.verdict char text = .item (.lexeme token.lexeme) extra)
    (raw : token.raw = String.ofList (char :: text.take extra))
    (place : token.position = position) (level : token.magicness = context.magicness) :
    readFrom context position 0 (char :: text) =
      (readFrom (context.afterToken token)
        (position + byteLength (char :: text.take extra)) 0 (text.drop extra)).cons
        { content := .lexeme token.lexeme
          raw := token.raw
          position := token.position
          magicness := token.magicness } := by
  rcases token with ⟨lexeme, _, _, _⟩
  subst raw place level
  exact readFrom_item verdict _

/-- What is read is what `readFrom` gives. -/
theorem Reads.readFrom_eq {context : Context} {position : Nat} {text : List Char}
    {scan : Scan} (reads : Reads context position text scan) :
    readFrom context position 0 text = scan := by
  induction reads with
  | ended => rfl
  | mark verdict _ inductionHypothesis =>
      rw [readFrom_item verdict, contextAfter, inductionHypothesis]
  | token verdict raw place level _ inductionHypothesis =>
      rw [readFrom_token verdict raw place level, inductionHypothesis]
  | fault verdict => rw [readFrom, verdict]
  | noRule verdict => rw [readFrom, verdict]

/-- Reading a whole pattern. -/
theorem reads_ofPattern (level : Magicness) (pattern : String) :
    Reads (.start level) 0 pattern.toList (ofPattern level pattern) :=
  reads_readFrom _ _ _

end VimPattern.Scan
